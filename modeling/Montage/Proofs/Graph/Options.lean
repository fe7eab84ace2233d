import Montage.Proofs.Graph.Integrity

/-! A drawn text is read back as its overlay asks for. Behind the quotes of the graph, the options of a
filter are parted at colons, and the text option is expanded before it is drawn; both readers take a
character behind a backslash as it is. Escaping once for each of them, the last reader first, is undone
by reading in the other order. -/
namespace Montage.Filter

open Timestamp (formatSeconds)

/-- The characters of a text, each with whether a backslash made it literal. -/
def unescape : List Char → List (Char × Bool)
  | [] => []
  | [c] => [(c, false)]
  | c :: d :: cs => if c = '\\' then (d, true) :: unescape cs else (c, false) :: unescape (d :: cs)

def readOptions (cs : List Char) : List (Option (List Char × List Char)) :=
  ((unescape cs).splitOn (':', false)).map fun xs => Text.splitFirst? '=' (xs.map Prod.fst)

/-- What is drawn for a value, unless it has a percent sign that would begin an expansion. -/
def expand? (value : List Char) : Option (List Char) :=
  if ('%', false) ∈ unescape value then none else some ((unescape value).map Prod.fst)

def askedOptions (fontDir : String) (o : TextOverlay) (value : List Char) :
    List (String × List Char) :=
  [("fontfile", (fontFile fontDir o.fontFamily).toList),
    ("text", value),
    ("fontcolor", o.color.toList),
    ("fontsize", (Numeral.text o.fontSize).toList),
    ("x", (formatSeconds o.position.x).toList),
    ("y", (formatSeconds o.position.y).toList),
    ("enable", ("between(t," ++ formatSeconds o.visibleFrom ++ "," ++
      formatSeconds o.visibleUntil ++ ")").toList)]

namespace Statement

/-- Behind the name of its filter a statement has just the options that an overlay asks for. -/
def Draws (fontDir : String) (o : TextOverlay) (s : Statement) : Prop :=
  ∃ body value : List Char,
    s.text.toList = padTexts s.inputPads ++ "drawtext=".toList ++ body ++
      padTexts s.outputPad.toList ∧
    readOptions (unquoted body) =
      (askedOptions fontDir o value).map (fun (key, text) => some (key.toList, text)) ∧
    expand? value = some o.text.toList

def isDrawText : Statement → Bool
  | drawText .. => true
  | _ => false

end Statement

section
variable {special : List Char}

theorem unescape_cons {c : Char} (h : c ≠ '\\') (cs : List Char) :
    unescape (c :: cs) = (c, false) :: unescape cs := by
  cases cs with
  | nil => rfl
  | cons d cs => rw [unescape, if_neg h]

def literals (special cs : List Char) : List (Char × Bool) :=
  cs.map fun c => (c, decide (c ∈ special))

@[simp] theorem map_fst_literals (cs : List Char) : (literals special cs).map Prod.fst = cs := by
  rw [literals, List.map_map]
  exact List.map_id _

theorem not_mem_literals {c : Char} (h : c ∈ special) (cs : List Char) :
    (c, false) ∉ literals special cs := by
  intro found
  obtain ⟨d, -, same⟩ := List.mem_map.1 found
  obtain ⟨rfl, other⟩ := Prod.mk.inj same
  exact of_decide_eq_false other h

theorem unescape_escape_append (backslash : '\\' ∈ special) (cs rest : List Char) :
    unescape (escape special cs ++ rest) = literals special cs ++ unescape rest := by
  induction cs with
  | nil => rfl
  | cons c cs ih =>
    simp only [escape, literals, List.flatMap_cons, List.map_cons, List.append_assoc] at ih ⊢
    by_cases h : c ∈ special
    · rw [if_pos h, List.cons_append, List.singleton_append, unescape, if_pos rfl, ih]
      simp [h]
    · have other : c ≠ '\\' := fun same => h (same ▸ backslash)
      rw [if_neg h, List.singleton_append, unescape_cons other, ih]
      simp [h]

theorem unescape_escape (backslash : '\\' ∈ special) (cs : List Char) :
    unescape (escape special cs) = literals special cs := by
  simpa [unescape] using unescape_escape_append backslash cs []

theorem escape_append (a b : List Char) :
    escape special (a ++ b) = escape special a ++ escape special b :=
  List.flatMap_append

theorem escape_of_not_mem {cs : List Char} (h : ∀ c ∈ cs, c ∉ special) :
    escape special cs = cs := by
  induction cs with
  | nil => rfl
  | cons c cs ih =>
    rw [List.forall_mem_cons] at h
    simp only [escape, List.flatMap_cons, if_neg h.1, List.singleton_append] at ih ⊢
    rw [ih h.2]

end

theorem IsBare.escape_eq {cs : List Char} (h : IsBare cs) : escape optionSpecial cs = cs :=
  escape_of_not_mem h.not_mem_optionSpecial

theorem readOptions_intercalate {fields : List (List Char)} (nonempty : fields ≠ []) :
    readOptions ([':'].intercalate (fields.map (escape optionSpecial))) =
      fields.map (Text.splitFirst? '=') := by
  have marked : unescape ([':'].intercalate (fields.map (escape optionSpecial))) =
      [(':', false)].intercalate (fields.map (literals optionSpecial)) := by
    clear nonempty
    induction fields with
    | nil => rfl
    | cons f rest ih =>
      cases rest with
      | nil => simpa using unescape_escape (by decide) f
      | cons g rest =>
        simp only [List.map_cons, List.intercalate_cons_cons, List.append_assoc] at ih ⊢
        rw [unescape_escape_append (by decide), List.singleton_append, unescape_cons (by decide), ih]
        rfl
  rw [readOptions, marked, List.splitOn_intercalate]
  · simp
  · intro xs hxs
    obtain ⟨f, -, rfl⟩ := List.mem_map.1 hxs
    exact not_mem_literals (by decide) f
  · simpa using nonempty

theorem expand?_escape (cs : List Char) : expand? (escape expansionSpecial cs) = some cs := by
  rw [expand?, unescape_escape (by decide), if_neg (not_mem_literals (by decide) cs),
    map_fst_literals]

theorem unquoted_intercalate {texts : List (List Char)} (h : ∀ t ∈ texts, Sealed delimiters t) :
    unquoted ([':'].intercalate texts) = [':'].intercalate (texts.map unquoted) := by
  induction texts with
  | nil => rfl
  | cons t rest ih =>
    rw [List.forall_mem_cons] at h
    cases rest with
    | nil => simp
    | cons u rest =>
      have colon : Sealed delimiters [':'] := .of_isInert (Text.forall_mem_of_all (by decide))
      simp only [List.map_cons, List.intercalate_cons_cons, List.append_assoc] at ih ⊢
      rw [unquoted_append h.1, unquoted_append colon, ih h.2]
      rfl

theorem IsBare.unquoted_eq {cs : List Char} (h : IsBare cs) : unquoted cs = cs :=
  unquoted_of_isInert fun c hc => isInert_of_not_mem (h c hc)

theorem unquoted_option {key cs value : List Char} (word : IsBare key)
    (h : unquoted value = escape optionSpecial cs) :
    unquoted (key ++ value) = escape optionSpecial (key ++ cs) := by
  have inert : Sealed delimiters key := word.sealed
  rw [unquoted_append inert, word.unquoted_eq, h, escape_append, word.escape_eq]

theorem IsBare.unquoted_eq_escape {cs : List Char} (h : IsBare cs) :
    unquoted cs = escape optionSpecial cs := by
  rw [h.unquoted_eq, h.escape_eq]

def assignment (option : String × List Char) : List Char := option.1.toList ++ '=' :: option.2

theorem unquoted_options {fontDir : String} {o : TextOverlay} {l : Lettering}
    (h : letter fontDir o = .ok l) (base : Pad) (output : Option Pad) :
    ((l.statement base output).options.map String.toList).map unquoted =
      ((askedOptions fontDir o (escape expansionSpecial o.text.toList)).map assignment).map
        (escape optionSpecial) := by
  have clean := isClean_of_letter h base output
  obtain ⟨-, -, -, -, text, escaped, rfl⟩ := letter_eq_ok_iff.1 h
  obtain ⟨file, -, color, x, y, start, stop⟩ := clean
  obtain ⟨-, -, rfl⟩ := escapeText_eq_ok_iff.1 escaped
  have gate := escape_of_not_mem (not_mem_optionSpecial_gate start stop)
  rw [Lettering.statement, Statement.options_drawText]
  simp only [List.map_cons, List.map_nil]
  rw [toList_gate start stop]
  simp only [String.toList_append, String.toList_ofList]
  rw [unquoted_option (by decide) file.unquoted_eq_escape,
    unquoted_option (by decide) (unquoted_singleQuoted _),
    unquoted_option (by decide) color.unquoted_eq_escape,
    unquoted_option (by decide) (isBare_numeral _).unquoted_eq_escape,
    unquoted_option (by decide) (isBare_formatSeconds x).unquoted_eq_escape,
    unquoted_option (by decide) (isBare_formatSeconds y).unquoted_eq_escape,
    unquoted_option (by decide) ((unquoted_singleQuoted _).trans gate.symm)]
  simp only [askedOptions, assignment, List.map_cons, List.map_nil]
  rfl

theorem readOptions_asked (fontDir : String) (o : TextOverlay) (value : List Char) :
    readOptions ([':'].intercalate
      (((askedOptions fontDir o value).map assignment).map (escape optionSpecial))) =
        (askedOptions fontDir o value).map fun (key, text) => some (key.toList, text) := by
  rw [readOptions_intercalate (by simp [askedOptions]), List.map_map]
  refine List.map_congr_left fun option found => Text.splitFirst?_append ?_
  have keys : ∀ key ∈ (askedOptions fontDir o value).map Prod.fst, '=' ∉ key.toList := by
    have all : ∀ key ∈ ["fontfile", "text", "fontcolor", "fontsize", "x", "y", "enable"],
        '=' ∉ key.toList := by decide
    exact all
  exact keys _ (List.mem_map_of_mem found)

theorem draws_of_letter {fontDir : String} {o : TextOverlay} {l : Lettering}
    (h : letter fontDir o = .ok l) (base : Pad) (output : Option Pad) :
    (l.statement base output).Draws fontDir o := by
  have clean := isClean_of_letter h base output
  refine ⟨[':'].intercalate ((l.statement base output).options.map String.toList),
    escape expansionSpecial o.text.toList, ?_, ?_, expand?_escape _⟩
  · rw [Statement.toList_text, Statement.toList_filter, ← List.append_assoc]
    rfl
  · rw [unquoted_intercalate (List.forall_mem_map.2 clean.sealed_options), unquoted_options h,
      readOptions_asked]

theorem drawn_texts_read_back (fontDir : String) (images : List ImageInput)
    (texts : List TextOverlay) (g : Graph)
    (compiled : (compile fontDir images texts).value = .ok g) :
    (∀ k o, texts[k]? = some o → ∃ s, g.statements[2 * images.length + k]? = some s ∧
      s.isDrawText = true ∧ s.Draws fontDir o) ∧
    (∀ i s, g.statements[i]? = some s → s.isDrawText = true →
      ∃ k o, i = 2 * images.length + k ∧ texts[k]? = some o ∧ s.Draws fontDir o) ∧
    ∀ text e, escapeText text = .error e ↔ text = "" ∧ e = .empty ∨
      ∃ c i, e = .unsupportedCharacter c i ∧ text.toList[i]? = some c ∧
        Text.isControl c = true ∧
        ∀ j < i, ∀ d, text.toList[j]? = some d → Text.isControl d = false := by
  obtain ⟨-, letters, lettered, statements⟩ :=
    graphOf_eq_ok_iff.1 (value_compile_eq_ok_iff.1 compiled)
  rw [statements]
  refine ⟨?_, ?_, ?_⟩
  · intro k o asked
    obtain ⟨l, found, written⟩ := exists_getElem?_of_forall₂ lettered asked
    exact ⟨_, (Drawn.text found).getElem?, rfl, draws_of_letter written _ _⟩
  · intro i s found draws
    cases getElem?_drawing_iff.1 found with
    | scale => cases draws
    | overlay => cases draws
    | @text k l letter =>
      obtain ⟨o, asked, written⟩ := exists_getElem?_of_forall₂ lettered.flip letter
      exact ⟨k, o, rfl, asked, draws_of_letter written _ _⟩
  · intro text e
    simp only [escapeText_eq_error_iff, firstControl?_eq_some_iff]
    refine or_congr_right (exists_congr fun c => exists_congr fun i => ?_)
    exact and_comm

theorem caption_reads_back :
    ∃ g s, (compile "/f" (ImageInput.ofOverlays [.photo]) [.caption]).value = .ok g ∧
      g.statements[2]? = some s ∧ s.Draws "/f" .caption := by
  obtain ⟨g, compiled⟩ : ∃ g,
      (compile "/f" (ImageInput.ofOverlays [.photo]) [.caption]).value = .ok g :=
    exists_eq_ok_of_isSome (by decide +kernel)
  obtain ⟨s, found, -, draws⟩ :=
    (drawn_texts_read_back "/f" (ImageInput.ofOverlays [.photo]) [.caption] g compiled).1 0
      .caption rfl
  exact ⟨g, s, compiled, found, draws⟩

end Montage.Filter
