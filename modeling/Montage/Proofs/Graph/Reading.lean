import Montage.Filter.Graph
import Montage.Text.Quoted

/-! How the engine reads the text of a filter graph, apart from how it is written. Outside quotes a
backslash makes the next character literal and a quote opens quotes; within quotes everything is
literal up to the next quote. A text that returns to where it began, with delimiters inside quotes
only, can stand between others without any of them being read in another way. -/
namespace Montage.Filter

inductive Mode where
  | plain
  /-- Behind a backslash. -/
  | escaped
  | quoted
deriving DecidableEq

namespace Mode

def next : Mode → Char → Mode
  | plain, c => if c = '\\' then escaped else if c = '\'' then quoted else plain
  | escaped, _ => plain
  | quoted, c => if c = '\'' then plain else quoted

def behind (m : Mode) (cs : List Char) : Mode := cs.foldl next m

end Mode

def marks : Mode → List Char → List (Char × Mode)
  | _, [] => []
  | m, c :: cs => (c, m) :: marks (m.next c) cs

/-- The statements as they are found in the text of a graph: what stands between its semicolons. -/
def pieces (cs : List Char) : List (List Char) :=
  ((marks .plain cs).splitOn (';', .plain)).map (·.map Prod.fst)

inductive Part where
  | pad (name : List Char)
  | filter (cs : List Char)
deriving DecidableEq

def between (cs : List Char) : List Part := if cs = [] then [] else [.filter cs]

/-- The parts from here on, behind the beginning of one. A bracket that nothing closes is text. -/
def partsFrom : Part → List (Char × Mode) → List Part
  | .filter cs, [] => between cs
  | .pad cs, [] => between ('[' :: cs)
  | .filter cs, x :: rest =>
    if x = ('[', .plain) then between cs ++ partsFrom (.pad []) rest
    else partsFrom (.filter (cs ++ [x.1])) rest
  | .pad cs, x :: rest =>
    if x = (']', .plain) then .pad cs :: partsFrom (.filter []) rest
    else partsFrom (.pad (cs ++ [x.1])) rest

def parts (cs : List Char) : List Part := partsFrom (.filter []) (marks .plain cs)

/-- Whether a character only says how others are to be read. -/
def isSign : Char × Mode → Bool
  | (c, .plain) => c = '\\' || c = '\''
  | (_, .escaped) => false
  | (c, .quoted) => c = '\''

def unquoted (cs : List Char) : List Char :=
  ((marks .plain cs).filter fun x => !isSign x).map Prod.fst

def delimiters : List Char := [';', ',', '[', ']']

/-- A text that ends as it began, outside quotes, and holds some characters within quotes only. -/
structure Sealed (special cs : List Char) : Prop where
  plain : Mode.plain.behind cs = .plain
  quoted : ∀ x ∈ marks .plain cs, x.1 ∈ special → x.2 = .quoted

def IsInert (special : List Char) (c : Char) : Prop := c ≠ '\\' ∧ c ≠ '\'' ∧ c ∉ special

instance (special : List Char) (c : Char) : Decidable (IsInert special c) :=
  inferInstanceAs (Decidable (_ ∧ _))

variable {special : List Char}

theorem Mode.behind_append (m : Mode) (a b : List Char) :
    m.behind (a ++ b) = (m.behind a).behind b := by
  simp [Mode.behind]

theorem marks_append (m : Mode) (a b : List Char) :
    marks m (a ++ b) = marks m a ++ marks (m.behind a) b := by
  induction a generalizing m with
  | nil => rfl
  | cons c a ih => simp [marks, ih, Mode.behind]

@[simp] theorem map_fst_marks (m : Mode) (cs : List Char) : (marks m cs).map Prod.fst = cs := by
  induction cs generalizing m with
  | nil => rfl
  | cons c cs ih => simp [marks, ih]

theorem Mode.next_of_isInert {c : Char} (h : IsInert special c) : Mode.plain.next c = .plain := by
  simp [Mode.next, h.1, h.2.1]

theorem Mode.behind_of_isInert {cs : List Char} (h : ∀ c ∈ cs, IsInert special c) :
    Mode.plain.behind cs = .plain := by
  induction cs with
  | nil => rfl
  | cons c cs ih =>
    have head := Mode.next_of_isInert (h c (List.mem_cons_self ..))
    simpa [Mode.behind, head] using ih fun d hd => h d (List.mem_cons_of_mem c hd)

theorem marks_of_isInert {cs : List Char} (h : ∀ c ∈ cs, IsInert special c) :
    marks .plain cs = cs.map fun c => (c, .plain) := by
  induction cs with
  | nil => rfl
  | cons c cs ih =>
    have head := Mode.next_of_isInert (h c (List.mem_cons_self ..))
    simp [marks, head, ih fun d hd => h d (List.mem_cons_of_mem c hd)]

/-- What follows an opening quote: wherever a quote would end it, quotes are opened again. Nothing but
quotes and backslashes stands outside them. -/
theorem marks_tail_singleQuoted (cs : List Char) :
    Mode.quoted.behind (Text.singleQuoted cs).tail = .plain ∧
      (∀ x ∈ marks .quoted (Text.singleQuoted cs).tail,
        x.2 = .quoted ∨ x ∈ [('\\', .plain), ('\'', .escaped), ('\'', .plain)]) ∧
      ((marks .quoted (Text.singleQuoted cs).tail).filter fun x => !isSign x).map Prod.fst = cs := by
  induction cs with
  | nil => decide
  | cons c cs ih =>
    simp only [Text.singleQuoted, List.cons_append, List.tail_cons] at ih ⊢
    obtain ⟨behind, outside, text⟩ := ih
    by_cases h : c = '\''
    · subst h
      refine ⟨?_, ?_, ?_⟩
      · simpa [Mode.behind, Mode.next] using behind
      · simpa [marks, Mode.next] using outside
      · simpa [marks, Mode.next, isSign] using text
    · refine ⟨?_, ?_, ?_⟩
      · simpa [Mode.behind, Mode.next, h] using behind
      · simpa [marks, Mode.next, h] using outside
      · simpa [marks, Mode.next, isSign, h] using text

theorem marks_singleQuoted (cs : List Char) : ∀ x ∈ marks .plain (Text.singleQuoted cs),
    x.2 = .quoted ∨ x ∈ [('\\', .plain), ('\'', .escaped), ('\'', .plain)] := by
  intro x hx
  rcases List.mem_cons.1 hx with rfl | hx
  · simp
  · exact (marks_tail_singleQuoted cs).2.1 x hx

namespace Sealed

theorem append {a b : List Char} (ha : Sealed special a) (hb : Sealed special b) :
    Sealed special (a ++ b) where
  plain := by rw [Mode.behind_append, ha.plain, hb.plain]
  quoted := by
    intro x hx
    rw [marks_append, ha.plain] at hx
    exact (List.mem_append.1 hx).elim (ha.quoted x) (hb.quoted x)

theorem of_isInert {cs : List Char} (h : ∀ c ∈ cs, IsInert special c) : Sealed special cs where
  plain := Mode.behind_of_isInert h
  quoted := by
    intro x hx found
    rw [marks_of_isInert h] at hx
    obtain ⟨c, hc, rfl⟩ := List.mem_map.1 hx
    exact absurd found (h c hc).2.2

theorem singleQuoted (quote : '\'' ∉ special) (backslash : '\\' ∉ special) (cs : List Char) :
    Sealed special (Text.singleQuoted cs) where
  plain := (marks_tail_singleQuoted cs).1
  quoted := by
    intro x hx found
    refine (marks_singleQuoted cs x hx).resolve_right fun outside => ?_
    simp only [List.mem_cons, List.not_mem_nil, or_false] at outside
    rcases outside with rfl | rfl | rfl
    · exact backslash found
    · exact quote found
    · exact quote found

theorem mono {less cs : List Char} (h : Sealed special cs) (fewer : less ⊆ special) :
    Sealed less cs :=
  ⟨h.plain, fun x hx found => h.quoted x hx (fewer found)⟩

theorem intercalate {separator : List Char} (hs : Sealed special separator)
    {texts : List (List Char)} (h : ∀ t ∈ texts, Sealed special t) :
    Sealed special (separator.intercalate texts) := by
  induction texts with
  | nil => exact ⟨rfl, fun x hx => nomatch hx⟩
  | cons t rest ih =>
    cases rest with
    | nil => simpa using h t (List.mem_cons_self ..)
    | cons u rest =>
      rw [List.intercalate_cons_cons, List.append_assoc]
      exact (h t (List.mem_cons_self ..)).append
        (hs.append (ih fun v hv => h v (List.mem_cons_of_mem t hv)))

end Sealed

/-- Texts that each end outside quotes are found again between their separators. -/
theorem splitOn_marks_intercalate {separator : Char} (bare : Mode.plain.next separator = .plain)
    {texts : List (List Char)} (nonempty : texts ≠ []) (h : ∀ t ∈ texts, Sealed [separator] t) :
    (marks .plain ([separator].intercalate texts)).splitOn (separator, .plain) =
      texts.map (marks .plain) := by
  have marked : marks .plain ([separator].intercalate texts) =
      [(separator, .plain)].intercalate (texts.map (marks .plain)) := by
    clear nonempty
    induction texts with
    | nil => rfl
    | cons t rest ih =>
      have tail := ih fun u hu => h u (List.mem_cons_of_mem t hu)
      cases rest with
      | nil => simp
      | cons u rest =>
        have ht := h t (List.mem_cons_self ..)
        simp only [List.intercalate_cons_cons, List.map_cons, List.append_assoc] at tail ⊢
        rw [marks_append, ht.plain, List.singleton_append, marks, bare, ← tail]
        rfl
  rw [marked, List.splitOn_intercalate]
  · intro xs hxs found
    obtain ⟨t, ht, rfl⟩ := List.mem_map.1 hxs
    cases (h t ht).quoted _ found (List.mem_singleton_self _)
  · simpa using nonempty

theorem pieces_intercalate {texts : List (List Char)} (nonempty : texts ≠ [])
    (h : ∀ t ∈ texts, Sealed [';'] t) : pieces ([';'].intercalate texts) = texts := by
  rw [pieces, splitOn_marks_intercalate rfl nonempty h, List.map_map]
  exact (List.map_congr_left fun t _ => map_fst_marks .plain t).trans (List.map_id _)

theorem partsFrom_filter {xs : List (Char × Mode)} (h : ('[', .plain) ∉ xs) (cs : List Char)
    (rest : List (Char × Mode)) :
    partsFrom (.filter cs) (xs ++ rest) = partsFrom (.filter (cs ++ xs.map Prod.fst)) rest := by
  induction xs generalizing cs with
  | nil => simp
  | cons x xs ih =>
    obtain ⟨head, tail⟩ := List.ne_and_not_mem_of_not_mem_cons h
    simp [partsFrom, Ne.symm head, ih tail]

theorem partsFrom_pad {xs : List (Char × Mode)} (h : (']', .plain) ∉ xs) (cs : List Char)
    (rest : List (Char × Mode)) :
    partsFrom (.pad cs) (xs ++ rest) = partsFrom (.pad (cs ++ xs.map Prod.fst)) rest := by
  induction xs generalizing cs with
  | nil => simp
  | cons x xs ih =>
    obtain ⟨head, tail⟩ := List.ne_and_not_mem_of_not_mem_cons h
    simp [partsFrom, Ne.symm head, ih tail]

theorem unquoted_append {a : List Char} (ha : Sealed special a) (b : List Char) :
    unquoted (a ++ b) = unquoted a ++ unquoted b := by
  simp [unquoted, marks_append, ha.plain]

theorem unquoted_of_isInert {cs : List Char} (h : ∀ c ∈ cs, IsInert special c) :
    unquoted cs = cs := by
  have kept : ∀ x ∈ marks .plain cs, (!isSign x) = true := by
    intro x hx
    rw [marks_of_isInert h] at hx
    obtain ⟨c, hc, rfl⟩ := List.mem_map.1 hx
    simp [isSign, (h c hc).1, (h c hc).2.1]
  rw [unquoted, List.filter_eq_self.2 kept, map_fst_marks]

theorem unquoted_singleQuoted (cs : List Char) : unquoted (Text.singleQuoted cs) = cs := by
  simpa [unquoted, Text.singleQuoted, marks, Mode.next, isSign] using
    (marks_tail_singleQuoted cs).2.2

theorem singleQuoted_of_not_mem {cs : List Char} (h : '\'' ∉ cs) :
    Text.singleQuoted cs = '\'' :: cs ++ ['\''] := by
  have same : ∀ c ∈ cs, (if c = '\'' then ['\'', '\\', '\'', '\''] else [c]) = [c] := by
    intro c hc
    rw [if_neg]
    rintro rfl
    exact h hc
  rw [Text.singleQuoted, List.flatMap_def, List.map_congr_left same, ← List.flatMap_def,
    List.flatMap_singleton']

end Montage.Filter
