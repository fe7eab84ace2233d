import Montage.Proofs.Graph.Drawing
import Montage.Proofs.Graph.Lettering
import Montage.Proofs.Graph.Reading
import Montage.Proofs.Graph.Values

/-! The text of a compiled graph is read as the statements it was written from. The values of a statement
are bare or quoted, so its filter is sealed; its pads are the only brackets outside quotes, and the
semicolons between the statements the only ones there. -/
namespace Montage.Filter

open Timestamp (formatSeconds)

namespace Statement

/-- What the compiler knows of the values of its statements. -/
def IsClean : Statement → Prop
  | scale _ _ size => size.width.isFinite = true ∧ size.height.isFinite = true
  | overlay _ _ position gate _ => position.x.isFinite = true ∧ position.y.isFinite = true ∧
      gate.start.isFinite = true ∧ gate.stop.isFinite = true
  | drawText _ fontFile text color _ position gate _ => IsBare fontFile.toList ∧
      (∃ cs, text.toList = Text.singleQuoted cs) ∧ IsBare color.toList ∧
      position.x.isFinite = true ∧ position.y.isFinite = true ∧
      gate.start.isFinite = true ∧ gate.stop.isFinite = true

def filterName : Statement → String
  | scale .. => "scale="
  | overlay .. => "overlay="
  | drawText .. => "drawtext="

def options : Statement → List String
  | scale _ _ size => [formatSeconds size.width, formatSeconds size.height]
  | overlay _ _ position gate _ =>
    ["x=" ++ formatSeconds position.x, "y=" ++ formatSeconds position.y,
      "enable='" ++ gate.text ++ "'"]
  | drawText _ fontFile text color fontSize position gate _ =>
    ["fontfile=" ++ fontFile, "text=" ++ text, "fontcolor=" ++ color,
      "fontsize=" ++ Numeral.text fontSize, "x=" ++ formatSeconds position.x,
      "y=" ++ formatSeconds position.y, "enable='" ++ gate.text ++ "'"]

section
variable (input scaled base : Pad) (size : Size) (fontFile text color : String) (fontSize : Nat)
  (position : Position) (gate : TimeGate) (output : Option Pad)

-- Stated by `rfl`: unfolding the functions instead makes Lean compute the texts in their branches.
theorem filter_scale : (scale input scaled size).filter =
    "scale=" ++ formatSeconds size.width ++ ":" ++ formatSeconds size.height := rfl

theorem filter_overlay : (overlay base scaled position gate output).filter =
    "overlay=x=" ++ formatSeconds position.x ++ ":y=" ++ formatSeconds position.y ++
      ":enable='" ++ gate.text ++ "'" := rfl

theorem filter_drawText :
    (drawText base fontFile text color fontSize position gate output).filter =
      "drawtext=fontfile=" ++ fontFile ++ ":text=" ++ text ++ ":fontcolor=" ++ color ++
        ":fontsize=" ++ Numeral.text fontSize ++ ":x=" ++ formatSeconds position.x ++
        ":y=" ++ formatSeconds position.y ++ ":enable='" ++ gate.text ++ "'" := rfl

theorem filterName_scale : (scale input scaled size).filterName = "scale=" := rfl

theorem filterName_overlay :
    (overlay base scaled position gate output).filterName = "overlay=" := rfl

theorem filterName_drawText :
    (drawText base fontFile text color fontSize position gate output).filterName =
      "drawtext=" := rfl

theorem options_scale : (scale input scaled size).options =
    [formatSeconds size.width, formatSeconds size.height] := rfl

theorem options_overlay : (overlay base scaled position gate output).options =
    ["x=" ++ formatSeconds position.x, "y=" ++ formatSeconds position.y,
      "enable='" ++ gate.text ++ "'"] := rfl

theorem options_drawText :
    (drawText base fontFile text color fontSize position gate output).options =
      ["fontfile=" ++ fontFile, "text=" ++ text, "fontcolor=" ++ color,
        "fontsize=" ++ Numeral.text fontSize, "x=" ++ formatSeconds position.x,
        "y=" ++ formatSeconds position.y, "enable='" ++ gate.text ++ "'"] := rfl

end

theorem toList_filter (s : Statement) :
    s.filter.toList = s.filterName.toList ++ [':'].intercalate (s.options.map String.toList) := by
  cases s with
  | scale =>
    rw [filter_scale, filterName_scale, options_scale]
    simp only [String.toList_append, List.map_cons, List.map_nil, List.intercalate_cons_cons,
      List.intercalate_singleton, List.append_assoc]
    rfl
  | overlay =>
    rw [filter_overlay, filterName_overlay, options_overlay]
    simp only [String.toList_append, List.map_cons, List.map_nil, List.intercalate_cons_cons,
      List.intercalate_singleton, List.append_assoc]
    rfl
  | drawText =>
    rw [filter_drawText, filterName_drawText, options_drawText]
    simp only [String.toList_append, List.map_cons, List.map_nil, List.intercalate_cons_cons,
      List.intercalate_singleton, List.append_assoc]
    rfl

end Statement

theorem isInert_of_not_mem {c : Char} (h : c ∉ pathReserved) : IsInert delimiters c := by
  refine ⟨?_, ?_, ?_⟩
  · rintro rfl
    exact h (by decide)
  · rintro rfl
    exact h (by decide)
  · have all : ∀ d ∈ delimiters, d ∈ pathReserved := Text.forall_mem_of_all (by decide)
    exact fun found => h (all c found)

theorem IsBare.sealed {cs : List Char} (h : IsBare cs) : Sealed delimiters cs :=
  .of_isInert fun c hc => isInert_of_not_mem (h c hc)

theorem not_mem_optionSpecial_gate {g : TimeGate} (start : g.start.isFinite = true)
    (stop : g.stop.isFinite = true) : ∀ c ∈ g.text.toList, c ∉ optionSpecial := by
  have number : ∀ {x : Binary64}, x.isFinite = true →
      ∀ c ∈ (formatSeconds x).toList, c ∉ optionSpecial :=
    fun finite => (isBare_formatSeconds finite).not_mem_optionSpecial
  simp only [TimeGate.text, String.toList_append, List.forall_mem_append]
  refine ⟨⟨⟨⟨?_, number start⟩, ?_⟩, number stop⟩, ?_⟩
  · exact Text.forall_mem_of_all (by decide)
  · exact Text.forall_mem_of_all (by decide)
  · exact Text.forall_mem_of_all (by decide)

theorem toList_gate {g : TimeGate} (start : g.start.isFinite = true)
    (stop : g.stop.isFinite = true) :
    ("enable='" ++ g.text ++ "'").toList = "enable=".toList ++ Text.singleQuoted g.text.toList := by
  have bare : '\'' ∉ g.text.toList :=
    fun found => not_mem_optionSpecial_gate start stop _ found (by decide)
  rw [singleQuoted_of_not_mem bare]
  simp only [String.toList_append]
  rfl

theorem sealed_option {key value : String}
    (word : key.toList.all (fun c => IsInert delimiters c) = true)
    (h : Sealed delimiters value.toList) : Sealed delimiters (key ++ value).toList := by
  rw [String.toList_append]
  exact (Sealed.of_isInert (Text.forall_mem_of_all word)).append h

theorem Statement.IsClean.sealed_options {s : Statement} (h : s.IsClean) :
    ∀ o ∈ s.options, Sealed delimiters o.toList := by
  have sealedGate : ∀ {g : TimeGate}, g.start.isFinite = true → g.stop.isFinite = true →
      Sealed delimiters ("enable='" ++ g.text ++ "'").toList := by
    intro g start stop
    rw [toList_gate start stop]
    exact (Sealed.of_isInert (Text.forall_mem_of_all (by decide))).append
      (.singleQuoted (by decide) (by decide) _)
  cases s with
  | scale =>
    obtain ⟨width, height⟩ := h
    rw [options_scale]
    simp only [List.forall_mem_cons, List.not_mem_nil, false_imp_iff, implies_true, and_true]
    exact ⟨(isBare_formatSeconds width).sealed, (isBare_formatSeconds height).sealed⟩
  | overlay =>
    obtain ⟨x, y, start, stop⟩ := h
    rw [options_overlay]
    simp only [List.forall_mem_cons, List.not_mem_nil, false_imp_iff, implies_true, and_true]
    refine ⟨?_, ?_, sealedGate start stop⟩
    · exact sealed_option (by decide) (isBare_formatSeconds x).sealed
    · exact sealed_option (by decide) (isBare_formatSeconds y).sealed
  | drawText =>
    obtain ⟨file, ⟨cs, text⟩, color, x, y, start, stop⟩ := h
    rw [options_drawText]
    simp only [List.forall_mem_cons, List.not_mem_nil, false_imp_iff, implies_true, and_true]
    refine ⟨?_, ?_, ?_, ?_, ?_, ?_, sealedGate start stop⟩
    · exact sealed_option (by decide) file.sealed
    · exact sealed_option (by decide) (text ▸ .singleQuoted (by decide) (by decide) cs)
    · exact sealed_option (by decide) color.sealed
    · exact sealed_option (by decide) (isBare_numeral _).sealed
    · exact sealed_option (by decide) (isBare_formatSeconds x).sealed
    · exact sealed_option (by decide) (isBare_formatSeconds y).sealed

theorem Statement.isInert_filterName (s : Statement) :
    ∀ c ∈ s.filterName.toList, IsInert delimiters c := by
  apply Text.forall_mem_of_all
  cases s with
  | scale => rw [filterName_scale]; decide
  | overlay => rw [filterName_overlay]; decide
  | drawText => rw [filterName_drawText]; decide

theorem Statement.IsClean.sealed_filter {s : Statement} (h : s.IsClean) :
    Sealed delimiters s.filter.toList := by
  rw [toList_filter]
  have colon : Sealed delimiters [':'] := .of_isInert (Text.forall_mem_of_all (by decide))
  refine Sealed.append (.of_isInert s.isInert_filterName) (colon.intercalate ?_)
  exact List.forall_mem_map.2 h.sealed_options

theorem Pad.isInert_name (p : Pad) : ∀ c ∈ p.name.toList, IsInert delimiters c := by
  have number : ∀ n, ∀ c ∈ (Numeral.text n).toList, IsInert delimiters c :=
    fun n c hc => isInert_of_not_mem (isBare_numeral n c hc)
  cases p with
  | source => exact Text.forall_mem_of_all (by decide : "0:v".toList.all _ = true)
  | input n =>
    rw [name, String.toList_append]
    exact List.forall_mem_append.2 ⟨number n, Text.forall_mem_of_all (by decide)⟩
  | scaled n =>
    rw [name, String.toList_append]
    exact List.forall_mem_append.2 ⟨Text.forall_mem_of_all (by decide), number n⟩
  | composite n =>
    rw [name, String.toList_append]
    exact List.forall_mem_append.2 ⟨Text.forall_mem_of_all (by decide), number n⟩

theorem Pad.toList_bracketed (p : Pad) : p.bracketed.toList = '[' :: p.name.toList ++ [']'] := by
  rw [bracketed, String.toList_append, String.toList_append]
  rfl

theorem Pad.sealed_bracketed (p : Pad) : Sealed [';', ','] p.bracketed.toList := by
  rw [toList_bracketed]
  have fewer : ∀ c ∈ p.name.toList, IsInert [';', ','] c := by
    intro c hc
    obtain ⟨backslash, quote, others⟩ := p.isInert_name c hc
    exact ⟨backslash, quote, fun found => others (by simp_all [delimiters])⟩
  refine .of_isInert (List.forall_mem_append.2 ⟨?_, Text.forall_mem_of_all (by decide)⟩)
  exact List.forall_mem_cons.2 ⟨by decide, fewer⟩

def padTexts (ps : List Pad) : List Char := ps.flatMap (·.bracketed.toList)

theorem sealed_padTexts (ps : List Pad) : Sealed [';', ','] (padTexts ps) := by
  induction ps with
  | nil => exact .of_isInert (by simp [padTexts])
  | cons p ps ih => exact p.sealed_bracketed.append ih

theorem Statement.toList_text (s : Statement) : s.text.toList =
    padTexts s.inputPads ++ s.filter.toList ++ padTexts s.outputPad.toList := by
  rw [text, String.toList_append, String.toList_append, String.toList_join, String.toList_join,
    List.flatMap_map, List.flatMap_map]
  rfl

/-- A pad ends the text in front of it, and a new text begins behind it. -/
theorem partsFrom_bracketed (p : Pad) (cs : List Char) (rest : List (Char × Mode)) :
    partsFrom (.filter cs) (marks .plain p.bracketed.toList ++ rest) =
      between cs ++ .pad p.name.toList :: partsFrom (.filter []) rest := by
  have inert := p.isInert_name
  have name : (']', Mode.plain) ∉ marks .plain p.name.toList := by
    intro found
    cases (Sealed.of_isInert inert).quoted _ found (by decide)
  have marked : marks .plain p.bracketed.toList =
      ('[', .plain) :: (marks .plain p.name.toList ++ [(']', .plain)]) := by
    rw [p.toList_bracketed, List.cons_append, marks]
    refine congrArg _ ?_
    rw [show Mode.plain.next '[' = .plain by decide, marks_append, Mode.behind_of_isInert inert]
    rfl
  rw [marked, List.cons_append, partsFrom, if_pos rfl, List.append_assoc, partsFrom_pad name,
    List.nil_append, map_fst_marks, List.singleton_append, partsFrom, if_pos rfl]

theorem partsFrom_padTexts (ps : List Pad) (rest : List (Char × Mode)) :
    partsFrom (.filter []) (marks .plain (padTexts ps) ++ rest) =
      ps.map (.pad ·.name.toList) ++ partsFrom (.filter []) rest := by
  induction ps with
  | nil => rfl
  | cons p ps ih =>
    rw [padTexts, List.flatMap_cons, marks_append, p.sealed_bracketed.plain, List.append_assoc,
      partsFrom_bracketed, ← padTexts, ih]
    rfl

theorem Statement.filter_ne_nil (s : Statement) : s.filter.toList ≠ [] := by
  rw [toList_filter]
  refine List.append_ne_nil_of_left_ne_nil ?_ _
  cases s with
  | scale => rw [filterName_scale]; decide
  | overlay => rw [filterName_overlay]; decide
  | drawText => rw [filterName_drawText]; decide

namespace Statement.IsClean

variable {s : Statement}

theorem sealed_text (h : s.IsClean) : Sealed [';', ','] s.text.toList := by
  rw [Statement.toList_text]
  exact ((sealed_padTexts _).append (h.sealed_filter.mono (by decide))).append (sealed_padTexts _)

theorem parts_text (h : s.IsClean) : parts s.text.toList =
    s.inputPads.map (.pad ·.name.toList) ++
      .filter s.filter.toList :: s.outputPad.toList.map (.pad ·.name.toList) := by
  have opening : ('[', Mode.plain) ∉ marks .plain s.filter.toList := by
    intro found
    cases h.sealed_filter.quoted _ found (by decide)
  have front : Mode.plain.behind (padTexts s.inputPads ++ s.filter.toList) = .plain := by
    rw [Mode.behind_append, (sealed_padTexts _).plain, h.sealed_filter.plain]
  rw [parts, Statement.toList_text, marks_append, front, marks_append, (sealed_padTexts _).plain,
    List.append_assoc, partsFrom_padTexts, partsFrom_filter opening, map_fst_marks,
    List.nil_append]
  refine congrArg _ ?_
  cases s.outputPad with
  | none => simp [padTexts, marks, partsFrom, between, s.filter_ne_nil]
  | some p =>
    have last := partsFrom_bracketed p s.filter.toList []
    rw [List.append_nil] at last
    simp [padTexts, last, partsFrom, between, s.filter_ne_nil]

end Statement.IsClean

theorem isClean_of_letter {fontDir : String} {o : TextOverlay} {l : Lettering}
    (h : letter fontDir o = .ok l) (base : Pad) (output : Option Pad) :
    (l.statement base output).IsClean := by
  obtain ⟨valid, -, color, path, text, escaped, rfl⟩ := letter_eq_ok_iff.1 h
  obtain ⟨-, box, window⟩ := TextOverlay.validate_eq_ok_iff.1 valid
  obtain ⟨-, -, quoted⟩ := escapeText_eq_ok_iff.1 escaped
  refine ⟨?_, ⟨_, (congrArg _ quoted).trans String.toList_ofList⟩, ?_, box.finite_x, box.finite_y,
    window.finite_start, window.finite_stop⟩
  · exact fun c hc => ((checkFontPath_eq_ok_iff.1 path).2 c hc).2
  · exact isBare_of_isColor (checkColor_eq_ok_iff.1 color)

theorem isClean_of_graphOf {fontDir : String} {images : List ImageInput}
    {texts : List TextOverlay} {g : Graph} (h : graphOf fontDir images texts = .ok g) :
    ∀ s ∈ g.statements, s.IsClean := by
  obtain ⟨valid, letters, lettered, statements⟩ := graphOf_eq_ok_iff.1 h
  intro s hs
  rw [statements] at hs
  obtain ⟨i, found⟩ := List.mem_iff_getElem?.1 hs
  cases getElem?_drawing_iff.1 found with
  | scale image =>
    obtain ⟨box, -⟩ := ImageOverlay.validate_eq_ok_iff.1 (valid _ (List.mem_of_getElem? image))
    exact ⟨box.finite_width, box.finite_height⟩
  | overlay image =>
    obtain ⟨box, window⟩ := ImageOverlay.validate_eq_ok_iff.1 (valid _ (List.mem_of_getElem? image))
    exact ⟨box.finite_x, box.finite_y, window.finite_start, window.finite_stop⟩
  | text letter =>
    obtain ⟨o, -, written⟩ := exists_getElem?_of_forall₂ lettered.flip letter
    exact isClean_of_letter written _ _

theorem Graph.toList_text (g : Graph) :
    g.text.toList = [';'].intercalate (g.statements.map (·.text.toList)) := by
  rw [text, String.toList_intercalate, List.map_map]
  rfl

theorem compiled_text_reads_back (fontDir : String) (images : List ImageOverlay)
    (texts : List TextOverlay) (g : Graph)
    (compiled : (compile fontDir (ImageInput.ofOverlays images) texts).value = .ok g)
    (drawn : g.isEmpty = false) :
    Mode.plain.behind g.text.toList = .plain ∧
      pieces g.text.toList = g.statements.map (·.text.toList) ∧
      (∀ m, (',', m) ∈ marks .plain g.text.toList → m = .quoted) ∧
      ∀ s ∈ g.statements, parts s.text.toList =
        s.inputPads.map (.pad ·.name.toList) ++
          .filter s.filter.toList :: s.outputPad.toList.map (.pad ·.name.toList) := by
  have clean := isClean_of_graphOf (value_compile_eq_ok_iff.1 compiled)
  have sealedTexts : ∀ t ∈ g.statements.map (·.text.toList), Sealed [';', ','] t :=
    List.forall_mem_map.2 fun s hs => (clean s hs).sealed_text
  have nonempty : g.statements.map (·.text.toList) ≠ [] := by
    simpa [Graph.isEmpty] using drawn
  have commas : Sealed [','] g.text.toList := by
    rw [g.toList_text]
    refine .intercalate (.of_isInert (Text.forall_mem_of_all (by decide))) fun t ht => ?_
    exact (sealedTexts t ht).mono (by decide)
  refine ⟨commas.plain, ?_, ?_, ?_⟩
  · rw [g.toList_text]
    exact pieces_intercalate nonempty fun t ht => (sealedTexts t ht).mono (by decide)
  · exact fun m found => commas.quoted _ found (List.mem_singleton_self _)
  · exact fun s hs => (clean s hs).parts_text

theorem photo_and_caption_read_back :
    ∃ g, (compile "/f" (ImageInput.ofOverlays [.photo]) [.caption]).value = .ok g ∧
      g.isEmpty = false ∧ pieces g.text.toList = g.statements.map (·.text.toList) := by
  obtain ⟨g, compiled⟩ : ∃ g,
      (compile "/f" (ImageInput.ofOverlays [.photo]) [.caption]).value = .ok g :=
    exists_eq_ok_of_isSome (by decide +kernel)
  have drawn : (compile "/f" (ImageInput.ofOverlays [.photo]) [.caption]).value.toOption.map
      Graph.isEmpty = some false := by decide +kernel
  rw [compiled] at drawn
  have nonempty : g.isEmpty = false := Option.some.inj drawn
  exact ⟨g, compiled, nonempty,
    (compiled_text_reads_back "/f" [.photo] [.caption] g compiled nonempty).2.1⟩

end Montage.Filter
