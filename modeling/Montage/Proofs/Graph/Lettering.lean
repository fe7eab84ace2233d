import Montage.Filter.Compile
import Montage.Proofs.Check
import Montage.Proofs.Graph.Values

/-! When a text overlay is lettered, and how: what each check of it says, what its text becomes, and for
what the text is refused. -/
namespace Montage

def TextOverlay.contentChecks (fontDir : String) (o : TextOverlay) : List (Except EscapeError Unit) :=
  [Filter.checkFontFamily o.fontFamily, Filter.checkColor o.color,
    (Filter.escapeText o.text).map fun _ => (),
    Filter.checkFontPath (Filter.fontFile fontDir o.fontFamily)]

structure TextOverlay.IsLetterable (fontDir : String) (o : TextOverlay) : Prop where
  valid : o.validate = .ok ()
  content : ∀ check ∈ o.contentChecks fontDir, check = .ok ()

namespace Filter

theorem checkColor_eq_ok_iff {color : String} :
    checkColor color = .ok () ↔ isColor color.toList = true := by
  simp only [checkColor]
  split <;> simp_all

theorem checkFontPath_eq_ok_iff {path : String} :
    checkFontPath path = .ok () ↔ path.toList ≠ [] ∧
      ∀ c ∈ path.toList, Text.isControl c = false ∧ c ∉ pathReserved := by
  have good : path.toList.any (fun c => Text.isControl c || c ∈ pathReserved) = false ↔
      ∀ c ∈ path.toList, Text.isControl c = false ∧ c ∉ pathReserved := by
    simp only [List.any_eq_false, Bool.or_eq_true, decide_eq_true_eq, not_or, Bool.not_eq_true]
  simp only [checkFontPath]
  constructor
  · intro h
    split at h
    · cases h
    · rename_i passed
      obtain ⟨nonempty, characters⟩ := not_or.1 passed
      exact ⟨nonempty, good.1 (Bool.not_eq_true _ ▸ characters)⟩
  · rintro ⟨nonempty, characters⟩
    rw [if_neg]
    rintro (empty | found)
    · exact nonempty empty
    · rw [good.2 characters] at found
      cases found

theorem checkFontFamily_eq_ok_iff {family : String} : checkFontFamily family = .ok () ↔
    Text.trim family.toList ≠ [] ∧ ∀ c ∈ family.toList, isFamilyChar c = true := by
  rw [← List.all_eq_true]
  simp only [checkFontFamily]
  split
  · rename_i refused
    rw [Bool.not_eq_true'] at refused
    simp only [reduceCtorEq, false_iff, not_and, Bool.not_eq_true]
    exact fun nonempty => refused.resolve_left nonempty
  · rename_i accepted
    simpa using accepted

theorem checkFontPath_fontFile {fontDir family : String} (dir : checkFontPath fontDir = .ok ())
    (name : checkFontFamily family = .ok ()) :
    checkFontPath (fontFile fontDir family) = .ok () := by
  obtain ⟨nonempty, safe⟩ := checkFontPath_eq_ok_iff.1 dir
  obtain ⟨-, letters⟩ := checkFontFamily_eq_ok_iff.1 name
  have middle : ∀ c ∈ family.toList, Text.isControl c = false ∧ c ∉ pathReserved :=
    fun c hc => isFamilyChar_safe (letters c hc)
  have slash : Text.isControl '/' = false ∧ '/' ∉ pathReserved := by decide
  have ending : ∀ c ∈ ".ttf".toList, Text.isControl c = false ∧ c ∉ pathReserved :=
    Text.forall_mem_of_all (by decide)
  rw [checkFontPath_eq_ok_iff, fontFile]
  split
  · simp only [String.toList_append, List.forall_mem_append]
    exact ⟨by simp [nonempty], ⟨safe, middle⟩, ending⟩
  · simp only [String.toList_append, List.forall_mem_append]
    exact ⟨by simp, ⟨⟨safe, List.forall_mem_singleton.2 slash⟩, middle⟩, ending⟩

theorem firstControl?_cons_eq_some_iff {e c : Char} {cs : List Char} {i : Nat} :
    firstControl? (e :: cs) = some (c, i) ↔ Text.isControl e = true ∧ c = e ∧ i = 0 ∨
      Text.isControl e = false ∧ ∃ j, firstControl? cs = some (c, j) ∧ i = j + 1 := by
  by_cases control : Text.isControl e = true
  · simp [firstControl?, control, eq_comm]
  · cases later : firstControl? cs with
    | none => simp [firstControl?, control, later]
    | some found =>
      obtain ⟨d, j⟩ := found
      simp [firstControl?, control, later, eq_comm]

theorem firstControl?_eq_some_iff {cs : List Char} {c : Char} {i : Nat} :
    firstControl? cs = some (c, i) ↔ cs[i]? = some c ∧ Text.isControl c = true ∧
      ∀ j < i, ∀ d, cs[j]? = some d → Text.isControl d = false := by
  induction cs generalizing i with
  | nil => simp [firstControl?]
  | cons e cs ih =>
    rw [firstControl?_cons_eq_some_iff]
    cases i with
    | zero =>
      suffices Text.isControl e = true ∧ c = e ↔ e = c ∧ Text.isControl c = true by simpa
      constructor
      · rintro ⟨control, rfl⟩
        exact ⟨rfl, control⟩
      · rintro ⟨rfl, control⟩
        exact ⟨control, rfl⟩
    | succ i =>
      rw [Nat.forall_lt_succ_left]
      simp [ih, and_left_comm]

theorem firstControl?_eq_none_iff {cs : List Char} :
    firstControl? cs = none ↔ ∀ c ∈ cs, Text.isControl c = false := by
  induction cs with
  | nil => simp [firstControl?]
  | cons c cs ih =>
    rw [firstControl?, List.forall_mem_cons]
    split
    · rename_i control
      simp [control]
    · rename_i other
      simp [other, ih]

theorem escapeText_eq_error_iff {s : String} {e : EscapeError} :
    escapeText s = .error e ↔ s = "" ∧ e = .empty ∨
      ∃ c i, firstControl? s.toList = some (c, i) ∧ e = .unsupportedCharacter c i := by
  by_cases empty : s = ""
  · subst empty
    simp [escapeText, firstControl?, eq_comm]
  · have nonempty : s.toList ≠ [] := by simpa using empty
    simp only [escapeText, if_neg nonempty, empty, false_and, false_or]
    split
    · rename_i c i found
      constructor
      · intro h
        cases h
        exact ⟨c, i, found, rfl⟩
      · rintro ⟨d, j, other, rfl⟩
        cases found.symm.trans other
        rfl
    · rename_i found
      simp [found]

theorem escapeText_eq_ok_iff {s text : String} :
    escapeText s = .ok text ↔ s ≠ "" ∧ firstControl? s.toList = none ∧
      text = String.ofList
        (Text.singleQuoted (escape optionSpecial (escape expansionSpecial s.toList))) := by
  by_cases empty : s = ""
  · subst empty
    simp [escapeText]
  · have nonempty : s.toList ≠ [] := by simpa using empty
    simp only [escapeText, if_neg nonempty, ne_eq, empty, not_false_eq_true, true_and]
    split
    · rename_i c i found
      simp [found]
    · rename_i found
      simp [found, eq_comm]

theorem checkFontFamily_eq_error {family : String} {cause : EscapeError}
    (h : checkFontFamily family = .error cause) : cause = .invalidFontFamily family := by
  simp only [checkFontFamily] at h
  split at h
  · cases h
    rfl
  · cases h

theorem checkColor_eq_error {color : String} {cause : EscapeError}
    (h : checkColor color = .error cause) : cause = .invalidColor color := by
  simp only [checkColor] at h
  split at h
  · cases h
  · cases h
    rfl

/-- The text between the quotes, escaped for its three readers. -/
def escaped (s : String) : String :=
  String.ofList (Text.singleQuoted (escape optionSpecial (escape expansionSpecial s.toList)))

def lettering (fontDir : String) (o : TextOverlay) : Lettering :=
  ⟨fontFile fontDir o.fontFamily, escaped o.text, o.color, o.fontSize, o.position,
    ⟨o.visibleFrom, o.visibleUntil⟩⟩

/-- A text is checked, first its fields and then its content, and lettered if nothing fails. -/
theorem letter_eq (fontDir : String) (o : TextOverlay) : letter fontDir o =
    (o.validate.mapError .invalidEdit >>= fun _ =>
      (inOrder (o.contentChecks fontDir)).mapError (.escape o.id) >>= fun _ =>
        .ok (lettering fontDir o)) := by
  unfold letter TextOverlay.contentChecks
  cases o.validate with
  | error _ => rfl
  | ok _ =>
    cases checkFontFamily o.fontFamily with
    | error _ => rfl
    | ok _ =>
      cases checkColor o.color with
      | error _ => rfl
      | ok _ =>
        cases text : escapeText o.text with
        | error _ => rfl
        | ok escaped =>
          obtain ⟨-, -, rfl⟩ := escapeText_eq_ok_iff.1 text
          cases path : checkFontPath (fontFile fontDir o.fontFamily) with
          | error _ => simp only [path]; rfl
          | ok _ => simp only [path]; rfl

theorem letter_eq_ok_iff_lettering {fontDir : String} {o : TextOverlay} {l : Lettering} :
    letter fontDir o = .ok l ↔ o.IsLetterable fontDir ∧ l = lettering fontDir o := by
  rw [letter_eq, check_bind_eq_ok_iff, check_bind_eq_ok_iff, mapError_eq_ok_iff, mapError_eq_ok_iff,
    inOrder_eq_ok_iff, Except.ok.injEq]
  constructor
  · rintro ⟨valid, content, rfl⟩
    exact ⟨⟨valid, content⟩, rfl⟩
  · rintro ⟨⟨valid, content⟩, rfl⟩
    exact ⟨valid, content, rfl⟩

theorem exists_letter_iff {fontDir : String} {o : TextOverlay} :
    (∃ l, letter fontDir o = .ok l) ↔ o.IsLetterable fontDir := by
  simp only [letter_eq_ok_iff_lettering, exists_and_left, exists_eq, and_true]

/-- A text is refused for its fields, and if they are valid for the first check of its content that
fails. -/
theorem letter_eq_error_iff {fontDir : String} {o : TextOverlay} {err : RenderError} :
    letter fontDir o = .error err ↔
      (∃ cause, o.validate = .error cause ∧ err = .invalidEdit cause) ∨
        o.validate = .ok () ∧
          ∃ cause, FailsFirst (o.contentChecks fontDir) cause ∧ err = .escape o.id cause := by
  rw [letter_eq, check_bind_eq_error_iff, check_bind_eq_error_iff, mapError_eq_error_iff,
    mapError_eq_error_iff, mapError_eq_ok_iff]
  simp only [inOrder_eq_error_iff, reduceCtorEq, and_false, or_false, eq_comm (a := err)]

theorem contentChecks_pass_iff {fontDir : String} {o : TextOverlay} :
    (∀ check ∈ o.contentChecks fontDir, check = .ok ()) ↔
      checkFontFamily o.fontFamily = .ok () ∧ checkColor o.color = .ok () ∧
        (∃ text, escapeText o.text = .ok text) ∧
        checkFontPath (fontFile fontDir o.fontFamily) = .ok () := by
  simp only [TextOverlay.contentChecks, List.forall_mem_cons, map_eq_ok_iff, List.not_mem_nil,
    false_implies, implies_true, and_true]

theorem isLetterable_iff {fontDir : String} {o : TextOverlay} : o.IsLetterable fontDir ↔
    o.validate = .ok () ∧ checkFontFamily o.fontFamily = .ok () ∧ checkColor o.color = .ok () ∧
      (∃ text, escapeText o.text = .ok text) ∧
      checkFontPath (fontFile fontDir o.fontFamily) = .ok () := by
  rw [← contentChecks_pass_iff]
  exact ⟨fun h => ⟨h.valid, h.content⟩, fun ⟨valid, content⟩ => ⟨valid, content⟩⟩

theorem letter_eq_ok_iff {fontDir : String} {o : TextOverlay} {l : Lettering} :
    letter fontDir o = .ok l ↔ o.validate = .ok () ∧ checkFontFamily o.fontFamily = .ok () ∧
      checkColor o.color = .ok () ∧ checkFontPath (fontFile fontDir o.fontFamily) = .ok () ∧
      ∃ text, escapeText o.text = .ok text ∧
        l = ⟨fontFile fontDir o.fontFamily, text, o.color, o.fontSize, o.position,
          ⟨o.visibleFrom, o.visibleUntil⟩⟩ := by
  rw [letter_eq_ok_iff_lettering, isLetterable_iff]
  constructor
  · rintro ⟨⟨valid, family, color, ⟨text, written⟩, path⟩, rfl⟩
    obtain ⟨-, -, rfl⟩ := escapeText_eq_ok_iff.1 written
    exact ⟨valid, family, color, path, _, written, rfl⟩
  · rintro ⟨valid, family, color, path, text, written, rfl⟩
    obtain ⟨-, -, rfl⟩ := escapeText_eq_ok_iff.1 written
    exact ⟨⟨valid, family, color, ⟨_, written⟩, path⟩, rfl⟩

end Filter
end Montage
