import Montage.Engine.Progress
import Montage.Proofs.Register
import Montage.Proofs.Text

/-! What lines of progress leave behind. A line gives values to fields, at most one to each, so each
field has the value that was given last, and lines about different fields may change places. -/
namespace Montage.Progress

theorem entry?_eq_some_iff {line key : String} {value : List Char} : entry? line = some (key, value) ↔
    Text.trim line.toList = key.toList ++ '=' :: value ∧ '=' ∉ key.toList := by
  rw [← Text.splitFirst?_eq_some_iff, entry?, Option.map_eq_some_iff]
  constructor
  · rintro ⟨⟨before, after⟩, split, same⟩
    cases same
    rw [split, String.toList_ofList]
  · intro split
    exact ⟨_, split, Prod.ext String.ofList_toList rfl⟩

theorem isKeyChar_iff {c : Char} : isKeyChar c = true ↔ 65 ≤ c.toNat ∧ c.toNat ≤ 90 ∨
    97 ≤ c.toNat ∧ c.toNat ≤ 122 ∨ 48 ≤ c.toNat ∧ c.toNat ≤ 57 ∨ c.toNat = 95 := by
  have low : c = '_' ↔ c.toNat = 95 := Char.toNat_inj.symm
  rw [isKeyChar, Bool.or_eq_true, Text.isAlphanum_iff, decide_eq_true_eq, low]
  omega

theorem isBlank_of_isKeyChar {c : Char} (h : isKeyChar c = true) : Text.isBlank c = false := by
  rw [isKeyChar_iff] at h
  simp only [Text.isBlank, Bool.or_eq_false_iff, Bool.and_eq_false_iff, decide_eq_false_iff_not]
  omega

theorem isLine_iff {line : String} : isLine line = true ↔ ∃ key value,
    line.toList = key ++ '=' :: value ∧ key ≠ [] ∧ ∀ c ∈ key, isKeyChar c = true := by
  rw [isLine]
  constructor
  · intro h
    split at h
    · rename_i key value split
      simp only [Bool.and_eq_true, decide_eq_true_eq, List.all_eq_true] at h
      exact ⟨key, value, (Text.splitFirst?_eq_some_iff.1 split).1, h⟩
    · cases h
  · rintro ⟨key, value, whole, nonempty, letters⟩
    have mark : '=' ∉ key := fun among => absurd (letters _ among) (by decide)
    rw [whole, Text.splitFirst?_append mark]
    simpa [nonempty] using letters

/-- The key of a line of progress is the same before and after its blanks are taken away. -/
theorem exists_entry?_of_key {line : String} {key value : List Char}
    (whole : line.toList = key ++ '=' :: value) (nonempty : key ≠ [])
    (letters : ∀ c ∈ key, isKeyChar c = true) :
    ∃ kept, entry? line = some (String.ofList key, kept) := by
  have mark : '=' ∉ key := fun among => absurd (letters _ among) (by decide)
  refine ⟨(value.reverse.dropWhile Text.isBlank).reverse, entry?_eq_some_iff.2 ⟨?_, ?_⟩⟩
  · rw [whole, String.toList_ofList]
    exact Text.trim_append_separator nonempty
      (fun c among => isBlank_of_isKeyChar (letters c among)) rfl
  · rwa [String.toList_ofList]

def value? (key line : String) : Option (List Char) :=
  match entry? line with
  | some (own, value) => if own = key then some value else none
  | none => none

/-! What a line says about each field, if its value can be read. -/

def frame? (line : String) : Option Nat := (value? "frame" line).bind Numeral.readUnsigned?

def fps? (line : String) : Option Binary64 := (value? "fps" line).bind Binary64.readChars?

/-- How far the output has come, in whole milliseconds. -/
def outTime? (line : String) : Option Int :=
  (((value? "out_time_us" line).or (value? "out_time_ms" line)).bind Numeral.readSigned?).map
    fun microseconds => microseconds.tdiv 1000

def speed? (line : String) : Option Binary64 := (value? "speed" line).bind readSpeed?

def completion? (line : String) : Option Bool :=
  (value? "progress" line).map fun value => decide (value = "end".toList)

def last? {α : Type} (said? : String → Option α) (lines : List String) : Option α :=
  (lines.filterMap said?).getLast?

/-- All that a line does. -/
theorem read_eq (p : Progress) (line : String) : p.read line =
    { frame := (frame? line).getD p.frame
      fps := (fps? line).getD p.fps
      outTime := (outTime? line).getD p.outTime
      speed := (speed? line).getD p.speed
      isComplete := (completion? line).getD p.isComplete } := by
  simp only [read, frame?, fps?, outTime?, speed?, completion?, value?]
  rcases entry? line with _ | ⟨key, value⟩
  · rfl
  dsimp only
  rcases eq_or_ne key "out_time_us" with rfl | us
  · cases number : Numeral.readSigned? value <;> simp [set, number]
  rcases eq_or_ne key "out_time_ms" with rfl | ms
  · cases number : Numeral.readSigned? value <;> simp [set, number]
  rcases eq_or_ne key "frame" with rfl | frame
  · cases number : Numeral.readUnsigned? value <;> simp [set, number]
  rcases eq_or_ne key "fps" with rfl | fps
  · cases number : Binary64.readChars? value <;> simp [set, number]
  rcases eq_or_ne key "speed" with rfl | speed
  · cases number : readSpeed? value <;> simp [set, number]
  rcases eq_or_ne key "progress" with rfl | completion
  · simp [set]
  · simp [set, us, ms, frame, fps, speed, completion]

def frameField : Register read := ⟨Nat, frame, frame?, fun p line => by rw [read_eq p line]⟩

def fpsField : Register read := ⟨Binary64, fps, fps?, fun p line => by rw [read_eq p line]⟩

def outTimeField : Register read := ⟨Int, outTime, outTime?, fun p line => by rw [read_eq p line]⟩

def speedField : Register read := ⟨Binary64, speed, speed?, fun p line => by rw [read_eq p line]⟩

def completionField : Register read :=
  ⟨Bool, isComplete, completion?, fun p line => by rw [read_eq p line]⟩

def fields : List (Register read) :=
  [frameField, fpsField, outTimeField, speedField, completionField]

theorem determine_fields : Register.Determine fields := by
  intro p q same
  simp only [fields, List.forall_mem_cons] at same
  obtain ⟨frame, fps, outTime, speed, completion, -⟩ := same
  cases p
  cases q
  cases frame
  cases fps
  cases outTime
  cases speed
  cases completion
  rfl

theorem endsBlock_eq (line : String) : endsBlock line = (value? "progress" line).isSome := by
  rw [endsBlock, value?]
  rcases entry? line with _ | ⟨key, value⟩
  · rfl
  · by_cases progress : key = "progress" <;> simp [progress]

theorem last?_completion? (lines : List String) : last? completion? lines =
    (last? (value? "progress") lines).map fun value => decide (value = "end".toList) := by
  rw [last?, last?, ← List.getLast?_map, List.map_filterMap]
  rfl

theorem readSpeed?_eq_some_iff {value : List Char} {x : Binary64} : readSpeed? value = some x ↔
    ∃ number, Text.trim value = number ++ ['x'] ∧ Binary64.readChars? number = some x := by
  rw [readSpeed?]
  constructor
  · intro h
    split at h
    · rename_i rest whole
      refine ⟨rest.reverse, ?_, h⟩
      rw [← List.reverse_reverse (Text.trim value), whole, List.reverse_cons]
    · cases h
  · rintro ⟨number, whole, read⟩
    rw [whole, List.reverse_append]
    simpa using read

theorem progress_tells_what_was_said_last (lines : List String) :
    let state := lines.foldl read {}
    (∀ line key value, entry? line = some (key, value) ↔
      Text.trim line.toList = key.toList ++ '=' :: value ∧ '=' ∉ key.toList) ∧
    state.frame = (last? frame? lines).getD 0 ∧ state.fps = (last? fps? lines).getD 0 ∧
    state.speed = (last? speed? lines).getD 0 ∧ state.outTime = (last? outTime? lines).getD 0 ∧
    (state.isComplete = true ↔ last? (value? "progress") lines = some "end".toList) ∧
    (∀ value x, readSpeed? value = some x ↔
      ∃ number, Text.trim value = number ++ ['x'] ∧ Binary64.readChars? number = some x) ∧
    (∀ line, state.snapshot? line = if (value? "progress" line).isSome
      then some ((lines ++ [line]).foldl read {}) else none) ∧
    (∀ line, (∀ field ∈ fields, field.given? line = none) → state.read line = state) ∧
    ∀ a b after, (∀ field ∈ fields, field.given? a = none ∨ field.given? b = none) →
      (lines ++ a :: b :: after).foldl read {} = (lines ++ b :: a :: after).foldl read {} := by
  refine ⟨fun _ _ _ => entry?_eq_some_iff, frameField.get_foldl lines {}, fpsField.get_foldl lines {},
    speedField.get_foldl lines {}, outTimeField.get_foldl lines {}, ?_,
    fun _ _ => readSpeed?_eq_some_iff, ?_, ?_, ?_⟩
  · have completion := completionField.get_foldl lines {}
    change (lines.foldl read {}).isComplete = (last? completion? lines).getD false at completion
    rw [completion, last?_completion?]
    cases last? (value? "progress") lines <;> simp
  · intro line
    rw [snapshot?, endsBlock_eq, List.foldl_append]
    rfl
  · intro line silent
    exact Register.step_eq_self determine_fields silent _
  · intro a b after apart
    simp only [List.foldl_append, List.foldl_cons, Register.step_comm determine_fields apart]

end Montage.Progress
