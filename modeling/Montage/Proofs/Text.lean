import Mathlib.Data.List.TakeWhile
import Montage.Text.Blank

/-! Texts as lists of characters: what holds of all of them, and where a text is parted. -/
namespace Montage.Text

/-- Checks the characters one by one. The statement itself may be decided by going through all the
characters there are instead. -/
theorem forall_mem_of_all {p : Char → Prop} [DecidablePred p] {cs : List Char}
    (h : cs.all (fun c => decide (p c)) = true) : ∀ c ∈ cs, p c :=
  fun c hc => of_decide_eq_true (List.all_eq_true.1 h c hc)

theorem isAlphanum_iff {c : Char} : c.isAlphanum = true ↔ 65 ≤ c.toNat ∧ c.toNat ≤ 90 ∨
    97 ≤ c.toNat ∧ c.toNat ≤ 122 ∨ 48 ≤ c.toNat ∧ c.toNat ≤ 57 := by
  have upper : c.isUpper = decide ('A'.val ≤ c.val ∧ c.val ≤ 'Z'.val) := rfl
  have lower : c.isLower = (decide ('a'.val ≤ c.val) && decide (c.val ≤ 'z'.val)) := rfl
  have digit : c.isDigit = (decide ('0'.val ≤ c.val) && decide (c.val ≤ '9'.val)) := rfl
  have word : c.isAlphanum = (c.isUpper || c.isLower || c.isDigit) := rfl
  simp only [word, upper, lower, digit, Bool.or_eq_true, Bool.and_eq_true, decide_eq_true_eq,
    UInt32.le_iff_toNat_le]
  exact or_assoc

theorem toNat_lt_of_isDigit {c : Char} (h : c.isDigit = true) : c.toNat < 128 := by
  have word : c.isAlphanum = true := by simp [Char.isAlphanum, h]
  rw [isAlphanum_iff] at word
  omega

theorem utf8ByteSize_of_ascii {cs : List Char} (h : ∀ c ∈ cs, c.toNat < 128) :
    (String.ofList cs).utf8ByteSize = cs.length := by
  induction cs with
  | nil => rfl
  | cons c cs ih =>
    rw [List.forall_mem_cons] at h
    have one : c.utf8Size = 1 := by
      rw [Char.utf8Size_eq_one_iff, UInt32.le_iff_toNat_le]
      exact Nat.le_of_lt_succ h.1
    rw [String.ofList_cons, String.utf8ByteSize_append, String.utf8ByteSize_singleton, one, ih h.2,
      List.length_cons, Nat.add_comm]

theorem splitFirst?_append {separator : Char} {a b : List Char} (h : separator ∉ a) :
    splitFirst? separator (a ++ separator :: b) = some (a, b) := by
  induction a with
  | nil => simp [splitFirst?]
  | cons c a ih =>
    obtain ⟨head, tail⟩ := List.ne_and_not_mem_of_not_mem_cons h
    simp [splitFirst?, Ne.symm head, ih tail]

theorem splitFirst?_eq_some_iff {separator : Char} {cs a b : List Char} :
    splitFirst? separator cs = some (a, b) ↔ cs = a ++ separator :: b ∧ separator ∉ a := by
  constructor
  · intro h
    induction cs generalizing a with
    | nil => cases h
    | cons c cs ih =>
      simp only [splitFirst?] at h
      split at h
      · rename_i found
        cases h
        exact ⟨by rw [found, List.nil_append], List.not_mem_nil⟩
      · rename_i other
        obtain ⟨⟨before, after⟩, rest, whole⟩ := Option.map_eq_some_iff.1 h
        cases whole
        obtain ⟨rfl, free⟩ := ih rest
        exact ⟨rfl, List.not_mem_cons_of_ne_of_not_mem (Ne.symm other) free⟩
  · rintro ⟨rfl, free⟩
    exact splitFirst?_append free

theorem splitFirst?_eq_none_iff {separator : Char} {cs : List Char} :
    splitFirst? separator cs = none ↔ separator ∉ cs := by
  induction cs with
  | nil => simp [splitFirst?]
  | cons c cs ih =>
    rw [splitFirst?, List.mem_cons, not_or]
    split
    · rename_i same
      simp [same]
    · rename_i other
      rw [Option.map_eq_none_iff, ih]
      exact (and_iff_right (Ne.symm other)).symm

/-- The first separator stands at one place only, whatever follows it. -/
theorem append_separator_inj {separator : Char} {a b rest others : List Char} (ha : separator ∉ a)
    (hb : separator ∉ b) (h : a ++ separator :: rest = b ++ separator :: others) :
    a = b ∧ rest = others := by
  have read := congrArg (splitFirst? separator) h
  rw [splitFirst?_append ha, splitFirst?_append hb] at read
  cases read
  exact ⟨rfl, rfl⟩

/-- A text that begins with something visible before a visible separator loses blanks at its end only. -/
theorem trim_append_separator {separator : Char} {a b : List Char} (nonempty : a ≠ [])
    (visible : ∀ c ∈ a, isBlank c = false) (mark : isBlank separator = false) :
    trim (a ++ separator :: b) = a ++ separator :: (b.reverse.dropWhile isBlank).reverse := by
  obtain ⟨first, rest, rfl⟩ := List.exists_cons_of_ne_nil nonempty
  have kept : ¬ isBlank first = true := by simp [visible first List.mem_cons_self]
  rw [trim, List.cons_append, List.dropWhile_cons_of_neg kept, ← List.cons_append,
    List.reverse_append, List.reverse_cons, List.append_assoc, List.dropWhile_append]
  split
  · rename_i empty
    rw [List.isEmpty_iff.1 empty]
    simp [mark]
  · simp

structure IsTrimmed (cs t : List Char) : Prop where
  parts : ∃ before after, cs = before ++ t ++ after ∧ (∀ c ∈ before, isBlank c = true) ∧
    ∀ c ∈ after, isBlank c = true
  first : ∀ c ∈ t.head?, isBlank c = false
  last : ∀ c ∈ t.getLast?, isBlank c = false

theorem dropWhile_isBlank_append {before t : List Char} (blank : ∀ c ∈ before, isBlank c = true)
    (first : ∀ c ∈ t.head?, isBlank c = false) : (before ++ t).dropWhile isBlank = t := by
  rw [List.dropWhile_append_of_pos blank]
  cases t with
  | nil => rfl
  | cons c t => simp [first c rfl]

/-- The text that is left is the only one without blanks at its ends. -/
theorem IsTrimmed.eq_trim {cs t : List Char} (h : IsTrimmed cs t) : t = trim cs := by
  obtain ⟨before, after, rfl, blank_before, blank_after⟩ := h.parts
  unfold trim
  cases t with
  | nil =>
    have blank := List.forall_mem_append.2 ⟨blank_before, blank_after⟩
    have nothing := dropWhile_isBlank_append (t := []) blank (by simp)
    simp only [List.append_nil] at nothing ⊢
    rw [nothing]
    rfl
  | cons c t =>
    have front := dropWhile_isBlank_append (t := c :: t ++ after) blank_before h.first
    have back : (after.reverse ++ (c :: t).reverse).dropWhile isBlank = (c :: t).reverse := by
      apply dropWhile_isBlank_append
      · exact fun d among => blank_after d (List.mem_reverse.1 among)
      · rw [List.head?_reverse]
        exact h.last
    rw [List.append_assoc, front, List.reverse_append, back, List.reverse_reverse]

theorem visible_of_dropWhile {cs : List Char} {c : Char}
    (first : c ∈ (cs.dropWhile isBlank).head?) : isBlank c = false := by
  have visible := List.head?_dropWhile_not isBlank cs
  rw [Option.mem_def.1 first] at visible
  exact visible

theorem exists_blank_end (cs : List Char) : ∃ t after, cs = t ++ after ∧
    (∀ c ∈ after, isBlank c = true) ∧ ∀ c ∈ t.getLast?, isBlank c = false := by
  refine ⟨(cs.reverse.dropWhile isBlank).reverse, (cs.reverse.takeWhile isBlank).reverse, ?_, ?_, ?_⟩
  · rw [← List.reverse_append, List.takeWhile_append_dropWhile, List.reverse_reverse]
  · intro c among
    exact List.mem_takeWhile_imp (List.mem_reverse.1 among)
  · intro c last
    rw [List.getLast?_reverse] at last
    exact visible_of_dropWhile last

/-- What stands last is visible if it is a visible separator or visible itself. -/
theorem visible_last (lead : List Char) {t : List Char} {separator : Char}
    (mark : isBlank separator = false) (last : ∀ c ∈ t.getLast?, isBlank c = false) :
    ∀ c ∈ (lead ++ separator :: t).getLast?, isBlank c = false := by
  intro c ends
  rw [List.getLast?_append, List.getLast?_cons, Option.some_or] at ends
  cases final : t.getLast? with
  | none =>
    rw [final] at ends
    cases ends
    exact mark
  | some d =>
    rw [final] at ends
    cases ends
    exact last d final

theorem exists_isTrimmed (cs : List Char) : ∃ t, IsTrimmed cs t := by
  obtain ⟨t, after, parts, blank, last⟩ := exists_blank_end (cs.dropWhile isBlank)
  refine ⟨t, ⟨cs.takeWhile isBlank, after, ?_, ?_, blank⟩, ?_, last⟩
  · rw [List.append_assoc, ← parts, List.takeWhile_append_dropWhile]
  · exact fun c among => List.mem_takeWhile_imp among
  · intro c first
    have head : c ∈ (cs.dropWhile isBlank).head? := by
      rw [parts, List.head?_append, Option.mem_def.1 first]
      rfl
    exact visible_of_dropWhile head

theorem isTrimmed_iff {cs t : List Char} : IsTrimmed cs t ↔ t = trim cs := by
  constructor
  · exact IsTrimmed.eq_trim
  · rintro rfl
    obtain ⟨t, trimmed⟩ := exists_isTrimmed cs
    exact trimmed.eq_trim ▸ trimmed

/-- The pieces are those of the library, whose laws hold of them. -/
theorem splitOn_eq (separator : Char) (cs : List Char) :
    splitOn separator cs = cs.splitOn separator := by
  induction cs with
  | nil => rfl
  | cons c cs ih =>
    rw [splitOn, ih, List.splitOn_cons_eq_if_modifyHead]
    simp only [beq_iff_eq]
    split
    · rfl
    · obtain ⟨piece, pieces, parts⟩ := List.exists_cons_of_ne_nil (cs.splitOn_ne_nil separator)
      rw [parts]
      rfl

theorem splitOn_ne_nil (separator : Char) (cs : List Char) : splitOn separator cs ≠ [] := by
  rw [splitOn_eq]
  exact List.splitOn_ne_nil separator cs

theorem intercalate_splitOn (separator : Char) (cs : List Char) :
    [separator].intercalate (splitOn separator cs) = cs := by
  rw [splitOn_eq, List.intercalate_splitOn]

theorem splitOn_of_not_mem {separator : Char} {cs : List Char} (h : separator ∉ cs) :
    splitOn separator cs = [cs] := by
  rw [splitOn_eq, List.splitOn_eq_singleton h]

theorem splitOn_append (separator : Char) (lead cs : List Char) :
    splitOn separator (lead ++ separator :: cs) = splitOn separator lead ++ splitOn separator cs := by
  simp only [splitOn_eq, List.splitOn_append_cons_self]

/-- Texts that are joined by a separator are parted as each of them is. -/
theorem splitOn_intercalate {separator : Char} {texts : List (List Char)} (nonempty : texts ≠ []) :
    splitOn separator ([separator].intercalate texts) = texts.flatMap (splitOn separator) := by
  induction texts with
  | nil => exact absurd rfl nonempty
  | cons first rest ih =>
    cases rest with
    | nil => simp
    | cons second rest =>
      rw [List.intercalate_cons_cons, List.append_assoc, List.singleton_append, splitOn_append,
        ih (List.cons_ne_nil second rest)]
      rfl

theorem splitOn_append_separator {separator : Char} {lead cs : List Char} (h : separator ∉ lead) :
    splitOn separator (lead ++ separator :: cs) = lead :: splitOn separator cs := by
  rw [splitOn_append, splitOn_of_not_mem h, List.singleton_append]

theorem not_mem_of_mem_splitOn {separator : Char} {cs piece : List Char}
    (among : piece ∈ splitOn separator cs) : separator ∉ piece := by
  induction cs generalizing piece with
  | nil =>
    cases List.mem_singleton.1 among
    exact List.not_mem_nil
  | cons c cs ih =>
    rw [splitOn] at among
    split at among
    · rcases List.mem_cons.1 among with rfl | later
      · exact List.not_mem_nil
      · exact ih later
    · rename_i other
      cases parts : splitOn separator cs with
      | nil => exact absurd parts (splitOn_ne_nil separator cs)
      | cons first rest =>
        rw [parts] at among ih
        rcases List.mem_cons.1 among with rfl | later
        · exact List.not_mem_cons_of_ne_of_not_mem (Ne.symm other) (ih List.mem_cons_self)
        · exact ih (List.mem_cons_of_mem _ later)

theorem splitOn_eq_iff {separator : Char} {cs : List Char} {pieces : List (List Char)} :
    splitOn separator cs = pieces ↔
      pieces ≠ [] ∧ [separator].intercalate pieces = cs ∧ ∀ piece ∈ pieces, separator ∉ piece := by
  constructor
  · rintro rfl
    exact ⟨splitOn_ne_nil separator cs, intercalate_splitOn separator cs,
      fun piece among => not_mem_of_mem_splitOn among⟩
  · rintro ⟨nonempty, rfl, free⟩
    rw [splitOn_eq]
    exact List.splitOn_intercalate separator free nonempty

end Montage.Text
