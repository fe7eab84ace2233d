import Montage.Proofs.Command.Shape
import Montage.Proofs.Timestamp.Clock

/-! Seconds that are written are read back as clocks, and the bounds of a trim stand in the arguments of
a command as the numbers they are. -/
namespace Montage

namespace IsUnsignedDecimal

variable {cs : List Char}

theorem visible (h : IsUnsignedDecimal cs) : ∀ c ∈ cs, Text.isBlank c = false := by
  intro c among
  rcases h.mem among with digit | rfl
  · have code := Text.isAlphanum_iff.1 (Bool.or_eq_true_iff.2 (.inr digit))
    simp only [Text.isBlank, Bool.or_eq_false_iff, Bool.and_eq_false_iff, decide_eq_false_iff_not]
    omega
  · rfl

theorem colon_not_mem (h : IsUnsignedDecimal cs) : ':' ∉ cs := by
  intro among
  rcases h.mem among with digit | point
  · cases digit
  · cases point

end IsUnsignedDecimal

namespace Timestamp

open Binary64 (readChars?)

theorem isClock_of_unsigned {s : String} (h : IsUnsignedDecimal s.toList) :
    IsClock s s.toList [s.toList] := by
  obtain ⟨c, cs, text, -⟩ := h.exists_cons
  have trimmed : Text.IsTrimmed s.toList s.toList :=
    ⟨⟨[], [], by simp, by simp, by simp⟩, fun c first => h.visible c (List.mem_of_mem_head? first),
      fun c last => h.visible c (List.mem_of_mem_getLast? last)⟩
  refine ⟨trimmed, by simp [text], by simp, ?_⟩
  rintro part among
  rw [List.mem_singleton.1 among]
  exact h.colon_not_mem

theorem isFinite_of_le_maximum {x : Binary64} (above : Binary64.le 0 x = true)
    (within : x.le maximum = true) : x.isFinite = true := by
  obtain ⟨i, place, nonneg⟩ := Binary64.zero_le_iff.1 above
  obtain ⟨j, most⟩ := Binary64.exists_rank? isFinite_maximum
  have order := (Binary64.le_iff place most).1 within
  have bounds := (Binary64.isFinite_iff most).1 isFinite_maximum
  apply (Binary64.isFinite_iff place).2
  omega

theorem isUnsignedDecimal_formatSeconds {x : Binary64} (finite : x.isFinite = true)
    (above : Binary64.le 0 x = true) : IsUnsignedDecimal (formatSeconds x).toList :=
  formatSeconds_isUnsignedDecimal finite
    ((Binary64.lt_eq_false_iff_le finite Binary64.zero_isFinite).2 above)

theorem shows_formatSeconds {x : Binary64} (finite : x.isFinite = true)
    (above : Binary64.le 0 x = true) : Shows (formatSeconds x).toList x.plain := by
  obtain ⟨i, place, nonneg⟩ := Binary64.zero_le_iff.1 above
  refine ⟨readChars?_formatSeconds finite, Binary64.isFinite_plain finite, ?_⟩
  exact Binary64.zero_le_iff.2 ⟨i, x.rank?_plain.trans place, nonneg⟩

theorem total_singleton {x : Binary64} (finite : x.isFinite = true) : total [x.plain] = x.plain := by
  rw [total_cons (Binary64.isFinite_plain finite), List.foldl_nil, Binary64.plain_plain]

theorem parseClock_formatSeconds {x : Binary64} (above : Binary64.le 0 x = true)
    (within : x.le maximum = true) : parseClock (formatSeconds x) = .ok x.plain := by
  have finite := isFinite_of_le_maximum above within
  have clock := isClock_of_unsigned (isUnsignedDecimal_formatSeconds finite above)
  have short : maximum.lt x.plain = false := by
    obtain ⟨i, place⟩ := Binary64.exists_rank? finite
    obtain ⟨j, most⟩ := Binary64.exists_rank? isFinite_maximum
    have order := (Binary64.le_iff place most).1 within
    rw [← Bool.not_eq_true, Binary64.lt_iff most (x.rank?_plain.trans place)]
    omega
  have shown : List.Forall₂ Shows [(formatSeconds x).toList] [x.plain] :=
    .cons (shows_formatSeconds finite above) .nil
  rw [parseClock_eq_ok_iff clock]
  exact ⟨by simp, ⟨[x.plain], shown, total_singleton finite⟩, short⟩

/-- A text that denotes a number: it reads as the number, and as a clock of as many seconds if there are
clocks that long. -/
structure Denotes (text : String) (x : Binary64) : Prop where
  number : ∃ y, Binary64.read? text = some y ∧ y.Equals x
  clock : x.le maximum = true → ∃ y, parseClock text = .ok y ∧ y.Equals x

theorem formatSeconds_denotes {x : Binary64} (finite : x.isFinite = true)
    (above : Binary64.le 0 x = true) : Denotes (formatSeconds x) x :=
  ⟨⟨x.plain, readChars?_formatSeconds finite, x.plain_equals⟩,
    fun within => ⟨x.plain, parseClock_formatSeconds above within, x.plain_equals⟩⟩

/-- Every number of seconds up to the longest time is written as a plain decimal that reads back as
that number, and the bounds of a trim are written so behind `-ss` and `-to`. -/
theorem seconds_read_back_as_clocks :
    (∀ x : Binary64, Binary64.le 0 x = true → x.le maximum = true →
      IsUnsignedDecimal (formatSeconds x).toList ∧ parseClock (formatSeconds x) = .ok x.plain ∧
        x.plain.Equals x) ∧
    ∀ (e : Edit) o (c : EditCommand), (e.assemble o).value = .ok c → ∃ front start stop,
      c.arguments = front ++ ["-ss", start, "-to", stop, c.output] ∧
        Denotes start e.trim.start ∧ Denotes stop e.trim.stop := by
  refine ⟨?_, ?_⟩
  · intro x above within
    have decimal := isUnsignedDecimal_formatSeconds (isFinite_of_le_maximum above within) above
    exact ⟨decimal, parseClock_formatSeconds above within, x.plain_equals⟩
  · intro e o c assembled
    have command := e.isCommand_of_assemble assembled
    have part := command.trim ▸ command.isPart
    refine ⟨_, _, _, command.trim ▸ c.arguments_eq, ?_, ?_⟩
    · exact formatSeconds_denotes part.finite_start
        ((Binary64.lt_eq_false_iff_le part.finite_start Binary64.zero_isFinite).1 part.above)
    · exact formatSeconds_denotes part.finite_stop
        ((Binary64.lt_eq_false_iff_le part.finite_stop Binary64.zero_isFinite).1 part.stop_above)

/-- The smallest time above zero, with its several hundred decimals, and the trim of an edit. -/
theorem least_seconds_and_dashed_trim_read_back :
    (∃ x : Binary64, x.rank? = some 1 ∧ parseClock (formatSeconds x) = .ok x) ∧
    ∃ c front start stop, (Edit.dashed.assemble {}).value = .ok c ∧
      c.arguments = front ++ ["-ss", start, "-to", stop, c.output] ∧ Denotes start 0 ∧
      Denotes stop 5 := by
  obtain ⟨clocks, bounds⟩ := seconds_read_back_as_clocks
  obtain ⟨least, place, above, within, bare⟩ : ∃ x : Binary64, x.rank? = some 1 ∧
      Binary64.le 0 x = true ∧ x.le maximum = true ∧ x.plain = x :=
    ⟨.finite false 1 (by decide +kernel), by decide +kernel, by decide +kernel, by decide +kernel,
      by decide +kernel⟩
  obtain ⟨c, assembled⟩ : ∃ c, (Edit.dashed.assemble {}).value = .ok c :=
    exists_eq_ok_of_isSome (by decide +kernel)
  obtain ⟨front, start, stop, behind, first, last⟩ := bounds Edit.dashed {} c assembled
  refine ⟨⟨least, place, ?_⟩, c, front, start, stop, assembled, behind, first, last⟩
  have read := (clocks least above within).2.1
  rwa [bare] at read

end Timestamp
end Montage
