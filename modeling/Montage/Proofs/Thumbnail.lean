import Mathlib.Data.List.Nodup
import Mathlib.Data.List.Perm.Subperm
import Montage.Thumbnail
import Montage.Proofs.Binary64.ReadBack
import Montage.Proofs.FileTree.Children
import Montage.Proofs.PlainDecimal

/-! The strip that a directory holds: its frames from the first one on, up to the first that is
missing. The search for that one has no bound of its own. It ends because different numbers have
different names, and a tree has only so many entries. -/
namespace Montage.Thumbnail

theorem fileName_injective : Function.Injective fileName := by
  intro m n same
  simp only [fileName, String.append_left_inj, String.append_right_inj] at same
  have padded := String.ofList_injective same
  rw [← Numeral.value_padded 3 m, padded, Numeral.value_padded]

theorem utf8ByteSize_fileName (n : Nat) :
    (fileName n).utf8ByteSize = 14 + max 3 (Numeral.digits n).length := by
  have digits : IsDigits (Numeral.padded 3 n) := (Numeral.isDigits_digits n).zeros_append _
  have number := Text.utf8ByteSize_of_ascii fun c among => Text.toNat_lt_of_isDigit (digits.2 c among)
  have lead : "thumbnail-".utf8ByteSize = 10 := by decide
  have ending : ".png".utf8ByteSize = 4 := by decide
  rw [fileName, String.utf8ByteSize_append, String.utf8ByteSize_append, number, lead, ending,
    Numeral.padded, List.length_append, List.length_replicate]
  omega

theorem admits_mono {r : Route} {m n : Nat} (h : m ≤ n) (room : r.Admits (fileName n)) :
    r.Admits (fileName m) := by
  have size : (fileName m).utf8ByteSize ≤ (fileName n).utf8ByteSize := by
    have digits := Numeral.length_digits_mono h
    rw [utf8ByteSize_fileName, utf8ByteSize_fileName]
    omega
  obtain ⟨name, path⟩ := room
  refine ⟨size.trans name, ?_⟩
  simp only [Route.child, Route.extend] at path ⊢
  omega

theorem head?_fileName (n : Nat) : (fileName n).toList.head? = some 't' := by
  rw [fileName, String.append_assoc, String.toList_append]
  rfl

theorem pathOf_fileName_injective (d : Directory) :
    Function.Injective fun n => d.pathOf (fileName n) := by
  intro m n same
  have relative (n : Nat) : (fileName n).toList.head? ≠ some '/' := by
    rw [head?_fileName]
    decide
  have names := (Path.join_inj (relative m) (relative n)).1 (String.ofList_injective same)
  exact fileName_injective (String.toList_injective names)

def check (t : FileTree) (dir : Route) (n : Nat) : Except IoError Bool :=
  t.present (dir.child (fileName n))

def frames (d : Directory) (last : Nat) : List String :=
  (List.range' 1 last).map fun n => d.pathOf (fileName n)

theorem nodup_frames (d : Directory) (last : Nat) : (frames d last).Nodup :=
  List.Nodup.map (pathOf_fileName_injective d) List.nodup_range'

/-- How a search goes on from a number, without any bound: it stops where a check fails or no frame is
found, and takes each frame that is. -/
inductive Searches (t : FileTree) (d : Directory) : Nat → Except IoError (List String) → Prop where
  | failed {n : Nat} {e : IoError} : check t d.route n = .error e → Searches t d n (.error e)
  | gap {n : Nat} : check t d.route n = .ok false → Searches t d n (.ok [])
  | frame {n : Nat} {result : Except IoError (List String)} : check t d.route n = .ok true →
      Searches t d (n + 1) result → Searches t d n (result.map (d.pathOf (fileName n) :: ·))

structure EndsAt (t : FileTree) (dir : Route) (last : Nat) : Prop where
  there : ∀ n, 1 ≤ n → n ≤ last → check t dir n = .ok true
  absent : check t dir (last + 1) ≠ .ok true

section
variable {t : FileTree} {d : Directory} {dir : Route} {p : Location} {last n : Nat}

theorem Searches.unique {first second : Except IoError (List String)} (h : Searches t d n first)
    (other : Searches t d n second) : first = second := by
  induction h generalizing second with
  | failed found =>
    cases other with
    | failed again =>
      cases found.symm.trans again
      rfl
    | gap again => cases found.symm.trans again
    | frame again => cases found.symm.trans again
  | gap found =>
    cases other with
    | failed again => cases found.symm.trans again
    | gap again => rfl
    | frame again => cases found.symm.trans again
  | frame found rest ih =>
    cases other with
    | failed again => cases found.symm.trans again
    | gap again => cases found.symm.trans again
    | frame again others => rw [ih others]

/-- A bounded search is a whole one if its bound lies beyond a frame that is not found. -/
theorem searches_collectFrom {limit gap : Nat} (bound : gap < limit)
    (absent : check t d.route (n + gap) ≠ .ok true) :
    Searches t d n ((collectFrom t d.route limit n).map (·.map d.pathOf)) := by
  induction limit generalizing n gap with
  | zero => cases bound
  | succ limit ih =>
    rw [collectFrom, ← check]
    cases found : check t d.route n with
    | error e => exact .failed found
    | ok there =>
      cases there with
      | false => exact .gap found
      | true =>
        cases gap with
        | zero => exact absurd found absent
        | succ gap =>
          have further : check t d.route (n + 1 + gap) ≠ .ok true := by
            rwa [Nat.add_right_comm, Nat.add_assoc]
          have whole := Searches.frame found (ih (Nat.lt_of_succ_lt_succ bound) further)
          simp only [bind, Except.bind, if_true]
          cases others : collectFrom t d.route limit (n + 1) <;> rw [others] at whole <;> exact whole

/-- As many frames are taken as are there before the first that is not. -/
theorem searches_frames {count : Nat}
    (there : ∀ m, n ≤ m → m < n + count → check t d.route m = .ok true)
    (absent : check t d.route (n + count) ≠ .ok true) :
    Searches t d n ((check t d.route (n + count)).map fun _ =>
      (List.range' n count).map fun m => d.pathOf (fileName m)) := by
  induction count generalizing n with
  | zero =>
    rw [Nat.add_zero] at absent ⊢
    cases found : check t d.route n with
    | error e => exact .failed found
    | ok isFrame =>
      cases isFrame with
      | false => exact .gap found
      | true => exact absurd found absent
  | succ count ih =>
    have regroup : n + (count + 1) = n + 1 + count := by omega
    rw [regroup] at absent there ⊢
    have first := there n (Nat.le_refl n) (by omega)
    have rest := ih (fun m low high => there m (by omega) high) absent
    have whole := Searches.frame first rest
    cases last : check t d.route (n + 1 + count) <;> rw [last] at whole <;> exact whole

/-- The whole search for a strip: it takes the frames up to the end, and fails just if the check for
the next one does. -/
theorem EndsAt.searches (h : EndsAt t d.route last) :
    Searches t d 1 ((check t d.route (last + 1)).map fun _ => frames d last) := by
  have absent := h.absent
  rw [Nat.add_comm last 1] at absent ⊢
  exact searches_frames (fun m low high => h.there m low (by omega)) absent

/-! What is found stands in the directory, each frame at a location of its own. -/

theorem check_eq_ok_iff (h : t.Leads dir p) {there : Bool} : check t dir n = .ok there ↔
    dir.Admits (fileName n) ∧ (t.lookup (p ++ [fileName n])).isSome = there :=
  h.present_child_eq_ok_iff

/-- Some frame is not there, since each would take an entry of its own. -/
theorem exists_free (t : FileTree) (p : Location) :
    ∃ last ≤ t.entries.length, t.lookup (p ++ [fileName (last + 1)]) = none := by
  by_contra all
  simp only [not_exists, not_and] at all
  let locations := (List.range (t.entries.length + 1)).map fun n => p ++ [fileName (n + 1)]
  have apart : locations.Nodup := by
    refine List.Nodup.map ?_ List.nodup_range
    intro m n same
    have names : fileName (m + 1) = fileName (n + 1) := by simpa using same
    exact Nat.succ_injective (fileName_injective names)
  have among : locations ⊆ t.entries.map Prod.fst := by
    intro q inside
    obtain ⟨n, low, rfl⟩ := List.mem_map.1 inside
    have there := all n (Nat.lt_succ_iff.1 (List.mem_range.1 low))
    obtain ⟨node, found⟩ := Option.ne_none_iff_exists'.1 there
    rw [FileTree.lookup, if_neg (by simp), List.lookup_eq_some_iff] at found
    obtain ⟨before, after, whole, -⟩ := found
    simp [whole]
  have short := (apart.subperm among).length_le
  simp [locations] at short

theorem exists_missing (t : FileTree) (dir : Route) :
    ∃ last ≤ t.entries.length, check t dir (last + 1) ≠ .ok true := by
  by_cases first : check t dir 1 = .ok true
  · obtain ⟨p, leads⟩ := FileTree.leads_of_present_child first
    obtain ⟨last, small, free⟩ := exists_free t p
    refine ⟨last, small, fun found => ?_⟩
    obtain ⟨-, there⟩ := (check_eq_ok_iff leads).1 found
    rw [free] at there
    cases there
  · exact ⟨0, Nat.zero_le _, first⟩

theorem exists_first_gap {P : Nat → Prop} {bound : Nat} (absent : ¬P (bound + 1)) :
    ∃ last ≤ bound, (∀ n, 1 ≤ n → n ≤ last → P n) ∧ ¬P (last + 1) := by
  classical
  have falls : ∃ n, ¬P (n + 1) := ⟨bound, absent⟩
  refine ⟨Nat.find falls, Nat.find_min' falls absent, ?_, Nat.find_spec falls⟩
  intro n positive low
  have before := Nat.find_min falls (m := n - 1) (by omega)
  rwa [not_not, Nat.sub_add_cancel positive] at before

theorem exists_endsAt (t : FileTree) (dir : Route) :
    ∃ last ≤ t.entries.length, EndsAt t dir last := by
  obtain ⟨bound, small, absent⟩ := exists_missing t dir
  obtain ⟨last, early, there, gap⟩ := exists_first_gap (P := fun n => check t dir n = .ok true) absent
  exact ⟨last, early.trans small, there, gap⟩

theorem EndsAt.unique {other : Nat} (h : EndsAt t dir last) (h' : EndsAt t dir other) :
    last = other := by
  have first : ¬ last < other := fun less => h.absent (h'.there (last + 1) (by omega) less)
  have second : ¬ other < last := fun less => h'.absent (h.there (other + 1) (by omega) less)
  omega

theorem EndsAt.checks (h : EndsAt t dir last) (gap : check t dir (last + 1) = .ok false) (k : Nat)
    (e : IoError) (before : ∀ n, 1 ≤ n → n ≤ k → check t dir n = .ok true) :
    check t dir (k + 1) ≠ .error e := by
  intro failed
  rcases Nat.lt_trichotomy k last with early | rfl | late
  · cases (h.there (k + 1) (by omega) early).symm.trans failed
  · cases gap.symm.trans failed
  · exact h.absent (before (last + 1) (by omega) late)

/-- The strip of a directory is what the unbounded search finds. -/
theorem searches_iff {result : Except IoError (List String)} :
    Searches t d 1 result ↔ result = collectPaths t d := by
  obtain ⟨gap, small, absent⟩ := exists_missing t d.route
  have mine : Searches t d 1 (collectPaths t d) :=
    searches_collectFrom (Nat.lt_succ_of_le small) (by rwa [Nat.add_comm])
  constructor
  · intro other
    exact other.unique mine
  · rintro rfl
    exact mine

theorem EndsAt.collectPaths_eq (h : EndsAt t d.route last) :
    collectPaths t d = (check t d.route (last + 1)).map fun _ => frames d last :=
  (searches_iff.1 h.searches).symm

/-- The frames of a directory are reported up to the first number whose name is free there, unless the
path to look for that one is too long. -/
theorem collectPaths_of_leads (leads : t.Leads d.route p)
    (there : ∀ n, 1 ≤ n → n ≤ last → t.lookup (p ++ [fileName n]) ≠ none)
    (free : t.lookup (p ++ [fileName (last + 1)]) = none) :
    collectPaths t d = if d.route.Admits (fileName (last + 1)) then .ok (frames d last)
      else .error .nameTooLong := by
  obtain ⟨found, -, ends⟩ := exists_endsAt t d.route
  have early : found ≤ last := by
    by_contra late
    obtain ⟨-, stands⟩ := (check_eq_ok_iff leads).1 (ends.there (last + 1) (by omega) (by omega))
    rw [free] at stands
    cases stands
  by_cases room : d.route.Admits (fileName (found + 1))
  · have missing : t.lookup (p ++ [fileName (found + 1)]) = none := by
      by_contra some
      exact ends.absent ((check_eq_ok_iff leads).2 ⟨room, Option.isSome_iff_ne_none.2 some⟩)
    obtain rfl : found = last := by
      by_contra other
      exact there (found + 1) (by omega) (by omega) missing
    have gap : check t d.route (found + 1) = .ok false :=
      (check_eq_ok_iff leads).2 ⟨room, by rw [missing]; rfl⟩
    rw [if_pos room, ends.collectPaths_eq, gap]
    rfl
  · have long : ¬d.route.Admits (fileName (last + 1)) := fun fits =>
      room (admits_mono (Nat.succ_le_succ early) fits)
    have failed : check t d.route (found + 1) = .error .nameTooLong :=
      leads.present_child_of_not_admits room
    rw [if_neg long, ends.collectPaths_eq, failed]
    rfl

/-- A search asks for no more than the frames up to the first that is missing. -/
theorem EndsAt.collectPaths_congr {other : FileTree} (h : EndsAt t d.route last)
    (same : ∀ n, 1 ≤ n → n ≤ last + 1 → check other d.route n = check t d.route n) :
    collectPaths other d = collectPaths t d := by
  have next := same (last + 1) (by omega) (Nat.le_refl _)
  have ends : EndsAt other d.route last := by
    refine ⟨fun n positive low => ?_, ?_⟩
    · rw [same n positive (by omega), h.there n positive low]
    · rw [next]
      exact h.absent
  rw [ends.collectPaths_eq, h.collectPaths_eq, next]

end

/-- Of a directory where no check fails, the strip is all that is there without a gap from the first
frame on: the search ends, it takes each of these frames once and in order, and nothing behind the gap
or under other names changes what it takes. -/
theorem strips_end_at_their_first_gap (t : FileTree) (d : Directory)
    (checks : ∀ k e, (∀ n, 1 ≤ n → n ≤ k → check t d.route n = .ok true) →
      check t d.route (k + 1) ≠ .error e) :
    Function.Injective fileName ∧ ∃ last ≤ t.entries.length,
      ((∀ n, 1 ≤ n → n ≤ last → check t d.route n = .ok true) ∧
        check t d.route (last + 1) = .ok false) ∧
      collectPaths t d = .ok (frames d last) ∧ (frames d last).Nodup ∧
      (∀ result, Searches t d 1 result ↔ result = .ok (frames d last)) ∧
      (∀ other, (∀ n, 1 ≤ n → n ≤ last + 1 → check other d.route n = check t d.route n) →
        collectPaths other d = .ok (frames d last)) ∧
      ∀ other p, t.Leads d.route p → other.Leads d.route p →
        (∀ n, 1 ≤ n → n ≤ last + 1 → (other.lookup (p ++ [fileName n])).isSome =
          (t.lookup (p ++ [fileName n])).isSome) →
        collectPaths other d = .ok (frames d last) := by
  obtain ⟨last, small, ends⟩ := exists_endsAt t d.route
  have gap : check t d.route (last + 1) = .ok false := by
    cases found : check t d.route (last + 1) with
    | error e => exact absurd found (checks last e ends.there)
    | ok there =>
      cases there with
      | false => rfl
      | true => exact absurd found ends.absent
  have whole : collectPaths t d = .ok (frames d last) := by
    rw [ends.collectPaths_eq, gap]
    rfl
  refine ⟨fileName_injective, last, small, ⟨ends.there, gap⟩, whole, nodup_frames d last, ?_, ?_, ?_⟩
  · intro result
    rw [searches_iff, whole]
  · intro other same
    rw [ends.collectPaths_congr same, whole]
  · intro other p leads leads' same
    refine (ends.collectPaths_congr fun n positive low => ?_).trans whole
    have asked : ∃ there, check t d.route n = .ok there := by
      rcases Nat.lt_or_eq_of_le low with before | rfl
      · exact ⟨true, ends.there n positive (by omega)⟩
      · exact ⟨false, gap⟩
    obtain ⟨there, found⟩ := asked
    obtain ⟨room, stands⟩ := (check_eq_ok_iff leads).1 found
    rw [found, check_eq_ok_iff leads', same n positive low]
    exact ⟨room, stands⟩

/-- The first two frames of four in a directory, where the third is missing. -/
theorem strip_before_a_gap :
    let file : Node := .file []
    let t : FileTree := ⟨[(["out"], .directory), (["out", "thumbnail-001.png"], file),
      (["out", "thumbnail-002.png"], file), (["out", "thumbnail-004.png"], file),
      (["out", "notes.txt"], file)]⟩
    collectPaths t (.ofPath [] "out") = .ok ["out/thumbnail-001.png", "out/thumbnail-002.png"] := by
  intro file t
  have ends : EndsAt t (Directory.ofPath [] "out").route 2 := ⟨by decide +kernel, by decide +kernel⟩
  have gap : check t (Directory.ofPath [] "out").route 3 = .ok false := by decide +kernel
  obtain ⟨-, last, -, ⟨there, absent⟩, strip, -⟩ :=
    strips_end_at_their_first_gap t (.ofPath [] "out") (ends.checks gap)
  have same : last = 2 := EndsAt.unique ⟨there, by simp [absent]⟩ ends
  rw [strip, same]
  decide +kernel

end Montage.Thumbnail
