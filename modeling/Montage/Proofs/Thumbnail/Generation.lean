import Montage.Proofs.Render.Attempt
import Montage.Proofs.Thumbnail

/-! Strips that were just made. What is reported of a directory does not tell frames of this run from
those that another one has left there, so a short strip goes on with the frames of a longer one. -/
namespace Montage.Thumbnail

theorem frame_ne {m n : Nat} (h : m ≠ n) : [fileName m] ≠ [fileName n] := fun same =>
  h (fileName_injective (List.cons.inj same).1)

structure WritesFrames (count : Nat) (before after : FileTree) : Prop where
  clear : ∀ n, 1 ≤ n → n ≤ count → before.lookup [fileName n] ≠ some .directory
  written : ∀ n, 1 ≤ n → n ≤ count → ∃ bytes, after.lookup [fileName n] = some (.file bytes)
  kept : ∀ q, (∀ n, 1 ≤ n → n ≤ count → q ≠ [fileName n]) → after.lookup q = before.lookup q

structure GoesOn (before : FileTree) (count last : Nat) : Prop where
  reach : count ≤ last
  old : ∀ n, count < n → n ≤ last → before.lookup [fileName n] ≠ none
  free : before.lookup [fileName (last + 1)] = none

theorem GoesOn.eq_of_free {before : FileTree} {count last : Nat} (h : GoesOn before count last)
    (free : before.lookup [fileName (count + 1)] = none) : last = count := by
  by_contra longer
  have reach := h.reach
  exact h.old (count + 1) (Nat.lt_succ_self count) (by omega) free

namespace WritesFrames

variable {count : Nat} {before after : FileTree}

theorem zero (t : FileTree) : WritesFrames 0 t t := by
  refine ⟨?_, ?_, fun _ _ => rfl⟩ <;> intro n positive low <;> omega

theorem succ (h : WritesFrames count before after)
    (clear : before.lookup [fileName (count + 1)] ≠ some .directory) (bytes : Bytes) :
    WritesFrames (count + 1) before (after.put [fileName (count + 1)] (.file bytes)) := by
  refine ⟨?_, ?_, ?_⟩
  · intro n positive low
    rcases Nat.lt_or_eq_of_le low with earlier | rfl
    · exact h.clear n positive (by omega)
    · exact clear
  · intro n positive low
    rcases Nat.lt_or_eq_of_le low with earlier | rfl
    · rw [FileTree.lookup_put_of_ne (frame_ne (Nat.ne_of_lt earlier))]
      exact h.written n positive (by omega)
    · exact ⟨bytes, FileTree.lookup_put_self (by simp)⟩
  · intro q apart
    rw [FileTree.lookup_put_of_ne (apart (count + 1) (by omega) (Nat.le_refl _))]
    exact h.kept q fun n positive low => apart n positive (by omega)

theorem lookup_of_lt (h : WritesFrames count before after) {n : Nat} (beyond : count < n) :
    after.lookup [fileName n] = before.lookup [fileName n] :=
  h.kept _ fun m _ low => frame_ne (by omega)

theorem directory_kept (h : WritesFrames count before after) {q : Location}
    (there : before.lookup q = some .directory) : after.lookup q = some .directory := by
  rw [h.kept q fun n positive low same => h.clear n positive low (same ▸ there), there]

/-- The frames that are there after a run: its own, and behind them those from before. -/
theorem exists_goesOn (h : WritesFrames count before after) : ∃ last, GoesOn before count last ∧
    (∀ n, 1 ≤ n → n ≤ last → after.lookup [fileName n] ≠ none) ∧
      after.lookup [fileName (last + 1)] = none := by
  obtain ⟨bound, -, absent⟩ := exists_free after []
  obtain ⟨last, -, there, free⟩ :=
    exists_first_gap (P := fun n => after.lookup [fileName n] ≠ none) (not_not.2 absent)
  rw [not_not] at free
  have reach : count ≤ last := by
    by_contra short
    obtain ⟨bytes, written⟩ := h.written (last + 1) (by omega) (by omega)
    cases written.symm.trans free
  refine ⟨last, ⟨reach, ?_, ?_⟩, there, free⟩
  · intro n beyond low
    rw [← h.lookup_of_lt beyond]
    exact there n (by omega) low
  · rw [← h.lookup_of_lt (Nat.lt_succ_of_le reach), free]

/-- Whoever runs in a directory and writes frames there leaves the way to it as it is. -/
theorem leads_within {t : FileTree} {p q : Location} {r : Route} {work : FileTree → FileTree}
    (h : WritesFrames count (t.below p) (work (t.below p))) (leads : t.Leads r q) :
    (t.within p work).Leads r q := by
  refine leads.of_directories fun location there => ?_
  by_cases inside : p <+: location
  · obtain ⟨tail, rfl⟩ := inside
    by_cases self : tail = []
    · rw [self, List.append_nil] at there ⊢
      exact FileTree.lookup_within_self there
    · rw [FileTree.lookup_within self]
      exact h.directory_kept (by rw [FileTree.lookup_below self, there])
  · rw [FileTree.lookup_within_of_not_prefix inside, there]

end WritesFrames

section
variable {isCancelled : Bool} {course : Course} {here : Location} {input dir : String} {t : FileTree}
variable {launch : Launch} {count : Nat}

theorem resolve_of_leads {r : Route} {p location : Location} (leads : t.Leads r p)
    (resolved : t.resolve r = .ok location) : location = p := by
  obtain ⟨spot, walked, rest⟩ := bind_eq_ok_iff.1 resolved
  obtain rfl := Except.ok.inj ((FileTree.walk_eq_ok_iff.1 walked).2.symm.trans leads)
  exact (Except.ok.inj rest).symm

theorem generateIn_of_launch {source p : Location} {d : Directory} (leads : t.Leads d.route p)
    (launched : (generateIn isCancelled (some course) source d t).launch = some launch) :
    launch.staged = t.below p ∧ (generateIn isCancelled (some course) source d t).result = (do
      Run.resultOf (Report.lines course.report) course.completion
      (collectPaths (t.within p course.work) d).mapError .io) := by
  unfold generateIn at launched ⊢
  cases resolved : t.resolve d.route with
  | error e => simp [resolved] at launched
  | ok location =>
    obtain rfl := resolve_of_leads leads resolved
    simp only [resolved] at launched ⊢
    cases (command (Directory.absolutePath source)).goes isCancelled (some course) location t with
    | cancelled on result started tree => cases started.symm.trans launched
    | engineless missing result started tree => cases started.symm.trans launched
    | refused cause result started tree => cases started.symm.trans launched
    | ran done started result begun tree =>
      cases started
      cases begun.symm.trans launched
      refine ⟨rfl, ?_⟩
      rw [result, tree]

/-- Where the engine was started, and what is reported from there once it has ended. -/
theorem exists_of_launch
    (launched : (generate isCancelled (some course) here input dir t).launch = some launch) :
    ∃ (made : FileTree) (p : Location), made.Leads (Directory.ofPath here dir).route p ∧
      launch.staged = made.below p ∧
      (generate isCancelled (some course) here input dir t).result = (do
        Run.resultOf (Report.lines course.report) course.completion
        (collectPaths (made.within p course.work) (.ofPath here dir)).mapError .io) := by
  unfold generate at launched ⊢
  cases found : (Route.parse here input).bind t.canonical with
  | error e => simp [found] at launched
  | ok source =>
    cases parsed : Route.parse here dir with
    | error e => simp [found, parsed] at launched
    | ok route =>
      obtain rfl : (Directory.ofPath here dir).route = route := by
        rw [Route.parse] at parsed
        split at parsed
        · cases parsed
        · exact Except.ok.inj parsed
      cases makes : t.makeDirectories (Directory.ofPath here dir).route with | mk made done =>
      cases done with
      | error e => simp [found, parsed, makes] at launched
      | ok _ =>
        obtain ⟨p, leads⟩ := FileTree.leads_of_makeDirectories makes
        simp only [found, parsed, makes] at launched ⊢
        exact ⟨made, p, leads, generateIn_of_launch leads launched⟩

/-- What a strip is reported to have once it was made: the frames of this run and, where these end
before the frames of an earlier one, those behind them up to the next gap. So it is just the new frames
if and only if the name behind them was free. -/
theorem strips_go_on_with_earlier_frames
    (launched : (generate isCancelled (some course) here input dir t).launch = some launch)
    (ended : course.completion = .exited (some 0))
    (writes : WritesFrames count launch.staged (course.work launch.staged)) :
    (∃ last, GoesOn launch.staged count last ∧
      (generate isCancelled (some course) here input dir t).result =
        if (Directory.ofPath here dir).route.Admits (fileName (last + 1)) then
          .ok (frames (.ofPath here dir) last)
        else .error (.io .nameTooLong)) ∧
    ((generate isCancelled (some course) here input dir t).result =
        .ok (frames (.ofPath here dir) count) ↔
      launch.staged.lookup [fileName (count + 1)] = none ∧
        (Directory.ofPath here dir).route.Admits (fileName (count + 1))) := by
  obtain ⟨made, p, leads, staged, result⟩ := exists_of_launch launched
  obtain ⟨last, goesOn, there, free⟩ := writes.exists_goesOn
  have after (n : Nat) : (made.within p course.work).lookup (p ++ [fileName n]) =
      (course.work launch.staged).lookup [fileName n] := by
    rw [staged, FileTree.lookup_within (by simp)]
  have stand : ∀ n, 1 ≤ n → n ≤ last →
      (made.within p course.work).lookup (p ++ [fileName n]) ≠ none := by
    intro n positive low
    rw [after]
    exact there n positive low
  have missing := (after (last + 1)).trans free
  rw [staged] at writes
  have strip := collectPaths_of_leads (d := .ofPath here dir) (writes.leads_within leads) stand missing
  have whole : (generate isCancelled (some course) here input dir t).result =
      if (Directory.ofPath here dir).route.Admits (fileName (last + 1)) then
        .ok (frames (.ofPath here dir) last)
      else .error (.io .nameTooLong) := by
    rw [result, ended, strip]
    split <;> rfl
  refine ⟨⟨last, goesOn, whole⟩, ?_⟩
  rw [whole]
  constructor
  · intro same
    split at same
    · rename_i room
      have length := congrArg List.length (Except.ok.inj same)
      simp only [frames, List.length_map, List.length_range'] at length
      subst length
      exact ⟨goesOn.free, room⟩
    · cases same
  · rintro ⟨free, room⟩
    obtain rfl := goesOn.eq_of_free free
    rw [if_pos room]

end

def oneFrame : Course :=
  { files := ⟨[([fileName 1], .file [1])]⟩, ending := .exits 0 : Engine }.wholly (.exited (some 0))

theorem oneFrame_writes {t : FileTree} (clear : t.lookup [fileName 1] ≠ some .directory) :
    WritesFrames 1 t (oneFrame.work t) := by
  have work : oneFrame.work t = t.put [fileName 1] (.file [1]) := by
    have root : t.lookup [] = some .directory := rfl
    simp [oneFrame, Engine.wholly, FileTree.graft, FileTree.place, FileTree.putDirectories, root, clear]
  rw [work]
  exact (WritesFrames.zero t).succ clear [1]

/-- The old frame behind a gap is not reported. -/
theorem a_strip_ends_before_earlier_frames :
    let t : FileTree := ⟨[(["clip.mp4"], .file []), (["out"], .directory),
      (["out", "thumbnail-001.png"], .file []), (["out", "thumbnail-003.png"], .file [])]⟩
    (generate false (some oneFrame) [] "clip.mp4" "out" t).result = .ok ["out/thumbnail-001.png"] := by
  intro t
  let staged : FileTree := ⟨[(["thumbnail-001.png"], .file []), (["thumbnail-003.png"], .file [])]⟩
  have begun : ((generate false (some oneFrame) [] "clip.mp4" "out" t).launch.map (·.staged)) =
      some staged := by decide +kernel
  obtain ⟨launch, launched, found⟩ := Option.map_eq_some_iff.1 begun
  have writes : WritesFrames 1 launch.staged (oneFrame.work launch.staged) :=
    oneFrame_writes (by rw [found]; decide +kernel)
  have free : launch.staged.lookup [fileName 2] = none := by
    rw [found]
    decide +kernel
  rw [(strips_go_on_with_earlier_frames launched rfl writes).2.2 ⟨free, by decide +kernel⟩]
  decide +kernel

/-- The second frame of an earlier run is reported of an input that has one only. -/
theorem an_earlier_frame_is_reported :
    let t : FileTree := ⟨[(["clip.mp4"], .file []), (["out"], .directory),
      (["out", "thumbnail-001.png"], .file []), (["out", "thumbnail-002.png"], .file [])]⟩
    (generate false (some oneFrame) [] "clip.mp4" "out" t).result =
        .ok ["out/thumbnail-001.png", "out/thumbnail-002.png"] ∧
      ¬ ∀ (isCancelled : Bool) (course : Course) (here : Location) (input dir : String) (t : FileTree)
          (launch : Launch) (count : Nat),
        (generate isCancelled (some course) here input dir t).launch = some launch →
        course.completion = .exited (some 0) →
        WritesFrames count launch.staged (course.work launch.staged) →
        (generate isCancelled (some course) here input dir t).result =
          .ok (frames (.ofPath here dir) count) := by
  intro t
  let staged : FileTree := ⟨[(["thumbnail-001.png"], .file []), (["thumbnail-002.png"], .file [])]⟩
  have both : (generate false (some oneFrame) [] "clip.mp4" "out" t).result =
      .ok ["out/thumbnail-001.png", "out/thumbnail-002.png"] := by decide +kernel
  refine ⟨both, fun law => ?_⟩
  have begun : ((generate false (some oneFrame) [] "clip.mp4" "out" t).launch.map (·.staged)) =
      some staged := by decide +kernel
  obtain ⟨launch, launched, found⟩ := Option.map_eq_some_iff.1 begun
  have writes : WritesFrames 1 launch.staged (oneFrame.work launch.staged) :=
    oneFrame_writes (by rw [found]; decide +kernel)
  have one := law _ _ _ _ _ _ launch 1 launched rfl writes
  have length := congrArg List.length (Except.ok.inj (both.symm.trans one))
  cases length

end Montage.Thumbnail
