import Montage.Engine.Schedule
import Montage.Proofs.Render.Isolation

/-! What the result of an execution rests on, whatever is noticed first of its exit, the signal and the
deadline. -/
namespace Montage

theorem Moment.mem_completions {timeout : Option Nat} {m : Moment} {c : Completion} :
    c ∈ m.completions timeout ↔ match c with
      | .exited code => m.exit = some code
      | .cancelled => m.isCancelled = true
      | .deadline seconds => timeout = some seconds ∧ seconds ≤ m.seconds := by
  cases c <;> simp [completions, Option.filter_eq_some_iff]

theorem Completion.exists_moment_of_first? {timeout : Option Nat} {choice : Nat}
    {moments : List Moment} {c : Completion} (h : first? timeout choice moments = some c) :
    ∃ m ∈ moments, c ∈ m.completions timeout := by
  induction moments with
  | nil => cases h
  | cons m rest ih =>
    rw [first?] at h
    split at h
    · obtain ⟨later, among, there⟩ := ih h
      exact ⟨later, List.mem_cons_of_mem _ among, there⟩
    · rename_i first others all
      refine ⟨m, List.mem_cons_self .., ?_⟩
      rw [all]
      exact List.mem_of_getElem? h

/-- A sender that leaves has no more effect than one that waits for ever. -/
theorem Sender.cancels_eq_isOn (s : Sender) (time : Nat) : s.cancels time = s.isOn time := by
  rw [cancels, wait?]
  cases on : s.isOn time with
  | true => rfl
  | false => cases s.isGone time <;> rfl

namespace Schedule

variable {s : Schedule} {timeout : Option Nat} {course : Course}

theorem le_check {look : Nat} (h : look ∈ s.looks) : look ≤ s.check := by
  have order := s.in_order
  simp only [List.cons_append, List.pairwise_cons, List.pairwise_append] at order
  exact order.2.2.2.2 look h s.check (List.mem_singleton_self _)

theorem Shows.exists_look (h : s.Shows timeout course) :
    ∃ look ∈ s.looks, course.completion ∈ (s.moment look).completions timeout := by
  obtain ⟨m, among, there⟩ := Completion.exists_moment_of_first? h
  obtain ⟨look, looked, rfl⟩ := List.mem_map.1 among
  exact ⟨look, looked, there⟩

theorem Shows.exited (h : s.Shows timeout course) {code : Option Int}
    (ended : course.completion = .exited code) :
    ∃ time, time ≤ s.check ∧ s.exit = some (time, code) := by
  obtain ⟨look, looked, there⟩ := h.exists_look
  rw [ended, Moment.mem_completions] at there
  simp only [moment, Option.map_eq_some_iff, Option.filter_eq_some_iff, decide_eq_true_eq] at there
  obtain ⟨⟨time, code'⟩, ⟨exit, seen⟩, rfl⟩ := there
  exact ⟨time, seen.trans (le_check looked), exit⟩

theorem Shows.cancelled (h : s.Shows timeout course) (ended : course.completion = .cancelled) :
    s.sender.isOn s.check = true := by
  obtain ⟨look, looked, there⟩ := h.exists_look
  rw [ended, Moment.mem_completions] at there
  have on : s.sender.isOn look = true := by
    rwa [← Sender.cancels_eq_isOn]
  exact Sender.isOn_of_le (le_check looked) on

theorem Shows.deadline (h : s.Shows timeout course) {seconds : Nat}
    (ended : course.completion = .deadline seconds) :
    timeout = some seconds ∧ ∃ look ∈ s.looks, 1000 * seconds ≤ look - s.start := by
  obtain ⟨look, looked, there⟩ := h.exists_look
  rw [ended, Moment.mem_completions] at there
  obtain ⟨limit, passed⟩ := there
  have long : 1000 * seconds ≤ look - s.start := by
    change seconds ≤ (look - s.start) / 1000 at passed
    omega
  exact ⟨limit, look, looked, long⟩

end Schedule

namespace Executor

theorem collect_eq_ok_iff {r : ExecutionRequest} {s : Staging} {t : FileTree} {output : Output} :
    collect r s t = .ok output ↔ t.read (s.route.along r.command.output) = .ok output.bytes ∧
      output.mimeTypeFamily = r.command.format.mimeTypeFamily ∧
      output.fileName = r.command.output := by
  obtain ⟨bytes, family, name⟩ := output
  rw [collect]
  constructor
  · intro h
    split at h
    · rename_i found
      cases h
      exact ⟨found, rfl, rfl⟩
    · cases h
    · cases h
  · rintro ⟨found, rfl, rfl⟩
    rw [found]

theorem exists_isStarted_of_ok {x : Executor} {r : ExecutionRequest} {watch : Watch}
    {engine : Machine} {suffix : String} {t : FileTree} {output : Output}
    (h : (x.execute r watch engine suffix t).result = .ok output) :
    ∃ launch files made staged s course,
      (x.execute r watch engine suffix t).launch = some launch ∧
      x.IsStarted r watch engine suffix t launch files made staged s course ∧
      course.completion = .exited (some 0) ∧ watch.afterExit = false ∧
      collect r s (staged.within s.location course.work) = .ok output := by
  cases launched : (x.execute r watch engine suffix t).launch with
  | none =>
    obtain ⟨err, failed, -⟩ := (x.goes r watch engine suffix t).result_of_unstarted launched
    cases h.symm.trans failed
  | some launch =>
    obtain ⟨files, made, staged, s, course, started⟩ := exists_isStarted_of_launch launched
    have ended := started.ends
    rw [h] at ended
    obtain ⟨success, off, collected⟩ := ended.of_ok
    exact ⟨launch, files, made, staged, s, course, rfl, started, success, off, collected⟩

/-- What is collected under a single name is what the engine has left there. -/
theorem IsStarted.held {x : Executor} {r : ExecutionRequest} {watch : Watch} {engine : Machine}
    {suffix : String} {t : FileTree} {launch : Launch} {files : List (String × Bytes)}
    {made staged : FileTree} {s : Staging} {course : Course} {bytes : Bytes}
    (h : x.IsStarted r watch engine suffix t launch files made staged s course)
    (read : (staged.within s.location course.work).read (s.route.along r.command.output) =
      .ok bytes) (single : Path.IsName r.command.output.toList) :
    (course.work launch.staged).lookup [r.command.output] = some (.file bytes) := by
  rw [FileTree.along_of_isName single] at read
  obtain ⟨-, there⟩ := (s.leads _).read_child_eq_ok_iff.1 read
  rwa [FileTree.lookup_within (List.cons_ne_nil _ _), ← h.launch] at there

structure Delivers (x : Executor) (r : ExecutionRequest) (s : Schedule) (engine : Machine)
    (suffix : String) (t : FileTree) (output : Output) (launch : Launch) (course : Course) :
    Prop where
  quiet : ∀ time, time ≤ s.check → s.sender.isOn time = false
  supplied : ∀ i ∈ r.command.images, (r.images.lookup i.overlay.id).isSome
  launched : (x.execute r s.watch engine suffix t).launch = some launch
  started : engine x.timeout = some course
  success : course.completion = .exited (some 0)
  exited : ∃ time, time ≤ s.check ∧ s.exit = some (time, some 0)
  /-- The bytes are those of the output in the directory that the engine left. -/
  found : ∃ files made staged dir,
    x.IsStarted r s.watch engine suffix t launch files made staged dir course ∧
      (staged.within dir.location course.work).read (dir.route.along r.command.output) =
        .ok output.bytes
  held : Path.IsName r.command.output.toList →
    (course.work launch.staged).lookup [r.command.output] = some (.file output.bytes)
  named : output.fileName = r.command.output
  family : output.mimeTypeFamily = r.command.format.mimeTypeFamily

section
variable {x : Executor} {r : ExecutionRequest} {s : Schedule} {engine : Machine} {suffix : String}
  {t : FileTree}

theorem delivers_of_result {output : Output}
    (seen : ∀ course, engine x.timeout = some course → s.Shows x.timeout course)
    (h : (x.execute r s.watch engine suffix t).result = .ok output) :
    ∃ launch course, x.Delivers r s engine suffix t output launch course := by
  obtain ⟨launch, files, made, staged, dir, course, launched, started, success, off, collected⟩ :=
    exists_isStarted_of_ok h
  obtain ⟨read, family, named⟩ := collect_eq_ok_iff.1 collected
  have quiet : ∀ time, time ≤ s.check → s.sender.isOn time = false := by
    intro time before
    rw [← Bool.not_eq_true]
    intro on
    have still : s.sender.isOn s.check = true := Sender.isOn_of_le before on
    cases off.symm.trans still
  refine ⟨launch, course, quiet, ?_, launched, started.started, success, ?_, ?_,
    started.held read, named, family⟩
  · exact fun i among => ExecutionRequest.isSome_of_stagedFiles started.collected among
  · exact (seen course started.started).exited success
  · exact ⟨files, made, staged, dir, started, read⟩

theorem Delivers.result {output : Output} {launch : Launch} {course : Course}
    (h : x.Delivers r s engine suffix t output launch course) :
    (x.execute r s.watch engine suffix t).result = .ok output := by
  obtain ⟨files, made, staged, dir, started, read⟩ := h.found
  have off : s.watch.afterExit = false := h.quiet s.check (Nat.le_refl _)
  have collected := collect_eq_ok_iff.2 ⟨read, h.family, h.named⟩
  rw [started.result, h.success, off, collected]
  rfl

end

end Executor

/-- Only the signal cancels an execution, only its time limit ends it early, and an output is what a
successful engine left that nothing stopped. -/
theorem results_are_earned (x : Executor) (r : ExecutionRequest) (s : Schedule) (engine : Machine)
    (suffix : String) (t : FileTree)
    (seen : ∀ course, engine x.timeout = some course → s.Shows x.timeout course) :
    let result := (x.execute r s.watch engine suffix t).result
    (∀ output, result = .ok output ↔
      ∃ launch course, x.Delivers r s engine suffix t output launch course) ∧
    (result = .error .cancelled → ∃ time, time ≤ s.check ∧ s.sender.isOn time = true) ∧
    (∀ seconds, result = .error (.timeout seconds) →
      x.timeout = some seconds ∧ ∃ look ∈ s.looks, 1000 * seconds ≤ look - s.start) ∧
    (s.sender.isOn s.entry = true → result = .error .cancelled) := by
  refine ⟨?_, ?_, ?_, ?_⟩
  · intro output
    constructor
    · exact Executor.delivers_of_result seen
    · rintro ⟨launch, course, delivers⟩
      exact delivers.result
  · intro failed
    refine ⟨s.check, Nat.le_refl _, ?_⟩
    cases x.fails failed with
    | cancelled why =>
      rcases why with on | ⟨course, started, stopped⟩
      · exact on
      · exact (seen course started).cancelled stopped
  · intro seconds failed
    cases x.fails failed with
    | timeout course started _ stopped => exact (seen course started).deadline stopped
  · intro on
    exact (x.goes r s.watch engine suffix t).result_of_entered on

def Machine.brief : Machine := fun _ =>
  some ⟨[], fun dir => dir.put ["_y_my_clip1.mp4"] (.file [7]), .exited (some 0)⟩

/-- The exit is noticed at the second look, a little before the last look at the signal. -/
def Schedule.brief (asked : Nat) : Schedule where
  sender := { asks := some asked }
  looks := [10, 40]
  check := 50
  exit := some (30, some 0)

/-- The same exit gives an output if the signal comes after the last look, and none if before. -/
theorem untitled_signal_decides : ∃ c output launch course,
    (Edit.untitled.assemble {}).value = .ok c ∧ output.bytes = [7] ∧
    Executor.temporary.Delivers c.photoRequest (.brief 60) .brief "x" .temporary output launch
      course ∧
    (Executor.temporary.execute c.photoRequest (Schedule.brief 45).watch .brief "x"
      .temporary).result = .error .cancelled ∧
    ∃ time, time ≤ 50 ∧ (Schedule.brief 45).sender.isOn time = true := by
  obtain ⟨c, assembled⟩ : ∃ c, (Edit.untitled.assemble {}).value = .ok c :=
    exists_eq_ok_of_isSome (by decide +kernel)
  have runs : (Edit.untitled.assemble {}).value.toOption.map (fun c =>
      ((Executor.temporary.execute c.photoRequest (Schedule.brief 60).watch .brief "x"
          .temporary).result.toOption.map (·.bytes),
        decide ((Executor.temporary.execute c.photoRequest (Schedule.brief 45).watch .brief "x"
          .temporary).result = .error .cancelled))) = some (some [7], true) := by
    decide +kernel
  rw [assembled] at runs
  simp only [Except.toOption, Option.map_some, Option.some.injEq, Prod.mk.injEq,
    decide_eq_true_eq] at runs
  obtain ⟨delivered, stopped⟩ := runs
  have seen60 (course : Course) (started : Machine.brief Executor.temporary.timeout = some course) :
      (Schedule.brief 60).Shows Executor.temporary.timeout course := by
    cases started
    rfl
  have seen45 (course : Course) (started : Machine.brief Executor.temporary.timeout = some course) :
      (Schedule.brief 45).Shows Executor.temporary.timeout course := by
    cases started
    rfl
  have earned := results_are_earned .temporary c.photoRequest (.brief 60) .brief "x" .temporary seen60
  have denied := results_are_earned .temporary c.photoRequest (.brief 45) .brief "x" .temporary seen45
  cases result : (Executor.temporary.execute c.photoRequest (Schedule.brief 60).watch .brief "x"
      .temporary).result with
  | error err =>
    rw [result] at delivered
    cases delivered
  | ok output =>
    rw [result] at delivered
    obtain ⟨launch, course, delivers⟩ := (earned.1 output).1 result
    exact ⟨c, output, launch, course, assembled, Option.some.inj delivered, delivers, stopped,
      denied.2.1 stopped⟩

end Montage
