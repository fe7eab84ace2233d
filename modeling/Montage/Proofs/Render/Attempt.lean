import Montage.Proofs.Render.Staging

/-! How an execution goes. Each case tells what it rests on, what comes out of it and what it leaves
behind, so that no later proof has to go through the stages of an execution again. -/
namespace Montage

inductive Command.Goes (c : Command) (isCancelled : Bool) (course : Option Course) (dir : Location)
    (t : FileTree) (run : Run) : Prop where
  | cancelled (on : isCancelled = true) (result : run.result = .error .cancelled)
      (launch : run.launch = none) (tree : run.tree = t)
  | engineless (missing : course = none) (result : run.result = .error .engineNotFound)
      (launch : run.launch = none) (tree : run.tree = t)
  | refused (cause : IoError) (result : run.result = .error (.io cause))
      (launch : run.launch = none) (tree : run.tree = t)
  | ran (done : Course) (started : course = some done)
      (result : run.result = Run.resultOf (Report.lines done.report) done.completion)
      (launch : run.launch = some ⟨c.runArguments, t.below dir⟩) (tree : run.tree = t.within dir done.work)

theorem Command.goes (c : Command) (isCancelled : Bool) (course : Option Course) (dir : Location)
    (t : FileTree) : c.Goes isCancelled course dir t (c.run isCancelled course dir t) := by
  cases isCancelled with
  | true => exact .cancelled rfl rfl rfl rfl
  | false =>
    cases course with
    | none => exact .engineless rfl rfl rfl rfl
    | some done =>
      cases refused : Run.refusal? c.runArguments with
      | some cause => apply Goes.refused cause <;> simp [run, refused]
      | none => apply Goes.ran done <;> simp [run, refused]

namespace Executor

inductive Runs (x : Executor) (r : ExecutionRequest) (watch : Watch) (course : Option Course)
    (s : Staging) (files : List (String × Bytes)) (t : FileTree) (e : Execution) : Prop where
  | unstaged (cause : IoError) (result : e.result = .error (.io cause)) (launch : e.launch = none)
      (tree : e.tree = stageSome s.route files t)
  | unstarted (staged : FileTree) (err : RenderError)
      (why : err = .cancelled ∧ watch.beforeStart = true ∨ err = .engineNotFound ∨
        ∃ cause, err = .io cause)
      (written : stageFiles s.route files t = .ok staged) (result : e.result = .error err)
      (launch : e.launch = none) (tree : e.tree = staged)
  | ran (staged : FileTree) (done : Course) (launch : Launch)
      (written : stageFiles s.route files t = .ok staged) (started : course = some done)
      (launched : e.launch = some launch) (found : launch.staged = staged.below s.location)
      (result : e.result = do
        Run.resultOf (Report.lines done.report) done.completion
        if watch.afterExit then throw .cancelled
        collect r s (staged.within s.location done.work))
      (tree : e.tree = staged.within s.location done.work)

theorem runs (x : Executor) (r : ExecutionRequest) (watch : Watch) (course : Option Course)
    (s : Staging) (files : List (String × Bytes)) (t : FileTree) :
    x.Runs r watch course s files t (x.stageAndRun r watch course s files t) := by
  cases written : stageFiles s.route files t with
  | error cause => apply Runs.unstaged cause <;> simp [stageAndRun, written]
  | ok staged =>
    have staging : x.stageAndRun r watch course s files t = x.runStaged r watch course s staged := by
      simp only [stageAndRun, written]
    have goes := (r.command.toCommand.withLogLevel x.logLevel).goes watch.beforeStart course
      s.location staged
    rw [staging]
    cases goes with
    | cancelled on result launch tree =>
      exact .unstarted staged _ (.inl ⟨rfl, on⟩) written (by rw [runStaged, result]; rfl) launch tree
    | engineless missing result launch tree =>
      exact .unstarted staged _ (.inr (.inl rfl)) written (by rw [runStaged, result]; rfl) launch tree
    | refused cause result launch tree =>
      exact .unstarted staged _ (.inr (.inr ⟨cause, rfl⟩)) written (by rw [runStaged, result]; rfl)
        launch tree
    | ran done started result launch tree =>
      refine .ran staged done _ written started launch rfl ?_ tree
      simp only [runStaged, result, tree]

inductive Goes (x : Executor) (r : ExecutionRequest) (watch : Watch) (course : Option Course)
    (suffix : String) (t : FileTree) (e : Execution) : Prop where
  | refused (entered : watch.onEntry = true) (result : e.result = .error .cancelled)
      (launch : e.launch = none) (tree : e.tree = t)
  | incomplete (entered : watch.onEntry = false) (err : RenderError)
      (lacking : r.stagedFiles = .error err) (result : e.result = .error err)
      (launch : e.launch = none) (tree : e.tree = t)
  | homeless (entered : watch.onEntry = false) (files : List (String × Bytes))
      (collected : r.stagedFiles = .ok files) (cause : IoError)
      (result : e.result = .error (.io cause)) (launch : e.launch = none)
      (tree : e.tree = (x.makeWorkDir t).1)
  | apart (entered : watch.onEntry = false) (files : List (String × Bytes))
      (collected : r.stagedFiles = .ok files) (made : FileTree) (above : Location)
      (reached : x.makeWorkDir t = (made, .ok above)) (inner : Execution)
      (ran : x.Runs r watch course (x.staging suffix above) files
        (made.put (x.staging suffix above).location .directory) inner)
      (result : e.result = inner.result) (launch : e.launch = inner.launch)
      (tree : e.tree = inner.tree.prune (x.staging suffix above).location)

theorem makeStaging_eq_ok {s : Staging} {t made : FileTree} (h : makeStaging s t = .ok made) :
    made = t.put s.location .directory := by
  rw [makeStaging] at h
  split at h
  · cases h
  · cases h
    rfl

theorem goes (x : Executor) (r : ExecutionRequest) (watch : Watch) (engine : Machine)
    (suffix : String) (t : FileTree) :
    x.Goes r watch (engine x.timeout) suffix t (x.execute r watch engine suffix t) := by
  suffices h : x.Goes r watch (engine x.timeout) suffix t
      (x.attempt r watch (engine x.timeout) suffix t) by
    cases h with
    | refused entered result launch tree => exact .refused entered result launch tree
    | incomplete entered err lacking result launch tree =>
      exact .incomplete entered err lacking result launch tree
    | homeless entered files collected cause result launch tree =>
      exact .homeless entered files collected cause result launch tree
    | apart entered files collected made above reached inner ran result launch tree =>
      exact .apart entered files collected made above reached inner ran result launch tree
  cases entered : watch.onEntry with
  | true => apply Goes.refused entered <;> simp [attempt, entered]
  | false =>
    cases collected : r.stagedFiles with
    | error err => apply Goes.incomplete entered err collected <;> simp [attempt, entered, collected]
    | ok files =>
      have attempted : x.attempt r watch (engine x.timeout) suffix t =
          x.runApart r watch (engine x.timeout) suffix files t := by
        simp [attempt, entered, collected]
      rw [attempted]
      cases reached : x.makeWorkDir t with | mk made dir =>
      cases dir with
      | error cause =>
        apply Goes.homeless entered files collected cause <;> simp [runApart, reached]
      | ok above =>
        cases fresh : makeStaging (x.staging suffix above) made with
        | error cause =>
          apply Goes.homeless entered files collected cause <;> simp [runApart, reached, fresh]
        | ok empty =>
          obtain rfl := makeStaging_eq_ok fresh
          refine .apart entered files collected made above reached _
            (x.runs r watch (engine x.timeout) (x.staging suffix above) files _) ?_ ?_ ?_ <;>
              simp [runApart, reached, fresh]

inductive Ends (r : ExecutionRequest) (watch : Watch) (s : Staging) (left : FileTree)
    (completion : Completion) (result : Except RenderError Output) : Prop where
  | delivered (success : completion = .exited (some 0)) (quiet : watch.afterExit = false)
      (output : Output) (collected : collect r s left = .ok output) (same : result = .ok output)
  | lost (success : completion = .exited (some 0)) (quiet : watch.afterExit = false)
      (err : RenderError) (why : (∃ path, err = .fileNotFound path) ∨ ∃ cause, err = .io cause)
      (same : result = .error err)
  | overtaken (success : completion = .exited (some 0)) (on : watch.afterExit = true)
      (same : result = .error .cancelled)
  | failed (code : Option Int) (unsuccessful : code ≠ some 0) (exited : completion = .exited code)
      (text : String) (report : Option String)
      (same : result = .error (.engineFailed text report code))
  | cancelled (stopped : completion = .cancelled) (same : result = .error .cancelled)
  | late (seconds : Nat) (stopped : completion = .deadline seconds)
      (same : result = .error (.timeout seconds))

theorem Ends.of_ok {r : ExecutionRequest} {watch : Watch} {s : Staging} {left : FileTree}
    {completion : Completion} {output : Output} (h : Ends r watch s left completion (.ok output)) :
    completion = .exited (some 0) ∧ watch.afterExit = false ∧ collect r s left = .ok output := by
  cases h with
  | delivered success quiet output collected same =>
    cases same
    exact ⟨success, quiet, collected⟩
  | lost _ _ _ _ other => cases other
  | overtaken _ _ other => cases other
  | failed _ _ _ _ _ other => cases other
  | cancelled _ other => cases other
  | late _ _ other => cases other

theorem collect_error {r : ExecutionRequest} {s : Staging} {t : FileTree} {err : RenderError}
    (h : collect r s t = .error err) :
    (∃ path, err = .fileNotFound path) ∨ ∃ cause, err = .io cause := by
  rw [collect] at h
  split at h
  · cases h
  · cases h
    exact .inl ⟨_, rfl⟩
  · cases h
    exact .inr ⟨_, rfl⟩

theorem ends (r : ExecutionRequest) (watch : Watch) (s : Staging) (left : FileTree)
    (lines : List String) (completion : Completion) : Ends r watch s left completion (do
      Run.resultOf lines completion
      if watch.afterExit then throw .cancelled
      collect r s left) := by
  cases completion with
  | cancelled => exact .cancelled rfl rfl
  | deadline seconds => exact .late seconds rfl rfl
  | exited code =>
    by_cases success : code = some 0
    · subst success
      have passed : Run.resultOf lines (.exited (some 0)) = .ok () := rfl
      rw [passed]
      cases on : watch.afterExit with
      | true => exact .overtaken rfl on rfl
      | false =>
        cases collected : collect r s left with
        | ok output => exact .delivered rfl on output collected rfl
        | error err => exact .lost rfl on err (collect_error collected) rfl
    · have stopped : Run.resultOf lines (.exited code) =
          .error (.engineFailed "FFmpeg exited with non-zero status" (Report.tail? lines) code) :=
        if_neg success
      rw [stopped]
      exact .failed code success rfl _ _ rfl

structure IsStarted (x : Executor) (r : ExecutionRequest) (watch : Watch) (engine : Machine)
    (suffix : String) (t : FileTree) (launch : Launch) (files : List (String × Bytes))
    (made staged : FileTree) (s : Staging) (course : Course) : Prop where
  collected : r.stagedFiles = .ok files
  dir : ∃ above, x.makeWorkDir t = (made, .ok above) ∧ s = x.staging suffix above
  written : stageFiles s.route files (made.put s.location .directory) = .ok staged
  started : engine x.timeout = some course
  launch : launch.staged = staged.below s.location
  result : (x.execute r watch engine suffix t).result = do
    Run.resultOf (Report.lines course.report) course.completion
    if watch.afterExit then throw .cancelled
    collect r s (staged.within s.location course.work)

theorem IsStarted.ends {x : Executor} {r : ExecutionRequest} {watch : Watch} {engine : Machine}
    {suffix : String} {t : FileTree} {launch : Launch} {files : List (String × Bytes)}
    {made staged : FileTree} {s : Staging} {course : Course}
    (h : x.IsStarted r watch engine suffix t launch files made staged s course) :
    Ends r watch s (staged.within s.location course.work) course.completion
      (x.execute r watch engine suffix t).result := by
  rw [h.result]
  exact Executor.ends r watch s _ (Report.lines course.report) course.completion

theorem exists_isStarted_of_launch {x : Executor} {r : ExecutionRequest} {watch : Watch}
    {engine : Machine} {suffix : String} {t : FileTree} {launch : Launch}
    (h : (x.execute r watch engine suffix t).launch = some launch) :
    ∃ files made staged s course,
      x.IsStarted r watch engine suffix t launch files made staged s course := by
  cases x.goes r watch engine suffix t with
  | refused _ _ unstarted => cases unstarted.symm.trans h
  | incomplete _ _ _ _ unstarted => cases unstarted.symm.trans h
  | homeless _ _ _ _ _ unstarted => cases unstarted.symm.trans h
  | apart _ files collected made above reached inner ran result same =>
    rw [same] at h
    cases ran with
    | unstaged _ _ unstarted => cases unstarted.symm.trans h
    | unstarted _ _ _ _ _ unstarted => cases unstarted.symm.trans h
    | ran staged done launch written started launched found ended =>
      cases launched.symm.trans h
      exact ⟨files, made, staged, x.staging suffix above, done, collected, ⟨above, reached, rfl⟩,
        written, started, found, result.trans ended⟩

variable {x : Executor} {r : ExecutionRequest} {watch : Watch} {course : Option Course}
  {suffix : String} {t : FileTree} {e : Execution} {err : RenderError}

theorem Goes.result_of_entered (h : x.Goes r watch course suffix t e)
    (entered : watch.onEntry = true) : e.result = .error .cancelled := by
  cases h with
  | refused _ result => exact result
  | incomplete off => cases entered.symm.trans off
  | homeless off => cases entered.symm.trans off
  | apart off => cases entered.symm.trans off

theorem Goes.result_of_lacking (h : x.Goes r watch course suffix t e)
    (entered : watch.onEntry = false) (lacking : r.stagedFiles = .error err) :
    e.result = .error err := by
  cases h with
  | refused on => cases entered.symm.trans on
  | incomplete _ _ same result =>
    cases lacking.symm.trans same
    exact result
  | homeless _ _ collected => cases lacking.symm.trans collected
  | apart _ _ collected => cases lacking.symm.trans collected

theorem Goes.result_of_unstarted (h : x.Goes r watch course suffix t e)
    (unstarted : e.launch = none) : ∃ err, e.result = .error err ∧
      (err = .cancelled ∧ watch.beforeStart = true ∨
        watch.onEntry = false ∧ r.stagedFiles = .error err ∨
        err = .engineNotFound ∨ ∃ cause, err = .io cause) := by
  cases h with
  | refused entered result => exact ⟨_, result, .inl ⟨rfl, watch.start_of_entry entered⟩⟩
  | incomplete entered err lacking result => exact ⟨err, result, .inr (.inl ⟨entered, lacking⟩)⟩
  | homeless _ _ _ cause result => exact ⟨_, result, .inr (.inr (.inr ⟨cause, rfl⟩))⟩
  | apart _ _ _ _ _ _ inner ran result launch =>
    rw [result]
    cases ran with
    | unstaged cause ended => exact ⟨_, ended, .inr (.inr (.inr ⟨cause, rfl⟩))⟩
    | unstarted _ err why _ ended =>
      refine ⟨err, ended, ?_⟩
      rcases why with stopped | missing | refused
      · exact .inl stopped
      · exact .inr (.inr (.inl missing))
      · exact .inr (.inr (.inr refused))
    | ran _ _ _ _ _ launched => cases unstarted.symm.trans (launch.trans launched)

inductive Fails (r : ExecutionRequest) (watch : Watch) (course : Option Course) : RenderError → Prop
  | cancelled (why : watch.afterExit = true ∨
      ∃ done, course = some done ∧ done.completion = .cancelled) : Fails r watch course .cancelled
  | lacking (entered : watch.onEntry = false) (i : ImageInput) (found : r.missing? = some i) :
      Fails r watch course (.missingAsset i.overlay.id)
  | engineNotFound : Fails r watch course .engineNotFound
  | engineFailed (text : String) (report : Option String) (code : Option Int) :
      Fails r watch course (.engineFailed text report code)
  | fileNotFound (path : String) : Fails r watch course (.fileNotFound path)
  | io (cause : IoError) : Fails r watch course (.io cause)
  | timeout (done : Course) (started : course = some done) (seconds : Nat)
      (stopped : done.completion = .deadline seconds) : Fails r watch course (.timeout seconds)

theorem fails (x : Executor) {engine : Machine}
    (h : (x.execute r watch engine suffix t).result = .error err) :
    Fails r watch (engine x.timeout) err := by
  have goes := x.goes r watch engine suffix t
  cases launched : (x.execute r watch engine suffix t).launch with
  | none =>
    obtain ⟨err, failed, why⟩ := goes.result_of_unstarted launched
    cases h.symm.trans failed
    rcases why with ⟨rfl, on⟩ | ⟨entered, lacking⟩ | rfl | ⟨cause, rfl⟩
    · exact .cancelled (.inl (watch.exit_of_start on))
    · obtain ⟨i, found, rfl⟩ := ExecutionRequest.stagedFiles_eq_error_iff.1 lacking
      exact .lacking entered i found
    · exact .engineNotFound
    · exact .io cause
  | some launch =>
    obtain ⟨files, made, staged, s, done, started⟩ := exists_isStarted_of_launch launched
    have ended := started.ends
    rw [h] at ended
    cases ended with
    | delivered _ _ _ _ same => cases same
    | lost _ _ err why same =>
      cases same
      rcases why with ⟨path, rfl⟩ | ⟨cause, rfl⟩
      · exact .fileNotFound path
      · exact .io cause
    | overtaken _ on same =>
      cases same
      exact .cancelled (.inl on)
    | failed code _ _ text report same =>
      cases same
      exact .engineFailed text report code
    | cancelled stopped same =>
      cases same
      exact .cancelled (.inr ⟨done, started.started, stopped⟩)
    | late seconds stopped same =>
      cases same
      exact .timeout done started.started seconds stopped

end Executor
end Montage
