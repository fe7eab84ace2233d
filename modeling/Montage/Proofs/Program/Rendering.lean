import Montage.Program.Basic
import Montage.Proofs.Job.Config
import Montage.Proofs.Job.Recurrence
import Montage.Proofs.Render.Outcome
import Montage.Proofs.Render.Restoration
import Montage.Proofs.Store.Value

/-! Rendering as a program. Nothing is written before there is an output, apart from the working
directory, and an output is saved as the engine has written it. -/
namespace Montage.Program

inductive Tries (s : Surroundings) (c : Config) (spec : String) (a : Attempt) : Prop where
  | stopped (f : Failure) (result : a.result = .error f) (tree : a.tree = s.tree)
  | executed (e : Edit) (read : readEdit s spec = .ok e) (request : ExecutionRequest)
      (assembled : (e.assemble c.assemblyOptions).value = .ok request.command)
      (loaded : (store s c).load s.tree e.source.asset = .ok request.source) (done : Execution)
      (executes : (executor s c).execute request s.watch s.engine s.suffix s.tree = done)
      (result : a.result = done.result.mapError fun err => ⟨err.diagnostic, []⟩)
      (tree : a.tree = done.tree) (launch : a.launch = done.launch)

variable {s : Surroundings} {c : Config} {spec : String} {out : Option String} {output : Output}
  {t : FileTree} {launch : Option Launch}

theorem tries (s : Surroundings) (c : Config) (spec : String) : Tries s c spec (attempt s c spec) := by
  cases read : readEdit s spec with
  | error f => apply Tries.stopped f <;> simp only [attempt, read]
  | ok e =>
    cases called : (job s c e).call with
    | none =>
      obtain ⟨err, metrics, failure⟩ := Job.render_eq_of_call called
      have failed : (job s c e).result = .error err := by
        rw [job, failure]
        rfl
      refine .stopped ⟨err.diagnostic, []⟩ ?_ ?_
      · simp only [attempt, read, called, failed]
        rfl
      · simp only [attempt, read, called]
    | some call =>
      obtain ⟨request, done⟩ := call
      obtain ⟨command, assembled, loaded, executes⟩ := Job.call_render_eq_some_iff.1 called
      obtain ⟨source, images, found, -, rfl⟩ := Job.loadRequest_eq_ok_iff.1 loaded
      have result : (job s c e).result = done.result.mapError .render := by
        rw [← executes]
        exact Job.result_of_call called
      refine .executed e read ⟨source, images, command⟩ assembled found done executes ?_ ?_ ?_
      · simp only [attempt, read, called, result]
        cases done.result <;> rfl
      · simp only [attempt, read, called]
      · simp only [attempt, read, called]

theorem grows_attempt (vacant : (executor s c).IsVacant s.suffix s.tree) :
    s.tree.Grows (attempt s c spec).tree (executor s c).workDir.route.ancestors := by
  cases tries s c spec with
  | stopped _ _ tree =>
    rw [tree]
    exact .refl s.tree _
  | executed _ _ request _ _ done executes _ tree =>
    rw [tree, ← executes]
    exact ((executor s c).goes request s.watch s.engine s.suffix s.tree).grows vacant

def outputWays (s : Surroundings) (path : String) : List Route :=
  match Path.parent? path.toList with
  | none | some [] => []
  | some parent =>
    match Route.parse s.here (String.ofList parent) with
    | .ok route => route.ancestors
    | .error _ => []

theorem grows_makeParent (s : Surroundings) (t : FileTree) (path : String) :
    t.Grows (makeParent s t path).1 (outputWays s path) := by
  simp only [makeParent, outputWays]
  cases Path.parent? path.toList with
  | none => exact .refl t _
  | some parent =>
    cases parent with
    | nil => exact .refl t _
    | cons first rest =>
      dsimp only
      cases Route.parse s.here (String.ofList (first :: rest)) with
      | error e => exact .refl t _
      | ok route => exact t.grows_makeAll route.ancestors

theorem writeOutput_eq_ok {path : String} {bytes : Bytes} {written : FileTree}
    (h : writeOutput s t path bytes = .ok written) : ∃ place,
      t.lookup place ≠ some .directory ∧ written = t.put place (.file bytes) ∧
        readFile { s with tree := written } path = .ok bytes := by
  simp only [writeOutput, mapError_eq_ok_iff] at h
  cases parsed : Route.parse s.here path with
  | error e =>
    rw [parsed] at h
    cases h
  | ok route =>
    rw [parsed] at h
    obtain ⟨place, clear, rfl, read⟩ := FileTree.write_eq_ok h
    refine ⟨place, clear, rfl, ?_⟩
    rw [readFile, parsed]
    exact read

/-- An output that is saved stands in one place, and no other place has changed, but for directories
on the way. -/
theorem saveOutput_of_exitCode (success : (saveOutput s out output t launch).exitCode = 0) :
    let path := out.getD output.fileName
    let d := saveOutput s out output t launch
    ∃ made place, t.Grows made (outputWays s path) ∧ made.lookup place ≠ some .directory ∧
      d.tree = made.put place (.file output.bytes) ∧
      readFile { s with tree := d.tree } path = .ok output.bytes ∧ d.launch = launch := by
  intro path d
  have grows := grows_makeParent s t path
  have finished : ∀ f made, d ≠ fail f made launch := by
    intro f made failed
    have zero : (fail f made launch).exitCode = 0 := failed ▸ success
    cases zero
  cases parent : makeParent s t path with | mk made result =>
  rw [parent] at grows
  cases result with
  | error f => exact absurd (by simp only [d, saveOutput, path, parent]) (finished f made)
  | ok =>
    cases saved : writeOutput s made path output.bytes with
    | error f => exact absurd (by simp only [d, saveOutput, path, parent, saved]) (finished f made)
    | ok written =>
      obtain ⟨place, clear, rfl, read⟩ := writeOutput_eq_ok saved
      have tree : d.tree = made.put place (.file output.bytes) := by
        simp only [d, saveOutput, path, parent, saved]
      have launched : d.launch = launch := by
        simp only [d, saveOutput, path, parent, saved]
      rw [tree]
      exact ⟨made, place, grows, clear, rfl, read, launched⟩

structure Saved (s : Surroundings) (c : Config) (spec : String) (out : Option String)
    (command : EditCommand) (launch : Launch) (course : Course) (bytes : Bytes)
    (root place : Location) (d : Departure) : Prop where
  assembled : ∃ e, readEdit s spec = .ok e ∧ (e.assemble c.assemblyOptions).value = .ok command
  launched : d.launch = some launch
  started : s.engine c.timeout = some course
  success : course.completion = .exited (some 0)
  /-- The output is new in the directory of the engine. -/
  absent : launch.staged.lookup [command.output] = none
  made : (course.work launch.staged).lookup [command.output] = some (.file bytes)
  saved : readFile { s with tree := d.tree } (out.getD command.output) = .ok bytes
  there : d.tree.lookup place = some (.file bytes)
  elsewhere : ∀ q, q ≠ place → d.tree.lookup q = s.tree.lookup q ∨
    s.tree.lookup q = none ∧ d.tree.lookup q = some .directory ∧
      ∃ way ∈ (executor s c).workDir.route.ancestors ++ outputWays s (out.getD command.output),
        d.tree.Leads way q
  assets : s.tree.Leads (store s c).root root
  stored : ¬root <+: place → ∀ id bytes,
    (store s c).load d.tree id = .ok bytes ↔ (store s c).load s.tree id = .ok bytes

section
variable {grown after : FileTree} {ways : List Route} {place : Location} {bytes : Bytes}

/-- After a file is put into a tree with new directories, any other place is as before or is one of
them. -/
theorem lookup_elsewhere (grows : t.Grows grown ways) (clear : grown.lookup place ≠ some .directory)
    {q : Location} (other : q ≠ place) :
    let after := grown.put place (.file bytes)
    after.lookup q = t.lookup q ∨ t.lookup q = none ∧ after.lookup q = some .directory ∧
      ∃ way ∈ ways, after.Leads way q := by
  intro after
  rw [FileTree.lookup_put_of_ne other]
  rcases grows q with same | ⟨missing, made, way, among, leads⟩
  · exact .inl same
  · exact .inr ⟨missing, made, way, among, leads.put clear⟩

/-- A file beside a store does not concern it, nor do new directories. -/
theorem load_elsewhere {store : LocalStore} {root : Location} (leads : t.Leads store.root root)
    (grows : t.Grows grown ways) (clear : grown.lookup place ≠ some .directory)
    (outside : ¬root <+: place) (id : AssetId) (old : Bytes) :
    store.load (grown.put place (.file bytes)) id = .ok old ↔ store.load t id = .ok old := by
  have apart : root ++ [id] ≠ place := fun same => outside ⟨[id], same⟩
  have further : (grown.put place (.file bytes)).Leads store.root root :=
    (leads.of_directories fun q => grows.lookup_of_some).put clear
  have loads {tree : FileTree} (leads : tree.Leads store.root root) :
      store.load tree id = LocalStore.found id (some old) ↔ Store.checkKey id = .ok id ∧
        store.root.Admits id ∧ tree.lookup (root ++ [id]) = some (.file old) :=
    LocalStore.load_eq_found_iff leads
  change _ = LocalStore.found id (some old) ↔ _ = LocalStore.found id (some old)
  rw [loads further, loads leads, FileTree.lookup_put_of_ne apart, grows.lookup_eq_file_iff]

end

/-- A render that succeeds has an output, and goes on to save it. -/
theorem exists_output_of_exitCode (success : (render s c spec out).exitCode = 0) :
    ∃ e request output, readEdit s spec = .ok e ∧
      (e.assemble c.assemblyOptions).value = .ok request.command ∧
      (store s c).load s.tree e.source.asset = .ok request.source ∧
      let done := (executor s c).execute request s.watch s.engine s.suffix s.tree
      done.result = .ok output ∧
        render s c spec out = saveOutput s out output done.tree done.launch := by
  cases tries s c spec with
  | stopped f result tree =>
    simp only [render, result] at success
    cases success
  | executed e read request assembled loaded done executes result tree launched =>
    cases ended : done.result with
    | error err =>
      rw [ended] at result
      simp only [render, result, Except.mapError] at success
      cases success
    | ok output =>
      rw [ended] at result
      refine ⟨e, request, output, read, assembled, loaded, by rw [executes, ended], ?_⟩
      simp only [render, result, Except.mapError, tree, launched, executes]

theorem saved_of_exitCode (valid : c.validate = .ok ())
    (vacant : (executor s c).IsVacant s.suffix s.tree)
    (success : (render s c spec out).exitCode = 0) : ∃ command launch course bytes root place,
      Saved s c spec out command launch course bytes root place (render s c spec out) := by
  obtain ⟨-, slash, -, -⟩ := Config.validate_eq_ok_iff.1 valid
  obtain ⟨e, request, output, read, assembled, loaded, ended, whole⟩ :=
    exists_output_of_exitCode success
  rw [whole] at success ⊢
  have command := e.isCommand_of_assemble assembled
  obtain ⟨distinct, apart⟩ := command.names_apart
  have single := command.isName_of_mem_names slash request.command.output (by simp)
  obtain ⟨launch, files, _, staged, dir, course, launches, started, ends, -, collected⟩ :=
    Executor.exists_isStarted_of_ok ended
  obtain ⟨left, -, named⟩ := Executor.collect_eq_ok_iff.1 collected
  obtain ⟨grown, place, grows, clear, after, found, launched⟩ := saveOutput_of_exitCode success
  have executed := ((executor s c).goes request s.watch s.engine s.suffix s.tree).grows vacant
  have all := executed.trans grows
  obtain ⟨root, leads⟩ := LocalStore.leads_of_load loaded
  rw [named] at all found
  refine ⟨request.command, launch, course, output.bytes, root, place, ?_⟩
  constructor
  case assembled => exact ⟨e, read, assembled⟩
  case launched => rw [launched, launches]
  case started => exact started.started
  case success => exact ends
  case absent => exact started.output_absent vacant.isFresh distinct apart
  case made => exact started.held left single
  case saved => exact found
  case there =>
    rw [after]
    exact FileTree.lookup_put_self (FileTree.ne_nil_of_lookup clear)
  case elsewhere =>
    intro q other
    rw [after]
    exact lookup_elsewhere all clear other
  case assets => exact leads
  case stored =>
    intro outside id old
    rw [after]
    exact load_elsewhere leads all clear outside id old

/-- A render that fails before it has an output leaves everything as it was, except for the working
directory. One that succeeds has saved what the engine has made, and has left the store alone. -/
theorem renders_all_or_nothing (s : Surroundings) (args : List String) (spec : String)
    (out : Option String) (asked : Arguments.read args = .ok (.render spec out))
    (vacant : (executor s (config s)).IsVacant s.suffix s.tree) :
    let c := config s
    let d := run s args
    (∀ err, c.validate = .error err → d.exitCode = 1 ∧ d.tree = s.tree) ∧
    (∀ f, c.validate = .ok () → (attempt s c spec).result = .error f → d.exitCode = 1 ∧
      s.tree.Grows d.tree (executor s c).workDir.route.ancestors) ∧
    (d.exitCode = 0 → ∃ command launch course bytes root place,
      Saved s c spec out command launch course bytes root place d) := by
  intro c d
  have refused : ∀ err, c.validate = .error err → d = fail (Failure.ofJob err) s.tree none := by
    intro err invalid
    simp only [d, run, asked, c, invalid]
  have passed : c.validate = .ok () → d = render s c spec out := by
    intro valid
    simp only [d, run, asked, c, valid, perform]
  refine ⟨?_, ?_, ?_⟩
  · intro err invalid
    rw [refused err invalid]
    exact ⟨rfl, rfl⟩
  · intro f valid failed
    have grows : s.tree.Grows (attempt s c spec).tree (executor s c).workDir.route.ancestors :=
      grows_attempt vacant
    rw [passed valid]
    simp only [render, failed]
    exact ⟨rfl, grows⟩
  · intro success
    cases valid : c.validate with
    | error err =>
      rw [refused err valid] at success
      cases success
    | ok =>
      rw [passed valid] at success ⊢
      exact saved_of_exitCode valid vacant success

/-- An edit, and the store with its source. The working directory is to be chosen. -/
def sample (workDir : String) : Surroundings where
  environment := [("VEDIT_WORK_DIR", workDir), ("VEDIT_ASSET_DIR", "a")]
  tree := ⟨[(["e.json"], .file (Bytes.ofText ("\x7b\"trim\":\x7b\"start\":0,\"end\":5\x7d," ++
      "\"source\":\x7b\"asset_id\":\"src\",\"file_name\":\"clip.mp4\"\x7d\x7d"))),
    (["a"], .directory), (["a", "src"], .file [1])]⟩
  here := []
  engine := fun _ => some ⟨[], fun dir => dir.put ["clip1.mp4"] (.file [7]), .exited (some 0)⟩
  suffix := "x"

theorem sample_is_saved : ∃ command launch course bytes root place,
    Saved (sample "w") (config (sample "w")) "e.json" (some "o.mp4") command launch course bytes root
      place (run (sample "w") ["render", "--spec", "e.json", "--out", "o.mp4"]) := by
  have dir : (executor (sample "w") (config (sample "w"))).makeWorkDir (sample "w").tree =
      ((sample "w").tree.put ["w"] .directory, .ok ["w"]) := by
    decide +kernel
  have vacant : (executor (sample "w") (config (sample "w"))).IsVacant "x" (sample "w").tree := by
    intro made above reached q
    cases dir.symm.trans reached
    simp [Executor.staging, sample, FileTree.put, FileTree.lookup, List.lookup_cons]
  have rendered := renders_all_or_nothing (sample "w") ["render", "--spec", "e.json", "--out", "o.mp4"]
    "e.json" (some "o.mp4") (by decide +kernel) vacant
  exact rendered.2.2 (by decide +kernel)

/-- A working directory within the store is made there, and seems to be an asset from then on. So does
a directory that the path of the output only passes. -/
theorem new_directories_show_in_store :
    let s := sample "a/w"
    let d := run s ["render", "--spec", "e.json", "--out", "o.mp4"]
    let s' := sample "w"
    let d' := run s' ["render", "--spec", "e.json", "--out", "a/n/../../o.mp4"]
    (d.exitCode = 0 ∧ d.tree.lookup ["o.mp4"] = some (.file [7]) ∧
      (store s (config s)).root = .ofPath [] "a" ∧ d.tree.lookup ["a", "w"] = some .directory ∧
      (store s (config s)).contains s.tree "w" = .ok false ∧
      (store s (config s)).contains d.tree "w" = .ok true) ∧
    d'.exitCode = 0 ∧ d'.tree.lookup ["o.mp4"] = some (.file [7]) ∧
      (store s' (config s')).contains s'.tree "n" = .ok false ∧
      (store s' (config s')).contains d'.tree "n" = .ok true := by
  constructor <;> decide +kernel

end Montage.Program
