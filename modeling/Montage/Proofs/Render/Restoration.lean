import Montage.Proofs.Render.Isolation

/-! What an execution needs and what it leaves behind. Its engine finds the inputs of the request and
nothing else, and afterwards everything is where it was, apart from the working directory. -/
namespace Montage

/-- Nothing stands yet where an executor makes the directory of a run, nor below. -/
def Executor.IsVacant (x : Executor) (suffix : String) (t : FileTree) : Prop :=
  ∀ made above, x.makeWorkDir t = (made, .ok above) →
    ∀ q, made.lookup ((x.staging suffix above).location ++ q) = none

theorem Executor.IsVacant.isFresh {x : Executor} {suffix : String} {t : FileTree}
    (h : x.IsVacant suffix t) : x.IsFresh suffix t :=
  fun made above reached q _ => h made above reached q

namespace ExecutionRequest

/-- A directory holds the source and the first bytes for each image overlay, and nothing else. -/
def IsStagedIn (r : ExecutionRequest) (dir : FileTree) : Prop :=
  ∃ images, List.Forall₂ (fun i file => file.1 = i.fileName ∧
      r.images.lookup i.overlay.id = some file.2) r.command.images images ∧
    dir.HoldsJust ((r.command.source, r.source) :: images)

variable {r : ExecutionRequest}

theorem isStagedIn_of_stageFiles {s : Staging} {files : List (String × Bytes)} {t staged : FileTree}
    (collected : r.stagedFiles = .ok files)
    (distinct : (r.command.source :: r.command.images.map (·.fileName)).Nodup)
    (empty : s.IsEmptyIn t) (written : Executor.stageFiles s.route files t = .ok staged) :
    r.IsStagedIn (staged.below s.location) := by
  have names := map_fst_of_stagedFiles collected
  obtain ⟨images, each, rfl⟩ := stagedFiles_eq_ok_iff.1 collected
  have pairs := (stagedImages_eq_ok_iff.1 each).imp fun i file => stagedImage_eq_ok_iff.1
  exact ⟨images, pairs, Executor.holdsJust_of_stageFiles written (names ▸ distinct) empty⟩

end ExecutionRequest

namespace Executor

variable {x : Executor} {r : ExecutionRequest} {watch : Watch} {course : Option Course}
  {suffix : String} {t : FileTree} {e : Execution}

theorem fst_makeWorkDir (x : Executor) (t : FileTree) :
    (x.makeWorkDir t).1 = (t.makeDirectories x.workDir.route).1 := by
  rw [makeWorkDir]
  split
  · rename_i stopped
    rw [stopped]
  · rename_i reached
    rw [reached]

theorem grows_makeWorkDir (x : Executor) (t : FileTree) :
    t.Grows (x.makeWorkDir t).1 x.workDir.route.ancestors := by
  rw [fst_makeWorkDir]
  exact t.grows_makeAll x.workDir.route.ancestors

/-- Whatever the engine does, it does in its own directory. -/
theorem Runs.lookup_outside {s : Staging} {files : List (String × Bytes)}
    (h : x.Runs r watch course s files t e) {q : Location} (outside : ¬s.location <+: q) :
    e.tree.lookup q = t.lookup q := by
  cases h with
  | unstaged _ _ _ tree => rw [tree, lookup_stageSome outside]
  | unstarted staged _ _ written _ _ tree =>
    rw [tree, ← stageSome_of_stageFiles written, lookup_stageSome outside]
  | ran staged _ _ written _ _ _ _ tree =>
    rw [tree, FileTree.lookup_within_of_not_prefix outside, ← stageSome_of_stageFiles written,
      lookup_stageSome outside]

theorem Goes.grows (h : x.Goes r watch course suffix t e) (vacant : x.IsVacant suffix t) :
    t.Grows e.tree x.workDir.route.ancestors := by
  have made := x.grows_makeWorkDir t
  cases h with
  | refused _ _ _ tree => exact tree ▸ .refl t _
  | incomplete _ _ _ _ _ tree => exact tree ▸ .refl t _
  | homeless _ _ _ _ _ _ tree => rwa [tree]
  | apart _ files _ made' above reached inner ran _ _ tree =>
    rw [reached] at made
    refine made.of_lookup_eq fun q => ?_
    have below : (x.staging suffix above).location ≠ [] := by simp [staging]
    rw [tree, FileTree.lookup_prune below]
    by_cases inside : (x.staging suffix above).location <+: q
    · obtain ⟨rest, rfl⟩ := inside
      rw [if_pos (List.prefix_append _ _), vacant made' above reached rest]
    · have other : q ≠ (x.staging suffix above).location := fun same => inside (same ▸ List.prefix_refl _)
      rw [if_neg inside, ran.lookup_outside inside, FileTree.lookup_put_of_ne other]

theorem result_eq_missingAsset_iff (x : Executor) (r : ExecutionRequest) (watch : Watch)
    (engine : Machine) (suffix : String) (t : FileTree) (id : OverlayId) :
    (x.execute r watch engine suffix t).result = .error (.missingAsset id) ↔
      watch.onEntry = false ∧ ∃ i, r.missing? = some i ∧ i.overlay.id = id := by
  constructor
  · intro failed
    cases x.fails failed with
    | lacking entered i found => exact ⟨entered, i, found, rfl⟩
  · rintro ⟨entered, i, found, rfl⟩
    have lacking := ExecutionRequest.stagedFiles_eq_error_iff.2 ⟨i, found, rfl⟩
    exact (x.goes r watch engine suffix t).result_of_lacking entered lacking

theorem Goes.untouched (h : x.Goes r watch course suffix t e)
    (unready : watch.onEntry = true ∨ r.missing?.isSome) : e.tree = t ∧ e.launch = none := by
  have complete {files : List (String × Bytes)} (entered : watch.onEntry = false)
      (collected : r.stagedFiles = .ok files) : False := by
    rw [entered, ExecutionRequest.missing?_eq_none_of_stagedFiles collected] at unready
    simp at unready
  cases h with
  | refused _ _ launch tree => exact ⟨tree, launch⟩
  | incomplete _ _ _ _ launch tree => exact ⟨tree, launch⟩
  | homeless entered _ collected => exact (complete entered collected).elim
  | apart entered _ collected => exact (complete entered collected).elim

end Executor

structure Execution.Restores (done : Execution) (x : Executor) (r : ExecutionRequest)
    (watch : Watch) (t : FileTree) : Prop where
  staged : ∀ launch, done.launch = some launch → r.IsStagedIn launch.staged
  lacking : ∀ id, done.result = .error (.missingAsset id) ↔
    watch.onEntry = false ∧ ∃ i, r.missing? = some i ∧ i.overlay.id = id
  grows : t.Grows done.tree x.workDir.route.ancestors
  /-- Below the working directory nothing is new, if its path does not go up. -/
  restored : ∀ p, done.tree.Leads x.workDir.route p → .up ∉ x.workDir.route.steps →
    ∀ q, q ≠ [] → done.tree.lookup (p ++ q) = t.lookup (p ++ q)
  untouched : watch.onEntry = true ∨ r.missing?.isSome → done.tree = t ∧ done.launch = none

theorem executions_leave_nothing_behind (e : Edit) (o : AssemblyOptions) (c : EditCommand)
    (assembled : (e.assemble o).value = .ok c) (r : ExecutionRequest) (same : r.command = c)
    (x : Executor) (watch : Watch) (engine : Machine) (suffix : String) (t : FileTree)
    (vacant : x.IsVacant suffix t) : (x.execute r watch engine suffix t).Restores x r watch t := by
  subst same
  have goes := x.goes r watch engine suffix t
  have distinct : (r.command.source :: r.command.images.map (·.fileName)).Nodup := by
    have command := e.isCommand_of_assemble assembled
    rw [command.fileNames]
    exact (List.nodup_append.1 command.nodup_names).1
  constructor
  case lacking => exact x.result_eq_missingAsset_iff r watch engine suffix t
  case grows => exact goes.grows vacant
  case untouched => exact goes.untouched
  case restored =>
    exact fun p leads straight q nonempty =>
      (goes.grows vacant).lookup_below leads straight nonempty
  intro launch launched
  obtain ⟨files, made, staged, s, course, started⟩ := Executor.exists_isStarted_of_launch launched
  obtain ⟨above, dir, rfl⟩ := started.dir
  rw [started.launch]
  exact ExecutionRequest.isStagedIn_of_stageFiles started.collected distinct
    (Executor.isEmptyIn_put (vacant.isFresh made above dir)) started.written

theorem isVacant_temporary : Executor.temporary.IsVacant "x" FileTree.temporary := by
  have dir : Executor.temporary.makeWorkDir FileTree.temporary =
      (FileTree.temporary, .ok ["tmp"]) := by
    decide +kernel
  intro made above reached q
  cases dir.symm.trans reached
  simp [Executor.staging, FileTree.temporary, FileTree.lookup, List.lookup_cons]

/-- The engine finds the source and the photo, and all is as before when it is done. -/
theorem untitled_run_leaves_nothing : ∃ c launch, (Edit.untitled.assemble {}).value = .ok c ∧
    (Executor.temporary.execute c.photoRequest .never .idle "x" .temporary).launch = some launch ∧
    c.photoRequest.IsStagedIn launch.staged ∧
    FileTree.temporary.Grows (Executor.temporary.execute c.photoRequest .never .idle "x"
      .temporary).tree Executor.temporary.workDir.route.ancestors := by
  obtain ⟨c, assembled⟩ : ∃ c, (Edit.untitled.assemble {}).value = .ok c :=
    exists_eq_ok_of_isSome (by decide +kernel)
  have launches : (Edit.untitled.assemble {}).value.toOption.map (fun c =>
      (Executor.temporary.execute c.photoRequest .never .idle "x" .temporary).launch.isSome) =
      some true := by
    decide +kernel
  rw [assembled] at launches
  obtain ⟨launch, launched⟩ := Option.isSome_iff_exists.1 (Option.some.inj launches)
  have restores := executions_leave_nothing_behind Edit.untitled {} c assembled c.photoRequest rfl
    .temporary .never .idle "x" .temporary isVacant_temporary
  exact ⟨c, launch, assembled, launched, restores.staged launch launched, restores.grows⟩

end Montage
