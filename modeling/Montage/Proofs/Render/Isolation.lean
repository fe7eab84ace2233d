import Montage.Proofs.Command.Shape
import Montage.Proofs.Render.Attempt

/-! The files of a run keep apart. Source, images and output have different names, each of them a
single one, so that every input is found as it was staged, and what is read back as the output was
made by the engine. -/
namespace Montage

structure FileTree.HoldsJust (t : FileTree) (files : List (String × Bytes)) : Prop where
  held : ∀ name bytes, (name, bytes) ∈ files → t.lookup [name] = some (.file bytes)
  nothing : ∀ q, q ≠ [] → (∀ name ∈ files.map Prod.fst, q ≠ [name]) → t.lookup q = none

def Staging.IsEmptyIn (s : Staging) (t : FileTree) : Prop :=
  ∀ q, q ≠ [] → t.lookup (s.location ++ q) = none

/-- Nothing stands yet where an executor stages the files of a run. -/
def Executor.IsFresh (x : Executor) (suffix : String) (t : FileTree) : Prop :=
  ∀ made above, x.makeWorkDir t = (made, .ok above) →
    (x.staging suffix above).IsEmptyIn made

def Course.Creates (c : Course) (dir : FileTree) (name : String) : Prop :=
  dir.lookup [name] = none ∧ (c.work dir).lookup [name] ≠ none

namespace ExecutionRequest

def StagesJust (r : ExecutionRequest) (names : List String) : Prop :=
  ∀ files, r.stagedFiles = .ok files → files.map Prod.fst = names ∧
    ∀ (s : Staging) t, s.IsEmptyIn t →
      ((∀ name ∈ names, FileTree.Fits s.path name) →
        ∃ staged, Executor.stageFiles s.route files t = .ok staged) ∧
      ∀ staged, Executor.stageFiles s.route files t = .ok staged →
        (staged.below s.location).HoldsJust files

/-- An engine that ends well without making the output leaves nothing that is taken for it. -/
def MissesOutput (r : ExecutionRequest) : Prop :=
  ∀ (x : Executor) (watch : Watch) (engine : Machine) suffix t launch course, x.IsFresh suffix t →
    watch.afterExit = false → engine x.timeout = some course →
    course.completion = .exited (some 0) →
    (x.execute r watch engine suffix t).launch = some launch →
    ¬course.Creates launch.staged r.command.output →
    ∃ err, (x.execute r watch engine suffix t).result = .error err ∧
      (FileTree.Fits (x.workDir.pathOf (Executor.stagingName suffix)) r.command.output →
        err = .fileNotFound (String.ofList (Path.join
          (x.workDir.pathOf (Executor.stagingName suffix)).toList r.command.output.toList)))

end ExecutionRequest

theorem isName_of_mem_imageNames {n : Nat} {name : String} (h : name ∈ imageNames n) :
    Path.IsName name.toList := by
  have first := head?_of_mem_imageNames h
  obtain ⟨k, -, rfl⟩ := List.mem_map.1 h
  refine ⟨?_, ?_, ?_, ?_⟩
  · rintro empty
    simp [empty] at first
  · simp only [String.toList_append, Numeral.text, String.toList_ofList, List.mem_append, not_or]
    have digits : '/' ∉ Numeral.digits k := by
      intro found
      exact absurd ((Numeral.isDigits_digits k).2 _ found) (by decide)
    exact ⟨⟨by decide, digits⟩, by decide⟩
  · rintro here
    simp [here] at first
  · rintro above
    simp [above] at first

theorem getLast?_of_mem_imageNames {n : Nat} {name : String} (h : name ∈ imageNames n) :
    name.toList.getLast? = some 'g' := by
  obtain ⟨k, -, rfl⟩ := List.mem_map.1 h
  rw [String.toList_append, List.getLast?_append_of_ne_nil _ (by decide)]
  rfl

theorem imageStem_prefix_of_mem_imageNames {n : Nat} {name : String} (h : name ∈ imageNames n) :
    Naming.imageStem <+: name.toList := by
  obtain ⟨k, -, rfl⟩ := List.mem_map.1 h
  rw [String.append_assoc, String.toList_append]
  exact List.prefix_append _ _

namespace Edit.IsCommand

variable {e : Edit} {o : AssemblyOptions} {c : EditCommand}

theorem nodup_names (h : e.IsCommand o c) :
    (c.source :: imageNames e.images.length ++ [c.output]).Nodup := by
  have images : (imageNames e.images.length).Nodup := by
    rw [← ImageInput.map_fileName_ofOverlays]
    exact ImageInput.nodup_fileNames e.images
  have reserved := h.isSourceName.reserved
  have source : c.source ∉ imageNames e.images.length := by
    intro among
    rw [List.isPrefixOf_iff_prefix.2 (imageStem_prefix_of_mem_imageNames among)] at reserved
    cases reserved
  have output : c.output ∉ imageNames e.images.length := by
    intro among
    have last := getLast?_of_mem_imageNames among
    rw [h.toList_output, Naming.getLast?_outputChars] at last
    exact e.format.getLast?_extension last
  rw [List.cons_append, List.nodup_cons, List.mem_append, List.mem_singleton, not_or,
    List.nodup_append]
  refine ⟨⟨source, h.apart.symm⟩, images, List.nodup_singleton _, ?_⟩
  intro image among name last same
  rw [same, List.mem_singleton.1 last] at among
  exact output among

theorem names_apart (h : e.IsCommand o c) :
    (c.source :: c.images.map (·.fileName)).Nodup ∧
      c.output ∉ c.source :: c.images.map (·.fileName) := by
  obtain ⟨inputs, -, others⟩ := List.nodup_append.1 h.nodup_names
  rw [h.fileNames]
  exact ⟨inputs, fun among => others _ among _ (List.mem_singleton_self _) rfl⟩

theorem isName_of_mem_names (h : e.IsCommand o c) (single : '/' ∉ o.suffix.toList) :
    ∀ name ∈ c.source :: imageNames e.images.length ++ [c.output], Path.IsName name.toList := by
  rw [List.cons_append, List.forall_mem_cons, List.forall_mem_append, List.forall_mem_singleton]
  refine ⟨h.isSourceName.isName, fun name among => isName_of_mem_imageNames among, ?_⟩
  rw [h.toList_output]
  exact Naming.isName_outputChars _ single e.format

end Edit.IsCommand

namespace ExecutionRequest

variable {r : ExecutionRequest} {files : List (String × Bytes)}

theorem map_fst_of_stagedFiles (h : r.stagedFiles = .ok files) :
    files.map Prod.fst = r.command.source :: r.command.images.map (·.fileName) := by
  obtain ⟨images, collected, rfl⟩ := stagedFiles_eq_ok_iff.1 h
  rw [List.map_cons, map_fst_of_stagedImages collected]

end ExecutionRequest

namespace Executor

theorem holdsJust_of_stageFiles {s : Staging} {files : List (String × Bytes)} {t staged : FileTree}
    (h : stageFiles s.route files t = .ok staged) (distinct : (files.map Prod.fst).Nodup)
    (empty : s.IsEmptyIn t) : (staged.below s.location).HoldsJust files where
  held := by
    intro name bytes found
    rw [FileTree.lookup_below (List.cons_ne_nil _ _)]
    exact lookup_of_mem_stageFiles h distinct found
  nothing := by
    intro q nonempty other
    have apart : ∀ name ∈ files.map Prod.fst, s.location ++ q ≠ s.location ++ [name] :=
      fun name among same => other name among (List.append_cancel_left same)
    rw [FileTree.lookup_below nonempty, lookup_of_stageFiles h (by simp [nonempty]) apart]
    exact empty q nonempty

theorem isEmptyIn_put {s : Staging} {t : FileTree} (h : s.IsEmptyIn t) :
    s.IsEmptyIn (t.put s.location .directory) := by
  intro q nonempty
  rw [FileTree.lookup_put (by simp [nonempty]), if_neg (by simpa using nonempty)]
  exact h q nonempty

end Executor

theorem ExecutionRequest.stagesJust {r : ExecutionRequest} {names : List String}
    (inputs : r.command.source :: r.command.images.map (·.fileName) = names)
    (distinct : names.Nodup) : r.StagesJust names := by
  intro files collected
  have staged := (map_fst_of_stagedFiles collected).trans inputs
  refine ⟨staged, ?_⟩
  intro s t empty
  constructor
  · intro fits
    have clear : ∀ name ∈ files.map Prod.fst, t.lookup (s.location ++ [name]) ≠ some .directory := by
      intro name _
      simp [empty [name] (List.cons_ne_nil _ _)]
    exact Executor.exists_stageFiles (staged.symm ▸ fits) clear
  · intro tree written
    exact Executor.holdsJust_of_stageFiles written (staged.symm ▸ distinct) empty

theorem Executor.collect_of_missing {r : ExecutionRequest} {s : Staging} {t : FileTree}
    (single : Path.IsName r.command.output.toList)
    (missing : t.lookup (s.location ++ [r.command.output]) = none) :
    ∃ err, collect r s t = .error err ∧ (FileTree.Fits s.path r.command.output →
      err = .fileNotFound (String.ofList (Path.join s.path.toList r.command.output.toList))) := by
  rw [collect, FileTree.along_of_isName single]
  by_cases fits : FileTree.Fits s.path r.command.output
  · have unread : t.read (s.route.child r.command.output) = .error .notFound := by
      rw [(s.leads t).read_child (Staging.admits fits), missing]
    rw [unread]
    exact ⟨_, rfl, fun _ => rfl⟩
  · obtain ⟨cause, unread⟩ := (s.leads t).exists_error_of_read_child missing
    rw [unread]
    cases cause <;> exact ⟨_, rfl, fun short => absurd short fits⟩

/-- No input has the name of the output, so that what is there at the end was made by the engine. -/
theorem Executor.IsStarted.output_absent {x : Executor} {r : ExecutionRequest} {watch : Watch}
    {engine : Machine} {suffix : String} {t : FileTree} {launch : Launch}
    {files : List (String × Bytes)} {made staged : FileTree} {s : Staging} {course : Course}
    (h : x.IsStarted r watch engine suffix t launch files made staged s course)
    (fresh : x.IsFresh suffix t)
    (distinct : (r.command.source :: r.command.images.map (·.fileName)).Nodup)
    (apart : r.command.output ∉ r.command.source :: r.command.images.map (·.fileName)) :
    launch.staged.lookup [r.command.output] = none := by
  obtain ⟨above, dir, rfl⟩ := h.dir
  have names := ExecutionRequest.map_fst_of_stagedFiles h.collected
  have held := holdsJust_of_stageFiles h.written (names ▸ distinct)
    (isEmptyIn_put (fresh made above dir))
  rw [← h.launch] at held
  refine held.nothing _ (List.cons_ne_nil _ _) ?_
  rintro name among same
  cases same
  exact apart (names ▸ among)

theorem ExecutionRequest.missesOutput {r : ExecutionRequest}
    (single : Path.IsName r.command.output.toList)
    (distinct : (r.command.source :: r.command.images.map (·.fileName)).Nodup)
    (apart : r.command.output ∉ r.command.source :: r.command.images.map (·.fileName)) :
    r.MissesOutput := by
  intro x watch engine suffix t launch course fresh heedless running success launched unmade
  obtain ⟨files, made, staged, s, found, started⟩ := Executor.exists_isStarted_of_launch launched
  cases running.symm.trans started.started
  have absent := started.output_absent fresh distinct apart
  obtain ⟨above, dir, rfl⟩ := started.dir
  have missing : (staged.within (x.staging suffix above).location course.work).lookup
      ((x.staging suffix above).location ++ [r.command.output]) = none := by
    rw [FileTree.lookup_within (List.cons_ne_nil _ _), ← started.launch]
    by_contra there
    exact unmade ⟨absent, there⟩
  obtain ⟨err, failed, lost⟩ := Executor.collect_of_missing single missing
  refine ⟨err, ?_, lost⟩
  rw [started.result, success, heedless, failed]
  rfl

theorem staged_files_keep_apart (e : Edit) (o : AssemblyOptions) (c : EditCommand)
    (assembled : (e.assemble o).value = .ok c) (single : '/' ∉ o.suffix.toList) :
    (c.source :: imageNames e.images.length ++ [c.output]).Nodup ∧
    (∀ name ∈ c.source :: imageNames e.images.length ++ [c.output], Path.IsName name.toList) ∧
    ∀ r : ExecutionRequest, r.command = c →
      r.StagesJust (c.source :: imageNames e.images.length) ∧ r.MissesOutput := by
  have command := e.isCommand_of_assemble assembled
  have distinct := command.nodup_names
  have names := command.isName_of_mem_names single
  refine ⟨distinct, names, ?_⟩
  rintro r rfl
  have inputs : r.command.source :: r.command.images.map (·.fileName) =
      r.command.source :: imageNames e.images.length := by
    rw [command.fileNames]
  obtain ⟨staged, -, others⟩ := List.nodup_append.1 distinct
  have apart : r.command.output ∉ r.command.source :: imageNames e.images.length :=
    fun among => others _ among _ (List.mem_singleton_self _) rfl
  refine ⟨r.stagesJust inputs staged, r.missesOutput (names _ (by simp)) ?_ ?_⟩
  · rwa [inputs]
  · rwa [inputs]

def Machine.idle : Machine := fun _ => some ⟨[], id, .exited (some 0)⟩

def Executor.temporary : Executor where
  workDir := .ofPath [] "/tmp"

def FileTree.temporary : FileTree := ⟨[(["tmp"], .directory)]⟩

def Edit.untitled : Edit := { Edit.dashed with texts := [] }

def EditCommand.photoRequest (c : EditCommand) : ExecutionRequest :=
  ⟨Bytes.ofText "clip", [("photo", Bytes.ofText "photo")], c⟩

theorem isFresh_temporary : Executor.temporary.IsFresh "x" FileTree.temporary := by
  have dir : Executor.temporary.makeWorkDir FileTree.temporary =
      (FileTree.temporary, .ok ["tmp"]) := by
    decide +kernel
  intro made above reached q nonempty
  cases dir.symm.trans reached
  simp [Executor.staging, FileTree.temporary, FileTree.lookup, List.lookup_cons]

theorem untitled_files_keep_apart :
    ∃ c, (Edit.untitled.assemble {}).value = .ok c ∧
      (c.source :: imageNames 1 ++ [c.output]).Nodup ∧
      (∃ files staged, c.photoRequest.stagedFiles = .ok files ∧
        Executor.stageFiles (Executor.temporary.staging "x" []).route files {} = .ok staged ∧
        (staged.below ["vedit-x"]).HoldsJust files) ∧
      (Executor.temporary.execute c.photoRequest .never .idle "x" .temporary).result =
        .error (.fileNotFound "/tmp/vedit-x/_y_my_clip1.mp4") := by
  obtain ⟨c, assembled⟩ : ∃ c, (Edit.untitled.assemble {}).value = .ok c :=
    exists_eq_ok_of_isSome (by decide +kernel)
  have runs : (Edit.untitled.assemble {}).value.toOption.map (fun c =>
      (c.source, c.output, c.photoRequest.stagedFiles.toOption.isSome,
        (Executor.temporary.execute c.photoRequest .never .idle "x" .temporary).launch.isSome)) =
      some ("_y_my_clip.mp4", "_y_my_clip1.mp4", true, true) := by
    decide +kernel
  rw [assembled] at runs
  simp only [Except.toOption, Option.map_some, Option.some.injEq, Prod.mk.injEq] at runs
  obtain ⟨source, output, collects, launches⟩ := runs
  obtain ⟨files, collected⟩ := exists_eq_ok_of_isSome collects
  obtain ⟨launch, launched⟩ := Option.isSome_iff_exists.1 launches
  obtain ⟨distinct, -, requests⟩ :=
    staged_files_keep_apart Edit.untitled {} c assembled (by decide)
  obtain ⟨stages, misses⟩ := requests c.photoRequest rfl
  have fits : ∀ name ∈ c.source :: imageNames 1,
      FileTree.Fits (Executor.temporary.staging "x" []).path name := by
    rw [source]
    decide +kernel
  have short : FileTree.Fits (Executor.temporary.workDir.pathOf (Executor.stagingName "x"))
      c.output := by
    rw [output]
    decide +kernel
  obtain ⟨stageable, held⟩ := (stages files collected).2 (Executor.temporary.staging "x" []) {}
    (fun q _ => by simp [Executor.staging, FileTree.lookup])
  obtain ⟨staged, written⟩ := stageable fits
  obtain ⟨err, failed, lost⟩ := misses .temporary .never .idle "x" .temporary launch _
    isFresh_temporary rfl rfl rfl launched (fun made => made.2 made.1)
  refine ⟨c, assembled, distinct, ⟨files, staged, collected, written, held staged written⟩, ?_⟩
  have path : Executor.temporary.workDir.pathOf (Executor.stagingName "x") = "/tmp/vedit-x" ∧
      String.ofList (Path.join "/tmp/vedit-x".toList "_y_my_clip1.mp4".toList) =
        "/tmp/vedit-x/_y_my_clip1.mp4" := by
    decide +kernel
  rw [failed, lost short, path.1]
  simp only [EditCommand.photoRequest, output, path.2]

end Montage
