import Mathlib.Data.List.Nodup
import Montage.Proofs.FileTree.Children
import Montage.Render.Execution

/-! What an engine finds in its directory. Files are staged one after another, so that a file stays as
it was written unless a later one has its name. -/
namespace Montage

/-- Where keys are told apart, the first value of a key is its only one. -/
theorem lookup_of_mem_of_nodup {α β : Type} [BEq α] [LawfulBEq α] {list : List (α × β)}
    (distinct : (list.map Prod.fst).Nodup) {key : α} {value : β} (h : (key, value) ∈ list) :
    list.lookup key = some value := by
  obtain ⟨before, after, rfl⟩ := List.append_of_mem h
  rw [List.map_append, List.nodup_append] at distinct
  rw [List.lookup_eq_some_iff]
  refine ⟨before, after, rfl, ?_⟩
  intro entry earlier
  exact bne_iff_ne.2 (distinct.2.2 _ (List.mem_map_of_mem earlier) _ (List.mem_cons_self ..)).symm

namespace ExecutionRequest

theorem stagedImages_eq_ok_iff {r : ExecutionRequest} {images : List ImageInput}
    {files : List (String × Bytes)} : r.stagedImages images = .ok files ↔
      List.Forall₂ (fun i file => r.stagedImage i = .ok file) images files :=
  eachOk_iff (f := r.stagedImages) (g := r.stagedImage) rfl fun _ _ => rfl

theorem stagedImage_eq_ok_iff {r : ExecutionRequest} {i : ImageInput} {file : String × Bytes} :
    r.stagedImage i = .ok file ↔
      file.1 = i.fileName ∧ r.images.lookup i.overlay.id = some file.2 := by
  simp only [stagedImage]
  split
  · rename_i bytes found
    rw [found, Except.ok.injEq, Option.some.injEq, Prod.ext_iff]
    exact and_congr eq_comm Iff.rfl
  · rename_i missing
    simp [missing]

theorem map_fst_of_stagedImages {r : ExecutionRequest} {images : List ImageInput}
    {files : List (String × Bytes)} (h : r.stagedImages images = .ok files) :
    files.map Prod.fst = images.map (·.fileName) := by
  have each := stagedImages_eq_ok_iff.1 h
  clear h
  induction each with
  | nil => rfl
  | cons head tail ih =>
    rw [List.map_cons, List.map_cons, (stagedImage_eq_ok_iff.1 head).1, ih]

theorem stagedFiles_eq_ok_iff {r : ExecutionRequest} {files : List (String × Bytes)} :
    r.stagedFiles = .ok files ↔ ∃ images, r.stagedImages r.command.images = .ok images ∧
      files = (r.command.source, r.source) :: images := by
  simp only [stagedFiles, bind_eq_ok_iff]
  refine exists_congr fun images => and_congr_right fun _ => ?_
  constructor
  · intro h
    cases h
    rfl
  · rintro rfl
    rfl

theorem isSome_of_stagedFiles {r : ExecutionRequest} {files : List (String × Bytes)}
    (h : r.stagedFiles = .ok files) {i : ImageInput} (among : i ∈ r.command.images) :
    (r.images.lookup i.overlay.id).isSome := by
  obtain ⟨images, each, -⟩ := stagedFiles_eq_ok_iff.1 h
  obtain ⟨file, -, one⟩ := exists_of_forall₂_of_mem (stagedImages_eq_ok_iff.1 each) among
  rw [(stagedImage_eq_ok_iff.1 one).2]
  rfl

def missing? (r : ExecutionRequest) : Option ImageInput :=
  r.command.images.find? fun i => (r.images.lookup i.overlay.id).isNone

theorem stagedImages_eq_error_iff {r : ExecutionRequest} {images : List ImageInput}
    {err : RenderError} :
    r.stagedImages images = .error err ↔
      ∃ i, images.find? (fun i => (r.images.lookup i.overlay.id).isNone) = some i ∧
        err = .missingAsset i.overlay.id := by
  induction images with
  | nil => simp [stagedImages]
  | cons i rest ih =>
    cases found : r.images.lookup i.overlay.id with
    | none =>
      have first : r.stagedImage i = .error (.missingAsset i.overlay.id) := by
        simp only [stagedImage, found]
      simp [stagedImages, first, found, bind, Except.bind, eq_comm]
    | some bytes =>
      have first : r.stagedImage i = .ok (i.fileName, bytes) := by
        simp only [stagedImage, found]
      have later : r.stagedImages (i :: rest) = .error err ↔ r.stagedImages rest = .error err := by
        rw [stagedImages, first]
        cases r.stagedImages rest <;> simp [bind, Except.bind, pure, Except.pure]
      rw [later, ih, List.find?_cons_of_neg (by simp [found])]

theorem stagedFiles_eq_error_iff {r : ExecutionRequest} {err : RenderError} :
    r.stagedFiles = .error err ↔ ∃ i, r.missing? = some i ∧ err = .missingAsset i.overlay.id := by
  rw [missing?, ← stagedImages_eq_error_iff, stagedFiles]
  cases r.stagedImages r.command.images <;> simp [bind, Except.bind, pure, Except.pure]

theorem missing?_eq_none_of_stagedFiles {r : ExecutionRequest} {files : List (String × Bytes)}
    (h : r.stagedFiles = .ok files) : r.missing? = none := by
  cases found : r.missing? with
  | none => rfl
  | some i =>
    have failed := stagedFiles_eq_error_iff.2 ⟨i, found, rfl⟩
    cases h.symm.trans failed

end ExecutionRequest

theorem Staging.leads (s : Staging) (t : FileTree) : t.Leads s.route s.location := rfl

theorem Staging.admits {s : Staging} {name : String} (fits : FileTree.Fits s.path name) :
    s.route.Admits name :=
  ⟨fits.1, Nat.lt_of_le_of_lt (s.route.size_child_le name) fits.2⟩

namespace Executor

theorem stageFiles_cons_eq_ok_iff {s : Staging} {name : String} {bytes : Bytes}
    {files : List (String × Bytes)} {t staged : FileTree}
    (h : stageFiles s.route ((name, bytes) :: files) t = .ok staged) :
    stageFiles s.route files (t.put (s.location ++ [name]) (.file bytes)) = .ok staged := by
  obtain ⟨written, first, rest⟩ := bind_eq_ok_iff.1 h
  obtain ⟨-, -, rfl⟩ := (s.leads t).write_child_eq_ok_iff.1 first
  exact rest

theorem lookup_of_stageFiles {s : Staging} {files : List (String × Bytes)} {t staged : FileTree}
    (h : stageFiles s.route files t = .ok staged) {q : Location} (nonempty : q ≠ [])
    (other : ∀ name ∈ files.map Prod.fst, q ≠ s.location ++ [name]) :
    staged.lookup q = t.lookup q := by
  induction files generalizing t with
  | nil =>
    cases h
    rfl
  | cons file rest ih =>
    rw [List.map_cons, List.forall_mem_cons] at other
    rw [ih (stageFiles_cons_eq_ok_iff h) other.2, FileTree.lookup_put nonempty, if_neg other.1]

theorem lookup_of_mem_stageFiles {s : Staging} {files : List (String × Bytes)}
    {t staged : FileTree} (h : stageFiles s.route files t = .ok staged)
    (distinct : (files.map Prod.fst).Nodup) {name : String} {bytes : Bytes}
    (found : (name, bytes) ∈ files) :
    staged.lookup (s.location ++ [name]) = some (.file bytes) := by
  induction files generalizing t with
  | nil => cases found
  | cons file rest ih =>
    rw [List.map_cons, List.nodup_cons] at distinct
    have later := stageFiles_cons_eq_ok_iff h
    rcases List.mem_cons.1 found with rfl | found
    · have other : ∀ later ∈ rest.map Prod.fst, s.location ++ [name] ≠ s.location ++ [later] := by
        rintro later among same
        cases List.append_cancel_left same
        exact distinct.1 among
      rw [lookup_of_stageFiles later (by simp) other, FileTree.lookup_put_self (by simp)]
    · exact ih later distinct.2 found

/-- Only a directory stands in the way of a file whose name is short enough. -/
theorem exists_stageFiles {s : Staging} {files : List (String × Bytes)} {t : FileTree}
    (fits : ∀ name ∈ files.map Prod.fst, FileTree.Fits s.path name)
    (clear : ∀ name ∈ files.map Prod.fst, t.lookup (s.location ++ [name]) ≠ some .directory) :
    ∃ staged, stageFiles s.route files t = .ok staged := by
  induction files generalizing t with
  | nil => exact ⟨t, rfl⟩
  | cons file rest ih =>
    obtain ⟨name, bytes⟩ := file
    rw [List.map_cons, List.forall_mem_cons] at fits clear
    have written := (s.leads t).write_child (Staging.admits fits.1) clear.1 bytes
    have behind : ∀ later ∈ rest.map Prod.fst,
        (t.put (s.location ++ [name]) (.file bytes)).lookup (s.location ++ [later]) ≠
          some .directory := by
      intro later among
      rw [FileTree.lookup_put (by simp)]
      split
      · simp
      · exact clear.2 later among
    obtain ⟨staged, staging⟩ := ih fits.2 behind
    refine ⟨staged, bind_eq_ok_iff.2 ⟨_, written, staging⟩⟩

theorem stageSome_of_stageFiles {dir : Route} {files : List (String × Bytes)} {t staged : FileTree}
    (h : stageFiles dir files t = .ok staged) : stageSome dir files t = staged := by
  induction files generalizing t with
  | nil =>
    cases h
    rfl
  | cons file rest ih =>
    obtain ⟨written, first, later⟩ := bind_eq_ok_iff.1 h
    simp only [stageSome, first]
    exact ih later

theorem lookup_stageSome {s : Staging} {files : List (String × Bytes)} {t : FileTree} {q : Location}
    (outside : ¬s.location <+: q) : (stageSome s.route files t).lookup q = t.lookup q := by
  induction files generalizing t with
  | nil => rfl
  | cons file rest ih =>
    simp only [stageSome]
    split
    · rename_i written first
      obtain ⟨-, -, rfl⟩ := (s.leads t).write_child_eq_ok_iff.1 first
      have other : q ≠ s.location ++ [file.1] := by
        rintro rfl
        exact outside (List.prefix_append _ _)
      rw [ih, FileTree.lookup_put_of_ne other]
    · rfl

end Executor

end Montage
