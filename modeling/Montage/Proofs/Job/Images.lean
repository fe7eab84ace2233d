import Montage.Job.Render
import Montage.Proofs.Command
import Montage.Proofs.Graph.Chain
import Montage.Proofs.Render.Attempt

/-! The way of an image through a job. Its number is the same wherever it is met: among the inputs of the
command, in the name that its bytes are staged under, and in the pads of the statements that draw it.
Its bytes are found by its id, which is no other overlay's in a valid edit. -/
namespace Montage

structure ExecutionRequest.Stages (r : ExecutionRequest) (name : String) (bytes : Bytes) :
    Prop where
  staged : ∀ files (s : Staging) t staged, r.stagedFiles = .ok files →
    Executor.stageFiles s.route files t = .ok staged →
    staged.lookup (s.location ++ [name]) = some (.file bytes)
  launched : ∀ (x : Executor) watch engine suffix t launch,
    (x.execute r watch engine suffix t).launch = some launch →
    launch.staged.lookup [name] = some (.file bytes)

/-- Only one statement reads the input with a number, and scales it to the size of an image; only one
reads the result of that, and draws it where and when the image is to be seen. -/
def Filter.DrawsImage (ss : List Filter.Statement) (n : Nat) (o : ImageOverlay) : Prop :=
  ∃ i j base scaled result,
    (∀ k, ReadsAt ss k (Numeral.text n ++ ":v") ↔ k = i) ∧
    ss[i]? = some (.scale (.input n) scaled o.size) ∧
    (∀ k, ReadsAt ss k scaled.name ↔ k = j) ∧
    ss[j]? = some (.overlay base scaled o.position ⟨o.visibleFrom, o.visibleUntil⟩ result)

theorem Filter.drawsImage_of_compile {fontDir : String} {images : List ImageOverlay}
    {texts : List TextOverlay} {g : Graph}
    (h : (compile fontDir (ImageInput.ofOverlays images) texts).value = .ok g) {k : Nat}
    {o : ImageOverlay} (found : images[k]? = some o) : DrawsImage g.statements (k + 1) o := by
  obtain ⟨-, letters, -, statements⟩ := graphOf_eq_ok_iff.1 (value_compile_eq_ok_iff.1 h)
  have image := ImageInput.getElem?_ofOverlays found
  have scaling : Drawn (ImageInput.ofOverlays images) letters (2 * k) _ := .scale image
  have drawing : Drawn (ImageInput.ofOverlays images) letters (2 * k + 1) _ := .overlay image
  rw [statements]
  refine ⟨2 * k, 2 * k + 1, _, _, _, ?_, scaling.getElem?, ?_, drawing.getElem?⟩
  · exact fun j => scaling.readsAt_iff (List.mem_singleton_self _)
  · exact fun j => drawing.readsAt_iff (by simp [Statement.inputPads])

theorem ExecutionRequest.stages_of_mem {r : ExecutionRequest} {images : List (String × Bytes)}
    (collected : r.stagedImages r.command.images = .ok images)
    (distinct : (images.map Prod.fst).Nodup) {name : String} {bytes : Bytes}
    (found : (name, bytes) ∈ images) : r.Stages name bytes := by
  have staged : ∀ files (s : Staging) t staged, r.stagedFiles = .ok files →
      Executor.stageFiles s.route files t = .ok staged →
      staged.lookup (s.location ++ [name]) = some (.file bytes) := by
    intro files s t staged all written
    obtain ⟨others, same, rfl⟩ := stagedFiles_eq_ok_iff.1 all
    cases collected.symm.trans same
    have behind := Executor.stageFiles_cons_eq_ok_iff written
    exact Executor.lookup_of_mem_stageFiles behind distinct found
  refine ⟨staged, ?_⟩
  intro x watch engine suffix t launch launched
  obtain ⟨files, made, tree, s, course, started⟩ := Executor.exists_isStarted_of_launch launched
  rw [started.launch, FileTree.lookup_below (List.cons_ne_nil _ _)]
  exact staged files s _ tree started.collected started.written

namespace Job

variable {α : Type} {load : AssetId → Except StorageError Bytes} {e : Edit}

theorem loadImages_eq_ok_iff {images : List ImageInput} {assets : List (OverlayId × Bytes)} :
    loadImages load images = .ok assets ↔ List.Forall₂
      (fun i asset => asset.1 = i.overlay.id ∧ load i.overlay.image = .ok asset.2) images assets := by
  let one (i : ImageInput) := (load i.overlay.image).map fun bytes => (i.overlay.id, bytes)
  have each : loadImages load images = .ok assets ↔
      List.Forall₂ (fun i asset => one i = .ok asset) images assets := by
    refine eachOk_iff (f := loadImages load) (g := one) rfl fun i rest => ?_
    simp only [loadImages, one]
    cases load i.overlay.image <;> rfl
  have same : ∀ i asset, one i = .ok asset ↔
      asset.1 = i.overlay.id ∧ load i.overlay.image = .ok asset.2 := by
    intro i asset
    simp only [one]
    cases load i.overlay.image with
    | error => simp [Except.map]
    | ok bytes => simp [Except.map, Prod.ext_iff, eq_comm]
  rw [each]
  simp only [same]

theorem loadRequest_eq_ok_iff {command : EditCommand} {request : ExecutionRequest} :
    loadRequest load e command = .ok request ↔ ∃ source images,
      load e.source.asset = .ok source ∧ loadImages load command.images = .ok images ∧
        request = ⟨source, images, command⟩ := by
  simp only [loadRequest, bind_eq_ok_iff]
  constructor
  · rintro ⟨source, loaded, images, others, whole⟩
    cases whole
    exact ⟨source, images, loaded, others, rfl⟩
  · rintro ⟨source, images, loaded, others, rfl⟩
    exact ⟨source, loaded, images, others, rfl⟩

theorem call_render_eq_some_iff {adapter : Adapter α} {options : AssemblyOptions}
    {elapsed : Binary64} {request : ExecutionRequest} {left : α} :
    (render load adapter options elapsed e).call = some (request, left) ↔
      ∃ command, (e.assemble options).value = .ok command ∧
        loadRequest load e command = .ok request ∧ (adapter request).2 = left := by
  simp only [render]
  split
  · rename_i failed
    simp [failed, failure]
  · rename_i command metrics assembled
    split
    · rename_i failed
      simp [assembled, failed, failure]
    · rename_i loaded
      simp only [assembled, Except.ok.injEq, Option.some.injEq, Prod.mk.injEq]
      constructor
      · rintro ⟨rfl, rfl⟩
        exact ⟨command, rfl, loaded, rfl⟩
      · rintro ⟨_, rfl, same, rfl⟩
        cases loaded.symm.trans same
        exact ⟨rfl, rfl⟩

theorem map_fst_of_loadImages {images : List ImageInput} {assets : List (OverlayId × Bytes)}
    (loaded : loadImages load images = .ok assets) :
    assets.map Prod.fst = images.map (·.overlay.id) := by
  have each := loadImages_eq_ok_iff.1 loaded
  clear loaded
  induction each with
  | nil => rfl
  | cons head tail ih => rw [List.map_cons, List.map_cons, head.1, ih]

structure IsRequest (load : AssetId → Except StorageError Bytes) (options : AssemblyOptions)
    (e : Edit) (r : ExecutionRequest) : Prop where
  names : e.names options = .ok (r.command.source, r.command.output)
  images : r.command.images = ImageInput.ofOverlays e.images
  graph : (Filter.compile options.fontDir (ImageInput.ofOverlays e.images) e.texts).value =
    .ok r.command.graph
  source : load e.source.asset = .ok r.source
  loaded : loadImages load r.command.images = .ok r.images

theorem isRequest_of_call {adapter : Adapter α} {options : AssemblyOptions} {elapsed : Binary64}
    {r : ExecutionRequest} {left : α}
    (h : (render load adapter options elapsed e).call = some (r, left)) :
    IsRequest load options e r := by
  obtain ⟨command, assembled, requested, -⟩ := call_render_eq_some_iff.1 h
  obtain ⟨source, output, graph, names, compiled, rfl⟩ := Edit.value_assemble_eq_ok_iff.1 assembled
  obtain ⟨bytes, assets, read, loaded, rfl⟩ := loadRequest_eq_ok_iff.1 requested
  exact ⟨names, rfl, compiled, read, loaded⟩

namespace IsRequest

variable {options : AssemblyOptions} {r : ExecutionRequest} {i : ImageInput}

theorem nodup_ids (h : IsRequest load options e r) :
    (r.command.images.map (·.overlay.id)).Nodup := by
  obtain ⟨-, -, -, ids⟩ := Edit.validate_eq_ok_iff.1 (Edit.valid_of_names h.names)
  have images := ids.of_append_left
  rwa [← ImageInput.map_overlay_ofOverlays e.images, List.map_map, ← h.images] at images

/-- The bytes that are found by the id of an image are those of that image. -/
theorem stagedImage (h : IsRequest load options e r) (hi : i ∈ r.command.images) :
    ∃ bytes, load i.overlay.image = .ok bytes ∧ r.stagedImage i = .ok (i.fileName, bytes) := by
  obtain ⟨k, found⟩ := List.mem_iff_getElem?.1 hi
  obtain ⟨⟨id, bytes⟩, asset, key, read⟩ :=
    exists_getElem?_of_forall₂ (loadImages_eq_ok_iff.1 h.loaded) found
  have distinct : (r.images.map Prod.fst).Nodup := by
    rw [map_fst_of_loadImages h.loaded]
    exact h.nodup_ids
  refine ⟨bytes, read, ExecutionRequest.stagedImage_eq_ok_iff.2 ⟨rfl, ?_⟩⟩
  exact lookup_of_mem_of_nodup distinct (key ▸ List.mem_of_getElem? asset)

theorem exists_stagedImages (h : IsRequest load options e r) :
    ∃ files, r.stagedImages r.command.images = .ok files := by
  have each : ∀ i ∈ r.command.images, ∃ file, r.stagedImage i = .ok file := by
    intro i hi
    obtain ⟨bytes, -, staged⟩ := h.stagedImage hi
    exact ⟨_, staged⟩
  obtain ⟨files, all⟩ := exists_forall₂ each
  exact ⟨files, ExecutionRequest.stagedImages_eq_ok_iff.2 all⟩

theorem stages (h : IsRequest load options e r) (hi : i ∈ r.command.images) :
    ∃ bytes, load i.overlay.image = .ok bytes ∧ r.Stages i.fileName bytes := by
  obtain ⟨bytes, read, staged⟩ := h.stagedImage hi
  obtain ⟨files, collected⟩ := h.exists_stagedImages
  refine ⟨bytes, read, ExecutionRequest.stages_of_mem collected ?_ ?_⟩
  · rw [ExecutionRequest.map_fst_of_stagedImages collected, h.images]
    exact ImageInput.nodup_fileNames e.images
  · obtain ⟨k, found⟩ := List.mem_iff_getElem?.1 hi
    obtain ⟨file, among, same⟩ :=
      exists_getElem?_of_forall₂ (ExecutionRequest.stagedImages_eq_ok_iff.1 collected) found
    cases staged.symm.trans same
    exact List.mem_of_getElem? among

end IsRequest

theorem images_reach_their_statements (load : AssetId → Except StorageError Bytes)
    (adapter : Adapter α) (options : AssemblyOptions) (elapsed : Binary64) (e : Edit)
    (r : ExecutionRequest) (left : α)
    (called : (render load adapter options elapsed e).call = some (r, left)) :
    (∃ files, r.stagedImages r.command.images = .ok files) ∧
    ∀ n o, 1 ≤ n → e.images[n - 1]? = some o →
      (inputValues r.command.arguments)[n]? = some ("overlay" ++ Numeral.text n ++ ".png") ∧
      (∃ bytes, load o.image = .ok bytes ∧
        r.Stages ("overlay" ++ Numeral.text n ++ ".png") bytes) ∧
      Filter.DrawsImage r.command.graph.statements n o := by
  have request := isRequest_of_call called
  refine ⟨request.exists_stagedImages, ?_⟩
  intro n o positive found
  obtain ⟨k, rfl⟩ := Nat.exists_eq_add_of_le' positive
  rw [Nat.add_sub_cancel] at found
  have input : r.command.images[k]? = some ⟨o, k + 1⟩ := by
    rw [request.images]
    exact ImageInput.getElem?_ofOverlays found
  refine ⟨?_, request.stages (List.mem_of_getElem? input), ?_⟩
  · obtain ⟨others, values⟩ := r.command.inputValues_arguments
    have name : (r.command.images.map (·.fileName))[k]? = some (ImageInput.fileName ⟨o, k + 1⟩) := by
      rw [List.getElem?_map, input]
      rfl
    have bound := (List.getElem?_eq_some_iff.1 name).1
    rw [values, List.cons_append, List.getElem?_cons_succ, List.getElem?_append_left bound]
    exact name
  · exact Filter.drawsImage_of_compile request.graph found

def twoPhotos : Edit where
  trim := ⟨0, 5⟩
  images := [.photo, { ImageOverlay.photo with id := "copy" }]
  texts := [.caption]
  source := { asset := "clip", fileName := "clip.mp4" }

theorem copy_reaches_its_statements :
    ∃ r, (render (fun id => .ok (Bytes.ofText id)) (fun _ => (.error .cancelled, ())) {} 0
        twoPhotos).call = some (r, ()) ∧
      (inputValues r.command.arguments)[2]? = some ("overlay" ++ Numeral.text 2 ++ ".png") ∧
      (∃ bytes, r.Stages ("overlay" ++ Numeral.text 2 ++ ".png") bytes) ∧
      Filter.DrawsImage r.command.graph.statements 2 { ImageOverlay.photo with id := "copy" } := by
  have reached : (render (fun id => .ok (Bytes.ofText id)) (fun _ => (.error .cancelled, ())) {} 0
      twoPhotos).call.isSome = true := by decide +kernel
  obtain ⟨⟨r, left⟩, called⟩ := Option.isSome_iff_exists.1 reached
  obtain ⟨input, ⟨bytes, -, staged⟩, drawn⟩ :=
    (images_reach_their_statements _ _ {} 0 twoPhotos r left called).2 2 _ (by decide) rfl
  exact ⟨r, called, input, ⟨bytes, staged⟩, drawn⟩

end Job
end Montage
