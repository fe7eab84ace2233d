import Montage.Job.Journal
import Montage.Proofs.Job.Images

/-! The order in which a job does things: it assembles, loads the source and then the images, and calls
its adapter once it has them all. Its log begins and ends in the same way whatever happens. -/
namespace Montage

/-- Answers are all good, or there is a first that is not. -/
theorem all_ok_or_first_error {ε α : Type} (answers : List (Except ε α)) :
    (∃ values : List α, answers = values.map .ok) ∨
      ∃ (values : List α) (err : ε) (others : List (Except ε α)),
        answers = values.map .ok ++ .error err :: others := by
  induction answers with
  | nil => exact .inl ⟨[], rfl⟩
  | cons answer rest ih =>
    cases answer with
    | error err => exact .inr ⟨[], err, rest, rfl⟩
    | ok value =>
      rcases ih with ⟨values, rfl⟩ | ⟨values, err, others, rfl⟩
      · exact .inl ⟨value :: values, rfl⟩
      · exact .inr ⟨value :: values, err, others, rfl⟩

/-- The answers of a store to loads in a row, also to those that are not made any more since an
earlier one has failed. -/
def Partners.answers (w : Partners) (before : List JobAct) :
    List AssetId → List (Except StorageError Bytes)
  | [] => []
  | id :: rest => w.load before id :: w.answers (before ++ [.load id]) rest

def Edit.assets (e : Edit) : List AssetId := e.source.asset :: e.images.map (·.image)

namespace JobAct

theorem filterMap_event?_of_loads (event : LogEvent) (ids : List AssetId) (rest : List JobAct) :
    (report event :: ids.map load ++ rest).filterMap event? = event :: rest.filterMap event? := by
  simp [event?, List.filterMap_append, List.filterMap_map, Function.comp_def]

theorem filterMap_request?_of_loads (event : LogEvent) (ids : List AssetId) (rest : List JobAct) :
    (report event :: ids.map load ++ rest).filterMap request? = rest.filterMap request? := by
  rw [List.cons_append, List.filterMap_cons_none (show request? (report event) = none from rfl)]
  simp [request?, List.filterMap_append, List.filterMap_map, Function.comp_def]

end JobAct

namespace Journal

variable {α β : Type} {w : Partners} {before : List JobAct}

theorem done_bind (x : Journal α) (f : α → Journal β) (before : List JobAct) :
    (x >>= f).done before = match x.done before with
      | (.ok a, acts) => (f a).done acts
      | (.error err, acts) => (.error err, acts) := by
  change (match x before with | (r, acts) => ExceptT.bindCont f r acts) = match x before with
    | (.ok a, acts) => (f a).done acts
    | (.error err, acts) => (.error err, acts)
  rcases x before with ⟨_ | _, acts⟩ <;> rfl

theorem done_bind_of_ok {x : Journal α} {a : α} {acts : List JobAct}
    (passed : x.done before = (.ok a, acts)) (f : α → Journal β) :
    (x >>= f).done before = (f a).done acts := by
  rw [done_bind, passed]

theorem done_bind_of_error {x : Journal α} {err : JobError} {acts : List JobAct}
    (failed : x.done before = (.error err, acts)) (f : α → Journal β) :
    (x >>= f).done before = (.error err, acts) := by
  rw [done_bind, failed]

theorem done_pure (a : α) (before : List JobAct) :
    (pure a : Journal α).done before = (.ok a, before) := rfl

theorem done_report (event : LogEvent) (before : List JobAct) :
    (report event).done before = (.ok (), before ++ [.report event]) := rfl

theorem done_given (x : Except JobError α) (before : List JobAct) :
    (given x).done before = (x, before) := rfl

theorem done_ask (act : JobAct) (answer : List JobAct → Except JobError α)
    (before : List JobAct) : (ask act answer).done before = (answer before, before ++ [act]) := rfl

theorem done_load_of_ok {id : AssetId} {bytes : Bytes} (there : w.load before id = .ok bytes) :
    (load w id).done before = (.ok bytes, before ++ [.load id]) := by
  rw [load, done_ask, there]
  rfl

theorem done_load_of_error {id : AssetId} {err : StorageError}
    (failed : w.load before id = .error err) :
    (load w id).done before = (.error (.storage err), before ++ [.load id]) := by
  rw [load, done_ask, failed]
  rfl

theorem done_loadImages_of_ok {images : List ImageInput} {bytes : List Bytes}
    (good : w.answers before (images.map (·.overlay.image)) = bytes.map .ok) :
    (loadImages w images).done before = (.ok ((images.map (·.overlay.id)).zip bytes),
      before ++ images.map fun i => .load i.overlay.image) := by
  induction images generalizing before bytes with
  | nil => simp [loadImages, done_pure]
  | cons i rest ih =>
    cases bytes with
    | nil => cases good
    | cons first others =>
      rw [List.map_cons, Partners.answers, List.map_cons, List.cons.injEq] at good
      rw [loadImages, done_bind_of_ok (done_load_of_ok good.1), done_bind_of_ok (ih good.2), done_pure]
      simp

theorem done_loadImages_of_error {images : List ImageInput} {loaded : List Bytes}
    {err : StorageError} {others : List (Except StorageError Bytes)}
    (bad : w.answers before (images.map (·.overlay.image)) =
      loaded.map .ok ++ .error err :: others) :
    (loadImages w images).done before = (.error (.storage err),
      before ++ ((images.map (·.overlay.image)).take (loaded.length + 1)).map .load) := by
  induction images generalizing before loaded with
  | nil => cases loaded <;> cases bad
  | cons i rest ih =>
    rw [List.map_cons, Partners.answers] at bad
    cases loaded with
    | nil =>
      rw [List.map_nil, List.nil_append, List.cons.injEq] at bad
      rw [loadImages, done_bind_of_error (done_load_of_error bad.1)]
      rfl
    | cons first later =>
      rw [List.map_cons, List.cons_append, List.cons.injEq] at bad
      rw [loadImages, done_bind_of_ok (done_load_of_ok bad.1), done_bind_of_error (ih bad.2)]
      simp

theorem done_loadRequest_of_ok {e : Edit} {command : EditCommand} {source : Bytes}
    {images : List Bytes} (same : command.images.map (·.overlay) = e.images)
    (good : w.answers before e.assets = (source :: images).map .ok) :
    (loadRequest w e command).done before =
      (.ok ⟨source, (e.images.map (·.id)).zip images, command⟩,
        before ++ e.assets.map .load) := by
  rw [Edit.assets, Partners.answers, List.map_cons, List.cons.injEq, ← same, List.map_map] at good
  rw [loadRequest, done_bind_of_ok (done_load_of_ok good.1),
    done_bind_of_ok (done_loadImages_of_ok good.2), done_pure,
    Edit.assets, ← same]
  simp [Function.comp_def]

theorem done_loadRequest_of_error {e : Edit} {command : EditCommand} {loaded : List Bytes}
    {err : StorageError} {others : List (Except StorageError Bytes)}
    (same : command.images.map (·.overlay) = e.images)
    (bad : w.answers before e.assets = loaded.map .ok ++ .error err :: others) :
    (loadRequest w e command).done before = (.error (.storage err),
      before ++ (e.assets.take (loaded.length + 1)).map .load) := by
  rw [Edit.assets, Partners.answers, ← same, List.map_map] at bad
  cases loaded with
  | nil =>
    rw [List.map_nil, List.nil_append, List.cons.injEq] at bad
    rw [loadRequest, done_bind_of_error (done_load_of_error bad.1)]
    rfl
  | cons source images =>
    rw [List.map_cons, List.cons_append, List.cons.injEq] at bad
    rw [loadRequest, done_bind_of_ok (done_load_of_ok bad.1),
      done_bind_of_error (done_loadImages_of_error bad.2),
      Edit.assets, ← same]
    simp [Function.comp_def]

end Journal

namespace Job

structure Closes (elapsed : Binary64) (result : Except JobError Output) (last : LogEvent) :
    Prop where
  completed : ∀ name time, last = .completed name time ↔ ∃ output, result = .ok output ∧
    output.fileName = name ∧ Timestamp.formatElapsed elapsed = time
  cancelled : last = .cancelled ↔ ∃ err, result = .error err ∧ err.isCancelled = true
  failed : ∀ text, last = .failed text ↔
    ∃ err, result = .error err ∧ err.isCancelled = false ∧ err.diagnostic = text

theorem closes_closing (elapsed : Binary64) (result : Except JobError Output) :
    Closes elapsed result (closing elapsed result) := by
  cases result with
  | ok output => constructor <;> simp [closing]
  | error err =>
    cases stopped : err.isCancelled <;> constructor <;> simp [closing, LogEvent.ofError, stopped]

variable {w : Partners} {options : AssemblyOptions} {e : Edit} {command : EditCommand}

theorem map_overlay_of_assemble (assembled : (e.assemble options).value = .ok command) :
    command.images.map (·.overlay) = e.images := by
  rw [(Edit.isCommand_of_assemble assembled).images, ImageInput.map_overlay_ofOverlays]

theorem carryOut_of_refused {err : RenderError} (refused : (e.assemble options).value = .error err)
    (elapsed : Binary64) : carryOut w options elapsed e =
      (.error (.render err), [.report (start e), .report (.ofError (.render err))]) := by
  have done : (Journal.render w options elapsed e).done [] =
      (.error (.render err), [.report (start e)]) := by
    rw [Journal.render, Journal.done_bind_of_ok (Journal.done_report _ _), refused]
    exact Journal.done_bind_of_error (Journal.done_given _ _) _
  rw [carryOut, done]
  rfl

/-- All that a job does once its edit is assembled. -/
theorem done_render_of_assembled (assembled : (e.assemble options).value = .ok command)
    (elapsed : Binary64) : (Journal.render w options elapsed e).done [] =
      (do
        let request ← Journal.loadRequest w e command
        Journal.report (.loaded command.images.length)
        let output ← Journal.execute w request
        Journal.report (.completed output.fileName (Timestamp.formatElapsed elapsed))
        return output).done [.report (start e)] := by
  rw [Journal.render, Journal.done_bind_of_ok (Journal.done_report _ _), assembled]
  exact Journal.done_bind_of_ok (Journal.done_given _ _) _

theorem carryOut_of_no_request (assembled : (e.assemble options).value = .ok command)
    {err : JobError} {acts : List JobAct}
    (failed : (Journal.loadRequest w e command).done [.report (start e)] = (.error err, acts))
    (elapsed : Binary64) :
    carryOut w options elapsed e = (.error err, acts ++ [.report (.ofError err)]) := by
  rw [carryOut, done_render_of_assembled assembled, Journal.done_bind_of_error failed]

theorem carryOut_of_request (assembled : (e.assemble options).value = .ok command)
    {request : ExecutionRequest} {acts : List JobAct}
    (loaded : (Journal.loadRequest w e command).done [.report (start e)] = (.ok request, acts))
    (elapsed : Binary64) :
    let before := acts ++ [.report (.loaded command.images.length)]
    let result := (w.execute before request).mapError .render
    carryOut w options elapsed e =
      (result, before ++ [.execute request, .report (closing elapsed result)]) := by
  intro before result
  have asked : (Journal.execute w request).done before = (result, before ++ [.execute request]) :=
    Journal.done_ask _ _ before
  rw [carryOut, done_render_of_assembled assembled, Journal.done_bind_of_ok loaded,
    Journal.done_bind_of_ok (Journal.done_report _ _)]
  cases answer : result with
  | error err =>
    rw [answer] at asked
    rw [Journal.done_bind_of_error asked]
    simp [closing]
  | ok output =>
    rw [answer] at asked
    rw [Journal.done_bind_of_ok asked, Journal.done_bind_of_ok (Journal.done_report _ _),
      Journal.done_pure]
    simp [closing]

theorem carryOut_of_unloaded (assembled : (e.assemble options).value = .ok command)
    {loaded : List Bytes} {err : StorageError} {others : List (Except StorageError Bytes)}
    (bad : w.answers [.report (start e)] e.assets = loaded.map .ok ++ .error err :: others)
    (elapsed : Binary64) : carryOut w options elapsed e = (.error (.storage err),
      .report (start e) :: (e.assets.take (loaded.length + 1)).map .load ++
        [.report (.ofError (.storage err))]) :=
  carryOut_of_no_request assembled
    (Journal.done_loadRequest_of_error (map_overlay_of_assemble assembled) bad) elapsed

theorem carryOut_of_loaded (assembled : (e.assemble options).value = .ok command)
    {source : Bytes} {images : List Bytes}
    (good : w.answers [.report (start e)] e.assets = (source :: images).map .ok)
    (elapsed : Binary64) :
    let request : ExecutionRequest := ⟨source, (e.images.map (·.id)).zip images, command⟩
    let before := .report (start e) :: e.assets.map .load ++ [.report (.loaded e.images.length)]
    let result := (w.execute before request).mapError .render
    carryOut w options elapsed e =
      (result, before ++ [.execute request, .report (closing elapsed result)]) := by
  have same := map_overlay_of_assemble assembled
  have number : command.images.length = e.images.length := by rw [← same, List.length_map]
  have loaded := Journal.done_loadRequest_of_ok same good
  have whole := carryOut_of_request assembled loaded elapsed
  rwa [number] at whole

def Loads (w : Partners) (options : AssemblyOptions) (e : Edit) : Prop :=
  (∃ command, (e.assemble options).value = .ok command) ∧
    ∃ bytes : List Bytes, w.answers [.report (start e)] e.assets = bytes.map .ok

theorem Loads.exists_images (h : Loads w options e) : ∃ (source : Bytes) (images : List Bytes),
    w.answers [.report (start e)] e.assets = (source :: images).map .ok := by
  obtain ⟨-, bytes, good⟩ := h
  cases bytes with
  | nil => cases good
  | cons source images => exact ⟨source, images, good⟩

/-- What the log and the adapter of a job have to do with its result. -/
theorem log_of_carryOut (w : Partners) (options : AssemblyOptions) (elapsed : Binary64) (e : Edit) :
    let result := (carryOut w options elapsed e).1
    let acts := (carryOut w options elapsed e).2
    (Loads w options e → ∃ request, acts.filterMap JobAct.request? = [request] ∧
      acts.filterMap JobAct.event? = [start e, .loaded e.images.length, closing elapsed result]) ∧
    (¬ Loads w options e → acts.filterMap JobAct.request? = [] ∧
      acts.filterMap JobAct.event? = [start e, closing elapsed result]) := by
  intro result acts
  constructor
  · intro loads
    obtain ⟨source, images, good⟩ := loads.exists_images
    obtain ⟨⟨command, assembled⟩, -⟩ := loads
    simp only [result, acts, carryOut_of_loaded assembled good, List.append_assoc]
    rw [JobAct.filterMap_event?_of_loads, JobAct.filterMap_request?_of_loads]
    exact ⟨_, rfl, rfl⟩
  · intro lacks
    cases assembled : (e.assemble options).value with
    | error err =>
      simp only [result, acts, carryOut_of_refused assembled]
      exact ⟨rfl, rfl⟩
    | ok command =>
      rcases all_ok_or_first_error (w.answers [.report (start e)] e.assets) with
        ⟨bytes, good⟩ | ⟨loaded, err, others, bad⟩
      · exact absurd ⟨⟨command, assembled⟩, bytes, good⟩ lacks
      · simp only [result, acts, carryOut_of_unloaded assembled bad]
        rw [JobAct.filterMap_event?_of_loads, JobAct.filterMap_request?_of_loads]
        exact ⟨rfl, rfl⟩

theorem jobs_keep_order (w : Partners) (options : AssemblyOptions) (elapsed : Binary64) (e : Edit) :
    let result := (carryOut w options elapsed e).1
    let acts := (carryOut w options elapsed e).2
    let answers := w.answers [.report (start e)] e.assets
    (∀ err, (e.assemble options).value = .error err → result = .error (.render err) ∧
      acts = [.report (start e), .report (.ofError (.render err))]) ∧
    (∀ command, (e.assemble options).value = .ok command →
      (∀ (loaded : List Bytes) err others, answers = loaded.map .ok ++ .error err :: others →
        result = .error (.storage err) ∧
        acts = .report (start e) :: (e.assets.take (loaded.length + 1)).map .load ++
          [.report (.ofError (.storage err))]) ∧
      (∀ (source : Bytes) (images : List Bytes), answers = (source :: images).map .ok →
        let request : ExecutionRequest := ⟨source, (e.images.map (·.id)).zip images, command⟩
        let before := .report (start e) :: e.assets.map .load ++ [.report (.loaded e.images.length)]
        result = (w.execute before request).mapError .render ∧
        acts = before ++ [.execute request, .report (closing elapsed result)])) ∧
    (∃ middle last, acts.filterMap JobAct.event? =
        .started e.overlayCount e.trim.duration :: middle ++ [last] ∧
      Closes elapsed result last ∧
      (Loads w options e → middle = [.loaded e.images.length] ∧
        ∃ request, acts.filterMap JobAct.request? = [request]) ∧
      (¬ Loads w options e → middle = [] ∧ acts.filterMap JobAct.request? = [])) := by
  intro result acts answers
  obtain ⟨loading, lacking⟩ := log_of_carryOut w options elapsed e
  refine ⟨?_, ?_, ?_⟩
  · intro err refused
    simp only [result, acts, carryOut_of_refused refused, true_and]
  · intro command assembled
    constructor
    · intro loaded err others bad
      simp only [result, acts, carryOut_of_unloaded assembled bad, true_and]
    · intro source images good
      simp only [result, acts, carryOut_of_loaded assembled good, true_and]
  · have closes := closes_closing elapsed result
    by_cases loads : Loads w options e
    · obtain ⟨request, asked, told⟩ := loading loads
      exact ⟨[_], _, told, closes, fun _ => ⟨rfl, request, asked⟩, fun lacks => absurd loads lacks⟩
    · obtain ⟨unasked, told⟩ := lacking loads
      exact ⟨[], _, told, closes, fun all => absurd all loads, fun _ => ⟨rfl, unasked⟩⟩

/-- A store that has no answer any more after two loads. -/
def brief : Partners where
  load before id := if before.length ≤ 2 then .ok (Bytes.ofText id) else .error (.notFound id)
  execute _ _ := .error .cancelled

theorem third_load_decides :
    let done := carryOut brief {} 0 twoPhotos
    done.1 = .error (.storage (.notFound "asset")) ∧
      done.2 = [.report (start twoPhotos), .load "clip", .load "asset", .load "asset",
        .report (.failed "Storage error: Asset not found: asset")] := by
  have valid : (twoPhotos.assemble {}).value.toBool = true := by decide +kernel
  cases assembled : (twoPhotos.assemble {}).value with
  | error err =>
    rw [assembled] at valid
    cases valid
  | ok command =>
    have answers : brief.answers [.report (start twoPhotos)] twoPhotos.assets =
        [Bytes.ofText "clip", Bytes.ofText "asset"].map .ok ++ [.error (.notFound "asset")] := by
      decide +kernel
    have text : LogEvent.ofError (.storage (.notFound "asset")) =
        .failed "Storage error: Asset not found: asset" := by decide +kernel
    rw [← text]
    exact ((jobs_keep_order brief {} 0 twoPhotos).2.1 command assembled).1 _ _ _ answers

end Job

/-- Work that does nothing but load, and comes to a result whatever was done before. -/
def Journal.Reads {β : Type} (work : Journal β) (result : Except StorageError β) : Prop :=
  ∀ before, ∃ ids : List AssetId,
    work.done before = (result.mapError .storage, before ++ ids.map .load)

namespace Journal.Reads

variable {α β γ : Type} {load : AssetId → Except StorageError Bytes} {adapter : Adapter α}

theorem pure (b : β) : Reads (Pure.pure b) (.ok b) := by
  intro before
  refine ⟨[], ?_⟩
  rw [done_pure, List.map_nil, List.append_nil]
  rfl

theorem of_load (id : AssetId) : Reads (Journal.load (.steady load adapter) id) (load id) :=
  fun _ => ⟨[id], rfl⟩

theorem bind {x : Journal β} {f : β → Journal γ} {first : Except StorageError β}
    {others : β → Except StorageError γ} (hx : Reads x first) (hf : ∀ b, Reads (f b) (others b)) :
    Reads (x >>= f) (first >>= others) := by
  intro before
  obtain ⟨ids, done⟩ := hx before
  cases first with
  | error err => exact ⟨ids, done_bind_of_error done f⟩
  | ok b =>
    obtain ⟨later, rest⟩ := hf b (before ++ ids.map .load)
    refine ⟨ids ++ later, (done_bind_of_ok done f).trans ?_⟩
    rw [rest, List.map_append, List.append_assoc]
    rfl

theorem loadImages (images : List ImageInput) :
    Reads (Journal.loadImages (.steady load adapter) images) (Job.loadImages load images) := by
  induction images with
  | nil => exact .pure []
  | cons i rest ih => exact (of_load _).bind fun bytes => ih.bind fun others => .pure _

theorem loadRequest (e : Edit) (command : EditCommand) :
    Reads (Journal.loadRequest (.steady load adapter) e command)
      (Job.loadRequest load e command) :=
  (of_load _).bind fun _ => (Reads.loadImages _).bind fun _ => .pure _

end Journal.Reads

namespace Job

/-- With partners that always answer alike, what is done makes up the job. -/
theorem carryOut_steady {α : Type} (load : AssetId → Except StorageError Bytes)
    (adapter : Adapter α) (options : AssemblyOptions) (elapsed : Binary64) (e : Edit) :
    let done := carryOut (.steady load adapter) options elapsed e
    let whole := render load adapter options elapsed e
    done.1 = whole.result ∧ done.2.filterMap JobAct.event? = whole.log ∧
      done.2.filterMap JobAct.request? = (whole.call.map Prod.fst).toList := by
  intro done whole
  simp only [whole, render]
  split
  · rename_i err metrics refused
    have refused : (e.assemble options).value = .error err := by rw [refused]
    simp only [done, carryOut_of_refused refused]
    exact ⟨rfl, rfl, rfl⟩
  · rename_i command metrics assembled
    have assembled : (e.assemble options).value = .ok command := by rw [assembled]
    have reads : Journal.Reads (Journal.loadRequest (.steady load adapter) e command)
        (loadRequest load e command) := .loadRequest e command
    obtain ⟨ids, loaded⟩ := reads [.report (start e)]
    split
    · rename_i err failed
      rw [failed] at loaded
      simp only [done, carryOut_of_no_request assembled loaded]
      exact ⟨rfl, JobAct.filterMap_event?_of_loads _ _ _, JobAct.filterMap_request?_of_loads _ _ _⟩
    · rename_i request same
      rw [same] at loaded
      simp only [done, carryOut_of_request assembled loaded, List.append_assoc]
      exact ⟨rfl, JobAct.filterMap_event?_of_loads _ _ _, JobAct.filterMap_request?_of_loads _ _ _⟩

end Job
end Montage
