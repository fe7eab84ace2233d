import Mathlib.Data.List.Basic
import Montage.Command.Call

/-! What a built command shows of its calls. The calls about inputs and those about the output go to
places of their own, so each group keeps its order and nothing depends on how the two are mixed. -/
namespace Montage.Command

namespace Call

/-- What a call adds to the options of the input that was added last. -/
def inputOptions : Call → List String
  | inputOption option => [option]
  | _ => []

def outputArguments : Call → List String
  | outputOption option => [option]
  | outputOptions options => options
  | filterGraph graph => ["-filter_complex", graph]
  | videoFilter filter => ["-vf", filter]
  | startAt position => ["-ss", position]
  | stopAt position => ["-to", position]
  | _ => []

def given : Call → List String
  | addInput path => ["-i", path]
  | call => call.inputOptions ++ call.outputArguments

def addsInput : Call → Bool
  | addInput _ => true
  | _ => false

def isAboutInputs : Call → Bool
  | addInput _ | inputOption _ => true
  | _ => false

def isAboutOutput : Call → Bool
  | outputOption _ | outputOptions _ | filterGraph _ | videoFilter _ | startAt _ | stopAt _ => true
  | _ => false

def isSetting : Call → Bool
  | logLevel _ | overwrite _ => true
  | _ => false

theorem not_isSetting_of_isAboutInputs (call : Call) (h : call.isAboutInputs = true) :
    call.isSetting = false := by
  cases call <;> first | rfl | cases h

theorem not_isSetting_of_isAboutOutput (call : Call) (h : call.isAboutOutput = true) :
    call.isSetting = false := by
  cases call <;> first | rfl | cases h

end Call

def ownOptions (calls : List Call) : List String :=
  (calls.takeWhile fun call => !call.addsInput).flatMap Call.inputOptions

/-- The inputs that are added, each with the options given after it and before the next one. -/
def addedInputs : List Call → List CommandInput
  | [] => []
  | .addInput path :: later => ⟨ownOptions later, path⟩ :: addedInputs later
  | _ :: later => addedInputs later

theorem ownOptions_cons (call : Call) (later : List Call) : ownOptions (call :: later) =
    if call.addsInput then [] else call.inputOptions ++ ownOptions later := by
  cases call <;> rfl

section
variable {c : Command} {earlier : List CommandInput} {last : CommandInput}

/-- A call that adds no input leaves them as they are or extends the options of the last one. -/
theorem inputs_apply (h : c.inputs = earlier ++ [last]) {call : Call}
    (kept : call.addsInput = false) :
    (c.apply call).inputs = earlier ++ [⟨last.options ++ call.inputOptions, last.path⟩] := by
  cases call with
  | addInput path => cases kept
  | inputOption option =>
    simp only [apply, Command.inputOption, h, List.getLast?_concat, List.dropLast_concat]
    rfl
  | _ =>
    show c.inputs = earlier ++ [⟨last.options ++ [], last.path⟩]
    rw [List.append_nil]
    exact h

theorem outputOptions_apply (c : Command) (call : Call) :
    (c.apply call).outputOptions = c.outputOptions ++ call.outputArguments := by
  cases call <;> first | rfl | exact (List.append_nil _).symm

theorem output_apply (c : Command) (call : Call) : (c.apply call).output = c.output := by
  cases call <;> rfl

/-- There is a last input at all times, and options go to it until the next one is added. -/
theorem inputs_foldl_apply (h : c.inputs = earlier ++ [last]) (calls : List Call) :
    (calls.foldl apply c).inputs =
      earlier ++ ⟨last.options ++ ownOptions calls, last.path⟩ :: addedInputs calls := by
  induction calls generalizing c earlier last with
  | nil => simpa [ownOptions, addedInputs] using h
  | cons call later ih =>
    cases call with
    | addInput path =>
      have next : (c.addInput path).inputs = (earlier ++ [last]) ++ [⟨[], path⟩] :=
        congrArg (· ++ [_]) h
      rw [List.foldl_cons, apply, ih next]
      simp [ownOptions_cons, addedInputs, Call.addsInput]
    | _ =>
      rw [List.foldl_cons, ih (inputs_apply h rfl)]
      simp [ownOptions_cons, addedInputs, Call.addsInput]

theorem outputOptions_foldl_apply (c : Command) (calls : List Call) :
    (calls.foldl apply c).outputOptions = c.outputOptions ++ calls.flatMap Call.outputArguments := by
  induction calls generalizing c with
  | nil => simp
  | cons call later ih =>
    rw [List.foldl_cons, ih, outputOptions_apply, List.flatMap_cons, List.append_assoc]

theorem output_foldl_apply (c : Command) (calls : List Call) :
    (calls.foldl apply c).output = c.output := by
  induction calls generalizing c with
  | nil => rfl
  | cons call later ih => rw [List.foldl_cons, ih, output_apply]

end

theorem length_addedInputs (calls : List Call) :
    (addedInputs calls).length = calls.countP Call.addsInput := by
  induction calls with
  | nil => rfl
  | cons call later ih => cases call <;> simp [addedInputs, Call.addsInput, List.countP_cons, ih]

section
variable (calls : List Call)

theorem ownOptions_filter : ownOptions (calls.filter Call.isAboutInputs) = ownOptions calls := by
  induction calls with
  | nil => rfl
  | cons call later ih =>
    cases call <;>
      simp [List.filter_cons, Call.isAboutInputs, Call.addsInput, Call.inputOptions,
        ownOptions_cons, ih]

theorem addedInputs_filter : addedInputs (calls.filter Call.isAboutInputs) = addedInputs calls := by
  induction calls with
  | nil => rfl
  | cons call later ih =>
    cases call <;>
      simp [List.filter_cons, Call.isAboutInputs, addedInputs, ownOptions_filter, ih]

theorem outputArguments_filter : (calls.filter Call.isAboutOutput).flatMap Call.outputArguments =
    calls.flatMap Call.outputArguments := by
  induction calls with
  | nil => rfl
  | cons call later ih =>
    cases call <;> simp [List.filter_cons, Call.isAboutOutput, Call.outputArguments, ih]

/-- What the calls give is shown once, and nothing else is. -/
theorem given_perm : (ownOptions calls ++ (addedInputs calls).flatMap inputArguments ++
    calls.flatMap Call.outputArguments).Perm (calls.flatMap Call.given) := by
  induction calls with
  | nil => exact .nil
  | cons call later ih =>
    rw [List.perm_iff_count] at ih ⊢
    intro a
    have rest := ih a
    cases call <;>
      simp [ownOptions_cons, addedInputs, inputArguments, Call.addsInput, Call.inputOptions,
        Call.outputArguments, Call.given, List.count_cons] at rest ⊢ <;> omega

end

theorem arguments_build (source output : String) (calls : List Call) :
    (build source output calls).arguments =
      ownOptions calls ++ ["-i", source] ++ (addedInputs calls).flatMap inputArguments ++
        calls.flatMap Call.outputArguments ++ [output] := by
  have inputs := inputs_foldl_apply (c := ofPaths source output) (List.nil_append _).symm calls
  have options := outputOptions_foldl_apply (ofPaths source output) calls
  have last := output_foldl_apply (ofPaths source output) calls
  rw [arguments, build, inputs, options, last]
  simp [inputArguments, ofPaths]

/-- Calls of two groups may be mixed in any way that keeps the order within each group. -/
theorem arguments_build_congr {source output : String} {calls others : List Call}
    (inputs : others.filter Call.isAboutInputs = calls.filter Call.isAboutInputs)
    (outputs : others.filter Call.isAboutOutput = calls.filter Call.isAboutOutput) :
    (build source output others).arguments = (build source output calls).arguments := by
  rw [arguments_build, arguments_build, ← ownOptions_filter others, ← addedInputs_filter others,
    ← outputArguments_filter others, inputs, outputs, ownOptions_filter, addedInputs_filter,
    outputArguments_filter]

theorem filter_of_not_isSetting (calls : List Call) {p : Call → Bool}
    (other : ∀ call, p call = true → call.isSetting = false) :
    (calls.filter fun call => !call.isSetting).filter p = calls.filter p := by
  rw [List.filter_filter]
  refine List.filter_congr fun call _ => ?_
  cases found : p call with
  | true => simp [other call found]
  | false => rfl

/-- Settings stand in front of the arguments of a run and are not among those of the command. -/
theorem arguments_build_of_not_isSetting (source output : String) (calls : List Call) :
    (build source output (calls.filter fun call => !call.isSetting)).arguments =
      (build source output calls).arguments :=
  arguments_build_congr (filter_of_not_isSetting calls Call.not_isSetting_of_isAboutInputs)
    (filter_of_not_isSetting calls Call.not_isSetting_of_isAboutOutput)

theorem calls_land_where_they_belong (source output : String) (calls : List Call) :
    (build source output calls).arguments =
      ownOptions calls ++ ["-i", source] ++
        (addedInputs calls).flatMap (fun i => i.options ++ ["-i", i.path]) ++
        calls.flatMap Call.outputArguments ++ [output] ∧
    (build source output calls).arguments.Perm
      (["-i", source] ++ calls.flatMap Call.given ++ [output]) ∧
    (∀ others : List Call,
      others.filter Call.isAboutInputs = calls.filter Call.isAboutInputs →
      others.filter Call.isAboutOutput = calls.filter Call.isAboutOutput →
        (build source output others).arguments = (build source output calls).arguments) ∧
    (build source output (calls.filter fun call => !call.isSetting)).arguments =
      (build source output calls).arguments ∧
    (build source output calls).inputs.length = calls.countP Call.addsInput + 1 := by
  have arguments := arguments_build source output calls
  refine ⟨arguments, ?_, fun others => arguments_build_congr,
    arguments_build_of_not_isSetting source output calls, ?_⟩
  · rw [arguments, List.perm_iff_count]
    intro a
    have shown := (given_perm calls).count_eq a
    simp only [List.count_append] at shown ⊢
    omega
  · rw [build, inputs_foldl_apply (List.nil_append _).symm, List.nil_append, List.length_cons,
      length_addedInputs]

/-- Options of an image and of the output, given in turns and one after another. -/
theorem mixed_calls_land_alike :
    let calls : List Call := [.startAt "1", .addInput "overlay1.png", .overwrite false,
      .inputOption "-loop", .stopAt "4", .inputOption "1"]
    let others : List Call := [.addInput "overlay1.png", .inputOption "-loop", .inputOption "1",
      .logLevel "info", .startAt "1", .stopAt "4"]
    others.filter Call.isAboutInputs = calls.filter Call.isAboutInputs ∧
    others.filter Call.isAboutOutput = calls.filter Call.isAboutOutput ∧
    (build "clip.mp4" "clip1.mp4" others).arguments =
      (build "clip.mp4" "clip1.mp4" calls).arguments :=
  ⟨rfl, rfl, (calls_land_where_they_belong "clip.mp4" "clip1.mp4" _).2.2.1 _ rfl rfl⟩

end Montage.Command
