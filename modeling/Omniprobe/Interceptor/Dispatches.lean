import Omniprobe.Interceptor.Packets

/-!
# The selection of dispatches

`LOGDUR_DISPATCHES` chooses what `canDispatch` answers. The constructor of `dispatchController` sets
its flags for the settings it knows and leaves them as they are for all others.
-/

namespace Omniprobe
open Lib

/-! ### The settings -/

/-- `LOGDUR_INSTRUMENTED` is `true` or `false` in any case, and `false` otherwise. -/
def instrumentedSetting : Option Text → Text
  | none => "false".toList
  | some value =>
    let tmp := value.map Char.toLower
    if tmp ≠ "true".toList ∧ tmp ≠ "false".toList then "false".toList else tmp

def getLogDurConfig (getenv : Text → Option Text) (config : Map Text Text) : Map Text Text :=
  let config := config.insert "LOGDUR_LOG_LOCATION".toList ((getenv "LOGDUR_LOG_LOCATION".toList).getD "console".toList)
  let config := config.insert "LOGDUR_KERNEL_CACHE".toList ((getenv "LOGDUR_KERNEL_CACHE".toList).getD [])
  let config := config.insert "LOGDUR_INSTRUMENTED".toList (instrumentedSetting (getenv "LOGDUR_INSTRUMENTED".toList))
  let config := config.insert "LOGDUR_HANDLERS".toList ((getenv "LOGDUR_HANDLERS".toList).getD [])
  let config := config.insert "LOGDUR_FILTER".toList ((getenv "LOGDUR_FILTER".toList).getD [])
  let config := config.insert "LOGDUR_DISPATCHES".toList ((getenv "LOGDUR_DISPATCHES".toList).getD [])
  config.insert "LOGDUR_LIBRARY_FILTER".toList ((getenv "LOGDUR_LIBRARY_FILTER".toList).getD [])

theorem getLogDurConfig_dispatches (getenv : Text → Option Text) (config : Map Text Text) :
    (getLogDurConfig getenv config)["LOGDUR_DISPATCHES".toList]? =
      some ((getenv "LOGDUR_DISPATCHES".toList).getD []) := by
  have other : "LOGDUR_LIBRARY_FILTER".toList ≠ "LOGDUR_DISPATCHES".toList := by decide
  unfold getLogDurConfig
  simp only
  rw [find_insert_ne _ _ other, find_insert_self]

/-! ### The controller -/

/-- The bytes that the flags of a new `dispatchController` are made of. -/
structure PriorMemory where
  bAllDispatch : UInt8
  bRandomDispatch : UInt8
  bOneDispatch : UInt8

/-- The object before its constructor's body: the flags have no initialisers. A byte other than 0 reads as true. -/
def PriorMemory.controller (memory : PriorMemory) : DispatchController where
  bAllDispatch := memory.bAllDispatch ≠ 0
  bRandomDispatch := memory.bRandomDispatch ≠ 0
  bOneDispatch := memory.bOneDispatch ≠ 0

/-- The constructor. -/
def dispatchController (getenv : Text → Option Text) (memory : PriorMemory) : DispatchController :=
  let controller := memory.controller
  match (getLogDurConfig getenv ∅)["LOGDUR_DISPATCHES".toList]? with
  | some setting =>
    if setting = "random".toList then
      { controller with bRandomDispatch := true, bAllDispatch := false, bOneDispatch := false }
    else if setting = "all".toList then
      { controller with bAllDispatch := true, bRandomDispatch := false, bOneDispatch := false }
    else if setting = "1".toList then
      { controller with bOneDispatch := true, bAllDispatch := false, bRandomDispatch := false }
    else controller
  | none => { controller with bAllDispatch := true }

/-- A call of `canDispatch`: the answer `randomDispatcher` has ready, and the kernel object. -/
abbrev DispatchRequest := Bool × KernelObject

def DispatchController.answers (controller : DispatchController) : List DispatchRequest → List Bool
  | [] => []
  | (random, kernelObject) :: rest =>
    let (controller, can) := controller.canDispatch random kernelObject
    can :: controller.answers rest

/-! ### Runs of calls -/

namespace DispatchController

/-- The controller answers once for each kernel object, and `seen` are the ones it was asked about. -/
structure OncePerKernel (seen : List KernelObject) (controller : DispatchController) : Prop where
  notRandom : controller.bRandomDispatch = false
  one : controller.bOneDispatch = true
  kernels : ∀ kernelObject, kernelObject ∈ controller.dispatchedKernels ↔ kernelObject ∈ seen

theorem canDispatch_once {seen : List KernelObject} {controller : DispatchController}
    (once : controller.OncePerKernel seen) (random : Bool) (kernelObject : KernelObject) :
    (controller.canDispatch random kernelObject).2 = decide (kernelObject ∉ seen) ∧
      (controller.canDispatch random kernelObject).1.OncePerKernel (seen ++ [kernelObject]) := by
  rw [canDispatch, once.notRandom, if_neg Bool.false_ne_true, if_pos once.one]
  by_cases asked : kernelObject ∈ controller.dispatchedKernels
  · have member := (once.kernels kernelObject).mp asked
    rw [if_pos asked]
    refine ⟨by simp [member], once.notRandom, once.one, fun other => ?_⟩
    rw [once.kernels, List.mem_append, List.mem_singleton, or_iff_left_of_imp]
    intro same
    rwa [same]
  · have absent : kernelObject ∉ seen := fun member => asked ((once.kernels kernelObject).mpr member)
    rw [if_neg asked]
    refine ⟨by simp [absent], rfl, once.one, fun other => ?_⟩
    rw [mem_insert_iff, once.kernels, List.mem_append, List.mem_singleton, or_comm, eq_comm]

theorem answers_once {seen : List KernelObject} {controller : DispatchController}
    (once : controller.OncePerKernel seen) (requests : List DispatchRequest) (i : Nat) :
    (controller.answers requests)[i]? =
      requests[i]?.map fun request => decide (request.2 ∉ seen ++ (requests.take i).map Prod.snd) := by
  induction requests generalizing seen controller i with
  | nil => rfl
  | cons request rest ih =>
    obtain ⟨first, later⟩ := canDispatch_once once request.1 request.2
    cases i with
    | zero =>
      rw [answers, List.getElem?_cons_zero, List.getElem?_cons_zero, first, List.take_zero, List.map_nil,
        List.append_nil, Option.map_some]
    | succ i =>
      rw [answers, List.getElem?_cons_succ, List.getElem?_cons_succ, ih later, List.take_succ_cons, List.map_cons,
        List.append_assoc, List.singleton_append]

theorem answers_always {controller : DispatchController} (notRandom : controller.bRandomDispatch = false)
    (notOne : controller.bOneDispatch = false) (requests : List DispatchRequest) :
    ∀ answer ∈ controller.answers requests, answer = true := by
  induction requests with
  | nil => exact fun answer member => absurd member List.not_mem_nil
  | cons request rest ih =>
    have answered : controller.canDispatch request.1 request.2 = (controller, true) := by
      rw [canDispatch, notRandom, notOne, if_neg Bool.false_ne_true, if_neg Bool.false_ne_true]
    rw [answers, answered]
    exact List.forall_mem_cons.mpr ⟨rfl, ih⟩

end DispatchController

/-! ### The setting decides -/

/-- What the documentation says of the setting, whatever memory the controller is made in. -/
structure FollowsMode (getenv : Text → Option Text) : Prop where
  /-- With `1`, a kernel object is dispatched at its first occurrence. -/
  first : getenv "LOGDUR_DISPATCHES".toList = some "1".toList → ∀ memory requests (i : Nat),
    ((dispatchController getenv memory).answers requests)[i]? =
      requests[i]?.map fun request => decide (request.2 ∉ (requests.take i).map Prod.snd)
  /-- With `all`, without a setting and with an unrecognised one, everything is dispatched. -/
  all : getenv "LOGDUR_DISPATCHES".toList ∉ [some "1".toList, some "random".toList] → ∀ memory requests,
    ∀ answer ∈ (dispatchController getenv memory).answers requests, answer = true
  independent : ∀ memory memory' requests,
    (dispatchController getenv memory).answers requests = (dispatchController getenv memory').answers requests

/-- The settings that the constructor has a case for. -/
def recognised : List Text := ["random".toList, "all".toList, "1".toList]

/-- The flags are set for the settings with a case, and are what the memory held for all others. -/
theorem dispatchController_eq (getenv : Text → Option Text) (memory : PriorMemory) :
    dispatchController getenv memory =
      match getenv "LOGDUR_DISPATCHES".toList with
      | none => memory.controller
      | some setting =>
        if setting = "random".toList then ⟨false, true, false, ∅⟩
        else if setting = "all".toList then ⟨true, false, false, ∅⟩
        else if setting = "1".toList then ⟨false, false, true, ∅⟩
        else memory.controller := by
  unfold dispatchController
  rw [getLogDurConfig_dispatches]
  cases getenv "LOGDUR_DISPATCHES".toList with
  | none => rfl
  | some setting => rfl

theorem dispatchController_set {getenv : Text → Option Text} {setting : Text}
    (set : getenv "LOGDUR_DISPATCHES".toList = some setting) (memory : PriorMemory) :
    dispatchController getenv memory =
      if setting = "random".toList then ⟨false, true, false, ∅⟩
      else if setting = "all".toList then ⟨true, false, false, ∅⟩
      else if setting = "1".toList then ⟨false, false, true, ∅⟩
      else memory.controller := by
  rw [dispatchController_eq, set]

theorem dispatchController_unrecognised {getenv : Text → Option Text}
    (unrecognised : ∀ setting ∈ recognised, getenv "LOGDUR_DISPATCHES".toList ≠ some setting) (memory : PriorMemory) :
    dispatchController getenv memory = memory.controller := by
  cases set : getenv "LOGDUR_DISPATCHES".toList with
  | none => rw [dispatchController_eq, set]
  | some setting =>
    have other (known : Text) (member : known ∈ recognised) : setting ≠ known := by
      rintro rfl
      exact unrecognised setting member set
    rw [dispatchController_set set, if_neg (other _ (by simp [recognised])), if_neg (other _ (by simp [recognised])),
      if_neg (other _ (by simp [recognised]))]

/-- The setting decides exactly when the constructor has a case for it. -/
theorem followsMode_iff (getenv : Text → Option Text) :
    FollowsMode getenv ↔ ∃ setting ∈ recognised, getenv "LOGDUR_DISPATCHES".toList = some setting := by
  constructor
  · intro follows
    by_contra none
    have unrecognised : ∀ setting ∈ recognised, getenv "LOGDUR_DISPATCHES".toList ≠ some setting :=
      fun setting member set => none ⟨setting, member, set⟩
    -- The flag of the random mode may be left set, and the generator may say no.
    have same := follows.independent ⟨0, 1, 0⟩ ⟨0, 0, 0⟩ [(false, 0)]
    rw [dispatchController_unrecognised unrecognised, dispatchController_unrecognised unrecognised] at same
    exact absurd same (by decide)
  · rintro ⟨setting, member, set⟩
    simp only [recognised, List.mem_cons, List.not_mem_nil, or_false] at member
    rcases member with rfl | rfl | rfl
    · have mode (memory : PriorMemory) : dispatchController getenv memory = ⟨false, true, false, ∅⟩ :=
        dispatchController_set set memory
      refine ⟨fun one => ?_, fun other => ?_, fun memory memory' requests => by rw [mode, mode]⟩
      · exact absurd (Option.some.inj (set.symm.trans one)) (by decide)
      · exact absurd (by rw [set]; simp) other
    · have mode (memory : PriorMemory) : dispatchController getenv memory = ⟨true, false, false, ∅⟩ :=
        dispatchController_set set memory
      refine ⟨fun one => ?_, fun other memory => ?_, fun memory memory' requests => by rw [mode, mode]⟩
      · exact absurd (Option.some.inj (set.symm.trans one)) (by decide)
      · rw [mode]
        exact DispatchController.answers_always rfl rfl
    · have mode (memory : PriorMemory) : dispatchController getenv memory = ⟨false, false, true, ∅⟩ :=
        dispatchController_set set memory
      refine ⟨fun one memory requests i => ?_, fun other => ?_, fun memory memory' requests => by rw [mode, mode]⟩
      · have once : DispatchController.OncePerKernel [] ⟨false, false, true, ∅⟩ :=
          ⟨rfl, rfl, fun kernelObject => by simp⟩
        rw [mode, DispatchController.answers_once once, List.nil_append]
      · exact absurd (by rw [set]; simp) other

/-- Without a setting, a flag that the memory holds stays: the second dispatch of a kernel is refused. -/
theorem unset_not_followed : ¬∀ getenv : Text → Option Text, FollowsMode getenv := by
  intro claim
  have everything := (claim fun _ => none).all (by simp) ⟨0, 0, 1⟩ [(false, 0), (false, 0)]
  rw [dispatchController_unrecognised (fun setting member => Option.some_ne_none setting |>.symm)] at everything
  exact absurd (everything false (by decide)) (by decide)

end Omniprobe
