import Omniprobe.Interceptor.Delivery
import Omniprobe.Lib.Run

/-!
# Completion signals

The threads around the interceptor's signal bookkeeping: the application's thread submits
dispatches and shuts the interceptor down, the device completes dispatches, and the single
`signal_runner` thread takes snapshots of the pending signals and retires the completed ones.
-/

namespace Omniprobe
open Lib

/-! ### Retiring a dispatch -/

/-- The calls `signalCompleted` makes outside the interceptor's own containers. -/
inductive Effect where
  | signalSubtract (sig : Signal) (amount : Int)
  | log (name : Text) (dispatchNs startNs endNs : UInt64)
  | signalStore (sig : Signal) (value : Int)
  | freeKernargs (kernargs : Address)
  | checkinComms (agent : Agent) (comms : Address)
  /-- "Some big problem occurred, a pending signal is missing". -/
  | missingSignal
  deriving DecidableEq, Repr

def signalCompleted (icpt : Interceptor) (sig : Signal) (startNs endNs : UInt64) : Interceptor × List Effect :=
  match icpt.pendingSignals[sig]? with
  | some ki =>
    ({ icpt with
        pendingSignals := icpt.pendingSignals.erase sig
        pendingKernargs := icpt.pendingKernargs.erase sig
        sigPool := icpt.sigPool ++ [sig] },
      (if ki.signal ≠ 0 then [.signalSubtract ki.signal 1] else []) ++
      (if icpt.runInstrumented then [] else [.log ki.name ki.startTime startNs endNs]) ++
      [.signalStore sig 1] ++
      (match icpt.pendingKernargs[sig]? with
        | some kernargs => [.freeKernargs kernargs]
        | none => []) ++
      (if ki.commsObj ≠ 0 then [.checkinComms ki.agent ki.commsObj] else []))
  | none => (icpt, [.missingSignal])

def Effect.signals (value : Signal → Int) : Effect → Signal → Int
  | .signalSubtract sig amount => fun other => if other = sig then value other - amount else value other
  | .signalStore sig new => fun other => if other = sig then new else value other
  | _ => value

def Effect.isCheckin : Effect → Bool
  | .checkinComms _ _ => true
  | _ => false

/-! ### The system -/

/-- The `signal_runner` thread. `getPendingSignals` names a type where it means to lock `mutex_`,
so its iteration holds no lock: `snapshot seen` stands between two elements of it. -/
inductive Runner where
  | test
  | snapshot (seen : List Signal)
  | pass (todo : List Signal)
  | completed (sig : Signal) (todo : List Signal)
  | sleep
  | returned
  deriving DecidableEq, Repr

/-- The application's thread: it submits, then runs `ensure_cleanup`. -/
inductive AppPhase where
  | submitting
  | polling (waitCount : Nat)
  | cleaning
  | cleaned
  deriving DecidableEq, Repr

/-- The history of one dispatch: its own signal, what the application asked for, and what has
happened to it. `due` says that its kernel completed before `shutdown()`. -/
structure Dispatch where
  signal : Signal
  appSignal : Signal
  commsObj : Address
  finished : Bool := false
  due : Bool := false
  retired : Bool := false
  decrements : Nat := 0
  checkins : Nat := 0
  deriving DecidableEq, Repr

/-- `created`, `dispatches`, `submitted`, `inflight` and `missing` are history: every signal made,
every dispatch by number, the dispatch a pending signal belongs to, and whether the
missing-signal branch was ever taken. -/
structure Sys where
  icpt : Interceptor
  value : Signal → Int
  runner : Runner := .test
  app : AppPhase := .submitting
  created : List Signal
  dispatches : Map Nat Dispatch := ∅
  submitted : Nat := 0
  inflight : Map Signal Nat := ∅
  missing : Bool := false

inductive Act where
  | submit (rt : Runtime) (env : FixupEnv) (packet : Packet) (queue : Queue)
  | complete (id : Nat)
  | runner (startNs endNs : UInt64)
  | query (rt : Runtime) (symbol : Symbol)
  | appStore (sig : Signal) (value : Int)
  | shutdown
  | poll
  | join

namespace Sys

def fresh (s : Sys) (env : FixupEnv) : List Signal := if s.icpt.sigPool = [] then env.freshSignals else []

/-- What `hsa_signal_create` promises: valid handles of no live signal, that is, neither one of the
interceptor's nor one that the application still waits for or submits now. -/
def FreshHandles (s : Sys) (fresh : List Signal) (appSignal : Signal) : Prop :=
  fresh.Nodup ∧ ∀ sig ∈ fresh, sig ≠ 0 ∧ sig ∉ s.created ∧ sig ≠ appSignal ∧
    ∀ entry ∈ s.dispatches.toList, entry.2.retired = false → entry.2.appSignal ≠ sig

instance (s : Sys) (fresh : List Signal) (appSignal : Signal) : Decidable (s.FreshHandles fresh appSignal) :=
  -- Over the list: the search would find the quantifier over all 64-bit handles.
  @instDecidableAnd _ _ inferInstance (List.decidableBAll _ fresh)

/-- `fixupPacket` runs to its end under `mutex_` and the packet is written to the queue. -/
def submit (s : Sys) (rt : Runtime) (env : FixupEnv) (packet : Packet) (queue : Queue) : Option Sys :=
  if s.app = .submitting ∧ packet.completionSignal ∉ s.created ∧
      s.FreshHandles (s.fresh env) packet.completionSignal ∧
      (s.icpt.sigPool = [] → env.freshSignals.length = sigpoolIncrement) then
    let id := s.icpt.dispatchCount + 1
    match fixupPacket rt env { s.icpt with dispatchCount := id } packet queue id with
    | (icpt, .ok (some fixup)) =>
      some
        { s with
          icpt
          value := fun sig => if sig ∈ s.fresh env then 1 else s.value sig
          created := s.created ++ s.fresh env
          dispatches := s.dispatches.insert s.submitted
            { signal := fixup.packet.completionSignal
              appSignal := packet.completionSignal
              commsObj := (fixup.instrumented.map (·.commsObj)).getD 0 }
          submitted := s.submitted + 1
          inflight := s.inflight.insert fixup.packet.completionSignal s.submitted }
    | _ => none
  else none

/-- The device decrements the completion signal of the packet it finished. -/
def complete (s : Sys) (id : Nat) : Option Sys :=
  match s.dispatches[id]? with
  | some dispatch =>
    if dispatch.finished then none
    else
      some
        { s with
          value := fun sig => if sig = dispatch.signal then s.value sig - 1 else s.value sig
          dispatches := s.dispatches.insert id
            { dispatch with finished := true, due := !s.icpt.shuttingDown } }
  | none => none

/-- The next element of the iteration over `pending_signals_` after the ones already seen. -/
def nextPending (s : Sys) (seen : List Signal) : Option Signal :=
  s.icpt.pendingSignals.keys.find? fun sig => seen.all fun earlier => earlier < sig

/-- `signalCompleted(sig)` and its effects on the signals, with the history of the dispatch. -/
def retire (s : Sys) (sig : Signal) (startNs endNs : UInt64) : Sys :=
  let (icpt, effects) := signalCompleted s.icpt sig startNs endNs
  { s with
    icpt
    value := effects.foldl Effect.signals s.value
    missing := s.missing || effects.contains .missingSignal
    dispatches := match s.inflight[sig]?.bind fun id => s.dispatches[id]?.map (id, ·) with
      | some (id, dispatch) =>
        s.dispatches.insert id
          { dispatch with
            retired := true
            decrements := dispatch.decrements + effects.count (.signalSubtract dispatch.appSignal 1)
            checkins := dispatch.checkins + effects.countP Effect.isCheckin }
      | none => s.dispatches
    inflight := s.inflight.erase sig }

/-- One step of `signal_runner`. A null handle in the snapshot fails its assertion. -/
def runnerStep (s : Sys) (startNs endNs : UInt64) : Option Sys :=
  match s.runner with
  | .test => some { s with runner := if s.icpt.shuttingDown then .returned else .snapshot [] }
  | .snapshot seen =>
    match s.nextPending seen with
    | some sig => some { s with runner := .snapshot (seen ++ [sig]) }
    | none => some { s with runner := if seen = [] then .sleep else .pass seen }
  | .pass [] => some { s with runner := .snapshot [] }
  | .pass (sig :: todo) =>
    if sig = 0 then none
    else some { s with runner := if s.value sig = 0 then .completed sig todo else .pass todo }
  | .completed sig todo => some { s.retire sig startNs endNs with runner := .pass todo }
  | .sleep => some { s with runner := .test }
  | .returned => none

def hasPendingSignals (icpt : Interceptor) : Bool := !icpt.pendingSignals.isEmpty

def poll (s : Sys) : Option Sys :=
  match s.app with
  | .polling waitCount =>
    some { s with app := if hasPendingSignals s.icpt && waitCount < 1000 then .polling (waitCount + 1) else .cleaning }
  | _ => none

/-- The threads take turns. The `lock_guard` in `getPendingSignals` declares a function and locks nothing, so the others may
come between two elements of the snapshot; it is assumed that none changes the map while the iteration goes from one element
to the next. -/
def step (s : Sys) : Act → Option Sys
  | .submit rt env packet queue => s.submit rt env packet queue
  | .complete id => s.complete id
  | .runner startNs endNs => s.runnerStep startNs endNs
  | .query rt symbol => some { s with icpt := queryKernelObject rt s.icpt symbol }
  | .appStore sig value =>
    if sig ∈ s.created then none
    else some { s with value := fun other => if other = sig then value else s.value other }
  | .shutdown =>
    if s.app = .submitting then
      some { s with app := .polling 0, icpt := { s.icpt with shuttingDown := true } }
    else none
  | .poll => s.poll
  -- The destructor joins the runner before anything of the interceptor is torn down.
  | .join => if s.app = .cleaning ∧ s.runner = .returned then some { s with app := .cleaned } else none

end Sys

end Omniprobe
