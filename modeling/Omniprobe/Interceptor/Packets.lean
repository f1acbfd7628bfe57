import Omniprobe.Interceptor.Kernargs

/-!
# The packet path

The state of `hsaInterceptor` and the functions that the application's threads run on it:
`addKernel` from the symbol hook, `fixupPacket` for one dispatch and `doPackets` for a batch.
-/

namespace Omniprobe
open Lib

/-- `kernel_info_t`. A null `comms_obj_` is 0. -/
structure KernelInfo where
  signal : Signal
  name : Text
  agent : Agent
  commsObj : Address
  startTime : UInt64
  deriving DecidableEq, Repr

/-- `ld_kernel_descriptor_t`. The defaults are those of a map entry made by `operator[]`. -/
structure LdKernelDescriptor where
  name : Text := []
  symbol : Symbol := 0
  agent : Agent := 0
  kernargSize : UInt32 := 0
  deriving DecidableEq, Repr

structure DispatchController where
  bAllDispatch : Bool := true
  bRandomDispatch : Bool := false
  bOneDispatch : Bool := false
  dispatchedKernels : Map KernelObject Bool := ∅

/-- `random` is the answer of `randomDispatcher`. -/
def DispatchController.canDispatch (controller : DispatchController) (random : Bool)
    (kernelObject : KernelObject) : DispatchController × Bool :=
  if controller.bRandomDispatch then (controller, random)
  else if controller.bOneDispatch then
    if kernelObject ∈ controller.dispatchedKernels then (controller, false)
    else
      ({ controller with dispatchedKernels := controller.dispatchedKernels.insert kernelObject true }, true)
  else (controller, true)

structure Interceptor where
  sigPool : List Signal := []
  pendingSignals : Map Signal KernelInfo := ∅
  pendingKernargs : Map Signal Address := ∅
  kernelObjects : Map KernelObject LdKernelDescriptor := ∅
  queues : Map Queue Agent := ∅
  kernelCache : CoCache := {}
  dispatcher : DispatchController := {}
  dispatchCount : UInt64 := 0
  shuttingDown : Bool := false
  runInstrumented : Bool
  /-- `config_["LOGDUR_FILTER"]`. -/
  filter : Text := []
  libraryFilter : LibraryFilter := ⟨false, []⟩

def sigpoolIncrement : Nat := 8

/-! ### Kernels reported by the loader -/

def kernelName (rt : Runtime) (mangled : Text) : Text :=
  if rt.demangleName mangled = [] then mangled else rt.demangleName mangled

def symbolKernelName (rt : Runtime) (symbol : Symbol) : Text := kernelName rt (rt.symbolName symbol)

theorem Runtime.SameSymbols.kernelName {rt rt₀ : Runtime} (same : rt.SameSymbols rt₀) (symbol : Symbol) :
    symbolKernelName rt symbol = symbolKernelName rt₀ symbol := by
  simp only [symbolKernelName, Omniprobe.kernelName, same.demangleName, same.symbolName]

/-- The record `addKernel` keeps of a symbol. -/
def reportedKernel (rt : Runtime) (symbol : Symbol) : LdKernelDescriptor :=
  { name := kernelName rt (rt.symbolName symbol)
    symbol
    agent := rt.symbolAgent symbol
    kernargSize := rt.symbolKernargSize symbol }

/-- Whether `addKernel` skips the registration in the cache, and the cache after it asked. -/
def skipsRegistration (rt : Runtime) (icpt : Interceptor) (kernelObject : KernelObject) : CoCache × Bool :=
  if icpt.libraryFilter.active then
    icpt.kernelCache.isKernelFromExcludedFile rt kernelObject icpt.libraryFilter
  else (icpt.kernelCache, false)

def addKernel (rt : Runtime) (icpt : Interceptor) (kernelObject : KernelObject)
    (kernel : LdKernelDescriptor) : Interceptor :=
  match icpt.kernelObjects[kernelObject]? with
  | some _ => icpt
  | none =>
    let recorded := { icpt with kernelObjects := icpt.kernelObjects.insert kernelObject kernel }
    if icpt.runInstrumented then
      let (cache, excluded) := skipsRegistration rt icpt kernelObject
      if excluded then { recorded with kernelCache := cache }
      else
        { recorded with
          kernelCache := cache.registerRuntimeKernel kernel.name kernel.symbol kernelObject kernel.agent
            kernel.kernargSize }
    else recorded

/-- The hooked `hsa_executable_symbol_get_info` when it is asked for a symbol's kernel object. -/
def queryKernelObject (rt : Runtime) (icpt : Interceptor) (symbol : Symbol) : Interceptor :=
  if rt.knowsSymbol symbol then addKernel rt icpt (rt.symbolKernelObject symbol) (reportedKernel rt symbol)
  else icpt

/-! ### One dispatch -/

/-- How a call ends: it returns, a `std::exception` leaves it, or the process stops in
`abort()`, a failed assertion or a null dereference. -/
inductive Outcome (α : Type) where
  | ok (value : α)
  | threw
  | aborted
  deriving DecidableEq, Repr

/-- Where an exception can be raised in `fixupPacket`: by an allocation, by `kernelDB` or while
the comms object is made. `growPool n` is raised with `n` new signals already in the pool. -/
inductive FixupFault where
  | newPacket
  | growPool (count : Nat)
  | findAlternative
  | scanCodeObject
  | checkoutComms
  | recordKernargs
  | nameKernel
  | recordSignal
  deriving DecidableEq, Repr

/-- What the calls inside `fixupPacket` answer. -/
structure FixupEnv where
  /-- The handles `hsa_signal_create` returns when the pool is replenished. -/
  freshSignals : List Signal := []
  random : Bool := false
  newKernargs : Address := 0
  /-- `kdb && !kdb->hasKernel(name)`. -/
  unscanned : Bool := false
  commsObj : Address := 0
  commsDev : Address := 0
  startTime : UInt64 := 0
  fault : Option FixupFault := none
  deriving DecidableEq, Repr

structure Instrumented where
  name : Text
  dispatchId : UInt64
  commsObj : Address
  kernargs : Address
  writes : List Write
  deriving DecidableEq, Repr

structure Fixup where
  packet : Packet
  instrumented : Option Instrumented := none
  deriving DecidableEq, Repr

/-- The alternative kernel object for a known kernel; 0 when there is none. -/
def findKernelAlternative (rt : Runtime) (icpt : Interceptor) (agent : Agent) (known : LdKernelDescriptor) :
    Option (CoCache × KernelObject) :=
  if icpt.runInstrumented then
    icpt.kernelCache.findInstrumentedAlternative rt known.symbol known.name agent
  else icpt.kernelCache.findAlternative rt known.symbol known.name

/-- The branch that replaces the packet's kernel and kernarg segment. -/
def instrument (rt : Runtime) (env : FixupEnv) (icpt : Interceptor) (packet : Packet) (agent : Agent)
    (sig : Signal) (dispatchId : UInt64) (known : LdKernelDescriptor) (alternative : KernelObject) :
    Interceptor × Outcome Fixup :=
  let (cache, descriptor) := icpt.kernelCache.getArgDescriptor rt agent known.name true
  let icpt := { icpt with kernelCache := cache }
  match descriptor with
  | none => (icpt, .aborted)
  | some args =>
    let scans := env.unscanned && (cache.getCodeObjectRef agent known.name).isSome
    if scans && env.fault = some .scanCodeObject then (icpt, .threw)
    else if env.fault = some .checkoutComms then (icpt, .threw)
    else if env.commsObj = 0 then (icpt, .aborted)
    else
      match fixupKernArgs env.newKernargs packet.kernargAddress env.commsDev args with
      | none => (icpt, .aborted)
      | some writes =>
        if env.fault = some .recordKernargs then (icpt, .threw)
        else
          ({ icpt with pendingKernargs := icpt.pendingKernargs.insert sig env.newKernargs },
            .ok
              { packet := { packet with
                  kernelObject := alternative
                  kernargAddress := env.newKernargs
                  privateSegmentSize := args.privateSegmentSize
                  groupSegmentSize := args.groupSegmentSize }
                instrumented := some
                  { name := known.name
                    dispatchId
                    commsObj := env.commsObj
                    kernargs := env.newKernargs
                    writes } })

/-- The part of `fixupPacket` that looks for an alternative kernel. -/
def swapKernel (rt : Runtime) (env : FixupEnv) (icpt : Interceptor) (packet : Packet) (agent : Agent)
    (sig : Signal) (dispatchId : UInt64) : Interceptor × Outcome Fixup :=
  if icpt.kernelCache.hasKernels agent then
    match icpt.kernelObjects[packet.kernelObject]? with
    | none => (icpt, .ok { packet })
    | some known =>
      if env.fault = some .findAlternative then (icpt, .threw)
      else
        match findKernelAlternative rt icpt agent known with
        | none => (icpt, .aborted)
        | some (cache, alternative) =>
          let icpt := { icpt with kernelCache := cache }
          if alternative ≠ 0 && icpt.runInstrumented then
            let (dispatcher, can) := icpt.dispatcher.canDispatch env.random alternative
            let icpt := { icpt with dispatcher }
            if can then
              if cache.getArgSize alternative = 0 then (icpt, .aborted)
              else instrument rt env icpt packet agent sig dispatchId known alternative
            else (icpt, .ok { packet })
          else (icpt, .ok { packet })
  else (icpt, .ok { packet })

/-- The signal for the dispatch, from the back of the pool, after replenishing an empty pool. -/
def takeSignal (env : FixupEnv) (icpt : Interceptor) : Interceptor × Option Signal :=
  let pool := if icpt.sigPool = [] then env.freshSignals else icpt.sigPool
  ({ icpt with sigPool := pool.dropLast }, pool.getLast?)

/-- `pending_signals_[sig] = {..}` and what its subscripts leave behind. -/
def recordSignal (env : FixupEnv) (icpt : Interceptor) (packet : Packet) (agent : Agent) (sig : Signal)
    (fixup : Fixup) : Interceptor :=
  let kernelObjects := touch icpt.kernelObjects packet.kernelObject {}
  { icpt with
    kernelObjects
    pendingSignals := icpt.pendingSignals.insert sig
      { signal := packet.completionSignal
        name := (kernelObjects[packet.kernelObject]?.getD {}).name
        agent
        commsObj := (fixup.instrumented.map (·.commsObj)).getD 0
        startTime := env.startTime } }

def fixupPacket (rt : Runtime) (env : FixupEnv) (icpt : Interceptor) (packet : Packet) (queue : Queue)
    (dispatchId : UInt64) : Interceptor × Outcome (Option Fixup) :=
  if env.fault = some .newPacket then (icpt, .threw)
  else
    match env.fault, icpt.sigPool with
    | some (.growPool count), [] => ({ icpt with sigPool := env.freshSignals.take count }, .threw)
    | _, _ =>
      match takeSignal env icpt with
      | (icpt, none) => (icpt, .aborted)
      | (icpt, some sig) =>
        let icpt := { icpt with queues := touch icpt.queues queue 0 }
        let agent := icpt.queues[queue]?.getD 0
        match swapKernel rt env icpt packet agent sig dispatchId with
        | (icpt, .threw) => (icpt, .threw)
        | (icpt, .aborted) => (icpt, .aborted)
        | (icpt, .ok fixup) =>
          if env.fault = some .nameKernel then (icpt, .threw)
          -- The right-hand side is evaluated first, so `kernel_objects_` has its entry by then.
          else if env.fault = some .recordSignal then
            ({ icpt with kernelObjects := touch icpt.kernelObjects packet.kernelObject {} }, .threw)
          else
            (recordSignal env icpt packet agent sig fixup,
              .ok (some { fixup with packet := { fixup.packet with completionSignal := sig } }))

/-! ### A batch of packets -/

structure Batch where
  icpt : Interceptor
  written : List Packet
  outcome : Outcome Unit

/-- `doPackets` on the packets from index `i` on. `env i` answers the calls made for packet `i`. -/
def doPackets (rt : Runtime) (env : Nat → FixupEnv) (queue : Queue) : Nat → Interceptor → List Packet → Batch
  | _, icpt, [] => ⟨icpt, [], .ok ()⟩
  | i, icpt, packet :: rest =>
    if packet.isDispatch then
      let id := icpt.dispatchCount + 1
      match fixupPacket rt (env i) { icpt with dispatchCount := id } packet queue id with
      | (icpt, .ok dispatch) =>
        let batch := doPackets rt env queue (i + 1) icpt rest
        { batch with written := (dispatch.map (·.packet)).getD packet :: batch.written }
      -- The handler stands outside the loop, so the rest of the batch is given up.
      | (icpt, .threw) => ⟨icpt, [], .ok ()⟩
      | (icpt, .aborted) => ⟨icpt, [], .aborted⟩
    else
      let batch := doPackets rt env queue (i + 1) icpt rest
      { batch with written := packet :: batch.written }

end Omniprobe
