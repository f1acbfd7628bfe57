import Omniprobe.Interceptor.Packets

/-!
# What a dispatch does to the interceptor, and what a batch delivers

`queryKernelObject_cases`, `instrument_cases`, `swapKernel_cases` and `fixupPacket_cases` say once everything
that a symbol query and one dispatch can do; the later modules use them instead of unfolding the functions.
The second half is about `doPackets`: a batch reaches the writer whole exactly when no `fixupPacket` call in it throws.
-/

namespace Omniprobe
open Lib

/-! ### A symbol query -/

/-- The cache after the kernel of a symbol entered `kernel_objects_`. -/
def recordedCache (rt : Runtime) (icpt : Interceptor) (symbol : Symbol) : CoCache :=
  if icpt.runInstrumented then
    let (cache, excluded) := skipsRegistration rt icpt (rt.symbolKernelObject symbol)
    if excluded then cache
    else
      cache.registerRuntimeKernel (symbolKernelName rt symbol) symbol (rt.symbolKernelObject symbol)
        (rt.symbolAgent symbol) (rt.symbolKernargSize symbol)
  else icpt.kernelCache

/-- A query changes nothing unless the loader knows the symbol and its kernel object is new. -/
theorem queryKernelObject_cases (rt : Runtime) (icpt : Interceptor) (symbol : Symbol) :
    (queryKernelObject rt icpt symbol = icpt ∧
      (rt.knowsSymbol symbol = true → rt.symbolKernelObject symbol ∈ icpt.kernelObjects)) ∨
    (rt.knowsSymbol symbol = true ∧ icpt.kernelObjects[rt.symbolKernelObject symbol]? = none ∧
      queryKernelObject rt icpt symbol =
        { icpt with
          kernelObjects := icpt.kernelObjects.insert (rt.symbolKernelObject symbol) (reportedKernel rt symbol)
          kernelCache := recordedCache rt icpt symbol }) := by
  unfold queryKernelObject
  by_cases knows : rt.knowsSymbol symbol = true
  · rw [if_pos knows, addKernel]
    cases found : icpt.kernelObjects[rt.symbolKernelObject symbol]? with
    | some old => exact Or.inl ⟨rfl, fun _ => (mem_iff_find _ _).mpr ⟨old, found⟩⟩
    | none =>
      refine Or.inr ⟨knows, rfl, ?_⟩
      dsimp only [recordedCache]
      split
      · split <;> rfl
      · rfl
  · rw [if_neg knows]
    exact Or.inl ⟨rfl, fun known => absurd known knows⟩

section
variable {rt : Runtime} {env : FixupEnv} {icpt icpt' : Interceptor} {packet : Packet} {queue : Queue}
  {agent : Agent} {sig : Signal} {dispatchId : UInt64}

/-! ### One dispatch -/

def Outcome.Fails {α : Type} (outcome : Outcome α) : Prop := ∀ value, outcome ≠ .ok value

theorem Outcome.fails_aborted {α : Type} : Outcome.Fails (.aborted : Outcome α) := fun _ same => by cases same

theorem Outcome.fails_threw {α : Type} : Outcome.Fails (.threw : Outcome α) := fun _ same => by cases same

/-- What a packet becomes with the descriptor `args` of its clone. -/
def instrumentedFixup (env : FixupEnv) (packet : Packet) (dispatchId : UInt64) (name : Text)
    (alternative : KernelObject) (args : ArgDescriptor) (writes : List Write) : Fixup where
  packet := { packet with
    kernelObject := alternative
    kernargAddress := env.newKernargs
    privateSegmentSize := args.privateSegmentSize
    groupSegmentSize := args.groupSegmentSize }
  instrumented := some
    { name
      dispatchId
      commsObj := env.commsObj
      kernargs := env.newKernargs
      writes }

theorem instrument_cases {known : LdKernelDescriptor} {alternative : KernelObject} {outcome : Outcome Fixup}
    (h : instrument rt env icpt packet agent sig dispatchId known alternative = (icpt', outcome)) :
    ∃ cache descriptor, icpt.kernelCache.getArgDescriptor rt agent known.name true = (cache, descriptor) ∧
      (icpt' = { icpt with kernelCache := cache } ∧ outcome.Fails ∨
      ∃ args writes, descriptor = some args ∧
        fixupKernArgs env.newKernargs packet.kernargAddress env.commsDev args = some writes ∧
        icpt' =
          { icpt with
            kernelCache := cache
            pendingKernargs := icpt.pendingKernargs.insert sig env.newKernargs } ∧
        outcome = .ok (instrumentedFixup env packet dispatchId known.name alternative args writes)) := by
  unfold instrument at h
  generalize icpt.kernelCache.getArgDescriptor rt agent known.name true = answer at h ⊢
  obtain ⟨cache, descriptor⟩ := answer
  refine ⟨cache, descriptor, rfl, ?_⟩
  dsimp only at h
  split at h
  · obtain ⟨rfl, rfl⟩ := Prod.mk.inj h
    exact Or.inl ⟨rfl, Outcome.fails_aborted⟩
  · rename_i args
    split at h
    · obtain ⟨rfl, rfl⟩ := Prod.mk.inj h
      exact Or.inl ⟨rfl, Outcome.fails_threw⟩
    split at h
    · obtain ⟨rfl, rfl⟩ := Prod.mk.inj h
      exact Or.inl ⟨rfl, Outcome.fails_threw⟩
    split at h
    · obtain ⟨rfl, rfl⟩ := Prod.mk.inj h
      exact Or.inl ⟨rfl, Outcome.fails_aborted⟩
    split at h
    · obtain ⟨rfl, rfl⟩ := Prod.mk.inj h
      exact Or.inl ⟨rfl, Outcome.fails_aborted⟩
    · rename_i writes written
      split at h
      · obtain ⟨rfl, rfl⟩ := Prod.mk.inj h
        exact Or.inl ⟨rfl, Outcome.fails_threw⟩
      · obtain ⟨rfl, rfl⟩ := Prod.mk.inj h
        exact Or.inr ⟨args, writes, rfl, written, rfl, rfl⟩

/-- A call that does not come to `instrument` returns the packet as it was, if it returns. -/
def Outcome.Keeps (packet : Packet) (outcome : Outcome Fixup) : Prop := ∀ fixup, outcome = .ok fixup → fixup = { packet }

theorem swapKernel_cases {outcome : Outcome Fixup}
    (h : swapKernel rt env icpt packet agent sig dispatchId = (icpt', outcome)) :
    icpt' = icpt ∧ outcome.Keeps packet ∨
    ∃ known cache alternative dispatcher, icpt.kernelObjects[packet.kernelObject]? = some known ∧
      findKernelAlternative rt icpt agent known = some (cache, alternative) ∧
      (icpt' = { icpt with kernelCache := cache, dispatcher := dispatcher } ∧ outcome.Keeps packet ∨
      alternative ≠ 0 ∧ icpt.runInstrumented = true ∧
        instrument rt env { icpt with kernelCache := cache, dispatcher := dispatcher } packet agent sig dispatchId known
          alternative = (icpt', outcome)) := by
  have returned : Outcome.Keeps packet (.ok { packet }) := fun fixup same => (Outcome.ok.inj same).symm
  have failed : ∀ outcome : Outcome Fixup, outcome.Fails → outcome.Keeps packet :=
    fun _ fails fixup same => absurd same (fails fixup)
  unfold swapKernel at h
  split at h
  · split at h
    · obtain ⟨rfl, rfl⟩ := Prod.mk.inj h
      exact Or.inl ⟨rfl, returned⟩
    · rename_i known present
      split at h
      · obtain ⟨rfl, rfl⟩ := Prod.mk.inj h
        exact Or.inl ⟨rfl, failed _ Outcome.fails_threw⟩
      split at h
      · obtain ⟨rfl, rfl⟩ := Prod.mk.inj h
        exact Or.inl ⟨rfl, failed _ Outcome.fails_aborted⟩
      · rename_i cache alternative found
        dsimp only at h
        split at h
        · rename_i swaps
          rw [Bool.and_eq_true, decide_eq_true_eq] at swaps
          split at h
          · split at h
            · obtain ⟨rfl, rfl⟩ := Prod.mk.inj h
              exact Or.inr ⟨known, cache, alternative, _, present, found,
                Or.inl ⟨rfl, failed _ Outcome.fails_aborted⟩⟩
            · exact Or.inr ⟨known, cache, alternative, _, present, found, Or.inr ⟨swaps.1, swaps.2, h⟩⟩
          · obtain ⟨rfl, rfl⟩ := Prod.mk.inj h
            exact Or.inr ⟨known, cache, alternative, _, present, found, Or.inl ⟨rfl, returned⟩⟩
        · obtain ⟨rfl, rfl⟩ := Prod.mk.inj h
          exact Or.inr ⟨known, cache, alternative, _, present, found, Or.inl ⟨rfl, returned⟩⟩
  · obtain ⟨rfl, rfl⟩ := Prod.mk.inj h
    exact Or.inl ⟨rfl, returned⟩

def drawPool (env : FixupEnv) (icpt : Interceptor) : List Signal :=
  if icpt.sigPool = [] then env.freshSignals else icpt.sigPool

/-- The interceptor while `fixupPacket` looks for an alternative, with the signal for the dispatch taken. -/
def drawn (env : FixupEnv) (icpt : Interceptor) (queue : Queue) : Interceptor :=
  { icpt with
    sigPool := (drawPool env icpt).dropLast
    queues := touch icpt.queues queue 0 }

def queueAgent (icpt : Interceptor) (queue : Queue) : Agent := icpt.queues[queue]?.getD 0

theorem fixupPacket_cases {outcome : Outcome (Option Fixup)}
    (h : fixupPacket rt env icpt packet queue dispatchId = (icpt', outcome)) :
    (∃ pool, icpt' = { icpt with sigPool := pool }) ∧ outcome.Fails ∨
    ∃ sig swapped result, (drawPool env icpt).getLast? = some sig ∧
      swapKernel rt env (drawn env icpt queue) packet (queueAgent icpt queue) sig dispatchId = (swapped, result) ∧
      ((icpt' = swapped ∨ icpt' = { swapped with
          kernelObjects := touch swapped.kernelObjects packet.kernelObject {} }) ∧ outcome.Fails ∨
      ∃ fixup, result = .ok fixup ∧ icpt' = recordSignal env swapped packet (queueAgent icpt queue) sig fixup ∧
        outcome = .ok (some { fixup with packet := { fixup.packet with completionSignal := sig } })) := by
  unfold fixupPacket at h
  split at h
  · obtain ⟨rfl, rfl⟩ := Prod.mk.inj h
    exact Or.inl ⟨⟨_, rfl⟩, Outcome.fails_threw⟩
  split at h
  · obtain ⟨rfl, rfl⟩ := Prod.mk.inj h
    exact Or.inl ⟨⟨_, rfl⟩, Outcome.fails_threw⟩
  split at h
  · rename_i emptied taken
    obtain ⟨rfl, -⟩ := Prod.mk.inj taken
    obtain ⟨rfl, rfl⟩ := Prod.mk.inj h
    exact Or.inl ⟨⟨_, rfl⟩, Outcome.fails_aborted⟩
  · rename_i taken sig took
    obtain ⟨rfl, last⟩ := Prod.mk.inj took
    have owner : (touch icpt.queues queue 0)[queue]?.getD 0 = queueAgent icpt queue := by
      rw [find_touch]
      cases found : icpt.queues[queue]? <;> simp [queueAgent, found]
    dsimp only at h
    rw [owner] at h
    refine Or.inr ?_
    split at h
    · rename_i swapped swap
      obtain ⟨rfl, rfl⟩ := Prod.mk.inj h
      exact ⟨sig, _, _, last, swap, Or.inl ⟨Or.inl rfl, Outcome.fails_threw⟩⟩
    · rename_i swapped swap
      obtain ⟨rfl, rfl⟩ := Prod.mk.inj h
      exact ⟨sig, _, _, last, swap, Or.inl ⟨Or.inl rfl, Outcome.fails_aborted⟩⟩
    · rename_i swapped fixup swap
      refine ⟨sig, _, _, last, swap, ?_⟩
      split at h
      · obtain ⟨rfl, rfl⟩ := Prod.mk.inj h
        exact Or.inl ⟨Or.inl rfl, Outcome.fails_threw⟩
      split at h
      · obtain ⟨rfl, rfl⟩ := Prod.mk.inj h
        exact Or.inl ⟨Or.inr rfl, Outcome.fails_threw⟩
      · obtain ⟨rfl, rfl⟩ := Prod.mk.inj h
        exact Or.inr ⟨fixup, rfl, rfl, rfl⟩

/-! ### What it changes -/

theorem instrument_frame {known : LdKernelDescriptor} {alternative : KernelObject} {outcome : Outcome Fixup}
    (h : instrument rt env icpt packet agent sig dispatchId known alternative = (icpt', outcome)) :
    ∃ cache kernargs, icpt' = { icpt with kernelCache := cache, pendingKernargs := kernargs } ∧
      (kernargs = icpt.pendingKernargs ∨ kernargs = icpt.pendingKernargs.insert sig env.newKernargs) := by
  obtain ⟨cache, descriptor, -, ⟨rfl, -⟩ | ⟨args, writes, -, -, rfl, -⟩⟩ := instrument_cases h
  · exact ⟨cache, _, rfl, Or.inl rfl⟩
  · exact ⟨cache, _, rfl, Or.inr rfl⟩

/-- Looking for an alternative changes the cache, the dispatch controller and, for the dispatch's
own signal, the pending kernargs. -/
theorem swapKernel_frame {outcome : Outcome Fixup}
    (h : swapKernel rt env icpt packet agent sig dispatchId = (icpt', outcome)) :
    ∃ cache dispatcher kernargs,
      icpt' = { icpt with kernelCache := cache, dispatcher := dispatcher, pendingKernargs := kernargs } ∧
      (kernargs = icpt.pendingKernargs ∨ kernargs = icpt.pendingKernargs.insert sig env.newKernargs) := by
  rcases swapKernel_cases h with ⟨rfl, -⟩ | ⟨known, cache, alternative, dispatcher, -, -, ⟨rfl, -⟩ | ⟨-, -, swapped⟩⟩
  · exact ⟨_, _, _, rfl, Or.inl rfl⟩
  · exact ⟨cache, dispatcher, _, rfl, Or.inl rfl⟩
  · obtain ⟨cache, kernargs, rfl, changed⟩ := instrument_frame swapped
    exact ⟨cache, dispatcher, kernargs, rfl, changed⟩

/-- Everything a `fixupPacket` call that returns does. -/
structure Submitted (env : FixupEnv) (packet : Packet) (queue : Queue) (icpt icpt' : Interceptor)
    (sig : Signal) (info : KernelInfo) (fixup : Fixup) : Prop where
  pool : drawPool env icpt = icpt'.sigPool ++ [sig]
  signals : icpt'.pendingSignals = icpt.pendingSignals.insert sig info
  kernargs : icpt'.pendingKernargs = icpt.pendingKernargs ∨
    icpt'.pendingKernargs = icpt.pendingKernargs.insert sig env.newKernargs
  objects : icpt'.kernelObjects = touch icpt.kernelObjects packet.kernelObject {}
  flag : icpt'.shuttingDown = icpt.shuttingDown
  signal : info.signal = packet.completionSignal
  comms : info.commsObj = (fixup.instrumented.map (·.commsObj)).getD 0
  completion : fixup.packet.completionSignal = sig

theorem fixupPacket_ok {result : Option Fixup}
    (h : fixupPacket rt env icpt packet queue dispatchId = (icpt', .ok result)) :
    ∃ sig info fixup, result = some fixup ∧ Submitted env packet queue icpt icpt' sig info fixup := by
  rcases fixupPacket_cases h with ⟨-, fails⟩ | ⟨sig, swapped, result, last, swap, ⟨-, fails⟩ | ⟨fixup, -, rfl, same⟩⟩
  · exact absurd rfl (fails _)
  · exact absurd rfl (fails _)
  · obtain ⟨cache, dispatcher, kernargs, rfl, changed⟩ := swapKernel_frame swap
    obtain rfl := Outcome.ok.inj same
    refine ⟨sig, _, _, rfl, ⟨?_, rfl, changed, rfl, rfl, rfl, rfl, rfl⟩⟩
    exact (List.dropLast_append_getLast? sig last).symm

/-- However a `fixupPacket` call ends, at most the packet's kernel object gets an entry. -/
theorem fixupPacket_objects {outcome : Outcome (Option Fixup)}
    (h : fixupPacket rt env icpt packet queue dispatchId = (icpt', outcome)) :
    icpt'.kernelObjects = icpt.kernelObjects ∨
      icpt'.kernelObjects = touch icpt.kernelObjects packet.kernelObject {} := by
  rcases fixupPacket_cases h with ⟨⟨pool, rfl⟩, -⟩ | ⟨sig, swapped, result, -, swap, cases⟩
  · exact Or.inl rfl
  · obtain ⟨cache, dispatcher, kernargs, rfl, -⟩ := swapKernel_frame swap
    rcases cases with ⟨rfl | rfl, -⟩ | ⟨fixup, -, rfl, -⟩
    · exact Or.inl rfl
    · exact Or.inr rfl
    · exact Or.inr rfl

end

/-! ### A batch -/

/-- What the writer may be given for an input packet: a packet that is not a dispatch as it is, a
dispatch as it is or as `fixupPacket` rewrote it. -/
def Delivers (rt : Runtime) (env : FixupEnv) (queue : Queue) (packet written : Packet) : Prop :=
  if packet.isDispatch then
    written = packet ∨ ∃ icpt icpt' id fixup,
      fixupPacket rt env icpt packet queue id = (icpt', .ok (some fixup)) ∧ written = fixup.packet
  else written = packet

/-- The writer got one packet for each input packet, in input order. -/
def DeliversAll (rt : Runtime) (env : Nat → FixupEnv) (queue : Queue) (i : Nat) (packets written : List Packet) :
    Prop :=
  List.Forall₂ (fun input => Delivers rt (env input.2) queue input.1) (packets.zipIdx i) written

/-- Every `fixupPacket` call made for the batch returns. -/
def FixupsReturn (rt : Runtime) (env : Nat → FixupEnv) (queue : Queue) : Nat → Interceptor → List Packet → Prop
  | _, _, [] => True
  | i, icpt, packet :: rest =>
    if packet.isDispatch then
      ∃ icpt' dispatch,
        fixupPacket rt (env i) { icpt with dispatchCount := icpt.dispatchCount + 1 } packet queue
          (icpt.dispatchCount + 1) = (icpt', .ok dispatch) ∧
        FixupsReturn rt env queue (i + 1) icpt' rest
    else FixupsReturn rt env queue (i + 1) icpt rest

theorem doPackets_delivers_iff (rt : Runtime) (env : Nat → FixupEnv) (queue : Queue) (i : Nat)
    (icpt : Interceptor) (packets : List Packet) :
    DeliversAll rt env queue i packets (doPackets rt env queue i icpt packets).written ↔
      FixupsReturn rt env queue i icpt packets := by
  unfold DeliversAll
  induction packets generalizing i icpt with
  | nil => simp [doPackets, FixupsReturn]
  | cons packet rest ih =>
    rw [List.zipIdx_cons]
    unfold doPackets FixupsReturn
    by_cases isDispatch : packet.isDispatch = true
    · simp only [isDispatch, if_true]
      generalize call : fixupPacket rt (env i) { icpt with dispatchCount := icpt.dispatchCount + 1 } packet queue
        (icpt.dispatchCount + 1) = result
      obtain ⟨after, outcome⟩ := result
      -- A call that does not return ends the batch with nothing written, while an input is left.
      cases outcome with
      | ok dispatch =>
        dsimp only
        rw [List.forall₂_cons, ih (i + 1) after]
        constructor
        · rintro ⟨-, returns⟩
          exact ⟨after, dispatch, rfl, returns⟩
        · rintro ⟨after', dispatch', same, returns⟩
          obtain ⟨rfl, -⟩ := Prod.mk.inj same
          refine ⟨?_, returns⟩
          obtain ⟨_, _, fixup, rfl, _⟩ := fixupPacket_ok call
          rw [Delivers, if_pos isDispatch]
          exact Or.inr ⟨_, _, _, fixup, call, rfl⟩
      | threw =>
        constructor
        · intro delivered
          cases delivered
        · rintro ⟨_, _, same, _⟩
          simp at same
      | aborted =>
        constructor
        · intro delivered
          cases delivered
        · rintro ⟨_, _, same, _⟩
          simp at same
    · simp only [isDispatch, Bool.false_eq_true, if_false]
      rw [List.forall₂_cons, ih (i + 1) icpt]
      constructor
      · rintro ⟨-, returns⟩
        exact returns
      · intro returns
        exact ⟨by simp [Delivers, isDispatch], returns⟩

/-! ### A failure inside a batch -/

namespace Sample

def runtime : Runtime :=
  { Runtime.idle with
    symbolName := fun symbol => if symbol = 10 then "f(int)".toList else "__amd_crk_f(int, void*)".toList
    symbolAgent := fun _ => 1
    symbolKernelObject := fun symbol => symbol * 10
    symbolKernargSize := fun _ => 24 }

/-- The sample kernels in a loaded code object; a filter is a plain text to look for. -/
def loaded : Runtime :=
  { runtime with
    regexSearch := fun filter name => some (Text.rfind filter name).isSome
    queryExecutable := fun _ => some 1
    loadedCodeObjects := fun _ => [⟨none, some [KernargLayout.sampleOriginal, KernargLayout.sampleClone]⟩] }

def binary : BinaryFile :=
  ⟨"/app".toList, [⟨"/tmp/app.hsaco".toList, true, [KernargLayout.sampleOriginal, KernargLayout.sampleClone],
    [(.kernel, 10), (.kernel, 11)]⟩]⟩

/-- The interceptor after the startup scan of `binary`, with one queue and the original kernel
reported by the loader. -/
def interceptor : Interceptor :=
  queryKernelObject runtime
    { runInstrumented := true
      sigPool := [1, 2, 3, 4, 5, 6, 7, 8]
      queues := (∅ : Map Queue Agent).insert 1 1
      kernelCache := (CoCache.addFile runtime 1 [] binary {}).getD {} } 10

def dispatch : Packet := ⟨2, 0, 64, 1, 1, 0, 64, 1, 1, 8, 32, 100, 8192, 0, 900⟩

def barrier : Packet := ⟨3, 0, 0, 0, 0, 0, 0, 0, 0, 0, 0, 0, 0, 0, 901⟩

def answers : Nat → FixupEnv := fun _ => { newKernargs := 4096, commsObj := 5000, commsDev := 6000 }

/-- Device memory runs out while the comms object is made. -/
def outOfMemory : Nat → FixupEnv := fun i => { answers i with fault := some .checkoutComms }

end Sample

theorem doPackets_delivers_sample :
    DeliversAll Sample.runtime Sample.answers 1 0 [Sample.dispatch, Sample.barrier]
      (doPackets Sample.runtime Sample.answers 1 0 Sample.interceptor [Sample.dispatch, Sample.barrier]).written :=
  (doPackets_delivers_iff Sample.runtime Sample.answers 1 0 Sample.interceptor
    [Sample.dispatch, Sample.barrier]).mpr ⟨_, _, rfl, trivial⟩

/-- When the comms object of the first packet cannot be made, neither the dispatch nor the barrier
behind it reaches the writer. -/
theorem doPackets_drops_batch :
    (doPackets Sample.runtime Sample.outOfMemory 1 0 Sample.interceptor
      [Sample.dispatch, Sample.barrier]).outcome = .ok () ∧
    ¬DeliversAll Sample.runtime Sample.outOfMemory 1 0 [Sample.dispatch, Sample.barrier]
      (doPackets Sample.runtime Sample.outOfMemory 1 0 Sample.interceptor
        [Sample.dispatch, Sample.barrier]).written := by
  have nothing : (doPackets Sample.runtime Sample.outOfMemory 1 0 Sample.interceptor
      [Sample.dispatch, Sample.barrier]).written = [] := by decide
  refine ⟨by decide, ?_⟩
  rw [nothing]
  intro delivered
  cases delivered

end Omniprobe
