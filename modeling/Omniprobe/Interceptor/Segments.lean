import Omniprobe.Cache.Calls
import Omniprobe.Interceptor.Delivery

/-!
# Group and private memory of a rewritten dispatch

A packet asks for the fixed memory of its kernel and for what the application adds at launch. A
rewritten packet asks for the fixed memory of the clone.
-/

namespace Omniprobe
open Lib

/-! ### The sizes in a descriptor -/

theorem foldl_addArg_segments (args : List ArgMetadata) (desc : ArgDescriptor) :
    (args.foldl addArg desc).privateSegmentSize = desc.privateSegmentSize ∧
    (args.foldl addArg desc).groupSegmentSize = desc.groupSegmentSize := by
  induction args generalizing desc with
  | nil => exact ⟨rfl, rfl⟩
  | cons arg rest ih =>
    rw [List.foldl_cons, (ih _).1, (ih _).2, addArg]
    split <;> exact ⟨rfl, rfl⟩

theorem kernargDescriptor_segments (kernel : KernelMetadata) :
    (kernargDescriptor kernel).privateSegmentSize = kernel.privateSegmentFixedSize.toUInt32 ∧
    (kernargDescriptor kernel).groupSegmentSize = kernel.groupSegmentFixedSize.toUInt32 := by
  obtain ⟨privateSize, groupSize⟩ := foldl_addArg_segments kernel.args
    { privateSegmentSize := kernel.privateSegmentFixedSize.toUInt32
      groupSegmentSize := kernel.groupSegmentFixedSize.toUInt32
      kernargLength := kernel.kernargSegmentSize }
  exact ⟨privateSize, groupSize⟩

/-! ### The rewritten packet -/

section
variable {rt : Runtime} {env : FixupEnv} {icpt icpt' : Interceptor} {packet : Packet} {queue : Queue}
  {agent : Agent} {sig : Signal} {dispatchId : UInt64}

/-- `written` is `packet` with another kernel, kernarg segment and completion signal, asking for the
memory of `clone`. -/
def RewrittenFor (clone : ArgDescriptor) (packet written : Packet) : Prop :=
  written =
    { packet with
      kernelObject := written.kernelObject
      kernargAddress := written.kernargAddress
      completionSignal := written.completionSignal
      privateSegmentSize := clone.privateSegmentSize
      groupSegmentSize := clone.groupSegmentSize }

/-- The descriptor that a dispatch of the named kernel finds for the clone. -/
def cloneDescriptor (rt : Runtime) (cache : CoCache) (agent : Agent) (name : Text) : Option ArgDescriptor :=
  cache.visibleDescriptor rt agent (cache.missesClone agent name) (getInstrumentedName name)

theorem instrument_rewrites {known : LdKernelDescriptor} {alternative : KernelObject} {fixup : Fixup}
    (h : instrument rt env icpt packet agent sig dispatchId known alternative = (icpt', .ok fixup)) :
    ∃ clone, cloneDescriptor rt icpt.kernelCache agent known.name = some clone ∧
      RewrittenFor clone packet fixup.packet := by
  obtain ⟨cache, descriptor, lookup, ⟨-, fails⟩ | ⟨args, writes, rfl, -, -, returned⟩⟩ := instrument_cases h
  · exact absurd rfl (fails fixup)
  · obtain ⟨clone, visible, rfl⟩ := CoCache.getArgDescriptor_some lookup
    obtain rfl := Outcome.ok.inj returned
    exact ⟨clone, visible, rfl⟩

theorem findKernelAlternative_visible {known : LdKernelDescriptor} {cache : CoCache} {alternative : KernelObject}
    (found : findKernelAlternative rt icpt agent known = some (cache, alternative))
    (instrumented : icpt.runInstrumented = true) (agent' : Agent) (name : Text) :
    cloneDescriptor rt cache agent' name = cloneDescriptor rt icpt.kernelCache agent' name := by
  rw [findKernelAlternative, if_pos instrumented] at found
  obtain ⟨alternatives, sizes, rfl, -⟩ := CoCache.findInstrumentedAlternative_cases found
  rfl

theorem swapKernel_rewrites {fixup : Fixup}
    (h : swapKernel rt env icpt packet agent sig dispatchId = (icpt', .ok fixup))
    (rewritten : fixup.instrumented.isSome) :
    ∃ known clone, icpt.kernelObjects[packet.kernelObject]? = some known ∧
      cloneDescriptor rt icpt.kernelCache agent known.name = some clone ∧ RewrittenFor clone packet fixup.packet := by
  -- On every way out but the last the packet is returned as it came.
  have kept : ¬Outcome.Keeps packet (.ok fixup) := by
    intro keeps
    rw [keeps fixup rfl] at rewritten
    cases rewritten
  rcases swapKernel_cases h with
    ⟨-, keeps⟩ | ⟨known, cache, alternative, dispatcher, present, found, ⟨-, keeps⟩ | ⟨-, instrumented, swapped⟩⟩
  · exact absurd keeps kept
  · exact absurd keeps kept
  · obtain ⟨clone, visible, rewrites⟩ := instrument_rewrites swapped
    rw [findKernelAlternative_visible found instrumented] at visible
    exact ⟨known, clone, present, visible, rewrites⟩

theorem fixupPacket_rewrites {fixup : Fixup}
    (h : fixupPacket rt env icpt packet queue dispatchId = (icpt', .ok (some fixup)))
    (rewritten : fixup.instrumented.isSome) :
    ∃ known clone, icpt.kernelObjects[packet.kernelObject]? = some known ∧
      cloneDescriptor rt icpt.kernelCache (icpt.queues[queue]?.getD 0) known.name = some clone ∧
      RewrittenFor clone packet fixup.packet := by
  rcases fixupPacket_cases h with
    ⟨-, fails⟩ | ⟨sig, swapped, result, -, swap, ⟨-, fails⟩ | ⟨fixup', rfl, -, returned⟩⟩
  · exact absurd rfl (fails _)
  · exact absurd rfl (fails _)
  · obtain rfl := Option.some.inj (Outcome.ok.inj returned)
    obtain ⟨known, clone, present, visible, rewrites⟩ := swapKernel_rewrites swap rewritten
    refine ⟨known, clone, present, visible, ?_⟩
    unfold RewrittenFor at rewrites ⊢
    rw [rewrites]

end

/-! ### What the application asked for -/

/-- The bytes asked for at launch, beyond the fixed size of the kernel. -/
def requestedAtLaunch (asked : UInt32) (fixed : UInt64) : Nat := asked.toNat - fixed.toNat

/-- The rewritten packet leaves room for the clone and for what was asked for at launch, and every
field that is not about the kernel, its arguments or its completion is the application's. -/
structure KeepsRequest (original clone : KernelMetadata) (packet written : Packet) : Prop where
  privateSegment : clone.privateSegmentFixedSize.toNat +
    requestedAtLaunch packet.privateSegmentSize original.privateSegmentFixedSize ≤ written.privateSegmentSize.toNat
  groupSegment : clone.groupSegmentFixedSize.toNat +
    requestedAtLaunch packet.groupSegmentSize original.groupSegmentFixedSize ≤ written.groupSegmentSize.toNat
  others : written =
    { packet with
      kernelObject := written.kernelObject
      kernargAddress := written.kernargAddress
      completionSignal := written.completionSignal
      privateSegmentSize := written.privateSegmentSize
      groupSegmentSize := written.groupSegmentSize }

/-- Nothing is asked for at launch, and the clone's sizes fit the fields of a packet. -/
structure AsksFixedOnly (original clone : KernelMetadata) (packet : Packet) : Prop where
  privateSegment : packet.privateSegmentSize.toNat ≤ original.privateSegmentFixedSize.toNat
  groupSegment : packet.groupSegmentSize.toNat ≤ original.groupSegmentFixedSize.toNat
  privateFits : clone.privateSegmentFixedSize.toNat < 2 ^ 32
  groupFits : clone.groupSegmentFixedSize.toNat < 2 ^ 32

theorem truncated_covers_iff (fixed : UInt64) (extra : Nat) :
    fixed.toNat + extra ≤ fixed.toUInt32.toNat ↔ extra = 0 ∧ fixed.toNat < 2 ^ 32 := by
  rw [UInt64.toNat_toUInt32]
  constructor
  · intro covers
    have below := Nat.mod_lt fixed.toNat (show 0 < 2 ^ 32 by decide)
    have atMost := Nat.mod_le fixed.toNat (2 ^ 32)
    omega
  · rintro ⟨rfl, small⟩
    rw [Nat.mod_eq_of_lt small, Nat.add_zero]

/-- A dispatch that is rewritten keeps the memory the application asked for exactly when it asked for
no more than the original's fixed sizes. -/
theorem fixupPacket_keepsRequest_iff {rt : Runtime} {env : FixupEnv} {icpt icpt' : Interceptor} {packet : Packet}
    {queue : Queue} {dispatchId : UInt64} {fixup : Fixup} (known : LdKernelDescriptor)
    (original clone : KernelMetadata)
    (returned : fixupPacket rt env icpt packet queue dispatchId = (icpt', .ok (some fixup)))
    (rewritten : fixup.instrumented.isSome) (kernel : icpt.kernelObjects[packet.kernelObject]? = some known)
    (described : cloneDescriptor rt icpt.kernelCache (icpt.queues[queue]?.getD 0) known.name =
      some (kernargDescriptor clone)) :
    KeepsRequest original clone packet fixup.packet ↔ AsksFixedOnly original clone packet := by
  obtain ⟨known', desc, present, visible, rewrites⟩ := fixupPacket_rewrites returned rewritten
  cases kernel.symm.trans present
  cases described.symm.trans visible
  obtain ⟨privateSize, groupSize⟩ := kernargDescriptor_segments clone
  have privateField : fixup.packet.privateSegmentSize = clone.privateSegmentFixedSize.toUInt32 := by
    rw [rewrites, ← privateSize]
  have groupField : fixup.packet.groupSegmentSize = clone.groupSegmentFixedSize.toUInt32 := by
    rw [rewrites, ← groupSize]
  have nothing : ∀ (asked : UInt32) (fixed : UInt64),
      requestedAtLaunch asked fixed = 0 ↔ asked.toNat ≤ fixed.toNat := by
    intro asked fixed
    exact Nat.sub_eq_zero_iff_le
  constructor
  · rintro ⟨privateKept, groupKept, -⟩
    rw [privateField, truncated_covers_iff, nothing] at privateKept
    rw [groupField, truncated_covers_iff, nothing] at groupKept
    exact ⟨privateKept.1, groupKept.1, privateKept.2, groupKept.2⟩
  · rintro ⟨privateFixed, groupFixed, privateFits, groupFits⟩
    refine ⟨?_, ?_, ?_⟩
    · rw [privateField, truncated_covers_iff, nothing]
      exact ⟨privateFixed, privateFits⟩
    · rw [groupField, truncated_covers_iff, nothing]
      exact ⟨groupFixed, groupFits⟩
    · rw [privateField, groupField, ← privateSize, ← groupSize]
      exact rewrites

theorem fixupPacket_keepsRequest_sample :
    ∃ icpt' fixup, fixupPacket Sample.runtime (Sample.answers 0) Sample.interceptor Sample.dispatch 1 1 =
        (icpt', .ok (some fixup)) ∧
      KeepsRequest KernargLayout.sampleOriginal KernargLayout.sampleClone Sample.dispatch fixup.packet := by
  have returned : fixupPacket Sample.runtime (Sample.answers 0) Sample.interceptor Sample.dispatch 1 1 =
      (_, .ok (some _)) := rfl
  refine ⟨_, _, returned, ?_⟩
  exact (fixupPacket_keepsRequest_iff (reportedKernel Sample.runtime 10) KernargLayout.sampleOriginal
    KernargLayout.sampleClone returned rfl (by decide) (by decide)).mpr ⟨by decide, by decide, by decide, by decide⟩

/-- A launch with 1024 bytes of dynamic group memory. -/
def Sample.sharedDispatch : Packet := { Sample.dispatch with groupSegmentSize := 32 + 1024 }

/-- The 1024 bytes are gone from the rewritten packet. -/
theorem fixupPacket_drops_dynamicMemory :
    ¬∀ (rt : Runtime) (env : FixupEnv) (icpt icpt' : Interceptor) (packet : Packet) (queue : Queue)
      (dispatchId : UInt64) (fixup : Fixup) (known : LdKernelDescriptor) (original clone : KernelMetadata),
      fixupPacket rt env icpt packet queue dispatchId = (icpt', .ok (some fixup)) →
      fixup.instrumented.isSome →
      icpt.kernelObjects[packet.kernelObject]? = some known →
      cloneDescriptor rt icpt.kernelCache (icpt.queues[queue]?.getD 0) known.name =
        some (kernargDescriptor clone) →
      find₂ icpt.kernelCache.argMap (icpt.queues[queue]?.getD 0) known.name = some (kernargDescriptor original) →
      KeepsRequest original clone packet fixup.packet := by
  intro claim
  have kept := claim Sample.runtime (Sample.answers 0) Sample.interceptor _ Sample.sharedDispatch 1 1 _
    (reportedKernel Sample.runtime 10) KernargLayout.sampleOriginal KernargLayout.sampleClone rfl rfl (by decide)
    (by decide) (by decide)
  exact absurd kept.groupSegment (by decide)

end Omniprobe
