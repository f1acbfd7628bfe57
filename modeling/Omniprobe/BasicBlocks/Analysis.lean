import Omniprobe.Lib.Maps
import Omniprobe.Lib.Text

/-!
# The basic block analysis

`basic_block_analysis`: each message says that a wave starts a block. The time to the wave's next
message is counted for the block it was in.
-/

namespace Omniprobe.BasicBlocks
open Lib Std

/-! ### Messages -/

/-- The fields of `waveIdentifier_t`. -/
@[ext]
structure WaveFields where
  blockX : UInt32
  blockY : UInt32
  blockZ : UInt32
  waveId : UInt8
  deriving DecidableEq, Repr

/-- `waveIdentifier_t`. Three bytes stand behind its fields that nothing sets and that `wave_cmp` compares. -/
@[ext]
structure WaveIdentifier extends WaveFields where
  padding : UInt8 × UInt8 × UInt8
  deriving DecidableEq, Repr

/-- `workgroup_id_t`. -/
@[ext]
structure WorkgroupId where
  x : UInt16
  y : UInt16
  z : UInt16
  deriving DecidableEq, Repr

def WaveIdentifier.bytes (wave : WaveIdentifier) : List UInt32 :=
  [wave.blockX, wave.blockY, wave.blockZ, wave.waveId.toUInt32, wave.padding.1.toUInt32, wave.padding.2.1.toUInt32,
    wave.padding.2.2.toUInt32]

def WorkgroupId.fields (wg : WorkgroupId) : List UInt16 := [wg.x, wg.y, wg.z]

theorem toUInt32_injective {first second : UInt8} (same : first.toUInt32 = second.toUInt32) : first = second := by
  apply UInt8.toNat_inj.mp
  simpa using congrArg UInt32.toNat same

theorem WaveIdentifier.bytes_injective {first second : WaveIdentifier} (same : first.bytes = second.bytes) :
    first = second := by
  simp only [bytes, List.cons.injEq, and_true] at same
  obtain ⟨x, y, z, wave, one, two, three⟩ := same
  have padding : first.padding = second.padding :=
    Prod.ext (toUInt32_injective one) (Prod.ext (toUInt32_injective two) (toUInt32_injective three))
  exact WaveIdentifier.ext x y z (toUInt32_injective wave) padding

theorem WorkgroupId.fields_injective {first second : WorkgroupId} (same : first.fields = second.fields) :
    first = second := by
  simp only [fields, List.cons.injEq, and_true] at same
  exact WorkgroupId.ext same.1 same.2.1 same.2.2

/-- `wave_cmp`. Only the order of iteration depends on how keys that differ compare. -/
instance : Ord WaveIdentifier := ⟨compareOn WaveIdentifier.bytes⟩

instance : TransOrd WaveIdentifier := inferInstanceAs (TransCmp (compareOn WaveIdentifier.bytes))

instance : LawfulEqOrd WaveIdentifier where
  eq_of_compare {first second} same := by
    have bytes : compare first.bytes second.bytes = .eq := same
    exact WaveIdentifier.bytes_injective (LawfulEqCmp.eq_of_compare bytes)

instance : Ord WorkgroupId := ⟨compareOn WorkgroupId.fields⟩

instance : TransOrd WorkgroupId := inferInstanceAs (TransCmp (compareOn WorkgroupId.fields))

instance : LawfulEqOrd WorkgroupId where
  eq_of_compare {first second} same := by
    have fields : compare first.fields second.fields = .eq := same
    exact WorkgroupId.fields_injective (LawfulEqCmp.eq_of_compare fields)

/-- The fields of `wave_header_t` that the analysis reads, and what it finds on the stack. -/
structure Message where
  blockIdxX : UInt16
  blockIdxY : UInt16
  blockIdxZ : UInt16
  waveNum : UInt8
  xccId : UInt16
  seId : UInt16
  cuId : UInt16
  userType : UInt32
  /-- The index of the block. -/
  userData : UInt32
  exec : UInt64
  timestamp : UInt64
  /-- The padding bytes of the key that `handle` makes for the message. -/
  padding : UInt8 × UInt8 × UInt8
  deriving DecidableEq, Repr

def Message.wave (hdr : Message) : WaveFields :=
  ⟨hdr.blockIdxX.toUInt32, hdr.blockIdxY.toUInt32, hdr.blockIdxZ.toUInt32, hdr.waveNum⟩

/-- The key of `wave_states_`. -/
def Message.identifier (hdr : Message) : WaveIdentifier := { hdr.wave with padding := hdr.padding }

theorem Message.wave_of_identifier {first second : Message} (same : first.identifier = second.identifier) :
    first.wave = second.wave := congrArg WaveIdentifier.toWaveFields same

def Message.workgroup (hdr : Message) : WorkgroupId := ⟨hdr.blockIdxX, hdr.blockIdxY, hdr.blockIdxZ⟩

/-- An instruction of a block, with the block it belongs to. -/
structure Instruction where
  inst : Text
  block : UInt32
  deriving DecidableEq, Repr

/-- What `kernelDB` and `dh_comms` answer. -/
structure Env where
  hasKdb : Bool
  /-- `getKernel(kernel_name_).getBasicBlocks()`; `none` where it throws. -/
  basicBlocks : Option (List (List Instruction))
  isTimeInterval : UInt32 → Bool

/-! ### The state -/

structure BlockInfo where
  threadCount : UInt64
  count : UInt64
  duration : UInt64
  dwarfLine : UInt32
  deriving DecidableEq, Repr

structure WaveState where
  currentBlock : UInt32
  startTime : UInt64
  count : UInt64
  deriving DecidableEq, Repr

/-- Wave numbers by XCC, shader engine, compute unit and workgroup. -/
abbrev ComputeResources := Map UInt16 (Map UInt16 (Map UInt16 (Map WorkgroupId (Finset UInt16))))

structure Analysis where
  strKernel : Text := []
  dispatchId : UInt64 := 0
  messageCount : UInt64 := 0
  waveStates : Map WaveIdentifier WaveState := ∅
  blockInfo : Map UInt32 BlockInfo := ∅
  blocksSeen : Finset UInt32 := ∅
  computeResources : ComputeResources := ∅

/-! ### One message -/

def countSetBitsLoop : Nat → UInt64 → UInt32 → UInt32
  | 0, _, count => count
  | fuel + 1, mask, count =>
    if mask = 0 then count else countSetBitsLoop fuel (mask >>> 1) (count + (mask &&& 1).toUInt32)

/-- The loop ends when no bit is left, after 64 rounds at most. -/
def countSetBits (mask : UInt64) : UInt32 := countSetBitsLoop 64 mask 0

/-- A wave number is added to the set at its place; the maps on the way are made where they are missing. -/
def updateComputeResources (resources : ComputeResources) (hdr : Message) : ComputeResources :=
  upsert resources hdr.xccId fun ses =>
    upsert (ses.getD ∅) hdr.seId fun cus =>
      upsert (cus.getD ∅) hdr.cuId fun wgs =>
        upsert (wgs.getD ∅) hdr.workgroup fun waves => insert hdr.waveNum.toUInt16 (waves.getD ∅)

/-- `instructions[instructions.size() - 1].inst_ == "s_endpgm"`. -/
def endsProgram (instructions : List Instruction) : Bool :=
  instructions.getLast?.any fun instruction => instruction.inst = "s_endpgm".toList

/-- The block a wave was in gets the time up to the wave's next message. -/
def addVisit (info : Option BlockInfo) (state : WaveState) (hdr : Message) : BlockInfo :=
  match info with
  | some info =>
    { info with
      count := info.count + state.count
      threadCount := info.threadCount + (countSetBits hdr.exec).toUInt64
      duration := info.duration + (hdr.timestamp - state.startTime) }
  | none => ⟨(countSetBits hdr.exec).toUInt64, 1, hdr.timestamp - state.startTime, 0⟩

namespace Analysis

def enterBlock (analysis : Analysis) (instructions : List Instruction) (hdr : Message) : Analysis :=
  let entered : WaveState := ⟨hdr.userData, hdr.timestamp, 1⟩
  match analysis.waveStates[hdr.identifier]? with
  | some state =>
    { analysis with
      blockInfo := upsert analysis.blockInfo state.currentBlock fun info => addVisit info state hdr
      waveStates :=
        if endsProgram instructions then analysis.waveStates.erase hdr.identifier
        else analysis.waveStates.insert hdr.identifier entered }
  | none => { analysis with waveStates := analysis.waveStates.insert hdr.identifier entered }

/-- `none` where an assertion fails. -/
def handle (env : Env) (analysis : Analysis) (hdr : Message) : Option (Analysis × Bool) :=
  if env.hasKdb then
    let analysis :=
      { analysis with
        messageCount := analysis.messageCount + 1
        computeResources := updateComputeResources analysis.computeResources hdr }
    match env.basicBlocks with
    | none => some (analysis, false)
    | some blocks =>
      match blocks[hdr.userData.toNat]? with
      | none => none
      | some instructions =>
        if instructions.isEmpty then some (analysis, true)
        else if env.isTimeInterval hdr.userType then none
        else
          let seen := { analysis with
            blocksSeen := (instructions.map Instruction.block).foldl (fun seen block => insert block seen)
              analysis.blocksSeen }
          some (seen.enterBlock instructions hdr, true)
  else some (analysis, true)

def clear (analysis : Analysis) : Analysis := { analysis with strKernel := [], dispatchId := 0 }

end Analysis

end Omniprobe.BasicBlocks
