import Omniprobe.Instrumentation.AddressExecutions
import Omniprobe.Memory.Attribution

/-!
# Accesses counted from executions

From kernel to table: waves run a kernel with address messages, the messages arrive in any order, and the
memory analysis counts how often the waves of the kernel itself access global memory at each source position.
-/

namespace Omniprobe.Instrumentation.Accesses
open Lib Scope Memory

/-! ### Accesses of the kernel -/

/-- What the message of an access says apart from the address and the position. -/
structure Access where
  kind : Nat
  addressSpace : Nat
  dataType : Ty

/-- The access for which the pass inserts a call before the instruction. -/
def accessOf (llvm : LLVM) (scope : InstrumentationScope) (blocks : List (List Instruction)) (inst : Instruction) :
    Option Access :=
  if covered scope inst then
    match inst.op with
    | .load pointer => some ⟨0b01, (llvm.strippedAddressSpace pointer).toNat, inst.ty⟩
    | .store value pointer => some ⟨0b10, (llvm.strippedAddressSpace pointer).toNat, value.ty⟩
    | .call _ args =>
      match bufferOperands inst args (isAMDGCNBufferLoad inst.op) with
      | some (bufferDesc, _, dataType) =>
        (originalPointer blocks bufferDesc).map fun _ =>
          ⟨if isAMDGCNBufferLoad inst.op then 0b01 else 0b10, 1, dataType⟩
      | none => none
    | _ => none
  else none

/-- What the host receives for a call: the arguments, three of them packed into one word, and what the device adds. -/
structure Delivers (userType arch : UInt32) (args : List Nat) (message : Message) : Prop where
  args : ∃ ptr address kind addressSpace size,
    args = [ptr, address, message.header.dwarfFnameHash.toNat, message.header.dwarfLine.toNat,
      message.header.dwarfColumn.toNat, kind, addressSpace, size] ∧ message.rwKind.toNat = kind % 4 ∧
        message.mspace.toNat = addressSpace % 16 ∧ message.dataSize.toNat = size % 2 ^ 16
  userType : message.header.userType = userType
  arch : message.header.arch = arch

/-- A kind, an address space and a size in one word. -/
def userData (kind addressSpace size : Nat) : UInt32 := .ofNat (kind % 4 + addressSpace % 16 * 4 + size % 2 ^ 16 * 2 ^ 6)

/-- The message of an access, without lanes. -/
def Access.message (llvm : LLVM) (userType arch : UInt32) (inst : Instruction) (access : Access) : Message :=
  let (hash, line, column) := location llvm inst.debugLoc
  ⟨⟨userType, userData access.kind (access.addressSpace % 2 ^ 8) (llvm.typeStoreSize access.dataType % 2 ^ 16), 0, arch, hash,
    line, column⟩, []⟩

section
variable (message : Message)

theorem toNat_rwKind : message.rwKind.toNat = message.header.userData.toNat % 4 := by
  rw [Message.rwKind, UInt32.toNat_toUInt8, UInt32.toNat_and]
  have mask : message.header.userData.toNat &&& 3 = message.header.userData.toNat % 4 :=
    Nat.and_two_pow_sub_one_eq_mod _ 2
  simp only [UInt32.reduceToNat]
  omega

theorem toNat_mspace : message.mspace.toNat = message.header.userData.toNat / 4 % 16 := by
  rw [Message.mspace, UInt32.toNat_toUInt8, UInt32.toNat_and, UInt32.toNat_shiftRight]
  have mask : message.header.userData.toNat / 4 &&& 15 = message.header.userData.toNat / 4 % 16 :=
    Nat.and_two_pow_sub_one_eq_mod _ 4
  simp only [UInt32.reduceToNat, Nat.reduceMod, Nat.shiftRight_eq_div_pow, Nat.reducePow]
  omega

theorem toNat_dataSize : message.dataSize.toNat = message.header.userData.toNat / 2 ^ 6 % 2 ^ 16 := by
  rw [Message.dataSize, UInt32.toNat_toUInt16, UInt32.toNat_and, UInt32.toNat_shiftRight]
  have mask : message.header.userData.toNat / 64 &&& 65535 = message.header.userData.toNat / 64 % 65536 :=
    Nat.and_two_pow_sub_one_eq_mod _ 16
  simp only [UInt32.reduceToNat, Nat.reduceMod, Nat.shiftRight_eq_div_pow, Nat.reducePow]
  omega

end

/-- What a message says apart from the lanes. -/
structure SameHeader (message other : Message) : Prop where
  userType : message.header.userType = other.header.userType
  arch : message.header.arch = other.header.arch
  position : SamePosition message other
  mspace : message.mspace = other.mspace
  dataSize : message.dataSize = other.dataSize

namespace SameHeader

section
variable {message other : Message}

variable (env : Env)

theorem location (same : SameHeader message other) : message.location env = other.location env := by
  rw [Message.location, Message.location, same.position.getDwarfInfo, same.position.line, same.position.column]

theorem kind (same : SameHeader message other) : message.kind env = other.kind env := by
  rw [Message.kind, Message.kind, same.position.getDwarfInfo, same.dataSize, same.position.rwKind]

theorem isGlobal (same : SameHeader message other) : message.isGlobal env ↔ other.isGlobal env := by
  rw [Message.isGlobal, Message.isGlobal, same.userType, same.mspace]

theorem unsupported (same : SameHeader message other) : message.unsupported env ↔ other.unsupported env := by
  rw [Message.unsupported, Message.unsupported, same.arch]

theorem withoutInstruction (same : SameHeader message other) :
    message.withoutInstruction env ↔ other.withoutInstruction env := by
  rw [Message.withoutInstruction, Message.withoutInstruction, same.position.getDwarfInfo]

end

end SameHeader

/-! ### The table -/

section
variable (env : Env)

/-- The message is counted where the accesses of its lines are not combined. -/
def Listed (message : Message) : Prop :=
  message.isGlobal env ∧ ¬message.unsupported env ∧ ¬message.withoutInstruction env

instance (message : Message) : Decidable (message.unsupported env) := inferInstanceAs (Decidable (_ = _))

instance (message : Message) : Decidable (Listed env message) := inferInstanceAs (Decidable (_ ∧ _))

/-- Where the accesses of an instruction are counted. -/
def entryOf (llvm : LLVM) (scope : InstrumentationScope) (userType arch : UInt32) (blocks : List (List Instruction))
    (inst : Instruction) : Option EntryKey :=
  (accessOf llvm scope blocks inst).bind fun access =>
    let message := access.message llvm userType arch inst
    if Listed env message then some ⟨.global, message.location env, message.kind env⟩ else none

/-- The handler takes the size of the access from the instruction. -/
def Corrects (kind : AccessKind) : Prop := kind.isaAccessSize ≠ 0 ∧ kind.isaAccessSize ≠ kind.irAccessSize

theorem Listed.namesFile {message : Message} (listed : Listed env message) (exact' : ¬Corrects (message.kind env)) :
    message.namesFile env := by
  obtain ⟨global, supported, found⟩ := listed
  refine ⟨global, fun dropped => ?_⟩
  rcases dropped with unsupported | without | combined
  · exact supported unsupported
  · exact found without
  · exact exact' combined.1

theorem SameHeader.listed {message other : Message} (same : SameHeader message other) :
    Listed env message ↔ Listed env other := by
  rw [Listed, Listed, same.isGlobal, same.unsupported, same.withoutInstruction]

section
variable {W : Type} {device : Device W} {llvm : LLVM} {scope : InstrumentationScope} {index : Nat} {userType arch : UInt32}
  {blocks : List (List Instruction)}

end

/-! ### Executions -/

/-- A wave, what it performs, and what the host receives from it. -/
structure WaveRun (W : Type) where
  first : Wave W
  events : List (Instruction × Wave W)
  history : List Message

section
variable {W : Type}

/-- The wave runs the instrumented kernel to its end. -/
structure Ran (device : Device W) (userType arch : UInt32) (firstNew : Nat) (program : List (List Instruction))
    (wave : WaveRun W) : Prop where
  known : wave.first.frame.constant = device.constant
  ended : ∃ last, Executes device.machine program (.enter program 0 wave.first) wave.events last ∧ last.todo = []
  delivered : List.Forall₂ (Delivers userType arch) (messages submitAddress firstNew wave.events) wave.history

/-- The wave runs the kernel itself to its end, with the same instructions of the kernel. -/
structure RanItself (device : Device W) (firstNew : Nat) (kernel : List (List Instruction)) (wave : WaveRun W)
    (original : List (Instruction × Wave W)) : Prop where
  ended : ∃ last, Executes device.machine kernel (.enter kernel 0 wave.first) original last ∧ last.todo = []
  same : own firstNew wave.events = original.map Prod.fst

variable {device : Device W} {llvm : LLVM} {scope : InstrumentationScope} {index firstNew : Nat} {userType arch : UInt32}
  {kernel program : List (List Instruction)}

/-- How often the entry's accesses are performed. -/
def performed (llvm : LLVM) (scope : InstrumentationScope) (userType arch : UInt32) (kernel : List (List Instruction))
    (events : List (Instruction × Wave W)) (key : EntryKey) : Nat :=
  events.countP fun event => entryOf env llvm scope userType arch kernel event.1 = some key

end

end

/-! ### Two waves that load a number each -/

namespace Sample
open Instrumentation.Sample (sending)

def llvm : LLVM := { foldsNothing with strippedAddressSpace := fun _ => 1 }

def load : Instruction := ⟨0, .int 32, .load (.argument 0 (.ptr 1)), none⟩

def ret : Instruction := ⟨1, .other 0, .other 3, none⟩

def clone : KernelClone where
  blocks := [[load, ret]]
  nextId := 2
  distinct := List.nodup_cons.mpr ⟨by decide, List.nodup_singleton _⟩
  below := List.forall_mem_cons.mpr ⟨by decide, List.forall_mem_singleton.mpr (by decide)⟩
  operands := List.forall_mem_cons.mpr ⟨trivial, List.forall_mem_singleton.mpr trivial⟩

def cast : Instruction := ⟨2, .ptr 0, .cast .addrSpaceCast (.argument 0 (.ptr 1)), none⟩

def call : Instruction :=
  ⟨3, .other 0, .call (some submitAddress)
    [bufferPtr 4, .result 2 (.ptr 0), .int 64 0, .int 32 0, .int 32 0, .int 8 1, .int 8 1, .int 16 4], none⟩

def final : PassState := ⟨[[cast, call, load, ret]], 4, 1, none⟩

theorem ended : Ends (PassState.step llvm {} (bufferPtr 4)) 3 clone.start final :=
  .round rfl (.round rfl (.round rfl (.stop rfl)))

def device : Device Nat := Instrumentation.Sample.device

theorem folds : device.Folds llvm :=
  ⟨⟨fun folds => (nomatch folds), fun folds => (nomatch folds)⟩, fun folded => (nomatch folded)⟩

theorem reads : ∀ inst ∈ clone.blocks.flatten, inst.op.ReadsBelow clone.nextId := by
  simp [clone, load, ret, Op.ReadsBelow, Op.operands, Value.Before]

theorem typed : ∀ inst ∈ clone.blocks.flatten, AccessesTyped clone.blocks inst := by
  refine List.forall_mem_cons.mpr ⟨⟨?_, nofun, nofun⟩, List.forall_mem_singleton.mpr ⟨nofun, nofun, nofun⟩⟩
  rintro pointer loads
  cases loads
  exact ⟨1, rfl⟩

def computed (messages : Nat) : Wave Nat := { sending messages with frame := (sending 0).frame.setResult 2 (2 ^ 32) }

def events : List (Instruction × Wave Nat) :=
  [(cast, sending 0), (call, computed 0), (load, computed 1), (ret, computed 1)]

def header : WaveHeader := ⟨1, 0b100_0001_01, 1, 0, 0, 0, 0⟩

def wave (address : UInt64) : WaveRun Nat := ⟨sending 0, events, [⟨header, [address]⟩]⟩

theorem executes : ∃ last, Executes device.machine final.blocks (.enter final.blocks 0 (sending 0)) events last ∧
    last.todo = [] := by
  refine ⟨⟨0, [], computed 1⟩, ?_, rfl⟩
  refine .step ⟨rfl, rfl⟩ (.step ⟨rfl, rfl⟩ ?_)
  exact .step ⟨rfl, rfl⟩ (.step ⟨rfl, rfl⟩ (.stop _))

theorem ran (address : UInt64) : Ran device 1 0 clone.nextId final.blocks (wave address) := by
  refine ⟨rfl, executes, ?_⟩
  have sends : messages submitAddress clone.nextId events = [[0, 2 ^ 32, 0, 0, 0, 1, 1, 4]] := by decide
  have packed : (Message.mk header [address]).rwKind.toNat = 1 ∧ (Message.mk header [address]).mspace.toNat = 1 ∧
      (Message.mk header [address]).dataSize.toNat = 4 := by
    rw [toNat_rwKind, toNat_mspace, toNat_dataSize]
    dsimp only
    decide
  exact sends ▸ .cons ⟨⟨0, 2 ^ 32, 1, 1, 4, rfl, packed⟩, rfl, rfl⟩ .nil

end Sample

end Omniprobe.Instrumentation.Accesses
