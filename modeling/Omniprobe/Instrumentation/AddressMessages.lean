import Omniprobe.Instrumentation.IR
import Omniprobe.Lib.Run
import Omniprobe.Lib.Nodes

/-!
# The address message pass

`AMDGCNSubmitAddressMessage`: before each load, store and buffer intrinsic in scope it inserts a call
of `v_submit_address`. The instructions are inserted into the list that the pass iterates over.
-/

namespace Omniprobe.Instrumentation
open Lib Scope

/-! ### The accesses -/

def isBufferLoadName (name : Text) : Bool :=
  "llvm.amdgcn.raw.ptr.buffer.load".toList.isPrefixOf name || "llvm.amdgcn.struct.ptr.buffer.load".toList.isPrefixOf name

def isBufferStoreName (name : Text) : Bool :=
  "llvm.amdgcn.raw.ptr.buffer.store".toList.isPrefixOf name ||
    "llvm.amdgcn.struct.ptr.buffer.store".toList.isPrefixOf name

def isAMDGCNBufferLoad : Op → Bool
  | .call (some name) _ => isBufferLoadName name
  | _ => false

def isAMDGCNBufferStore : Op → Bool
  | .call (some name) _ => isBufferStoreName name
  | _ => false

def isMakeBufferRsrc (name : Text) : Bool := "llvm.amdgcn.make.buffer.rsrc".toList.isPrefixOf name

def submitAddress : Text := "v_submit_address".toList

/-! ### The injected instructions -/

/-- The call at the end of both routines. -/
def Builder.createSubmit (llvm : LLVM) (builder : Builder) (ptr addr64 : Value) (accessType addressSpace : Nat)
    (dataType : Ty) : Builder :=
  let dbgFile :=
    match builder.debugLoc with
    | some loc => getFullPath loc
    | none => "<unknown source file>".toList
  let line := (builder.debugLoc.map DebugLoc.line).getD 0
  let column := (builder.debugLoc.map DebugLoc.column).getD 0
  (builder.insert (.other 0) (.call (some submitAddress)
    [ptr, addr64, .int 64 (llvm.hash dbgFile).toNat, .int 32 line.toNat, .int 32 column.toNat, .int 8 accessType,
      .int 8 (addressSpace % 2 ^ 8), .int 16 (llvm.typeStoreSize dataType % 2 ^ 16)])).1

/-- Of a load or a store. -/
def injectInstrumentationFunction (llvm : LLVM) (ptr : Value) (builder : Builder) (inst : Instruction) : Builder :=
  match inst.op with
  | .load pointer =>
    let (builder, addr64) := builder.createPointerCast llvm pointer ptr.ty
    builder.createSubmit llvm ptr addr64 0b01 (llvm.strippedAddressSpace pointer).toNat inst.ty
  | .store value pointer =>
    let (builder, addr64) := builder.createPointerCast llvm pointer ptr.ty
    builder.createSubmit llvm ptr addr64 0b10 (llvm.strippedAddressSpace pointer).toNat value.ty
  | _ => builder

/-- The instruction that computes a value. -/
def definition (blocks : List (List Instruction)) : Value → Option Instruction
  | .result id _ => blocks.flatten.find? (·.id = id)
  | _ => none

/-- The pointer that `make.buffer.rsrc` was called with, or null; `none` where the call has no operand. -/
def originalPointer (blocks : List (List Instruction)) (bufferDesc : Value) : Option Value :=
  match (definition blocks bufferDesc).map Instruction.op with
  | some (.call (some name) args) => if isMakeBufferRsrc name then args[0]? else some (.null 1)
  | _ => some (.null 1)

/-- The operands of a buffer intrinsic that are used: the descriptor, the offset and the type of the data. A store
has its data before them. `none` where an operand is missing. -/
def bufferOperands (inst : Instruction) (args : List Value) (isLoad : Bool) : Option (Value × Value × Ty) :=
  match isLoad, args with
  | true, bufferDesc :: offset :: _ => some (bufferDesc, offset, inst.ty)
  | false, data :: bufferDesc :: offset :: _ => some (bufferDesc, offset, data.ty)
  | _, _ => none

/-- The base pointer plus the offset, as a pointer. -/
def actualAddress (llvm : LLVM) (builder : Builder) (origPtr offset : Value) : Builder × Value :=
  let (builder, ptrAsInt) := builder.createCast llvm .ptrToInt origPtr (.int 64)
  let (builder, offsetExt) := builder.createCast llvm .sExt offset (.int 64)
  let (builder, actualAddrInt) := builder.createAdd llvm ptrAsInt offsetExt
  builder.createCast llvm .intToPtr actualAddrInt (.ptr 0)

/-- The address with the type of `ptr`. -/
def bufferAddress (llvm : LLVM) (ptr : Value) (builder : Builder) (origPtr offset : Value) : Builder × Value :=
  let (builder, actualAddr) := actualAddress llvm builder origPtr offset
  if actualAddr.ty ≠ ptr.ty then builder.createCast llvm .bitCast actualAddr ptr.ty else (builder, actualAddr)

/-- Of a buffer intrinsic. -/
def injectBufferInstrumentationFunction (llvm : LLVM) (blocks : List (List Instruction)) (ptr : Value)
    (builder : Builder) (inst : Instruction) (args : List Value) (isLoad : Bool) : Option Builder := do
  let (bufferDesc, offset, dataType) ← bufferOperands inst args isLoad
  let origPtr ← originalPointer blocks bufferDesc
  let (builder, addr64) := bufferAddress llvm ptr builder origPtr offset
  return builder.createSubmit llvm ptr addr64 (if isLoad then 0b01 else 0b10) 1 dataType

def inScope (scope : InstrumentationScope) (inst : Instruction) : Bool :=
  !scope.isActive || inst.debugLoc.any fun loc => scope.matches (getFullPath loc) loc.line

/-- The body of the loop: what is inserted before the instruction; `none` where an assertion fails. -/
def instrument (llvm : LLVM) (scope : InstrumentationScope) (ptr : Value) (blocks : List (List Instruction))
    (nextId : Nat) (inst : Instruction) : Option Builder :=
  let builder : Builder := { nextId, debugLoc := inst.debugLoc }
  if !inScope scope inst then some builder
  else
    match inst.op with
    | .load _ => some (injectInstrumentationFunction llvm ptr builder inst)
    | .store _ _ => some (injectInstrumentationFunction llvm ptr builder inst)
    | .call _ args =>
      if isAMDGCNBufferLoad inst.op then injectBufferInstrumentationFunction llvm blocks ptr builder inst args true
      else if isAMDGCNBufferStore inst.op then
        injectBufferInstrumentationFunction llvm blocks ptr builder inst args false
      else some builder
    | _ => some builder

/-! ### The loop -/

/-- The function and the two iterators of the loop: a block's position, and an instruction's number. -/
structure PassState where
  blocks : List (List Instruction)
  nextId : Nat
  bb : Nat
  inst : Option Nat

def firstInstruction (blocks : List (List Instruction)) (bb : Nat) : Option Nat :=
  blocks[bb]?.bind (firstNode Instruction.id)

/-- A round of the inner loop, or the step to the next block. `none` when the loop is left (`bb` is at the end), or
where an assertion fails. -/
def PassState.step (llvm : LLVM) (scope : InstrumentationScope) (ptr : Value) (state : PassState) : Option PassState :=
  match state.blocks[state.bb]?, state.inst with
  | none, _ => none
  | some _, none =>
    some { state with bb := state.bb + 1, inst := firstInstruction state.blocks (state.bb + 1) }
  | some block, some id => do
    let inst ← block.find? (·.id = id)
    let builder ← instrument llvm scope ptr state.blocks state.nextId inst
    let block := insertBefore Instruction.id id builder.inserted block
    return {
      blocks := state.blocks.set state.bb block
      nextId := builder.nextId
      bb := state.bb
      inst := nextNode Instruction.id id block }

/-- The operands that the pass reads are there. -/
def Op.OperandsPresent : Op → Prop
  | .call (some name) args =>
    (isBufferLoadName name → 2 ≤ args.length) ∧ (isBufferStoreName name → 3 ≤ args.length) ∧
      (isMakeBufferRsrc name → 1 ≤ args.length)
  | _ => True

/-- A clone as the pass gets it: its instructions are different objects, and intrinsics have their operands. -/
structure KernelClone where
  blocks : List (List Instruction)
  nextId : Nat
  distinct : (blocks.flatten.map Instruction.id).Nodup
  below : ∀ inst ∈ blocks.flatten, inst.id < nextId
  operands : ∀ inst ∈ blocks.flatten, inst.op.OperandsPresent

def KernelClone.start (clone : KernelClone) : PassState := ⟨clone.blocks, clone.nextId, 0, firstInstruction clone.blocks 0⟩

/-! ### What the pass is for -/

/-- The kind that is submitted for an access; `none` for other instructions. -/
def Op.accessKind (op : Op) : Option Nat :=
  match op with
  | .load _ => some 0b01
  | .store _ _ => some 0b10
  | _ => if isAMDGCNBufferLoad op then some 0b01 else if isAMDGCNBufferStore op then some 0b10 else none

/-- An access in scope. -/
def covered (scope : InstrumentationScope) (inst : Instruction) : Bool := inst.op.accessKind.isSome && inScope scope inst

def Instruction.isSubmit (inst : Instruction) : Bool :=
  match inst.op with
  | .call (some name) _ => name = submitAddress
  | _ => false

/-- The call submits the kind, line and column of the access. -/
def Carries (inst call : Instruction) : Prop :=
  ∃ (kind : Nat) (ptr addr hash space size : Value), inst.op.accessKind = some kind ∧
    call.op = .call (some submitAddress)
      [ptr, addr, hash, .int 32 ((inst.debugLoc.map DebugLoc.line).getD 0).toNat,
        .int 32 ((inst.debugLoc.map DebugLoc.column).getD 0).toNat, .int 8 kind, space, size]

/-- What the pass inserts before an instruction: for an access in scope its one call, and otherwise nothing. -/
structure Group (scope : InstrumentationScope) (firstNew : Nat) (inst : Instruction) (inserted : List Instruction) :
    Prop where
  new : ∀ other ∈ inserted, firstNew ≤ other.id
  uncovered : covered scope inst = false → inserted = []
  called : covered scope inst = true → ∃ call, inserted.filter Instruction.isSubmit = [call] ∧ Carries inst call

/-- The instructions of a block, each with what the pass inserts before it. -/
inductive InstrumentedBlock (scope : InstrumentationScope) (firstNew : Nat) : List Instruction → List Instruction → Prop where
  | nil : InstrumentedBlock scope firstNew [] []
  | cons {inst : Instruction} {inserted rest rest' : List Instruction} (group : Group scope firstNew inst inserted)
      (later : InstrumentedBlock scope firstNew rest rest') :
      InstrumentedBlock scope firstNew (inst :: rest) (inserted ++ inst :: rest')

/-- The clone with a call before each access in scope, and nothing else changed. -/
structure Instrumented (scope : InstrumentationScope) (clone : KernelClone) (after : List (List Instruction)) : Prop where
  kept : after.map (·.filter fun inst => inst.id < clone.nextId) = clone.blocks
  calls : List.Forall₂ Carries (clone.blocks.flatten.filter (covered scope))
    (after.flatten.filter fun inst => clone.nextId ≤ inst.id ∧ inst.isSubmit)
  placed : List.Forall₂ (InstrumentedBlock scope clone.nextId) clone.blocks after

/-! ### What is inserted before one instruction -/

theorem isSubmit_of_helper {inst : Instruction} (helper : Builder.IsHelper inst.op) : inst.isSubmit = false := by
  unfold Instruction.isSubmit
  generalize inst.op = op at helper
  cases op with
  | call => exact helper.elim
  | _ => rfl

theorem operandsPresent_of_helper {op : Op} (helper : Builder.IsHelper op) : op.OperandsPresent := by
  cases op with
  | call => exact helper.elim
  | _ => trivial

theorem operandsPresent_submit (args : List Value) : (Op.call (some submitAddress) args).OperandsPresent := by
  have other : isBufferLoadName submitAddress = false ∧ isBufferStoreName submitAddress = false ∧
      isMakeBufferRsrc submitAddress = false := by decide
  obtain ⟨load, store, rsrc⟩ := other
  refine ⟨fun named => ?_, fun named => ?_, fun named => ?_⟩
  · cases load.symm.trans named
  · cases store.symm.trans named
  · cases rsrc.symm.trans named

/-- What a round of the loop inserts before an instruction. -/
structure Inserts (scope : InstrumentationScope) (nextId : Nat) (inst : Instruction) (after : Builder) : Prop where
  group : Group scope nextId inst after.inserted
  nextId : nextId ≤ after.nextId
  operands : ∀ other ∈ after.inserted, other.op.OperandsPresent

section
variable {scope : InstrumentationScope} {nextId : Nat} {inst : Instruction}

theorem inserts_nothing (uncovered : covered scope inst = false) :
    Inserts scope nextId inst { nextId, debugLoc := inst.debugLoc } := by
  refine ⟨⟨List.forall_mem_nil _, fun _ => rfl, fun impossible => ?_⟩, Nat.le_refl _, List.forall_mem_nil _⟩
  cases uncovered.symm.trans impossible

theorem inserts_submit {llvm : LLVM} {ptr addr64 : Value} {kind addressSpace : Nat} {dataType : Ty} {builder : Builder}
    (extended : Builder.Extends { nextId, debugLoc := inst.debugLoc } builder) (access : inst.op.accessKind = some kind)
    (within : inScope scope inst = true) :
    Inserts scope nextId inst (builder.createSubmit llvm ptr addr64 kind addressSpace dataType) := by
  obtain ⟨helpers, inserted, new⟩ := extended.inserted
  rw [List.nil_append] at inserted
  have later : nextId ≤ builder.nextId := extended.nextId
  have isCovered : covered scope inst = true := by rw [covered, access, within]; rfl
  unfold Builder.createSubmit Builder.insert
  simp only [inserted, extended.debugLoc]
  refine ⟨⟨?_, ?_, fun _ => ?_⟩, Nat.le_succ_of_le later, ?_⟩
  · refine List.forall_mem_append.mpr ⟨fun other member => (new other member).1, ?_⟩
    exact List.forall_mem_singleton.mpr later
  · intro impossible
    cases isCovered.symm.trans impossible
  · have none : helpers.filter Instruction.isSubmit = [] := by
      rw [List.filter_eq_nil_iff]
      exact fun other member => by simp [isSubmit_of_helper (new other member).2]
    rw [List.filter_append, none, List.nil_append, List.filter_singleton]
    exact ⟨_, rfl, kind, ptr, addr64, _, _, _, access, rfl⟩
  · refine List.forall_mem_append.mpr ⟨fun other member => operandsPresent_of_helper (new other member).2, ?_⟩
    exact List.forall_mem_singleton.mpr (operandsPresent_submit _)

end

theorem injectInstrumentationFunction_inserts {llvm : LLVM} {scope : InstrumentationScope} {ptr : Value} {nextId : Nat}
    {inst : Instruction} (access : (∃ pointer, inst.op = .load pointer) ∨ ∃ value pointer, inst.op = .store value pointer)
    (within : inScope scope inst = true) :
    Inserts scope nextId inst (injectInstrumentationFunction llvm ptr { nextId, debugLoc := inst.debugLoc } inst) := by
  unfold injectInstrumentationFunction
  rcases access with ⟨pointer, load⟩ | ⟨value, pointer, store⟩
  · rw [load]
    exact inserts_submit (Builder.createPointerCast_extends ..) (by rw [load]; rfl) within
  · rw [store]
    exact inserts_submit (Builder.createPointerCast_extends ..) (by rw [store]; rfl) within

theorem originalPointer_some {blocks : List (List Instruction)} (operands : ∀ inst ∈ blocks.flatten, inst.op.OperandsPresent)
    (bufferDesc : Value) : ∃ origPtr, originalPointer blocks bufferDesc = some origPtr := by
  unfold originalPointer
  split
  · rename_i name args defined
    split
    · rename_i named
      obtain ⟨inst, found, called⟩ := Option.map_eq_some_iff.mp defined
      have member : inst ∈ blocks.flatten := by
        cases bufferDesc with
        | result id ty => exact List.mem_of_find?_eq_some found
        | _ => cases found
      have present := operands inst member
      rw [called] at present
      exact ⟨args.get ⟨0, present.2.2 named⟩, List.getElem?_eq_getElem _⟩
    · exact ⟨_, rfl⟩
  · exact ⟨_, rfl⟩

theorem actualAddress_extends (llvm : LLVM) (builder : Builder) (origPtr offset : Value) :
    builder.Extends (actualAddress llvm builder origPtr offset).1 := by
  unfold actualAddress
  refine .trans ?_ (Builder.createCast_extends ..)
  refine .trans ?_ (Builder.createAdd_extends ..)
  exact .trans (Builder.createCast_extends ..) (Builder.createCast_extends ..)

theorem bufferAddress_extends (llvm : LLVM) (ptr : Value) (builder : Builder) (origPtr offset : Value) :
    builder.Extends (bufferAddress llvm ptr builder origPtr offset).1 := by
  have address := actualAddress_extends llvm builder origPtr offset
  unfold bufferAddress
  simp only
  split
  · exact address.trans (Builder.createCast_extends ..)
  · exact address

theorem bufferOperands_some (inst : Instruction) {args : List Value} {isLoad : Bool}
    (enough : (if isLoad then 2 else 3) ≤ args.length) : ∃ operands, bufferOperands inst args isLoad = some operands := by
  cases isLoad with
  | true =>
    obtain ⟨bufferDesc, offset, rest, rfl⟩ : ∃ bufferDesc offset rest, args = bufferDesc :: offset :: rest := by
      match args, enough with
      | bufferDesc :: offset :: rest, _ => exact ⟨bufferDesc, offset, rest, rfl⟩
    exact ⟨_, rfl⟩
  | false =>
    obtain ⟨data, bufferDesc, offset, rest, rfl⟩ :
        ∃ data bufferDesc offset rest, args = data :: bufferDesc :: offset :: rest := by
      match args, enough with
      | data :: bufferDesc :: offset :: rest, _ => exact ⟨data, bufferDesc, offset, rest, rfl⟩
    exact ⟨_, rfl⟩

theorem injectBufferInstrumentationFunction_inserts {llvm : LLVM} {scope : InstrumentationScope} {ptr : Value}
    {blocks : List (List Instruction)} (operands : ∀ inst ∈ blocks.flatten, inst.op.OperandsPresent) {nextId : Nat}
    {inst : Instruction} {args : List Value} (isLoad : Bool) (enough : (if isLoad then 2 else 3) ≤ args.length)
    (access : inst.op.accessKind = some (if isLoad then 0b01 else 0b10)) (within : inScope scope inst = true) :
    ∃ after, injectBufferInstrumentationFunction llvm blocks ptr { nextId, debugLoc := inst.debugLoc } inst args isLoad =
      some after ∧ Inserts scope nextId inst after := by
  obtain ⟨⟨bufferDesc, offset, dataType⟩, read⟩ := bufferOperands_some inst enough
  obtain ⟨origPtr, traced⟩ := originalPointer_some operands bufferDesc
  rw [injectBufferInstrumentationFunction, read]
  simp only [traced, Option.bind_eq_bind, Option.bind_some, Option.pure_def]
  exact ⟨_, rfl, inserts_submit (bufferAddress_extends ..) access within⟩

/-- Every round goes through, and inserts what its instruction needs. -/
theorem instrument_inserts (llvm : LLVM) (scope : InstrumentationScope) (ptr : Value) {blocks : List (List Instruction)}
    (operands : ∀ inst ∈ blocks.flatten, inst.op.OperandsPresent) (nextId : Nat) {inst : Instruction}
    (present : inst.op.OperandsPresent) :
    ∃ after, instrument llvm scope ptr blocks nextId inst = some after ∧ Inserts scope nextId inst after := by
  unfold instrument
  by_cases within : inScope scope inst = true
  · simp only [within, Bool.not_true, Bool.false_eq_true, if_false]
    have other (none : inst.op.accessKind = none) : Inserts scope nextId inst { nextId, debugLoc := inst.debugLoc } :=
      inserts_nothing (by rw [covered, none]; rfl)
    split
    · rename_i pointer load
      exact ⟨_, rfl, injectInstrumentationFunction_inserts (.inl ⟨pointer, load⟩) within⟩
    · rename_i value pointer store
      exact ⟨_, rfl, injectInstrumentationFunction_inserts (.inr ⟨value, pointer, store⟩) within⟩
    · rename_i callee args call
      rw [call] at present other ⊢
      cases callee with
      | none => exact ⟨_, rfl, other rfl⟩
      | some name =>
        obtain ⟨enoughLoad, enoughStore, -⟩ := present
        by_cases load : isBufferLoadName name = true
        · have access : inst.op.accessKind = some 0b01 := by
            rw [call]
            exact if_pos load
          rw [if_pos (by exact load)]
          exact injectBufferInstrumentationFunction_inserts operands true (enoughLoad load) access within
        rw [if_neg (by exact load)]
        by_cases store : isBufferStoreName name = true
        · have access : inst.op.accessKind = some 0b10 := by
            rw [call]
            exact (if_neg load).trans (if_pos store)
          rw [if_pos (by exact store)]
          exact injectBufferInstrumentationFunction_inserts operands false (enoughStore store) access within
        · rw [if_neg (by exact store)]
          exact ⟨_, rfl, other ((if_neg load).trans (if_neg store))⟩
    · rename_i notLoad notStore notCall
      refine ⟨_, rfl, other ?_⟩
      cases kind : inst.op with
      | load pointer => exact (notLoad pointer kind).elim
      | store value pointer => exact (notStore value pointer kind).elim
      | call callee args => exact (notCall callee args kind).elim
      | _ => rfl
  · simp only [within, Bool.not_false, if_true]
    exact ⟨_, rfl, inserts_nothing (by rw [covered, Bool.eq_false_iff.mpr within, Bool.and_false])⟩

end Omniprobe.Instrumentation
