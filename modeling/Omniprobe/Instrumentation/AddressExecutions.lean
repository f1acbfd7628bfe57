import Omniprobe.Instrumentation.BufferAddress
import Omniprobe.Instrumentation.Coverage
import Omniprobe.Instrumentation.Executions

/-!
# Executions of kernels with address messages

Whatever the kernel instrumented by the address message pass does, the kernel does as well, and before each
access in scope one message with the address that is accessed is sent.
-/

namespace Omniprobe.Instrumentation
open Lib Scope

/-! ### What is expected -/

section
variable {W : Type}

/-- The address of a pointer in the flat address space. -/
def Device.flatAddress (device : Device W) (pointer : Value) (frame : Frame) : Nat :=
  if pointer.ty = .ptr 0 then pointer.eval frame
  else Ty.wrap (.ptr 0) (device.targetCast .addrSpaceCast pointer.ty (.ptr 0) (pointer.eval frame))

/-- What the call of `v_submit_address` for an access sends. -/
def addressFields (llvm : LLVM) (index : Nat) (inst : Instruction) (frame : Frame) (address kind addressSpace : Nat)
    (dataType : Ty) : List Nat :=
  let (hash, line, column) := location llvm inst.debugLoc
  [(bufferPtr index).eval frame, address, hash.toNat, line.toNat, column.toNat, kind, addressSpace % 2 ^ 8,
    llvm.typeStoreSize dataType % 2 ^ 16]

/-- What is sent before an instruction of the kernel: the address of a load or store, and for a buffer access the sum
of the base pointer and the operand behind the descriptor. -/
def submission (device : Device W) (llvm : LLVM) (scope : InstrumentationScope) (index : Nat)
    (blocks : List (List Instruction)) (inst : Instruction) (frame : Frame) : List (List Nat) :=
  if covered scope inst then
    match inst.op with
    | .load pointer =>
      [addressFields llvm index inst frame (device.flatAddress pointer frame) 0b01
        (llvm.strippedAddressSpace pointer).toNat inst.ty]
    | .store value pointer =>
      [addressFields llvm index inst frame (device.flatAddress pointer frame) 0b10
        (llvm.strippedAddressSpace pointer).toNat value.ty]
    | .call _ args =>
      match bufferOperands inst args (isAMDGCNBufferLoad inst.op) with
      | some (bufferDesc, offset, dataType) =>
        ((originalPointer blocks bufferDesc).map fun origPtr =>
          addressFields llvm index inst frame ((origPtr.eval frame + signExtended (offset.eval frame)) % 2 ^ 64)
            (if isAMDGCNBufferLoad inst.op then 0b01 else 0b10) 1 dataType).toList
      | none => []
    | _ => []
  else []

/-- Folding gives what the device would compute. -/
structure Device.Folds (device : Device W) (llvm : LLVM) : Prop where
  sound : llvm.FoldsSoundly device.constant
  space : ∀ {value ty folded}, llvm.foldCast .addrSpaceCast value ty = some folded →
    ∀ frame : Frame, frame.constant = device.constant →
      folded.eval frame = ty.wrap (device.targetCast .addrSpaceCast value.ty ty (value.eval frame))

/-- The addresses that the pass works on have their types. -/
structure AccessesTyped (blocks : List (List Instruction)) (inst : Instruction) : Prop where
  load : ∀ pointer, inst.op = .load pointer → ∃ space, pointer.ty = .ptr space
  store : ∀ value pointer, inst.op = .store value pointer → ∃ space, pointer.ty = .ptr space
  buffer : ∀ callee args, inst.op = .call callee args → ∀ bufferDesc offset dataType,
    bufferOperands inst args (isAMDGCNBufferLoad inst.op) = some (bufferDesc, offset, dataType) →
      offset.ty = .int 32 ∧ ∀ origPtr, originalPointer blocks bufferDesc = some origPtr → ∃ space, origPtr.ty = .ptr space

/-! ### Helpers that compute -/

/-- The target has no say in the number. -/
def Op.Computes (op : Op) (ty : Ty) : Prop := ∀ frame, ∃ n, op.compute frame ty = some n

theorem Device.computed_of_compute (device : Device W) {op : Op} {frame : Frame} {ty : Ty} {n : Nat}
    (computes : op.compute frame ty = some n) : device.computed frame ty op = some n := by
  cases op with
  | cast op value =>
    have applied : op.apply value.ty ty (value.eval frame) = some n := computes
    rw [Device.computed, applied, Option.getD_some]
  | add left right => exact computes
  | _ => cases computes

theorem straight_run {device : Device W} {block : Nat} {helpers : List Instruction} {wave last : Wave W}
    {events : List (Instruction × Wave W)} (computes : ∀ inst ∈ helpers, inst.op.Computes inst.ty)
    (ran : Straight device.machine block helpers wave events last) :
    last.frame = wave.frame.run helpers := by
  induction ran with
  | nil => rfl
  | @cons inst rest wave after last events performed _ ih =>
    obtain ⟨here, computes⟩ := List.forall_mem_cons.mp computes
    obtain ⟨n, number⟩ := here wave.frame
    unfold Device.machine at performed
    rw [device.computed_of_compute number] at performed
    obtain ⟨rfl, -⟩ := performed
    rw [ih computes]
    show _ = (wave.frame.execute inst).run rest
    rw [Frame.execute, number]
    rfl

namespace Builder

/-- All that is inserted computes. -/
def Computes (builder : Builder) : Prop := ∀ inst ∈ builder.inserted, inst.op.Computes inst.ty

theorem insert_computes {builder : Builder} (all : builder.Computes) {op : Op} {ty : Ty} (computes : op.Computes ty) :
    (builder.insert ty op).1.Computes :=
  List.forall_mem_append.mpr ⟨all, List.forall_mem_singleton.mpr computes⟩

theorem createCast_computes (llvm : LLVM) {builder : Builder} (all : builder.Computes) {op : CastOp} {value : Value}
    {destTy : Ty} (computes : (Op.cast op value).Computes destTy) :
    (builder.createCast llvm op value destTy).1.Computes := by
  unfold createCast
  split
  · exact all
  split
  · exact all
  · exact insert_computes all computes

theorem createAdd_computes (llvm : LLVM) {builder : Builder} (all : builder.Computes) (left right : Value) :
    (builder.createAdd llvm left right).1.Computes := by
  unfold createAdd
  split
  · exact all
  · exact insert_computes all fun frame => ⟨_, rfl⟩

end Builder

theorem actualAddress_computes (llvm : LLVM) {builder : Builder} (all : builder.Computes) (origPtr : Value) {offset : Value}
    (offsetTyped : offset.ty = .int 32) : (actualAddress llvm builder origPtr offset).1.Computes := by
  unfold actualAddress
  refine Builder.createCast_computes llvm ?_ fun frame => ⟨_, rfl⟩
  refine Builder.createAdd_computes llvm ?_ _ _
  refine Builder.createCast_computes llvm ?_ fun frame => ⟨signExtended (offset.eval frame), ?_⟩
  · exact Builder.createCast_computes llvm all fun frame => ⟨_, rfl⟩
  · rw [Op.compute, offsetTyped]
    rfl

/-! ### What is sent -/

section
variable {device : Device W} {llvm : LLVM} {index firstNew : Nat}

theorem messages_of_helpers {events : List (Instruction × Wave W)} (helpers : ∀ event ∈ events, Builder.IsHelper event.1.op) :
    messages submitAddress firstNew events = [] := by
  rw [messages, List.filterMap_eq_nil_iff]
  intro event member
  have helper := helpers event (List.mem_of_mem_filter member)
  unfold sent
  generalize event.1.op = op at helper
  cases op with
  | call => exact helper.elim
  | _ => rfl

/-- A straight run of an access's group: the helpers, and then the message. -/
theorem createSubmit_sends (submits : device.Submits firstNew submitAddress) {start builder : Builder}
    (empty : start.inserted = []) (extended : start.Extends builder)
    (older : firstNew ≤ start.nextId) {inst : Instruction} (located : start.debugLoc = inst.debugLoc) (addr64 : Value)
    {kind : Nat} (small : kind < 2 ^ 8) (addressSpace : Nat) (dataType : Ty) {block : Nat} {wave wave' last : Wave W}
    {events : List (Instruction × Wave W)} (same : Wave.Same device firstNew wave wave')
    (ran : Straight device.machine block
      (builder.createSubmit llvm (bufferPtr index) addr64 kind addressSpace dataType).inserted wave' events last) :
    ∃ before middle, Straight device.machine block builder.inserted wave' before middle ∧
      Wave.Same device firstNew wave middle ∧ messages submitAddress firstNew events =
        [addressFields llvm index inst wave.frame (addr64.eval middle.frame) kind addressSpace dataType] := by
  obtain ⟨helpers, inserted, new⟩ := extended.inserted
  rw [empty, List.nil_append] at inserted
  obtain ⟨before, after, middle, rfl, first, call⟩ := Straight.split builder.inserted ran
  have kept : Wave.Same device firstNew wave middle := by
    refine straight_same submits (fun other member => ?_) same first
    rw [inserted] at member
    exact ⟨older.trans (new other member).1, .inl (new other member).2⟩
  refine ⟨before, middle, first, kept, ?_⟩
  have nothing : messages submitAddress firstNew before = [] := by
    refine messages_of_helpers fun event member => ?_
    have within : event.1 ∈ builder.inserted := first.insts ▸ List.mem_map_of_mem member
    rw [inserted] at within
    exact (new _ within).2
  cases call with
  | cons _ none =>
    cases none
    have later : firstNew ≤ builder.nextId := older.trans extended.nextId
    have location : builder.debugLoc = inst.debugLoc := extended.debugLoc.trans located
    rw [messages_append, nothing, List.nil_append, messages, List.filter_cons_of_pos (by exact decide_eq_true later)]
    have buffer : (bufferPtr index).eval middle.frame = (bufferPtr index).eval wave.frame := by
      simp only [bufferPtr, Value.eval, kept.frame.argument]
    simp only [List.filter_nil, List.filterMap_cons, List.filterMap_nil, sent, if_true, List.map_cons, List.map_nil, buffer]
    simp only [Value.eval, addressFields, Instrumentation.location, location, Nat.mod_mod, Nat.mod_eq_of_lt small]
    cases inst.debugLoc with
    | none => simp
    | some loc => simp

/-- A load or store through a pointer of another address space has the target cast it. -/
theorem createPointerCast_address {start : Builder} (empty : start.inserted = []) (folds : device.Folds llvm)
    {pointer : Value} {space : Nat} (typed : pointer.ty = .ptr space) (known : pointer.Before firstNew) {block : Nat}
    {wave wave' middle : Wave W} {events : List (Instruction × Wave W)}
    (same : Wave.Same device firstNew wave wave') (kept : Wave.Same device firstNew wave middle)
    (ran : Straight device.machine block
      (start.createPointerCast llvm pointer (bufferPtr index).ty).1.inserted wave' events middle) :
    (start.createPointerCast llvm pointer (bufferPtr index).ty).2.eval middle.frame =
      device.flatAddress pointer wave.frame := by
  have reduced : start.createPointerCast llvm pointer (bufferPtr index).ty =
      start.createCast llvm (if space = 0 then .bitCast else .addrSpaceCast) pointer (.ptr 0) := by
    unfold Builder.createPointerCast
    rw [typed]
    rfl
  rw [reduced] at ran ⊢
  unfold Device.flatAddress
  by_cases flat : space = 0
  · subst flat
    rw [if_pos typed, Builder.createCast, if_pos typed]
    exact known.eval_agrees kept.frame
  · have differs : pointer.ty ≠ .ptr 0 := by
      rw [typed]
      intro impossible
      exact flat (Ty.ptr.inj impossible)
    rw [if_neg flat] at ran ⊢
    rw [if_neg differs]
    unfold Builder.createCast at ran ⊢
    rw [if_neg differs] at ran ⊢
    cases folded : llvm.foldCast .addrSpaceCast pointer (.ptr 0) with
    | some value =>
      dsimp only
      rw [folds.space folded middle.frame kept.frame.there, known.eval_agrees kept.frame]
    | none =>
      rw [folded] at ran
      simp only [Builder.insert, empty, List.nil_append] at ran ⊢
      cases ran with
      | cons performed none =>
        cases none
        obtain ⟨rfl, -⟩ := performed
        have cast : CastOp.apply .addrSpaceCast pointer.ty (.ptr 0) (pointer.eval wave'.frame) = none := by
          unfold CastOp.apply
          rfl
        show Ty.wrap (.ptr 0) (if start.nextId = start.nextId then
          (CastOp.apply .addrSpaceCast pointer.ty (.ptr 0) (pointer.eval wave'.frame)).getD
            (device.targetCast .addrSpaceCast pointer.ty (.ptr 0) (pointer.eval wave'.frame)) else _) = _
        rw [if_pos rfl, cast, Option.getD_none, known.eval_agrees same.frame]

/-- For a buffer intrinsic the helpers add the offset to the pointer. -/
theorem bufferAddress_address {start : Builder} (empty : start.inserted = []) (older : firstNew ≤ start.nextId)
    (folds : device.Folds llvm) {origPtr offset : Value} {space : Nat} (origTyped : origPtr.ty = .ptr space)
    (offsetTyped : offset.ty = .int 32) (origKnown : origPtr.Before firstNew) (offsetKnown : offset.Before firstNew)
    {block : Nat} {wave wave' middle : Wave W} {events : List (Instruction × Wave W)}
    (same : Wave.Same device firstNew wave wave')
    (ran : Straight device.machine block
      (bufferAddress llvm (bufferPtr index) start origPtr offset).1.inserted wave' events middle) :
    (bufferAddress llvm (bufferPtr index) start origPtr offset).2.eval middle.frame =
      (origPtr.eval wave.frame + signExtended (offset.eval wave.frame)) % 2 ^ 64 := by
  have sound : llvm.FoldsSoundly wave'.frame.constant := same.frame.there ▸ folds.sound
  have orig : start.Denotes wave'.frame origPtr (origPtr.eval wave.frame) := by
    refine ⟨origKnown.mono older, ?_⟩
    rw [empty]
    exact origKnown.eval_agrees same.frame
  have off : start.Denotes wave'.frame offset (offset.eval wave.frame) := by
    refine ⟨offsetKnown.mono older, ?_⟩
    rw [empty]
    exact offsetKnown.eval_agrees same.frame
  obtain ⟨denotes, pointer⟩ := actualAddress_denotes sound origTyped offsetTyped orig off
  have address : bufferAddress llvm (bufferPtr index) start origPtr offset = actualAddress llvm start origPtr offset :=
    if_neg (not_not.mpr pointer)
  rw [address] at ran ⊢
  have computes : start.Computes := by
    unfold Builder.Computes
    rw [empty]
    exact List.forall_mem_nil _
  rw [straight_run (actualAddress_computes llvm computes origPtr offsetTyped) ran]
  exact denotes.eval

end

/-! ### What the pass inserts -/

/-- What the loop inserts before an instruction of the kernel: in a round over blocks that keep the kernel's. -/
structure Injects (llvm : LLVM) (scope : InstrumentationScope) (index firstNew : Nat) (kernel : List (List Instruction))
    (inst : Instruction) (new : List Instruction) : Prop where
  round : ∃ blocks nextId after, instrument llvm scope (bufferPtr index) blocks nextId inst = some after ∧
    after.inserted = new ∧ firstNew ≤ nextId ∧
      blocks.flatten.filter (fun other => other.id < firstNew) = kernel.flatten ∧
        Inserts scope nextId inst after
  kinds : ∀ other ∈ new, Builder.IsHelper other.op ∨ other.op.calls submitAddress

section
variable {device : Device W} {llvm : LLVM} {scope : InstrumentationScope} {index firstNew : Nat}
  {kernel : List (List Instruction)}

theorem definition_kept {blocks : List (List Instruction)}
    (kept : blocks.flatten.filter (fun other => other.id < firstNew) = kernel.flatten) {value : Value}
    (known : value.Before firstNew) : definition blocks value = definition kernel value := by
  cases value with
  | result id ty =>
    show blocks.flatten.find? _ = kernel.flatten.find? _
    rw [← kept, List.find?_filter]
    refine congrArg (fun p => blocks.flatten.find? p) (funext fun other => ?_)
    by_cases same : other.id = id
    · have old : other.id < firstNew := same ▸ known
      simp [same, same ▸ old]
    · simp [same]
  | _ => rfl

theorem originalPointer_kept {blocks : List (List Instruction)}
    (kept : blocks.flatten.filter (fun other => other.id < firstNew) = kernel.flatten) {bufferDesc : Value}
    (known : bufferDesc.Before firstNew) : originalPointer blocks bufferDesc = originalPointer kernel bufferDesc := by
  rw [originalPointer, definition_kept kept known]
  rfl

theorem originalPointer_before (reads : ∀ inst ∈ kernel.flatten, inst.op.ReadsBelow firstNew) {bufferDesc origPtr : Value}
    (found : originalPointer kernel bufferDesc = some origPtr) : origPtr.Before firstNew := by
  unfold originalPointer at found
  split at found
  · rename_i name args defined
    split at found
    · obtain ⟨inst, made, called⟩ := Option.map_eq_some_iff.mp defined
      have member : inst ∈ kernel.flatten := by
        cases bufferDesc with
        | result id ty => exact List.mem_of_find?_eq_some made
        | _ => cases made
      have operand := reads inst member origPtr
      rw [called] at operand
      exact operand (List.mem_of_getElem? found)
    · cases found
      trivial
  · cases found
    trivial

theorem bufferOperands_mem {inst : Instruction} {args : List Value} {isLoad : Bool} {bufferDesc offset : Value}
    {dataType : Ty} (found : bufferOperands inst args isLoad = some (bufferDesc, offset, dataType)) :
    bufferDesc ∈ args ∧ offset ∈ args := by
  unfold bufferOperands at found
  split at found
  · cases found
    simp
  · cases found
    simp
  · cases found

theorem submission_uncovered {inst : Instruction} (uncovered : covered scope inst = false) (frame : Frame) :
    submission device llvm scope index kernel inst frame = [] := by
  rw [submission, uncovered]
  rfl

theorem nothing_sent {block : Nat} {wave last : Wave W} {events : List (Instruction × Wave W)}
    (ran : Straight device.machine block [] wave events last) :
    messages submitAddress firstNew events = [] := by
  cases ran
  rfl

theorem memory_sends (submits : device.Submits firstNew submitAddress) (folds : device.Folds llvm) {nextId : Nat}
    (older : firstNew ≤ nextId) {inst : Instruction}
    {pointer : Value} {space : Nat} (typed : pointer.ty = .ptr space) (known : pointer.Before firstNew) {kind : Nat}
    (small : kind < 2 ^ 8) (addressSpace : Nat) (dataType : Ty) {block : Nat} {wave wave' last : Wave W}
    {events : List (Instruction × Wave W)} (same : Wave.Same device firstNew wave wave')
    (ran : Straight device.machine block
      (((Builder.createPointerCast llvm { nextId, debugLoc := inst.debugLoc } pointer (bufferPtr index).ty).1.createSubmit
        llvm (bufferPtr index)
        (Builder.createPointerCast llvm { nextId, debugLoc := inst.debugLoc } pointer (bufferPtr index).ty).2 kind
        addressSpace dataType).inserted) wave' events last) :
    messages submitAddress firstNew events =
      [addressFields llvm index inst wave.frame (device.flatAddress pointer wave.frame) kind addressSpace dataType] := by
  obtain ⟨before, middle, first, kept, sends⟩ := createSubmit_sends submits rfl (Builder.createPointerCast_extends ..) older rfl
    _ small addressSpace dataType same ran
  rw [sends, createPointerCast_address rfl folds typed known same kept first]

theorem buffer_sends (submits : device.Submits firstNew submitAddress) (folds : device.Folds llvm)
    (reads : ∀ inst ∈ kernel.flatten, inst.op.ReadsBelow firstNew)
    {inst : Instruction} (member : inst ∈ kernel.flatten) (typed : AccessesTyped kernel inst) {callee : Option Text}
    {args : List Value} (op : inst.op = .call callee args) {blocks : List (List Instruction)}
    (kept : blocks.flatten.filter (fun other => other.id < firstNew) = kernel.flatten) {nextId : Nat}
    (older : firstNew ≤ nextId) {after : Builder}
    (injected : injectBufferInstrumentationFunction llvm blocks (bufferPtr index) { nextId, debugLoc := inst.debugLoc } inst
      args (isAMDGCNBufferLoad inst.op) = some after)
    {block : Nat} {wave wave' last : Wave W} {events : List (Instruction × Wave W)}
    (same : Wave.Same device firstNew wave wave')
    (ran : Straight device.machine block after.inserted wave' events last) :
    ∃ bufferDesc offset dataType origPtr,
      bufferOperands inst args (isAMDGCNBufferLoad inst.op) = some (bufferDesc, offset, dataType) ∧
      originalPointer kernel bufferDesc = some origPtr ∧ messages submitAddress firstNew events =
        [addressFields llvm index inst wave.frame ((origPtr.eval wave.frame + signExtended (offset.eval wave.frame)) % 2 ^ 64)
          (if isAMDGCNBufferLoad inst.op then 0b01 else 0b10) 1 dataType] := by
  have operands := reads inst member
  rw [op] at operands
  unfold injectBufferInstrumentationFunction at injected
  obtain ⟨⟨bufferDesc, offset, dataType⟩, found, injected⟩ := Option.bind_eq_some_iff.mp injected
  obtain ⟨origPtr, traced, injected⟩ := Option.bind_eq_some_iff.mp injected
  obtain rfl := Option.some.inj injected
  obtain ⟨descArg, offsetArg⟩ := bufferOperands_mem found
  rw [originalPointer_kept kept (operands bufferDesc descArg)] at traced
  obtain ⟨offsetTyped, origTyped⟩ := typed.buffer callee args op bufferDesc offset dataType found
  obtain ⟨space, origTyped⟩ := origTyped origPtr traced
  have small : (if isAMDGCNBufferLoad inst.op then 0b01 else 0b10) < 2 ^ 8 := by
    split
    · decide
    · decide
  have extended := bufferAddress_extends llvm (bufferPtr index) { nextId, debugLoc := inst.debugLoc } origPtr offset
  obtain ⟨before, middle, first, -, sends⟩ := createSubmit_sends submits rfl extended older rfl
    (bufferAddress llvm (bufferPtr index) { nextId, debugLoc := inst.debugLoc } origPtr offset).2 small 1 dataType same ran
  refine ⟨bufferDesc, offset, dataType, origPtr, found, traced, ?_⟩
  rw [sends, bufferAddress_address rfl older folds origTyped offsetTyped (originalPointer_before reads traced)
    (operands offset offsetArg) same first]

/-- A straight run of a group sends what is expected of its instruction. -/
theorem Injects.sends (submits : device.Submits firstNew submitAddress) (folds : device.Folds llvm)
    (reads : ∀ inst ∈ kernel.flatten, inst.op.ReadsBelow firstNew)
    {inst : Instruction} (member : inst ∈ kernel.flatten) (typed : AccessesTyped kernel inst) {new : List Instruction}
    (injects : Injects llvm scope index firstNew kernel inst new) {block : Nat} {wave wave' last : Wave W}
    {events : List (Instruction × Wave W)} (same : Wave.Same device firstNew wave wave')
    (ran : Straight device.machine block new wave' events last) :
    messages submitAddress firstNew events = submission device llvm scope index kernel inst wave.frame := by
  obtain ⟨blocks, nextId, after, round, rfl, older, kept, inserts⟩ := injects.round
  cases access : covered scope inst with
  | false =>
    rw [inserts.group.uncovered access] at ran
    rw [submission_uncovered access, nothing_sent ran]
  | true =>
    obtain ⟨isAccess, within⟩ := Bool.and_eq_true_iff.mp access
    have operands := reads inst member
    unfold instrument at round
    rw [within] at round
    simp only [Bool.not_true, Bool.false_eq_true, if_false] at round
    rw [submission, access, if_pos rfl]
    cases op : inst.op with
    | load pointer =>
      rw [op] at round operands
      cases round
      rw [injectInstrumentationFunction, op] at ran
      obtain ⟨space, pointerTyped⟩ := typed.load pointer op
      exact memory_sends submits folds older pointerTyped (operands pointer List.mem_cons_self) (by decide) _ _ same ran
    | store value pointer =>
      rw [op] at round operands
      cases round
      rw [injectInstrumentationFunction, op] at ran
      obtain ⟨space, pointerTyped⟩ := typed.store value pointer op
      exact memory_sends submits folds older pointerTyped (operands pointer (by simp [Op.operands])) (by decide) _ _ same ran
    | call callee args =>
      have injected : injectBufferInstrumentationFunction llvm blocks (bufferPtr index)
          { nextId, debugLoc := inst.debugLoc } inst args (isAMDGCNBufferLoad inst.op) = some after := by
        rw [op] at round isAccess ⊢
        cases load : isAMDGCNBufferLoad (.call callee args) with
        | true => simpa [load] using round
        | false =>
          cases store : isAMDGCNBufferStore (.call callee args) with
          | true => simpa [load, store] using round
          | false => simp [Op.accessKind, load, store] at isAccess
      obtain ⟨bufferDesc, offset, dataType, origPtr, found, traced, sends⟩ :=
        buffer_sends submits folds reads member typed op kept older injected same ran
      rw [op] at found sends
      dsimp only
      rw [sends, found]
      dsimp only
      rw [traced]
      rfl
    | _ =>
      rw [op] at isAccess
      cases isAccess

end

/-! ### The loop -/

section
variable (llvm : LLVM) (scope : InstrumentationScope) (index : Nat) {firstNew : Nat} {kernel : List (List Instruction)}

end

variable (llvm : LLVM) (scope : InstrumentationScope) (index : Nat)

end

/-! ### A buffer load and a store to local memory -/

namespace Sample

/-- Instructions that do nothing, and a return. -/
def device : Device Nat :=
  counting submitAddress (· + 2 ^ 32) fun op next => next = if op = .other 3 then .leave else .proceed

theorem submits (firstNew : Nat) : device.Submits firstNew submitAddress := by
  refine counting_submits (fun {op next} calls => ?_) firstNew
  have goesOn : op ≠ .other 3 := by
    rintro rfl
    cases calls
  rw [if_neg goesOn]

theorem confined (firstNew : Nat) : device.Confined firstNew := counting_confined firstNew

def storeInst : Instruction := ⟨2, .other 0, .store (.int 32 7) (.argument 3 (.ptr 3)), none⟩

def clone : KernelClone where
  blocks := [[rawRsrc, rawLoadInst, storeInst, ⟨3, .other 0, .other 3, none⟩]]
  nextId := 4
  distinct := by decide
  below := by decide
  operands := by
    intro inst member
    simp only [List.flatten_cons, List.flatten_nil, List.append_nil, List.mem_cons, List.not_mem_nil, or_false] at member
    rcases member with rfl | rfl | rfl | rfl
    · exact ⟨fun _ => by decide, fun named => absurd named (by decide), fun _ => by decide⟩
    · exact ⟨fun _ => by decide, fun named => absurd named (by decide), fun _ => by decide⟩
    · trivial
    · trivial

theorem folds : device.Folds foldsNothing := ⟨foldsNothing_soundly _, fun folded => (nomatch folded)⟩

theorem typed : ∀ inst ∈ clone.blocks.flatten, AccessesTyped clone.blocks inst := by
  intro inst member
  simp only [clone, List.flatten_cons, List.flatten_nil, List.append_nil, List.mem_cons, List.not_mem_nil, or_false] at member
  rcases member with rfl | rfl | rfl | rfl
  · refine ⟨nofun, nofun, ?_⟩
    rintro callee args called bufferDesc offset dataType found
    cases called
    cases found
  · refine ⟨nofun, nofun, ?_⟩
    rintro callee args called bufferDesc offset dataType found
    cases called
    cases found
    refine ⟨rfl, fun origPtr traced => ?_⟩
    have base : originalPointer clone.blocks (.result 0 (.ptr 8)) = some (.argument 0 (.ptr 1)) := by decide
    cases base.symm.trans traced
    exact ⟨1, rfl⟩
  · refine ⟨nofun, ?_, nofun⟩
    rintro value pointer stored
    cases stored
    exact ⟨3, rfl⟩
  · exact ⟨nofun, nofun, nofun⟩

end Sample

end Omniprobe.Instrumentation
