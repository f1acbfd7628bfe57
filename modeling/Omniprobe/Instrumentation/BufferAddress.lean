import Omniprobe.Instrumentation.AddressMessages
import Omniprobe.Instrumentation.Semantics

/-!
# The address of a buffer access

The pass adds the operand behind the descriptor to the base pointer, sign extended. For the struct forms that
operand is the index, and no form has its scalar offset added.
-/

namespace Omniprobe.Instrumentation
open Lib

/-! ### What a buffer access accesses -/

/-- The operands that make up the address, the index for the struct forms only. -/
structure AccessOperands where
  rsrc : Value
  vindex : Option Value
  voffset : Value
  soffset : Value
  deriving DecidableEq

def isRawBufferName (name : Text) : Bool :=
  "llvm.amdgcn.raw.ptr.buffer.load".toList.isPrefixOf name || "llvm.amdgcn.raw.ptr.buffer.store".toList.isPrefixOf name

/-- LLVM's operand lists; stores have their data first. -/
def accessOperands (name : Text) (args : List Value) : Option AccessOperands :=
  match isBufferLoadName name, isRawBufferName name, args with
  | true, true, rsrc :: voffset :: soffset :: _ => some ⟨rsrc, none, voffset, soffset⟩
  | true, false, rsrc :: vindex :: voffset :: soffset :: _ => some ⟨rsrc, some vindex, voffset, soffset⟩
  | false, true, _ :: rsrc :: voffset :: soffset :: _ => some ⟨rsrc, none, voffset, soffset⟩
  | false, false, _ :: rsrc :: vindex :: voffset :: soffset :: _ => some ⟨rsrc, some vindex, voffset, soffset⟩
  | _, _, _ => none

namespace AccessOperands

def offsets (operands : AccessOperands) : List Value :=
  operands.vindex.toList ++ [operands.voffset, operands.soffset]

/-- The operand behind the descriptor. -/
def first (operands : AccessOperands) : Value := operands.vindex.getD operands.voffset

theorem first_mem_offsets (operands : AccessOperands) : operands.first ∈ operands.offsets := by
  obtain ⟨rsrc, vindex, voffset, soffset⟩ := operands
  cases vindex with
  | none => exact List.mem_cons_self
  | some vindex => exact List.mem_cons_self

theorem bufferOperands_eq {name : Text} {args : List Value} {operands : AccessOperands}
    (listed : accessOperands name args = some operands) (inst : Instruction) :
    ∃ dataType, bufferOperands inst args (isBufferLoadName name) = some (operands.rsrc, operands.first, dataType) := by
  unfold accessOperands at listed
  split at listed
  · rename_i load _
    cases listed
    exact ⟨_, by rw [load]; rfl⟩
  · rename_i load _
    cases listed
    exact ⟨_, by rw [load]; rfl⟩
  · rename_i store _
    cases listed
    exact ⟨_, by rw [store]; rfl⟩
  · rename_i store _
    cases listed
    exact ⟨_, by rw [store]; rfl⟩
  · cases listed

end AccessOperands

/-- A recognised call whose descriptor was made from a base pointer and a stride. -/
structure BufferAccess where
  blocks : List (List Instruction)
  nextId : Nat
  inst : Instruction
  name : Text
  args : List Value
  called : inst.op = .call (some name) args
  recognised : isAMDGCNBufferLoad inst.op ∨ isAMDGCNBufferStore inst.op
  operands : AccessOperands
  listed : accessOperands name args = some operands
  rsrcName : Text
  base : Value
  stride : Value
  rest : List Value
  made : (definition blocks operands.rsrc).map Instruction.op = some (.call (some rsrcName) (base :: stride :: rest))
  isRsrc : isMakeBufferRsrc rsrcName
  addressSpace : Nat
  baseTyped : base.ty = .ptr addressSpace
  baseBefore : base.Before nextId
  strideTyped : stride.ty = .int 16
  offsetsTyped : ∀ value ∈ operands.offsets, value.ty = .int 32
  offsetsBefore : ∀ value ∈ operands.offsets, value.Before nextId

namespace BufferAccess

/-- How far from the base pointer the access is. -/
def distance (access : BufferAccess) (frame : Frame) : Nat :=
  access.stride.eval frame * (access.operands.vindex.map (Value.eval frame)).getD 0 +
    access.operands.voffset.eval frame + access.operands.soffset.eval frame

/-- The unswizzled address, in 64 bits. -/
def effectiveAddress (access : BufferAccess) (frame : Frame) : Nat :=
  (access.base.eval frame + access.distance frame) % 2 ^ 64

end BufferAccess

/-- The second argument of the first call of `v_submit_address`, when the instructions are run up to it. -/
def Frame.submitted (frame : Frame) : List Instruction → Option Nat
  | [] => none
  | inst :: rest =>
    match inst.op with
    | .call (some name) args =>
      if name = submitAddress then args[1]?.map (Value.eval frame) else (frame.execute inst).submitted rest
    | _ => (frame.execute inst).submitted rest

/-- The argument that `cloneKernelWithExtraArg` adds. -/
def bufferPtr (index : Nat) : Value := .argument index (.ptr 0)

namespace BufferAccess

/-- The address that the pass reports for the call. -/
def reported (access : BufferAccess) (llvm : LLVM) (index : Nat) (frame : Frame) : Option Nat :=
  (injectBufferInstrumentationFunction llvm access.blocks (bufferPtr index)
    { nextId := access.nextId, debugLoc := access.inst.debugLoc } access.inst access.args
    (isAMDGCNBufferLoad access.inst.op)).bind fun after => frame.submitted after.inserted

def ReportsAddress (access : BufferAccess) (llvm : LLVM) (index : Nat) (frame : Frame) : Prop :=
  access.reported llvm index frame = some (access.effectiveAddress frame)

/-- The first operand does not look negative, and it is all there is to add. -/
def FirstIsAll (access : BufferAccess) (frame : Frame) : Prop :=
  let stride := access.stride.eval frame
  let voffset := access.operands.voffset.eval frame
  let soffset := access.operands.soffset.eval frame
  match access.operands.vindex with
  | none => voffset < 2 ^ 31 ∧ soffset = 0
  | some vindex =>
    let vindex := vindex.eval frame
    vindex < 2 ^ 31 ∧
      (stride = 0 ∧ vindex = voffset + soffset ∨ stride = 1 ∧ voffset = 0 ∧ soffset = 0 ∨
        vindex = 0 ∧ voffset = 0 ∧ soffset = 0)

end BufferAccess

/-! ### What is submitted -/

/-- The 32-bit number as 64 bits, its highest bit repeated. -/
def signExtended (n : Nat) : Nat := ((BitVec.ofNat 32 n).signExtend 64).toNat

theorem signExtended_eq {n : Nat} (bound : n < 2 ^ 32) :
    signExtended n = if n < 2 ^ 31 then n else n + (2 ^ 64 - 2 ^ 32) := by
  have value : (BitVec.ofNat 32 n).toNat = n := by rw [BitVec.toNat_ofNat, Nat.mod_eq_of_lt bound]
  have wide : ((BitVec.ofNat 32 n).setWidth 64).toNat = n := by
    rw [BitVec.toNat_setWidth, value, Nat.mod_eq_of_lt (by omega)]
  have sign : (BitVec.ofNat 32 n).msb = decide (2 ^ 31 ≤ n) := by rw [BitVec.msb_eq_decide, value]
  rw [signExtended, BitVec.toNat_signExtend, wide, sign]
  simp only [decide_eq_true_eq]
  split
  · rw [if_neg (by omega)]
  · rw [if_pos (by omega), Nat.add_zero]

section
variable {llvm : LLVM} {frame : Frame}

theorem actualAddress_denotes (sound : llvm.FoldsSoundly frame.constant) {builder : Builder} {origPtr offset : Value}
    {addressSpace p o : Nat} (origTyped : origPtr.ty = .ptr addressSpace) (offsetTyped : offset.ty = .int 32)
    (orig : builder.Denotes frame origPtr p) (off : builder.Denotes frame offset o) :
    (actualAddress llvm builder origPtr offset).1.Denotes frame (actualAddress llvm builder origPtr offset).2
        ((p + signExtended o) % 2 ^ 64) ∧
      (actualAddress llvm builder origPtr offset).2.ty = .ptr 0 := by
  obtain ⟨ptrAsInt, intTyped⟩ := Builder.createCast_denotes sound .ptrToInt (.int 64) orig
    (by rw [origTyped]; exact Ty.noConfusion) rfl
  have off := off.extends (Builder.createCast_extends llvm builder .ptrToInt origPtr (.int 64))
  have widened : CastOp.sExt.apply offset.ty (.int 64) o = some (signExtended o) := by rw [offsetTyped]; rfl
  obtain ⟨offsetExt, -⟩ := Builder.createCast_denotes sound .sExt (.int 64) off (by rw [offsetTyped]; decide) widened
  have ptrAsInt := ptrAsInt.extends (Builder.createCast_extends llvm _ .sExt offset (.int 64))
  obtain ⟨sum, sumTyped⟩ := Builder.createAdd_denotes sound ptrAsInt offsetExt
  rw [intTyped] at sum sumTyped
  obtain ⟨address, typed⟩ := Builder.createCast_denotes sound .intToPtr (.ptr 0) sum
    (by rw [sumTyped]; exact Ty.noConfusion) rfl
  have same : Ty.wrap (.ptr 0) (Ty.wrap (.int 64) (Ty.wrap (.int 64) p + signExtended o)) =
      (p + signExtended o) % 2 ^ 64 := by
    simp only [Ty.wrap]
    omega
  rw [same] at address
  exact ⟨address, typed⟩

theorem submitted_of_helpers {helpers : List Instruction} (new : ∀ inst ∈ helpers, Builder.IsHelper inst.op)
    (id : Nat) (ty : Ty) (args : List Value) (loc : Option DebugLoc) (frame : Frame) :
    frame.submitted (helpers ++ [⟨id, ty, .call (some submitAddress) args, loc⟩]) =
      args[1]?.map (Value.eval (frame.run helpers)) := by
  induction helpers generalizing frame with
  | nil =>
    rw [List.nil_append, Frame.submitted]
    exact if_pos rfl
  | cons inst rest ih =>
    obtain ⟨helper, new⟩ := List.forall_mem_cons.mp new
    rw [List.cons_append, Frame.submitted]
    split
    · rename_i name args called
      rw [called] at helper
      exact helper.elim
    · exact ih new (frame.execute inst)

/-- The call gets the address that the helpers before it compute. -/
theorem submitted_createSubmit {start builder : Builder} (empty : start.inserted = []) (extended : start.Extends builder)
    (ptr addr64 : Value) (accessType addressSpace : Nat) (dataType : Ty) :
    frame.submitted (builder.createSubmit llvm ptr addr64 accessType addressSpace dataType).inserted =
      some (addr64.eval (frame.run builder.inserted)) := by
  obtain ⟨helpers, inserted, new⟩ := extended.inserted
  rw [empty, List.nil_append] at inserted
  unfold Builder.createSubmit Builder.insert
  simp only [inserted]
  exact submitted_of_helpers (fun inst member => (new inst member).2) ..

/-- An offset looks negative from `2 ^ 31` on, and is then the distance to no access. -/
theorem signExtended_eq_iff {first distance : Nat} (bound : first < 2 ^ 32) (near : distance < 2 ^ 63) :
    signExtended first = distance ↔ first < 2 ^ 31 ∧ first = distance := by
  rw [signExtended_eq bound]
  split
  · omega
  · omega

theorem index_eq_sum_iff {stride vindex voffset soffset : Nat} :
    vindex = stride * vindex + voffset + soffset ↔
      stride = 0 ∧ vindex = voffset + soffset ∨ stride = 1 ∧ voffset = 0 ∧ soffset = 0 ∨
        vindex = 0 ∧ voffset = 0 ∧ soffset = 0 := by
  match stride with
  | 0 => omega
  | 1 => omega
  | stride + 2 =>
    have more : (stride + 2) * vindex = stride * vindex + 2 * vindex := Nat.add_mul ..
    by_cases zero : vindex = 0
    · rw [zero]
      omega
    · rw [more]
      omega

namespace BufferAccess
variable (access : BufferAccess)

theorem originalPointer_eq : originalPointer access.blocks access.operands.rsrc = some access.base := by
  rw [originalPointer, access.made]
  exact if_pos access.isRsrc

/-- Whatever the form, the base and the first operand are added. -/
theorem reported_eq (sound : llvm.FoldsSoundly frame.constant) (index : Nat) :
    access.reported llvm index frame =
      some ((access.base.eval frame + signExtended (access.operands.first.eval frame)) % 2 ^ 64) := by
  have isLoad : isAMDGCNBufferLoad access.inst.op = isBufferLoadName access.name := by rw [access.called]; rfl
  obtain ⟨dataType, read⟩ := AccessOperands.bufferOperands_eq access.listed access.inst
  have typed := access.offsetsTyped _ access.operands.first_mem_offsets
  have before := access.offsetsBefore _ access.operands.first_mem_offsets
  let start : Builder := { nextId := access.nextId, debugLoc := access.inst.debugLoc }
  have base : start.Denotes frame access.base (access.base.eval frame) := ⟨access.baseBefore, rfl⟩
  have first : start.Denotes frame access.operands.first (access.operands.first.eval frame) := ⟨before, rfl⟩
  obtain ⟨denotes, pointer⟩ := actualAddress_denotes sound access.baseTyped typed base first
  have address : bufferAddress llvm (bufferPtr index) start access.base access.operands.first =
      actualAddress llvm start access.base access.operands.first := if_neg (not_not.mpr pointer)
  have extended := actualAddress_extends llvm start access.base access.operands.first
  rw [reported, injectBufferInstrumentationFunction, isLoad, read]
  simp only [access.originalPointer_eq, Option.bind_eq_bind, Option.bind_some, Option.pure_def]
  rw [address, submitted_createSubmit rfl extended, denotes.eval]

theorem distance_lt (frame : Frame) : access.distance frame < 2 ^ 63 := by
  have stride := Value.eval_lt_of_int access.strideTyped frame
  have voffset := Value.eval_lt_of_int (access.offsetsTyped access.operands.voffset (by simp [AccessOperands.offsets])) frame
  have soffset := Value.eval_lt_of_int (access.offsetsTyped access.operands.soffset (by simp [AccessOperands.offsets])) frame
  have vindex : (access.operands.vindex.map (Value.eval frame)).getD 0 < 2 ^ 32 := by
    cases struct : access.operands.vindex with
    | none => exact Nat.two_pow_pos 32
    | some vindex => exact Value.eval_lt_of_int (access.offsetsTyped vindex (by simp [AccessOperands.offsets, struct])) frame
  have product := Nat.mul_lt_mul'' stride vindex
  unfold distance
  omega

theorem firstIsAll_iff :
    access.FirstIsAll frame ↔ signExtended (access.operands.first.eval frame) = access.distance frame := by
  have bound := Value.eval_lt_of_int (access.offsetsTyped _ access.operands.first_mem_offsets) frame
  rw [signExtended_eq_iff bound (access.distance_lt frame)]
  cases struct : access.operands.vindex with
  | none =>
    simp only [FirstIsAll, AccessOperands.first, distance, struct, Option.getD_none, Option.map_none]
    omega
  | some vindex =>
    simp only [FirstIsAll, AccessOperands.first, distance, struct, Option.getD_some, Option.map_some]
    rw [← index_eq_sum_iff]

instance (frame : Frame) : Decidable (access.FirstIsAll frame) := decidable_of_iff _ access.firstIsAll_iff.symm

theorem sum_eq_effectiveAddress_iff (frame : Frame) :
    (access.base.eval frame + signExtended (access.operands.first.eval frame)) % 2 ^ 64 = access.effectiveAddress frame ↔
      access.FirstIsAll frame := by
  have near := access.distance_lt frame
  have wide : signExtended (access.operands.first.eval frame) < 2 ^ 64 := BitVec.isLt _
  rw [effectiveAddress, firstIsAll_iff]
  omega

/-- The address is right for raw forms without a scalar offset whose offset is below `2 ^ 31`, and for struct forms
whose index happens to be the distance. -/
theorem reportsAddress_iff (sound : llvm.FoldsSoundly frame.constant) (index : Nat) :
    access.ReportsAddress llvm index frame ↔ access.FirstIsAll frame := by
  rw [ReportsAddress, access.reported_eq sound, Option.some_inj, sum_eq_effectiveAddress_iff]

end BufferAccess

end

/-! ### A raw load -/

/-- Neither operand of the sample load is a constant. -/
def foldsNothing : LLVM where
  foldCast _ _ _ := none
  foldAdd _ _ := none
  typeStoreSize _ := 4
  strippedAddressSpace _ := 0
  hash _ := 0

theorem foldsNothing_soundly (constant : Nat → Nat) : foldsNothing.FoldsSoundly constant :=
  ⟨fun folds => (nomatch folds), fun folds => (nomatch folds)⟩

def rawRsrc : Instruction :=
  ⟨0, .ptr 8, .call (some "llvm.amdgcn.make.buffer.rsrc".toList) [.argument 0 (.ptr 1), .int 16 0], none⟩

def rawLoadInst : Instruction :=
  ⟨1, .int 32, .call (some "llvm.amdgcn.raw.ptr.buffer.load".toList)
    [.result 0 (.ptr 8), .argument 1 (.int 32), .argument 2 (.int 32), .int 32 0], none⟩

def rawLoad : BufferAccess where
  blocks := [[rawRsrc, rawLoadInst]]
  nextId := 2
  inst := rawLoadInst
  name := "llvm.amdgcn.raw.ptr.buffer.load".toList
  args := _
  called := rfl
  recognised := .inl (by decide)
  operands := ⟨.result 0 (.ptr 8), none, .argument 1 (.int 32), .argument 2 (.int 32)⟩
  listed := by decide
  rsrcName := "llvm.amdgcn.make.buffer.rsrc".toList
  base := .argument 0 (.ptr 1)
  stride := .int 16 0
  rest := []
  made := by decide
  isRsrc := by decide
  addressSpace := 1
  baseTyped := rfl
  baseBefore := trivial
  strideTyped := rfl
  offsetsTyped := by decide
  offsetsBefore := by simp [AccessOperands.offsets, Value.Before]

/-- The base pointer is 4096, and the offsets are as given. -/
def frameOf (voffset soffset : Nat) : Frame where
  argument index := [4096, voffset, soffset].getD index 0
  constant _ := 0
  result _ := 0

theorem reportsAddress_sample : rawLoad.ReportsAddress foldsNothing 3 (frameOf 4 0) :=
  (rawLoad.reportsAddress_iff (foldsNothing_soundly _) 3).mpr (by decide)

/-- A scalar offset of 8 is left out. -/
theorem soffset_ignored : ¬ rawLoad.ReportsAddress foldsNothing 3 (frameOf 4 8) := by
  unfold BufferAccess.ReportsAddress
  decide

end Omniprobe.Instrumentation
