import Omniprobe.Scope.InstrumentationScope

/-!
# The parts of LLVM IR that a pass touches

Values, instructions and the calls of `IRBuilder`. What LLVM itself decides (constant folding, sizes,
the pointer behind its casts) is a parameter.
-/

namespace Omniprobe.Instrumentation
open Lib

/-! ### Values and instructions -/

inductive Ty where
  | int (width : Nat)
  | ptr (addressSpace : Nat)
  /-- `void`, a float, a vector or an aggregate. -/
  | other (index : Nat)
  deriving DecidableEq, Repr

inductive Value where
  | argument (index : Nat) (ty : Ty)
  /-- `ConstantInt`. -/
  | int (width value : Nat)
  /-- `ConstantPointerNull`. -/
  | null (addressSpace : Nat)
  /-- Any other constant. -/
  | constant (index : Nat) (ty : Ty)
  /-- What the instruction with the number computes. -/
  | result (id : Nat) (ty : Ty)
  deriving DecidableEq, Repr

def Value.ty : Value → Ty
  | argument _ ty => ty
  | int width _ => .int width
  | null addressSpace => .ptr addressSpace
  | constant _ ty => ty
  | result _ ty => ty

inductive CastOp where
  | ptrToInt | sExt | intToPtr | bitCast | addrSpaceCast
  deriving DecidableEq, Repr

inductive Op where
  | load (pointer : Value)
  | store (value pointer : Value)
  /-- The called function's name, where the call is direct. -/
  | call (callee : Option Text) (args : List Value)
  | cast (op : CastOp) (value : Value)
  | add (left right : Value)
  | other (index : Nat)
  deriving DecidableEq, Repr

/-- `DILocation`. -/
structure DebugLoc where
  /-- Directory and name of the scope's file, if it has one. -/
  file : Option (Text × Text)
  line : UInt32
  column : UInt32
  deriving DecidableEq, Repr

structure Instruction where
  id : Nat
  ty : Ty
  op : Op
  debugLoc : Option DebugLoc
  deriving DecidableEq, Repr

def getFullPath (loc : DebugLoc) : Text :=
  match loc.file with
  | none => []
  | some (directory, fileName) => if directory ≠ [] then directory ++ '/' :: fileName else fileName

/-- What LLVM and the standard library answer. -/
structure LLVM where
  /-- The constant that a cast is folded to. -/
  foldCast : CastOp → Value → Ty → Option Value
  foldAdd : Value → Value → Option Value
  /-- `getDataLayout().getTypeStoreSize(type)`. -/
  typeStoreSize : Ty → Nat
  /-- The address space of `stripPointerCasts()`. -/
  strippedAddressSpace : Value → UInt32
  hash : Text → UInt64

/-! ### The builder -/

/-- An `IRBuilder` that inserts before an instruction, with that instruction's location. -/
structure Builder where
  inserted : List Instruction := []
  nextId : Nat
  debugLoc : Option DebugLoc

namespace Builder

def insert (builder : Builder) (ty : Ty) (op : Op) : Builder × Value :=
  ({ builder with
      inserted := builder.inserted ++ [⟨builder.nextId, ty, op, builder.debugLoc⟩]
      nextId := builder.nextId + 1 },
    .result builder.nextId ty)

def createCast (llvm : LLVM) (builder : Builder) (op : CastOp) (value : Value) (destTy : Ty) : Builder × Value :=
  if value.ty = destTy then (builder, value)
  else
    match llvm.foldCast op value destTy with
    | some folded => (builder, folded)
    | none => builder.insert destTy (.cast op value)

def createAdd (llvm : LLVM) (builder : Builder) (left right : Value) : Builder × Value :=
  match llvm.foldAdd left right with
  | some folded => (builder, folded)
  | none => builder.insert left.ty (.add left right)

/-- `CreatePointerCast` of a pointer to a pointer type. -/
def createPointerCast (llvm : LLVM) (builder : Builder) (value : Value) (destTy : Ty) : Builder × Value :=
  match value.ty, destTy with
  | .ptr source, .ptr dest => builder.createCast llvm (if source = dest then .bitCast else .addrSpaceCast) value destTy
  | _, _ => builder.createCast llvm .bitCast value destTy

/-! ### What a builder adds -/

/-- An instruction that computes an address. -/
def IsHelper : Op → Prop
  | .cast _ _ => True
  | .add _ _ => True
  | _ => False

/-- The second builder has inserted helpers with new numbers behind what the first one has. -/
structure Extends (builder after : Builder) : Prop where
  inserted : ∃ helpers, after.inserted = builder.inserted ++ helpers ∧
    ∀ inst ∈ helpers, builder.nextId ≤ inst.id ∧ IsHelper inst.op
  nextId : builder.nextId ≤ after.nextId
  debugLoc : after.debugLoc = builder.debugLoc

theorem Extends.refl (builder : Builder) : builder.Extends builder :=
  ⟨⟨[], (List.append_nil _).symm, List.forall_mem_nil _⟩, Nat.le_refl _, rfl⟩

theorem Extends.trans {first second third : Builder} (left : first.Extends second) (right : second.Extends third) :
    first.Extends third := by
  obtain ⟨helpers, inserted, new⟩ := left.inserted
  obtain ⟨more, inserted', new'⟩ := right.inserted
  refine ⟨⟨helpers ++ more, ?_, ?_⟩, left.nextId.trans right.nextId, right.debugLoc.trans left.debugLoc⟩
  · rw [inserted', inserted, List.append_assoc]
  · refine List.forall_mem_append.mpr ⟨new, fun inst member => ?_⟩
    obtain ⟨later, helper⟩ := new' inst member
    exact ⟨left.nextId.trans later, helper⟩

theorem insert_extends (builder : Builder) (ty : Ty) {op : Op} (helper : IsHelper op) :
    builder.Extends (builder.insert ty op).1 :=
  ⟨⟨_, rfl, List.forall_mem_singleton.mpr ⟨Nat.le_refl _, helper⟩⟩, Nat.le_succ _, rfl⟩

theorem createCast_extends (llvm : LLVM) (builder : Builder) (op : CastOp) (value : Value) (destTy : Ty) :
    builder.Extends (builder.createCast llvm op value destTy).1 := by
  unfold createCast
  split
  · exact .refl builder
  split
  · exact .refl builder
  · exact insert_extends builder destTy trivial

theorem createAdd_extends (llvm : LLVM) (builder : Builder) (left right : Value) :
    builder.Extends (builder.createAdd llvm left right).1 := by
  unfold createAdd
  split
  · exact .refl builder
  · exact insert_extends builder left.ty trivial

theorem createPointerCast_extends (llvm : LLVM) (builder : Builder) (value : Value) (destTy : Ty) :
    builder.Extends (builder.createPointerCast llvm value destTy).1 := by
  unfold createPointerCast
  split
  · exact createCast_extends ..
  · exact createCast_extends ..

end Builder

end Omniprobe.Instrumentation
