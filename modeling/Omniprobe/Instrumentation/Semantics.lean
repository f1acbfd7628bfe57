import Omniprobe.Instrumentation.IR

/-!
# What injected instructions compute

Values as numbers. A frame gives them to arguments, constants and the results of instructions; casts and
additions that are run change it.
-/

namespace Omniprobe.Instrumentation

/-! ### Numbers of values -/

/-- The number with the bits of the type; pointers have 64 of them. -/
def Ty.wrap : Ty → Nat → Nat
  | int width, n => n % 2 ^ width
  | ptr _, n => n % 2 ^ 64
  | other _, n => n

theorem Ty.wrap_wrap (ty : Ty) (n : Nat) : ty.wrap (ty.wrap n) = ty.wrap n := by
  cases ty with
  | int width => exact Nat.mod_mod ..
  | ptr _ => exact Nat.mod_mod ..
  | other _ => rfl

structure Frame where
  argument : Nat → Nat
  constant : Nat → Nat
  result : Nat → Nat

def Value.eval (frame : Frame) : Value → Nat
  | argument index ty => ty.wrap (frame.argument index)
  | int width value => value % 2 ^ width
  | null _ => 0
  | constant index ty => ty.wrap (frame.constant index)
  | result id ty => ty.wrap (frame.result id)

theorem Value.wrap_eval (frame : Frame) (value : Value) : value.ty.wrap (value.eval frame) = value.eval frame := by
  cases value with
  | argument index ty => exact ty.wrap_wrap _
  | int width value => exact Nat.mod_mod ..
  | null addressSpace => exact Nat.zero_mod _
  | constant index ty => exact ty.wrap_wrap _
  | result id ty => exact ty.wrap_wrap _

theorem Value.eval_lt_of_int {value : Value} {width : Nat} (typed : value.ty = .int width) (frame : Frame) :
    value.eval frame < 2 ^ width := by
  rw [← value.wrap_eval frame, typed]
  exact Nat.mod_lt _ (Nat.two_pow_pos width)

def Value.isConstant : Value → Bool
  | argument .. => false
  | result .. => false
  | _ => true

/-- The value is there before the instruction with the number. -/
def Value.Before (id : Nat) : Value → Prop
  | result earlier _ => earlier < id
  | _ => True

theorem Value.before_of_isConstant {value : Value} (isConstant : value.isConstant = true) (id : Nat) : value.Before id := by
  cases value with
  | result => cases isConstant
  | _ => trivial

theorem Value.Before.mono {value : Value} {id later : Nat} (before : value.Before id) (le : id ≤ later) :
    value.Before later := by
  cases value with
  | result => exact Nat.lt_of_lt_of_le before le
  | _ => trivial

/-! ### Runs of instructions -/

/-- A cast of a number; `none` for a cast between address spaces, which the target defines. -/
def CastOp.apply (op : CastOp) (source dest : Ty) (n : Nat) : Option Nat :=
  match op with
  | .sExt =>
    match source, dest with
    | .int width, .int width' => some ((BitVec.ofNat width n).signExtend width').toNat
    | _, _ => none
  | .addrSpaceCast => none
  | _ => some (dest.wrap n)

theorem CastOp.wrap_apply {op : CastOp} {source dest : Ty} {n m : Nat} (applied : op.apply source dest n = some m) :
    dest.wrap m = m := by
  unfold CastOp.apply at applied
  split at applied
  · split at applied
    · cases applied
      exact Nat.mod_eq_of_lt (BitVec.isLt _)
    · cases applied
  · cases applied
  · cases applied
    exact dest.wrap_wrap n

/-- What a cast or an addition computes. The numbers of other instructions are the frame's. -/
def Op.compute (frame : Frame) (ty : Ty) : Op → Option Nat
  | .cast op value => op.apply value.ty ty (value.eval frame)
  | .add left right => some (ty.wrap (left.eval frame + right.eval frame))
  | _ => none

def Frame.execute (frame : Frame) (inst : Instruction) : Frame :=
  match inst.op.compute frame inst.ty with
  | some n => { frame with result := fun id => if id = inst.id then n else frame.result id }
  | none => frame

def Frame.run (frame : Frame) (insts : List Instruction) : Frame := insts.foldl Frame.execute frame

theorem Frame.execute_constant (frame : Frame) (inst : Instruction) : (frame.execute inst).constant = frame.constant := by
  unfold Frame.execute
  split
  · rfl
  · rfl

theorem Frame.run_constant (frame : Frame) (insts : List Instruction) : (frame.run insts).constant = frame.constant := by
  induction insts generalizing frame with
  | nil => rfl
  | cons inst rest ih => exact (ih (frame.execute inst)).trans (frame.execute_constant inst)

theorem Value.Before.eval_execute {value : Value} {inst : Instruction} (before : value.Before inst.id) (frame : Frame) :
    value.eval (frame.execute inst) = value.eval frame := by
  unfold Frame.execute
  split
  · cases value with
    | result id ty =>
      have different : id ≠ inst.id := Nat.ne_of_lt before
      simp only [Value.eval, if_neg different]
    | _ => rfl
  · rfl

theorem Value.Before.eval_run {value : Value} {id : Nat} (before : value.Before id) {insts : List Instruction}
    (new : ∀ inst ∈ insts, id ≤ inst.id) (frame : Frame) : value.eval (frame.run insts) = value.eval frame := by
  induction insts generalizing frame with
  | nil => rfl
  | cons inst rest ih =>
    obtain ⟨le, new⟩ := List.forall_mem_cons.mp new
    exact (ih new (frame.execute inst)).trans ((before.mono le).eval_execute frame)

/-! ### Values of a builder -/

/-- Folding gives constants of the right type, with the number that the instruction would compute. -/
structure LLVM.FoldsSoundly (llvm : LLVM) (constant : Nat → Nat) : Prop where
  cast : ∀ {op value ty folded}, llvm.foldCast op value ty = some folded →
    folded.isConstant ∧ folded.ty = ty ∧ ∀ frame : Frame, frame.constant = constant →
      ∀ n, (Op.cast op value).compute frame ty = some n → folded.eval frame = n
  add : ∀ {left right folded}, llvm.foldAdd left right = some folded →
    folded.isConstant ∧ folded.ty = left.ty ∧ ∀ frame : Frame, frame.constant = constant →
      ∀ n, (Op.add left right).compute frame left.ty = some n → folded.eval frame = n

namespace Builder

/-- After what the builder has inserted, the value has the number. -/
structure Denotes (builder : Builder) (frame : Frame) (value : Value) (n : Nat) : Prop where
  before : value.Before builder.nextId
  eval : value.eval (frame.run builder.inserted) = n

section
variable {llvm : LLVM} {builder after : Builder} {frame : Frame} {value left right : Value} {n m : Nat}

theorem Denotes.extends (denotes : builder.Denotes frame value n) (extended : builder.Extends after) :
    after.Denotes frame value n := by
  obtain ⟨helpers, inserted, new⟩ := extended.inserted
  refine ⟨denotes.before.mono extended.nextId, ?_⟩
  rw [inserted, Frame.run, List.foldl_append]
  exact (denotes.before.eval_run (fun inst member => (new inst member).1) _).trans denotes.eval

theorem insert_denotes {ty : Ty} {op : Op} (computed : op.compute (frame.run builder.inserted) ty = some n)
    (wrapped : ty.wrap n = n) :
    (builder.insert ty op).1.Denotes frame (builder.insert ty op).2 n := by
  refine ⟨Nat.lt_succ_self _, ?_⟩
  unfold Builder.insert
  rw [Frame.run, List.foldl_append]
  show ty.wrap ((Frame.execute (frame.run builder.inserted) _).result builder.nextId) = n
  rw [Frame.execute, computed]
  simpa using wrapped

theorem createCast_denotes (sound : llvm.FoldsSoundly frame.constant) (op : CastOp) (destTy : Ty)
    (denotes : builder.Denotes frame value n) (differs : value.ty ≠ destTy)
    (applied : op.apply value.ty destTy n = some m) :
    (builder.createCast llvm op value destTy).1.Denotes frame (builder.createCast llvm op value destTy).2 m ∧
      (builder.createCast llvm op value destTy).2.ty = destTy := by
  have computed : (Op.cast op value).compute (frame.run builder.inserted) destTy = some m := by
    rw [Op.compute, denotes.eval, applied]
  unfold Builder.createCast
  rw [if_neg differs]
  split
  · rename_i folded folds
    obtain ⟨isConstant, typed, agrees⟩ := sound.cast folds
    refine ⟨⟨Value.before_of_isConstant isConstant _, ?_⟩, typed⟩
    exact agrees _ (frame.run_constant _) m computed
  · exact ⟨insert_denotes computed (CastOp.wrap_apply applied), rfl⟩

theorem createAdd_denotes (sound : llvm.FoldsSoundly frame.constant) (denotesLeft : builder.Denotes frame left n)
    (denotesRight : builder.Denotes frame right m) :
    (builder.createAdd llvm left right).1.Denotes frame (builder.createAdd llvm left right).2 (left.ty.wrap (n + m)) ∧
      (builder.createAdd llvm left right).2.ty = left.ty := by
  have computed : (Op.add left right).compute (frame.run builder.inserted) left.ty = some (left.ty.wrap (n + m)) := by
    rw [Op.compute, denotesLeft.eval, denotesRight.eval]
  unfold Builder.createAdd
  split
  · rename_i folded folds
    obtain ⟨isConstant, typed, agrees⟩ := sound.add folds
    refine ⟨⟨Value.before_of_isConstant isConstant _, ?_⟩, typed⟩
    exact agrees _ (frame.run_constant _) _ computed
  · exact ⟨insert_denotes computed (left.ty.wrap_wrap _), rfl⟩

end

end Builder

end Omniprobe.Instrumentation
