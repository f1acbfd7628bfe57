import Omniprobe.Instrumentation.BasicBlockStart
import Omniprobe.Lib.Visits

/-!
# The basic block interval pass

`AMDGCNSubmitBBInterval`: in each block of a kernel the clock is read behind the phi nodes and before the
terminator, into memory of the block's own, and `s_submit_time_interval` sends both readings.
-/

namespace Omniprobe.Instrumentation.BBInterval
open Lib BBStart

def sClock64 : Text := "s_clock64".toList

def submitTimeInterval : Text := "s_submit_time_interval".toList

/-! ### Instructions -/

/-- What the pass inserts. -/
inductive NewOp where
  | call (callee : Text) (args : List Value)
  /-- An array of 64-bit words. -/
  | alloca (words : Nat)
  /-- A word of such an array. -/
  | inBoundsGEP (pointer : Value) (index : Nat)
  | store (value pointer : Value)
  | cast (op : CastOp) (value : Value)
  deriving DecidableEq, Repr

structure NewInstruction where
  id : Nat
  ty : Ty
  op : NewOp
  debugLoc : Option DebugLoc
  deriving DecidableEq, Repr

/-- An instruction of an instrumented block. -/
inductive Line where
  | own (inst : Instruction)
  | new (inst : NewInstruction)
  deriving DecidableEq, Repr

/-- `alloca` gives private memory. -/
def privatePtr : Ty := .ptr 5

structure IRBuilder where
  inserted : List NewInstruction := []
  nextId : Nat
  debugLoc : Option DebugLoc

namespace IRBuilder

def insert (builder : IRBuilder) (ty : Ty) (op : NewOp) : IRBuilder × Value :=
  ({ builder with
      inserted := builder.inserted ++ [⟨builder.nextId, ty, op, builder.debugLoc⟩]
      nextId := builder.nextId + 1 },
    .result builder.nextId ty)

/-- `CreatePointerCast` between address spaces. -/
def createPointerCast (llvm : LLVM) (builder : IRBuilder) (value : Value) (destTy : Ty) : IRBuilder × Value :=
  if value.ty = destTy then (builder, value)
  else
    match llvm.foldCast .addrSpaceCast value destTy with
    | some folded => (builder, folded)
    | none => builder.insert destTy (.cast .addrSpaceCast value)

end IRBuilder

/-! ### The pass -/

/-- The number of the next instruction, and `bbIndex`. -/
structure Counters where
  nextId : Nat
  bbIndex : UInt32

/-- `fileHashConst`, `lineConst` and `columnConst`. -/
def debugConstants (llvm : LLVM) (loc : Option DebugLoc) : UInt64 × UInt32 × UInt32 :=
  match loc with
  | some loc => (llvm.hash (getFullPath loc), loc.line, loc.column)
  | none => (0, 0xffffff, 0xffffff)

/-- The body of the loop over the blocks; `none` for a block of phi nodes, as it has no terminator. -/
def instrumentBlock (llvm : LLVM) (bufferPtr : Value) (counters : Counters) (block : List Instruction) :
    Option (List Line × Counters) :=
  match block.dropWhile isPHINode with
  | [] => none
  | firstInst :: rest =>
    let builderStart : IRBuilder := { nextId := counters.nextId, debugLoc := firstInst.debugLoc }
    let (builderStart, startCall) := builderStart.insert (.int 64) (.call sClock64 [])
    let (builderStart, timeIntervalAlloca) := builderStart.insert privatePtr (.alloca 2)
    let (builderStart, startPtr) := builderStart.insert privatePtr (.inBoundsGEP timeIntervalAlloca 0)
    let (builderStart, _) := builderStart.insert (.other 0) (.store startCall startPtr)
    let (fileHash, line, column) := debugConstants llvm firstInst.debugLoc
    let insertPt := (firstInst :: rest).getLast (List.cons_ne_nil firstInst rest)
    let builderEnd : IRBuilder := { nextId := builderStart.nextId, debugLoc := insertPt.debugLoc }
    let (builderEnd, endCall) := builderEnd.insert (.int 64) (.call sClock64 [])
    let (builderEnd, endPtr) := builderEnd.insert privatePtr (.inBoundsGEP timeIntervalAlloca 1)
    let (builderEnd, _) := builderEnd.insert (.other 0) (.store endCall endPtr)
    let (builderEnd, timeIntervalPtr) := builderEnd.createPointerCast llvm timeIntervalAlloca (.ptr 0)
    let (builderEnd, _) := builderEnd.insert (.other 0) (.call submitTimeInterval
      [bufferPtr, timeIntervalPtr, .int 64 fileHash.toNat, .int 32 line.toNat, .int 32 column.toNat,
        .int 32 counters.bbIndex.toNat])
    some ((block.takeWhile isPHINode).map .own ++ builderStart.inserted.map .new ++ (firstInst :: rest).dropLast.map .own ++
      builderEnd.inserted.map .new ++ [.own insertPt], ⟨builderEnd.nextId, counters.bbIndex + 1⟩)

def instrumentBlocks (llvm : LLVM) (bufferPtr : Value) : Counters → List (List Instruction) → Option (List (List Line))
  | _, [] => some []
  | counters, block :: rest => do
    let (instrumented, counters) ← instrumentBlock llvm bufferPtr counters block
    let later ← instrumentBlocks llvm bufferPtr counters rest
    some (instrumented :: later)

/-- The function of a clone, whose last argument is the buffer. -/
def runOnFunction (llvm : LLVM) (index : Nat) (blocks : List (List Instruction)) (nextId : Nat) : Option (List (List Line)) :=
  instrumentBlocks llvm (bufferPtr index) ⟨nextId, 0⟩ blocks

/-! ### Instrumented blocks -/

/-- What is inserted behind the phi nodes. -/
def openingLines (id : Nat) (loc : Option DebugLoc) : List NewInstruction :=
  [⟨id, .int 64, .call sClock64 [], loc⟩,
    ⟨id + 1, privatePtr, .alloca 2, loc⟩,
    ⟨id + 2, privatePtr, .inBoundsGEP (.result (id + 1) privatePtr) 0, loc⟩,
    ⟨id + 3, .other 0, .store (.result id (.int 64)) (.result (id + 2) privatePtr), loc⟩]

/-- What is inserted before the terminator. -/
def closingLines (llvm : LLVM) (index id : Nat) (bbIndex : UInt32) (firstLoc loc : Option DebugLoc) : List NewInstruction :=
  let (fileHash, line, column) := debugConstants llvm firstLoc
  [⟨id + 4, .int 64, .call sClock64 [], loc⟩,
    ⟨id + 5, privatePtr, .inBoundsGEP (.result (id + 1) privatePtr) 1, loc⟩,
    ⟨id + 6, .other 0, .store (.result (id + 4) (.int 64)) (.result (id + 5) privatePtr), loc⟩,
    ⟨id + 7, .ptr 0, .cast .addrSpaceCast (.result (id + 1) privatePtr), loc⟩,
    ⟨id + 8, .other 0, .call submitTimeInterval
      [bufferPtr index, .result (id + 7) (.ptr 0), .int 64 fileHash.toNat, .int 32 line.toNat, .int 32 column.toNat,
        .int 32 bbIndex.toNat], loc⟩]

/-- A block, and what becomes of it. -/
inductive Instruments (llvm : LLVM) (index id : Nat) (bbIndex : UInt32) : List Instruction → List Line → Prop where
  | block {phis body : List Instruction} {first terminator : Instruction}
      (phisFirst : (phis ++ body ++ [terminator]).takeWhile isPHINode = phis)
      (behind : (phis ++ body ++ [terminator]).dropWhile isPHINode = body ++ [terminator])
      (starts : (body ++ [terminator]).head? = some first) :
      Instruments llvm index id bbIndex (phis ++ body ++ [terminator])
        (phis.map .own ++ (openingLines id first.debugLoc).map .new ++ body.map .own ++
          (closingLines llvm index id bbIndex first.debugLoc terminator.debugLoc).map .new ++ [.own terminator])

/-- Only constants are folded. -/
def FoldsConstants (llvm : LLVM) : Prop :=
  ∀ (op : CastOp) (value : Value) (ty : Ty), value.isConstant = false → llvm.foldCast op value ty = none

section
variable {llvm : LLVM} (index : Nat)

theorem IRBuilder.createPointerCast_private (folds : FoldsConstants llvm) (builder : IRBuilder) (id : Nat) :
    builder.createPointerCast llvm (.result id privatePtr) (.ptr 0) =
      builder.insert (.ptr 0) (.cast .addrSpaceCast (.result id privatePtr)) := by
  have differ : (Value.result id privatePtr).ty ≠ .ptr 0 := by
    show privatePtr ≠ .ptr 0
    decide
  rw [createPointerCast, if_neg differ, folds _ _ _ rfl]

theorem instrumentBlock_instruments (folds : FoldsConstants llvm) {id : Nat} {bbIndex : UInt32} {block : List Instruction}
    {lines : List Line} {counters : Counters}
    (instrumented : instrumentBlock llvm (bufferPtr index) ⟨id, bbIndex⟩ block = some (lines, counters)) :
    Instruments llvm index id bbIndex block lines ∧ counters = ⟨id + 9, bbIndex + 1⟩ := by
  unfold instrumentBlock at instrumented
  cases behind : block.dropWhile isPHINode with
  | nil =>
    rw [behind] at instrumented
    cases instrumented
  | cons firstInst rest =>
    rw [behind] at instrumented
    simp only [IRBuilder.insert, IRBuilder.createPointerCast_private folds] at instrumented
    obtain ⟨rfl, rfl⟩ := Prod.mk.inj (Option.some.inj instrumented)
    let terminator := (firstInst :: rest).getLast (List.cons_ne_nil firstInst rest)
    have parts : (firstInst :: rest).dropLast ++ [terminator] = firstInst :: rest := List.dropLast_append_getLast _
    have whole : block.takeWhile isPHINode ++ (firstInst :: rest).dropLast ++ [terminator] = block := by
      rw [List.append_assoc, parts, ← behind]
      exact List.takeWhile_append_dropWhile
    have starts : ((firstInst :: rest).dropLast ++ [terminator]).head? = some firstInst := by
      rw [parts]
      rfl
    have built : Instruments llvm index id bbIndex (block.takeWhile isPHINode ++ (firstInst :: rest).dropLast ++ [terminator]) _ :=
      .block (by rw [whole]) (by rw [whole, behind, parts]) starts
    rw [whole] at built
    exact ⟨built, rfl⟩

theorem instrumentBlocks_instruments (folds : FoldsConstants llvm) {id : Nat} {bbIndex : UInt32}
    {blocks : List (List Instruction)} {program : List (List Line)}
    (instrumented : instrumentBlocks llvm (bufferPtr index) ⟨id, bbIndex⟩ blocks = some program) :
    program.length = blocks.length ∧ ∀ k block, blocks[k]? = some block →
      ∃ lines, program[k]? = some lines ∧ Instruments llvm index (id + 9 * k) (bbIndex + .ofNat k) block lines := by
  induction blocks generalizing id bbIndex program with
  | nil =>
    cases instrumented
    exact ⟨rfl, fun k block found => by simp at found⟩
  | cons block rest ih =>
    obtain ⟨⟨lines, counters⟩, first, instrumented⟩ := Option.bind_eq_some_iff.mp instrumented
    obtain ⟨later, others, instrumented⟩ := Option.bind_eq_some_iff.mp instrumented
    cases instrumented
    obtain ⟨here, rfl⟩ := instrumentBlock_instruments index folds first
    obtain ⟨length, ih⟩ := ih others
    refine ⟨congrArg (· + 1) length, fun k other found => ?_⟩
    cases k with
    | zero =>
      obtain rfl := Option.some.inj found
      exact ⟨lines, rfl, by simpa using here⟩
    | succ k =>
      obtain ⟨lines', found', instruments⟩ := ih k other found
      refine ⟨lines', found', ?_⟩
      have number : id + 9 * (k + 1) = id + 9 + 9 * k := by omega
      have label : bbIndex + .ofNat (k + 1) = bbIndex + 1 + .ofNat k := by
        rw [UInt32.ofNat_add, UInt32.ofNat_one, UInt32.add_assoc, UInt32.add_comm 1]
      rw [number, label]
      exact instruments

end

end Omniprobe.Instrumentation.BBInterval
