import Omniprobe.Instrumentation.BufferAddress
import Omniprobe.Instrumentation.Executions

/-!
# The basic block start pass

`AMDGCNSubmitBBStart`: each block of a kernel gets a call of `s_submit_wave_header` behind its phi nodes,
with a label that counts the blocks.
-/

namespace Omniprobe.Instrumentation.BBStart
open Lib

/-! ### The pass -/

def submitWaveHeader : Text := "s_submit_wave_header".toList

/-- Instructions that no pass looks into have numbers for their opcodes. -/
def phi : Op := .other 0

def isPHINode (inst : Instruction) : Bool := inst.op = phi

def basicBlockStartType : Nat := 2

/-- The number of the next instruction, and `LocationCounter`. -/
structure Counters where
  nextId : Nat
  locationCounter : UInt32

def injectInstrumentationFunction (llvm : LLVM) (ptr : Value) (counters : Counters) (inst : Instruction) : Builder :=
  let builder : Builder := { nextId := counters.nextId, debugLoc := inst.debugLoc }
  let (hash, line, column) := location llvm builder.debugLoc
  (builder.insert (.other 0) (.call (some submitWaveHeader)
    [ptr, .int 64 hash.toNat, .int 32 line.toNat, .int 32 column.toNat, .int 32 basicBlockStartType,
      .int 32 counters.locationCounter.toNat])).1

/-- The body of the loop over the blocks. Nothing is inserted where all are phi nodes. -/
def instrumentBlock (llvm : LLVM) (ptr : Value) (counters : Counters) (block : List Instruction) :
    List Instruction × Counters :=
  match block.dropWhile isPHINode with
  | [] => (block, counters)
  | inst :: rest =>
    let builder := injectInstrumentationFunction llvm ptr counters inst
    (block.takeWhile isPHINode ++ builder.inserted ++ inst :: rest, ⟨builder.nextId, counters.locationCounter + 1⟩)

def instrumentBlocks (llvm : LLVM) (ptr : Value) : Counters → List (List Instruction) → List (List Instruction)
  | _, [] => []
  | counters, block :: rest =>
    let (instrumented, counters) := instrumentBlock llvm ptr counters block
    instrumented :: instrumentBlocks llvm ptr counters rest

/-- The function of a clone, whose last argument is the buffer. -/
def runOnFunction (llvm : LLVM) (index : Nat) (blocks : List (List Instruction)) (nextId : Nat) : List (List Instruction) :=
  instrumentBlocks llvm (bufferPtr index) ⟨nextId, 0⟩ blocks

/-! ### Where blocks start -/

/-- `getFirstNonPHI()`. -/
def firstNonPHI (block : List Instruction) : Option Instruction := (block.dropWhile isPHINode).head?

/-- The first instructions of the blocks that do not only have phi nodes. -/
def starts (blocks : List (List Instruction)) : List Instruction := blocks.filterMap firstNonPHI

/-- What a wave sends before the first instruction of the block. -/
def header (llvm : LLVM) (index : Nat) (inst : Instruction) (frame : Frame) (label : Nat) : List Nat :=
  let (hash, line, column) := location llvm inst.debugLoc
  [(bufferPtr index).eval frame, hash.toNat, line.toNat, column.toNat, basicBlockStartType, label % 2 ^ 32]

/-- The call before the first instruction of the block. -/
def headerCall (llvm : LLVM) (index : Nat) (inst : Instruction) (id label : Nat) : Instruction :=
  let (hash, line, column) := location llvm inst.debugLoc
  ⟨id, .other 0, .call (some submitWaveHeader)
    [bufferPtr index, .int 64 hash.toNat, .int 32 line.toNat, .int 32 column.toNat, .int 32 basicBlockStartType,
      .int 32 (label % 2 ^ 32)], inst.debugLoc⟩

/-- What is inserted before an instruction of the blocks. -/
structure Group (llvm : LLVM) (index firstNew : Nat) (blocks : List (List Instruction)) (inst : Instruction)
    (new : List Instruction) : Prop where
  other : inst ∉ starts blocks → new = []
  first : ∀ label, (starts blocks)[label]? = some inst → ∃ id, firstNew ≤ id ∧ new = [headerCall llvm index inst id label]

section
variable {llvm : LLVM} {index firstNew : Nat}

theorem starts_append (first rest : List (List Instruction)) : starts (first ++ rest) = starts first ++ starts rest :=
  List.filterMap_append

theorem not_isPHINode_of_mem_starts {blocks : List (List Instruction)} {inst : Instruction} (member : inst ∈ starts blocks) :
    isPHINode inst = false := by
  obtain ⟨block, -, first⟩ := List.mem_filterMap.mp member
  have stopped := List.head?_dropWhile_not isPHINode block
  rw [firstNonPHI] at first
  rw [first] at stopped
  exact stopped

theorem starts_sublist (blocks : List (List Instruction)) : (starts blocks).Sublist blocks.flatten := by
  induction blocks with
  | nil => exact .slnil
  | cons block rest ih =>
    have first : (firstNonPHI block).toList.Sublist block := by
      refine .trans ?_ (List.dropWhile_sublist isPHINode)
      unfold firstNonPHI
      cases block.dropWhile isPHINode with
      | nil => exact .slnil
      | cons inst tail => exact List.singleton_sublist.mpr List.mem_cons_self
    have split : starts (block :: rest) = (firstNonPHI block).toList ++ starts rest := by
      rw [starts, List.filterMap_cons]
      cases firstNonPHI block with
      | none => rfl
      | some inst => rfl
    rw [split, List.flatten_cons]
    exact first.append ih

/-! ### The labels -/

variable (llvm index) in
theorem instrumentBlock_woven {done later : List (List Instruction)} {block : List Instruction} {counters : Counters}
    (older : firstNew ≤ counters.nextId) (count : counters.locationCounter.toNat = (starts done).length % 2 ^ 32)
    (distinct : (done ++ block :: later).flatten.Nodup) :
    Woven (Group llvm index firstNew (done ++ block :: later)) block
        (instrumentBlock llvm (bufferPtr index) counters block).1 ∧
      firstNew ≤ (instrumentBlock llvm (bufferPtr index) counters block).2.nextId ∧
      (instrumentBlock llvm (bufferPtr index) counters block).2.locationCounter.toNat =
        (starts (done ++ [block])).length % 2 ^ 32 := by
  have untouched {inst : Instruction} (absent : inst ∉ starts (done ++ block :: later)) :
      Group llvm index firstNew (done ++ block :: later) inst [] := by
    refine ⟨fun _ => rfl, fun label found => ?_⟩
    exact (absent (List.mem_of_getElem? found)).elim
  have phis : ∀ inst ∈ block.takeWhile isPHINode, inst ∉ starts (done ++ block :: later) := by
    intro inst member starting
    have isPhi := List.mem_takeWhile_imp member
    rw [not_isPHINode_of_mem_starts starting] at isPhi
    cases isPhi
  unfold instrumentBlock
  cases behind : block.dropWhile isPHINode with
  | nil =>
    have all : block.takeWhile isPHINode = block := by
      have whole := List.takeWhile_append_dropWhile (p := isPHINode) (l := block)
      rwa [behind, List.append_nil] at whole
    have none : starts [block] = [] := by simp [starts, firstNonPHI, behind]
    rw [all] at phis
    refine ⟨.unchanged fun inst member => untouched (phis inst member), older, ?_⟩
    rw [starts_append, none, List.append_nil]
    exact count
  | cons inst rest =>
    have whole : block.takeWhile isPHINode ++ inst :: rest = block := by
      rw [← behind]
      exact List.takeWhile_append_dropWhile
    have one : starts [block] = [inst] := by simp [starts, firstNonPHI, behind]
    have split : starts (done ++ block :: later) = starts done ++ inst :: starts later := by
      rw [← List.singleton_append, starts_append, starts_append, one]
      rfl
    have unique : (starts (done ++ block :: later)).Nodup := distinct.sublist (starts_sublist _)
    have absent : ∀ other ∈ rest, other ∉ starts (done ++ block :: later) := by
      intro other member starting
      rw [split] at starting
      rw [List.flatten_append, List.flatten_cons, ← whole] at distinct
      obtain ⟨-, here, apart⟩ := List.nodup_append.mp distinct
      obtain ⟨within, -, apart'⟩ := List.nodup_append.mp here
      have follows : other ∈ block.takeWhile isPHINode ++ inst :: rest :=
        List.mem_append_right _ (List.mem_cons_of_mem _ member)
      rcases List.mem_append.mp starting with before | starting
      · have earlier := (starts_sublist done).subset before
        exact apart other earlier other (List.mem_append_left _ follows) rfl
      rcases List.mem_cons.mp starting with rfl | after
      · obtain ⟨-, own, -⟩ := List.nodup_append.mp within
        exact (List.nodup_cons.mp own).1 member
      · exact apart' other follows other ((starts_sublist later).subset after) rfl
    have first : Group llvm index firstNew (done ++ block :: later) inst
        (injectInstrumentationFunction llvm (bufferPtr index) counters inst).inserted := by
      refine ⟨fun missing => ?_, fun label found => ⟨counters.nextId, older, ?_⟩⟩
      · rw [split] at missing
        exact (missing (by simp)).elim
      · have here : (starts (done ++ block :: later))[(starts done).length]? = some inst := by
          rw [split]
          simp
        have same : label = (starts done).length := by
          have inside := (List.getElem?_eq_some_iff.mp found).1
          exact (List.getElem?_inj inside unique).mp (found.trans here.symm)
        rw [same, headerCall, ← count]
        rfl
    refine ⟨?_, ?_, ?_⟩
    · have woven := (Woven.unchanged fun inst member => untouched (phis inst member)).append
        (.cons first (.unchanged fun inst member => untouched (absent inst member)))
      rw [whole, ← List.append_assoc] at woven
      exact woven
    · exact older.trans (Nat.le_succ _)
    · rw [starts_append, one, List.length_append, List.length_singleton]
      show (counters.locationCounter + 1).toNat = _
      rw [UInt32.toNat_add, count, UInt32.toNat_one]
      omega

theorem instrumentBlocks_woven {rest : List (List Instruction)} (done : List (List Instruction)) {counters : Counters}
    (older : firstNew ≤ counters.nextId) (count : counters.locationCounter.toNat = (starts done).length % 2 ^ 32)
    (distinct : (done ++ rest).flatten.Nodup) :
    List.Forall₂ (Woven (Group llvm index firstNew (done ++ rest))) rest
      (instrumentBlocks llvm (bufferPtr index) counters rest) := by
  induction rest generalizing done counters with
  | nil => exact .nil
  | cons block later ih =>
    obtain ⟨woven, older, count⟩ := instrumentBlock_woven llvm index older count distinct
    have split : done ++ block :: later = (done ++ [block]) ++ later := by simp
    refine .cons woven ?_
    rw [split] at distinct ⊢
    exact ih _ older count distinct

/-! ### What waves send -/

/-- The label of the block that starts with the instruction. -/
def label (blocks : List (List Instruction)) (inst : Instruction) : Option Nat := (starts blocks).idxOf? inst

/-- What is sent before an instruction. -/
def announced {W : Type} (llvm : LLVM) (index : Nat) (blocks : List (List Instruction)) (inst : Instruction) (wave : Wave W) :
    Option (List Nat) :=
  (label blocks inst).map (header llvm index inst wave.frame)

theorem label_none {blocks : List (List Instruction)} {inst : Instruction} (none : label blocks inst = none) :
    inst ∉ starts blocks := by
  rwa [label, List.idxOf?_eq_none_iff] at none

theorem label_some {blocks : List (List Instruction)} {inst : Instruction} {k : Nat} (found : label blocks inst = some k) :
    (starts blocks)[k]? = some inst := by
  obtain ⟨inside, same, -⟩ := List.idxOf?_eq_some_iff.mp found
  rw [List.getElem?_eq_getElem inside]
  exact congrArg some same

theorem headerCall_sent {W : Type} (inst : Instruction) (id k : Nat) (wave : Wave W) :
    sent submitWaveHeader (headerCall llvm index inst id k, wave) = some (header llvm index inst wave.frame k) := by
  simp only [sent, headerCall, header, List.map_cons, List.map_nil, Value.eval, bufferPtr]
  simp [basicBlockStartType]

end

section
variable {W : Type} (llvm : LLVM) (index : Nat) (kernel : KernelBody)

theorem runOnFunction_woven :
    List.Forall₂ (Woven (Group llvm index kernel.nextId kernel.blocks)) kernel.blocks
      (runOnFunction llvm index kernel.blocks kernel.nextId) :=
  instrumentBlocks_woven [] (Nat.le_refl _) rfl (kernel.distinct.of_map _)

theorem Group.new_eq {llvm : LLVM} {index firstNew : Nat} {blocks : List (List Instruction)} {inst : Instruction}
    {new : List Instruction} (group : Group llvm index firstNew blocks inst new) :
    label blocks inst = none ∧ new = [] ∨
      ∃ k id, label blocks inst = some k ∧ firstNew ≤ id ∧ new = [headerCall llvm index inst id k] := by
  cases found : label blocks inst with
  | none => exact .inl ⟨rfl, group.other (label_none found)⟩
  | some k =>
    obtain ⟨id, older, one⟩ := group.first k (label_some found)
    exact .inr ⟨k, id, rfl, older, one⟩

theorem harmless : Harmless submitWaveHeader kernel.nextId fun inst new =>
    inst ∈ kernel.blocks.flatten ∧ Group llvm index kernel.nextId kernel.blocks inst new where
  new := by
    rintro inst new ⟨-, group⟩ other member
    rcases group.new_eq with ⟨-, rfl⟩ | ⟨k, id, -, older, rfl⟩
    · cases member
    · obtain rfl := List.mem_singleton.mp member
      exact ⟨older, .inr (by simp [headerCall, Op.calls])⟩
  old := by
    rintro inst new ⟨member, -⟩
    exact ⟨kernel.below inst member, kernel.reads inst member⟩

theorem announced_reports (device : Device W) (submits : device.Submits kernel.nextId submitWaveHeader)
    (confined : device.Confined kernel.nextId) :
    Reports device submitWaveHeader kernel.nextId kernel.blocks (runOnFunction llvm index kernel.blocks kernel.nextId)
      fun inst wave sent => sent = (announced llvm index kernel.blocks inst wave).toList := by
  refine (harmless llvm index kernel).reports submits confined ?_
    (woven_weaken (runOnFunction_woven llvm index kernel) fun inst member new group => ⟨member, group⟩)
  rintro inst new ⟨-, group⟩ block wave wave' last events same ran
  have insts := ran.insts
  rcases group.new_eq with ⟨none, rfl⟩ | ⟨k, id, found, older, rfl⟩
  · obtain rfl := List.map_eq_nil_iff.mp insts
    rw [announced, none]
    rfl
  · cases ran with
    | cons _ later =>
      cases later
      rw [messages, List.filter_cons_of_pos (by exact decide_eq_true older)]
      show List.filterMap (sent submitWaveHeader) [(headerCall llvm index inst id k, wave')] = _
      rw [List.filterMap_cons_some (headerCall_sent inst id k wave'), announced, found]
      have frame : header llvm index inst wave'.frame k = header llvm index inst wave.frame k := by
        simp only [header, bufferPtr, Value.eval, same.frame.argument]
      rw [frame]
      rfl

theorem label_of_mem {blocks : List (List Instruction)} {block : List Instruction} (member : block ∈ blocks)
    {inst : Instruction} (first : firstNonPHI block = some inst) :
    ∃ k < blocks.length, ∀ other, label blocks other = some k ↔ other = inst := by
  have starting : inst ∈ starts blocks := List.mem_filterMap.mpr ⟨block, member, first⟩
  obtain ⟨k, found⟩ : ∃ k, label blocks inst = some k := by
    rw [← Option.isSome_iff_exists, label, List.isSome_idxOf?]
    exact starting
  have inside := (List.getElem?_eq_some_iff.mp (label_some found)).1
  refine ⟨k, Nat.lt_of_lt_of_le inside (List.length_filterMap_le _ _), fun other => ⟨fun same => ?_, ?_⟩⟩
  · exact Option.some.inj ((label_some same).symm.trans (label_some found))
  · rintro rfl
    exact found

/-- Before a block's first instruction that is no phi node the wave header is submitted with the block's label, and the
kernel does not see it. -/
theorem runOnFunction_reports (device : Device W) (submits : device.Submits kernel.nextId submitWaveHeader)
    (confined : device.Confined kernel.nextId) :
    Reports device submitWaveHeader kernel.nextId kernel.blocks (runOnFunction llvm index kernel.blocks kernel.nextId)
        (fun inst wave sent => sent = (announced llvm index kernel.blocks inst wave).toList) ∧
      ∀ block ∈ kernel.blocks, ∀ inst, firstNonPHI block = some inst →
        ∃ k < kernel.blocks.length, ∀ other, label kernel.blocks other = some k ↔ other = inst :=
  ⟨announced_reports llvm index kernel device submits confined, fun _ member _ first => label_of_mem member first⟩

end

namespace Sample
open Instrumentation.Sample

/-- Jumps, a conditional branch and a return; phi nodes do nothing here. -/
def device : Device Nat :=
  counting submitWaveHeader id fun op next =>
    match op with
    | .other 1 => next = .jump 1
    | .other 2 => next = .jump 1 ∨ next = .jump 2
    | .other 3 => next = .leave
    | _ => next = .proceed

def inst (id opcode : Nat) : Instruction := ⟨id, .other 0, .other opcode, none⟩

def kernel : KernelBody where
  blocks := [[inst 0 1], [inst 1 0, inst 2 2], [inst 3 3]]
  nextId := 4
  distinct := by decide
  below := by decide
  reads := by
    have simple : ∀ other ∈ [[inst 0 1], [inst 1 0, inst 2 2], [inst 3 3]].flatten, other.op.operands = [] := by decide
    intro other member value used
    rw [simple other member] at used
    cases used

/-- A wave when so many messages have been sent. -/
def sending (messages : Nat) : Wave Nat := ⟨⟨fun _ => 0, fun _ => 0, fun _ => 0⟩, messages⟩

theorem submits (firstNew : Nat) : device.Submits firstNew submitWaveHeader := by
  refine counting_submits (fun {op next} calls => ?_) firstNew
  cases op with
  | call => exact Iff.rfl
  | _ => cases calls

theorem confined (firstNew : Nat) : device.Confined firstNew := counting_confined firstNew

end Sample

theorem runOnFunction_reports_sample :
    Reports Sample.device submitWaveHeader 4 Sample.kernel.blocks (runOnFunction foldsNothing 0 Sample.kernel.blocks 4)
      fun inst wave sent => sent = (announced foldsNothing 0 Sample.kernel.blocks inst wave).toList :=
  (runOnFunction_reports foldsNothing 0 Sample.kernel Sample.device (Sample.submits 4) (Sample.confined 4)).1

end Omniprobe.Instrumentation.BBStart
