import Omniprobe.Instrumentation.AddressMessages

/-!
# The coverage of the address message pass

The loop inserts into the block it runs over. What is behind the iterator is instrumented, and what is
ahead of it is the clone's: a round never meets what an earlier one inserted.
-/

namespace Omniprobe.Instrumentation
open Lib Scope

/-! ### Positions of the loop -/

/-- The state with the iterator at the first instruction of `todo`. -/
def stateAt (doneBlocks : List (List Instruction)) (current todo : List Instruction) (later : List (List Instruction))
    (nextId : Nat) : PassState :=
  ⟨doneBlocks ++ (current ++ todo) :: later, nextId, doneBlocks.length, firstNode Instruction.id todo⟩

/-- What is ahead of the iterator: the clone's own instructions, all different. -/
structure Ahead (firstNew : Nat) (todo : List Instruction) (later : List (List Instruction)) : Prop where
  below : ∀ inst ∈ todo ++ later.flatten, inst.id < firstNew
  distinct : ((todo ++ later.flatten).map Instruction.id).Nodup

theorem Ahead.tail {firstNew : Nat} {inst : Instruction} {rest : List Instruction} {later : List (List Instruction)}
    (ahead : Ahead firstNew (inst :: rest) later) :
    Ahead firstNew rest later ∧ ∀ other ∈ rest, inst.id ≠ other.id := by
  obtain ⟨below, distinct⟩ := ahead
  rw [List.cons_append] at below distinct
  rw [List.map_cons, List.nodup_cons] at distinct
  refine ⟨⟨(List.forall_mem_cons.mp below).2, distinct.2⟩, fun other member same => distinct.1 ?_⟩
  rw [same]
  exact List.mem_map_of_mem (List.mem_append_left _ member)

theorem Ahead.next {firstNew : Nat} {block : List Instruction} {later : List (List Instruction)}
    (ahead : Ahead firstNew [] (block :: later)) : Ahead firstNew block later := by
  obtain ⟨below, distinct⟩ := ahead
  rw [List.nil_append, List.flatten_cons] at below distinct
  exact ⟨below, distinct⟩

section
variable (llvm : LLVM) (scope : InstrumentationScope) (ptr : Value)

theorem step_next (doneBlocks : List (List Instruction)) (current block : List Instruction)
    (later : List (List Instruction)) (nextId : Nat) :
    (stateAt doneBlocks current [] (block :: later) nextId).step llvm scope ptr =
      some (stateAt (doneBlocks ++ [current]) [] block later nextId) := by
  have here : (doneBlocks ++ (current ++ []) :: block :: later)[doneBlocks.length]? = some (current ++ []) := by simp
  have behind : firstInstruction (doneBlocks ++ (current ++ []) :: block :: later) (doneBlocks.length + 1) =
      firstNode Instruction.id block := by
    simp [firstInstruction]
  simp only [PassState.step, stateAt, here, firstNode, List.head?_nil, Option.map_none]
  rw [behind]
  simp [firstNode]

theorem step_last (doneBlocks : List (List Instruction)) (current : List Instruction) (nextId : Nat) :
    (stateAt doneBlocks current [] [] nextId).step llvm scope ptr =
      some ⟨doneBlocks ++ [current], nextId, doneBlocks.length + 1, none⟩ := by
  have here : (doneBlocks ++ [current ++ []])[doneBlocks.length]? = some (current ++ []) := by simp
  simp only [PassState.step, stateAt, here, firstNode, List.head?_nil, Option.map_none]
  simp [firstInstruction]

/-- The loop can go on from the position. -/
structure Ready (firstNew : Nat) (doneBlocks : List (List Instruction)) (current todo : List Instruction)
    (later : List (List Instruction)) (nextId : Nat) : Prop where
  operands : ∀ other ∈ (doneBlocks ++ (current ++ todo) :: later).flatten, other.op.OperandsPresent
  ahead : Ahead firstNew todo later
  older : firstNew ≤ nextId
  apart : ∀ other ∈ current, ∀ inst ∈ todo, other.id ≠ inst.id

/-- A round inserts before its instruction, and the iterator moves behind it. -/
theorem step_instruction {firstNew : Nat} {doneBlocks : List (List Instruction)} {current : List Instruction}
    {inst : Instruction} {rest : List Instruction} {later : List (List Instruction)} {nextId : Nat}
    (ready : Ready firstNew doneBlocks current (inst :: rest) later nextId) :
    ∃ after, (stateAt doneBlocks current (inst :: rest) later nextId).step llvm scope ptr =
        some (stateAt doneBlocks (current ++ after.inserted ++ [inst]) rest later after.nextId) ∧
      Inserts scope nextId inst after := by
  have present : inst.op.OperandsPresent := ready.operands inst (by simp)
  have apart : ∀ other ∈ current, other.id ≠ inst.id := fun other member =>
    ready.apart other member inst List.mem_cons_self
  obtain ⟨after, round, inserts⟩ := instrument_inserts llvm scope ptr ready.operands nextId present
  refine ⟨after, ?_, inserts⟩
  have new : ∀ other ∈ current ++ after.inserted, other.id ≠ inst.id := by
    refine List.forall_mem_append.mpr ⟨apart, fun other member same => ?_⟩
    have above := inserts.group.new other member
    have below := ready.ahead.below inst (List.mem_append_left _ List.mem_cons_self)
    have older := ready.older
    omega
  have here : (doneBlocks ++ (current ++ inst :: rest) :: later)[doneBlocks.length]? = some (current ++ inst :: rest) := by
    simp
  have first : firstNode Instruction.id (inst :: rest) = some inst.id := rfl
  simp only [PassState.step, stateAt, here, first, find_split apart, round, Option.bind_eq_bind, Option.bind_some,
    Option.pure_def, insertBefore_split _ apart, nextNode_split new]
  simp

/-- What was inserted has new numbers, so that it is not met again. -/
theorem Ready.round {firstNew : Nat} {doneBlocks : List (List Instruction)} {current : List Instruction}
    {inst : Instruction} {rest : List Instruction} {later : List (List Instruction)} {nextId : Nat} {after : Builder}
    (ready : Ready firstNew doneBlocks current (inst :: rest) later nextId) (inserts : Inserts scope nextId inst after) :
    Ready firstNew doneBlocks (current ++ after.inserted ++ [inst]) rest later after.nextId := by
  obtain ⟨ahead, different⟩ := ready.ahead.tail
  refine ⟨fun other member => ?_, ahead, ready.older.trans inserts.nextId, ?_⟩
  · have split : other ∈ (doneBlocks ++ (current ++ inst :: rest) :: later).flatten ∨ other ∈ after.inserted := by
      simp only [List.flatten_append, List.flatten_cons, List.mem_append, List.mem_cons, List.not_mem_nil, or_false] at member ⊢
      tauto
    exact split.elim (ready.operands other) (inserts.operands other)
  · refine List.forall_mem_append.mpr ⟨List.forall_mem_append.mpr ⟨?_, ?_⟩, List.forall_mem_singleton.mpr different⟩
    · exact fun other member following behind => ready.apart other member following (List.mem_cons_of_mem _ behind)
    · intro other member following behind same
      have above := inserts.group.new other member
      have below := ahead.below following (List.mem_append_left _ behind)
      have older := ready.older
      omega

/-! ### Runs of the loop -/

theorem Group.older {scope : InstrumentationScope} {firstNew nextId : Nat} {inst : Instruction}
    {inserted : List Instruction} (group : Group scope nextId inst inserted) (older : firstNew ≤ nextId) :
    Group scope firstNew inst inserted :=
  ⟨fun other member => older.trans (group.new other member), group.uncovered, group.called⟩

/-- From the position, the loop is left with the rest of the function instrumented. -/
def Leaves (firstNew : Nat) (doneBlocks : List (List Instruction)) (current todo : List Instruction)
    (later : List (List Instruction)) (nextId : Nat) : Prop :=
  ∃ rounds final todo' later',
    Ends (PassState.step llvm scope ptr) rounds (stateAt doneBlocks current todo later nextId) final ∧
      final.bb = final.blocks.length ∧ final.blocks = doneBlocks ++ (current ++ todo') :: later' ∧
        InstrumentedBlock scope firstNew todo todo' ∧ List.Forall₂ (InstrumentedBlock scope firstNew) later later'

theorem leaves_of_end {firstNew : Nat} {doneBlocks : List (List Instruction)} {later : List (List Instruction)}
    (atEnd : ∀ current nextId, Ready firstNew doneBlocks current [] later nextId →
      Leaves llvm scope ptr firstNew doneBlocks current [] later nextId)
    {todo current : List Instruction} {nextId : Nat} (ready : Ready firstNew doneBlocks current todo later nextId) :
    Leaves llvm scope ptr firstNew doneBlocks current todo later nextId := by
  -- on the instructions of the block that are ahead
  induction todo generalizing current nextId with
  | nil => exact atEnd current nextId ready
  | cons inst rest ih =>
    obtain ⟨after, taken, inserts⟩ := step_instruction llvm scope ptr ready
    obtain ⟨rounds, final, rest', later', ended, left, blocks, placed, others⟩ := ih (ready.round scope inserts)
    refine ⟨rounds + 1, final, after.inserted ++ inst :: rest', later', .round taken ended, left, ?_, ?_, others⟩
    · rw [blocks]
      simp
    · exact .cons (inserts.group.older ready.older) placed

theorem leaves_of_ready {firstNew : Nat} {later : List (List Instruction)} {doneBlocks : List (List Instruction)}
    {current todo : List Instruction} {nextId : Nat} (ready : Ready firstNew doneBlocks current todo later nextId) :
    Leaves llvm scope ptr firstNew doneBlocks current todo later nextId := by
  -- on the blocks that are ahead
  induction later generalizing doneBlocks current todo nextId with
  | nil =>
    refine leaves_of_end llvm scope ptr (fun current nextId _ => ?_) ready
    have taken := step_last llvm scope ptr doneBlocks current nextId
    have left : PassState.step llvm scope ptr ⟨doneBlocks ++ [current], nextId, doneBlocks.length + 1, none⟩ = none := by
      simp [PassState.step]
    exact ⟨1, _, [], [], .round taken (.stop left), by simp, by simp, .nil, .nil⟩
  | cons block later ih =>
    refine leaves_of_end llvm scope ptr (fun current nextId ready => ?_) ready
    have taken := step_next llvm scope ptr doneBlocks current block later nextId
    have next : Ready firstNew (doneBlocks ++ [current]) [] block later nextId :=
      ⟨by simpa using ready.operands, ready.ahead.next, ready.older, List.forall_mem_nil _⟩
    obtain ⟨rounds, final, block', later', ended, left, blocks, placed, others⟩ := ih next
    exact ⟨rounds + 1, final, [], block' :: later', .round taken ended, left, by simpa using blocks, .nil,
      .cons placed others⟩

end

/-! ### What is left in the clone -/

section
variable {scope : InstrumentationScope} {firstNew : Nat} {block block' : List Instruction}

theorem InstrumentedBlock.kept (placed : InstrumentedBlock scope firstNew block block')
    (below : ∀ inst ∈ block, inst.id < firstNew) : block'.filter (fun inst => inst.id < firstNew) = block := by
  induction placed with
  | nil => rfl
  | @cons inst inserted rest rest' group later ih =>
    obtain ⟨old, below⟩ := List.forall_mem_cons.mp below
    have none : inserted.filter (fun inst => inst.id < firstNew) = [] := by
      rw [List.filter_eq_nil_iff]
      intro other member
      have above := group.new other member
      simp only [decide_eq_true_eq]
      omega
    rw [List.filter_append, none, List.nil_append, List.filter_cons_of_pos (by simpa using old), ih below]

theorem InstrumentedBlock.calls (placed : InstrumentedBlock scope firstNew block block')
    (below : ∀ inst ∈ block, inst.id < firstNew) :
    List.Forall₂ Carries (block.filter (covered scope))
      (block'.filter fun inst => firstNew ≤ inst.id ∧ inst.isSubmit) := by
  induction placed with
  | nil => exact .nil
  | @cons inst inserted rest rest' group later ih =>
    obtain ⟨old, below⟩ := List.forall_mem_cons.mp below
    have notNew : (inst :: rest').filter (fun inst => firstNew ≤ inst.id ∧ inst.isSubmit) =
        rest'.filter fun inst => firstNew ≤ inst.id ∧ inst.isSubmit := by
      refine List.filter_cons_of_neg ?_
      simp only [decide_eq_true_eq]
      omega
    have submitted : inserted.filter (fun inst => firstNew ≤ inst.id ∧ inst.isSubmit) =
        inserted.filter Instruction.isSubmit := by
      refine List.filter_congr fun other member => ?_
      simp [group.new other member]
    rw [List.filter_append, submitted, notNew]
    by_cases access : covered scope inst = true
    · obtain ⟨call, only, carries⟩ := group.called access
      rw [only, List.filter_cons_of_pos access]
      exact .cons carries (ih below)
    · rw [group.uncovered (Bool.eq_false_iff.mpr access), List.filter_cons_of_neg access]
      exact ih below

end

theorem forall₂_of_blocks {R S : List Instruction → List Instruction → Prop} {blocks blocks' : List (List Instruction)}
    (placed : List.Forall₂ R blocks blocks') (each : ∀ block ∈ blocks, ∀ block', R block block' → S block block') :
    List.Forall₂ S blocks blocks' := by
  induction placed with
  | nil => exact .nil
  | cons here later ih =>
    obtain ⟨first, others⟩ := List.forall_mem_cons.mp each
    exact .cons (first _ here) (ih others)

/-- Blocks with calls before their accesses are all that an instrumented clone needs. -/
theorem instrumented_of_placed {scope : InstrumentationScope} {clone : KernelClone} {after : List (List Instruction)}
    (placed : List.Forall₂ (InstrumentedBlock scope clone.nextId) clone.blocks after) :
    Instrumented scope clone after := by
  have below (block : List Instruction) (member : block ∈ clone.blocks) : ∀ inst ∈ block, inst.id < clone.nextId :=
    fun inst within => clone.below inst (List.mem_flatten_of_mem member within)
  refine ⟨?_, ?_, placed⟩
  · have kept := forall₂_of_blocks placed fun block member block' here => (here.kept (below block member)).symm
    rw [← List.forall₂_eq_eq_eq, List.forall₂_map_left_iff]
    exact kept.flip.imp fun _ _ same => same.symm
  · have calls := forall₂_of_blocks placed fun block member block' here => here.calls (below block member)
    rw [List.filter_flatten, List.filter_flatten]
    exact List.rel_flatten (List.forall₂_map_left_iff.mpr (List.forall₂_map_right_iff.mpr calls))

/-- The loop is left at the end of the function, and the clone is as before but for a call at each access in scope. -/
theorem runOnModule_covers (llvm : LLVM) (scope : InstrumentationScope) (ptr : Value) (clone : KernelClone) :
    ∃ rounds final, Ends (PassState.step llvm scope ptr) rounds clone.start final ∧
      final.bb = final.blocks.length ∧ Instrumented scope clone final.blocks := by
  cases entry : clone.blocks with
  | nil =>
    have left : clone.start.step llvm scope ptr = none := by
      simp [KernelClone.start, PassState.step, entry]
    refine ⟨0, clone.start, .stop left, by simp [KernelClone.start, entry], instrumented_of_placed ?_⟩
    simp [KernelClone.start, entry]
  | cons block later =>
    have start : clone.start = stateAt [] [] block later clone.nextId := by
      simp [KernelClone.start, stateAt, firstInstruction, entry]
    have ready : Ready clone.nextId [] [] block later clone.nextId := by
      refine ⟨?_, ⟨?_, ?_⟩, Nat.le_refl _, List.forall_mem_nil _⟩
      · simpa [entry] using clone.operands
      · simpa [entry] using clone.below
      · simpa [entry] using clone.distinct
    obtain ⟨rounds, final, block', later', ended, left, blocks, placed, others⟩ :=
      leaves_of_ready llvm scope ptr ready
    refine ⟨rounds, final, start ▸ ended, left, instrumented_of_placed ?_⟩
    rw [entry, blocks]
    exact .cons placed others

end Omniprobe.Instrumentation
