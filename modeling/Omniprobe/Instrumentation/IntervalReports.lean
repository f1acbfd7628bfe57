import Omniprobe.Instrumentation.BlockCounts
import Omniprobe.Instrumentation.IntervalExecutions

/-!
# The kernel within its measured blocks

The kernel does not see what measures its blocks, and for each block that it finishes one interval is sent.
-/

namespace Omniprobe.Instrumentation.BBInterval
open Lib BBStart Handlers

/-! ### New lines are not seen -/

section
variable {W : Type} {device : Device W} {timing : Timing W} {firstNew : Nat}

/-- The instruction is one of those that the pass relies on. -/
def NewOp.Known : NewOp → Prop
  | .call callee _ => InLibrary callee
  | _ => True

/-- New lines in front of an instruction of the kernel. -/
def Group (firstNew : Nat) : Line → List Line → Prop
  | .own inst, new =>
    (inst.id < firstNew ∧ inst.op.ReadsBelow firstNew) ∧
      ∀ line ∈ new, ∃ inserted, line = .new inserted ∧ firstNew ≤ inserted.id ∧ inserted.op.Known
  | .new _, _ => False

/-- The kernel cannot tell the states apart. -/
def Timed.Same (device : Device W) (firstNew : Nat) (state other : Timed W) : Prop :=
  Wave.Same device firstNew state.wave other.wave

theorem Group.inserted {before line : Line} {new : List Line} (group : Group firstNew before new) (member : line ∈ new) :
    ∃ inserted, line = .new inserted ∧ firstNew ≤ inserted.id ∧ inserted.op.Known := by
  cases before with
  | own inst => exact group.2 line member
  | new inst => exact group.elim

theorem Quiet.same {id : Nat} (new : firstNew ≤ id) {state after : Timed W} (quiet : Quiet device id state after)
    (known : state.wave.frame.constant = device.constant) : state.Same device firstNew after := by
  refine ⟨⟨quiet.argument, known, quiet.constant.trans known, fun old below => quiet.result old ?_⟩, quiet.world⟩
  omega

/-- Where time passes behind a change, the change is quiet if it is without the time. -/
theorem Timing.Passes.quiet (keeps : timing.KeepsTime device) {id : Nat} {state done after : Timed W}
    (quiet : Quiet device id state done) (passes : timing.Passes done after) : Quiet device id state after := by
  obtain ⟨now, late, rfl⟩ := passes.settled keeps
  exact { quiet with clock := UInt64.le_trans quiet.clock late }

theorem quiet_setResult (device : Device W) (state : Timed W) (id n : Nat) : Quiet device id state (state.setResult id n) :=
  ⟨UInt64.le_refl _, rfl, rfl, fun _ differ => if_neg differ, device.equivalence.refl _⟩

theorem quiet_setWord (device : Device W) (state : Timed W) (id address n : Nat) :
    Quiet device id state (state.setWord address n) :=
  ⟨UInt64.le_refl _, rfl, rfl, fun _ _ => rfl, device.equivalence.refl _⟩

section
variable (keeps : timing.KeepsTime device)
include keeps

theorem performNew_goesOn {inst : NewInstruction} (known : inst.op.Known) (state : Timed W) :
    ∃ after, performNew device timing inst state after := by
  have passes (done : Timed W) : ∃ after, timing.Passes done after := by
    obtain ⟨now, may⟩ := keeps.goesOn done.clock
    exact ⟨_, now, may, rfl⟩
  obtain ⟨id, ty, op, loc⟩ := inst
  cases op with
  | call callee args => exact keeps.returns known id _ state
  | alloca words =>
    obtain ⟨after, passed⟩ := passes (state.setResult id 0)
    exact ⟨after, 0, Nat.two_pow_pos 32, passed⟩
  | _ => exact passes _

theorem performNew_quiet {inst : NewInstruction} (known : inst.op.Known) {state after : Timed W}
    (performed : performNew device timing inst state after) : Quiet device inst.id state after := by
  obtain ⟨id, ty, op, loc⟩ := inst
  cases op with
  | call callee args => exact (keeps.quiet known performed).1
  | alloca words =>
    obtain ⟨address, -, passes⟩ := performed
    exact passes.quiet keeps (quiet_setResult device state id address)
  | store value pointer => exact Timing.Passes.quiet keeps (quiet_setWord device state id _ _) performed
  | inBoundsGEP pointer index => exact Timing.Passes.quiet keeps (quiet_setResult device state id _) performed
  | cast op value => exact Timing.Passes.quiet keeps (quiet_setResult device state id _) performed

end

theorem lineMachine_same (unreached : timing.Unreached device) (confined : device.Confined firstNew) {inst : Instruction}
    (old : inst.id < firstNew) (reads : inst.op.ReadsBelow firstNew) {block : Nat} {state other after : Timed W}
    {next : Next} (same : state.Same device firstNew other)
    (performed : lineMachine device timing block (.own inst) state after next) :
    ∃ after', lineMachine device timing block (.own inst) other after' next ∧ after.Same device firstNew after' := by
  obtain ⟨wave, kept, related⟩ := machine_same confined old reads same (unreached.lowers performed)
  obtain ⟨after', performed', rfl⟩ := unreached.raises other kept
  exact ⟨after', performed', related⟩

theorem lineMachine_unseen (unreached : timing.Unreached device) (keeps : timing.KeepsTime device)
    (confined : device.Confined firstNew) :
    Unseen (lineMachine device timing) (Group firstNew) (Timed.Same device firstNew) fun _ _ events => ownOf events = [] where
  goesOn given other member block state state' same := by
    obtain ⟨inserted, rfl, -, known⟩ := given.inserted member
    obtain ⟨after, performed⟩ := performNew_goesOn keeps known state'
    exact ⟨after, performed, rfl⟩
  kept given other member block state state' after next same performed := by
    obtain ⟨inserted, rfl, new, known⟩ := given.inserted member
    have quiet := performNew_quiet keeps known performed.1
    exact ⟨performed.2, Wave.Same.trans same (quiet.same new same.frame.there)⟩
  shown given block state state' last events same ran := by
    rw [ownOf_eq, ran.insts, List.filterMap_eq_nil_iff]
    intro line member
    obtain ⟨inserted, rfl, -⟩ := given.inserted member
    rfl
  forth {inst new} given block state state' after next same performed := by
    cases inst with
    | own inst => exact lineMachine_same unreached confined given.1.1 given.1.2 same performed
    | new inst => exact given.elim
  back {inst new} given block state state' after' next same performed := by
    cases inst with
    | own inst =>
      obtain ⟨after, here, related⟩ :=
        lineMachine_same unreached confined given.1.1 given.1.2 (Wave.Same.symm same) performed
      exact ⟨after, here, Wave.Same.symm related⟩
    | new inst => exact given.elim

/-! ### The kernel's lines -/

def lift (blocks : List (List Instruction)) : List (List Line) := blocks.map fun block => block.map .own

theorem lift_getD (blocks : List (List Instruction)) (block : Nat) :
    (lift blocks)[block]?.getD [] = (blocks[block]?.getD []).map .own := by
  rw [lift, List.getElem?_map]
  cases blocks[block]? with
  | none => rfl
  | some insts => rfl

theorem enter_lift (blocks : List (List Instruction)) (block : Nat) (state : Timed W) :
    Position.enter (lift blocks) block state = ⟨block, (blocks[block]?.getD []).map .own, state⟩ := by
  rw [Position.enter, lift_getD]

/-- The same part of an execution, of the kernel and of its lines. -/
structure Raises (events : List (Instruction × Wave W)) (last : Position Instruction (Wave W))
    (events' : List (Line × Timed W)) (last' : Position Line (Timed W)) : Prop where
  block : last'.block = last.block
  todo : last'.todo = last.todo.map .own
  wave : last'.state.wave = last.state
  insts : ownOf events' = events.map Prod.fst

theorem Raises.cons {events : List (Instruction × Wave W)} {last : Position Instruction (Wave W)}
    {events' : List (Line × Timed W)} {last' : Position Line (Timed W)} (raises : Raises events last events' last')
    (inst : Instruction) (wave : Wave W) (state : Timed W) :
    Raises ((inst, wave) :: events) last ((.own inst, state) :: events') last' :=
  ⟨raises.block, raises.todo, raises.wave, congrArg (inst :: ·) raises.insts⟩

variable {kernel : List (List Instruction)}

theorem after_lift (kernel : List (List Instruction)) (block : Nat) (rest : List Instruction) (state : Timed W) (next : Next) :
    ∃ number todo, Position.after kernel block rest state.wave next = ⟨number, todo, state.wave⟩ ∧
      Position.after (lift kernel) block (rest.map .own) state next = ⟨number, todo.map .own, state⟩ := by
  cases next with
  | proceed => exact ⟨block, rest, rfl, rfl⟩
  | jump target => exact ⟨target, _, rfl, enter_lift kernel target state⟩
  | leave => exact ⟨block, [], rfl, rfl⟩

section
variable (unreached : timing.Unreached device)
include unreached

theorem executes_raise {position last : Position Instruction (Wave W)} {events : List (Instruction × Wave W)}
    (executes : Executes device.machine kernel position events last) {state : Timed W}
    (wave : state.wave = position.state) :
    ∃ events' last', Executes (lineMachine device timing) (lift kernel) ⟨position.block, position.todo.map .own, state⟩
      events' last' ∧ Raises events last events' last' := by
  induction executes generalizing state with
  | stop position => exact ⟨[], _, .stop _, rfl, rfl, wave, rfl⟩
  | @step block inst rest here after next events last performed _ ih =>
    obtain rfl : state.wave = here := wave
    obtain ⟨there, performed', rfl⟩ := unreached.raises state performed
    obtain ⟨number, todo, plain, lifted⟩ := after_lift kernel block rest there next
    rw [plain] at ih
    obtain ⟨events', last', executes', raises⟩ := @ih there rfl
    rw [← lifted] at executes'
    have line : lineMachine device timing block (.own inst) state there next := performed'
    exact ⟨_, last', .step line executes', raises.cons inst _ state⟩

theorem executes_lower {position' last' : Position Line (Timed W)} {events' : List (Line × Timed W)}
    (executes : Executes (lineMachine device timing) (lift kernel) position' events' last') {todo : List Instruction}
    (own : position'.todo = todo.map .own) :
    ∃ events last, Executes device.machine kernel ⟨position'.block, todo, position'.state.wave⟩
      events last ∧ Raises events last events' last' := by
  induction executes generalizing todo with
  | stop position' => exact ⟨[], _, .stop _, rfl, own, rfl, rfl⟩
  | @step block line rest state after next events' last' performed _ ih =>
    cases todo with
    | nil => cases own
    | cons inst todo =>
      obtain ⟨rfl, rfl⟩ := List.cons.inj own
      obtain ⟨number, behind, plain, lifted⟩ := after_lift kernel block todo after next
      rw [lifted] at ih
      obtain ⟨events, last, executes, raises⟩ := @ih behind rfl
      rw [← plain] at executes
      exact ⟨_, last, .step (unreached.lowers performed) executes, raises.cons inst state.wave state⟩

end

/-! ### The program -/

variable {llvm : LLVM} {index : Nat}

theorem Instruments.woven {id : Nat} {bbIndex : UInt32} {block : List Instruction} {lines : List Line}
    (instruments : Instruments llvm index id bbIndex block lines) (older : firstNew ≤ id)
    (old : ∀ inst ∈ block, inst.id < firstNew ∧ inst.op.ReadsBelow firstNew) :
    Woven (Group firstNew) (block.map .own) lines := by
  obtain @⟨phis, body, first, terminator, -, -, -⟩ := instruments
  have opening : ∀ line ∈ (openingLines id first.debugLoc).map Line.new,
      ∃ inserted, line = .new inserted ∧ firstNew ≤ inserted.id ∧ inserted.op.Known := by
    simp [openingLines, NewOp.Known, InLibrary]
    omega
  have closing : ∀ line ∈ (closingLines llvm index id bbIndex first.debugLoc terminator.debugLoc).map Line.new,
      ∃ inserted, line = .new inserted ∧ firstNew ≤ inserted.id ∧ inserted.op.Known := by
    simp [closingLines, NewOp.Known, InLibrary]
    omega
  have plain {insts : List Instruction} (own : ∀ inst ∈ insts, inst.id < firstNew ∧ inst.op.ReadsBelow firstNew) :
      Woven (Group firstNew) (insts.map .own) (insts.map .own) := by
    refine .unchanged fun line member => ?_
    obtain ⟨inst, inside, rfl⟩ := List.mem_map.mp member
    exact ⟨own inst inside, List.forall_mem_nil _⟩
  obtain ⟨before, last⟩ := List.forall_mem_append.mp old
  obtain ⟨phisOld, bodyOld⟩ := List.forall_mem_append.mp before
  have lastOld := List.forall_mem_singleton.mp last
  have rest : Woven (Group firstNew) ((body ++ [terminator]).map .own)
      ((openingLines id first.debugLoc).map .new ++ body.map .own ++
        (closingLines llvm index id bbIndex first.debugLoc terminator.debugLoc).map .new ++ [.own terminator]) := by
    cases body with
    | nil =>
      -- the block is its terminator
      rw [List.map_nil, List.append_nil]
      exact .cons ⟨lastOld, List.forall_mem_append.mpr ⟨opening, closing⟩⟩ .nil
    | cons inst body =>
      obtain ⟨instOld, bodyOld⟩ := List.forall_mem_cons.mp bodyOld
      have ends : Woven (Group firstNew) [.own terminator]
          ((closingLines llvm index id bbIndex first.debugLoc terminator.debugLoc).map .new ++ [.own terminator]) :=
        .cons ⟨lastOld, closing⟩ .nil
      have behind := (plain bodyOld).append ends
      have here : Group firstNew (.own inst) _ := ⟨instOld, opening⟩
      simpa using Woven.cons here behind
  have whole := (plain phisOld).append rest
  simpa using whole

theorem InstrumentedBy.woven {kernel : KernelBody} {program : List (List Line)}
    (instrumented : InstrumentedBy llvm index kernel.blocks kernel.nextId program) :
    List.Forall₂ (Woven (Group kernel.nextId)) (lift kernel.blocks) program := by
  rw [List.forall₂_iff_get]
  refine ⟨by rw [instrumented.length, lift, List.length_map], fun number inside inside' => ?_⟩
  have within : number < kernel.blocks.length := by rwa [lift, List.length_map] at inside
  obtain ⟨lines, found, instruments⟩ := instrumented.each number _ (List.getElem?_eq_getElem within)
  obtain ⟨_, rfl⟩ := List.getElem?_eq_some_iff.mp found
  have own : (lift kernel.blocks).get ⟨number, inside⟩ = kernel.blocks[number].map .own := List.getElem_map _
  rw [own]
  refine instruments.woven (Nat.le_add_right _ _) fun inst member => ?_
  have present : inst ∈ kernel.blocks.flatten := List.mem_flatten.mpr ⟨_, List.getElem_mem within, member⟩
  exact ⟨kernel.below inst present, kernel.reads inst present⟩

theorem lift_structured (unreached : timing.Unreached device) (structured : Structured device.machine kernel) :
    Structured (lineMachine device timing) (lift kernel) := by
  intro block insts rest line split state after next performed
  rw [lift_getD] at split
  obtain ⟨before, behind, whole, rfl, own⟩ := List.map_eq_append_iff.mp split
  obtain ⟨inst, later, rfl, rfl, rfl⟩ := List.map_eq_cons_iff.mp own
  obtain ⟨ends, stays⟩ := structured block before later inst whole state.wave after.wave next
    (unreached.lowers performed)
  refine ⟨fun nothing => ends (List.map_eq_nil_iff.mp nothing), fun more => stays fun nothing => more ?_⟩
  rw [nothing]
  rfl

theorem program_structured {kernel : KernelBody} {program : List (List Line)} (unreached : timing.Unreached device)
    (structured : Structured device.machine kernel.blocks)
    (instrumented : InstrumentedBy llvm index kernel.blocks kernel.nextId program) :
    Structured (lineMachine device timing) program := by
  refine (lift_structured unreached structured).weave instrumented.woven ?_
  intro before new given line member block state after next performed
  obtain ⟨inserted, rfl, -⟩ := given.inserted member
  exact performed.2

end

/-! ### Finished blocks -/

/-- The block whose last instruction this is. -/
def blockEnding (blocks : List (List Instruction)) (inst : Instruction) : Option Nat :=
  blocks.findIdx? fun block => block.getLast? = some inst

/-- The blocks that are run to their end in an execution, in order. -/
def finishedBlocks {W : Type} (blocks : List (List Instruction)) (events : List (Instruction × Wave W)) : List Nat :=
  events.filterMap fun event => blockEnding blocks event.1

section
variable {blocks : List (List Instruction)} (distinct : blocks.flatten.Nodup)
include distinct

theorem same_block {first second : Nat} (inside : first < blocks.length) (inside' : second < blocks.length)
    {inst : Instruction} (member : inst ∈ blocks[first]) (member' : inst ∈ blocks[second]) : first = second := by
  have apart := List.pairwise_iff_getElem.mp (List.nodup_flatten.mp distinct).2
  rcases Nat.lt_trichotomy first second with below | same | above
  · exact (apart first second inside inside' below member member').elim
  · exact same
  · exact (apart second first inside' inside above member' member).elim

theorem blockEnding_of_last {number : Nat} {block : List Instruction} (found : blocks[number]? = some block)
    {inst : Instruction} (last : block.getLast? = some inst) : blockEnding blocks inst = some number := by
  obtain ⟨inside, rfl⟩ := List.getElem?_eq_some_iff.mp found
  refine List.findIdx?_eq_some_iff_getElem.mpr ⟨inside, decide_eq_true last, fun earlier before ends => ?_⟩
  have below : earlier < blocks.length := before.trans inside
  have same := same_block distinct below inside (List.mem_of_getLast? (of_decide_eq_true ends)) (List.mem_of_getLast? last)
  omega

theorem blockEnding_of_inner {block insts more : List Instruction} {inst : Instruction} (member : block ∈ blocks)
    (split : block = insts ++ inst :: more) (ahead : more ≠ []) : blockEnding blocks inst = none := by
  refine List.findIdx?_eq_none_iff.mpr fun other present => decide_eq_false fun ends => ?_
  obtain ⟨number, inside, rfl⟩ := List.getElem_of_mem member
  obtain ⟨number', inside', rfl⟩ := List.getElem_of_mem present
  have within : inst ∈ blocks[number] := by simp [split]
  obtain rfl := same_block distinct inside inside' within (List.mem_of_getLast? ends)
  have unique := (List.nodup_flatten.mp distinct).1 _ member
  rw [split, List.getLast?_append_of_ne_nil _ (List.cons_ne_nil inst more), List.getLast?_cons_of_ne_nil ahead] at ends
  rw [split] at unique
  exact (List.nodup_cons.mp (List.nodup_append.mp unique).2.1).1 (List.mem_of_getLast? ends)

theorem filterMap_blockEnding {number : Nat} {block insts : List Instruction} {last : Instruction}
    (found : blocks[number]? = some block) (split : block = insts ++ [last]) :
    block.filterMap (blockEnding blocks) = [number] := by
  have inner : insts.filterMap (blockEnding blocks) = [] := by
    refine List.filterMap_eq_nil_iff.mpr fun inst member => ?_
    obtain ⟨before, behind, rfl⟩ := List.append_of_mem member
    have whole : block = before ++ inst :: (behind ++ [last]) := by simp [split]
    exact blockEnding_of_inner distinct (List.mem_of_getElem? found) whole (by simp)
  have ends : blockEnding blocks last = some number := blockEnding_of_last distinct found (by simp [split])
  rw [split, List.filterMap_append, inner, List.filterMap_cons_some ends]
  rfl

theorem PartOfBlock.unfinished {insts : List Instruction} (part : PartOfBlock blocks insts) :
    insts.filterMap (blockEnding blocks) = [] := by
  rcases part with rfl | ⟨block, member, more, ahead, whole⟩
  · rfl
  refine List.filterMap_eq_nil_iff.mpr fun inst inside => ?_
  obtain ⟨before, behind, rfl⟩ := List.append_of_mem inside
  have split : block = before ++ inst :: (behind ++ more) := by simp [whole]
  exact blockEnding_of_inner distinct member split (by simp [ahead])

end

theorem finishedBlocks_eq {W : Type} (blocks : List (List Instruction)) (events : List (Instruction × Wave W)) :
    finishedBlocks blocks events = (events.map Prod.fst).filterMap (blockEnding blocks) := by
  rw [List.filterMap_map]
  rfl

section
variable {W : Type} {device : Device W} {llvm : LLVM} {index : Nat}

theorem Measured.finished {blocks : List (List Instruction)} (distinct : blocks.flatten.Nodup)
    {visit : Visit Line (Timed W)} {sent : Submission} {interval : TimeInterval}
    (measured : Measured device llvm index blocks visit sent interval) :
    (ownOf visit.events).filterMap (blockEnding blocks) = [visit.block] := by
  cases measured with
  | @visit number block first terminator events state _ _ _ found starts encloses =>
    obtain ⟨before, within, behind, split, phis, body, ends, -⟩ := encloses.split
    have nonempty : block.dropWhile isPHINode ≠ [] := by
      rintro none
      rw [firstNonPHI, none] at starts
      cases starts
    have parts := List.dropLast_append_getLast nonempty
    have whole : block = block.takeWhile isPHINode ++ (block.dropWhile isPHINode).dropLast ++
        [(block.dropWhile isPHINode).getLast nonempty] := by
      rw [List.append_assoc, parts, List.takeWhile_append_dropWhile]
    have own : ownOf (events ++ [(.own terminator, state)]) = block := by
      rw [split, ownOf_append, ownOf_append, phis, body, ends, whole, List.getLast?_concat, ← whole]
      exact whole.symm
    dsimp only
    rw [own]
    exact filterMap_blockEnding distinct found whole

theorem Measures.finished {blocks : List (List Instruction)} (distinct : blocks.flatten.Nodup) {time : UInt64}
    {visits : List (Visit Line (Timed W))} {sent : List Submission} {intervals : List TimeInterval}
    (measures : Measures device llvm index blocks time visits sent intervals) :
    (ownOf (visits.flatMap Visit.events)).filterMap (blockEnding blocks) = visits.map Visit.block := by
  induction measures with
  | nil => rfl
  | cons measured _ _ ih =>
    rw [List.flatMap_cons, ownOf_append, List.filterMap_append, measured.finished distinct, ih]
    rfl

/-! ### The pass -/

/-- The instrumented kernel is for a wave what the kernel is, and sends an interval for each block that is finished.
An execution may end between an interval and the terminator it is for. -/
structure Times (device : Device W) (timing : Timing W) (llvm : LLVM) (index : Nat) (kernel : KernelBody)
    (program : List (List Line)) : Prop where
  forth : ∀ {state : Timed W} {events : List (Instruction × Wave W)} {last : Position Instruction (Wave W)},
    state.wave.frame.constant = device.constant →
      Executes device.machine kernel.blocks (.enter kernel.blocks 0 state.wave) events last →
        ∃ events' last', Executes (lineMachine device timing) program (.enter program 0 state) events' last' ∧
          last'.block = last.block ∧ Wave.Same device kernel.nextId last.state last'.state.wave ∧
          (last.todo = [] → last'.todo = []) ∧ ownOf events' = events.map Prod.fst
  back : ∀ {state : Timed W} {events' : List (Line × Timed W)} {last' : Position Line (Timed W)},
    state.wave.frame.constant = device.constant →
      Executes (lineMachine device timing) program (.enter program 0 state) events' last' →
        ∃ events last visits part sent intervals pending,
          Executes device.machine kernel.blocks (.enter kernel.blocks 0 state.wave) events last ∧
          last'.block = last.block ∧ Wave.Same device kernel.nextId last.state last'.state.wave ∧
          (last'.todo = [] → last.todo = []) ∧ ownOf events' = events.map Prod.fst ∧
          events' = visits.flatMap Visit.events ++ part ∧ visits.map Visit.block = finishedBlocks kernel.blocks events ∧
          Measures device llvm index kernel.blocks state.clock visits sent intervals ∧
          submissions events' = sent ++ pending ∧ pending.length ≤ 1 ∧ (last'.todo = [] → pending = [])

theorem runOnFunction_instruments (folds : FoldsConstants llvm) {kernel : KernelBody} {program : List (List Line)}
    (ran : runOnFunction llvm index kernel.blocks kernel.nextId = some program) :
    InstrumentedBy llvm index kernel.blocks kernel.nextId program := by
  obtain ⟨length, each⟩ := instrumentBlocks_instruments index folds ran
  refine ⟨length, fun number block found => ?_⟩
  obtain ⟨lines, found', instruments⟩ := each number block found
  rw [UInt32.zero_add] at instruments
  exact ⟨lines, found', instruments⟩

/-- What is left of new lines at the end of an execution is not the kernel's. -/
theorem partway_own {timing : Timing W} {firstNew : Nat} {position position' : Position Line (Timed W)}
    {part : List (Line × Timed W)}
    (partway : Partway (lineMachine device timing) (Group firstNew) (Timed.Same device firstNew) position part position') :
    position'.block = position.block ∧ position.state.Same device firstNew position'.state ∧
      (position'.todo = [] → position.todo = []) ∧ ownOf part = [] := by
  cases partway with
  | finished related => exact ⟨rfl, related, fun _ => rfl, rfl⟩
  | within given later entry ran related =>
    refine ⟨rfl, related, fun ended => by simp at ended, ?_⟩
    rw [ownOf_eq, ran.insts, List.filterMap_eq_nil_iff]
    intro line member
    obtain ⟨inserted, rfl, -⟩ := given.inserted (List.mem_append_left _ member)
    rfl

theorem interwoven_own {firstNew : Nat} {events events' : List (Line × Timed W)}
    (interwoven : Interwoven (Timed.Same device firstNew) (fun _ _ new => ownOf new = []) events events') :
    ownOf events' = ownOf events := by
  induction interwoven with
  | nil => rfl
  | @cons line state state' new rest rest' shown _ _ ih =>
    have here : ownOf [(line, state')] = ownOf [(line, state)] := rfl
    rw [← List.singleton_append, ← List.singleton_append (l := rest), ownOf_append, ownOf_append, ownOf_append, shown, here,
      ih, List.nil_append]

theorem times_of_instruments {timing : Timing W} (unreached : timing.Unreached device) (keeps : timing.KeepsTime device)
    {kernel : KernelBody} (confined : device.Confined kernel.nextId) (sets : SetsOwnResult device)
    (structured : Structured device.machine kernel.blocks)
    {program : List (List Line)} (instrumented : InstrumentedBy llvm index kernel.blocks kernel.nextId program) :
    Times device timing llvm index kernel program := by
  have unseen := lineMachine_unseen unreached keeps confined
  have enter (state : Timed W) : Position.enter (lift kernel.blocks) 0 state =
      ⟨0, (kernel.blocks[0]?.getD []).map .own, state⟩ := enter_lift kernel.blocks 0 state
  have start {state : Timed W} (known : state.wave.frame.constant = device.constant) :
      Matches (Group kernel.nextId) (Timed.Same device kernel.nextId) (.enter (lift kernel.blocks) 0 state)
        (.enter program 0 state) :=
    ⟨rfl, woven_block instrumented.woven 0, Wave.Same.refl kernel.nextId known⟩
  refine ⟨fun {state events last} known ran => ?_, fun {state events' last'} known ran => ?_⟩
  · obtain ⟨raised, lastRaised, ran', raises⟩ := executes_raise unreached ran (rfl : state.wave = _)
    rw [Position.enter, ← enter] at ran'
    obtain ⟨events', last', executes, matched, interwoven⟩ := ran'.weave unseen instrumented.woven (start known)
    refine ⟨events', last', executes, matched.block.trans raises.block, ?_, fun ended => ?_, ?_⟩
    · rw [← raises.wave]
      exact matched.state
    · have todo := matched.todo
      rw [raises.todo, ended] at todo
      generalize last'.todo = todo' at todo
      cases todo
      rfl
    · rw [interwoven_own interwoven, raises.insts]
  · obtain ⟨lifted, lastLifted, whole, rest, ran', split, interwoven, partway⟩ :=
      ran.unweave unseen instrumented.woven (start known).partway
    rw [enter] at ran'
    obtain ⟨events, last, executes, raises⟩ := executes_lower unreached ran' rfl
    obtain ⟨visits, part, same, tour⟩ := ran.tour (program_structured unreached structured instrumented)
    obtain ⟨intervals, measures, partOf, few, none⟩ := tour_measures sets unreached keeps kernel.below instrumented tour
    obtain ⟨sameBlock, sameState, ends, nothing⟩ := partway_own partway
    have own : ownOf events' = events.map Prod.fst := by
      rw [List.nil_append] at split
      rw [split, ownOf_append, nothing, List.append_nil, interwoven_own interwoven, raises.insts]
    refine ⟨events, last, visits, part, _, intervals, submissions part, executes, sameBlock.trans raises.block, ?_,
      fun ended => ?_, own, same, ?_, measures, ?_, few, none⟩
    · rw [← raises.wave]
      exact sameState
    · exact List.map_eq_nil_iff.mp (raises.todo.symm.trans (ends ended))
    · rw [finishedBlocks_eq, ← own, same, ownOf_append, List.filterMap_append, measures.finished (kernel.distinct.of_map _),
        partOf.unfinished (kernel.distinct.of_map _), List.append_nil]
    · rw [same, submissions_append]

end

namespace Sample

def timing : Timing Nat where
  ticks last now := last ≤ now
  perform block inst state after next :=
    BBStart.Sample.device.machine block inst state.wave after.wave next ∧ state.clock ≤ after.clock ∧
      after.words = state.words
  call callee id _ state after :=
    if callee = sClock64 then ∃ now, state.clock ≤ now ∧ after = (state.setResult id now.toNat).setClock now
    else after = { state with wave := { state.wave with world := state.wave.world + 1 } }

theorem unreached : timing.Unreached BBStart.Sample.device where
  lowers performed := performed.1
  raises state performed := ⟨⟨_, state.clock, state.words⟩, ⟨performed, UInt64.le_refl _, rfl⟩, rfl⟩
  clock performed := performed.2.1
  words performed := performed.2.2

theorem call_clock {id : Nat} {args : List Nat} {state after : Timed Nat} :
    timing.call sClock64 id args state after ↔
      ∃ now, state.clock ≤ now ∧ after = (state.setResult id now.toNat).setClock now := by
  simp [timing]

theorem keepsTime : timing.KeepsTime BBStart.Sample.device where
  forward later := later
  goesOn last := ⟨last, UInt64.le_refl last⟩
  returns {callee} _ id args state := by
    by_cases reads : callee = sClock64
    · subst reads
      exact ⟨_, call_clock.mpr ⟨state.clock, UInt64.le_refl _, rfl⟩⟩
    · exact ⟨_, (if_neg reads).mpr rfl⟩
  quiet {callee} _ id args state after called := by
    by_cases reads : callee = sClock64
    · subst reads
      obtain ⟨now, later, rfl⟩ := call_clock.mp called
      exact ⟨⟨later, rfl, rfl, fun _ differ => if_neg differ, trivial⟩, rfl⟩
    · obtain rfl := (if_neg reads).mp called
      exact ⟨⟨UInt64.le_refl _, rfl, rfl, fun _ _ => rfl, trivial⟩, rfl⟩
  reads {id state after} called := by
    obtain ⟨now, later, rfl⟩ := call_clock.mp called
    exact ⟨now, later, UInt64.le_refl _, if_pos rfl⟩

theorem folds : FoldsConstants foldsNothing := fun _ _ _ _ => rfl

theorem sets : SetsOwnResult BBStart.Sample.device := by
  rintro block inst wave after next ⟨rfl, -⟩ id -
  split
  · rfl
  · rfl

theorem terminated : Terminated BBStart.Sample.kernel.blocks := by
  intro block member
  have first : ∀ block ∈ BBStart.Sample.kernel.blocks, (firstNonPHI block).isSome = true := by decide
  exact Option.isSome_iff_exists.mp (first block member)

theorem structured : Structured BBStart.Sample.device.machine BBStart.Sample.kernel.blocks := by
  intro block insts rest inst split state after next performed
  have jumps {target : Nat} (goes : next = .jump target) : next ≠ .proceed := by simp [goes]
  match block, insts, split with
  | 0, [], split =>
    obtain ⟨rfl, rfl⟩ := List.cons.inj split
    exact ⟨fun _ => jumps performed.2, fun more => absurd rfl more⟩
  | 1, [], split =>
    obtain ⟨rfl, rfl⟩ := List.cons.inj split
    exact ⟨nofun, fun _ target => by simp [show next = .proceed from performed.2]⟩
  | 1, [_], split =>
    obtain ⟨-, split⟩ := List.cons.inj split
    obtain ⟨rfl, rfl⟩ := List.cons.inj split
    exact ⟨fun _ => performed.2.elim jumps jumps, fun more => absurd rfl more⟩
  | 2, [], split =>
    obtain ⟨rfl, rfl⟩ := List.cons.inj split
    exact ⟨fun _ => by simp [show next = .leave from performed.2], fun more => absurd rfl more⟩
  | 0, _ :: _, split => simp [BBStart.Sample.kernel] at split
  | 1, _ :: _ :: _, split => simp [BBStart.Sample.kernel] at split
  | 2, _ :: _, split => simp [BBStart.Sample.kernel] at split
  | block + 3, insts, split => simp [BBStart.Sample.kernel] at split

end Sample

end Omniprobe.Instrumentation.BBInterval
