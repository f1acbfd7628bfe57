import Omniprobe.Handlers.Counters
import Omniprobe.Instrumentation.BasicBlockInterval

/-!
# Executions with measured blocks

What a wave does in a kernel with measured blocks is what it does in the kernel, and it sends an interval
for each block it runs through, with the time before the block's first instruction and the time before its
terminator. The clock, the functions of the device library and what the kernel's instructions do beside
them are parameters.
-/

namespace Omniprobe.Instrumentation.BBInterval
open Lib BBStart Handlers

/-! ### Waves with a clock -/

structure Timed (W : Type) where
  wave : Wave W
  /-- What the clock shows. -/
  clock : UInt64
  /-- The private memory that the pass allocates, by addresses of 64-bit words. -/
  words : Nat → Nat

structure Timing (W : Type) where
  /-- What the clock may show next. -/
  ticks : UInt64 → UInt64 → Prop
  /-- The kernel's instructions. -/
  perform : Nat → Instruction → Timed W → Timed W → Next → Prop
  /-- The functions of the device library. The number is that of the call's result. -/
  call : Text → Nat → List Nat → Timed W → Timed W → Prop

section
variable {W : Type}

def Timed.setResult (state : Timed W) (id n : Nat) : Timed W :=
  { state with wave := { state.wave with frame := state.wave.frame.setResult id n } }

def Timed.setWord (state : Timed W) (address n : Nat) : Timed W :=
  { state with words := fun other => if other = address then n else state.words other }

def Timed.setClock (state : Timed W) (now : UInt64) : Timed W := { state with clock := now }

/-- A generic pointer to private memory. -/
def flat (device : Device W) (address : Nat) : Nat :=
  device.targetCast .addrSpaceCast privatePtr (.ptr 0) address

/-- Only the clock goes on. -/
def Timing.Passes (timing : Timing W) (state after : Timed W) : Prop :=
  ∃ now, timing.ticks state.clock now ∧ after = state.setClock now

/-- What an instruction of the pass does. -/
def performNew (device : Device W) (timing : Timing W) (inst : NewInstruction) (state after : Timed W) : Prop :=
  match inst.op with
  | .call callee args => timing.call callee inst.id (args.map (Value.eval state.wave.frame)) state after
  | .alloca _ => ∃ address < 2 ^ 32, timing.Passes (state.setResult inst.id address) after
  | .inBoundsGEP pointer index =>
    timing.Passes (state.setResult inst.id (pointer.eval state.wave.frame + 8 * index)) after
  | .store value pointer =>
    timing.Passes (state.setWord (pointer.eval state.wave.frame) (value.eval state.wave.frame)) after
  | .cast op value =>
    let n := value.eval state.wave.frame
    timing.Passes
      (state.setResult inst.id ((op.apply value.ty inst.ty n).getD (device.targetCast op value.ty inst.ty n))) after

def lineMachine (device : Device W) (timing : Timing W) : Machine Line (Timed W) := fun block line state after next =>
  match line with
  | .own inst => timing.perform block inst state after next
  | .new inst => performNew device timing inst state after ∧ next = .proceed

/-- An instruction sets no result but its own. -/
def SetsOwnResult (device : Device W) : Prop :=
  ∀ (block : Nat) (inst : Instruction) (wave after : Wave W) (next : Next), device.perform block inst wave after next →
    ∀ id, id ≠ inst.id → after.frame.result id = wave.frame.result id

/-! ### What the pass relies on -/

/-- The kernel's instructions do what they do without the clock and the pass's memory, and leave this memory alone. -/
structure Timing.Unreached (timing : Timing W) (device : Device W) : Prop where
  lowers : ∀ {block : Nat} {inst : Instruction} {state after : Timed W} {next : Next},
    timing.perform block inst state after next → device.machine block inst state.wave after.wave next
  raises : ∀ {block : Nat} {inst : Instruction} {wave : Wave W} {next : Next} (state : Timed W),
    device.machine block inst state.wave wave next → ∃ after, timing.perform block inst state after next ∧ after.wave = wave
  clock : ∀ {block : Nat} {inst : Instruction} {state after : Timed W} {next : Next},
    timing.perform block inst state after next → state.clock ≤ after.clock
  words : ∀ {block : Nat} {inst : Instruction} {state after : Timed W} {next : Next},
    timing.perform block inst state after next → after.words = state.words

/-- An instruction of the pass sets at most its own result, and the kernel does not read what else it changes. -/
structure Quiet (device : Device W) (id : Nat) (state after : Timed W) : Prop where
  clock : state.clock ≤ after.clock
  argument : after.wave.frame.argument = state.wave.frame.argument
  constant : after.wave.frame.constant = state.wave.frame.constant
  result : ∀ other, other ≠ id → after.wave.frame.result other = state.wave.frame.result other
  world : device.alike state.wave.world after.wave.world

def InLibrary (callee : Text) : Prop := callee = sClock64 ∨ callee = submitTimeInterval

/-- The clock does not go back, `s_clock64` returns what it shows during the call, and the functions that the pass calls
return and are quiet. -/
structure Timing.KeepsTime (timing : Timing W) (device : Device W) : Prop where
  forward : ∀ {last now : UInt64}, timing.ticks last now → last ≤ now
  goesOn : ∀ last, ∃ now, timing.ticks last now
  returns : ∀ {callee : Text}, InLibrary callee → ∀ (id : Nat) (args : List Nat) (state : Timed W),
    ∃ after, timing.call callee id args state after
  quiet : ∀ {callee : Text}, InLibrary callee → ∀ {id : Nat} {args : List Nat} {state after : Timed W},
    timing.call callee id args state after → Quiet device id state after ∧ after.words = state.words
  reads : ∀ {id : Nat} {state after : Timed W}, timing.call sClock64 id [] state after →
    ∃ now : UInt64, state.clock ≤ now ∧ now ≤ after.clock ∧ after.wave.frame.result id = now.toNat

/-! ### What is submitted -/

/-- What the submitting function gets: its arguments, and memory to read. -/
structure Submission where
  args : List Nat
  words : Nat → Nat

def submitted (event : Line × Timed W) : Option Submission :=
  match event.1 with
  | .new inst =>
    match inst.op with
    | .call callee args =>
      if callee = submitTimeInterval then some ⟨args.map (Value.eval event.2.wave.frame), event.2.words⟩ else none
    | _ => none
  | .own _ => none

/-- The calls of the submitting function in a part of an execution, in order. -/
def submissions (events : List (Line × Timed W)) : List Submission := events.filterMap submitted

def Line.ownInst : Line → Option Instruction
  | .own inst => some inst
  | .new _ => none

/-- The kernel's own instructions in a part of an execution. -/
def ownOf (events : List (Line × Timed W)) : List Instruction := events.filterMap fun event => event.1.ownInst

theorem submissions_append (events more : List (Line × Timed W)) :
    submissions (events ++ more) = submissions events ++ submissions more :=
  List.filterMap_append

theorem ownOf_append (events more : List (Line × Timed W)) : ownOf (events ++ more) = ownOf events ++ ownOf more :=
  List.filterMap_append

/-! ### Runs of lines -/

section
variable (state : Timed W) (id n : Nat) (now : UInt64)

@[simp] theorem Timed.setResult_clock : (state.setResult id n).clock = state.clock := rfl

@[simp] theorem Timed.setResult_words : (state.setResult id n).words = state.words := rfl

@[simp] theorem Timed.setResult_argument : (state.setResult id n).wave.frame.argument = state.wave.frame.argument := rfl

@[simp] theorem Timed.setResult_result (other : Nat) :
    (state.setResult id n).wave.frame.result other = if other = id then n else state.wave.frame.result other := rfl

@[simp] theorem Timed.setWord_clock (address : Nat) : (state.setWord address n).clock = state.clock := rfl

@[simp] theorem Timed.setWord_wave (address : Nat) : (state.setWord address n).wave = state.wave := rfl

@[simp] theorem Timed.setWord_words (address other : Nat) :
    (state.setWord address n).words other = if other = address then n else state.words other := rfl

@[simp] theorem Timed.setClock_clock : (state.setClock now).clock = now := rfl

@[simp] theorem Timed.setClock_words : (state.setClock now).words = state.words := rfl

@[simp] theorem Timed.setClock_wave : (state.setClock now).wave = state.wave := rfl

end

section
variable {device : Device W} {timing : Timing W} {block id : Nat} {ty : Ty} {loc : Option DebugLoc} {state after : Timed W}
  {next : Next}

theorem eval_pointer {frame : Frame} {address : Nat} (holds : frame.result id = address) (bound : address < 2 ^ 64) :
    (Value.result id privatePtr).eval frame = address := by
  rw [Value.eval, holds]
  exact Nat.mod_eq_of_lt bound

theorem eval_reading {frame : Frame} {now : UInt64} (holds : frame.result id = now.toNat) :
    (Value.result id (.int 64)).eval frame = now.toNat := by
  rw [Value.eval, holds]
  exact Nat.mod_eq_of_lt now.toNat_lt

theorem Timing.Passes.settled (keeps : timing.KeepsTime device) (passes : timing.Passes state after) :
    ∃ now, state.clock ≤ now ∧ after = state.setClock now := by
  obtain ⟨now, ticks, rfl⟩ := passes
  exact ⟨now, keeps.forward ticks, rfl⟩

section
variable (keeps : timing.KeepsTime device) {pointer address : Nat} (points : state.wave.frame.result pointer = address)
  (bound : address < 2 ^ 64)
include keeps points bound

theorem performNew_gep {index : Nat}
    (performed : performNew device timing ⟨id, ty, .inBoundsGEP (.result pointer privatePtr) index, loc⟩ state after) :
    ∃ now, state.clock ≤ now ∧ after = (state.setResult id (address + 8 * index)).setClock now := by
  rw [← eval_pointer points bound]
  exact Timing.Passes.settled keeps performed

theorem performNew_store {value : Nat} {reading : UInt64} (holds : state.wave.frame.result value = reading.toNat)
    (performed : performNew device timing
      ⟨id, ty, .store (.result value (.int 64)) (.result pointer privatePtr), loc⟩ state after) :
    ∃ now, state.clock ≤ now ∧ after = (state.setWord address reading.toNat).setClock now := by
  rw [← eval_pointer points bound, ← eval_reading holds]
  exact Timing.Passes.settled keeps performed

theorem performNew_cast
    (performed : performNew device timing ⟨id, .ptr 0, .cast .addrSpaceCast (.result pointer privatePtr), loc⟩ state after) :
    ∃ now, state.clock ≤ now ∧ after = (state.setResult id (flat device address)).setClock now := by
  rw [← eval_pointer points bound]
  exact Timing.Passes.settled keeps performed

end

/-- What a part of an execution leaves of what the pass keeps. -/
structure Kept (firstNew : Nat) (state after : Timed W) : Prop where
  clock : state.clock ≤ after.clock
  words : after.words = state.words
  result : ∀ id, firstNew ≤ id → after.wave.frame.result id = state.wave.frame.result id

theorem machine_result (sets : SetsOwnResult device) {inst : Instruction} {wave after : Wave W}
    (performed : device.machine block inst wave after next) {other : Nat} (differ : other ≠ inst.id) :
    after.frame.result other = wave.frame.result other := by
  unfold Device.machine at performed
  split at performed
  · obtain ⟨rfl, -⟩ := performed
    exact if_neg differ
  · exact sets block inst wave after next performed other differ

theorem own_kept (sets : SetsOwnResult device) (unreached : timing.Unreached device) {firstNew : Nat} {inst : Instruction}
    (below : inst.id < firstNew) (performed : timing.perform block inst state after next) : Kept firstNew state after := by
  refine ⟨unreached.clock performed, unreached.words performed, fun other new => ?_⟩
  have differ : other ≠ inst.id := by omega
  exact machine_result sets (unreached.lowers performed) differ

theorem own_straight (sets : SetsOwnResult device) (unreached : timing.Unreached device) {firstNew : Nat}
    {insts : List Instruction} (below : ∀ inst ∈ insts, inst.id < firstNew) {events : List (Line × Timed W)}
    (ran : Straight (lineMachine device timing) block (insts.map .own) state events after) :
    Kept firstNew state after ∧ submissions events = [] ∧ ownOf events = insts ∧
      ∀ event ∈ events, state.clock ≤ event.2.clock ∧ event.2.clock ≤ after.clock := by
  induction insts generalizing state events with
  | nil =>
    cases ran
    exact ⟨⟨UInt64.le_refl _, rfl, fun _ _ => rfl⟩, rfl, rfl, List.forall_mem_nil _⟩
  | cons inst rest ih =>
    cases ran with
    | cons performed later =>
      obtain ⟨here, below⟩ := List.forall_mem_cons.mp below
      obtain ⟨clock, words, result⟩ := own_kept sets unreached here performed
      obtain ⟨⟨clock', words', result'⟩, none, own, times⟩ := ih below later
      have up := UInt64.le_trans clock clock'
      refine ⟨⟨up, words'.trans words, fun id new => (result' id new).trans (result id new)⟩, none,
        congrArg (inst :: ·) own, List.forall_mem_cons.mpr ⟨⟨UInt64.le_refl _, up⟩, fun event member => ?_⟩⟩
      exact ⟨UInt64.le_trans clock (times event member).1, (times event member).2⟩

/-- The first of the new lines reads the clock. -/
structure Reads (reading : UInt64) (state after : Timed W) (events : List (Line × Timed W)) : Prop where
  early : state.clock ≤ reading
  late : reading ≤ after.clock
  own : ownOf events = []
  split : ∃ line rest, events = (line, state) :: rest ∧ ∀ event ∈ rest, reading ≤ event.2.clock ∧ event.2.clock ≤ after.clock

/-- The first reading is kept in memory that the block allocates. -/
theorem opening_straight (keeps : timing.KeepsTime device) {events : List (Line × Timed W)}
    (ran : Straight (lineMachine device timing) block ((openingLines id loc).map .new) state events after) :
    ∃ reading, Reads reading state after events ∧ submissions events = [] ∧
      ∃ address < 2 ^ 32, after.wave.frame.result (id + 1) = address ∧ after.words address = reading.toNat := by
  simp only [openingLines, List.map_cons, List.map_nil] at ran
  obtain _ | ⟨⟨read, -⟩, _ | ⟨⟨⟨address, bound, allocated⟩, -⟩, _ | ⟨⟨pointed, -⟩, _ | ⟨⟨stored, -⟩, done⟩⟩⟩⟩ := ran
  cases done
  obtain ⟨reading, early, late, returned⟩ := keeps.reads read
  obtain ⟨first, up, rfl⟩ := allocated.settled keeps
  obtain ⟨second, up', rfl⟩ := performNew_gep keeps (by simp) (by omega : address < 2 ^ 64) pointed
  obtain ⟨third, up'', rfl⟩ := performNew_store keeps (show _ = address by simp) (by omega)
    (show _ = reading.toNat by simp [returned]) stored
  simp only [Timed.setResult_clock, Timed.setClock_clock] at up up' up''
  have one := UInt64.le_trans late up
  have two := UInt64.le_trans one up'
  have three := UInt64.le_trans two up''
  refine ⟨reading, ⟨early, three, rfl, _, _, rfl, ?_⟩, rfl, address, bound, by simp, by simp⟩
  simp [late, one, two, UInt64.le_trans up (UInt64.le_trans up' up''), UInt64.le_trans up' up'', up'']

/-- What the submitting function gets for a block. -/
def fields (device : Device W) (llvm : LLVM) (index : Nat) (bbIndex : UInt32) (firstLoc : Option DebugLoc)
    (frame : Frame) (address : Nat) : List Nat :=
  let (fileHash, line, column) := debugConstants llvm firstLoc
  [(bufferPtr index).eval frame, flat device address % 2 ^ 64, fileHash.toNat, line.toNat, column.toNat, bbIndex.toNat]

/-- The second reading joins the first one, and both are sent. -/
theorem closing_straight (keeps : timing.KeepsTime device) {llvm : LLVM} {index : Nat} {bbIndex : UInt32}
    {firstLoc : Option DebugLoc} {address : Nat} (allocated : state.wave.frame.result (id + 1) = address)
    (bound : address < 2 ^ 32) {events : List (Line × Timed W)}
    (ran : Straight (lineMachine device timing) block ((closingLines llvm index id bbIndex firstLoc loc).map .new)
      state events after) :
    ∃ reading, Reads reading state after events ∧
      submissions events = [⟨fields device llvm index bbIndex firstLoc after.wave.frame address, after.words⟩] ∧
      after.words address = state.words address ∧ after.words (address + 8) = reading.toNat := by
  simp only [closingLines, List.map_cons, List.map_nil] at ran
  obtain _ | ⟨⟨read, -⟩, _ | ⟨⟨pointed, -⟩, _ | ⟨⟨stored, -⟩, _ | ⟨⟨cast, -⟩, _ | ⟨⟨sent, -⟩, done⟩⟩⟩⟩⟩ := ran
  cases done
  obtain ⟨reading, early, late, returned⟩ := keeps.reads read
  obtain ⟨quiet, words⟩ := keeps.quiet (.inl rfl) read
  have differ : id + 1 ≠ id + 4 := by omega
  have allocated' := (quiet.result (id + 1) differ).trans allocated
  obtain ⟨first, up, rfl⟩ := performNew_gep keeps allocated' (by omega : address < 2 ^ 64) pointed
  obtain ⟨second, up', rfl⟩ := performNew_store keeps (show _ = address + 8 by simp) (by omega)
    (show _ = reading.toNat by simp [returned]) stored
  obtain ⟨third, up'', rfl⟩ := performNew_cast keeps (by simpa using allocated') (by omega : address < 2 ^ 64) cast
  obtain ⟨quiet', words'⟩ := keeps.quiet (.inr rfl) sent
  have last := quiet'.clock
  simp only [Timed.setClock_clock] at up up' up'' last
  have one := UInt64.le_trans late up
  have two := UInt64.le_trans one up'
  have three := UInt64.le_trans two up''
  refine ⟨reading, ⟨early, UInt64.le_trans three last, rfl, _, _, rfl, ?_⟩, ?_, by simp [words', words], by simp [words']⟩
  · have behind := UInt64.le_trans up'' last
    have behind' := UInt64.le_trans up' behind
    simp [late, one, two, three, last, behind, behind', UInt64.le_trans up behind']
  · show [Submission.mk (List.map (Value.eval _) _) _] = _
    simp only [fields, List.map_cons, List.map_nil, Value.eval, Ty.wrap, Timed.setResult_result, if_pos, words',
      Nat.mod_eq_of_lt (UInt64.toNat_lt _), Nat.mod_eq_of_lt (UInt32.toNat_lt _), quiet'.argument, Timed.setClock_wave,
      bufferPtr]

end

/-! ### Measured visits -/

/-- The interval lasts from before the block's first instruction to before its terminator. -/
structure Encloses (block : List Instruction) (events : List (Line × Timed W)) (interval : TimeInterval) : Prop where
  ordered : interval.start ≤ interval.stop
  split : ∃ before within behind, events = before ++ within ++ behind ∧ ownOf before = block.takeWhile isPHINode ∧
    ownOf within = (block.dropWhile isPHINode).dropLast ∧ ownOf behind = block.getLast?.toList ∧
    (∀ event ∈ before, event.2.clock ≤ interval.start) ∧
    (∀ event ∈ within, interval.start ≤ event.2.clock ∧ event.2.clock ≤ interval.stop) ∧
    ∀ event ∈ behind, interval.stop ≤ event.2.clock

variable (device : Device W) (llvm : LLVM) (index : Nat) (kernel : List (List Instruction))

/-- A whole run of a block, and what is sent for it. -/
inductive Measured : Visit Line (Timed W) → Submission → TimeInterval → Prop where
  | visit {number : Nat} {block : List Instruction} {first terminator : Instruction} {events : List (Line × Timed W)}
      {state : Timed W} {sent : Submission} {interval : TimeInterval} {address : Nat}
      (found : kernel[number]? = some block) (starts : firstNonPHI block = some first)
      (encloses : Encloses block (events ++ [(.own terminator, state)]) interval)
      (args : sent.args = fields device llvm index (.ofNat number) first.debugLoc state.wave.frame address)
      (bound : address < 2 ^ 32) (start : sent.words address = interval.start.toNat)
      (stop : sent.words (address + 8) = interval.stop.toNat) :
      Measured ⟨number, events ++ [(.own terminator, state)]⟩ sent interval

/-- One interval for each visit, behind the time and behind one another. -/
inductive Measures : UInt64 → List (Visit Line (Timed W)) → List Submission → List TimeInterval → Prop where
  | nil (time : UInt64) : Measures time [] [] []
  | cons {time : UInt64} {visit : Visit Line (Timed W)} {sent : Submission} {interval : TimeInterval}
      {visits : List (Visit Line (Timed W))} {submissions : List Submission} {intervals : List TimeInterval}
      (measured : Measured device llvm index kernel visit sent interval) (later : time ≤ interval.start)
      (rest : Measures interval.stop visits submissions intervals) :
      Measures time (visit :: visits) (sent :: submissions) (interval :: intervals)

section
variable {device llvm index kernel} {timing : Timing W} {firstNew id number : Nat} {block : List Instruction}
  {lines : List Line}

theorem Measures.earlier {time time' : UInt64} (before : time' ≤ time) {visits : List (Visit Line (Timed W))}
    {sent : List Submission} {intervals : List TimeInterval}
    (measures : Measures device llvm index kernel time visits sent intervals) :
    Measures device llvm index kernel time' visits sent intervals := by
  cases measures with
  | nil => exact .nil time'
  | cons measured later rest => exact .cons measured (UInt64.le_trans before later) rest

theorem visit_measured (sets : SetsOwnResult device) (unreached : timing.Unreached device) (keeps : timing.KeepsTime device)
    (below : ∀ inst ∈ block, inst.id < firstNew) (older : firstNew ≤ id) (found : kernel[number]? = some block)
    (instruments : Instruments llvm index id (.ofNat number) block lines) {insts : List Line} {line : Line}
    (split : lines = insts ++ [line]) {state middle : Timed W} {events : List (Line × Timed W)}
    (ran : Straight (lineMachine device timing) number insts state events middle) :
    ∃ sent interval, submissions (events ++ [(line, middle)]) = [sent] ∧
      Measured device llvm index kernel ⟨number, events ++ [(line, middle)]⟩ sent interval ∧
      state.clock ≤ interval.start ∧ interval.stop ≤ middle.clock ∧ ∃ terminator, line = .own terminator := by
  obtain @⟨phis, body, first, terminator, phisFirst, behind, starts⟩ := instruments
  obtain ⟨rfl, same⟩ := List.append_inj' split rfl
  obtain rfl := List.singleton_inj.mp same
  obtain ⟨before, closing, third, rfl, ran, closes⟩ := ran.split
  obtain ⟨before, bodyEvents, second, rfl, ran, bodyRan⟩ := ran.split
  obtain ⟨phiEvents, opening, first', rfl, phisRan, opens⟩ := ran.split
  have phisBelow : ∀ inst ∈ phis, inst.id < firstNew := fun inst member => below inst (by simp [member])
  have bodyBelow : ∀ inst ∈ body, inst.id < firstNew := fun inst member => below inst (by simp [member])
  obtain ⟨phiKept, phiNone, phiOwn, phiTimes⟩ := own_straight sets unreached phisBelow phisRan
  obtain ⟨start, startReads, openNone, address, bound, allocated, startKept⟩ := opening_straight keeps opens
  obtain ⟨bodyKept, bodyNone, bodyOwn, bodyTimes⟩ := own_straight sets unreached bodyBelow bodyRan
  have allocated' : third.wave.frame.result (id + 1) = address := (bodyKept.result _ (by omega)).trans allocated
  obtain ⟨stop, stopReads, sends, kept, stopKept⟩ := closing_straight keeps allocated' bound closes
  have early : state.clock ≤ start := UInt64.le_trans phiKept.clock startReads.early
  have bodyLate : second.clock ≤ stop := UInt64.le_trans bodyKept.clock stopReads.early
  have up : start ≤ stop := UInt64.le_trans startReads.late bodyLate
  have started : firstNonPHI (phis ++ body ++ [terminator]) = some first := by rw [firstNonPHI, behind, starts]
  refine ⟨⟨fields device llvm index (.ofNat number) first.debugLoc middle.wave.frame address, middle.words⟩,
    ⟨start, stop⟩, ?_, .visit found started ⟨up, ?_⟩ rfl bound ?_ stopKept, early, stopReads.late, _, rfl⟩
  · rw [submissions_append, submissions_append, submissions_append, submissions_append, phiNone, openNone, bodyNone, sends]
    rfl
  · have startOwn := startReads.own
    have stopOwn := stopReads.own
    obtain ⟨startLine, opened, rfl, openTimes⟩ := startReads.split
    obtain ⟨stopLine, closed, rfl, closeTimes⟩ := stopReads.split
    have startNew : ownOf [(startLine, first')] = [] ∧ ownOf opened = [] := by
      rw [← List.singleton_append, ownOf_append] at startOwn
      exact List.append_eq_nil_iff.mp startOwn
    have stopNew : ownOf [(stopLine, third)] = [] ∧ ownOf closed = [] := by
      rw [← List.singleton_append, ownOf_append] at stopOwn
      exact List.append_eq_nil_iff.mp stopOwn
    refine ⟨phiEvents ++ [(startLine, first')], opened ++ bodyEvents ++ [(stopLine, third)],
      closed ++ [(.own terminator, middle)], by simp, ?_, ?_, ?_, ?_, ?_, ?_⟩
    · rw [ownOf_append, phiOwn, startNew.1, phisFirst, List.append_nil]
    · rw [ownOf_append, ownOf_append, startNew.2, bodyOwn, stopNew.1, behind, List.dropLast_concat, List.append_nil]
      rfl
    · rw [ownOf_append, stopNew.2, List.getLast?_concat]
      rfl
    · refine List.forall_mem_append.mpr ⟨fun event member => ?_, List.forall_mem_singleton.mpr startReads.early⟩
      exact UInt64.le_trans (phiTimes event member).2 startReads.early
    · refine List.forall_mem_append.mpr ⟨List.forall_mem_append.mpr ⟨fun event member => ?_, fun event member => ?_⟩, ?_⟩
      · exact ⟨(openTimes event member).1, UInt64.le_trans (openTimes event member).2 bodyLate⟩
      · obtain ⟨late, soon⟩ := bodyTimes event member
        exact ⟨UInt64.le_trans startReads.late late, UInt64.le_trans soon stopReads.early⟩
      · exact List.forall_mem_singleton.mpr ⟨UInt64.le_trans startReads.late bodyKept.clock, stopReads.early⟩
    · refine List.forall_mem_append.mpr ⟨fun event member => ?_, List.forall_mem_singleton.mpr stopReads.late⟩
      exact (closeTimes event member).1
  · exact kept.trans ((congrFun bodyKept.words address).trans startKept)

/-! ### Parts of blocks -/

def Line.submits : Line → Bool
  | .new ⟨_, _, .call callee _, _⟩ => callee = submitTimeInterval
  | _ => false

theorem submitted_isSome (event : Line × Timed W) : (submitted event).isSome = event.1.submits := by
  obtain ⟨line, state⟩ := event
  cases line with
  | own inst => rfl
  | new inst =>
    obtain ⟨id, ty, op, loc⟩ := inst
    cases op with
    | call callee args =>
      by_cases same : callee = submitTimeInterval
      · simp [submitted, Line.submits, same]
      · simp [submitted, Line.submits, same]
    | _ => rfl

theorem length_submissions (events : List (Line × Timed W)) :
    (submissions events).length = (events.map Prod.fst).countP Line.submits := by
  rw [submissions, List.length_filterMap_eq_countP, List.countP_map]
  exact congrArg (List.countP · events) (funext submitted_isSome)

theorem ownOf_eq (events : List (Line × Timed W)) : ownOf events = (events.map Prod.fst).filterMap Line.ownInst := by
  rw [List.filterMap_map]
  rfl

/-- Behind the call of the submitting function there is only the terminator. -/
theorem Instruments.ending {bbIndex : UInt32} (instruments : Instruments llvm index id bbIndex block lines) :
    lines.filterMap Line.ownInst = block ∧ ∃ before call terminator, lines = before ++ [.new call] ++ [.own terminator] ∧
      before.countP Line.submits = 0 ∧ (Line.new call).submits = true := by
  obtain @⟨phis, body, first, terminator, -, -, -⟩ := instruments
  have own (insts : List Instruction) : (insts.map Line.own).filterMap Line.ownInst = insts := by
    rw [List.filterMap_map]
    exact List.filterMap_some
  have new (insts : List NewInstruction) : (insts.map Line.new).filterMap Line.ownInst = [] := by
    rw [List.filterMap_map]
    exact List.filterMap_eq_nil_iff.mpr fun _ _ => rfl
  have none (insts : List Instruction) : (insts.map Line.own).countP Line.submits = 0 := by
    rw [List.countP_map]
    exact List.countP_eq_zero.mpr fun _ _ => Bool.false_ne_true
  let closing := closingLines llvm index id bbIndex first.debugLoc terminator.debugLoc
  obtain ⟨call, last, submits⟩ : ∃ call, closing.map Line.new = (closing.take 4).map .new ++ [.new call] ∧
      (Line.new call).submits = true := ⟨_, rfl, rfl⟩
  refine ⟨?_, phis.map .own ++ (openingLines id first.debugLoc).map .new ++ body.map .own ++ (closing.take 4).map .new, call,
    terminator, ?_, ?_, submits⟩
  · simp only [List.filterMap_append, own, new, List.append_nil]
    rfl
  · rw [last]
    simp
  · rw [List.countP_append, List.countP_append, List.countP_append, none, none]
    rfl

/-- The instructions are a beginning of the block that does not reach its terminator. -/
theorem Instruments.beginning {bbIndex : UInt32} (instruments : Instruments llvm index id bbIndex block lines)
    {insts rest : List Line} (split : lines = insts ++ rest) (ahead : rest ≠ []) {events : List (Line × Timed W)}
    (performed : events.map Prod.fst = insts) :
    (submissions events).length ≤ 1 ∧ ∃ more, more ≠ [] ∧ block = ownOf events ++ more := by
  obtain ⟨own, before, call, terminator, parts, none, one⟩ := instruments.ending
  obtain ⟨rest, line, rfl⟩ := (List.eq_nil_or_concat rest).resolve_left ahead
  rw [List.concat_eq_append, ← List.append_assoc] at split
  obtain ⟨same, last⟩ := List.append_inj' (parts.symm.trans split) rfl
  obtain rfl := List.singleton_inj.mp last
  constructor
  · have all : (before ++ [Line.new call]).countP Line.submits = 1 := by
      rw [List.countP_append, none, List.countP_singleton, if_pos one]
    rw [same, List.countP_append] at all
    rw [length_submissions, performed]
    omega
  · refine ⟨rest.filterMap Line.ownInst ++ [terminator], by simp, ?_⟩
    rw [← own, split, ownOf_eq, performed, List.filterMap_append, List.filterMap_append, List.append_assoc]
    rfl

/-- An own instruction that is not the terminator is in front of the call. -/
theorem Instruments.submissions_before {bbIndex : UInt32} (instruments : Instruments llvm index id bbIndex block lines)
    {insts rest : List Line} {inst : Instruction} (split : lines = insts ++ .own inst :: rest) (ahead : rest ≠ [])
    {events : List (Line × Timed W)} (performed : events.map Prod.fst = insts) : submissions events = [] := by
  obtain ⟨-, before, call, terminator, parts, none, -⟩ := instruments.ending
  obtain ⟨rest, line, rfl⟩ := (List.eq_nil_or_concat rest).resolve_left ahead
  have whole : before ++ [Line.new call] ++ [Line.own terminator] = (insts ++ .own inst :: rest) ++ [line] := by
    rw [← parts, split]
    simp
  obtain ⟨same, -⟩ := List.append_inj' whole rfl
  have behind : rest ≠ [] := by
    rintro rfl
    obtain ⟨-, last⟩ := List.append_inj' same rfl
    cases List.singleton_inj.mp last
  obtain ⟨rest, other, rfl⟩ := (List.eq_nil_or_concat rest).resolve_left behind
  have split' : before ++ [Line.new call] = (insts ++ .own inst :: rest) ++ [other] := by
    rw [same]
    simp
  obtain ⟨rfl, -⟩ := List.append_inj' split' rfl
  rw [List.countP_append] at none
  rw [← List.length_eq_zero_iff, length_submissions, performed]
  omega

end

/-! ### Measured executions -/

/-- The program of a kernel with measured blocks. -/
structure InstrumentedBy (firstNew : Nat) (program : List (List Line)) : Prop where
  length : program.length = kernel.length
  each : ∀ number block, kernel[number]? = some block →
    ∃ lines, program[number]? = some lines ∧ Instruments llvm index (firstNew + 9 * number) (.ofNat number) block lines

/-- The instructions are a beginning of a block, without its terminator. -/
def PartOfBlock (insts : List Instruction) : Prop :=
  insts = [] ∨ ∃ block ∈ kernel, ∃ more, more ≠ [] ∧ block = insts ++ more

section
variable {device llvm index kernel} {timing : Timing W} {firstNew number : Nat} {program : List (List Line)}

theorem InstrumentedBy.of_split (instrumented : InstrumentedBy llvm index kernel firstNew program) {insts rest : List Line}
    {line : Line} (split : program[number]?.getD [] = insts ++ line :: rest) :
    ∃ block lines, kernel[number]? = some block ∧ lines = insts ++ line :: rest ∧
      Instruments llvm index (firstNew + 9 * number) (.ofNat number) block lines := by
  cases found : kernel[number]? with
  | none =>
    have outside : program[number]? = none := by
      rw [List.getElem?_eq_none_iff, instrumented.length]
      exact List.getElem?_eq_none_iff.mp found
    rw [outside] at split
    simp at split
  | some block =>
    obtain ⟨lines, found', instruments⟩ := instrumented.each number block found
    rw [found'] at split
    exact ⟨block, lines, rfl, split, instruments⟩

theorem tour_measures (sets : SetsOwnResult device) (unreached : timing.Unreached device)
    (keeps : timing.KeepsTime device) (below : ∀ inst ∈ kernel.flatten, inst.id < firstNew)
    (instrumented : InstrumentedBy llvm index kernel firstNew program) {state : Timed W} {visits : List (Visit Line (Timed W))}
    {part : List (Line × Timed W)} {last : Position Line (Timed W)}
    (tour : Tour (lineMachine device timing) program number state visits part last) :
    ∃ intervals, Measures device llvm index kernel state.clock visits (submissions (visits.flatMap Visit.events)) intervals ∧
      PartOfBlock kernel (ownOf part) ∧ (submissions part).length ≤ 1 ∧ (last.todo = [] → submissions part = []) := by
  have visited {number : Nat} {insts : List Line} {line : Line} {state middle : Timed W} {events : List (Line × Timed W)}
      (split : program[number]?.getD [] = insts ++ [line])
      (ran : Straight (lineMachine device timing) number insts state events middle) :
      ∃ sent interval, submissions (events ++ [(line, middle)]) = [sent] ∧
        Measured device llvm index kernel ⟨number, events ++ [(line, middle)]⟩ sent interval ∧
        state.clock ≤ interval.start ∧ interval.stop ≤ middle.clock ∧ ∃ terminator, line = .own terminator := by
    obtain ⟨block, lines, found, split, instruments⟩ := instrumented.of_split split
    have within : ∀ inst ∈ block, inst.id < firstNew := fun inst member =>
      below inst (List.mem_flatten.mpr ⟨block, List.mem_of_getElem? found, member⟩)
    exact visit_measured sets unreached keeps within (Nat.le_add_right _ _) found instruments split ran
  induction tour with
  | @within number insts rest state middle part split ran ahead =>
    cases rest with
    | nil =>
      obtain rfl := ahead rfl
      cases ran
      exact ⟨[], .nil _, .inl rfl, Nat.zero_le _, fun _ => rfl⟩
    | cons line rest =>
      obtain ⟨block, lines, found, split, instruments⟩ := instrumented.of_split split
      obtain ⟨few, more, nonempty, whole⟩ := instruments.beginning split (List.cons_ne_nil line rest) ran.insts
      exact ⟨[], .nil _, .inr ⟨block, List.mem_of_getElem? found, more, nonempty, whole⟩, few, fun ended => nomatch ended⟩
  | @quit number insts rest line state middle after part split ahead ran left =>
    obtain ⟨block, lines, found, split, instruments⟩ := instrumented.of_split split
    cases line with
    | new inst => exact nomatch left.2
    | own inst =>
      have nothing := instruments.submissions_before split ahead ran.insts
      have performed : (part ++ [(Line.own inst, middle)]).map Prod.fst = insts ++ [.own inst] := by
        rw [List.map_append, ran.insts]
        rfl
      have split' : lines = (insts ++ [.own inst]) ++ rest := by simpa using split
      obtain ⟨-, more, nonempty, whole⟩ := instruments.beginning split' ahead performed
      have none : submissions (part ++ [(Line.own inst, middle)]) = [] := by
        rw [submissions_append, nothing]
        rfl
      refine ⟨[], .nil _, .inr ⟨block, List.mem_of_getElem? found, more, nonempty, whole⟩, ?_, fun _ => none⟩
      rw [none]
      exact Nat.zero_le _
  | finish split ran left =>
    obtain ⟨sent, interval, sends, measured, early, -, -⟩ := visited split ran
    refine ⟨[interval], ?_, .inl rfl, Nat.zero_le _, fun _ => rfl⟩
    rw [List.flatMap_cons, List.flatMap_nil, List.append_nil, sends]
    exact .cons measured early (.nil _)
  | jump split ran jumped _ ih =>
    obtain ⟨sent, interval, sends, measured, early, stop, terminator, rfl⟩ := visited split ran
    obtain ⟨intervals, measures, rest⟩ := ih
    refine ⟨interval :: intervals, ?_, rest⟩
    rw [List.flatMap_cons, submissions_append, sends]
    exact .cons measured early (measures.earlier (UInt64.le_trans stop (unreached.clock jumped)))

end

end

end Omniprobe.Instrumentation.BBInterval
