import Omniprobe.Instrumentation.IntervalReports

/-!
# Totals of measured blocks

From kernel to report: waves run a kernel with measured blocks, their intervals arrive in any order, and the
time interval handler adds up what the waves have spent in the blocks that they finish.
-/

namespace Omniprobe.Instrumentation.BBInterval
open Lib BBStart Handlers TimeIntervalHandler

/-! ### What a wave spends -/

section
variable {W : Type} {device : Device W} {llvm : LLVM} {index : Nat} {kernel : List (List Instruction)} {time : UInt64}
  {visits : List (Visit Line (Timed W))} {sent : List Submission} {list : List TimeInterval}

theorem Measured.ordered {visit : Visit Line (Timed W)} {submission : Submission} {interval : TimeInterval}
    (measured : Measured device llvm index kernel visit submission interval) : interval.start ≤ interval.stop := by
  cases measured with
  | visit found starts encloses => exact encloses.ordered

theorem Measures.ordered (measures : Measures device llvm index kernel time visits sent list) :
    ∀ ti ∈ list, time ≤ ti.start ∧ ti.start ≤ ti.stop := by
  induction measures with
  | nil => exact List.forall_mem_nil _
  | cons measured later _ ih =>
    refine List.forall_mem_cons.mpr ⟨⟨later, measured.ordered⟩, fun ti member => ?_⟩
    obtain ⟨behind, ordered⟩ := ih ti member
    exact ⟨UInt64.le_trans later (UInt64.le_trans measured.ordered behind), ordered⟩

/-- A wave's intervals do not overlap, so that they fit between any bounds of them. -/
theorem Measures.sum_le (measures : Measures device llvm index kernel time visits sent list) {first last : UInt64}
    (within : ∀ ti ∈ list, first ≤ ti.start ∧ ti.stop ≤ last) :
    (list.map duration).sum ≤ last.toNat - first.toNat := by
  induction measures generalizing first with
  | nil => exact Nat.zero_le _
  | @cons time visit submission interval visits sent list measured later rest ih =>
    obtain ⟨⟨starts, stops⟩, within⟩ := List.forall_mem_cons.mp within
    have behind := @ih interval.stop fun ti member => ⟨(rest.ordered ti member).1, (within ti member).2⟩
    have ordered := UInt64.le_iff_toNat_le.mp measured.ordered
    rw [UInt64.le_iff_toNat_le] at starts stops
    rw [List.map_cons, List.sum_cons, duration]
    omega

/-- What the host receives for a call: the two words that the pointer leads to. -/
structure Delivers (device : Device W) (isTimeInterval : UInt32 → Bool) (submission : Submission) (message : IntervalMessage) :
    Prop where
  kind : isTimeInterval message.userType = true
  data : ∃ address < 2 ^ 32, submission.args[1]? = some (flat device address % 2 ^ 64) ∧
    message.dataItems = [⟨.ofNat (submission.words address), .ofNat (submission.words (address + 8))⟩]

/-- Generic pointers tell private addresses apart. -/
def FlatApart (device : Device W) : Prop :=
  ∀ first < 2 ^ 32, ∀ second < 2 ^ 32, flat device first % 2 ^ 64 = flat device second % 2 ^ 64 → first = second

theorem Measured.delivered (apart : FlatApart device) {isTimeInterval : UInt32 → Bool} {visit : Visit Line (Timed W)}
    {submission : Submission} {interval : TimeInterval} {message : IntervalMessage}
    (measured : Measured device llvm index kernel visit submission interval)
    (delivers : Delivers device isTimeInterval submission message) : message.dataItems = [interval] := by
  obtain ⟨address, bound, arg, items⟩ := delivers.data
  cases measured with
  | @visit number block first terminator events state _ _ address' found starts encloses args bound' start stop =>
    rw [args] at arg
    obtain rfl := apart address' bound' address bound (Option.some.inj arg)
    rw [items, start, stop, UInt64.ofNat_toNat, UInt64.ofNat_toNat]

theorem Measures.delivered (apart : FlatApart device) {isTimeInterval : UInt32 → Bool}
    (measures : Measures device llvm index kernel time visits sent list) {history : List IntervalMessage}
    (delivered : List.Forall₂ (Delivers device isTimeInterval) sent history) : intervals isTimeInterval history = list := by
  induction measures generalizing history with
  | nil =>
    cases delivered
    rfl
  | cons measured _ _ ih =>
    cases delivered with
    | cons here later =>
      rw [intervals, List.flatMap_cons, ← intervals, ih later, here.kind, if_pos rfl, measured.delivered apart here]
      rfl

theorem Measures.length (measures : Measures device llvm index kernel time visits sent list) : list.length = visits.length := by
  induction measures with
  | nil => rfl
  | cons _ _ _ ih => exact congrArg (· + 1) ih

end

/-! ### Waves -/

section
variable {W : Type}

/-- A wave that runs the instrumented kernel, with the messages that the host gets of it. -/
structure WaveRun (W : Type) where
  first : Timed W
  events : List (Line × Timed W)
  history : List IntervalMessage

/-- The wave runs the instrumented kernel to its end, and what it sends is delivered. -/
structure Ran (device : Device W) (timing : Timing W) (isTimeInterval : UInt32 → Bool) (program : List (List Line))
    (wave : WaveRun W) : Prop where
  known : wave.first.wave.frame.constant = device.constant
  ended : ∃ last, Executes (lineMachine device timing) program (.enter program 0 wave.first) wave.events last ∧ last.todo = []
  delivered : List.Forall₂ (Delivers device isTimeInterval) (submissions wave.events) wave.history

/-- The wave runs the kernel itself to its end, with the same instructions of the kernel. -/
structure RanItself (device : Device W) (kernel : KernelBody) (wave : WaveRun W) (original : List (Instruction × Wave W)) :
    Prop where
  ended : ∃ last, Executes device.machine kernel.blocks (.enter kernel.blocks 0 wave.first.wave)
    original last ∧ last.todo = []
  same : ownOf wave.events = original.map Prod.fst

/-- What a wave sends: intervals that do not overlap, one for each block that the kernel's own execution finishes. -/
structure Spends (kernel : KernelBody) (isTimeInterval : UInt32 → Bool) (wave : WaveRun W)
    (original : List (Instruction × Wave W)) : Prop where
  length : (intervals isTimeInterval wave.history).length = (finishedBlocks kernel.blocks original).length
  ordered : ∀ ti ∈ intervals isTimeInterval wave.history, ti.start ≤ ti.stop
  apart : ∀ first last : UInt64, (∀ ti ∈ intervals isTimeInterval wave.history, first ≤ ti.start ∧ ti.stop ≤ last) →
    ((intervals isTimeInterval wave.history).map duration).sum ≤ last.toNat - first.toNat

variable {device : Device W} {timing : Timing W} {llvm : LLVM} {index : Nat} {kernel : KernelBody} {program : List (List Line)}
  {isTimeInterval : UInt32 → Bool}

theorem Ran.itself (times : Times device timing llvm index kernel program) (apart : FlatApart device) {wave : WaveRun W}
    (ran : Ran device timing isTimeInterval program wave) :
    ∃ original, RanItself device kernel wave original ∧ Spends kernel isTimeInterval wave original := by
  obtain ⟨last', executes, ended⟩ := ran.ended
  obtain ⟨original, last, visits, part, sent, list, pending, itself, -, -, stopped, same, -, blocks, measures, sends, -, none⟩ :=
    times.back ran.known executes
  have delivered := ran.delivered
  rw [sends, none ended, List.append_nil] at delivered
  have got := measures.delivered apart delivered
  refine ⟨original, ⟨⟨last, itself, stopped ended⟩, same⟩, ?_, ?_, ?_⟩
  · rw [got, measures.length, ← blocks, List.length_map]
  · rw [got]
    exact fun ti member => (measures.ordered ti member).2
  · rw [got]
    exact fun first last within => measures.sum_le within

theorem spends_of_executions (times : Times device timing llvm index kernel program) (apart : FlatApart device)
    {waves : List (WaveRun W)} (ran : ∀ wave ∈ waves, Ran device timing isTimeInterval program wave) :
    ∃ originals, List.Forall₂ (RanItself device kernel) waves originals ∧
      List.Forall₂ (Spends kernel isTimeInterval) waves originals := by
  induction waves with
  | nil => exact ⟨[], .nil, .nil⟩
  | cons wave rest ih =>
    obtain ⟨here, later⟩ := List.forall_mem_cons.mp ran
    obtain ⟨original, itself, spends⟩ := here.itself times apart
    obtain ⟨originals, each, spend⟩ := ih later
    exact ⟨original :: originals, .cons itself each, .cons spends spend⟩

/-- The waves' times, added up. -/
theorem spends_all {waves : List (WaveRun W)} {originals : List (List (Instruction × Wave W))}
    (spends : List.Forall₂ (Spends kernel isTimeInterval) waves originals) :
    (intervals isTimeInterval (waves.flatMap WaveRun.history)).length =
        (originals.map fun events => (finishedBlocks kernel.blocks events).length).sum ∧
      (∀ ti ∈ intervals isTimeInterval (waves.flatMap WaveRun.history), ti.start ≤ ti.stop) ∧
      ∀ first last : UInt64,
        (∀ ti ∈ intervals isTimeInterval (waves.flatMap WaveRun.history), first ≤ ti.start ∧ ti.stop ≤ last) →
          ((intervals isTimeInterval (waves.flatMap WaveRun.history)).map duration).sum ≤
            waves.length * (last.toNat - first.toNat) := by
  induction spends with
  | nil => exact ⟨rfl, List.forall_mem_nil _, fun _ _ _ => Nat.zero_le _⟩
  | @cons wave original waves originals here _ ih =>
    obtain ⟨length, ordered, apart⟩ := ih
    rw [List.flatMap_cons, intervals_append]
    refine ⟨?_, List.forall_mem_append.mpr ⟨here.ordered, ordered⟩, fun first last within => ?_⟩
    · rw [List.length_append, here.length, length, List.map_cons, List.sum_cons]
    · obtain ⟨own, others⟩ := List.forall_mem_append.mp within
      have one := here.apart first last own
      have rest := apart first last others
      rw [List.map_append, List.sum_append, List.length_cons, Nat.succ_mul]
      omega

/-- The report's fields: one interval for each block that a wave of the kernel itself finishes, and no more time in all
than there are waves times the time from the first start to the last stop. -/
theorem totals_of_executions (unreached : timing.Unreached device) (keeps : timing.KeepsTime device)
    (confined : device.Confined kernel.nextId) (sets : SetsOwnResult device)
    (structured : Structured device.machine kernel.blocks) (folds : FoldsConstants llvm)
    (apart : FlatApart device) (instrumented : runOnFunction llvm index kernel.blocks kernel.nextId = some program)
    {waves : List (WaveRun W)} (ran : ∀ wave ∈ waves, Ran device timing isTimeInterval program wave)
    {received : List IntervalMessage} (arrived : received.Perm (waves.flatMap WaveRun.history)) :
    ∃ originals, List.Forall₂ (RanItself device kernel) waves originals ∧
      ∃ after, run (step isTimeInterval) {} received = some after ∧
        let list := intervals isTimeInterval received
        after.Totals list ∧ list.length = (originals.map fun events => (finishedBlocks kernel.blocks events).length).sum ∧
          (list.map duration).sum ≤ waves.length * (after.lastStop.toNat - after.firstStart.toNat) := by
  have times : Times device timing llvm index kernel program :=
    times_of_instruments unreached keeps confined sets structured (runOnFunction_instruments folds instrumented)
  obtain ⟨originals, each, spends⟩ := spends_of_executions times apart ran
  obtain ⟨length, ordered, spent⟩ := spends_all spends
  have same : (intervals isTimeInterval received).Perm (intervals isTimeInterval (waves.flatMap WaveRun.history)) :=
    arrived.flatMap_right _
  obtain ⟨after, added, totals⟩ := addIntervals_totals new_totals fun ti member => ordered ti (same.mem_iff.mp member)
  rw [List.nil_append] at totals
  refine ⟨originals, each, after, by rw [run_eq_addIntervals, added], totals, same.length_eq.trans length, ?_⟩
  rw [(same.map duration).sum_eq]
  refine spent _ _ fun ti member => ?_
  exact ⟨totals.starts ti (same.mem_iff.mpr member), totals.stops ti (same.mem_iff.mpr member)⟩

end

/-! ### Two waves that return -/

namespace Sample
open Instrumentation.Sample (sending)

def ret : Instruction := BBStart.Sample.inst 0 3

def short : KernelBody where
  blocks := [[ret]]
  nextId := 1
  distinct := List.nodup_singleton _
  below := List.forall_mem_singleton.mpr (by decide)
  reads := List.forall_mem_singleton.mpr (List.forall_mem_nil _)

def lines : List Line :=
  (openingLines 1 none ++ closingLines foldsNothing 0 1 0 none none).map .new ++ [.own ret]

theorem instrumented : runOnFunction foldsNothing 0 short.blocks short.nextId = some [lines] := rfl

theorem short_structured : Structured BBStart.Sample.device.machine short.blocks := by
  intro block insts rest inst split state after next performed
  match block, insts, split with
  | 0, [], split =>
    obtain ⟨rfl, rfl⟩ := List.cons.inj split
    exact ⟨fun _ => by simp [show next = .leave from performed.2], fun more => absurd rfl more⟩
  | 0, _ :: _, split => simp [short] at split
  | block + 1, insts, split => simp [short] at split

def start : Timed Nat := ⟨sending 0, 0, fun _ => 0⟩

/-- The states before the instructions. -/
def states : List (Timed Nat) :=
  let read := (start.setResult 1 10).setClock 10
  let opened := (read.setResult 2 64).setClock 11
  let kept := (opened.setResult 3 64).setWord 64 10
  let closed := ((kept.setResult 5 25).setClock 25).setResult 6 72
  let cast := (closed.setWord 72 25).setResult 8 64
  [start, read, opened, opened.setResult 3 64, kept, (kept.setResult 5 25).setClock 25, closed, closed.setWord 72 25, cast,
    { cast with wave := { cast.wave with world := 1 } }]

def message : IntervalMessage := ⟨1, [⟨10, 25⟩]⟩

def wave : WaveRun Nat := ⟨start, lines.zip states, [message]⟩

theorem executes : ∃ last, Executes (lineMachine BBStart.Sample.device timing) [lines]
    (.enter [lines] 0 wave.first) wave.events last ∧ last.todo = [] := by
  refine ⟨⟨0, [], states[9]⟩, ?_, rfl⟩
  have same (now : UInt64) : now ≤ now := UInt64.le_refl now
  have first : (0 : UInt64) ≤ 10 := by decide
  have allocated : (10 : UInt64) ≤ 11 := by decide
  have second : (11 : UInt64) ≤ 25 := by decide
  refine .step ⟨call_clock.mpr ⟨10, first, rfl⟩, rfl⟩ (.step ⟨⟨64, by decide, 11, allocated, rfl⟩, rfl⟩ ?_)
  refine .step ⟨⟨11, same _, rfl⟩, rfl⟩ (.step ⟨⟨11, same _, rfl⟩, rfl⟩ ?_)
  refine .step ⟨call_clock.mpr ⟨25, second, rfl⟩, rfl⟩ (.step ⟨⟨25, same _, rfl⟩, rfl⟩ ?_)
  refine .step ⟨⟨25, same _, rfl⟩, rfl⟩ (.step ⟨⟨25, same _, rfl⟩, rfl⟩ ?_)
  exact .step ⟨rfl, rfl⟩ (.step ⟨⟨rfl, rfl⟩, same _, rfl⟩ (.stop _))

theorem ran : Ran BBStart.Sample.device timing (· = 1) [lines] wave := by
  refine ⟨rfl, executes, ?_⟩
  have sends : submissions wave.events = [⟨[0, 64, 0, 0xffffff, 0xffffff, 0], (states[8]).words⟩] := rfl
  rw [sends]
  exact .cons ⟨rfl, 64, by decide, rfl, rfl⟩ .nil

end Sample

theorem totals_of_executions_sample :
    ∃ after, run (step (· = 1)) {} [Sample.message, Sample.message] = some after ∧ after.noIntervals.toNat = 2 := by
  have both : ∀ wave ∈ [Sample.wave, Sample.wave], Ran BBStart.Sample.device Sample.timing (· = 1) [Sample.lines] wave :=
    List.forall_mem_cons.mpr ⟨Sample.ran, List.forall_mem_singleton.mpr Sample.ran⟩
  have apart : FlatApart BBStart.Sample.device := by
    intro first small second small' same
    have plain : first % 2 ^ 64 = second % 2 ^ 64 := same
    omega
  obtain ⟨originals, -, after, stepped, totals, -⟩ := totals_of_executions Sample.unreached Sample.keepsTime
    (BBStart.Sample.confined _) Sample.sets Sample.short_structured Sample.folds apart Sample.instrumented both (List.Perm.refl _)
  exact ⟨after, stepped, totals.noIntervals⟩

end Omniprobe.Instrumentation.BBInterval
