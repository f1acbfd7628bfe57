import Omniprobe.BasicBlocks.Clear
import Omniprobe.Handlers.Counters
import Omniprobe.Memory.Clear

/-!
# `clear` as a reset

For each of the four handlers: when handling one sequence of messages, clearing and handling a second
one gives the statistics of a new handler that is given the second sequence alone.
-/

namespace Omniprobe.Handlers
open Lib

/-- A new handler, what it handles before `clear` and what it handles after. A message of the basic blocks
comes with the padding bytes of its key, so both runs are taken to find the same ones. -/
inductive Trial where
  | heatmap (isAddress : UInt32 → Bool) (pageSize : UInt64) (earlier later : List Memory.Message)
  | timeIntervals (isTimeInterval : UInt32 → Bool) (earlier later : List IntervalMessage)
  | memoryAnalysis (env : Memory.Env) (earlier later : List Memory.Message)
  | basicBlocks (env : BasicBlocks.Env) (strKernel : Text) (dispatchId : UInt64)
      (earlier later : List BasicBlocks.Message)

namespace Trial

/-- A new handler comes to the end of either sequence. -/
def Handled : Trial → Prop
  | heatmap isAddress pageSize earlier later =>
    (run (Heatmap.step isAddress) { pageSize } earlier).isSome ∧
      (run (Heatmap.step isAddress) { pageSize } later).isSome
  | timeIntervals isTimeInterval earlier later =>
    (run (TimeIntervalHandler.step isTimeInterval) {} earlier).isSome ∧
      (run (TimeIntervalHandler.step isTimeInterval) {} later).isSome
  | memoryAnalysis env earlier later =>
    (run Memory.Handler.step {} (earlier.map (.handle env))).isSome ∧
      (run Memory.Handler.step {} (later.map (.handle env))).isSome
  | basicBlocks env strKernel dispatchId earlier later =>
    (run (BasicBlocks.Analysis.step env) { strKernel, dispatchId } earlier).isSome ∧
      (run (BasicBlocks.Analysis.step env) { strKernel, dispatchId } later).isSome

/-- Clearing between the sequences gives the statistics of a new handler after the second one. -/
def Resets : Trial → Prop
  | heatmap isAddress pageSize earlier later => ∃ old,
    run (Heatmap.step isAddress) { pageSize } earlier = some old ∧
      run (Heatmap.step isAddress) old.clear later = run (Heatmap.step isAddress) { pageSize } later
  | timeIntervals isTimeInterval earlier later => ∃ old,
    run (TimeIntervalHandler.step isTimeInterval) {} earlier = some old ∧
      run (TimeIntervalHandler.step isTimeInterval) old.clear later =
        run (TimeIntervalHandler.step isTimeInterval) {} later
  | memoryAnalysis env earlier later => ∃ old fresh after,
    run Memory.Handler.step {} (earlier.map (.handle env)) = some old ∧
      run Memory.Handler.step {} (later.map (.handle env)) = some fresh ∧
      run Memory.Handler.step old.clear (later.map (.handle env)) = some after ∧ after.SameTables fresh
  | basicBlocks env strKernel dispatchId earlier later => ∃ old fresh after,
    run (BasicBlocks.Analysis.step env) { strKernel, dispatchId } earlier = some old ∧
      run (BasicBlocks.Analysis.step env) { strKernel, dispatchId } later = some fresh ∧
      run (BasicBlocks.Analysis.step env) old.clear later = some after ∧ after.SameStatistics fresh

/-- What `clear` leaves behind cannot be seen: always for the heat map, when a later interval starts at 0 for
the time intervals, when no later LDS access takes its file from an earlier message for the memory
analysis, and for the basic blocks when the earlier messages left nothing. -/
def Unseen : Trial → Prop
  | heatmap _ _ _ _ => True
  | timeIntervals isTimeInterval _ later => ∃ ti ∈ TimeIntervalHandler.intervals isTimeInterval later, ti.start = 0
  | memoryAnalysis env earlier later => Memory.AttributedAlone env earlier later
  | basicBlocks env _ _ earlier later => BasicBlocks.Analysis.LeavesNothing env earlier later

/-- What a reset needs: the same, except for the basic blocks, where the waves of the earlier messages have to
occur again. -/
def Necessary : Trial → Prop
  | basicBlocks env _ _ earlier later => env.hasKdb = false ∨ ∀ hdr ∈ earlier, ∃ other ∈ later, other.place = hdr.place
  | trial => trial.Unseen

end Trial

/-- `clear` is a reset where what it leaves behind is unseen, and for the first three handlers only there. -/
theorem clear_resets_iff (trial : Trial) (handled : trial.Handled) :
    (trial.Unseen → trial.Resets) ∧ (trial.Resets → trial.Necessary) := by
  cases trial with
  | heatmap isAddress pageSize earlier later =>
    obtain ⟨old, ran⟩ := Option.isSome_iff_exists.mp handled.1
    exact ⟨fun _ => ⟨old, ran, by rw [Heatmap.clear_eq_new ran]⟩, fun _ => trivial⟩
  | timeIntervals isTimeInterval earlier later =>
    obtain ⟨fresh, ranLater⟩ := Option.isSome_iff_exists.mp handled.2
    constructor
    · intro unseen
      obtain ⟨old, ran⟩ := Option.isSome_iff_exists.mp handled.1
      exact ⟨old, ran, ((TimeIntervalHandler.clear_reset_iff old ranLater).mpr unseen).trans ranLater.symm⟩
    · rintro ⟨old, -, same⟩
      exact (TimeIntervalHandler.clear_reset_iff old ranLater).mp (same.trans ranLater)
  | memoryAnalysis env earlier later =>
    constructor
    · intro unseen
      obtain ⟨old, ran⟩ := Option.isSome_iff_exists.mp handled.1
      obtain ⟨fresh, ranLater⟩ := Option.isSome_iff_exists.mp handled.2
      obtain ⟨after, cleared, same⟩ := (Memory.Handler.clear_reset_iff env ran ranLater).mpr unseen
      exact ⟨old, fresh, after, ran, ranLater, cleared, same⟩
    · rintro ⟨old, fresh, after, ran, ranLater, cleared, same⟩
      exact (Memory.Handler.clear_reset_iff env ran ranLater).mp ⟨after, cleared, same⟩
  | basicBlocks env strKernel dispatchId earlier later =>
    constructor
    · intro unseen
      obtain ⟨old, ran⟩ := Option.isSome_iff_exists.mp handled.1
      obtain ⟨fresh, ranLater⟩ := Option.isSome_iff_exists.mp handled.2
      obtain ⟨after, cleared, same⟩ := BasicBlocks.Analysis.clear_reset ran ranLater unseen
      exact ⟨old, fresh, after, ran, ranLater, cleared, same⟩
    · rintro ⟨old, fresh, after, ran, ranLater, cleared, same⟩
      exact BasicBlocks.Analysis.places_of_reset rfl ran ranLater cleared same.computeResources

namespace Sample

/-- One message with one interval. -/
def interval (start stop : UInt64) : IntervalMessage := ⟨1, [⟨start, stop⟩]⟩

end Sample

theorem clear_resets_sample :
    (Trial.timeIntervals (fun _ => true) [Sample.interval 3 7] [Sample.interval 0 9]).Resets :=
  (clear_resets_iff (.timeIntervals (fun _ => true) [Sample.interval 3 7] [Sample.interval 0 9]) ⟨rfl, rfl⟩).1
    ⟨⟨0, 9⟩, List.mem_cons_self, rfl⟩

/-- After `clear` an interval from 5 to 9 is reported as starting at 0. -/
theorem clear_keeps_start : ¬∀ trial : Trial, trial.Handled → trial.Resets := by
  intro claim
  obtain ⟨old, ran, same⟩ :=
    claim (.timeIntervals (fun _ => true) [Sample.interval 3 7] [Sample.interval 5 9]) ⟨rfl, rfl⟩
  obtain rfl : (⟨3, 7, 4, 1⟩ : TimeIntervalHandler) = old := Option.some.inj ran
  have cleared : run (TimeIntervalHandler.step fun _ => true) (TimeIntervalHandler.clear ⟨3, 7, 4, 1⟩)
      [Sample.interval 5 9] = some ⟨0, 9, 4, 1⟩ := rfl
  have alone : run (TimeIntervalHandler.step fun _ => true) {} [Sample.interval 5 9] = some ⟨5, 9, 4, 1⟩ := rfl
  rw [cleared, alone] at same
  exact absurd same (by decide)

end Omniprobe.Handlers
