import Omniprobe.Interceptor.Bookkeeping

/-!
# Shutting down

`signal_runner` tests the flag only after a snapshot came back empty and it slept. So a dispatch
that completed is retired before the runner returns exactly when `shutdown()` does not fall
between such a snapshot and the next test while the dispatch is pending.
-/

namespace Omniprobe
open Lib

/-- The runner holds no snapshot: it took an empty one, or has not taken its first, and will look at
the flag before it takes another. -/
def Runner.idle : Runner → Prop
  | .test | .sleep | .returned => True
  | _ => False

namespace Sys
variable {s t : Sys}

/-- `shutdown()` finds the runner with a snapshot in hand, or nothing completed is pending. -/
def ShutsDownClean (s : Sys) : Act → Prop
  | .shutdown => s.runner.idle → ∀ sig ∈ s.icpt.pendingSignals, s.value sig ≠ 0
  | _ => True

structure PassedOn (s : Sys) (id : Nat) (dispatch : Dispatch) : Prop where
  retired : dispatch.retired = true
  decremented : dispatch.decrements = if dispatch.appSignal ≠ 0 then 1 else 0
  reported : dispatch.checkins = if dispatch.commsObj ≠ 0 then 1 else 0
  gone : ∀ sig ∈ s.icpt.pendingSignals, s.inflight[sig]? ≠ some id

theorem Accounted.passedOn (ok : s.Accounted) {id : Nat} {dispatch : Dispatch}
    (known : s.dispatches[id]? = some dispatch) (retired : dispatch.retired = true) : s.PassedOn id dispatch := by
  have done := ok.done id dispatch known retired
  refine ⟨retired, done.decrements, done.checkins, ?_⟩
  intro sig pending mine
  obtain ⟨info, -, owns⟩ := ok.owner pending mine known
  rw [owns.retired] at retired
  cases retired

theorem Accounted.completed_pending (ok : s.Accounted) {id : Nat} {dispatch : Dispatch}
    (known : s.dispatches[id]? = some dispatch) (finished : dispatch.finished = true)
    (unretired : dispatch.retired = false) :
    dispatch.signal ∈ s.icpt.pendingSignals ∧ s.value dispatch.signal = 0 := by
  have live := ok.live id dispatch known unretired
  obtain ⟨info, -, owns⟩ := ok.owner live.pending live.inflight known
  refine ⟨live.pending, ?_⟩
  rw [owns.value, if_pos finished]

/-- What a step of the runner means for the shutdown: it moves, and goes to sleep only when no signal
is pending, or it retires a signal. -/
theorem runnerStep_cases {startNs endNs : UInt64} (h : s.runnerStep startNs endNs = some t) :
    (∃ runner, t = { s with runner := runner } ∧ (runner = .returned → s.icpt.shuttingDown = true) ∧
      (runner.idle → s.runner.idle ∨ ∀ sig, sig ∉ s.icpt.pendingSignals) ∧
      (s.icpt.shuttingDown = true → s.runner.idle → runner.idle)) ∨
    ∃ sig todo, s.runner = .completed sig todo ∧ t = { s.retire sig startNs endNs with runner := .pass todo } := by
  unfold Sys.runnerStep at h
  split at h
  · rename_i position
    refine Or.inl ⟨_, (Option.some.inj h).symm, ?_, ?_, ?_⟩
    · split
      · exact fun _ => ‹_›
      · exact fun returned => by cases returned
    · exact fun _ => Or.inl (position ▸ trivial)
    · intro up _
      rw [up]
      trivial
  · rename_i seen position
    split at h
    · refine Or.inl ⟨_, (Option.some.inj h).symm, (fun returned => by cases returned), False.elim, ?_⟩
      rw [position]
      exact fun _ => False.elim
    · rename_i last
      refine Or.inl ⟨_, (Option.some.inj h).symm, ?_, ?_, ?_⟩
      · split <;> exact fun returned => by cases returned
      · split
        · rename_i empty
          exact fun _ => Or.inr (nextPending_nil (empty ▸ last))
        · exact False.elim
      · rw [position]
        exact fun _ => False.elim
  · rename_i position
    refine Or.inl ⟨_, (Option.some.inj h).symm, (fun returned => by cases returned), False.elim, ?_⟩
    rw [position]
    exact fun _ => False.elim
  · rename_i position
    split at h
    · cases h
    · refine Or.inl ⟨_, (Option.some.inj h).symm, ?_, ?_, ?_⟩
      · split <;> exact fun returned => by cases returned
      · split <;> exact False.elim
      · rw [position]
        exact fun _ => False.elim
  · rename_i sig todo position
    exact Or.inr ⟨sig, todo, position, (Option.some.inj h).symm⟩
  · rename_i position
    exact Or.inl ⟨_, (Option.some.inj h).symm, (fun returned => by cases returned),
      fun _ => Or.inl (position ▸ trivial), fun _ _ => trivial⟩
  · cases h

/-! ### When a dispatch completed -/

/-- The flag separates the completions before `shutdown()` from the later ones. -/
structure Timed (s : Sys) : Prop where
  accounted : s.Accounted
  flag : s.app = .submitting ↔ s.icpt.shuttingDown = false
  returned : s.runner = .returned → s.icpt.shuttingDown = true
  due : ∀ (id : Nat) dispatch, s.dispatches[id]? = some dispatch → dispatch.due = true → dispatch.finished = true
  early : s.icpt.shuttingDown = false →
    ∀ (id : Nat) dispatch, s.dispatches[id]? = some dispatch → dispatch.finished = true → dispatch.due = true

theorem Initial.timed (initial : s.Initial) : s.Timed where
  accounted := initial.accounted
  flag := by simp [initial.app, initial.flag]
  returned := by simp [initial.runner]
  due := by simp [initial.dispatches]
  early := by simp [initial.dispatches]

theorem Timed.submit (ok : s.Timed) {rt : Runtime} {env : FixupEnv} {packet : Packet} {queue : Queue}
    (h : s.submit rt env packet queue = some t) : t.Timed := by
  have accounted := ok.accounted.submit h
  obtain ⟨submitting, -, -, icpt, sig, info, fixup, submitted, rfl⟩ := submit_some h
  have down : icpt.shuttingDown = false := submitted.flag.trans (ok.flag.mp submitting)
  refine ⟨accounted, ⟨fun _ => down, fun _ => submitting⟩, ?_, ?_, ?_⟩
  · intro returned
    rw [← ok.returned returned]
    exact submitted.flag
  · intro id dispatch known due
    rw [find_insert] at known
    split at known
    · obtain rfl := Option.some.inj known
      cases due
    · exact ok.due id dispatch known due
  · intro _ id dispatch known finished
    rw [find_insert] at known
    split at known
    · obtain rfl := Option.some.inj known
      cases finished
    · exact ok.early (ok.flag.mp submitting) id dispatch known finished

theorem Timed.complete (ok : s.Timed) {id : Nat} (h : s.complete id = some t) : t.Timed := by
  have accounted := ok.accounted.complete h
  obtain ⟨dispatch, known, running, rfl⟩ := complete_some h
  refine ⟨accounted, ok.flag, ok.returned, ?_, ?_⟩
  · intro id' dispatch' known' due
    rw [find_insert] at known'
    split at known'
    · obtain rfl := Option.some.inj known'
      rfl
    · exact ok.due id' dispatch' known' due
  · intro down id' dispatch' known' finished
    rw [find_insert] at known'
    split at known'
    · obtain rfl := Option.some.inj known'
      rw [show s.icpt.shuttingDown = false from down]
      rfl
    · exact ok.early down id' dispatch' known' finished

theorem Timed.retire (ok : s.Timed) {sig : Signal} {todo : List Signal}
    (position : s.runner = .completed sig todo) (startNs endNs : UInt64) :
    { s.retire sig startNs endNs with runner := .pass todo }.Timed := by
  have accounted := ok.accounted.retire position startNs endNs
  have holds := ok.accounted.runner
  rw [RunnerOk, position] at holds
  obtain ⟨info, present⟩ := (mem_iff_find _ _).mp (holds.2.1 sig List.mem_cons_self)
  obtain ⟨-, id, dispatch, owns⟩ := ok.accounted.owned sig info present
  rw [retire_pending present owns.inflight owns.known owns.app] at accounted ⊢
  refine ⟨accounted, ok.flag, (fun returned => by cases returned), ?_, ?_⟩
  · intro id' dispatch' known' due
    dsimp only at known'
    rw [find_insert] at known'
    split at known'
    · obtain rfl := Option.some.inj known'
      exact ok.due id dispatch owns.known due
    · exact ok.due id' dispatch' known' due
  · intro down id' dispatch' known' finished
    dsimp only at known'
    rw [find_insert] at known'
    split at known'
    · obtain rfl := Option.some.inj known'
      exact ok.early down id dispatch owns.known finished
    · exact ok.early down id' dispatch' known' finished

theorem Timed.step (ok : s.Timed) {act : Act} (h : s.step act = some t) : t.Timed := by
  have accounted := ok.accounted.step h
  rcases step_cases h with ⟨_, _, _, _, taken⟩ | ⟨_, taken⟩ | ⟨startNs, endNs, taken⟩ | ⟨-, -, rfl⟩ | quiet
  · exact ok.submit taken
  · exact ok.complete taken
  · rcases runnerStep_cases taken with ⟨runner, rfl, returned, -, -⟩ | ⟨sig, todo, position, rfl⟩
    · exact ⟨accounted, ok.flag, returned, ok.due, ok.early⟩
    · exact ok.retire position startNs endNs
  · exact ⟨accounted, by simp [flagged], fun _ => rfl, ok.due, (fun down => by cases down)⟩
  · refine ⟨accounted, ?_, ?_, ?_, ?_⟩
    · rw [quiet.phase, quiet.flag]
      exact ok.flag
    · rw [quiet.runner, quiet.flag]
      exact ok.returned
    · rw [quiet.dispatches]
      exact ok.due
    · rw [quiet.dispatches, quiet.flag]
      exact ok.early

/-! ### Clean shutdowns -/

/-- Once the flag is set, the runner puts its snapshot away only when every due dispatch is retired. -/
def Drained (s : Sys) : Prop :=
  s.icpt.shuttingDown = true → s.runner.idle →
    ∀ (id : Nat) dispatch, s.dispatches[id]? = some dispatch → dispatch.due = true → dispatch.retired = true

theorem Drained.complete (drained : s.Drained) {id : Nat} (h : s.complete id = some t) :
    t.Drained := by
  obtain ⟨dispatch, known, running, rfl⟩ := complete_some h
  intro up idle id' dispatch' known' due
  rw [find_insert] at known'
  split at known'
  · -- Completed after the flag was set: not due.
    obtain rfl := Option.some.inj known'
    rw [show s.icpt.shuttingDown = true from up] at due
    cases due
  · exact drained up idle id' dispatch' known' due

theorem Timed.drained_move (ok : s.Timed) (drained : s.Drained) {runner : Runner}
    (before : runner.idle → s.runner.idle ∨ ∀ sig, sig ∉ s.icpt.pendingSignals) :
    { s with runner := runner }.Drained := by
  intro up idle id dispatch known due
  rcases before idle with before | empty
  · exact drained up before id dispatch known due
  · -- The snapshot came back empty, and an unretired dispatch would be pending.
    by_contra unretired
    have unretired : dispatch.retired = false := by simpa using unretired
    exact empty _ (ok.accounted.live id dispatch known unretired).pending

theorem Timed.drained_flagged (ok : s.Timed) (clean : s.ShutsDownClean .shutdown) : s.flagged.Drained := by
  intro _ idle id dispatch known due
  by_contra unretired
  have unretired : dispatch.retired = false := by simpa using unretired
  obtain ⟨pending, zero⟩ := ok.accounted.completed_pending known (ok.due id dispatch known due) unretired
  exact clean idle _ pending zero

theorem Timed.drained_step (ok : s.Timed) (drained : s.Drained) {act : Act} (clean : s.ShutsDownClean act)
    (h : s.step act = some t) : t.Drained := by
  rcases step_cases h with ⟨_, _, _, _, taken⟩ | ⟨_, taken⟩ | ⟨_, _, taken⟩ | ⟨rfl, -, rfl⟩ | quiet
  · obtain ⟨submitting, -, -, icpt, sig, info, fixup, submitted, rfl⟩ := submit_some taken
    intro up
    rw [show icpt.shuttingDown = false from submitted.flag.trans (ok.flag.mp submitting)] at up
    cases up
  · exact drained.complete taken
  · rcases runnerStep_cases taken with ⟨runner, rfl, -, before, -⟩ | ⟨sig, todo, position, rfl⟩
    · exact ok.drained_move drained before
    · exact fun _ => False.elim
  · exact ok.drained_flagged clean
  · unfold Drained
    rw [quiet.flag, quiet.runner, quiet.dispatches]
    exact drained

/-- No completed dispatch is lost in a run that shuts down clean. -/
theorem completed_passedOn_of_returned {s₀ s : Sys} (initial : s₀.Initial)
    (reachable : Reachable Sys.step ShutsDownClean s₀ s) (returned : s.runner = .returned)
    (id : Nat) (dispatch : Dispatch) (known : s.dispatches[id]? = some dispatch) (due : dispatch.due = true) :
    s.PassedOn id dispatch := by
  have invariant : s.Timed ∧ s.Drained := by
    refine reachable.invariant (P := fun s => s.Timed ∧ s.Drained) ⟨initial.timed, ?_⟩ ?_
    · simp [Drained, initial.flag]
    · rintro s act t ⟨timed, drained⟩ clean taken
      exact ⟨timed.step taken, timed.drained_step drained clean taken⟩
  obtain ⟨timed, drained⟩ := invariant
  have idle : s.runner.idle := by
    rw [returned]
    trivial
  exact timed.accounted.passedOn known (drained (timed.returned returned) idle id dispatch known due)

/-! ### The other shutdowns -/

/-- A state that has lost dispatch `id`: the runner will look at the flag before anything else. -/
structure Loses (id : Nat) (s : Sys) : Prop where
  app : s.app ≠ .submitting
  flag : s.icpt.shuttingDown = true
  idle : s.runner.idle
  lost : ∃ dispatch, s.dispatches[id]? = some dispatch ∧ dispatch.due = true ∧ dispatch.finished = true ∧
    dispatch.retired = false

theorem Loses.step {id : Nat} (lost : s.Loses id) {act : Act} (h : s.step act = some t) : t.Loses id := by
  obtain ⟨app, flag, idle, dispatch, known, due, finished, unretired⟩ := lost
  rcases step_cases h with ⟨_, _, _, _, taken⟩ | ⟨other, taken⟩ | ⟨_, _, taken⟩ | ⟨-, submitting, rfl⟩ | quiet
  · exact absurd (submit_some taken).1 app
  · obtain ⟨dispatch', known', running, rfl⟩ := complete_some taken
    have different : other ≠ id := by
      rintro rfl
      obtain rfl := Option.some.inj (known.symm.trans known')
      rw [finished] at running
      cases running
    exact ⟨app, flag, idle, dispatch, (find_insert_ne _ _ different).trans known, due, finished, unretired⟩
  · rcases runnerStep_cases taken with ⟨runner, rfl, -, -, stays⟩ | ⟨sig, todo, position, rfl⟩
    · exact ⟨app, flag, stays flag idle, dispatch, known, due, finished, unretired⟩
    · rw [position] at idle
      exact idle.elim
  · exact absurd submitting app
  · exact ⟨fun submitting => app (quiet.phase.mp submitting), quiet.flag.trans flag, quiet.runner ▸ idle, dispatch,
      quiet.dispatches ▸ known, due, finished, unretired⟩

/-- After a shutdown that is not clean, some dispatch that completed before it is never retired,
whatever happens next. -/
theorem lost_of_not_clean {s₀ s t u : Sys} (initial : s₀.Initial)
    (before : Reachable Sys.step (fun _ _ => True) s₀ s) (unclean : ¬s.ShutsDownClean .shutdown)
    (taken : s.step .shutdown = some t) (after : Reachable Sys.step (fun _ _ => True) t u) :
    ∃ id, u.Loses id := by
  have timed : s.Timed := before.invariant initial.timed fun _ _ _ ok _ taken => ok.step taken
  simp only [ShutsDownClean, not_forall, ne_eq, not_not] at unclean
  obtain ⟨idle, sig, pending, zero⟩ := unclean
  obtain ⟨info, present⟩ := (mem_iff_find _ _).mp pending
  obtain ⟨-, id, dispatch, owns⟩ := timed.accounted.owned sig info present
  have finished := owns.finished zero
  simp only [Sys.step] at taken
  split at taken
  · rename_i submitting
    obtain rfl := Option.some.inj taken
    have due := timed.early (timed.flag.mp submitting) id dispatch owns.known finished
    -- From here on no step gives the runner a snapshot, so the dispatch stays as it is.
    refine ⟨id, after.invariant ?_ fun _ _ _ lost _ taken => lost.step taken⟩
    exact ⟨by simp, rfl, idle, dispatch, owns.known, due, finished, owns.retired⟩
  · cases taken

end Sys

namespace Sample

def listed : List Act :=
  [.submit runtime (answers 0) dispatch 1, .runner 0 0, .runner 0 0, .complete 0]

def exit : List Act := List.replicate 7 (.runner 0 0)

/-- The runner sleeps after its first, empty snapshot; meanwhile the sample dispatch is submitted and
completes, and the application shuts down. -/
def lossyExit : List Act :=
  [.runner 0 0, .runner 0 0, .submit runtime (answers 0) dispatch 1, .complete 0, .shutdown, .runner 0 0,
    .runner 0 0]

end Sample

theorem Sys.completed_passedOn_sample :
    ∃ s dispatch, run Sys.step Sample.system (Sample.listed ++ [.shutdown] ++ Sample.exit) = some s ∧
      s.runner = .returned ∧ s.dispatches[0]? = some dispatch ∧ dispatch.due = true ∧ s.PassedOn 0 dispatch := by
  have free : ∀ act ∈ Sample.listed ++ Sample.exit, ∀ s : Sys, s.ShutsDownClean act := by
    intro act member s
    cases act with
    | shutdown => simp [Sample.listed, Sample.exit] at member
    | _ => trivial
  have clean : ∀ s : Sys, s.runner = .snapshot [8] → s.ShutsDownClean .shutdown := by
    intro s position idle
    rw [position] at idle
    exact idle.elim
  have before : Reachable Sys.step Sys.ShutsDownClean Sample.system _ := Reachable.start.of_run
    (meets_of_forall _ fun act member => free act (List.mem_append_left Sample.exit member)) rfl
  have after : Reachable Sys.step Sys.ShutsDownClean Sample.system _ :=
    (before.step (clean _ rfl) rfl).of_run
      (meets_of_forall _ fun act member => free act (List.mem_append_right Sample.listed member)) rfl
  exact ⟨_, _, rfl, rfl, rfl, rfl, Sys.completed_passedOn_of_returned Sample.system_initial after rfl 0 _ rfl rfl⟩

/-- `shutdown()` during the runner's sleep loses a dispatch that completed before it. -/
theorem Sys.completed_lost :
    ¬∀ s₀ s : Sys, s₀.Initial → Reachable Sys.step (fun _ _ => True) s₀ s → s.runner = .returned →
      ∀ id dispatch, s.dispatches[id]? = some dispatch → dispatch.due = true → s.PassedOn id dispatch := by
  intro claim
  have reached : Reachable Sys.step (fun _ _ => True) Sample.system _ := Reachable.start.of_run
    (meets_of_forall _ fun _ (_ : _ ∈ Sample.lossyExit) _ => trivial) rfl
  have passed := claim _ _ Sample.system_initial reached rfl 0 _ rfl rfl
  have retired := passed.retired
  cases retired

end Omniprobe
