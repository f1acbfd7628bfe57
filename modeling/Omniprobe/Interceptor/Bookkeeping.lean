import Omniprobe.Interceptor.Signals

/-!
# Signal bookkeeping

`Accounted` ties the signal pool, the pending maps, the values of the signals and the history of
the dispatches together. It holds in every state of every run, so each signal is in one place and
each dispatch is retired at most once, after its kernel completed.
-/

namespace Omniprobe
open Lib

/-! ### The steps -/

theorem queryKernelObject_frame (rt : Runtime) (icpt : Interceptor) (symbol : Symbol) :
    ∃ objects cache,
      queryKernelObject rt icpt symbol = { icpt with kernelObjects := objects, kernelCache := cache } := by
  rcases queryKernelObject_cases rt icpt symbol with ⟨kept, -⟩ | ⟨-, -, recorded⟩
  · exact ⟨_, _, kept⟩
  · exact ⟨_, _, recorded⟩

theorem signalCompleted_pending {icpt : Interceptor} {sig : Signal} {info : KernelInfo}
    (present : icpt.pendingSignals[sig]? = some info) (startNs endNs : UInt64) :
    ∃ effects, signalCompleted icpt sig startNs endNs =
        ({ icpt with
            pendingSignals := icpt.pendingSignals.erase sig
            pendingKernargs := icpt.pendingKernargs.erase sig
            sigPool := icpt.sigPool ++ [sig] }, effects) ∧
      (∀ value, effects.foldl Effect.signals value = fun other =>
        if other = sig then 1
        else if info.signal ≠ 0 ∧ other = info.signal then value other - 1 else value other) ∧
      effects.contains .missingSignal = false ∧
      effects.count (.signalSubtract info.signal 1) = (if info.signal ≠ 0 then 1 else 0) ∧
      effects.countP Effect.isCheckin = (if info.commsObj ≠ 0 then 1 else 0) := by
  refine ⟨_, by rw [signalCompleted, present], ?_⟩
  by_cases app : info.signal = 0 <;> by_cases instrumented : icpt.runInstrumented = true <;>
    by_cases comms : info.commsObj = 0 <;> cases icpt.pendingKernargs[sig]? <;>
    simp [app, instrumented, comms, Effect.signals, Effect.isCheckin]

namespace Sys
variable {s t : Sys}

/-- What a submission does, in terms of the signal it took from the pool. -/
theorem submit_some {rt : Runtime} {env : FixupEnv} {packet : Packet} {queue : Queue}
    (h : s.submit rt env packet queue = some t) :
    s.app = .submitting ∧ packet.completionSignal ∉ s.created ∧
    s.FreshHandles (s.fresh env) packet.completionSignal ∧
    ∃ icpt sig info fixup, Submitted env packet queue s.icpt icpt sig info fixup ∧
      t = { s with
        icpt
        value := fun sig => if sig ∈ s.fresh env then 1 else s.value sig
        created := s.created ++ s.fresh env
        dispatches := s.dispatches.insert s.submitted
          { signal := sig, appSignal := info.signal, commsObj := info.commsObj }
        submitted := s.submitted + 1
        inflight := s.inflight.insert sig s.submitted } := by
  unfold submit at h
  split at h
  · rename_i enabled
    dsimp only at h
    split at h
    · rename_i icpt fixup call
      obtain ⟨sig, info, fixup', same, submitted⟩ := fixupPacket_ok call
      obtain rfl := Option.some.inj same
      refine ⟨enabled.1, enabled.2.1, enabled.2.2.1, icpt, sig, info, fixup,
        ⟨submitted.pool, submitted.signals, submitted.kernargs, submitted.objects, submitted.flag,
          submitted.signal, submitted.comms, submitted.completion⟩, ?_⟩
      rw [← Option.some.inj h, submitted.signal, submitted.comms, submitted.completion]
    · simp at h
  · simp at h

theorem complete_some {id : Nat} (h : s.complete id = some t) :
    ∃ dispatch, s.dispatches[id]? = some dispatch ∧ dispatch.finished = false ∧
      t = { s with
        value := fun sig => if sig = dispatch.signal then s.value sig - 1 else s.value sig
        dispatches := s.dispatches.insert id
          { dispatch with finished := true, due := !s.icpt.shuttingDown } } := by
  unfold complete at h
  split at h
  · rename_i dispatch known
    split at h
    · simp at h
    · rename_i running
      exact ⟨dispatch, known, by simpa using running, (Option.some.inj h).symm⟩
  · simp at h

theorem retire_pending {sig : Signal} {info : KernelInfo} {id : Nat} {dispatch : Dispatch}
    (present : s.icpt.pendingSignals[sig]? = some info) (owner : s.inflight[sig]? = some id)
    (known : s.dispatches[id]? = some dispatch) (app : dispatch.appSignal = info.signal)
    (startNs endNs : UInt64) :
    s.retire sig startNs endNs =
      { s with
        icpt := { s.icpt with
          pendingSignals := s.icpt.pendingSignals.erase sig
          pendingKernargs := s.icpt.pendingKernargs.erase sig
          sigPool := s.icpt.sigPool ++ [sig] }
        value := fun other =>
          if other = sig then 1
          else if info.signal ≠ 0 ∧ other = info.signal then s.value other - 1 else s.value other
        dispatches := s.dispatches.insert id
          { dispatch with
            retired := true
            decrements := dispatch.decrements + if info.signal ≠ 0 then 1 else 0
            checkins := dispatch.checkins + if info.commsObj ≠ 0 then 1 else 0 }
        inflight := s.inflight.erase sig } := by
  obtain ⟨effects, call, values, missing, decrements, checkins⟩ :=
    signalCompleted_pending present startNs endNs
  simp only [retire, call, values, missing, owner, known, app, decrements, checkins, Option.bind_some,
    Option.map_some, Bool.or_false]

theorem nextPending_some {seen : List Signal} {sig : Signal} (h : s.nextPending seen = some sig) :
    sig ∈ s.icpt.pendingSignals ∧ ∀ earlier ∈ seen, earlier < sig := by
  have inside := List.mem_of_find?_eq_some h
  have later := List.find?_some h
  exact ⟨Std.ExtTreeMap.mem_keys.mp inside, by simpa using later⟩

/-- Only an iteration that saw something can end before every pending signal was seen. -/
theorem nextPending_nil (h : s.nextPending [] = none) (sig : Signal) : sig ∉ s.icpt.pendingSignals := by
  intro inside
  have none := List.find?_eq_none.mp h sig (Std.ExtTreeMap.mem_keys.mpr inside)
  simp at none

/-- The two states have the same bookkeeping; runner, flag, phase, kernels and cache may differ. -/
structure SameBooks (s t : Sys) : Prop where
  pool : t.icpt.sigPool = s.icpt.sigPool
  signals : t.icpt.pendingSignals = s.icpt.pendingSignals
  kernargs : t.icpt.pendingKernargs = s.icpt.pendingKernargs
  created : t.created = s.created
  dispatches : t.dispatches = s.dispatches
  submitted : t.submitted = s.submitted
  inflight : t.inflight = s.inflight
  missing : t.missing = s.missing
  values : ∀ sig ∈ s.created, t.value sig = s.value sig

structure Quiet (s t : Sys) : Prop extends SameBooks s t where
  runner : t.runner = s.runner
  flag : t.icpt.shuttingDown = s.icpt.shuttingDown
  phase : t.app = .submitting ↔ s.app = .submitting

def flagged (s : Sys) : Sys := { s with app := .polling 0, icpt := { s.icpt with shuttingDown := true } }

theorem step_cases {act : Act} (h : s.step act = some t) :
    (∃ rt env packet queue, s.submit rt env packet queue = some t) ∨
    (∃ id, s.complete id = some t) ∨
    (∃ startNs endNs, s.runnerStep startNs endNs = some t) ∨
    (act = .shutdown ∧ s.app = .submitting ∧ t = s.flagged) ∨
    s.Quiet t := by
  cases act with
  | submit rt env packet queue => exact Or.inl ⟨rt, env, packet, queue, h⟩
  | complete id => exact Or.inr (Or.inl ⟨id, h⟩)
  | runner startNs endNs => exact Or.inr (Or.inr (Or.inl ⟨startNs, endNs, h⟩))
  | query rt symbol =>
    obtain rfl := Option.some.inj h
    obtain ⟨objects, cache, same⟩ := queryKernelObject_frame rt s.icpt symbol
    rw [same]
    exact Or.inr (Or.inr (Or.inr (Or.inr ⟨⟨rfl, rfl, rfl, rfl, rfl, rfl, rfl, rfl, fun _ _ => rfl⟩, rfl, rfl, Iff.rfl⟩)))
  | appStore sig value =>
    simp only [step] at h
    split at h
    · cases h
    · rename_i foreign
      obtain rfl := Option.some.inj h
      refine Or.inr (Or.inr (Or.inr (Or.inr ⟨⟨rfl, rfl, rfl, rfl, rfl, rfl, rfl, rfl, ?_⟩, rfl, rfl, Iff.rfl⟩)))
      intro other made
      dsimp only
      rw [if_neg]
      rintro rfl
      exact foreign made
  | shutdown =>
    simp only [step] at h
    split at h
    · exact Or.inr (Or.inr (Or.inr (Or.inl ⟨rfl, ‹_›, (Option.some.inj h).symm⟩)))
    · cases h
  | poll =>
    simp only [step, poll] at h
    split at h
    · rename_i waitCount position
      obtain rfl := Option.some.inj h
      refine Or.inr (Or.inr (Or.inr (Or.inr ⟨⟨rfl, rfl, rfl, rfl, rfl, rfl, rfl, rfl, fun _ _ => rfl⟩, rfl, rfl, ?_⟩)))
      dsimp only
      rw [position]
      split <;> simp
    · cases h
  | join =>
    simp only [step] at h
    split at h
    · rename_i enabled
      obtain rfl := Option.some.inj h
      refine Or.inr (Or.inr (Or.inr (Or.inr ⟨⟨rfl, rfl, rfl, rfl, rfl, rfl, rfl, rfl, fun _ _ => rfl⟩, rfl, rfl, ?_⟩)))
      rw [enabled.1]
      simp
    · cases h

/-! ### The invariant -/

/-- What the runner holds: a snapshot lists pending signals, each once. -/
def RunnerOk (s : Sys) : Prop :=
  match s.runner with
  | .snapshot seen => seen.Pairwise (· < ·) ∧ ∀ sig ∈ seen, sig ∈ s.icpt.pendingSignals
  | .pass todo => todo.Nodup ∧ ∀ sig ∈ todo, sig ∈ s.icpt.pendingSignals
  | .completed sig todo =>
    (sig :: todo).Nodup ∧ (∀ other ∈ sig :: todo, other ∈ s.icpt.pendingSignals) ∧ s.value sig = 0
  | _ => True

/-- The dispatch that a pending signal stands for. -/
structure Owns (s : Sys) (sig : Signal) (info : KernelInfo) (id : Nat) (dispatch : Dispatch) : Prop where
  inflight : s.inflight[sig]? = some id
  known : s.dispatches[id]? = some dispatch
  signal : dispatch.signal = sig
  app : dispatch.appSignal = info.signal
  comms : dispatch.commsObj = info.commsObj
  retired : dispatch.retired = false
  value : s.value sig = if dispatch.finished then 0 else 1

theorem Owns.finished {sig : Signal} {info : KernelInfo} {id : Nat} {dispatch : Dispatch}
    (owns : s.Owns sig info id dispatch) (zero : s.value sig = 0) : dispatch.finished = true := by
  by_contra running
  have one := owns.value
  rw [if_neg running, zero] at one
  cases one

structure Live (s : Sys) (id : Nat) (dispatch : Dispatch) : Prop where
  inflight : s.inflight[dispatch.signal]? = some id
  pending : dispatch.signal ∈ s.icpt.pendingSignals
  app : dispatch.appSignal ∉ s.created
  decrements : dispatch.decrements = 0
  checkins : dispatch.checkins = 0

/-- A retired dispatch: its kernel completed, and its application was told once. -/
structure Done (dispatch : Dispatch) : Prop where
  finished : dispatch.finished = true
  decrements : dispatch.decrements = if dispatch.appSignal ≠ 0 then 1 else 0
  checkins : dispatch.checkins = if dispatch.commsObj ≠ 0 then 1 else 0

structure Accounted (s : Sys) : Prop where
  poolNodup : s.icpt.sigPool.Nodup
  pooled : ∀ sig ∈ s.icpt.sigPool, sig ∈ s.created ∧ sig ∉ s.icpt.pendingSignals ∧ s.value sig = 1
  placed : ∀ sig ∈ s.created, sig ∈ s.icpt.sigPool ∨ sig ∈ s.icpt.pendingSignals
  valid : ∀ sig ∈ s.created, sig ≠ 0
  kernargs : ∀ sig, sig ∈ s.icpt.pendingKernargs → sig ∈ s.icpt.pendingSignals
  owned : ∀ sig info, s.icpt.pendingSignals[sig]? = some info →
    sig ∈ s.created ∧ ∃ id dispatch, s.Owns sig info id dispatch
  live : ∀ (id : Nat) dispatch, s.dispatches[id]? = some dispatch → dispatch.retired = false → s.Live id dispatch
  done : ∀ (id : Nat) dispatch, s.dispatches[id]? = some dispatch → dispatch.retired = true → Done dispatch
  numbered : ∀ (id : Nat) dispatch, s.dispatches[id]? = some dispatch → id < s.submitted
  found : s.missing = false
  runner : s.RunnerOk

theorem Accounted.pending_created (ok : s.Accounted) {sig : Signal} (pending : sig ∈ s.icpt.pendingSignals) :
    sig ∈ s.created := by
  obtain ⟨info, present⟩ := (mem_iff_find _ _).mp pending
  exact (ok.owned sig info present).1

/-- A pending signal belongs to the dispatch it was submitted with, and to no other. -/
theorem Accounted.owner (ok : s.Accounted) {sig : Signal} {id : Nat} {dispatch : Dispatch}
    (pending : sig ∈ s.icpt.pendingSignals) (mine : s.inflight[sig]? = some id)
    (known : s.dispatches[id]? = some dispatch) :
    ∃ info, s.icpt.pendingSignals[sig]? = some info ∧ s.Owns sig info id dispatch := by
  obtain ⟨info, present⟩ := (mem_iff_find _ _).mp pending
  obtain ⟨-, owner, owned, owns⟩ := ok.owned sig info present
  obtain rfl := Option.some.inj (owns.inflight.symm.trans mine)
  obtain rfl := Option.some.inj (owns.known.symm.trans known)
  exact ⟨info, present, owns⟩

theorem Accounted.drawn (ok : s.Accounted) {env : FixupEnv} {app : Signal}
    (handles : s.FreshHandles (s.fresh env) app) :
    (drawPool env s.icpt).Nodup ∧
    (∀ sig ∈ drawPool env s.icpt, sig ∈ s.created ++ s.fresh env ∧ sig ∉ s.icpt.pendingSignals ∧
      (if sig ∈ s.fresh env then 1 else s.value sig) = 1) ∧
    ∀ sig ∈ s.created ++ s.fresh env, sig ∈ drawPool env s.icpt ∨ sig ∈ s.icpt.pendingSignals := by
  by_cases empty : s.icpt.sigPool = []
  · have same : drawPool env s.icpt = s.fresh env := by simp only [drawPool, fresh, empty, if_true]
    rw [same]
    refine ⟨handles.1, ?_, ?_⟩
    · intro sig member
      refine ⟨List.mem_append_right _ member, ?_, if_pos member⟩
      intro pending
      exact (handles.2 sig member).2.1 (ok.pending_created pending)
    · intro sig member
      rcases List.mem_append.mp member with old | new
      · rcases ok.placed sig old with pooled | pending
        · rw [empty] at pooled
          cases pooled
        · exact Or.inr pending
      · exact Or.inl new
  · have same : drawPool env s.icpt = s.icpt.sigPool := by simp only [drawPool, empty, if_false]
    have none : s.fresh env = [] := by simp only [fresh, empty, if_false]
    rw [same, none]
    refine ⟨ok.poolNodup, ?_, ?_⟩
    · intro sig member
      obtain ⟨made, idle, one⟩ := ok.pooled sig member
      exact ⟨by simpa using made, idle, by simpa using one⟩
    · intro sig member
      exact ok.placed sig (by simpa using member)

theorem RunnerOk.mono (ok : s.RunnerOk) (same : t.runner = s.runner)
    (kept : ∀ sig ∈ s.icpt.pendingSignals, sig ∈ t.icpt.pendingSignals)
    (values : ∀ sig ∈ s.icpt.pendingSignals, s.value sig = 0 → t.value sig = 0) : t.RunnerOk := by
  unfold RunnerOk at ok ⊢
  rw [same]
  split
  · rename_i seen position
    rw [position] at ok
    exact ⟨ok.1, fun sig member => kept sig (ok.2 sig member)⟩
  · rename_i todo position
    rw [position] at ok
    exact ⟨ok.1, fun sig member => kept sig (ok.2 sig member)⟩
  · rename_i sig todo position
    rw [position] at ok
    obtain ⟨nodup, pending, zero⟩ := ok
    exact ⟨nodup, fun other member => kept other (pending other member),
      values sig (pending sig List.mem_cons_self) zero⟩
  · trivial

theorem Accounted.submit (ok : s.Accounted) {rt : Runtime} {env : FixupEnv} {packet : Packet} {queue : Queue}
    (h : s.submit rt env packet queue = some t) : t.Accounted := by
  obtain ⟨-, foreign, handles, icpt, sig, info, fixup, submitted, rfl⟩ := submit_some h
  obtain ⟨nodup, drawn, covered⟩ := ok.drawn handles
  rw [submitted.pool] at nodup drawn covered
  have sigLast : sig ∈ icpt.sigPool ++ [sig] := by simp
  obtain ⟨sigMade, sigIdle, sigOne⟩ := drawn sig sigLast
  have sigOut : sig ∉ icpt.sigPool := by
    intro member
    exact (List.nodup_append.mp nodup).2.2 sig member sig (by simp) rfl
  -- A signal that was made before keeps its value.
  have kept : ∀ other ∈ s.created, (if other ∈ s.fresh env then 1 else s.value other) = s.value other := by
    intro other made
    rw [if_neg]
    intro new
    exact (handles.2 other new).2.1 made
  constructor
  case poolNodup => exact (List.nodup_append.mp nodup).1
  case pooled =>
    intro other member
    obtain ⟨made, idle, one⟩ := drawn other (List.mem_append_left _ member)
    refine ⟨made, ?_, one⟩
    rw [submitted.signals, mem_insert_iff]
    rintro (rfl | pending)
    · exact sigOut member
    · exact idle pending
  case placed =>
    intro other made
    rw [submitted.signals, mem_insert_iff]
    rcases covered other made with pooled | pending
    · rcases List.mem_append.mp pooled with pooled | last
      · exact Or.inl pooled
      · exact Or.inr (Or.inl (List.mem_singleton.mp last).symm)
    · exact Or.inr (Or.inr pending)
  case valid =>
    intro other made
    rcases List.mem_append.mp made with old | new
    · exact ok.valid other old
    · exact (handles.2 other new).1
  case kernargs =>
    intro other member
    rw [submitted.signals, mem_insert_iff]
    rcases submitted.kernargs with same | added
    · rw [same] at member
      exact Or.inr (ok.kernargs other member)
    · rw [added, mem_insert_iff] at member
      exact member.imp_right (ok.kernargs other)
  case owned =>
    intro other ki present
    rw [submitted.signals, find_insert] at present
    split at present
    · rename_i same
      subst same
      obtain rfl := Option.some.inj present
      exact ⟨sigMade, s.submitted, _, ⟨find_insert_self _ _ _, find_insert_self _ _ _, rfl, rfl, rfl, rfl, sigOne⟩⟩
    · rename_i different
      obtain ⟨made, id, dispatch, owns⟩ := ok.owned other ki present
      have earlier := ok.numbered id dispatch owns.known
      refine ⟨List.mem_append_left _ made, id, dispatch,
        ⟨?_, ?_, owns.signal, owns.app, owns.comms, owns.retired, ?_⟩⟩
      · rw [find_insert_ne _ _ different]
        exact owns.inflight
      · rw [find_insert_ne _ _ (by omega)]
        exact owns.known
      · rw [← owns.value]
        exact kept other made
  case live =>
    intro id dispatch known unretired
    rw [find_insert] at known
    split at known
    · rename_i same
      obtain rfl := Option.some.inj known
      subst same
      refine ⟨find_insert_self _ _ _, ?_, ?_, rfl, rfl⟩
      · rw [submitted.signals, mem_insert_iff]
        exact Or.inl rfl
      · rw [submitted.signal]
        intro made
        rcases List.mem_append.mp made with old | new
        · exact foreign old
        · exact (handles.2 _ new).2.2.1 rfl
    · obtain ⟨inflight, pending, app, decrements, checkins⟩ := ok.live id dispatch known unretired
      have different : sig ≠ dispatch.signal := by
        intro same
        exact sigIdle (same ▸ pending)
      refine ⟨?_, ?_, ?_, decrements, checkins⟩
      · rw [find_insert_ne _ _ different]
        exact inflight
      · rw [submitted.signals, mem_insert_iff]
        exact Or.inr pending
      · intro made
        rcases List.mem_append.mp made with old | new
        · exact app old
        · have entry : (id, dispatch) ∈ s.dispatches.toList := Std.ExtTreeMap.mem_toList_iff_getElem?_eq_some.mpr known
          exact (handles.2 _ new).2.2.2 _ entry unretired rfl
  case done =>
    intro id dispatch known retired
    rw [find_insert] at known
    split at known
    · obtain rfl := Option.some.inj known
      cases retired
    · exact ok.done id dispatch known retired
  case numbered =>
    intro id dispatch known
    rw [find_insert] at known
    split at known
    · dsimp only
      omega
    · have earlier := ok.numbered id dispatch known
      dsimp only
      omega
  case found => exact ok.found
  case runner =>
    refine ok.runner.mono rfl ?_ ?_
    · intro other pending
      rw [submitted.signals, mem_insert_iff]
      exact Or.inr pending
    · intro other pending zero
      dsimp only
      rw [kept other (ok.pending_created pending), zero]

theorem Accounted.complete (ok : s.Accounted) {id : Nat} (h : s.complete id = some t) : t.Accounted := by
  obtain ⟨dispatch, known, running, rfl⟩ := complete_some h
  have unretired : dispatch.retired = false := by
    by_contra retired
    have done := ok.done id dispatch known (by simpa using retired)
    rw [done.finished] at running
    cases running
  have live := ok.live id dispatch known unretired
  obtain ⟨ownInfo, ownPresent, own⟩ := ok.owner live.pending live.inflight known
  have ownSignal : s.value dispatch.signal = 1 := by
    rw [own.value, running]
    rfl
  constructor
  case poolNodup => exact ok.poolNodup
  case pooled =>
    intro other member
    obtain ⟨made, idle, one⟩ := ok.pooled other member
    refine ⟨made, idle, ?_⟩
    dsimp only
    rw [if_neg, one]
    rintro rfl
    exact idle live.pending
  case placed => exact ok.placed
  case valid => exact ok.valid
  case kernargs => exact ok.kernargs
  case owned =>
    intro sig info present
    obtain ⟨made, owner, owned, owns⟩ := ok.owned sig info present
    refine ⟨made, ?_⟩
    by_cases same : sig = dispatch.signal
    · subst same
      obtain rfl := Option.some.inj (ownPresent.symm.trans present)
      refine ⟨id, _, own.inflight, find_insert_self _ _ _, rfl, own.app, own.comms, own.retired, ?_⟩
      dsimp only
      rw [if_pos rfl, ownSignal]
      rfl
    · have different : id ≠ owner := by
        rintro rfl
        obtain rfl := Option.some.inj (owns.known.symm.trans known)
        exact same owns.signal.symm
      refine ⟨owner, owned, owns.inflight, ?_, owns.signal, owns.app, owns.comms, owns.retired, ?_⟩
      · rw [find_insert_ne _ _ different]
        exact owns.known
      · dsimp only
        rw [if_neg same]
        exact owns.value
  case live =>
    intro id' dispatch' known' unretired'
    rw [find_insert] at known'
    split at known'
    · rename_i same
      subst same
      obtain rfl := Option.some.inj known'
      exact ⟨live.inflight, live.pending, live.app, live.decrements, live.checkins⟩
    · have live' := ok.live id' dispatch' known' unretired'
      exact ⟨live'.inflight, live'.pending, live'.app, live'.decrements, live'.checkins⟩
  case done =>
    intro id' dispatch' known' retired'
    rw [find_insert] at known'
    split at known'
    · obtain rfl := Option.some.inj known'
      rw [unretired] at retired'
      cases retired'
    · exact ok.done id' dispatch' known' retired'
  case numbered =>
    intro id' dispatch' known'
    rw [find_insert] at known'
    split at known'
    · rename_i same
      subst same
      exact ok.numbered id dispatch known
    · exact ok.numbered id' dispatch' known'
  case found => exact ok.found
  case runner =>
    refine ok.runner.mono rfl (fun _ pending => pending) ?_
    intro sig _ zero
    dsimp only
    rw [if_neg, zero]
    rintro rfl
    rw [ownSignal] at zero
    cases zero

theorem Accounted.retire (ok : s.Accounted) {sig : Signal} {todo : List Signal}
    (position : s.runner = .completed sig todo) (startNs endNs : UInt64) :
    { s.retire sig startNs endNs with runner := .pass todo }.Accounted := by
  have holds := ok.runner
  rw [RunnerOk, position] at holds
  obtain ⟨nodup, listed, zero⟩ := holds
  obtain ⟨info, present⟩ := (mem_iff_find _ _).mp (listed sig List.mem_cons_self)
  obtain ⟨made, id, dispatch, owns⟩ := ok.owned sig info present
  have live := ok.live id dispatch owns.known owns.retired
  have finished := owns.finished zero
  have foreign : info.signal ∉ s.created := by
    rw [← owns.app]
    exact live.app
  rw [retire_pending present owns.inflight owns.known owns.app]
  -- The decrement of the application's signal is no change to the interceptor's own.
  have kept : ∀ other ∈ s.created, other ≠ sig →
      (if other = sig then 1
        else if info.signal ≠ 0 ∧ other = info.signal then s.value other - 1 else s.value other) =
      s.value other := by
    intro other old different
    rw [if_neg different, if_neg]
    rintro ⟨-, rfl⟩
    exact foreign old
  have notPooled : sig ∉ s.icpt.sigPool := by
    intro pooled
    exact (ok.pooled sig pooled).2.1 (listed sig List.mem_cons_self)
  constructor
  case poolNodup =>
    refine List.nodup_append.mpr ⟨ok.poolNodup, by simp, ?_⟩
    intro other pooled last single
    rw [List.mem_singleton.mp single]
    rintro rfl
    exact notPooled pooled
  case pooled =>
    intro other member
    dsimp only
    rw [mem_erase_iff]
    rcases List.mem_append.mp member with pooled | last
    · obtain ⟨old, idle, one⟩ := ok.pooled other pooled
      refine ⟨old, fun ⟨_, pending⟩ => idle pending, ?_⟩
      rw [kept other old, one]
      rintro rfl
      exact notPooled pooled
    · obtain rfl := List.mem_singleton.mp last
      exact ⟨made, fun ⟨different, _⟩ => different rfl, if_pos rfl⟩
  case placed =>
    intro other old
    dsimp only
    rw [mem_erase_iff]
    by_cases same : other = sig
    · exact Or.inl (by simp [same])
    · rcases ok.placed other old with pooled | pending
      · exact Or.inl (List.mem_append_left _ pooled)
      · exact Or.inr ⟨Ne.symm same, pending⟩
  case valid => exact ok.valid
  case kernargs =>
    intro other member
    dsimp only at member ⊢
    rw [mem_erase_iff] at member ⊢
    exact ⟨member.1, ok.kernargs other member.2⟩
  case owned =>
    intro other ki found
    dsimp only at found
    by_cases same : sig = other
    · rw [same, find_erase_self] at found
      cases found
    · rw [find_erase_ne _ same] at found
      obtain ⟨old, id', dispatch', owns'⟩ := ok.owned other ki found
      have different : id ≠ id' := by
        rintro rfl
        obtain rfl := Option.some.inj (owns.known.symm.trans owns'.known)
        exact same (owns.signal.symm.trans owns'.signal)
      refine ⟨old, id', dispatch', ?_, ?_, owns'.signal, owns'.app, owns'.comms, owns'.retired, ?_⟩
      · rw [find_erase_ne _ same]
        exact owns'.inflight
      · rw [find_insert_ne _ _ different]
        exact owns'.known
      · rw [← owns'.value]
        exact kept other old (Ne.symm same)
  case live =>
    intro id' dispatch' known' unretired'
    dsimp only at known'
    rw [find_insert] at known'
    split at known'
    · obtain rfl := Option.some.inj known'
      cases unretired'
    · rename_i different
      obtain ⟨inflight, pending, app, decrements, checkins⟩ := ok.live id' dispatch' known' unretired'
      have other : sig ≠ dispatch'.signal := by
        intro same
        rw [← same, owns.inflight] at inflight
        exact different (Option.some.inj inflight)
      refine ⟨?_, ?_, app, decrements, checkins⟩
      · rw [find_erase_ne _ other]
        exact inflight
      · dsimp only
        rw [mem_erase_iff]
        exact ⟨other, pending⟩
  case done =>
    intro id' dispatch' known' retired'
    dsimp only at known'
    rw [find_insert] at known'
    split at known'
    · obtain rfl := Option.some.inj known'
      refine ⟨finished, ?_, ?_⟩
      · dsimp only
        rw [live.decrements, owns.app, Nat.zero_add]
      · dsimp only
        rw [live.checkins, owns.comms, Nat.zero_add]
    · exact ok.done id' dispatch' known' retired'
  case numbered =>
    intro id' dispatch' known'
    dsimp only at known'
    rw [find_insert] at known'
    split at known'
    · rename_i same
      subst same
      exact ok.numbered id dispatch owns.known
    · exact ok.numbered id' dispatch' known'
  case found => exact ok.found
  case runner =>
    refine ⟨(List.nodup_cons.mp nodup).2, ?_⟩
    intro other member
    dsimp only
    rw [mem_erase_iff]
    refine ⟨?_, listed other (List.mem_cons_of_mem _ member)⟩
    rintro rfl
    exact (List.nodup_cons.mp nodup).1 member

theorem Accounted.same (ok : s.Accounted) (same : s.SameBooks t) (position : t.RunnerOk) : t.Accounted := by
  constructor
  case poolNodup => exact same.pool ▸ ok.poolNodup
  case pooled =>
    intro sig member
    rw [same.pool] at member
    obtain ⟨made, idle, one⟩ := ok.pooled sig member
    rw [same.created, same.signals, same.values sig made]
    exact ⟨made, idle, one⟩
  case placed =>
    rw [same.created, same.pool, same.signals]
    exact ok.placed
  case valid => exact same.created ▸ ok.valid
  case kernargs =>
    rw [same.kernargs, same.signals]
    exact ok.kernargs
  case owned =>
    intro sig info present
    rw [same.signals] at present
    obtain ⟨made, id, dispatch, owns⟩ := ok.owned sig info present
    refine ⟨same.created ▸ made, id, dispatch, ?_, ?_, owns.signal, owns.app, owns.comms, owns.retired, ?_⟩
    · rw [same.inflight, owns.inflight]
    · rw [same.dispatches, owns.known]
    · rw [same.values sig made, owns.value]
  case live =>
    intro id dispatch known unretired
    rw [same.dispatches] at known
    obtain ⟨inflight, pending, app, decrements, checkins⟩ := ok.live id dispatch known unretired
    exact ⟨same.inflight ▸ inflight, same.signals ▸ pending, same.created ▸ app, decrements, checkins⟩
  case done => exact same.dispatches ▸ ok.done
  case numbered =>
    rw [same.dispatches, same.submitted]
    exact ok.numbered
  case found => exact same.missing.trans ok.found
  case runner => exact position

theorem RunnerOk.same (ok : s.Accounted) (same : s.SameBooks t) (position : t.runner = s.runner) : t.RunnerOk := by
  refine ok.runner.mono position ?_ ?_
  · intro sig pending
    rw [same.signals]
    exact pending
  · intro sig pending zero
    rw [same.values sig (ok.pending_created pending), zero]

theorem Accounted.flagged (ok : s.Accounted) : s.flagged.Accounted := by
  have same : s.SameBooks s.flagged := ⟨rfl, rfl, rfl, rfl, rfl, rfl, rfl, rfl, fun _ _ => rfl⟩
  exact ok.same same (RunnerOk.same ok same rfl)

theorem Accounted.move (ok : s.Accounted) {runner : Runner} (position : { s with runner := runner }.RunnerOk) :
    { s with runner := runner }.Accounted :=
  ok.same ⟨rfl, rfl, rfl, rfl, rfl, rfl, rfl, rfl, fun _ _ => rfl⟩ position

theorem Accounted.runnerStep (ok : s.Accounted) {startNs endNs : UInt64}
    (h : s.runnerStep startNs endNs = some t) : t.Accounted := by
  have holds := ok.runner
  unfold Sys.runnerStep at h
  split at h
  · obtain rfl := Option.some.inj h
    refine ok.move ?_
    split
    · trivial
    · exact ⟨List.Pairwise.nil, by simp⟩
  · rename_i seen position
    rw [RunnerOk, position] at holds
    split at h
    · rename_i sig next
      obtain rfl := Option.some.inj h
      obtain ⟨pending, later⟩ := nextPending_some next
      refine ok.move ⟨?_, ?_⟩
      · refine List.pairwise_append.mpr ⟨holds.1, List.pairwise_singleton _ _, ?_⟩
        intro earlier member last single
        rw [List.mem_singleton.mp single]
        exact later earlier member
      · intro other member
        rcases List.mem_append.mp member with old | last
        · exact holds.2 other old
        · rw [List.mem_singleton.mp last]
          exact pending
    · obtain rfl := Option.some.inj h
      refine ok.move ?_
      split
      · trivial
      · exact ⟨holds.1.imp (UInt64.ne_of_lt), holds.2⟩
  · obtain rfl := Option.some.inj h
    exact ok.move ⟨List.Pairwise.nil, by simp⟩
  · rename_i sig todo position
    rw [RunnerOk, position] at holds
    split at h
    · cases h
    · obtain rfl := Option.some.inj h
      refine ok.move ?_
      split
      · rename_i zero
        exact ⟨holds.1, holds.2, zero⟩
      · exact ⟨(List.nodup_cons.mp holds.1).2, fun other member => holds.2 other (List.mem_cons_of_mem _ member)⟩
  · rename_i sig todo position
    obtain rfl := Option.some.inj h
    exact ok.retire position startNs endNs
  · obtain rfl := Option.some.inj h
    exact ok.move trivial
  · cases h

theorem Accounted.step (ok : s.Accounted) {act : Act} (h : s.step act = some t) : t.Accounted := by
  rcases step_cases h with ⟨_, _, _, _, taken⟩ | ⟨_, taken⟩ | ⟨_, _, taken⟩ | ⟨-, -, rfl⟩ | quiet
  · exact ok.submit taken
  · exact ok.complete taken
  · exact ok.runnerStep taken
  · exact ok.flagged
  · exact ok.same quiet.toSameBooks (RunnerOk.same ok quiet.toSameBooks quiet.runner)

/-! ### Every run -/

/-- What the constructor leaves: a pool of fresh signals and nothing submitted. -/
structure Initial (s : Sys) : Prop where
  pool : s.icpt.sigPool = s.created
  size : s.created.length = sigpoolIncrement
  distinct : s.created.Nodup
  fresh : ∀ sig ∈ s.created, sig ≠ 0 ∧ s.value sig = 1
  signals : s.icpt.pendingSignals = ∅
  kernargs : s.icpt.pendingKernargs = ∅
  flag : s.icpt.shuttingDown = false
  runner : s.runner = .test
  app : s.app = .submitting
  dispatches : s.dispatches = ∅
  inflight : s.inflight = ∅
  found : s.missing = false

theorem Initial.accounted (initial : s.Initial) : s.Accounted := by
  have nothing : ∀ sig, sig ∉ s.icpt.pendingSignals := by
    rw [initial.signals]
    exact fun _ => Std.ExtTreeMap.not_mem_empty
  have unknown : ∀ id : Nat, s.dispatches[id]? = none := by
    rw [initial.dispatches]
    exact fun _ => Std.ExtTreeMap.getElem?_empty
  constructor
  case poolNodup => exact initial.pool ▸ initial.distinct
  case pooled =>
    rw [initial.pool]
    exact fun sig member => ⟨member, nothing sig, (initial.fresh sig member).2⟩
  case placed =>
    rw [initial.pool]
    exact fun _ member => Or.inl member
  case valid => exact fun sig member => (initial.fresh sig member).1
  case kernargs =>
    rw [initial.kernargs]
    exact fun _ member => absurd member Std.ExtTreeMap.not_mem_empty
  case owned => exact fun sig info present => absurd ((mem_iff_find _ _).mpr ⟨info, present⟩) (nothing sig)
  case live =>
    intro id dispatch known
    rw [unknown id] at known
    cases known
  case done =>
    intro id dispatch known
    rw [unknown id] at known
    cases known
  case numbered =>
    intro id dispatch known
    rw [unknown id] at known
    cases known
  case found => exact initial.found
  case runner =>
    rw [RunnerOk, initial.runner]
    trivial

theorem accounted_of_reachable {guard : Sys → Act → Prop} {s₀ : Sys} (initial : s₀.Initial)
    (reachable : Reachable Sys.step guard s₀ s) : s.Accounted :=
  reachable.invariant initial.accounted fun _ _ _ ok _ taken => ok.step taken

structure Bookkeeping (s : Sys) : Prop where
  /-- Every signal made is in one place, and nothing else is in the pool or pending. -/
  place : ∀ sig ∈ s.created, s.icpt.sigPool.count sig + (if sig ∈ s.icpt.pendingSignals then 1 else 0) = 1
  pooled : ∀ sig ∈ s.icpt.sigPool, sig ∈ s.created ∧ s.value sig = 1
  pending : ∀ sig, sig ∈ s.icpt.pendingSignals → sig ∈ s.created
  kernargs : ∀ sig, sig ∈ s.icpt.pendingKernargs → sig ∈ s.icpt.pendingSignals
  found : s.missing = false
  /-- The application's signal is decremented once, when the dispatch is retired. -/
  decremented : ∀ (id : Nat) dispatch, s.dispatches[id]? = some dispatch →
    dispatch.decrements = if dispatch.retired ∧ dispatch.appSignal ≠ 0 then 1 else 0
  /-- A dispatch is retired after its kernel completed, and is pending until then. -/
  retired : ∀ (id : Nat) dispatch, s.dispatches[id]? = some dispatch →
    if dispatch.retired then dispatch.finished = true
    else s.inflight[dispatch.signal]? = some id ∧ dispatch.signal ∈ s.icpt.pendingSignals

theorem bookkeeping_of_reachable {s₀ s : Sys} (initial : s₀.Initial)
    (reachable : Reachable Sys.step (fun _ _ => True) s₀ s) : s.Bookkeeping := by
  have ok := accounted_of_reachable initial reachable
  constructor
  case place =>
    intro sig made
    rw [List.Nodup.count ok.poolNodup]
    by_cases pooled : sig ∈ s.icpt.sigPool
    · rw [if_pos pooled, if_neg (ok.pooled sig pooled).2.1]
    · rw [if_neg pooled, if_pos ((ok.placed sig made).resolve_left pooled)]
  case pooled => exact fun sig member => ⟨(ok.pooled sig member).1, (ok.pooled sig member).2.2⟩
  case pending => exact fun _ member => ok.pending_created member
  case kernargs => exact ok.kernargs
  case found => exact ok.found
  case decremented =>
    intro id dispatch known
    cases retired : dispatch.retired with
    | true =>
      rw [(ok.done id dispatch known retired).decrements]
      simp
    | false =>
      rw [(ok.live id dispatch known retired).decrements]
      simp
  case retired =>
    intro id dispatch known
    split
    · rename_i retired
      exact (ok.done id dispatch known retired).finished
    · rename_i unretired
      have live := ok.live id dispatch known (by simpa using unretired)
      exact ⟨live.inflight, live.pending⟩

end Sys

/-! ### The life of one dispatch -/

namespace Sample

def system : Sys := { icpt := interceptor, value := fun _ => 1, created := [1, 2, 3, 4, 5, 6, 7, 8] }

theorem system_initial : system.Initial where
  pool := rfl
  size := rfl
  distinct := by decide
  fresh := by simp [system]
  signals := rfl
  kernargs := rfl
  flag := rfl
  runner := rfl
  app := rfl
  dispatches := rfl
  inflight := rfl
  found := rfl

/-- The sample dispatch is submitted and completes, and the runner retires it in its first pass. -/
def life : List Act :=
  [.submit runtime (answers 0) dispatch 1, .complete 0, .runner 0 0, .runner 0 0, .runner 0 0, .runner 0 0,
    .runner 0 0]

end Sample

theorem Sys.bookkeeping_sample :
    ∃ s, run Sys.step Sample.system Sample.life = some s ∧ s.icpt.sigPool = [1, 2, 3, 4, 5, 6, 7, 8] ∧
      s.value 900 = 0 ∧ s.Bookkeeping :=
  ⟨_, rfl, rfl, rfl, Sys.bookkeeping_of_reachable Sample.system_initial
    (Reachable.start.of_run (meets_of_forall Sample.system fun _ (_ : _ ∈ Sample.life) _ => trivial) rfl)⟩

end Omniprobe
