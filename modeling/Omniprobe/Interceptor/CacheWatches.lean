import Omniprobe.Interceptor.CacheLoads

/-!
# The directories that the cache watcher watches

A directory that was found at the start, or whose creation the watcher was told of, is watched once the watcher has come
to it, unless it is gone or a watch was refused.
-/

namespace Omniprobe.CacheWatcher
open Lib

section
variable {inotify : Inotify} {granted : Bool} {s after : State} {inflight : List Event} {news : Option (Change × Dir)}
  {root : Str}

/-- What is found at the start. -/
def found (root : Str) (dirs : List Dir) : List Dir := components root :: (scan root dirs).map components

namespace State
variable (inotify)

/-- The directories whose last creation the watcher was told of. -/
def known (s : State) (known : List Dir) : Action → List Dir
  | .mkdir dir name => if s.canMake dir name ∧ s.noticed inotify dir then (dir ++ [name.bytes]) :: known else known
  | .rmdir dir name =>
    if s.canRemove (dir ++ [name.bytes]) then known.filter (· ≠ dir ++ [name.bytes]) else known
  | .file _ _ _ _ | .work _ => known

end State

/-- The watcher is about to look at the directory. -/
def State.Expects (s : State) (inflight : List Event) (root : Str) (dir : Dir) : Prop :=
  (∃ entries, s.phase = .starting entries ∧ (dir = components root ∨ dir ∈ entries.map components)) ∨
    (.created, dir) ∈ s.pending inflight

/-- There may be no watch left. -/
def State.Short (s : State) (refused : Prop) : Prop := refused ∨ maxWd ≤ s.nextWd

/-- Which directories are watched, once the watcher has come to them. -/
structure Covers (refused : Prop) (root : Str) (found : List Dir) (s : State) (inflight : List Event) (known : List Dir)
    (all : List (Change × Dir)) : Prop where
  top : components root ∈ found
  present : ∀ dir ∈ known, dir ∈ s.dirs
  watched : s.phase ≠ .idle → ∀ dir ∈ known,
    (s.watch dir).isSome ∨ s.Short refused ∨ s.Expects inflight root dir
  told : ∀ dir, (s.watch dir).isSome → dir ∈ found ∨ (.created, dir) ∈ all
  entries : ∀ entries, s.phase = .starting entries → ∀ entry ∈ entries, components entry ∈ found

section
variable {refused : Prop} {found known : List Dir} {all : List (Change × Dir)}

theorem Effect.watched_of (effect : Effect granted s news after) {dir : Dir} (watched : (after.watch dir).isSome) :
    (s.watch dir).isSome ∨ news = some (.created, dir) := by
  cases effect with
  | watches own present =>
    change (Function.update s.watch _ _ dir).isSome at watched
    rw [Function.update_apply] at watched
    split at watched
    next same => exact .inr (by rw [same])
    next => exact .inl watched
  | nothing | passes | loads | leaves => exact .inl watched

theorem Effect.watches_of (effect : Effect granted s news after) {dir : Dir} (created : news = some (.created, dir))
    (present : dir ∈ s.dirs) : (after.watch dir).isSome ∨ granted = false ∨ maxWd ≤ after.nextWd := by
  cases effect with
  | watches own _ =>
    obtain rfl : components _ = dir := congrArg Prod.snd (Option.some.inj created)
    exact .inl (by simp [State.watchAt])
  | passes missing =>
    obtain rfl := congrArg Prod.snd (Option.some.inj created)
    exact .inr (missing.resolve_left (not_not.mpr present))
  | nothing => cases created
  | loads | leaves => cases created

/-- A directory that is expected is watched after the step that comes to it, if there is a watch left. -/
theorem Effect.covers {Later : Prop} (effect : Effect granted s news after) (refusal : granted = false → refused)
    {dir : Dir} (present : dir ∈ s.dirs)
    (before : (s.watch dir).isSome ∨ s.Short refused ∨ news = some (.created, dir) ∨ Later) :
    (after.watch dir).isSome ∨ after.Short refused ∨ Later := by
  have grows := effect.grows
  obtain watched | short | here | later := before
  · exact .inl (grows.watch dir watched)
  · exact .inr (.inl (short.imp_right fun few => few.trans grows.nextWd))
  · obtain watched | short := effect.watches_of here present
    · exact .inl watched
    · exact .inr (.inl (short.imp_left refusal))
  · exact .inr (.inr later)

theorem mem_pending_cons (s : State) (event : Event) (rest : List Event) (told : Change × Dir) :
    told ∈ s.pending (event :: rest) ↔ s.told event = some told ∨ told ∈ s.pending rest := by
  unfold State.pending
  rw [List.cons_append, List.filterMap_cons]
  cases s.told event with
  | none => simp
  | some first => simp [eq_comm]

theorem Works.covers {inflight' : List Event} (sound : Sound s inflight)
    (order : s.phase ≠ .idle → ∀ told ∈ s.pending inflight, told ∈ all)
    (refusal : granted = false → refused) (covers : Covers refused root found s inflight known all)
    (works : Works granted root s inflight after inflight') : Covers refused root found after inflight' known all := by
  cases works with
  | rests => exact covers
  | @visits entry rest _ starting effect =>
    have grows := effect.grows
    have notIdle : s.phase ≠ .idle := by rw [starting]; exact Phase.noConfusion
    have later : Sound { s with phase := .starting rest } inflight := by
      have buffer := sound.buffer
      rw [starting] at buffer
      exact sound.goOn buffer Phase.noConfusion fun event member => member
    have unchanged : after.pending inflight = s.pending inflight := (pending_grows later grows :)
    refine ⟨covers.top, fun dir member => ?_, fun _ dir member => ?_, fun dir watched => ?_, fun entries same other member => ?_⟩
    · rw [grows.dirs]
      exact covers.present dir member
    · refine effect.covers refusal (covers.present dir member) ?_
      refine (covers.watched notIdle dir member).imp_right (Or.imp_right fun expects => ?_)
      obtain ⟨entries, same, expected⟩ | pending := expects
      · rw [starting, Phase.starting.injEq] at same
        rw [← same, List.map_cons, List.mem_cons] at expected
        by_cases here : dir = components entry
        · exact .inl (by rw [here])
        · exact .inr (.inl ⟨rest, grows.phase, expected.imp_right (Or.resolve_left · here)⟩)
      · rw [← unchanged] at pending
        exact .inr (.inr pending)
    · obtain earlier | same := effect.watched_of watched
      · exact covers.told dir earlier
      · obtain rfl : components entry = dir := congrArg Prod.snd (Option.some.inj same)
        exact .inl (covers.entries _ starting entry List.mem_cons_self)
    · rw [grows.phase, Phase.starting.injEq] at same
      rw [← same] at member
      exact covers.entries _ starting other (List.mem_cons_of_mem _ member)
  | opens starting own present =>
    have effect : Effect granted s (some (.created, components root)) (s.watchAt _ root) := .watches own present
    have notIdle : s.phase ≠ .idle := by rw [starting]; exact Phase.noConfusion
    refine ⟨covers.top, covers.present, fun _ dir member => ?_, fun dir watched => ?_, fun _ same => nomatch same⟩
    · refine effect.covers refusal (covers.present dir member) ?_
      refine (covers.watched notIdle dir member).imp_right (Or.imp_right fun expects => ?_)
      obtain ⟨entries, same, expected⟩ | pending := expects
      · rw [starting, Phase.starting.injEq] at same
        rw [← same, List.map_nil] at expected
        exact .inl (by rw [expected.resolve_right List.not_mem_nil])
      · rw [← pending_grows sound effect.grows] at pending
        exact .inr (.inr pending)
    · obtain earlier | same := effect.watched_of watched
      · exact covers.told dir earlier
      · obtain rfl : components root = dir := congrArg Prod.snd (Option.some.inj same)
        exact .inl covers.top
  | fails starting =>
    refine ⟨covers.top, covers.present, fun notIdle => absurd rfl notIdle, fun dir watched => ?_, fun _ same => nomatch same⟩
    cases watched
  | reads watching none split first =>
    subst none
    refine ⟨covers.top, covers.present, fun _ dir member => ?_, covers.told, fun _ same => nomatch same⟩
    have notIdle : s.phase ≠ .idle := by rw [watching]; exact Phase.noConfusion
    refine (covers.watched notIdle dir member).imp_right (Or.imp_right fun expects => ?_)
    obtain ⟨entries, same, -⟩ | pending := expects
    · rw [watching] at same
      cases same
    · unfold State.pending at pending
      rw [split] at pending
      exact .inr pending
  | @hears event _ _ first watching effect =>
    subst first
    have grows := effect.grows
    have notIdle : s.phase ≠ .idle := by rw [watching]; exact Phase.noConfusion
    have later : Sound { s with phase := .watching (inflight'.flatMap Event.encode) } inflight' :=
      sound.goOn rfl Phase.noConfusion fun other member => List.mem_cons_of_mem _ member
    have unchanged : after.pending inflight' = s.pending inflight' := (pending_grows later grows :)
    refine ⟨covers.top, fun dir member => ?_, fun _ dir member => ?_, fun dir watched => ?_, fun entries same => ?_⟩
    · rw [grows.dirs]
      exact covers.present dir member
    · refine effect.covers refusal (covers.present dir member) ?_
      refine (covers.watched notIdle dir member).imp_right (Or.imp_right fun expects => ?_)
      obtain ⟨entries, same, -⟩ | pending := expects
      · rw [watching] at same
        cases same
      · refine ((mem_pending_cons s event inflight' _).mp pending).imp_right fun pending => ?_
        rw [← unchanged] at pending
        exact .inr pending
    · obtain earlier | same := effect.watched_of watched
      · exact covers.told dir earlier
      · exact .inr (order notIdle _ ((mem_pending_cons s event inflight' _).mpr (.inl same)))
    · rw [grows.phase] at same
      cases same

theorem Covers.tells {told : List (Change × Dir)} {known' : List Dir}
    (covers : Covers refused root found s inflight known all)
    (tells : Tells s after told) (present : ∀ dir ∈ known', dir ∈ after.dirs)
    (older : ∀ dir ∈ known', dir ∈ known ∨ (.created, dir) ∈ told)
    (keeps : ∀ dir ∈ known', (s.watch dir).isSome → (after.watch dir).isSome)
    (adds : ∀ dir, (after.watch dir).isSome → (s.watch dir).isSome) :
    Covers refused root found after inflight known' (all ++ told) where
  top := covers.top
  present := present
  watched notIdle dir member := by
    rw [tells.phase] at notIdle
    unfold State.Expects State.Short
    rw [mem_pending_tells tells, tells.phase, tells.nextWd]
    obtain earlier | new := older dir member
    · obtain watched | few | entry | pending := covers.watched notIdle dir earlier
      · exact .inl (keeps dir member watched)
      · exact .inr (.inl few)
      · exact .inr (.inr (.inl entry))
      · exact .inr (.inr (.inr (.inl pending)))
    · exact .inr (.inr (.inr (.inr new)))
  told dir watched := (covers.told dir (adds dir watched)).imp_right (List.mem_append_left _)
  entries entries same := covers.entries entries (tells.phase ▸ same)

end

end

end Omniprobe.CacheWatcher

