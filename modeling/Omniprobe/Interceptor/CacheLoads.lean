import Omniprobe.Interceptor.CacheEvents
import Omniprobe.Lib.Interleavings

/-!
# What the cache watcher loads

The code objects are loaded in the order in which the watcher is told of them, where the kernel may leave out a repetition.
-/

namespace Omniprobe.CacheWatcher
open Lib

section
variable {inotify : Inotify} {granted : Bool} {s after : State} {inflight : List Event} {news : Option (Change × Dir)}
  {root : Str}

/-! ### Order -/

/-- What is told by the events that have not been handled. -/
def State.pending (s : State) (inflight : List Event) : List (Change × Dir) := (inflight ++ s.queue).filterMap s.told

/-- What an effect leaves as it is, and what it only adds to. -/
structure Grows (s after : State) : Prop where
  queue : after.queue = s.queue
  phase : after.phase = s.phase
  dirs : after.dirs = s.dirs
  nextWd : s.nextWd ≤ after.nextWd
  names : ∀ wd dir, s.names wd = some dir → after.names wd = some dir
  watch : ∀ dir, (s.watch dir).isSome → (after.watch dir).isSome

theorem Effect.grows (effect : Effect granted s news after) : Grows s after := by
  cases effect with
  | watches own present =>
    refine ⟨rfl, rfl, rfl, le_max_left _ _, fun wd dir same => State.watchAt_grows own same, fun dir watched => ?_⟩
    show (Function.update s.watch _ _ dir).isSome
    rw [Function.update_apply]
    split
    · rfl
    · exact watched
  | nothing | passes | loads | leaves =>
    exact ⟨rfl, rfl, rfl, Nat.le_refl _, fun wd dir same => same, fun dir watched => watched⟩

theorem Effect.sound (sound : Sound s inflight) (notIdle : s.phase ≠ .idle) (effect : Effect granted s news after) :
    Sound after inflight := by
  cases effect with
  | watches own present => exact sound.watchAt notIdle own
  | loads => exact ⟨sound.buffer, sound.idle, sound.small, sound.watched, sound.mapped⟩
  | nothing | passes | leaves => exact sound

theorem told_grows {event : Event} (mapped : ∃ dir, s.names event.wd = some dir)
    (grows : ∀ wd dir, s.names wd = some dir → after.names wd = some dir) : after.told event = s.told event := by
  obtain ⟨dir, same⟩ := mapped
  unfold State.told
  rw [same, grows _ _ same]

theorem pending_grows (sound : Sound s inflight) (grows : Grows s after) : after.pending inflight = s.pending inflight := by
  unfold State.pending
  rw [grows.queue]
  exact List.filterMap_congr fun event member => told_grows (sound.mapped event member) grows.names

theorem Works.sound {inflight' : List Event} (sound : Sound s inflight)
    (works : Works granted root s inflight after inflight') :
    Sound after inflight' := by
  have buffer := sound.buffer
  cases works with
  | rests => exact sound
  | visits starting effect =>
    rw [starting] at buffer
    refine Effect.sound ?_ Phase.noConfusion effect
    exact sound.goOn buffer Phase.noConfusion fun event member => member
  | opens starting own present =>
    rw [starting] at buffer
    obtain rfl : inflight = [] := buffer
    have opened := sound.watchAt (by rw [starting]; exact Phase.noConfusion) own
    exact opened.goOn rfl Phase.noConfusion fun event member => member
  | fails starting =>
    rw [starting] at buffer
    obtain rfl : inflight = [] := buffer
    exact {
      buffer := rfl
      idle := fun _ => ⟨rfl, fun _ => rfl⟩
      small := sound.small
      watched := fun _ _ watched => nomatch watched
      mapped := fun _ member => absurd member List.not_mem_nil }
  | reads watching none split first =>
    subst none
    refine ⟨rfl, Phase.noConfusion, sound.small, sound.watched, fun event member => ?_⟩
    exact sound.mapped event (by rw [split]; exact member)
  | hears first watching effect =>
    subst first
    refine Effect.sound ?_ Phase.noConfusion effect
    exact sound.goOn rfl Phase.noConfusion fun other member => List.mem_cons_of_mem _ member

/-- What has been handled is the beginning of all that was told and not merged, and what is pending is the rest. -/
structure Follows (s : State) (inflight : List Event) (handled kept : List (Change × Dir)) : Prop where
  order : s.phase ≠ .idle → handled ++ s.pending inflight = kept
  begun : handled <+: kept
  loaded : s.loaded.map components = handled.filterMap load

theorem Effect.loaded (effect : Effect granted s news after) :
    after.loaded.map components = s.loaded.map components ++ news.toList.filterMap load := by
  cases effect with
  | loads object =>
    rw [List.map_append, Option.toList_some, List.filterMap_cons_some object]
    rfl
  | leaves other => rw [Option.toList_some, List.filterMap_cons_none other, List.filterMap_nil, List.append_nil]
  | nothing | watches | passes => exact (List.append_nil _).symm

theorem Works.follows {inflight' : List Event} {handled kept : List (Change × Dir)} (sound : Sound s inflight)
    (follows : Follows s inflight handled kept) (works : Works granted root s inflight after inflight') :
    ∃ handled', Follows after inflight' handled' kept := by
  cases works with
  | rests => exact ⟨handled, follows⟩
  | visits starting effect =>
    refine ⟨handled, fun notIdle => ?_, follows.begun, ?_⟩
    · rw [pending_grows ?_ effect.grows]
      · exact follows.order (by rw [starting]; exact Phase.noConfusion)
      · have buffer := sound.buffer
        rw [starting] at buffer
        exact sound.goOn buffer Phase.noConfusion fun event member => member
    · rw [effect.loaded]
      simp [load, follows.loaded]
  | opens starting own present =>
    refine ⟨handled, fun notIdle => ?_, follows.begun, follows.loaded⟩
    have grows := Effect.grows (show Effect granted s _ _ from .watches own present)
    rw [← follows.order (by rw [starting]; exact Phase.noConfusion), ← pending_grows sound grows]
    rfl
  | fails starting =>
    exact ⟨handled, fun notIdle => absurd rfl notIdle, follows.begun, follows.loaded⟩
  | reads watching none split first =>
    subst none
    refine ⟨handled, fun _ => ?_, follows.begun, follows.loaded⟩
    rw [← follows.order (by rw [watching]; exact Phase.noConfusion)]
    unfold State.pending
    rw [split]
    rfl
  | @hears event _ _ first watching effect =>
    subst first
    have order := follows.order (by rw [watching]; exact Phase.noConfusion)
    have split : s.pending (event :: inflight') = (s.told event).toList ++ s.pending inflight' := by
      unfold State.pending
      rw [List.cons_append, List.filterMap_cons]
      cases s.told event <;> rfl
    rw [split, ← List.append_assoc] at order
    refine ⟨handled ++ (s.told event).toList, fun _ => ?_, ⟨_, order⟩, ?_⟩
    · rw [pending_grows ?_ effect.grows]
      · exact order
      · exact sound.goOn rfl Phase.noConfusion fun other member => List.mem_cons_of_mem _ member
    · rw [effect.loaded, List.filterMap_append, ← follows.loaded]

/-- What a step of the application leaves as it is, and what is pending behind it. -/
structure Tells (s after : State) (news : List (Change × Dir)) : Prop where
  queue : ∃ new, after.queue = s.queue ++ new ∧
    (new.filterMap s.told = news ∨
      new = [] ∧ ∃ last told, s.queue.getLast? = some last ∧ s.told last = some told ∧ news = [told])
  phase : after.phase = s.phase
  watchMap : after.watchMap = s.watchMap
  nextWd : after.nextWd = s.nextWd
  loaded : after.loaded = s.loaded

theorem Tells.refl (s : State) : Tells s s [] := ⟨⟨[], (List.append_nil _).symm, .inl rfl⟩, rfl, rfl, rfl, rfl⟩

theorem Tells.trans {between : State} (left : Tells s between []) (right : Tells between after []) : Tells s after [] := by
  obtain ⟨new, queue, tells⟩ := left.queue
  obtain ⟨new', queue', tells'⟩ := right.queue
  have same : between.told = s.told := by
    unfold State.told State.names
    rw [left.watchMap]
  have quiet := tells.resolve_right fun merged => by simp at merged
  have quiet' := tells'.resolve_right fun merged => by simp at merged
  refine ⟨⟨new ++ new', by rw [queue', queue, List.append_assoc], .inl ?_⟩, right.phase.trans left.phase,
    right.watchMap.trans left.watchMap, right.nextWd.trans left.nextWd, right.loaded.trans left.loaded⟩
  rw [List.filterMap_append, quiet, ← same, quiet', List.append_nil]

variable (inflight) in
/-- What is told is pending behind what was, or it is merged with the last of that. -/
theorem pending_tells {told : List (Change × Dir)} (tells : Tells s after told) :
    after.pending inflight = s.pending inflight ++ told ∨
      after.pending inflight = s.pending inflight ∧ ∃ last, (s.pending inflight).getLast? = some last ∧ told = [last] := by
  obtain ⟨new, queue, same⟩ := tells.queue
  have names : after.told = s.told := by
    unfold State.told State.names
    rw [tells.watchMap]
  unfold State.pending
  rw [queue, names]
  obtain same | ⟨rfl, event, last, found, told, rfl⟩ := same
  · rw [← List.append_assoc, List.filterMap_append, same]
    exact .inl rfl
  · rw [List.append_nil]
    obtain ⟨before, split⟩ := List.getLast?_eq_some_iff.mp found
    refine .inr ⟨rfl, last, ?_, rfl⟩
    rw [split, ← List.append_assoc, List.filterMap_append, List.filterMap_cons_some told, List.filterMap_nil,
      List.getLast?_concat]

theorem mem_pending_tells {told : List (Change × Dir)} (tells : Tells s after told) {news : Change × Dir} :
    news ∈ after.pending inflight ↔ news ∈ s.pending inflight ∨ news ∈ told := by
  obtain same | ⟨same, last, found, rfl⟩ := pending_tells inflight tells
  · rw [same, List.mem_append]
  · have inside := List.mem_of_getLast? found
    rw [same, List.mem_singleton]
    exact ⟨.inl, fun either => either.elim id fun here => here ▸ inside⟩

theorem Follows.tells {handled all kept told : List (Change × Dir)} (follows : Follows s inflight handled kept)
    (merges : Merges all kept) (tells : Tells s after told) :
    ∃ kept', Merges (all ++ told) kept' ∧ Follows after inflight handled kept' := by
  have loaded : after.loaded.map components = handled.filterMap load := by rw [tells.loaded, follows.loaded]
  by_cases idle : s.phase = .idle
  · refine ⟨kept ++ told, merges.append told, fun notIdle => ?_, follows.begun.trans (List.prefix_append _ _), loaded⟩
    rw [tells.phase] at notIdle
    exact absurd idle notIdle
  have order := follows.order idle
  obtain same | ⟨same, last, found, rfl⟩ := pending_tells inflight tells
  · refine ⟨kept ++ told, merges.append told, fun _ => ?_, follows.begun.trans (List.prefix_append _ _), loaded⟩
    rw [same, ← List.append_assoc, order]
  · refine ⟨kept, merges.merge ?_, fun _ => by rw [same, order], follows.begun, loaded⟩
    rw [← order, List.getLast?_append, found, Option.some_or]

/-- All that was told has been handled. -/
def State.Drained (s : State) : Prop := s.phase = .watching [] ∧ s.queue = []

theorem Sound.drained (sound : Sound s inflight) (drained : s.Drained) : inflight = [] := by
  have buffer := sound.buffer
  rw [drained.1] at buffer
  cases inflight with
  | nil => rfl
  | cons event rest => exact absurd buffer.symm (List.append_ne_nil_of_left_ne_nil (encode_ne_nil event) _)

/-! ### Catching up -/

/-- The steps that are left for the watcher, at most. -/
def State.todo (s : State) (inflight : List Event) : Nat :=
  2 * s.queue.length + inflight.length + match s.phase with
    | .starting entries => entries.length + 1
    | .watching _ | .idle => 0

/-- Nothing is left to do for the watcher, or it has given up. -/
def State.Ended (s : State) : Prop := s.Drained ∨ s.phase = .idle

theorem State.Ended.work (ended : s.Ended) (granted : Bool) (root : Str) : s.work granted root = s := by
  obtain ⟨watching, queue⟩ | idle := ended
  · unfold State.work
    rw [watching]
    dsimp only
    rw [queue]
    exact congrArg₂ (fun phase queue => { s with phase, queue }) watching.symm queue.symm
  · unfold State.work
    rw [idle]

theorem State.Ended.run (ended : s.Ended) (root : Str) (grants : List Bool) :
    (s.run inotify root (grants.map .work)).Ended := by
  induction grants with
  | nil => exact ended
  | cons granted rest ih =>
    show ((s.work granted root).run inotify root (rest.map .work)).Ended
    rw [ended.work granted root]
    exact ih

theorem Sound.ended (sound : Sound s inflight) (none : s.todo inflight = 0) : s.Ended := by
  have buffer := sound.buffer
  unfold State.todo at none
  cases phase : s.phase with
  | idle => exact .inr phase
  | starting entries =>
    rw [phase] at none
    simp at none
  | watching bytes =>
    rw [phase] at none buffer
    have empty : s.queue = [] ∧ inflight = [] := by simpa using none
    obtain rfl : bytes = inflight.flatMap Event.encode := buffer
    rw [empty.2] at phase
    exact .inl ⟨phase, empty.1⟩

namespace Sample

/-- Equal events are merged, but not the ends of watches. -/
def kernel : Inotify where
  maxQueued := 16384
  merges last event := last.about ≠ none ∧ last.wd = event.wd ∧ last.about = event.about ∧ last.isDir = event.isDir
  merges_same merged := (of_decide_eq_true merged).2

def cache : Str := ascii "/c"

def dirs : List Dir := [[ascii "c"], []]

def made : Name := ⟨ascii "a", by decide, by decide, by decide, by decide⟩

def first : Name := ⟨ascii "k.hsaco", by decide, by decide, by decide, by decide⟩

def second : Name := ⟨ascii "l.hsaco", by decide, by decide, by decide, by decide⟩

/-- A directory is made, and watched; then one code object is moved into it twice, and another one. -/
def acts : List Action :=
  [.work true, .mkdir [ascii "c"] made, .work true, .work true,
    .file .movedIn [ascii "c", ascii "a"] first 7, .file .movedIn [ascii "c", ascii "a"] first 7,
    .file .movedIn [ascii "c", ascii "a"] second 8, .work true, .work true, .work true]

def last : State := (start cache dirs).run kernel cache acts

end Sample

end

end Omniprobe.CacheWatcher
