import Omniprobe.Interceptor.CacheWatcher

/-!
# What the cache watcher is told

The numbers in the events that are still to be read stand for the directories that the watcher has them for, and a round
of its loop handles one event: it watches a directory that was created, or loads a code object that was moved in.
-/

namespace Omniprobe.CacheWatcher
open Lib

/-! ### What a step does -/

section
variable {inotify : Inotify} {granted : Bool} {s : State} {dir : Dir} {path : Str}

namespace State

variable (inotify) in
theorem notify_cases (s : State) (dir : Dir) (about : Option (Change × Name)) (isDir : Bool) (cookie : UInt32) :
    (s.noticed inotify dir = false ∧ s.notify inotify dir about isDir cookie = s) ∨
      s.noticed inotify dir = true ∧ ∃ wd, s.watch dir = some wd ∧
        ((s.notify inotify dir about isDir cookie = s ∧
            ∃ last, s.queue.getLast? = some last ∧ last.wd = wd ∧ last.about = about) ∨
          s.notify inotify dir about isDir cookie = { s with queue := s.queue ++ [{ wd, about, isDir, cookie }] }) := by
  unfold noticed notify
  cases watched : s.watch dir with
  | none => exact .inl ⟨rfl, rfl⟩
  | some wd =>
    dsimp only
    by_cases room : s.queue.length < inotify.maxQueued
    · refine .inr ⟨by simp [room], wd, rfl, ?_⟩
      rw [if_pos room]
      by_cases merged : s.queue.getLast?.any (inotify.merges · { wd, about, isDir, cookie })
      · have last : ∃ last, s.queue.getLast? = some last ∧ inotify.merges last { wd, about, isDir, cookie } = true := by
          simpa [Option.any_eq_true] using merged
        obtain ⟨last, found, merges⟩ := last
        obtain ⟨sameWd, sameAbout, -⟩ := inotify.merges_same merges
        exact .inl ⟨if_pos merged, last, found, sameWd, sameAbout⟩
      · exact .inr (if_neg merged)
    · exact .inl ⟨by simp [room], if_neg room⟩

/-- The directory that a descriptor is known for. -/
def names (s : State) (wd : UInt32) : Option Dir := (s.watchMap[wd]?).map components

/-- With a watch of the path under this descriptor. -/
def watchAt (s : State) (wd : UInt32) (path : Str) : State :=
  { s with
    watch := Function.update s.watch (components path) (some wd)
    nextWd := max s.nextWd (wd.toNat + 1)
    watchMap := s.watchMap.insert wd path }

theorem names_watchAt (s : State) (wd : UInt32) (path : Str) (other : UInt32) :
    (s.watchAt wd path).names other = if wd = other then some (components path) else s.names other := by
  unfold names watchAt
  dsimp only
  rw [find_insert]
  split <;> rfl

theorem watchAt_grows {wd other : UInt32} (own : ∀ dir, s.names wd = some dir → dir = components path)
    (same : s.names other = some dir) : (s.watchAt wd path).names other = some dir := by
  rw [names_watchAt]
  split
  next here =>
    subst here
    rw [own dir same]
  next => exact same

end State

/-- What is left of the buffer is made of these events. -/
def Phase.Holds : Phase → List Event → Prop
  | watching buffer, inflight => buffer = inflight.flatMap Event.encode
  | starting _, inflight => inflight = []
  | idle, inflight => inflight = []

/-- What holds of the watches. -/
structure Sound (s : State) (inflight : List Event) : Prop where
  buffer : s.phase.Holds inflight
  idle : s.phase = .idle → s.queue = [] ∧ ∀ dir, s.watch dir = none
  small : ∀ wd dir, s.names wd = some dir → wd.toNat < s.nextWd
  watched : ∀ dir wd, s.watch dir = some wd → s.names wd = some dir
  mapped : ∀ event ∈ inflight ++ s.queue, ∃ dir, s.names event.wd = some dir

namespace Sound
variable {inflight : List Event}

variable (inotify) in
theorem notify (sound : Sound s inflight) (dir : Dir) (about : Option (Change × Name)) (isDir : Bool) (cookie : UInt32) :
    Sound (s.notify inotify dir about isDir cookie) inflight := by
  obtain ⟨-, same⟩ | ⟨-, wd, watched, ⟨same, -⟩ | same⟩ := State.notify_cases inotify s dir about isDir cookie
  · rw [same]
    exact sound
  · rw [same]
    exact sound
  · rw [same]
    refine ⟨sound.buffer, fun idle => ?_, sound.small, sound.watched, fun event member => ?_⟩
    · rw [(sound.idle idle).2 dir] at watched
      cases watched
    · rw [← List.append_assoc, List.mem_append, List.mem_singleton] at member
      obtain older | rfl := member
      · exact sound.mapped event older
      · exact ⟨dir, sound.watched dir wd watched⟩

theorem goOn (sound : Sound s inflight) {phase : Phase} {inflight' : List Event} (holds : phase.Holds inflight')
    (notIdle : phase ≠ .idle) (fewer : ∀ event ∈ inflight', event ∈ inflight) : Sound { s with phase } inflight' where
  buffer := holds
  idle := fun idle => absurd idle notIdle
  small := sound.small
  watched := sound.watched
  mapped event member := by
    refine sound.mapped event (List.mem_append.mpr ?_)
    exact (List.mem_append.mp member).imp (fewer event) id

/-- A new descriptor, or the one that the directory has. -/
theorem addWatch (granted : Bool) (sound : Sound s inflight) (path : Str) :
    (∃ wd after, s.addWatch granted path = (after, some wd) ∧
        { after with watchMap := after.watchMap.insert wd path } = s.watchAt wd path ∧ components path ∈ s.dirs ∧
        ∀ dir, s.names wd = some dir → dir = components path) ∨
      s.addWatch granted path = (s, none) ∧ (components path ∉ s.dirs ∨ granted = false ∨ maxWd ≤ s.nextWd) := by
  unfold State.addWatch
  dsimp only
  by_cases present : components path ∈ s.dirs
  · rw [if_pos present]
    cases watched : s.watch (components path) with
    | some wd =>
      have named := sound.watched _ wd watched
      refine .inl ⟨wd, s, rfl, ?_, present, fun dir same => Option.some.inj (same.symm.trans named)⟩
      have older := sound.small wd _ named
      unfold State.watchAt
      rw [← watched, Function.update_eq_self, max_eq_left (by omega)]
    | none =>
      by_cases few : granted ∧ s.nextWd < maxWd
      · have small : s.nextWd < 2 ^ 31 := few.2
        have number : (UInt32.ofNat s.nextWd).toNat = s.nextWd := by
          rw [UInt32.toNat_ofNat']
          exact Nat.mod_eq_of_lt (by omega)
        refine .inl ⟨UInt32.ofNat s.nextWd, _, if_pos few, ?_, present, fun dir same => ?_⟩
        · unfold State.watchAt
          rw [number, max_eq_right (by omega)]
        · have older := sound.small _ _ same
          omega
      · refine .inr ⟨if_neg few, .inr ?_⟩
        rw [not_and, Nat.not_lt] at few
        cases granted with
        | false => exact .inl rfl
        | true => exact .inr (few rfl)
  · rw [if_neg present]
    exact .inr ⟨rfl, .inl present⟩

theorem watchAt (sound : Sound s inflight) (notIdle : s.phase ≠ .idle) {wd : UInt32}
    (own : ∀ dir, s.names wd = some dir → dir = components path) : Sound (s.watchAt wd path) inflight := by
  refine ⟨sound.buffer, fun idle => absurd idle notIdle, fun other dir same => ?_, fun dir other watched => ?_,
    fun event member => ?_⟩
  · rw [State.names_watchAt] at same
    show other.toNat < max s.nextWd (wd.toNat + 1)
    split at same
    next here =>
      subst here
      omega
    next =>
      have older := sound.small other dir same
      omega
  · change Function.update s.watch (components path) (some wd) dir = some other at watched
    rw [Function.update_apply] at watched
    split at watched
    next here =>
      obtain rfl := Option.some.inj watched
      rw [State.names_watchAt, if_pos rfl, here]
    next => exact State.watchAt_grows own (sound.watched dir other watched)
  · obtain ⟨dir, same⟩ := sound.mapped event member
    exact ⟨dir, State.watchAt_grows own same⟩

end Sound

/-! ### What the watcher makes of what it is told -/

/-- What an event tells: the change, and what it is about. -/
def State.told (s : State) (event : Event) : Option (Change × Dir) :=
  event.about.bind fun (change, name) =>
    if change.heeded then (s.names event.wd).map fun dir => (change, dir ++ [name.bytes]) else none

/-- What is to be loaded after it. -/
def load : Change × Dir → Option Dir
  | (change, path) => if change = .movedIn ∧ isCodeObject (path.getLast?.getD []) then some path else none

/-- What the loop does about what it is told. -/
inductive Effect (granted : Bool) (s : State) : Option (Change × Dir) → State → Prop where
  | nothing : Effect granted s none s
  | watches {wd : UInt32} {path : Str} (own : ∀ dir, s.names wd = some dir → dir = components path)
      (present : components path ∈ s.dirs) : Effect granted s (some (.created, components path)) (s.watchAt wd path)
  | passes {dir : Dir} (missing : dir ∉ s.dirs ∨ granted = false ∨ maxWd ≤ s.nextWd) : Effect granted s (some (.created, dir)) s
  | loads {path : Str} (object : load (.movedIn, components path) = some (components path)) :
      Effect granted s (some (.movedIn, components path)) { s with loaded := s.loaded ++ [path] }
  | leaves {dir : Dir} (other : load (.movedIn, dir) = none) : Effect granted s (some (.movedIn, dir)) s

variable {inflight : List Event}

/-- A path that may be a directory, in the loop over the entries and in an event. -/
theorem Effect.visit (granted : Bool) (sound : Sound s inflight) (path : Str) :
    Effect granted s (some (.created, components path))
      (if s.isDirectory path then s.watchPath granted path else s) := by
  by_cases directory : components path ∈ s.dirs
  · have isDirectory : s.isDirectory path = true := decide_eq_true directory
    rw [if_pos isDirectory]
    unfold State.watchPath
    obtain ⟨wd, after, added, same, present, own⟩ | ⟨added, missing⟩ := sound.addWatch granted path
    · rw [added]
      dsimp only
      rw [same]
      exact .watches own present
    · rw [added]
      exact .passes missing
  · have isDirectory : s.isDirectory path ≠ true := by simpa [State.isDirectory] using directory
    rw [if_neg isDirectory]
    exact .passes (.inl directory)

/-- A step of the watcher, with what is left of the events of the buffer. -/
inductive Works (granted : Bool) (root : Str) (s : State) (inflight : List Event) : State → List Event → Prop where
  | rests (idle : s.phase = .idle) : Works granted root s inflight s inflight
  | visits {entry : Str} {rest : List Str} {after : State} (starting : s.phase = .starting (entry :: rest))
      (effect : Effect granted { s with phase := .starting rest } (some (.created, components entry)) after) :
      Works granted root s inflight after inflight
  | opens {wd : UInt32} (starting : s.phase = .starting []) (own : ∀ dir, s.names wd = some dir → dir = components root)
      (present : components root ∈ s.dirs) :
      Works granted root s inflight { s.watchAt wd root with phase := .watching [] } inflight
  | fails (starting : s.phase = .starting []) :
      Works granted root s inflight { s with phase := .idle, watch := fun _ => none, queue := [] } inflight
  | reads {now later : List Event} (watching : s.phase = .watching []) (none : inflight = []) (split : s.queue = now ++ later)
      (first : s.queue ≠ [] → now ≠ []) :
      Works granted root s inflight { s with phase := .watching (now.flatMap Event.encode), queue := later } now
  | hears {event : Event} {rest : List Event} {after : State} (first : inflight = event :: rest)
      (watching : s.phase = .watching ((event :: rest).flatMap Event.encode))
      (effect : Effect granted { s with phase := .watching (rest.flatMap Event.encode) } (s.told event) after) :
      Works granted root s inflight after rest

theorem encode_ne_nil (event : Event) : event.encode ≠ [] := List.cons_ne_nil _ _

end

end Omniprobe.CacheWatcher
