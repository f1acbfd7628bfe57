import Omniprobe.Lib.Maps

/-!
# The cache watcher

The thread that loads code objects while the application runs. It is told by the kernel, through a queue, what happens
in the directories that it watches, and starts to watch a new directory when it is told of it. Meanwhile the application
goes on, so the directory may have changed, or be gone. The kernel may merge an event into an equal one that has not been
read, and may refuse a watch.
-/

namespace Omniprobe.CacheWatcher
open Lib

/-! ### Paths -/

/-- A string of the file system. -/
abbrev Str := List UInt8

def ascii (s : String) : Str := s.toList.map fun c => UInt8.ofNat c.toNat

def slash : UInt8 := 47

/-- What a directory is known by, from the top: the names on the way to it. -/
abbrev Dir := List Str

structure Name where
  bytes : Str
  filled : bytes ≠ []
  short : bytes.length ≤ 255
  noSlash : slash ∉ bytes
  noEnd : 0 ∉ bytes
deriving DecidableEq

/-- Where a path leads. Empty names in it do not count. -/
def components (path : Str) : Dir := (path.splitOn slash).filter (· ≠ [])

/-- `ends_with(".hsaco")`. -/
def isCodeObject (path : Str) : Bool := (ascii ".hsaco").isSuffixOf path

/-- What an event says has happened to a name in the directory. -/
inductive Change where
  | created
  | written
  | removed
  | movedOut
  | movedIn
deriving DecidableEq

def Change.mask : Change → UInt32
  | created => 0x100
  | written => 0x2
  | removed => 0x200
  | movedOut => 0x40
  | movedIn => 0x80

/-- The changes that the loop does something about. -/
def Change.heeded : Change → Bool
  | created | movedIn => true
  | written | removed | movedOut => false

/-- An event of a watch: a change to a name, or, without one, the end of the watch. -/
structure Event where
  wd : UInt32
  about : Option (Change × Name)
  isDir : Bool
  cookie : UInt32

namespace Event

def mask (event : Event) : UInt32 :=
  match event.about with
  | some (change, _) => change.mask ||| if event.isDir then 0x40000000 else 0
  | none => 0x8000

/-- The name with zeros to the next multiple of the size of an event. -/
def field (event : Event) : List UInt8 :=
  match event.about with
  | some (_, name) => name.bytes ++ List.replicate (16 - name.bytes.length % 16) 0
  | none => []

end Event

def word (n : UInt32) : List UInt8 :=
  [UInt8.ofNat (n.toNat % 256), UInt8.ofNat (n.toNat / 256 % 256), UInt8.ofNat (n.toNat / 65536 % 256),
    UInt8.ofNat (n.toNat / 16777216 % 256)]

def readWord : List UInt8 → UInt32
  | a :: b :: c :: d :: _ => UInt32.ofNat (a.toNat + 256 * b.toNat + 65536 * c.toNat + 16777216 * d.toNat)
  | _ => 0

/-- `struct inotify_event`. -/
def Event.encode (event : Event) : List UInt8 :=
  word event.wd ++ (word event.mask ++ (word event.cookie ++ (word (UInt32.ofNat event.field.length) ++ event.field)))

def eventSize : Nat := 16

/-- What the kernel has to say about the queue. Only events that agree but for the cookie are merged. -/
structure Inotify where
  maxQueued : Nat
  /-- The event is not queued behind this one, the last. -/
  merges : Event → Event → Bool
  merges_same : ∀ {last event : Event}, merges last event = true →
    last.wd = event.wd ∧ last.about = event.about ∧ last.isDir = event.isDir

/-- How far `cache_watcher` has come. -/
inductive Phase where
  /-- In the loop over what was found in the directory, before the watch of the directory itself. -/
  | starting (entries : List Str)
  /-- In the main loop, with what is left of `buffer`. -/
  | watching (buffer : List UInt8)
  | idle
deriving DecidableEq

structure State where
  dirs : List Dir
  watch : Dir → Option UInt32 := fun _ => none
  nextWd : Nat := 1
  queue : List Event := []
  phase : Phase
  watchMap : Map UInt32 Str := ∅
  /-- The arguments of the calls of `addCodeObject`. -/
  loaded : List Str := []

/-- What the application does, and a step of the watcher, with whether the kernel grants a new watch if it is asked for
one: the user's watches are limited, and may be freed again. Directories are not renamed. -/
inductive Action where
  | mkdir (dir : Dir) (name : Name)
  | rmdir (dir : Dir) (name : Name)
  | file (change : Change) (dir : Dir) (name : Name) (cookie : UInt32)
  | work (granted : Bool)

/-- The events at the front that fit into the buffer together. -/
def fitting : Nat → List Event → List Event
  | _, [] => []
  | room, event :: rest =>
    if event.encode.length ≤ room then event :: fitting (room - event.encode.length) rest else []

def bufLen : Nat := 1024 * (eventSize + 16)

/-- The kernel counts up the descriptors that it gives out. That it begins again behind the last is left out: there are
no more then. -/
def maxWd : Nat := 2 ^ 31

section
variable (inotify : Inotify)

namespace State

/-- An event in the directory will be told: it is watched, and the queue has room. -/
def noticed (s : State) (dir : Dir) : Bool := (s.watch dir).isSome && s.queue.length < inotify.maxQueued

def notify (s : State) (dir : Dir) (about : Option (Change × Name)) (isDir : Bool) (cookie : UInt32) : State :=
  match s.watch dir with
  | some wd =>
    let event : Event := { wd, about, isDir, cookie }
    if s.queue.length < inotify.maxQueued then
      if s.queue.getLast?.any (inotify.merges · event) then s else { s with queue := s.queue ++ [event] }
    else s
  | none => s

def canMake (s : State) (dir : Dir) (name : Name) : Prop := dir ∈ s.dirs ∧ dir ++ [name.bytes] ∉ s.dirs

instance (s : State) (dir : Dir) (name : Name) : Decidable (s.canMake dir name) := instDecidableAnd

def canRemove (s : State) (dir : Dir) : Prop := dir ∈ s.dirs ∧ ∀ other ∈ s.dirs, dir <+: other → other = dir

instance (s : State) (dir : Dir) : Decidable (s.canRemove dir) := instDecidableAnd

def mkdir (s : State) (dir : Dir) (name : Name) : State :=
  if s.canMake dir name then
    notify inotify { s with dirs := (dir ++ [name.bytes]) :: s.dirs } dir (some (.created, name)) true 0
  else s

def rmdir (s : State) (dir : Dir) (name : Name) : State :=
  let path := dir ++ [name.bytes]
  if s.canRemove path then
    let s := s.notify inotify path none false 0
    let s := { s with dirs := s.dirs.filter (· ≠ path), watch := Function.update s.watch path none }
    s.notify inotify dir (some (.removed, name)) true 0
  else s

/-- `inotify_add_watch`. The watch that a directory has already is used again. -/
def addWatch (granted : Bool) (s : State) (path : Str) : State × Option UInt32 :=
  let dir := components path
  if dir ∈ s.dirs then
    match s.watch dir with
    | some wd => (s, some wd)
    | none =>
      if granted ∧ s.nextWd < maxWd then
        let wd := UInt32.ofNat s.nextWd
        ({ s with watch := Function.update s.watch dir (some wd), nextWd := s.nextWd + 1 }, some wd)
      else (s, none)
  else (s, none)

/-- A watch of the path, and its entry of `watch_map`. -/
def watchPath (granted : Bool) (s : State) (path : Str) : State :=
  match s.addWatch granted path with
  | (s, some wd) => { s with watchMap := s.watchMap.insert wd path }
  | (s, none) => s

/-- `util_is_directory`. -/
def isDirectory (s : State) (path : Str) : Bool := components path ∈ s.dirs

/-- What the loop does with an event. -/
def handleEvent (granted : Bool) (s : State) (wd mask len : UInt32) (name : Str) : State :=
  if len ≠ 0 then
    if mask &&& Change.created.mask ≠ 0 then
      let s := { s with watchMap := touch s.watchMap wd [] }
      let strNewDirectory := (s.watchMap[wd]?).getD [] ++ slash :: name
      if s.isDirectory strNewDirectory then s.watchPath granted strNewDirectory else s
    else if mask &&& Change.removed.mask ≠ 0 then s
    else if mask &&& Change.written.mask ≠ 0 then s
    else if mask &&& Change.movedOut.mask ≠ 0 then s
    else if mask &&& Change.movedIn.mask ≠ 0 then
      let s := { s with watchMap := touch s.watchMap wd [] }
      let strFileName := (s.watchMap[wd]?).getD [] ++ slash :: name
      if isCodeObject strFileName then { s with loaded := s.loaded ++ [strFileName] } else s
    else s
  else s

/-- A step of `cache_watcher`: of the loop over the entries, the watch of the directory itself, a `read`, or an event
of `buffer`. -/
def work (granted : Bool) (dir : Str) (s : State) : State :=
  match s.phase with
  | .starting (entry :: rest) =>
    let s := { s with phase := .starting rest }
    if s.isDirectory entry then s.watchPath granted entry else s
  | .starting [] =>
    match s.addWatch granted dir with
    | (s, some wd) => { s with watchMap := s.watchMap.insert wd dir, phase := .watching [] }
    -- Closing the descriptor ends its watches.
    | (s, none) => { s with phase := .idle, watch := fun _ => none, queue := [] }
  | .watching [] =>
    let now := fitting bufLen s.queue
    { s with phase := .watching (now.flatMap Event.encode), queue := s.queue.drop now.length }
  | .watching buffer =>
    let len := readWord (buffer.drop 12)
    let name := (buffer.drop eventSize).takeWhile (· ≠ 0)
    let s := { s with phase := .watching (buffer.drop (eventSize + len.toNat)) }
    s.handleEvent granted (readWord buffer) (readWord (buffer.drop 4)) len name
  | .idle => s

def step (dir : Str) (s : State) : Action → State
  | .mkdir parent name => s.mkdir inotify parent name
  | .rmdir parent name => s.rmdir inotify parent name
  | .file change parent name cookie =>
    if parent ∈ s.dirs then s.notify inotify parent (some (change, name)) false cookie else s
  | .work granted => s.work granted dir

def run (dir : Str) (s : State) (acts : List Action) : State := acts.foldl (step inotify dir) s

/-- What a step of the application tells the watcher, of what it heeds. -/
def announced (s : State) : Action → List (Change × Dir)
  | .mkdir dir name =>
    if s.canMake dir name ∧ s.noticed inotify dir then [(.created, dir ++ [name.bytes])] else []
  | .file change dir name _ =>
    if change.heeded ∧ dir ∈ s.dirs ∧ s.noticed inotify dir then [(change, dir ++ [name.bytes])] else []
  | .rmdir _ _ | .work _ => []

end State

/-- `util_get_directory_files` with the directories, of which only these matter. -/
def scan (dir : Str) (dirs : List Dir) : List Str :=
  if components dir ∈ dirs then
    let front := if dir.getLast? = some slash then dir else dir ++ [slash]
    (dirs.filter fun entry => entry ≠ [] ∧ entry.dropLast = components dir).map fun entry => front ++ entry.getLast?.getD []
  else []

/-- `cache_watcher` when it starts. -/
def start (dir : Str) (dirs : List Dir) : State where
  dirs
  phase := if dir = [] then .idle else .starting (scan dir dirs)

end

end Omniprobe.CacheWatcher
