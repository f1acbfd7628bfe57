import Omniprobe.Cache.Calls
import Omniprobe.Interceptor.Delivery

/-!
# The hidden arguments of the original kernel

An instrumented lookup reports, beside the clone's descriptor, the length of the original kernel's
hidden arguments. It reads that length from `arg_map_`, where the original need not be: the two
kernels pass the filter of a scan one by one, and the lazy pass runs only when the clone is missing.
-/

namespace Omniprobe.CoCache
open Lib

/-! ### Sequences of loading calls -/

inductive LoadCall where
  | addFile (rt : Runtime) (agent : Agent) (filter : Text) (file : BinaryFile)
  | registerRuntimeKernel (name : Text) (symbol : Symbol) (kernelObject : KernelObject) (agent : Agent)
      (kernargSize : UInt32)

def load (cache : CoCache) : LoadCall → Option CoCache
  | .addFile rt agent filter file => cache.addFile rt agent filter file
  | .registerRuntimeKernel name symbol kernelObject agent kernargSize =>
    some (cache.registerRuntimeKernel name symbol kernelObject agent kernargSize)

/-- The descriptor that a scan records: its kernel passes the filter and is listed in the metadata. -/
def Scan.recorded (scan : Scan) (filter : Text) : Option (Agent × Text × ArgDescriptor) :=
  if passesFilter scan.rt filter scan.name = some true then
    scan.descriptor.map fun desc => (scan.agent, scan.name, desc)
  else none

def LoadCall.recorded : LoadCall → List (Agent × Text × ArgDescriptor)
  | .addFile rt agent filter file => (scans rt agent file).filterMap (·.recorded filter)
  | .registerRuntimeKernel _ _ _ _ _ => []

def lastRecorded (agent : Agent) (name : Text) (entries : List (Agent × Text × ArgDescriptor)) :
    Option ArgDescriptor :=
  (entries.reverse.find? fun entry => entry.1 = agent ∧ entry.2.1 = name).map (·.2.2)

theorem lastRecorded_append (agent : Agent) (name : Text) (first second : List (Agent × Text × ArgDescriptor)) :
    lastRecorded agent name (first ++ second) =
      (lastRecorded agent name second).or (lastRecorded agent name first) := by
  rw [lastRecorded, List.reverse_append, List.find?_append, Option.map_or]
  rfl

theorem Scan.add_argMap {scan : Scan} {filter : Text} {cache cache' : CoCache}
    (h : scan.add filter cache = some cache') (agent : Agent) (name : Text) :
    find₂ cache'.argMap agent name =
      (lastRecorded agent name (scan.recorded filter).toList).or (find₂ cache.argMap agent name) := by
  unfold Scan.recorded lastRecorded
  rcases Scan.add_cases h with ⟨excluded, rfl⟩ | ⟨passes, rfl⟩
  · rw [excluded]
    rfl
  · rw [if_pos passes]
    dsimp only
    rw [Scan.find_argMap]
    cases scan.descriptor with
    | none => simp
    | some desc =>
      split
      · rename_i same
        simp [same.1, same.2]
      · rename_i different
        simp [different]

theorem addFile_argMap {rt : Runtime} {agent : Agent} {filter : Text} {file : BinaryFile} {cache cache' : CoCache}
    (h : addFile rt agent filter file cache = some cache') (a : Agent) (n : Text) :
    find₂ cache'.argMap a n =
      (lastRecorded a n ((scans rt agent file).filterMap (·.recorded filter))).or (find₂ cache.argMap a n) := by
  rw [addFile_eq_scans] at h
  generalize scans rt agent file = list at h ⊢
  induction list generalizing cache with
  | nil =>
    obtain rfl := Option.some.inj h
    rfl
  | cons scan rest ih =>
    rw [List.foldlM_cons] at h
    obtain ⟨next, added, h⟩ := Option.bind_eq_some_iff.mp h
    rw [ih h, Scan.add_argMap added, ← Option.or_assoc, ← lastRecorded_append]
    rw [List.filterMap_cons]
    cases scan.recorded filter <;> rfl

theorem load_argMap {cache cache' : CoCache} {call : LoadCall} (h : cache.load call = some cache')
    (agent : Agent) (name : Text) :
    find₂ cache'.argMap agent name = (lastRecorded agent name call.recorded).or (find₂ cache.argMap agent name) := by
  cases call with
  | addFile rt agent' filter file => exact addFile_argMap h agent name
  | registerRuntimeKernel name' symbol kernelObject agent' kernargSize =>
    obtain rfl := Option.some.inj h
    rcases registerRuntimeKernel_cases cache name' symbol kernelObject agent' kernargSize with
      ⟨-, kept⟩ | ⟨-, entered⟩
    · rw [kept]
      rfl
    · rw [entered]
      rfl

/-- After any sequence of calls `arg_map_` holds the last descriptor recorded for each name. -/
theorem run_load_argMap {cache cache' : CoCache} {calls : List LoadCall} (ran : run load cache calls = some cache')
    (agent : Agent) (name : Text) :
    find₂ cache'.argMap agent name =
      (lastRecorded agent name (calls.flatMap LoadCall.recorded)).or (find₂ cache.argMap agent name) := by
  induction calls generalizing cache with
  | nil =>
    obtain rfl := Option.some.inj ran
    rfl
  | cons call rest ih =>
    obtain ⟨next, taken, ran⟩ := Option.bind_eq_some_iff.mp ran
    rw [ih ran, load_argMap taken, ← Option.or_assoc, ← lastRecorded_append]
    rfl

/-! ### Hidden lengths -/

/-- A descriptor's hidden length is what the explicit arguments leave of its segment. -/
def Derived (desc : ArgDescriptor) : Prop := desc.hiddenArgsLength = desc.kernargLength - desc.explicitArgsLength

theorem computeKernargData_derived {rt : Runtime} {kernels : List KernelMetadata} {name : Text} {desc : ArgDescriptor}
    (found : (computeKernargData rt kernels)[name]? = some desc) : Derived desc := by
  rw [computeKernargData_find] at found
  obtain ⟨kernel, -, rfl⟩ := Option.map_eq_some_iff.mp found
  obtain ⟨kernargLength, explicit, hidden⟩ := kernargDescriptor_lengths kernel
  rw [Derived, kernargLength, explicit, hidden]

theorem hiddenLength_derived {desc : ArgDescriptor} (derived : Derived desc) :
    hiddenLength (some desc) = desc.hiddenArgsLength := by
  unfold hiddenLength
  dsimp only
  split
  · exact derived.symm
  · rename_i zero
    exact (not_not.mp zero).symm

theorem recorded_derived {calls : List LoadCall} {agent : Agent} {name : Text} {desc : ArgDescriptor}
    (found : lastRecorded agent name (calls.flatMap LoadCall.recorded) = some desc) : Derived desc := by
  obtain ⟨entry, last, rfl⟩ := Option.map_eq_some_iff.mp found
  obtain ⟨call, -, member⟩ := List.mem_flatMap.mp (List.mem_reverse.mp (List.mem_of_find?_eq_some last))
  cases call with
  | addFile rt agent filter file =>
    obtain ⟨scan, -, recorded⟩ := List.mem_filterMap.mp member
    unfold Scan.recorded at recorded
    split at recorded
    · obtain ⟨desc, listed, rfl⟩ := Option.map_eq_some_iff.mp recorded
      exact computeKernargData_derived listed
    · cases recorded
  | registerRuntimeKernel => cases member

theorem lazyDescriptor_derived {rt : Runtime} {agent : Agent} {name : Text} {cache : CoCache} {desc : ArgDescriptor}
    (found : cache.lazyDescriptor rt agent name = some desc) : Derived desc := by
  unfold lazyDescriptor at found
  split at found
  · obtain ⟨codeObject, -, lists⟩ := List.exists_of_findSome?_eq_some found
    obtain ⟨metadata, -, listed⟩ := Option.bind_eq_some_iff.mp lists
    exact computeKernargData_derived listed
  · cases found

/-! ### When the length is right -/

def hiddenBytes (original : Option ArgDescriptor) : UInt64 := (original.map (·.hiddenArgsLength)).getD 0

/-- The original kernel that a lookup after the calls gets to see has `h` bytes of hidden arguments. A
descriptor that a scan recorded counts. Where there is none, the first code object that lists the
kernel does, but only if no scan recorded the clone. A kernel that is not seen has none. -/
def SeesHidden (rt : Runtime) (calls : List LoadCall) (cache : CoCache) (agent : Agent) (name : Text) (h : UInt64) :
    Prop :=
  let recorded := calls.flatMap LoadCall.recorded
  match lastRecorded agent name recorded, lastRecorded agent (getInstrumentedName name) recorded with
  | some original, _ => original.hiddenArgsLength = h
  | none, some _ => h = 0
  | none, none =>
    (∃ codeObject kernel, DescribedBy rt cache agent name codeObject ∧
      lastNamed rt name (kernelsOf codeObject) = some kernel ∧ (kernargDescriptor kernel).hiddenArgsLength = h) ∨
    (∀ codeObject, ¬DescribedBy rt cache agent name codeObject) ∧ h = 0

/-- A code object scanned for the agent lists the kernel with `h` bytes of hidden arguments. -/
def ListsHidden (calls : List LoadCall) (agent : Agent) (name : Text) (h : UInt64) : Prop :=
  ∃ rt filter file, .addFile rt agent filter file ∈ calls ∧ ∃ codeObject ∈ file.codeObjects, codeObject.loads = true ∧
    ∃ original, (computeKernargData rt codeObject.metadata)[name]? = some original ∧ original.hiddenArgsLength = h

/-- What a scan recorded is listed by a code object. -/
theorem listsHidden_of_recorded {calls : List LoadCall} {agent : Agent} {name : Text} {original : ArgDescriptor}
    (found : lastRecorded agent name (calls.flatMap LoadCall.recorded) = some original) :
    ListsHidden calls agent name original.hiddenArgsLength := by
  obtain ⟨entry, last, rfl⟩ := Option.map_eq_some_iff.mp found
  have named := List.find?_some last
  simp only [decide_eq_true_eq] at named
  obtain ⟨rfl, rfl⟩ := named
  obtain ⟨call, present, member⟩ := List.mem_flatMap.mp (List.mem_reverse.mp (List.mem_of_find?_eq_some last))
  cases call with
  | addFile rt agent filter file =>
    obtain ⟨scan, among, recorded⟩ := List.mem_filterMap.mp member
    obtain ⟨codeObject, loaded, scanned⟩ := List.mem_flatMap.mp among
    obtain ⟨symbol, -, rfl⟩ := List.mem_map.mp scanned
    obtain ⟨inside, loads⟩ := List.mem_filter.mp loaded
    unfold Scan.recorded at recorded
    split at recorded
    · obtain ⟨desc, listed, rfl⟩ := Option.map_eq_some_iff.mp recorded
      exact ⟨rt, filter, file, present, codeObject, inside, loads, desc, listed, rfl⟩
    · cases recorded
  | registerRuntimeKernel => cases member

theorem hiddenBytes_lazyDescriptor_iff {rt : Runtime} {agent : Agent} {name : Text} {cache : CoCache} {h : UInt64} :
    hiddenBytes (cache.lazyDescriptor rt agent name) = h ↔
      (∃ codeObject kernel, DescribedBy rt cache agent name codeObject ∧
        lastNamed rt name (kernelsOf codeObject) = some kernel ∧ (kernargDescriptor kernel).hiddenArgsLength = h) ∨
      (∀ codeObject, ¬DescribedBy rt cache agent name codeObject) ∧ h = 0 := by
  cases found : cache.lazyDescriptor rt agent name with
  | none =>
    have undescribed := lazyDescriptor_eq_none_iff.mp found
    constructor
    · rintro rfl
      exact Or.inr ⟨undescribed, rfl⟩
    · rintro (⟨codeObject, -, described, -⟩ | ⟨-, rfl⟩)
      · exact absurd described (undescribed codeObject)
      · rfl
  | some desc =>
    obtain ⟨codeObject, kernel, described, last, rfl⟩ := lazyDescriptor_iff.mp found
    constructor
    · intro hidden
      exact Or.inl ⟨codeObject, kernel, described, last, hidden⟩
    · rintro (⟨codeObject', kernel', described', last', hidden⟩ | ⟨undescribed, -⟩)
      · have again := lazyDescriptor_iff.mpr ⟨codeObject', kernel', described', last', rfl⟩
        rw [found] at again
        rw [Option.some.inj again]
        exact hidden
      · exact absurd described (undescribed codeObject)

/-- A lookup reports the hidden bytes of the original that it sees, and what a scan recorded of the
original is listed by a code object. -/
theorem getArgDescriptor_hidden_iff (rt : Runtime) (calls : List LoadCall) (cache cache' : CoCache) (agent : Agent)
    (name : Text) (desc : ArgDescriptor) (h : UInt64) (ran : run load {} calls = some cache)
    (returned : cache.getArgDescriptor rt agent name true = (cache', some desc)) :
    (desc.cloneHiddenArgsLength = h ↔ SeesHidden rt calls cache agent name h) ∧
      ∀ original, lastRecorded agent name (calls.flatMap LoadCall.recorded) = some original →
        ListsHidden calls agent name original.hiddenArgsLength := by
  refine ⟨?_, fun original found => listsHidden_of_recorded found⟩
  obtain ⟨clone, -, rfl⟩ := getArgDescriptor_some returned
  have history : ∀ n, find₂ cache.argMap agent n = lastRecorded agent n (calls.flatMap LoadCall.recorded) := by
    intro n
    rw [run_load_argMap ran, find₂_empty, Option.or_none]
  dsimp only
  rw [visibleDescriptor, missesClone, history, history, SeesHidden]
  cases original : lastRecorded agent name (calls.flatMap LoadCall.recorded) with
  | some desc =>
    rw [Option.some_or, hiddenLength_derived (recorded_derived original)]
  | none =>
    rw [Option.none_or]
    cases lastRecorded agent (getInstrumentedName name) (calls.flatMap LoadCall.recorded) with
    | some recorded => exact eq_comm
    | none =>
      rw [Option.isNone_none, if_pos rfl, ← hiddenBytes_lazyDescriptor_iff]
      cases lazily : cache.lazyDescriptor rt agent name with
      | none => rfl
      | some desc =>
        rw [hiddenLength_derived (lazyDescriptor_derived lazily)]
        rfl

theorem getArgDescriptor_hidden_sample :
    ∃ cache cache' desc, run load {} [.addFile Sample.loaded 1 [] Sample.binary] = some cache ∧
      cache.getArgDescriptor Sample.loaded 1 "f(int)".toList true = (cache', some desc) ∧
      desc.cloneHiddenArgsLength = 8 := by
  have recorded : (lastRecorded 1 "f(int)".toList
      ([LoadCall.addFile Sample.loaded 1 [] Sample.binary].flatMap LoadCall.recorded)).map (·.hiddenArgsLength) = some 8 := by
    decide
  obtain ⟨original, found, hidden⟩ := Option.map_eq_some_iff.mp recorded
  refine ⟨_, _, _, rfl, rfl, ?_⟩
  apply (getArgDescriptor_hidden_iff Sample.loaded [.addFile Sample.loaded 1 [] Sample.binary] _ _ 1 "f(int)".toList _ 8
    rfl rfl).1.mpr
  rw [SeesHidden, found]
  exact hidden

/-- A filter that only the clone's name passes hides the original's hidden arguments. -/
theorem getArgDescriptor_drops_hidden :
    ¬∀ (rt : Runtime) (calls : List LoadCall) (cache cache' : CoCache) (agent : Agent) (name : Text)
      (desc : ArgDescriptor) (h : UInt64), run load {} calls = some cache →
      cache.getArgDescriptor rt agent name true = (cache', some desc) → ListsHidden calls agent name h →
      desc.cloneHiddenArgsLength = h := by
  intro claim
  have lists : ListsHidden [.addFile Sample.loaded 1 "__amd_crk_".toList Sample.binary] 1 "f(int)".toList 8 :=
    ⟨_, _, _, List.mem_cons_self, _, List.mem_cons_self, rfl, _, rfl, by decide⟩
  have equal := claim Sample.loaded _ _ _ 1 "f(int)".toList _ 8 rfl rfl lists
  exact absurd equal (by decide)

end Omniprobe.CoCache
