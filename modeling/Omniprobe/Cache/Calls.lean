import Omniprobe.Cache.CoCache
import Omniprobe.Lib.Run

/-!
# What the calls into the cache do

One lemma for each function of `coCache`, saying everything that a call changes. The later modules
use these instead of unfolding the functions.
-/

namespace Omniprobe.CoCache
open Lib

/-! ### Scans, symbol by symbol -/

/-- A kernel symbol that `addFile` comes to, with the file and the code object it is in. -/
structure Scan where
  rt : Runtime
  agent : Agent
  file : Text
  coFile : Text
  metadata : List KernelMetadata
  symbol : Symbol

namespace Scan

def name (scan : Scan) : Text := scan.rt.demangleName (scan.rt.symbolName scan.symbol)

def descriptor (scan : Scan) : Option ArgDescriptor := (computeKernargData scan.rt scan.metadata)[scan.name]?

def add (scan : Scan) (filter : Text) (cache : CoCache) : Option CoCache :=
  cache.addSymbol scan.rt scan.agent filter scan.file scan.coFile (computeKernargData scan.rt scan.metadata)
    scan.symbol

end Scan

def executableScans (rt : Runtime) (agent : Agent) (file : Text) (codeObject : CodeObjectFile) : List Scan :=
  (kernelSymbols codeObject).map fun symbol =>
    ⟨rt, agent, file, codeObject.coFile, codeObject.metadata, symbol⟩

def scans (rt : Runtime) (agent : Agent) (file : BinaryFile) : List Scan :=
  (file.codeObjects.filter (·.loads)).flatMap (executableScans rt agent file.name)

theorem addExecutable_eq_scans (rt : Runtime) (agent : Agent) (filter file : Text) (cache : CoCache)
    (codeObject : CodeObjectFile) :
    addExecutable rt agent filter file cache codeObject =
      (executableScans rt agent file codeObject).foldlM (fun cache scan => scan.add filter cache) cache := by
  rw [executableScans, List.foldlM_map]
  rfl

theorem addFile_eq_scans (rt : Runtime) (agent : Agent) (filter : Text) (file : BinaryFile) (cache : CoCache) :
    addFile rt agent filter file cache =
      (scans rt agent file).foldlM (fun cache scan => scan.add filter cache) cache := by
  unfold addFile scans
  induction file.codeObjects.filter (·.loads) generalizing cache with
  | nil => rfl
  | cons codeObject rest ih =>
    rw [List.foldlM_cons, List.flatMap_cons, List.foldlM_append, addExecutable_eq_scans]
    exact congrArg _ (funext fun next => ih next)

theorem Scan.add_cases {scan : Scan} {filter : Text} {cache cache' : CoCache}
    (h : scan.add filter cache = some cache') :
    (passesFilter scan.rt filter scan.name = some false ∧ cache' = cache) ∨
    (passesFilter scan.rt filter scan.name = some true ∧
      cache' =
        { cache with
          argMap := match scan.descriptor with
            | some desc => insert₂ cache.argMap scan.agent scan.name desc
            | none => cache.argMap
          lookupMap := insert₂ cache.lookupMap scan.agent scan.name scan.symbol
          kernelCoMap := insert₂ cache.kernelCoMap scan.agent scan.name
            ⟨scan.file, scan.coFile, scan.rt.symbolName scan.symbol⟩ }) := by
  simp only [add, addSymbol] at h
  split at h
  · cases h
  · rename_i excluded
    exact Or.inl ⟨excluded, (Option.some.inj h).symm⟩
  · rename_i passes
    exact Or.inr ⟨passes, (Option.some.inj h).symm⟩

theorem Scan.find_argMap (scan : Scan) (argMap : Map₂ Agent Text ArgDescriptor) (agent : Agent) (name : Text) :
    find₂ (match scan.descriptor with
        | some desc => insert₂ argMap scan.agent scan.name desc
        | none => argMap) agent name =
      if scan.agent = agent ∧ scan.name = name then scan.descriptor.or (find₂ argMap agent name)
      else find₂ argMap agent name := by
  cases scan.descriptor with
  | none => simp
  | some desc =>
    dsimp only
    rw [find₂_insert₂, Option.some_or]

/-! ### Registration -/

theorem registerRuntimeKernel_cases (cache : CoCache) (name : Text) (symbol : Symbol) (kernelObject : KernelObject)
    (agent : Agent) (kernargSize : UInt32) :
    ((∃ old, find₂ cache.lookupMap agent name = some old) ∧
      cache.registerRuntimeKernel name symbol kernelObject agent kernargSize = cache) ∨
    (find₂ cache.lookupMap agent name = none ∧
      cache.registerRuntimeKernel name symbol kernelObject agent kernargSize =
        { cache with
          lookupMap := insert₂ cache.lookupMap agent name symbol
          kernargSizes := cache.kernargSizes.insert kernelObject kernargSize
          runtimeKernelObjects := insert₂ cache.runtimeKernelObjects agent name kernelObject }) := by
  unfold registerRuntimeKernel
  cases find₂ cache.lookupMap agent name with
  | some old => exact Or.inl ⟨⟨old, rfl⟩, rfl⟩
  | none => exact Or.inr ⟨rfl, rfl⟩

/-! ### The lazy pass -/

def listed (rt : Runtime) (name : Text) (codeObject : LoadedCodeObject) : Option ArgDescriptor :=
  codeObject.metadata.bind fun metadata => (computeKernargData rt metadata)[name]?

/-- The descriptor the lazy pass records for a name that has none: the first one listed, provided
that the name is in `lookup_map_`. -/
def lazyDescriptor (rt : Runtime) (agent : Agent) (name : Text) (cache : CoCache) : Option ArgDescriptor :=
  if (find₂ cache.lookupMap agent name).isSome ∧ agent ∈ cache.runtimeKernelObjects then
    (cache.resolvedCodeObjects rt agent).findSome? (listed rt name)
  else none

def kernelsOf (codeObject : LoadedCodeObject) : List KernelMetadata := codeObject.metadata.getD []

/-- The first of the code objects that lists a kernel of the name. -/
def FirstListing (rt : Runtime) (name : Text) (codeObjects : List LoadedCodeObject) (codeObject : LoadedCodeObject) :
    Prop :=
  ∃ before behind, codeObjects = before ++ codeObject :: behind ∧ Lists rt name (kernelsOf codeObject) ∧
    ∀ other ∈ before, ¬Lists rt name (kernelsOf other)

theorem listed_eq (rt : Runtime) (name : Text) (codeObject : LoadedCodeObject) :
    listed rt name codeObject = (lastNamed rt name (kernelsOf codeObject)).map kernargDescriptor := by
  unfold listed kernelsOf
  cases codeObject.metadata with
  | none => rfl
  | some metadata => exact computeKernargData_find rt metadata name

theorem findSome_listed_iff {rt : Runtime} {name : Text} {codeObjects : List LoadedCodeObject} {desc : ArgDescriptor} :
    codeObjects.findSome? (listed rt name) = some desc ↔
      ∃ codeObject kernel, FirstListing rt name codeObjects codeObject ∧
        lastNamed rt name (kernelsOf codeObject) = some kernel ∧ kernargDescriptor kernel = desc := by
  have unlisted (other : LoadedCodeObject) : listed rt name other = none ↔ ¬Lists rt name (kernelsOf other) := by
    rw [listed_eq, Option.map_eq_none_iff, lastNamed_eq_none_iff]
  rw [List.findSome?_eq_some_iff]
  constructor
  · rintro ⟨before, codeObject, behind, split, found, none⟩
    rw [listed_eq] at found
    obtain ⟨kernel, last, same⟩ := Option.map_eq_some_iff.mp found
    refine ⟨codeObject, kernel, ⟨before, behind, split, ?_, fun other member => (unlisted other).mp (none other member)⟩,
      last, same⟩
    by_contra absent
    rw [lastNamed_eq_none_iff.mpr absent] at last
    cases last
  · rintro ⟨codeObject, kernel, ⟨before, behind, split, -, none⟩, last, same⟩
    refine ⟨before, codeObject, behind, split, ?_, fun other member => (unlisted other).mpr (none other member)⟩
    rw [listed_eq, last, Option.map_some, same]

/-- The code object that the lazy pass takes the name's descriptor from. -/
def DescribedBy (rt : Runtime) (cache : CoCache) (agent : Agent) (name : Text) (codeObject : LoadedCodeObject) : Prop :=
  (find₂ cache.lookupMap agent name).isSome ∧ FirstListing rt name (cache.resolvedCodeObjects rt agent) codeObject

theorem registered_of_resolved {rt : Runtime} {agent : Agent} {cache : CoCache} {codeObject : LoadedCodeObject}
    (resolved : codeObject ∈ cache.resolvedCodeObjects rt agent) : agent ∈ cache.runtimeKernelObjects := by
  by_contra unregistered
  have none : cache.runtimeKernelObjects[agent]? = none := Std.ExtTreeMap.getElem?_eq_none unregistered
  simp [resolvedCodeObjects, missingKernelObjects, none, executablesOf] at resolved

theorem lazyDescriptor_iff {rt : Runtime} {agent : Agent} {name : Text} {cache : CoCache} {desc : ArgDescriptor} :
    cache.lazyDescriptor rt agent name = some desc ↔
      ∃ codeObject kernel, DescribedBy rt cache agent name codeObject ∧
        lastNamed rt name (kernelsOf codeObject) = some kernel ∧ kernargDescriptor kernel = desc := by
  unfold lazyDescriptor DescribedBy
  constructor
  · intro found
    split at found
    · rename_i linked
      obtain ⟨codeObject, kernel, first, last⟩ := findSome_listed_iff.mp found
      exact ⟨codeObject, kernel, ⟨linked.1, first⟩, last⟩
    · cases found
  · rintro ⟨codeObject, kernel, ⟨linked, first⟩, last⟩
    obtain ⟨before, behind, split, -⟩ := id first
    have resolved : codeObject ∈ cache.resolvedCodeObjects rt agent := by
      rw [split]
      exact List.mem_append_right _ List.mem_cons_self
    rw [if_pos ⟨linked, registered_of_resolved resolved⟩]
    exact findSome_listed_iff.mpr ⟨codeObject, kernel, first, last⟩

theorem lazyDescriptor_eq_none_iff {rt : Runtime} {agent : Agent} {name : Text} {cache : CoCache} :
    cache.lazyDescriptor rt agent name = none ↔ ∀ codeObject, ¬DescribedBy rt cache agent name codeObject := by
  constructor
  · intro none codeObject described
    obtain ⟨-, before, behind, -, lists, -⟩ := id described
    obtain ⟨kernel, last⟩ := Option.ne_none_iff_exists'.mp fun none => lastNamed_eq_none_iff.mp none lists
    have found := lazyDescriptor_iff.mpr ⟨codeObject, kernel, described, last, rfl⟩
    rw [none] at found
    cases found
  · intro undescribed
    by_contra found
    obtain ⟨desc, found⟩ := Option.ne_none_iff_exists'.mp found
    obtain ⟨codeObject, -, described, -⟩ := lazyDescriptor_iff.mp found
    exact undescribed codeObject described

theorem describeName_spec (agent : Agent) (kernels : Map Text ArgDescriptor) (cache : CoCache) (name : Text) :
    ∃ argMap, describeName agent kernels cache name = { cache with argMap := argMap } ∧
      ∀ a n, find₂ argMap a n = (find₂ cache.argMap a n).or (if agent = a ∧ name = n then kernels[n]? else none) := by
  unfold describeName described
  cases known : find₂ cache.argMap agent name with
  | some desc =>
    refine ⟨_, rfl, ?_⟩
    intro a n
    split
    · rename_i same
      obtain ⟨rfl, rfl⟩ := same
      rw [known, Option.some_or]
    · rw [Option.or_none]
  | none =>
    cases listed : kernels[name]? with
    | none =>
      refine ⟨_, rfl, ?_⟩
      intro a n
      split
      · rename_i same
        rw [← same.2, listed, Option.or_none]
      · rw [Option.or_none]
    | some desc =>
      refine ⟨_, rfl, ?_⟩
      intro a n
      rw [find₂_insert₂]
      split
      · rename_i same
        rw [← same.1, ← same.2, known, listed, Option.none_or]
      · rw [Option.or_none]

theorem describeNames_spec (agent : Agent) (kernels : Map Text ArgDescriptor) (cache : CoCache) (names : List Text) :
    ∃ argMap, names.foldl (describeName agent kernels) cache = { cache with argMap := argMap } ∧
      ∀ a n, find₂ argMap a n =
        (find₂ cache.argMap a n).or (if agent = a ∧ n ∈ names then kernels[n]? else none) := by
  induction names generalizing cache with
  | nil => exact ⟨_, rfl, by simp⟩
  | cons name rest ih =>
    obtain ⟨first, described, firstSpec⟩ := describeName_spec agent kernels cache name
    obtain ⟨argMap, folded, spec⟩ := ih { cache with argMap := first }
    refine ⟨argMap, by rw [List.foldl_cons, described, folded], ?_⟩
    intro a n
    rw [spec, firstSpec]
    by_cases here : agent = a <;> by_cases same : name = n <;> by_cases later : n ∈ rest <;>
      simp [here, same, later, eq_comm, Option.or_assoc]

theorem describeFrom_spec (rt : Runtime) (agent : Agent) (cache : CoCache) (codeObject : LoadedCodeObject) :
    ∃ argMap, describeFrom rt agent cache codeObject = { cache with argMap := argMap } ∧
      ∀ a n, find₂ argMap a n = (find₂ cache.argMap a n).or
        (if agent = a ∧ (find₂ cache.lookupMap agent n).isSome then listed rt n codeObject else none) := by
  unfold describeFrom listed find₂
  cases codeObject.metadata with
  | none => exact ⟨_, rfl, by simp⟩
  | some metadata =>
    cases cache.lookupMap[agent]? with
    | none => exact ⟨_, rfl, by simp⟩
    | some row =>
      obtain ⟨argMap, described, spec⟩ := describeNames_spec agent (computeKernargData rt metadata) cache row.keys
      refine ⟨argMap, described, ?_⟩
      intro a n
      have present : (row[n]?).isSome = true ↔ n ∈ row.keys := by
        rw [Std.ExtTreeMap.mem_keys, Std.ExtTreeMap.mem_iff_isSome_getElem?]
      rw [← find₂, spec, find₂]
      simp only [Option.bind_some, present]

theorem resolve_spec (rt : Runtime) (agent : Agent) (cache : CoCache) (codeObjects : List LoadedCodeObject) :
    ∃ argMap, codeObjects.foldl (describeFrom rt agent) cache = { cache with argMap := argMap } ∧
      ∀ a n, find₂ argMap a n = (find₂ cache.argMap a n).or
        (if agent = a ∧ (find₂ cache.lookupMap agent n).isSome then codeObjects.findSome? (listed rt n) else none) := by
  induction codeObjects generalizing cache with
  | nil => exact ⟨_, rfl, by simp⟩
  | cons codeObject rest ih =>
    obtain ⟨first, described, firstSpec⟩ := describeFrom_spec rt agent cache codeObject
    obtain ⟨argMap, folded, spec⟩ := ih { cache with argMap := first }
    refine ⟨argMap, by rw [List.foldl_cons, described, folded], ?_⟩
    intro a n
    rw [spec, firstSpec, Option.or_assoc, List.findSome?_cons]
    split
    · cases listed rt n codeObject <;> rfl
    · rfl

/-- The lazy pass fills the descriptors that are missing and changes nothing else. -/
theorem resolveRuntimeArgDescriptors_spec (rt : Runtime) (agent : Agent) (cache : CoCache) :
    ∃ argMap, (resolveRuntimeArgDescriptors rt agent cache).1 = { cache with argMap := argMap } ∧
      ∀ a n, find₂ argMap a n =
        (find₂ cache.argMap a n).or (if agent = a then lazyDescriptor rt agent n cache else none) := by
  unfold resolveRuntimeArgDescriptors
  split
  · rename_i registered
    obtain ⟨argMap, folded, spec⟩ := resolve_spec rt agent cache (cache.resolvedCodeObjects rt agent)
    refine ⟨argMap, folded, ?_⟩
    intro a n
    rw [spec, lazyDescriptor]
    simp only [registered, and_true]
    by_cases here : agent = a
    · rw [if_pos here]
      simp only [here, true_and]
    · rw [if_neg here, if_neg fun both => here both.1]
  · rename_i unregistered
    refine ⟨cache.argMap, rfl, ?_⟩
    intro a n
    simp [lazyDescriptor, unregistered]

/-! ### Lookups -/

def hiddenLength (original : Option ArgDescriptor) : UInt64 :=
  match original with
  | some desc => if desc.hiddenArgsLength ≠ 0 then desc.kernargLength - desc.explicitArgsLength else 0
  | none => 0

theorem lookupDescriptor_instrumented (cache : CoCache) (agent : Agent) (name : Text) :
    cache.lookupDescriptor agent name true =
      (find₂ cache.argMap agent (getInstrumentedName name)).map fun desc =>
        { desc with cloneHiddenArgsLength := hiddenLength (find₂ cache.argMap agent name) } := rfl

/-- The descriptor a lookup sees: the one recorded, or the one of the lazy pass when that is run. -/
def visibleDescriptor (rt : Runtime) (agent : Agent) (lazily : Bool) (name : Text) (cache : CoCache) :
    Option ArgDescriptor :=
  (find₂ cache.argMap agent name).or (if lazily then lazyDescriptor rt agent name cache else none)

/-- A lookup runs the lazy pass when it finds no descriptor of the instrumented kernel. -/
def missesClone (agent : Agent) (name : Text) (cache : CoCache) : Bool :=
  (find₂ cache.argMap agent (getInstrumentedName name)).isNone

theorem getArgDescriptor_cases (rt : Runtime) (agent : Agent) (name : Text) (instrumented : Bool) (cache : CoCache) :
    ∃ argMap, (getArgDescriptor rt agent name instrumented cache).1 = { cache with argMap := argMap } ∧
      (argMap = cache.argMap ∨
        cache.lookupDescriptor agent name instrumented = none ∧ ∀ a n, find₂ argMap a n =
          (find₂ cache.argMap a n).or (if agent = a then lazyDescriptor rt agent n cache else none)) := by
  unfold getArgDescriptor
  split
  · exact ⟨_, rfl, Or.inl rfl⟩
  · rename_i missing
    obtain ⟨argMap, resolved, spec⟩ := resolveRuntimeArgDescriptors_spec rt agent cache
    exact ⟨argMap, resolved, Or.inr ⟨missing, spec⟩⟩

theorem getArgDescriptor_lookup {rt : Runtime} {agent : Agent} {name : Text} {instrumented : Bool}
    {cache cache' : CoCache} {desc : ArgDescriptor}
    (h : getArgDescriptor rt agent name instrumented cache = (cache', some desc)) :
    cache'.lookupDescriptor agent name instrumented = some desc := by
  unfold getArgDescriptor at h
  split at h
  · rename_i found
    obtain ⟨rfl, same⟩ := Prod.mk.inj h
    rw [found, same]
  · obtain ⟨rfl, answer⟩ := Prod.mk.inj h
    split at answer
    · exact answer
    · cases answer

theorem getArgDescriptor_some {rt : Runtime} {agent : Agent} {name : Text} {cache cache' : CoCache}
    {desc : ArgDescriptor} (h : getArgDescriptor rt agent name true cache = (cache', some desc)) :
    ∃ clone, cache.visibleDescriptor rt agent (cache.missesClone agent name) (getInstrumentedName name) = some clone ∧
      desc = { clone with
        cloneHiddenArgsLength :=
          hiddenLength (cache.visibleDescriptor rt agent (cache.missesClone agent name) name) } := by
  unfold getArgDescriptor at h
  rw [lookupDescriptor_instrumented] at h
  cases known : find₂ cache.argMap agent (getInstrumentedName name) with
  | some clone =>
    rw [known] at h
    obtain ⟨-, same⟩ := Prod.mk.inj h
    refine ⟨clone, ?_, ?_⟩
    · simp [visibleDescriptor, known]
    · rw [← Option.some.inj same]
      simp [visibleDescriptor, missesClone, known]
  | none =>
    rw [known] at h
    dsimp only [Option.map_none] at h
    obtain ⟨argMap, resolved, spec⟩ := resolveRuntimeArgDescriptors_spec rt agent cache
    obtain ⟨-, answer⟩ := Prod.mk.inj h
    split at answer
    · rw [resolved, lookupDescriptor_instrumented] at answer
      obtain ⟨clone, found, same⟩ := Option.map_eq_some_iff.mp answer
      dsimp only at found same
      rw [spec, if_pos rfl] at found same
      refine ⟨clone, ?_, ?_⟩
      · simpa [visibleDescriptor, missesClone, known] using found
      · rw [← same]
        simp [visibleDescriptor, missesClone, known]
    · cases answer

/-- Where an alternative kernel object comes from: the memo, or `lookup_map_`. -/
def Finds (rt : Runtime) (symbol : Symbol) (name : Text) (agent : Agent) (object : KernelObject) (cache : CoCache) :
    Prop :=
  object ≠ 0 ∧ (find₂ cache.alternatives agent symbol = some object ∨
    ∃ alternative, rt.knowsSymbol symbol = true ∧
      find₂ cache.lookupMap (rt.symbolAgent symbol) (getInstrumentedName name) = some alternative ∧
      object = rt.symbolKernelObject alternative)

/-- `findInstrumentedAlternative` changes the memo, for the object it answers, and the sizes. -/
theorem findInstrumentedAlternative_cases {rt : Runtime} {symbol : Symbol} {name : Text} {agent : Agent}
    {cache cache' : CoCache} {object : KernelObject}
    (h : findInstrumentedAlternative rt symbol name agent cache = some (cache', object)) :
    ∃ alternatives sizes, cache' = { cache with alternatives := alternatives, kernargSizes := sizes } ∧
      ((object = 0 ∧ ∀ a s, find₂ alternatives a s = find₂ cache.alternatives a s) ∨
        (cache.Finds rt symbol name agent object ∧ ∀ a s, find₂ alternatives a s =
          if agent = a ∧ symbol = s then some object else find₂ cache.alternatives a s)) := by
  have untouched : ∀ a s, find₂ (touch cache.alternatives agent ∅) a s = find₂ cache.alternatives a s :=
    find₂_touch_empty cache.alternatives agent
  unfold findInstrumentedAlternative at h
  dsimp only at h
  split at h
  · rename_i hit
    obtain ⟨rfl, rfl⟩ := Prod.mk.inj (Option.some.inj h)
    cases memo : find₂ cache.alternatives agent symbol with
    | none => simp [memo] at hit
    | some known =>
      simp only [memo, Option.getD_some] at hit ⊢
      refine ⟨_, _, rfl, Or.inr ⟨⟨hit, Or.inl memo⟩, ?_⟩⟩
      intro a s
      rw [untouched]
      split
      · rename_i same
        rw [← same.1, ← same.2, memo]
      · rfl
  · split at h
    · cases h
    · rename_i found alternative answer
      unfold findAlternative at answer
      split at answer
      · rename_i knows
        dsimp only at answer
        split at answer
        · obtain ⟨rfl, rfl⟩ := Prod.mk.inj (Option.some.inj answer)
          simp only [ne_eq, not_true_eq_false, if_false] at h
          obtain ⟨rfl, rfl⟩ := Prod.mk.inj (Option.some.inj h)
          exact ⟨_, _, rfl, Or.inl ⟨rfl, untouched⟩⟩
        · rename_i linked present
          split at answer
          · obtain ⟨rfl, rfl⟩ := Prod.mk.inj (Option.some.inj answer)
            split at h
            · rename_i valid
              obtain ⟨rfl, rfl⟩ := Prod.mk.inj (Option.some.inj h)
              refine ⟨_, _, rfl, Or.inr ⟨⟨valid, Or.inr ⟨linked, knows, present, rfl⟩⟩, ?_⟩⟩
              intro a s
              rw [find₂_insert₂, untouched]
            · obtain ⟨rfl, rfl⟩ := Prod.mk.inj (Option.some.inj h)
              exact ⟨_, _, rfl, Or.inl ⟨rfl, untouched⟩⟩
          · cases answer
      · cases answer

end Omniprobe.CoCache
