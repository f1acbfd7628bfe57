import Omniprobe.Interceptor.Filter

/-!
# Alternatives and their descriptors

A dispatch takes the kernel object from the memo `alternatives_` over `lookup_map_` and the argument
descriptor from `arg_map_`. `Coherent` says that the two are about the same kernel; the calls that
can break it are the ones that give a name a second meaning.
-/

namespace Omniprobe.CoCache
open Lib

/-! ### Calls -/

inductive Call where
  | addSymbol (scan : Scan) (filter : Text)
  | registerRuntimeKernel (name : Text) (symbol : Symbol) (kernelObject : KernelObject) (agent : Agent)
      (kernargSize : UInt32)
  | findInstrumentedAlternative (rt : Runtime) (symbol : Symbol) (name : Text) (agent : Agent)
  | getArgDescriptor (rt : Runtime) (agent : Agent) (name : Text) (instrumented : Bool)

/-- The cache after a call; `none` where it ends in `abort()`. -/
def step (cache : CoCache) : Call → Option CoCache
  | .addSymbol scan filter => scan.add filter cache
  | .registerRuntimeKernel name symbol kernelObject agent kernargSize =>
    some (cache.registerRuntimeKernel name symbol kernelObject agent kernargSize)
  | .findInstrumentedAlternative rt symbol name agent =>
    (cache.findInstrumentedAlternative rt symbol name agent).map Prod.fst
  | .getArgDescriptor rt agent name instrumented => some (cache.getArgDescriptor rt agent name instrumented).1

theorem run_addFile (rt : Runtime) (agent : Agent) (filter : Text) (file : BinaryFile) (cache : CoCache) :
    run step cache ((scans rt agent file).map fun scan => .addSymbol scan filter) =
      cache.addFile rt agent filter file := by
  rw [addFile_eq_scans]
  induction scans rt agent file generalizing cache with
  | nil => rfl
  | cons scan rest ih =>
    rw [List.map_cons, run, List.foldlM_cons]
    exact congrArg _ (funext fun next => ih next)

section
variable (rt₀ : Runtime) (home : KernelObject → List KernelMetadata)

/-- The descriptor of a kernel in the code object that holds it. -/
def own (object : KernelObject) (name : Text) : Option ArgDescriptor := (computeKernargData rt₀ (home object))[name]?

def cloneName (symbol : Symbol) : Text := getInstrumentedName (symbolKernelName rt₀ symbol)

/-- The calls as the interceptor makes them: a scanned symbol's kernel is held by the scanned code
object, and a lookup passes a symbol together with its own name and agent. -/
def Genuine : Call → Prop
  | .addSymbol scan _ => scan.rt.SameSymbols rt₀ ∧ home (rt₀.symbolKernelObject scan.symbol) = scan.metadata
  | .registerRuntimeKernel _ _ _ _ _ => True
  | .findInstrumentedAlternative rt symbol name agent =>
    rt.SameSymbols rt₀ ∧ name = symbolKernelName rt₀ symbol ∧ agent = rt₀.symbolAgent symbol
  | .getArgDescriptor _ _ _ _ => True

/-- The kernel was handed out as an alternative under the name. -/
def HandedOut (cache : CoCache) (agent : Agent) (name : Text) (object : KernelObject) : Prop :=
  ∃ symbol, find₂ cache.alternatives agent symbol = some object ∧ cloneName rt₀ symbol = name

/-- The kernels that a name of the agent stands for: the one it is linked to, and the alternatives. -/
def StandsFor (cache : CoCache) (agent : Agent) (name : Text) (object : KernelObject) : Prop :=
  (∃ symbol, find₂ cache.lookupMap agent name = some symbol ∧ rt₀.symbolKernelObject symbol = object) ∨
    HandedOut rt₀ cache agent name object

/-- The code object that holds the kernel and the other one list the name with the same arguments. -/
def ListsAlike (rt : Runtime) (name : Text) (object : KernelObject) (kernels : List KernelMetadata) : Prop :=
  (lastNamed rt₀ name (home object)).map kernargDescriptor = (lastNamed rt name kernels).map kernargDescriptor

/-- The call gives no name a second meaning. A scan that enters a kernel lists it, or has no older
descriptor to leave behind, and lists it like the code objects of the alternatives handed out under the
name. A lazy pass comes, for each name that it is to describe, first to a code object that lists the
name like the code objects of the kernels that the name stands for. -/
def KeepsMeaning (cache : CoCache) : Call → Prop
  | .addSymbol scan filter => passesFilter scan.rt filter scan.name = some true →
    (Lists scan.rt scan.name scan.metadata ∨ find₂ cache.argMap scan.agent scan.name = none) ∧
    (Lists scan.rt scan.name scan.metadata → ∀ object, HandedOut rt₀ cache scan.agent scan.name object →
      ListsAlike rt₀ home scan.rt scan.name object scan.metadata)
  | .getArgDescriptor rt agent name instrumented => cache.lookupDescriptor agent name instrumented = none →
    ∀ n codeObject, find₂ cache.argMap agent n = none → DescribedBy rt cache agent n codeObject →
      ∀ object, StandsFor rt₀ cache agent n object → ListsAlike rt₀ home rt n object (kernelsOf codeObject)
  | _ => True

/-- Everything that a name of the agent stands for has the descriptor. -/
def Means (cache : CoCache) (agent : Agent) (name : Text) (desc : ArgDescriptor) : Prop :=
  ∀ object, StandsFor rt₀ cache agent name object → own rt₀ home object name = some desc

structure Coherent (cache : CoCache) : Prop where
  linked : ∀ agent name desc, find₂ cache.argMap agent name = some desc →
    ∃ symbol, find₂ cache.lookupMap agent name = some symbol
  means : ∀ agent name desc, find₂ cache.argMap agent name = some desc → Means rt₀ home cache agent name desc

end

section
variable {rt₀ : Runtime} {home : KernelObject → List KernelMetadata} {cache cache' : CoCache}

theorem Coherent.addSymbol (ok : Coherent rt₀ home cache) {scan : Scan} {filter : Text}
    (genuine : Genuine rt₀ home (.addSymbol scan filter)) (keeps : KeepsMeaning rt₀ home cache (.addSymbol scan filter))
    (h : scan.add filter cache = some cache') : Coherent rt₀ home cache' := by
  obtain ⟨same, held⟩ := genuine
  have read : scan.descriptor = (lastNamed scan.rt scan.name scan.metadata).map kernargDescriptor :=
    computeKernargData_find _ _ _
  rcases Scan.add_cases h with ⟨-, rfl⟩ | ⟨passes, rfl⟩
  · exact ok
  · obtain ⟨unlisted, handed⟩ := keeps passes
    have ownScan : own rt₀ home (rt₀.symbolKernelObject scan.symbol) scan.name = scan.descriptor := by
      rw [own, held, Scan.descriptor]
      simp only [computeKernargData, same.demangleName]
    constructor
    case linked =>
      intro agent name desc found
      dsimp only at found ⊢
      rw [Scan.find_argMap] at found
      rw [find₂_insert₂]
      split at found
      · rename_i entered
        rw [if_pos entered]
        exact ⟨_, rfl⟩
      · rename_i other
        rw [if_neg other]
        exact ok.linked agent name desc found
    case means =>
      intro agent name desc found
      dsimp only at found
      rw [Scan.find_argMap] at found
      split at found
      · rename_i entered
        obtain ⟨rfl, rfl⟩ := entered
        have listed : scan.descriptor = some desc ∧ Lists scan.rt scan.name scan.metadata := by
          by_cases lists : Lists scan.rt scan.name scan.metadata
          · obtain ⟨kernel, last⟩ := Option.ne_none_iff_exists'.mp fun none => lastNamed_eq_none_iff.mp none lists
            rw [read, last, Option.map_some, Option.some_or] at found
            exact ⟨by rw [read, last, Option.map_some, found], lists⟩
          · rw [read, lastNamed_eq_none_iff.mpr lists, Option.map_none, Option.none_or,
              unlisted.resolve_left lists] at found
            cases found
        rintro object (⟨symbol, link, rfl⟩ | out)
        · dsimp only at link
          rw [find₂_insert₂, if_pos ⟨rfl, rfl⟩] at link
          obtain rfl := Option.some.inj link
          rw [ownScan, listed.1]
        · have alike := handed listed.2 object out
          rw [own, computeKernargData_find, alike, ← read, listed.1]
      · rename_i other
        rintro object (⟨symbol, linked, rfl⟩ | out)
        · dsimp only at linked
          rw [find₂_insert₂, if_neg other] at linked
          exact ok.means agent name desc found _ (Or.inl ⟨symbol, linked, rfl⟩)
        · exact ok.means agent name desc found object (Or.inr out)

theorem Coherent.registerRuntimeKernel (ok : Coherent rt₀ home cache) (name : Text) (symbol : Symbol)
    (kernelObject : KernelObject) (agent : Agent) (kernargSize : UInt32) :
    Coherent rt₀ home (cache.registerRuntimeKernel name symbol kernelObject agent kernargSize) := by
  rcases registerRuntimeKernel_cases cache name symbol kernelObject agent kernargSize with ⟨-, kept⟩ | ⟨fresh, entered⟩
  · rw [kept]
    exact ok
  · rw [entered]
    -- The name was not linked, so it has no descriptor that the new link could contradict.
    have other : ∀ a n desc, find₂ cache.argMap a n = some desc → ¬(agent = a ∧ name = n) := by
      rintro a n desc found ⟨rfl, rfl⟩
      obtain ⟨old, linked⟩ := ok.linked _ _ desc found
      rw [fresh] at linked
      cases linked
    constructor
    case linked =>
      intro a n desc found
      dsimp only
      rw [find₂_insert₂, if_neg (other a n desc found)]
      exact ok.linked a n desc found
    case means =>
      rintro a n desc found object (⟨symbol', linked, rfl⟩ | out)
      · dsimp only at linked
        rw [find₂_insert₂, if_neg (other a n desc found)] at linked
        exact ok.means a n desc found _ (Or.inl ⟨symbol', linked, rfl⟩)
      · exact ok.means a n desc found object (Or.inr out)

theorem Coherent.findInstrumentedAlternative (ok : Coherent rt₀ home cache) {rt : Runtime} {symbol : Symbol} {name : Text}
    {agent : Agent} {object : KernelObject}
    (genuine : Genuine rt₀ home (.findInstrumentedAlternative rt symbol name agent))
    (h : cache.findInstrumentedAlternative rt symbol name agent = some (cache', object)) :
    Coherent rt₀ home cache' := by
  obtain ⟨same, named, owned⟩ := genuine
  obtain ⟨alternatives, sizes, rfl, changed⟩ := findInstrumentedAlternative_cases h
  refine ⟨ok.linked, ?_⟩
  intro a n desc found
  have means := ok.means a n desc found
  rintro handed (linked | ⟨s, present, clone⟩)
  · exact means handed (Or.inl linked)
  dsimp only at present
  rcases changed with ⟨-, kept⟩ | ⟨⟨-, finds⟩, added⟩
  · rw [kept] at present
    exact means handed (Or.inr ⟨s, present, clone⟩)
  · rw [added] at present
    split at present
    · rename_i here
      obtain ⟨rfl, rfl⟩ := here
      obtain rfl := Option.some.inj present
      rcases finds with old | ⟨alternative, -, linked, rfl⟩
      · exact means _ (Or.inr ⟨_, old, clone⟩)
      · rw [same.symbolAgent, ← owned, named] at linked
        rw [same.symbolKernelObject]
        refine means _ (Or.inl ⟨alternative, ?_, rfl⟩)
        rw [← clone]
        exact linked
    · exact means handed (Or.inr ⟨s, present, clone⟩)

theorem Coherent.getArgDescriptor (ok : Coherent rt₀ home cache) {rt : Runtime} {agent : Agent} {name : Text}
    {instrumented : Bool} (keeps : KeepsMeaning rt₀ home cache (.getArgDescriptor rt agent name instrumented)) :
    Coherent rt₀ home (cache.getArgDescriptor rt agent name instrumented).1 := by
  obtain ⟨argMap, looked, changed⟩ := getArgDescriptor_cases rt agent name instrumented cache
  rw [looked]
  rcases changed with rfl | ⟨missing, filled⟩
  · exact ok
  -- A descriptor of the new map is an old one or was found by the lazy pass.
  have cases : ∀ a n desc, find₂ argMap a n = some desc → find₂ cache.argMap a n = some desc ∨
      agent = a ∧ find₂ cache.argMap a n = none ∧ cache.lazyDescriptor rt agent n = some desc := by
    intro a n desc found
    rw [filled] at found
    rcases Option.or_eq_some_iff.mp found with old | ⟨none, new⟩
    · exact Or.inl old
    · split at new
      · exact Or.inr ⟨‹_›, none, new⟩
      · cases new
  constructor
  case linked =>
    intro a n desc found
    rcases cases a n desc found with old | ⟨rfl, -, lazily⟩
    · exact ok.linked a n desc old
    · obtain ⟨codeObject, kernel, described, -⟩ := lazyDescriptor_iff.mp lazily
      exact Option.isSome_iff_exists.mp described.1
  case means =>
    intro a n desc found
    rcases cases a n desc found with old | ⟨rfl, none, lazily⟩
    · exact ok.means a n desc old
    · obtain ⟨codeObject, kernel, described, last, same⟩ := lazyDescriptor_iff.mp lazily
      intro object stands
      have alike := keeps missing n codeObject none described object stands
      rw [own, computeKernargData_find, alike, last, Option.map_some, same]

theorem Coherent.step (ok : Coherent rt₀ home cache) {call : Call} (genuine : Genuine rt₀ home call)
    (keeps : KeepsMeaning rt₀ home cache call) (h : cache.step call = some cache') : Coherent rt₀ home cache' := by
  cases call with
  | addSymbol scan filter => exact ok.addSymbol genuine keeps h
  | registerRuntimeKernel name symbol kernelObject agent kernargSize =>
    obtain rfl := Option.some.inj h
    exact ok.registerRuntimeKernel name symbol kernelObject agent kernargSize
  | findInstrumentedAlternative rt symbol name agent =>
    obtain ⟨⟨after, object⟩, found, rfl⟩ := Option.map_eq_some_iff.mp h
    exact ok.findInstrumentedAlternative genuine found
  | getArgDescriptor rt agent name instrumented =>
    obtain rfl := Option.some.inj h
    exact ok.getArgDescriptor keeps

end

/-! ### Every sequence of calls -/

def Steady (rt₀ : Runtime) (home : KernelObject → List KernelMetadata) (cache : CoCache) (call : Call) : Prop :=
  Genuine rt₀ home call ∧ KeepsMeaning rt₀ home cache call

theorem coherent_of_reachable {rt₀ : Runtime} {home : KernelObject → List KernelMetadata} {cache : CoCache}
    (reachable : Reachable step (Steady rt₀ home) {} cache) : Coherent rt₀ home cache := by
  have empty : Coherent rt₀ home {} := by
    constructor
    case linked =>
      intro agent name desc found
      rw [find₂_empty] at found
      cases found
    case means =>
      intro agent name desc found
      rw [find₂_empty] at found
      cases found
  exact reachable.invariant empty fun _ _ _ ok met taken => ok.step met.1 met.2 taken

theorem findInstrumentedAlternative_memo {rt : Runtime} {symbol : Symbol} {name : Text} {agent : Agent}
    {cache cache' : CoCache} {object : KernelObject}
    (h : cache.findInstrumentedAlternative rt symbol name agent = some (cache', object)) (found : object ≠ 0) :
    find₂ cache'.alternatives agent symbol = some object := by
  obtain ⟨alternatives, sizes, rfl, changed⟩ := findInstrumentedAlternative_cases h
  rcases changed with ⟨zero, -⟩ | ⟨-, added⟩
  · exact absurd zero found
  · dsimp only
    rw [added, if_pos ⟨rfl, rfl⟩]

/-- The kernel object of a lookup and the descriptor of the next one are those of one kernel. -/
theorem descriptor_matches_alternative {rt₀ : Runtime} {home : KernelObject → List KernelMetadata}
    {cache cache' cache'' : CoCache} {object : KernelObject} {desc : ArgDescriptor}
    (rt rt' : Runtime) (symbol : Symbol) (name : Text) (agent : Agent)
    (reachable : Reachable step (Steady rt₀ home) {} cache)
    (first : Steady rt₀ home cache (.findInstrumentedAlternative rt symbol name agent))
    (alternative : cache.findInstrumentedAlternative rt symbol name agent = some (cache', object)) (found : object ≠ 0)
    (second : Steady rt₀ home cache' (.getArgDescriptor rt' agent name true))
    (descriptor : cache'.getArgDescriptor rt' agent name true = (cache'', some desc)) :
    own rt₀ home object (getInstrumentedName name) = some { desc with cloneHiddenArgsLength := 0 } := by
  have middle : Reachable step (Steady rt₀ home) {} cache' :=
    reachable.step first (by rw [step, alternative]; rfl)
  have last : Reachable step (Steady rt₀ home) {} cache'' :=
    middle.step second (by rw [step, descriptor])
  have memo : find₂ cache''.alternatives agent symbol = some object := by
    obtain ⟨argMap, looked, -⟩ := getArgDescriptor_cases rt' agent name true cache'
    rw [descriptor] at looked
    dsimp only at looked
    rw [looked]
    have held := findInstrumentedAlternative_memo alternative found
    exact held
  have answer := getArgDescriptor_lookup descriptor
  rw [lookupDescriptor_instrumented] at answer
  obtain ⟨clone, present, rfl⟩ := Option.map_eq_some_iff.mp answer
  obtain ⟨-, named, -⟩ := first.1
  have out : HandedOut rt₀ cache'' agent (getInstrumentedName name) object := ⟨symbol, memo, by rw [cloneName, named]⟩
  have extracted := (coherent_of_reachable last).means _ _ _ present object (Or.inr out)
  have zero : clone.cloneHiddenArgsLength = 0 := computeKernargData_cloneHidden extracted
  rw [extracted, ← zero]

end Omniprobe.CoCache

namespace Omniprobe
open Lib CoCache

namespace Sample

/-- The sample binary and a second one whose kernels have the same names and longer arguments. -/
def twice : Runtime :=
  { Runtime.idle with
    symbolName := fun symbol =>
      if symbol = 10 ∨ symbol = 20 then "f(int)".toList else "__amd_crk_f(int, void*)".toList
    symbolAgent := fun _ => 1
    symbolKernelObject := fun symbol => symbol * 10
    symbolKernargSize := fun _ => 24 }

def shortKernels : List KernelMetadata := [KernargLayout.sampleOriginal, KernargLayout.sampleClone]

def longKernels : List KernelMetadata :=
  [⟨"f(int)".toList, [⟨0, 16, "by_value".toList⟩], 16, 0, 0⟩,
    ⟨"__amd_crk_f(int, void*)".toList, [⟨0, 16, "by_value".toList⟩, ⟨16, 8, "global_buffer".toList⟩], 24, 0, 0⟩]

def holder (object : KernelObject) : List KernelMetadata := if object < 200 then shortKernels else longKernels

def scanOf (metadata : List KernelMetadata) (symbol : Symbol) : Scan :=
  ⟨twice, 1, "/app".toList, "/tmp/app.hsaco".toList, metadata, symbol⟩

def firstScan : List Call := [.addSymbol (scanOf shortKernels 10) [], .addSymbol (scanOf shortKernels 11) []]

def laterScan : List Call :=
  [.findInstrumentedAlternative twice 10 "f(int)".toList 1, .addSymbol (scanOf longKernels 20) [],
    .addSymbol (scanOf longKernels 21) []]

theorem twice_genuine (call : Call) (member : call ∈ firstScan ++ laterScan) :
    Genuine twice holder call := by
  simp only [firstScan, laterScan, List.cons_append, List.nil_append, List.mem_cons,
    List.not_mem_nil, or_false] at member
  have same : twice.SameSymbols twice := ⟨rfl, rfl, rfl, rfl, rfl, rfl⟩
  rcases member with rfl | rfl | rfl | rfl | rfl
  · exact ⟨same, rfl⟩
  · exact ⟨same, rfl⟩
  · exact ⟨same, rfl, rfl⟩
  · exact ⟨same, rfl⟩
  · exact ⟨same, rfl⟩

end Sample

theorem descriptor_matches_sample :
    ∃ cache cache' cache'' object desc, run CoCache.step {} Sample.firstScan = some cache ∧
      cache.findInstrumentedAlternative Sample.twice 10 "f(int)".toList 1 = some (cache', object) ∧
      cache'.getArgDescriptor Sample.twice 1 "f(int)".toList true = (cache'', some desc) ∧ object = 110 ∧
      own Sample.twice Sample.holder object "__amd_crk_f(int, void*)".toList =
        some { desc with cloneHiddenArgsLength := 0 } := by
  -- Nothing was handed out yet when the scans run.
  have fresh : ∀ (cache : CoCache) (scan : Scan), cache.alternatives = ∅ → Lists scan.rt scan.name scan.metadata →
      KeepsMeaning Sample.twice Sample.holder cache (.addSymbol scan []) := by
    rintro cache scan unused lists -
    refine ⟨Or.inl lists, ?_⟩
    rintro - object ⟨symbol, found, -⟩
    rw [unused, find₂_empty] at found
    cases found
  have reached : Reachable CoCache.step (Steady Sample.twice Sample.holder) {} _ :=
    (Reachable.start.step (a := .addSymbol (Sample.scanOf Sample.shortKernels 10) [])
      ⟨Sample.twice_genuine _ (by simp [Sample.firstScan]), fresh _ _ rfl ⟨_, List.mem_cons_self, rfl⟩⟩ rfl).step
      (a := .addSymbol (Sample.scanOf Sample.shortKernels 11) [])
      ⟨Sample.twice_genuine _ (by simp [Sample.firstScan]), fresh _ _ rfl ⟨_, List.mem_cons_of_mem _ List.mem_cons_self, rfl⟩⟩ rfl
  refine ⟨_, _, _, _, _, rfl, rfl, rfl, rfl, ?_⟩
  exact descriptor_matches_alternative Sample.twice Sample.twice 10 "f(int)".toList 1 reached
    ⟨Sample.twice_genuine _ (by simp [Sample.laterScan]), trivial⟩ rfl (by decide)
    ⟨trivial, fun missing => absurd missing (by decide)⟩ rfl

/-- After the second scan the memo still answers the first binary's clone, with the second one's
descriptor. -/
theorem descriptor_of_other_kernel :
    ¬∀ (rt₀ rt rt' : Runtime) (home : KernelObject → List KernelMetadata) (cache cache' cache'' : CoCache)
      (object : KernelObject) (desc : ArgDescriptor) (symbol : Symbol) (name : Text) (agent : Agent),
      Reachable CoCache.step (fun _ => Genuine rt₀ home) {} cache →
      Genuine rt₀ home (.findInstrumentedAlternative rt symbol name agent) →
      cache.findInstrumentedAlternative rt symbol name agent = some (cache', object) → object ≠ 0 →
      cache'.getArgDescriptor rt' agent name true = (cache'', some desc) →
      own rt₀ home object (getInstrumentedName name) = some { desc with cloneHiddenArgsLength := 0 } := by
  intro claim
  have reached : Reachable CoCache.step (fun _ => Genuine Sample.twice Sample.holder) {} _ :=
    Reachable.start.of_run (meets_of_forall _ fun call member _ => Sample.twice_genuine call member) rfl
  have matched := claim Sample.twice Sample.twice Sample.twice Sample.holder _ _ _ _ _ 10 "f(int)".toList 1 reached
    (Sample.twice_genuine _ (by simp [Sample.laterScan])) rfl (by decide) rfl
  exact absurd matched (by decide)

end Omniprobe
