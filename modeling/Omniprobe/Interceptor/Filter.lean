import Omniprobe.Interceptor.Loading

/-!
# The kernel filter

`addFile` enters only kernels whose names match `LOGDUR_FILTER`, but the symbol hook enters every
kernel it is asked about. A run respects the filter when no instrumented kernel comes in that way
against it.
-/

namespace Omniprobe
open Lib

/-! ### What a dispatch does with the cache -/

section
variable {rt : Runtime} {env : FixupEnv} {icpt icpt' : Interceptor} {packet : Packet} {queue : Queue}
  {agent : Agent} {sig : Signal} {dispatchId : UInt64}

/-- A dispatch of a kernel leaves `lookup_map_` alone, and adds to the memo what it found. -/
structure Uses (rt : Runtime) (agent : Agent) (kernel : Option LdKernelDescriptor) (cache cache' : CoCache) :
    Prop where
  lookup : cache'.lookupMap = cache.lookupMap
  memo : ∀ a s object, find₂ cache'.alternatives a s = some object →
    find₂ cache.alternatives a s = some object ∨
      ∃ known, kernel = some known ∧ s = known.symbol ∧ cache.Finds rt known.symbol known.name agent object

theorem Uses.refl {kernel : Option LdKernelDescriptor} {cache : CoCache} : Uses rt agent kernel cache cache :=
  ⟨rfl, fun _ _ _ found => Or.inl found⟩

theorem instrument_uses {known : LdKernelDescriptor} {alternative : KernelObject} {outcome : Outcome Fixup}
    (h : instrument rt env icpt packet agent sig dispatchId known alternative = (icpt', outcome)) :
    (∃ argMap, icpt'.kernelCache = { icpt.kernelCache with argMap := argMap }) ∧
    ∀ fixup, outcome = .ok fixup → fixup.packet.kernelObject = alternative := by
  obtain ⟨cache, descriptor, looked, cases⟩ := instrument_cases h
  obtain ⟨argMap, same, -⟩ := CoCache.getArgDescriptor_cases rt agent known.name true icpt.kernelCache
  rw [looked] at same
  rcases cases with ⟨rfl, fails⟩ | ⟨args, writes, -, -, rfl, rfl⟩
  · exact ⟨⟨argMap, same⟩, fun fixup returned => absurd returned (fails fixup)⟩
  · refine ⟨⟨argMap, same⟩, ?_⟩
    intro fixup returned
    obtain rfl := Outcome.ok.inj returned
    rfl

/-- In instrumented mode a dispatch runs the packet's own kernel, or the alternative that the cache
finds for it. -/
theorem swapKernel_uses {outcome : Outcome Fixup}
    (h : swapKernel rt env icpt packet agent sig dispatchId = (icpt', outcome)) (mode : icpt.runInstrumented = true) :
    Uses rt agent icpt.kernelObjects[packet.kernelObject]? icpt.kernelCache icpt'.kernelCache ∧
    ∀ fixup, outcome = .ok fixup →
      (fixup.packet.kernelObject = packet.kernelObject ∧ fixup.instrumented = none) ∨
      ∃ known, icpt.kernelObjects[packet.kernelObject]? = some known ∧
        icpt.kernelCache.Finds rt known.symbol known.name agent fixup.packet.kernelObject := by
  have original : outcome.Keeps packet → ∀ fixup, outcome = .ok fixup →
      fixup.packet.kernelObject = packet.kernelObject ∧ fixup.instrumented = none := by
    intro keeps fixup returned
    obtain rfl := keeps fixup returned
    exact ⟨rfl, rfl⟩
  rcases swapKernel_cases h with ⟨rfl, keeps⟩ | ⟨known, cache, alternative, dispatcher, recorded, answer, cases⟩
  · exact ⟨Uses.refl, fun fixup returned => Or.inl (original keeps fixup returned)⟩
  · rw [findKernelAlternative, if_pos mode] at answer
    obtain ⟨alternatives, sizes, rfl, found⟩ := CoCache.findInstrumentedAlternative_cases answer
    have used : ∀ cache' : CoCache, cache'.lookupMap = icpt.kernelCache.lookupMap →
        cache'.alternatives = alternatives → Uses rt agent (some known) icpt.kernelCache cache' := by
      intro cache' lookup memo
      refine ⟨lookup, ?_⟩
      intro a s object present
      rw [memo] at present
      rcases found with ⟨-, same⟩ | ⟨finds, added⟩
      · exact Or.inl (same a s ▸ present)
      · rw [added] at present
        split at present
        · rename_i here
          exact Or.inr ⟨known, rfl, here.2.symm, Option.some.inj present ▸ finds⟩
        · exact Or.inl present
    rw [recorded]
    rcases cases with ⟨rfl, keeps⟩ | ⟨valid, -, swapped⟩
    · exact ⟨used _ rfl rfl, fun fixup returned => Or.inl (original keeps fixup returned)⟩
    · obtain ⟨⟨argMap, changed⟩, object⟩ := instrument_uses swapped
      rw [changed]
      refine ⟨used _ rfl rfl, ?_⟩
      intro fixup returned
      rw [object fixup returned]
      rcases found with ⟨zero, -⟩ | ⟨finds, -⟩
      · exact absurd zero valid
      · exact Or.inr ⟨known, rfl, finds⟩

theorem fixupPacket_uses {outcome : Outcome (Option Fixup)}
    (h : fixupPacket rt env icpt packet queue dispatchId = (icpt', outcome)) (mode : icpt.runInstrumented = true) :
    ∃ agent, Uses rt agent icpt.kernelObjects[packet.kernelObject]? icpt.kernelCache icpt'.kernelCache ∧
      icpt'.filter = icpt.filter ∧ icpt'.runInstrumented = icpt.runInstrumented ∧
      ∀ fixup, outcome = .ok (some fixup) →
        (fixup.packet.kernelObject = packet.kernelObject ∧ fixup.instrumented = none) ∨
        ∃ known, icpt.kernelObjects[packet.kernelObject]? = some known ∧
          icpt.kernelCache.Finds rt known.symbol known.name agent fixup.packet.kernelObject := by
  rcases fixupPacket_cases h with ⟨⟨pool, rfl⟩, fails⟩ | ⟨sig, swapped, result, -, swap, cases⟩
  · exact ⟨0, Uses.refl, rfl, rfl, fun fixup returned => absurd returned (fails _)⟩
  · obtain ⟨uses, found⟩ := swapKernel_uses swap mode
    obtain ⟨_, _, _, rfl, -⟩ := swapKernel_frame swap
    rcases cases with ⟨rfl | rfl, fails⟩ | ⟨fixup, rfl, rfl, rfl⟩
    · exact ⟨_, uses, rfl, rfl, fun fixup returned => absurd returned (fails _)⟩
    · exact ⟨_, uses, rfl, rfl, fun fixup returned => absurd returned (fails _)⟩
    · refine ⟨_, uses, rfl, rfl, ?_⟩
      intro written same
      obtain rfl := Option.some.inj (Outcome.ok.inj same)
      exact found fixup rfl

end

/-! ### Runs that respect the filter -/

def InstrumentedName (name : Text) : Prop := ∃ original, getInstrumentedName original = name

/-- Whether a query enters the symbol's kernel into the cache. -/
def registers (rt : Runtime) (icpt : Interceptor) (symbol : Symbol) : Bool :=
  rt.knowsSymbol symbol && (icpt.kernelObjects[rt.symbolKernelObject symbol]?).isNone &&
    !(skipsRegistration rt icpt (rt.symbolKernelObject symbol)).2 &&
    (find₂ icpt.kernelCache.lookupMap (rt.symbolAgent symbol) (symbolKernelName rt symbol)).isNone

/-- The loader's answers about symbols are those of `rt₀`, so that no handle changes its meaning. -/
def Event.Steady (rt₀ : Runtime) : Event → Prop
  | .addSymbol scan => scan.rt.SameSymbols rt₀
  | .query rt _ => rt.SameSymbols rt₀
  | .createQueue _ _ => True
  | .dispatch rt _ _ _ => rt.SameSymbols rt₀

/-- No query enters an instrumented kernel whose name the filter does not match. -/
def EntersMatching (icpt : Interceptor) : Event → Prop
  | .query rt symbol =>
    registers rt icpt symbol = true → InstrumentedName (symbolKernelName rt symbol) →
      rt.regexSearch icpt.filter (symbolKernelName rt symbol) = some true
  | _ => True

def RespectsFilter (rt₀ : Runtime) (icpt : Interceptor) (event : Event) : Prop :=
  event.Steady rt₀ ∧ EntersMatching icpt event

/-- `object` is an instrumented version of the kernel `name` that the filter lets through. -/
def Selected (rt : Runtime) (filter name : Text) (object : KernelObject) : Prop :=
  rt.regexSearch filter (getInstrumentedName name) = some true ∧
    ∃ alternative, rt.symbolKernelObject alternative = object ∧
      symbolKernelName rt alternative = getInstrumentedName name

structure Filtered (rt : Runtime) (icpt : Interceptor) : Prop where
  filter : icpt.filter ≠ []
  mode : icpt.runInstrumented = true
  linked : ∀ agent name symbol, find₂ icpt.kernelCache.lookupMap agent name = some symbol → InstrumentedName name →
    rt.regexSearch icpt.filter name = some true ∧ symbolKernelName rt symbol = name
  objects : ∀ (object : KernelObject) record, icpt.kernelObjects[object]? = some record →
    record.symbol = 0 ∨ record.name = symbolKernelName rt record.symbol
  memo : ∀ agent symbol object, find₂ icpt.kernelCache.alternatives agent symbol = some object →
    rt.knowsSymbol symbol = true ∧ Selected rt icpt.filter (symbolKernelName rt symbol) object

section
variable {rt₀ : Runtime} {icpt icpt' : Interceptor}

theorem Filtered.addSymbol (ok : Filtered rt₀ icpt) {scan : CoCache.Scan} {cache : CoCache}
    (same : scan.rt.SameSymbols rt₀) (h : scan.add icpt.filter icpt.kernelCache = some cache) :
    Filtered rt₀ { icpt with kernelCache := cache } := by
  rcases CoCache.Scan.add_cases h with ⟨-, rfl⟩ | ⟨passes, rfl⟩
  · exact ok
  · have matched : rt₀.regexSearch icpt.filter scan.name = some true := by
      rw [CoCache.passesFilter, if_neg (by simpa using ok.filter), same.regexSearch] at passes
      exact passes
    refine ⟨ok.filter, ok.mode, ?_, ok.objects, ok.memo⟩
    intro agent name symbol found instrumented
    dsimp only at found
    rw [find₂_insert₂] at found
    split at found
    · rename_i entered
      obtain ⟨-, rfl⟩ := entered
      obtain rfl := Option.some.inj found
      refine ⟨matched, ?_⟩
      have named : scan.name ≠ [] := by
        obtain ⟨original, clone⟩ := instrumented
        exact clone ▸ getInstrumentedName_ne_nil original
      rw [← same.kernelName]
      exact if_neg named
    · exact ok.linked agent name symbol found instrumented

theorem skipsRegistration_frame (rt : Runtime) (icpt : Interceptor) (object : KernelObject) :
    ∃ excluded, (skipsRegistration rt icpt object).1 =
      { icpt.kernelCache with excludedExecutableCache := excluded } := by
  unfold skipsRegistration CoCache.isKernelFromExcludedFile
  split
  · split
    · exact ⟨_, rfl⟩
    · split <;> exact ⟨_, rfl⟩
  · exact ⟨_, rfl⟩

theorem queryKernelObject_links (rt : Runtime) (icpt : Interceptor) (symbol : Symbol)
    (mode : icpt.runInstrumented = true) :
    queryKernelObject rt icpt symbol = icpt ∨
    ∃ lookupMap sizes objects excluded,
      queryKernelObject rt icpt symbol =
        { icpt with
          kernelObjects := icpt.kernelObjects.insert (rt.symbolKernelObject symbol) (reportedKernel rt symbol)
          kernelCache := { icpt.kernelCache with
            lookupMap := lookupMap
            kernargSizes := sizes
            runtimeKernelObjects := objects
            excludedExecutableCache := excluded } } ∧
      (lookupMap = icpt.kernelCache.lookupMap ∨
        registers rt icpt symbol = true ∧
        lookupMap = insert₂ icpt.kernelCache.lookupMap (rt.symbolAgent symbol) (symbolKernelName rt symbol) symbol) := by
  rcases queryKernelObject_cases rt icpt symbol with ⟨kept, -⟩ | ⟨knows, absent, recorded⟩
  · exact Or.inl kept
  · refine Or.inr ?_
    obtain ⟨excluded, skipped⟩ := skipsRegistration_frame rt icpt (rt.symbolKernelObject symbol)
    rw [recorded, recordedCache, if_pos mode]
    dsimp only
    rw [skipped]
    split
    · exact ⟨_, _, _, _, rfl, Or.inl rfl⟩
    · rename_i included
      rcases CoCache.registerRuntimeKernel_cases
          { icpt.kernelCache with excludedExecutableCache := excluded } (symbolKernelName rt symbol) symbol
          (rt.symbolKernelObject symbol) (rt.symbolAgent symbol) (rt.symbolKernargSize symbol)
        with ⟨-, kept⟩ | ⟨unnamed, entered⟩
      · rw [kept]
        exact ⟨_, _, _, _, rfl, Or.inl rfl⟩
      · rw [entered]
        refine ⟨_, _, _, _, rfl, Or.inr ⟨?_, rfl⟩⟩
        have fresh : find₂ icpt.kernelCache.lookupMap (rt.symbolAgent symbol) (symbolKernelName rt symbol) = none :=
          unnamed
        simp [registers, knows, absent, included, fresh]

theorem Filtered.query (ok : Filtered rt₀ icpt) {rt : Runtime} {symbol : Symbol}
    (respects : RespectsFilter rt₀ icpt (.query rt symbol)) : Filtered rt₀ (queryKernelObject rt icpt symbol) := by
  obtain ⟨same, allowed⟩ := respects
  rcases queryKernelObject_links rt icpt symbol ok.mode with kept | ⟨lookupMap, _, _, _, changed, lookup⟩
  · rw [kept]
    exact ok
  · rw [changed]
    refine ⟨ok.filter, ok.mode, ?_, ?_, ok.memo⟩
    · intro agent name symbol' found instrumented
      dsimp only at found
      rcases lookup with rfl | ⟨registers, rfl⟩
      · exact ok.linked agent name symbol' found instrumented
      · rw [find₂_insert₂] at found
        split at found
        · rename_i entered
          obtain ⟨-, rfl⟩ := entered
          obtain rfl := Option.some.inj found
          refine ⟨?_, (same.kernelName symbol).symm⟩
          rw [← same.regexSearch]
          exact allowed registers instrumented
        · exact ok.linked agent name symbol' found instrumented
    · intro object record found
      dsimp only at found
      rw [find_insert] at found
      split at found
      · obtain rfl := Option.some.inj found
        exact Or.inr (same.kernelName symbol)
      · exact ok.objects object record found

theorem Filtered.selected (ok : Filtered rt₀ icpt) {rt : Runtime} (same : rt.SameSymbols rt₀)
    {kernel object : KernelObject} {known : LdKernelDescriptor} {agent : Agent}
    (recorded : icpt.kernelObjects[kernel]? = some known)
    (finds : icpt.kernelCache.Finds rt known.symbol known.name agent object) :
    rt₀.knowsSymbol known.symbol = true ∧ known.name = symbolKernelName rt₀ known.symbol ∧
      Selected rt₀ icpt.filter known.name object := by
  have valid : rt₀.knowsSymbol known.symbol = true := by
    rcases finds.2 with memo | ⟨_, knows, -⟩
    · exact (ok.memo _ _ _ memo).1
    · rw [← same.knowsSymbol]
      exact knows
  -- A blank record has the null symbol, which the loader refuses.
  have named : known.name = symbolKernelName rt₀ known.symbol := by
    rcases ok.objects kernel known recorded with null | named
    · rw [null, rt₀.nullSymbol] at valid
      cases valid
    · exact named
  refine ⟨valid, named, ?_⟩
  rcases finds.2 with memo | ⟨alternative, -, found, rfl⟩
  · rw [named]
    exact (ok.memo _ _ _ memo).2
  · obtain ⟨matched, name⟩ := ok.linked _ _ _ found ⟨_, rfl⟩
    exact ⟨matched, alternative, by rw [same.symbolKernelObject], name⟩

theorem Filtered.dispatch (ok : Filtered rt₀ icpt) {rt : Runtime} {env : FixupEnv} {packet : Packet} {queue : Queue}
    {outcome : Outcome (Option Fixup)} (same : rt.SameSymbols rt₀)
    (h : icpt.dispatch rt env packet queue = (icpt', outcome)) : Filtered rt₀ icpt' := by
  obtain ⟨agent, uses, filter, mode, -⟩ := fixupPacket_uses h ok.mode
  have objects := fixupPacket_objects h
  refine ⟨filter ▸ ok.filter, mode.trans ok.mode, ?_, ?_, ?_⟩
  · rw [filter, uses.lookup]
    exact ok.linked
  · intro object record found
    rcases objects with kept | blank
    · rw [kept] at found
      exact ok.objects object record found
    · rw [blank, find_touch] at found
      rcases Option.or_eq_some_iff.mp found with old | ⟨-, new⟩
      · exact ok.objects object record old
      · split at new
        · obtain rfl := Option.some.inj new
          exact Or.inl rfl
        · cases new
  · intro a s object found
    rw [filter]
    rcases uses.memo a s object found with old | ⟨known, recorded, rfl, finds⟩
    · exact ok.memo a s object old
    · obtain ⟨valid, named, selected⟩ := ok.selected same recorded finds
      exact ⟨valid, named ▸ selected⟩

theorem Filtered.step (ok : Filtered rt₀ icpt) {event : Event} (respects : RespectsFilter rt₀ icpt event)
    (h : icpt.step event = some icpt') : Filtered rt₀ icpt' := by
  cases event with
  | addSymbol scan =>
    obtain ⟨cache, added, rfl⟩ := Option.map_eq_some_iff.mp h
    exact ok.addSymbol respects.1 added
  | query rt symbol =>
    obtain rfl := Option.some.inj h
    exact ok.query respects
  | createQueue queue agent =>
    obtain rfl := Option.some.inj h
    exact ⟨ok.filter, ok.mode, ok.linked, ok.objects, ok.memo⟩
  | dispatch rt env packet queue =>
    simp only [Interceptor.step] at h
    generalize call : icpt.dispatch rt env packet queue = result at h
    obtain ⟨after, outcome⟩ := result
    have kept := ok.dispatch respects.1 call
    cases outcome with
    | aborted => cases h
    | ok value => exact Option.some.inj h ▸ kept
    | threw => exact Option.some.inj h ▸ kept

end

/-! ### Every run -/

/-- A dispatch that was given an instrumented kernel was given one that the filter matches, and a
kernel whose instrumented name the filter does not match runs as it is. -/
def HonoursFilter (rt : Runtime) (icpt : Interceptor) (packet : Packet) (fixup : Fixup) : Prop :=
  (fixup.instrumented.isSome = true → ∃ known, icpt.kernelObjects[packet.kernelObject]? = some known ∧
    Selected rt icpt.filter known.name fixup.packet.kernelObject) ∧
  ((∀ known, icpt.kernelObjects[packet.kernelObject]? = some known →
      rt.regexSearch icpt.filter (getInstrumentedName known.name) ≠ some true) →
    fixup.packet.kernelObject = packet.kernelObject)

structure Interceptor.Unloaded (icpt : Interceptor) : Prop where
  mode : icpt.runInstrumented = true
  filter : icpt.filter ≠ []
  objects : icpt.kernelObjects = ∅
  cache : icpt.kernelCache = {}

theorem Interceptor.Unloaded.filtered {icpt : Interceptor} (unloaded : icpt.Unloaded) (rt₀ : Runtime) :
    Filtered rt₀ icpt where
  filter := unloaded.filter
  mode := unloaded.mode
  linked := by simp [unloaded.cache, find₂_empty]
  objects := by simp [unloaded.objects]
  memo := by simp [unloaded.cache, find₂_empty]

theorem dispatch_honoursFilter {rt₀ rt : Runtime} {start icpt icpt' : Interceptor} (env : FixupEnv)
    (packet : Packet) (queue : Queue) {fixup : Fixup} (unloaded : start.Unloaded)
    (reachable : Reachable Interceptor.step (RespectsFilter rt₀) start icpt) (same : rt.SameSymbols rt₀)
    (h : icpt.dispatch rt env packet queue = (icpt', .ok (some fixup))) : HonoursFilter rt₀ icpt packet fixup := by
  have ok : Filtered rt₀ icpt :=
    reachable.invariant (unloaded.filtered rt₀) fun _ _ _ ok respects taken => ok.step respects taken
  obtain ⟨agent, -, -, -, swapped⟩ := fixupPacket_uses h ok.mode
  rcases swapped fixup rfl with ⟨object, plain⟩ | ⟨known, recorded, finds⟩
  · refine ⟨?_, fun _ => object⟩
    rw [plain]
    exact fun none => by cases none
  · obtain ⟨-, -, selected⟩ := ok.selected same recorded finds
    exact ⟨fun _ => ⟨known, recorded, selected⟩, fun unmatched => absurd selected.1 (unmatched known recorded)⟩

namespace Sample

def reported : List Event := [.createQueue 1 1, .query loaded 10, .query loaded 11]

def starting (filter : String) : Interceptor := { start with filter := filter.toList }

end Sample

theorem dispatch_honoursFilter_sample :
    ∃ icpt icpt' fixup, run Interceptor.step (Sample.starting "f(") Sample.reported = some icpt ∧
      icpt.dispatch Sample.loaded (Sample.answers 0) Sample.dispatch 1 = (icpt', .ok (some fixup)) ∧
      fixup.packet.kernelObject = 110 ∧ HonoursFilter Sample.loaded icpt Sample.dispatch fixup := by
  have same : Sample.loaded.SameSymbols Sample.loaded := ⟨rfl, rfl, rfl, rfl, rfl, rfl⟩
  have reached : Reachable Interceptor.step (RespectsFilter Sample.loaded) (Sample.starting "f(") _ :=
    ((Reachable.start.step (a := .createQueue 1 1) ⟨trivial, trivial⟩ rfl).step
      (a := .query Sample.loaded 10) ⟨same, fun _ _ => by decide⟩ rfl).step
      (a := .query Sample.loaded 11) ⟨same, fun _ _ => by decide⟩ rfl
  refine ⟨_, _, _, rfl, rfl, rfl, ?_⟩
  exact dispatch_honoursFilter (Sample.answers 0) Sample.dispatch 1 ⟨rfl, by decide, rfl, rfl⟩ reached same rfl

/-- With a filter that matches neither of them, the reported clone is run all the same. -/
theorem dispatch_ignores_filter :
    ¬∀ (rt₀ rt : Runtime) (start icpt icpt' : Interceptor) (env : FixupEnv) (packet : Packet) (queue : Queue)
      (fixup : Fixup), start.Unloaded → Reachable Interceptor.step (fun _ event => event.Steady rt₀) start icpt →
      rt.SameSymbols rt₀ → icpt.dispatch rt env packet queue = (icpt', .ok (some fixup)) →
      HonoursFilter rt₀ icpt packet fixup := by
  intro claim
  have same : Sample.loaded.SameSymbols Sample.loaded := ⟨rfl, rfl, rfl, rfl, rfl, rfl⟩
  have reached : Reachable Interceptor.step (fun _ event => event.Steady Sample.loaded) (Sample.starting "gemm") _ :=
    ((Reachable.start.step (a := .createQueue 1 1) trivial rfl).step
      (a := .query Sample.loaded 10) same rfl).step (a := .query Sample.loaded 11) same rfl
  have honours := claim Sample.loaded Sample.loaded (Sample.starting "gemm") _ _ (Sample.answers 0) Sample.dispatch 1 _
    ⟨rfl, by decide, rfl, rfl⟩ reached same rfl
  obtain ⟨known, recorded, selected, -⟩ := honours.1 rfl
  have original : known = reportedKernel Sample.loaded 10 := (Option.some.inj recorded).symm
  rw [original] at selected
  exact absurd selected (by decide)

end Omniprobe
