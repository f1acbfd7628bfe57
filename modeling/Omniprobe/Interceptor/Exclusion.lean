import Omniprobe.Filter.Glob
import Omniprobe.Interceptor.Filter

/-!
# Excluded libraries

The startup scan passes over the files that the library filter excludes, and the symbol hook asks
`isKernelFromExcludedFile` before it registers a kernel. The two take the path of a file from
different places: the hook cuts it out of the loader's URI, where it is percent-encoded.
-/

namespace Omniprobe
open Lib

/-! ### Where a kernel is from -/

/-- The loader's URI for a code object in a file, with an optional fragment. -/
def LoadedCodeObject.LoadedFrom (codeObject : LoadedCodeObject) (path : Text) : Prop :=
  ∃ fragment, (fragment = [] ∨ fragment.head? = some '#') ∧
    codeObject.uri = some ("file://".toList ++ Text.percentEncode path ++ fragment)

theorem uriPath_of_fragment {encoded fragment : Text} (inside : '#' ∉ encoded)
    (shape : fragment = [] ∨ fragment.head? = some '#') :
    CoCache.uriPath ("file://".toList ++ encoded ++ fragment) = some encoded := by
  have kept : ∀ c ∈ encoded, (c != '#') = true := by
    intro c member
    rw [bne_iff_ne]
    rintro rfl
    exact inside member
  have cut : (encoded ++ fragment).takeWhile (· != '#') = encoded := by
    rw [List.takeWhile_append_of_pos kept]
    cases fragment with
    | nil => exact List.append_nil _
    | cons c rest =>
      obtain rfl : c = '#' := by simpa using shape
      simp
  rw [CoCache.uriPath, List.append_assoc, if_pos (List.isPrefixOf_iff_prefix.mpr (List.prefix_append _ _))]
  exact congrArg some cut

/-- The hook sees the path as the URI spells it. -/
theorem codeObjectExcluded_of_loadedFrom {codeObject : LoadedCodeObject} {path : Text} (filter : LibraryFilter)
    (source : codeObject.LoadedFrom path) :
    CoCache.codeObjectExcluded filter codeObject = filter.isExcluded (Text.percentEncode path) := by
  obtain ⟨fragment, shape, uri⟩ := source
  have seen := uriPath_of_fragment (Text.hash_not_mem_percentEncode path) shape
  rw [CoCache.codeObjectExcluded, uri, Option.bind_some, seen]

/-- What the constructor learns from the process and from the filter's include lists. -/
structure Process where
  gpus : List Agent
  executable : BinaryFile
  sharedLibraries : List BinaryFile
  includedFiles : List BinaryFile
  includedFilesWithDeps : List BinaryFile

def startupFiles (filter : LibraryFilter) (process : Process) : List BinaryFile :=
  process.executable :: process.sharedLibraries ++
    if filter.active then process.includedFiles ++ process.includedFilesWithDeps else []

def skipsFile (filter : LibraryFilter) (file : BinaryFile) : Bool := filter.active && filter.isExcluded file.name

def scanFile (rt : Runtime) (agent : Agent) (icpt : Interceptor) (file : BinaryFile) : Option Interceptor :=
  if skipsFile icpt.libraryFilter file then some icpt
  else (icpt.kernelCache.addFile rt agent icpt.filter file).map fun cache => { icpt with kernelCache := cache }

/-- The constructor's scan when no kernel cache directory is given. -/
def startup (rt : Runtime) (process : Process) (icpt : Interceptor) : Option Interceptor :=
  process.gpus.foldlM
    (fun icpt agent => (startupFiles icpt.libraryFilter process).foldlM (scanFile rt agent) icpt) icpt

/-- The symbols that the constructor's scan comes to. -/
def startupScans (rt : Runtime) (filter : LibraryFilter) (process : Process) : List CoCache.Scan :=
  process.gpus.flatMap fun agent =>
    ((startupFiles filter process).filter fun file => !skipsFile filter file).flatMap (CoCache.scans rt agent)

/-- The file that a kernel is from. The cache loads what it extracts from a scanned file itself; of every
other code object the loader names the file. -/
def FromFile (rt : Runtime) (scans : List CoCache.Scan) (object : KernelObject) (path : Text) : Prop :=
  (∃ scan ∈ scans, rt.symbolKernelObject scan.symbol = object ∧ scan.file = path) ∨
  (∀ scan ∈ scans, rt.symbolKernelObject scan.symbol ≠ object) ∧
    ∃ executable, rt.queryExecutable object = some executable ∧
      ∃ codeObject ∈ rt.loadedCodeObjects executable, codeObject.LoadedFrom path

/-! ### The startup scan as events -/

theorem scanFile_frame {rt : Runtime} {agent : Agent} {icpt icpt' : Interceptor} {file : BinaryFile}
    (h : scanFile rt agent icpt file = some icpt') : ∃ cache, icpt' = { icpt with kernelCache := cache } := by
  unfold scanFile at h
  split at h
  · exact ⟨_, (Option.some.inj h).symm⟩
  · obtain ⟨cache, -, rfl⟩ := Option.map_eq_some_iff.mp h
    exact ⟨cache, rfl⟩

/-- The call of `addFile` in the constructor. -/
def addScanned (rt : Runtime) (agent : Agent) (icpt : Interceptor) (file : BinaryFile) : Option Interceptor :=
  (icpt.kernelCache.addFile rt agent icpt.filter file).map fun cache => { icpt with kernelCache := cache }

theorem foldlM_scanFile (rt : Runtime) (agent : Agent) (files : List BinaryFile) (icpt : Interceptor) :
    files.foldlM (scanFile rt agent) icpt =
      (files.filter fun file => !skipsFile icpt.libraryFilter file).foldlM (addScanned rt agent) icpt := by
  induction files generalizing icpt with
  | nil => rfl
  | cons file rest ih =>
    rw [List.foldlM_cons, List.filter_cons]
    by_cases skipped : skipsFile icpt.libraryFilter file = true
    · rw [scanFile, if_pos skipped, skipped]
      exact ih icpt
    · have scanned : scanFile rt agent icpt file = addScanned rt agent icpt file := by
        rw [scanFile, if_neg skipped, addScanned]
      rw [if_pos (by simpa using skipped), List.foldlM_cons, scanned]
      refine Option.bind_congr fun next taken => ?_
      obtain ⟨cache, rfl⟩ := scanFile_frame (scanned.trans taken)
      exact ih { icpt with kernelCache := cache }

theorem run_scansOfFiles (rt : Runtime) (agent : Agent) (files : List BinaryFile) (icpt : Interceptor) :
    run Interceptor.step icpt ((files.flatMap (CoCache.scans rt agent)).map .addSymbol) =
      files.foldlM (addScanned rt agent) icpt := by
  induction files generalizing icpt with
  | nil => rfl
  | cons file rest ih =>
    have scanned : run Interceptor.step icpt (scanEvents rt agent file) = addScanned rt agent icpt file :=
      run_scanEvents rt agent file icpt
    rw [List.flatMap_cons, List.map_append, run_append, List.foldlM_cons, ← scanned]
    exact Option.bind_congr fun next _ => ih next

theorem run_scanFiles (rt : Runtime) (agent : Agent) (files : List BinaryFile) (icpt : Interceptor) :
    run Interceptor.step icpt
        (((files.filter fun file => !skipsFile icpt.libraryFilter file).flatMap (CoCache.scans rt agent)).map
          .addSymbol) =
      files.foldlM (scanFile rt agent) icpt := by
  rw [run_scansOfFiles, foldlM_scanFile]

theorem scanFiles_frame {rt : Runtime} {agent : Agent} {files : List BinaryFile} {icpt icpt' : Interceptor}
    (h : files.foldlM (scanFile rt agent) icpt = some icpt') : icpt'.libraryFilter = icpt.libraryFilter := by
  induction files generalizing icpt with
  | nil =>
    obtain rfl := Option.some.inj h
    rfl
  | cons file rest ih =>
    rw [List.foldlM_cons] at h
    obtain ⟨next, taken, later⟩ := Option.bind_eq_some_iff.mp h
    obtain ⟨cache, rfl⟩ := scanFile_frame taken
    have kept := ih later
    exact kept

theorem run_startupScans (rt : Runtime) (process : Process) (icpt : Interceptor) :
    run Interceptor.step icpt ((startupScans rt icpt.libraryFilter process).map .addSymbol) =
      startup rt process icpt := by
  unfold startupScans startup
  induction process.gpus generalizing icpt with
  | nil => rfl
  | cons agent rest ih =>
    rw [List.flatMap_cons, List.map_append, run_append, run_scanFiles, List.foldlM_cons]
    refine Option.bind_congr fun next taken => ?_
    rw [← scanFiles_frame taken]
    exact ih next

theorem scan_not_excluded {rt : Runtime} {filter : LibraryFilter} {process : Process} {scan : CoCache.Scan}
    (member : scan ∈ startupScans rt filter process) : filter.isExcluded scan.file = false := by
  obtain ⟨agent, -, scanned⟩ := List.mem_flatMap.mp member
  obtain ⟨file, passed, within⟩ := List.mem_flatMap.mp scanned
  obtain ⟨codeObject, -, symbols⟩ := List.mem_flatMap.mp within
  obtain ⟨symbol, -, rfl⟩ := List.mem_map.mp symbols
  have kept : skipsFile filter file = false := by
    simpa only [Bool.not_eq_true'] using (List.mem_filter.mp passed).2
  -- An inactive filter excludes nothing, so the test of `active` adds nothing to `isExcluded`.
  cases active : filter.active with
  | false => simp [LibraryFilter.isExcluded, active]
  | true => simpa only [skipsFile, active, Bool.true_and] using kept

/-! ### What the calls keep of the exclusions -/

theorem isKernelFromExcludedFile_cases (rt : Runtime) (cache : CoCache) (object : KernelObject)
    (filter : LibraryFilter) :
    cache.isKernelFromExcludedFile rt object filter = (cache, false) ∧ rt.queryExecutable object = none ∨
    ∃ executable, rt.queryExecutable object = some executable ∧
      ((∃ verdict, cache.excludedExecutableCache[executable]? = some verdict ∧
        cache.isKernelFromExcludedFile rt object filter = (cache, verdict)) ∨
      ∃ verdict, verdict = (rt.loadedCodeObjects executable).any (CoCache.codeObjectExcluded filter) ∧
        cache.isKernelFromExcludedFile rt object filter =
          ({ cache with excludedExecutableCache := cache.excludedExecutableCache.insert executable verdict },
            verdict)) := by
  unfold CoCache.isKernelFromExcludedFile
  cases rt.queryExecutable object with
  | none => exact Or.inl ⟨rfl, rfl⟩
  | some executable =>
    refine Or.inr ⟨executable, rfl, ?_⟩
    dsimp only
    cases cache.excludedExecutableCache[executable]? with
    | some verdict => exact Or.inl ⟨verdict, rfl, rfl⟩
    | none => exact Or.inr ⟨_, rfl, rfl⟩

theorem registerRuntimeKernel_excluded (cache : CoCache) (name : Text) (symbol : Symbol) (object : KernelObject)
    (agent : Agent) (size : UInt32) :
    (cache.registerRuntimeKernel name symbol object agent size).excludedExecutableCache =
      cache.excludedExecutableCache := by
  rcases CoCache.registerRuntimeKernel_cases cache name symbol object agent size with ⟨-, kept⟩ | ⟨-, entered⟩
  · rw [kept]
  · rw [entered]

theorem queryKernelObject_excluded (rt : Runtime) (icpt : Interceptor) (symbol : Symbol) :
    (queryKernelObject rt icpt symbol).libraryFilter = icpt.libraryFilter ∧
    ((queryKernelObject rt icpt symbol).kernelCache.excludedExecutableCache =
        icpt.kernelCache.excludedExecutableCache ∨
      rt.knowsSymbol symbol = true ∧
        (queryKernelObject rt icpt symbol).kernelCache.excludedExecutableCache =
          (skipsRegistration rt icpt (rt.symbolKernelObject symbol)).1.excludedExecutableCache) := by
  rcases queryKernelObject_cases rt icpt symbol with ⟨kept, -⟩ | ⟨knows, -, recorded⟩
  · rw [kept]
    exact ⟨rfl, Or.inl rfl⟩
  · rw [recorded, recordedCache]
    refine ⟨rfl, ?_⟩
    dsimp only
    split
    · refine Or.inr ⟨knows, ?_⟩
      split
      · rfl
      · exact registerRuntimeKernel_excluded _ _ _ _ _ _
    · exact Or.inl rfl

section
variable {rt : Runtime} {env : FixupEnv} {icpt icpt' : Interceptor} {packet : Packet} {queue : Queue}
  {agent : Agent} {sig : Signal} {dispatchId : UInt64}

theorem swapKernel_excluded {outcome : Outcome Fixup}
    (h : swapKernel rt env icpt packet agent sig dispatchId = (icpt', outcome)) (mode : icpt.runInstrumented = true) :
    icpt'.kernelCache.excludedExecutableCache = icpt.kernelCache.excludedExecutableCache := by
  rcases swapKernel_cases h with ⟨rfl, -⟩ | ⟨known, cache, alternative, dispatcher, -, found, cases⟩
  · rfl
  · rw [findKernelAlternative, if_pos mode] at found
    obtain ⟨alternatives, sizes, rfl, -⟩ := CoCache.findInstrumentedAlternative_cases found
    rcases cases with ⟨rfl, -⟩ | ⟨-, -, swapped⟩
    · rfl
    · obtain ⟨⟨argMap, changed⟩, -⟩ := instrument_uses swapped
      rw [changed]

/-- A dispatch decides about no executable. -/
theorem fixupPacket_excluded {outcome : Outcome (Option Fixup)}
    (h : fixupPacket rt env icpt packet queue dispatchId = (icpt', outcome)) (mode : icpt.runInstrumented = true) :
    icpt'.libraryFilter = icpt.libraryFilter ∧
      icpt'.kernelCache.excludedExecutableCache = icpt.kernelCache.excludedExecutableCache := by
  rcases fixupPacket_cases h with ⟨⟨pool, rfl⟩, -⟩ | ⟨sig, swapped, result, -, swap, cases⟩
  · exact ⟨rfl, rfl⟩
  · have kept := swapKernel_excluded swap mode
    obtain ⟨_, _, _, rfl, -⟩ := swapKernel_frame swap
    rcases cases with ⟨rfl | rfl, -⟩ | ⟨fixup, -, rfl, -⟩
    · exact ⟨rfl, kept⟩
    · exact ⟨rfl, kept⟩
    · exact ⟨rfl, kept⟩

end

/-! ### Runs in which the hook recognises what is excluded -/

/-- No handle is reused: a symbol keeps its kernel object, a kernel its executable and an executable its
code objects. -/
structure Runtime.SameExecutables (rt rt₀ : Runtime) : Prop where
  symbolKernelObject : rt.symbolKernelObject = rt₀.symbolKernelObject
  queryExecutable : ∀ symbol, rt.knowsSymbol symbol = true →
    rt.queryExecutable (rt.symbolKernelObject symbol) = rt₀.queryExecutable (rt₀.symbolKernelObject symbol)
  loadedCodeObjects : ∀ symbol executable, rt.knowsSymbol symbol = true →
    rt.queryExecutable (rt.symbolKernelObject symbol) = some executable →
    rt.loadedCodeObjects executable = rt₀.loadedCodeObjects executable

/-- The scans are the startup scans, and the loader's answers about executables are those of `rt₀`. -/
def Event.Genuine (rt₀ : Runtime) (scans : List CoCache.Scan) : Event → Prop
  | .addSymbol scan => scan ∈ scans
  | .query rt _ => rt.SameExecutables rt₀
  | .createQueue _ _ => True
  | .dispatch rt _ _ _ => rt.SameExecutables rt₀

/-- An executable with a code object from an excluded file has one whose percent-encoded path is excluded. -/
def Recognisable (filter : LibraryFilter) (codeObjects : List LoadedCodeObject) : Prop :=
  (∃ codeObject ∈ codeObjects, ∃ path, codeObject.LoadedFrom path ∧ filter.isExcluded path = true) →
    ∃ codeObject ∈ codeObjects, ∃ path, codeObject.LoadedFrom path ∧ filter.isExcluded (Text.percentEncode path) = true

/-- Where nothing is encoded, the hook and the startup scan see the same path. -/
theorem recognisable_of_plain (filter : LibraryFilter) {codeObjects : List LoadedCodeObject}
    (plain : ∀ codeObject ∈ codeObjects, ∀ uri, codeObject.uri = some uri → '%' ∉ uri) :
    Recognisable filter codeObjects := by
  rintro ⟨codeObject, loaded, path, source, excluded⟩
  refine ⟨codeObject, loaded, path, source, ?_⟩
  obtain ⟨fragment, -, uri⟩ := source
  have absent := plain codeObject loaded _ uri
  rw [List.mem_append, List.mem_append, not_or, not_or] at absent
  rw [Text.percentEncode_eq_self absent.1.2]
  exact excluded

/-- The kernels that the hook is asked about are in recognisable executables. -/
def AsksRecognisable (icpt : Interceptor) : Event → Prop
  | .query rt symbol => rt.knowsSymbol symbol = true → ∀ executable,
    rt.queryExecutable (rt.symbolKernelObject symbol) = some executable →
    Recognisable icpt.libraryFilter (rt.loadedCodeObjects executable)
  | _ => True

def RespectsExclusion (rt₀ : Runtime) (scans : List CoCache.Scan) (icpt : Interceptor) (event : Event) : Prop :=
  event.Genuine rt₀ scans ∧ AsksRecognisable icpt event

def Allowed (rt₀ : Runtime) (scans : List CoCache.Scan) (filter : LibraryFilter) (object : KernelObject) : Prop :=
  ∀ path, FromFile rt₀ scans object path → filter.isExcluded path = false

structure Unpolluted (rt₀ : Runtime) (scans : List CoCache.Scan) (filter : LibraryFilter) (icpt : Interceptor) :
    Prop where
  configured : icpt.libraryFilter = filter
  mode : icpt.runInstrumented = true
  decided : ∀ (executable : Executable) verdict,
    icpt.kernelCache.excludedExecutableCache[executable]? = some verdict →
    verdict = (rt₀.loadedCodeObjects executable).any (CoCache.codeObjectExcluded filter)
  linked : ∀ agent name symbol, find₂ icpt.kernelCache.lookupMap agent name = some symbol →
    Allowed rt₀ scans filter (rt₀.symbolKernelObject symbol)
  memo : ∀ agent symbol object, find₂ icpt.kernelCache.alternatives agent symbol = some object →
    Allowed rt₀ scans filter object

section
variable {rt₀ : Runtime} {scans : List CoCache.Scan} {filter : LibraryFilter} {icpt icpt' : Interceptor}

theorem allowed_of_scan (passed : ∀ scan ∈ scans, filter.isExcluded scan.file = false) {scan : CoCache.Scan}
    (member : scan ∈ scans) : Allowed rt₀ scans filter (rt₀.symbolKernelObject scan.symbol) := by
  intro path source
  rcases source with ⟨other, scanned, -, rfl⟩ | ⟨unscanned, -⟩
  · exact passed other scanned
  · exact absurd rfl (unscanned scan member)

/-- What `isKernelFromExcludedFile` answers is what the code objects of the executable say, from the cache
or not. -/
theorem Unpolluted.verdict (ok : Unpolluted rt₀ scans filter icpt) {rt : Runtime} {symbol : Symbol}
    (same : rt.SameExecutables rt₀) (knows : rt.knowsSymbol symbol = true) {executable : Executable}
    (owner : rt.queryExecutable (rt.symbolKernelObject symbol) = some executable) :
    (icpt.kernelCache.isKernelFromExcludedFile rt (rt.symbolKernelObject symbol) filter).2 =
      (rt₀.loadedCodeObjects executable).any (CoCache.codeObjectExcluded filter) := by
  rcases isKernelFromExcludedFile_cases rt icpt.kernelCache (rt.symbolKernelObject symbol) filter with
    ⟨-, unknown⟩ | ⟨other, found, answer⟩
  · rw [owner] at unknown
    cases unknown
  · obtain rfl : executable = other := Option.some.inj (owner.symm.trans found)
    rcases answer with ⟨verdict, cached, answer⟩ | ⟨verdict, rfl, answer⟩
    · rw [answer]
      exact ok.decided executable verdict cached
    · rw [answer, same.loadedCodeObjects symbol executable knows owner]

theorem Unpolluted.registered (ok : Unpolluted rt₀ scans filter icpt)
    (passed : ∀ scan ∈ scans, filter.isExcluded scan.file = false) {rt : Runtime} {symbol : Symbol}
    (respects : RespectsExclusion rt₀ scans icpt (.query rt symbol)) (enters : registers rt icpt symbol = true) :
    Allowed rt₀ scans filter (rt₀.symbolKernelObject symbol) := by
  obtain ⟨same, recognisable⟩ := respects
  simp only [registers, Bool.and_eq_true, Bool.not_eq_true'] at enters
  obtain ⟨⟨⟨knows, -⟩, registered⟩, -⟩ := enters
  intro path source
  rcases source with ⟨scan, scanned, -, rfl⟩ | ⟨-, executable, owner, codeObject, loaded, source⟩
  · exact passed scan scanned
  · by_contra excluded
    rw [Bool.not_eq_false] at excluded
    rw [← same.queryExecutable symbol knows] at owner
    have objects := same.loadedCodeObjects symbol executable knows owner
    have seen := recognisable knows executable owner
    rw [ok.configured, objects] at seen
    obtain ⟨other, present, name, named, found⟩ := seen ⟨codeObject, loaded, path, source, excluded⟩
    have active : icpt.libraryFilter.active = true := by
      rw [ok.configured]
      exact (Bool.and_eq_true_iff.mp excluded).1
    have verdict := ok.verdict same knows owner
    rw [skipsRegistration, if_pos active, ok.configured, verdict, List.any_eq_false] at registered
    exact registered other present ((codeObjectExcluded_of_loadedFrom filter named).trans found)

theorem Unpolluted.addSymbol (ok : Unpolluted rt₀ scans filter icpt)
    (passed : ∀ scan ∈ scans, filter.isExcluded scan.file = false) {scan : CoCache.Scan} {cache : CoCache}
    (member : scan ∈ scans) (h : scan.add icpt.filter icpt.kernelCache = some cache) :
    Unpolluted rt₀ scans filter { icpt with kernelCache := cache } := by
  rcases CoCache.Scan.add_cases h with ⟨-, rfl⟩ | ⟨-, rfl⟩
  · exact ok
  · refine ⟨ok.configured, ok.mode, ok.decided, ?_, ok.memo⟩
    intro agent name symbol found
    dsimp only at found
    rw [find₂_insert₂] at found
    split at found
    · obtain rfl := Option.some.inj found
      exact allowed_of_scan passed member
    · exact ok.linked agent name symbol found

theorem Unpolluted.query (ok : Unpolluted rt₀ scans filter icpt)
    (passed : ∀ scan ∈ scans, filter.isExcluded scan.file = false) {rt : Runtime} {symbol : Symbol}
    (respects : RespectsExclusion rt₀ scans icpt (.query rt symbol)) :
    Unpolluted rt₀ scans filter (queryKernelObject rt icpt symbol) := by
  obtain ⟨sameFilter, sameVerdicts⟩ := queryKernelObject_excluded rt icpt symbol
  have decided : ∀ (executable : Executable) verdict,
      (queryKernelObject rt icpt symbol).kernelCache.excludedExecutableCache[executable]? = some verdict →
      verdict = (rt₀.loadedCodeObjects executable).any (CoCache.codeObjectExcluded filter) := by
    intro executable verdict found
    rcases sameVerdicts with kept | ⟨knows, asked⟩
    · rw [kept] at found
      exact ok.decided executable verdict found
    · rw [asked, skipsRegistration] at found
      split at found
      · rw [ok.configured] at found
        rcases isKernelFromExcludedFile_cases rt icpt.kernelCache (rt.symbolKernelObject symbol) filter with
          ⟨answer, -⟩ | ⟨owner, owned, ⟨_, -, answer⟩ | ⟨_, rfl, answer⟩⟩
        · rw [answer] at found
          exact ok.decided executable verdict found
        · rw [answer] at found
          exact ok.decided executable verdict found
        · rw [answer] at found
          dsimp only at found
          rw [find_insert] at found
          split at found
          · rename_i here
            rw [← Option.some.inj found, ← here, respects.1.loadedCodeObjects symbol owner knows owned]
          · exact ok.decided executable verdict found
      · exact ok.decided executable verdict found
  rcases queryKernelObject_links rt icpt symbol ok.mode with kept | ⟨lookupMap, _, _, _, changed, lookup⟩
  · rw [kept]
    exact ok
  · refine ⟨sameFilter.trans ok.configured, by rw [changed]; exact ok.mode, decided, ?_, ?_⟩
    · rw [changed]
      intro agent name symbol' found
      dsimp only at found
      rcases lookup with rfl | ⟨enters, rfl⟩
      · exact ok.linked agent name symbol' found
      · rw [find₂_insert₂] at found
        split at found
        · obtain rfl := Option.some.inj found
          exact ok.registered passed respects enters
        · exact ok.linked agent name symbol' found
    · rw [changed]
      exact ok.memo

theorem Unpolluted.finds (ok : Unpolluted rt₀ scans filter icpt) {rt : Runtime} (same : rt.SameExecutables rt₀)
    {symbol : Symbol} {name : Text} {agent : Agent} {object : KernelObject}
    (finds : icpt.kernelCache.Finds rt symbol name agent object) : Allowed rt₀ scans filter object := by
  rcases finds.2 with memo | ⟨alternative, -, found, rfl⟩
  · exact ok.memo _ _ _ memo
  · rw [same.symbolKernelObject]
    exact ok.linked _ _ _ found

theorem Unpolluted.dispatch (ok : Unpolluted rt₀ scans filter icpt) {rt : Runtime} {env : FixupEnv} {packet : Packet}
    {queue : Queue} {outcome : Outcome (Option Fixup)} (same : rt.SameExecutables rt₀)
    (h : icpt.dispatch rt env packet queue = (icpt', outcome)) : Unpolluted rt₀ scans filter icpt' := by
  obtain ⟨agent, uses, -, mode, -⟩ := fixupPacket_uses h ok.mode
  obtain ⟨sameFilter, sameVerdicts⟩ := fixupPacket_excluded h ok.mode
  refine ⟨sameFilter.trans ok.configured, mode.trans ok.mode, ?_, ?_, ?_⟩
  · rw [sameVerdicts]
    exact ok.decided
  · rw [uses.lookup]
    exact ok.linked
  · intro a s object found
    rcases uses.memo a s object found with old | ⟨known, -, -, finds⟩
    · exact ok.memo a s object old
    · exact ok.finds same finds

theorem Unpolluted.step (ok : Unpolluted rt₀ scans filter icpt)
    (passed : ∀ scan ∈ scans, filter.isExcluded scan.file = false) {event : Event}
    (respects : RespectsExclusion rt₀ scans icpt event) (h : icpt.step event = some icpt') :
    Unpolluted rt₀ scans filter icpt' := by
  cases event with
  | addSymbol scan =>
    obtain ⟨cache, added, rfl⟩ := Option.map_eq_some_iff.mp h
    exact ok.addSymbol passed respects.1 added
  | query rt symbol =>
    obtain rfl := Option.some.inj h
    exact ok.query passed respects
  | createQueue queue agent =>
    obtain rfl := Option.some.inj h
    exact ⟨ok.configured, ok.mode, ok.decided, ok.linked, ok.memo⟩
  | dispatch rt env packet queue =>
    simp only [Interceptor.step] at h
    generalize call : icpt.dispatch rt env packet queue = result at h
    obtain ⟨after, outcome⟩ := result
    have kept := ok.dispatch respects.1 call
    cases outcome with
    | aborted => cases h
    | ok value => exact Option.some.inj h ▸ kept
    | threw => exact Option.some.inj h ▸ kept

end

/-! ### Every run -/

theorem Unpolluted.initial {start : Interceptor} (rt₀ : Runtime) (scans : List CoCache.Scan)
    (empty : start.kernelCache = {}) (mode : start.runInstrumented = true) :
    Unpolluted rt₀ scans start.libraryFilter start where
  configured := rfl
  mode := mode
  decided := by simp [empty]
  linked := by simp [empty, find₂_empty]
  memo := by simp [empty, find₂_empty]

/-- No kernel object that `findInstrumentedAlternative` answers is from an excluded file. -/
theorem findInstrumentedAlternative_not_excluded {rtₛ rt₀ rt : Runtime} {process : Process} {start icpt : Interceptor}
    {symbol : Symbol} {name path : Text} {agent : Agent} {cache : CoCache} {object : KernelObject}
    (empty : start.kernelCache = {}) (mode : start.runInstrumented = true)
    (reachable : Reachable Interceptor.step
      (RespectsExclusion rt₀ (startupScans rtₛ start.libraryFilter process)) start icpt)
    (same : rt.SameExecutables rt₀)
    (found : icpt.kernelCache.findInstrumentedAlternative rt symbol name agent = some (cache, object))
    (answered : object ≠ 0)
    (source : FromFile rt₀ (startupScans rtₛ start.libraryFilter process) object path) :
    start.libraryFilter.isExcluded path = false := by
  have ok := reachable.invariant (Unpolluted.initial rt₀ _ empty mode)
    fun _ _ _ ok respects taken => ok.step (fun _ => scan_not_excluded) respects taken
  obtain ⟨_, _, -, ⟨zero, -⟩ | ⟨finds, -⟩⟩ := CoCache.findInstrumentedAlternative_cases found
  · exact absurd zero answered
  · exact ok.finds same finds path source

namespace Sample

def excluding (pattern : String) : Interceptor :=
  { start with libraryFilter := ⟨true, (LibraryFilter.globToRegex pattern.toList).toList⟩ }

/-- The application and a library that have a kernel and its clone each, under the same names. -/
def deployed (library : String) : Runtime :=
  { runtime with
    symbolName := fun symbol => if symbol % 10 = 0 then "f(int)".toList else "__amd_crk_f(int, void*)".toList
    queryExecutable := fun object => some (object / 100)
    loadedCodeObjects := fun executable =>
      if executable = 1 then [⟨some "file:///app#offset=4096&size=512".toList, none⟩]
      else [⟨some library.toList, none⟩] }

/-- The library's kernels are queried before those of the application. -/
def queries (library : String) : List Event := [20, 21, 10, 11].map (.query (deployed library))

def application (library : String) : Process := ⟨[1], ⟨"/app".toList, []⟩, [⟨library.toList, []⟩], [], []⟩

theorem deployed_same (library : String) : (deployed library).SameExecutables (deployed library) :=
  ⟨rfl, fun _ _ => rfl, fun _ _ _ _ => rfl⟩

end Sample

theorem findInstrumentedAlternative_not_excluded_sample :
    ∃ icpt cache, run Interceptor.step (Sample.excluding "/opt/**") (Sample.queries "file:///opt/rocm/libk.so") =
        some icpt ∧
      icpt.kernelCache.findInstrumentedAlternative (Sample.deployed "file:///opt/rocm/libk.so") 20 "f(int)".toList 1 =
        some (cache, 110) ∧
      (Sample.excluding "/opt/**").libraryFilter.isExcluded "/app".toList = false := by
  have reached : ∀ icpt,
      run Interceptor.step (Sample.excluding "/opt/**") (Sample.queries "file:///opt/rocm/libk.so") = some icpt →
      Reachable Interceptor.step (RespectsExclusion (Sample.deployed "file:///opt/rocm/libk.so")
        (startupScans Sample.runtime (Sample.excluding "/opt/**").libraryFilter
          (Sample.application "/opt/rocm/libk.so"))) (Sample.excluding "/opt/**") icpt := by
    intro icpt ran
    refine Reachable.start.of_run (meets_of_forall _ ?_) ran
    intro event member state
    obtain ⟨symbol, -, rfl⟩ := List.mem_map.mp member
    refine ⟨Sample.deployed_same _, fun _ executable _ => recognisable_of_plain _ ?_⟩
    intro codeObject loaded uri named
    simp only [Sample.deployed] at loaded
    split at loaded <;> obtain rfl := List.mem_singleton.mp loaded <;> obtain rfl := Option.some.inj named <;> decide
  obtain ⟨icpt, cache, ran, found⟩ : ∃ icpt cache,
      run Interceptor.step (Sample.excluding "/opt/**") (Sample.queries "file:///opt/rocm/libk.so") = some icpt ∧
      icpt.kernelCache.findInstrumentedAlternative (Sample.deployed "file:///opt/rocm/libk.so") 20 "f(int)".toList 1 =
        some (cache, 110) := ⟨_, _, rfl, rfl⟩
  refine ⟨icpt, cache, ran, found, findInstrumentedAlternative_not_excluded rfl rfl (reached icpt ran)
    (Sample.deployed_same _) found (by decide)
    (Or.inr ⟨?_, 1, rfl, _, List.mem_cons_self, "#offset=4096&size=512".toList, Or.inr rfl, rfl⟩)⟩
  intro scan member
  exact absurd member List.not_mem_nil

/-- The space in the library's path is written as `%20` in its URI, so the hook does not recognise it. -/
theorem findInstrumentedAlternative_excluded :
    ¬∀ (rtₛ rt₀ rt : Runtime) (process : Process) (start icpt : Interceptor) (symbol : Symbol) (name path : Text)
      (agent : Agent) (cache : CoCache) (object : KernelObject), start.kernelCache = {} → start.runInstrumented = true →
      Reachable Interceptor.step
        (fun _ event => event.Genuine rt₀ (startupScans rtₛ start.libraryFilter process)) start icpt →
      rt.SameExecutables rt₀ →
      icpt.kernelCache.findInstrumentedAlternative rt symbol name agent = some (cache, object) → object ≠ 0 →
      FromFile rt₀ (startupScans rtₛ start.libraryFilter process) object path →
      start.libraryFilter.isExcluded path = false := by
  intro claim
  have reached : ∀ icpt,
      run Interceptor.step (Sample.excluding "/opt/my lib/*") (Sample.queries "file:///opt/my%20lib/libk.so") =
        some icpt →
      Reachable Interceptor.step (fun _ event => event.Genuine (Sample.deployed "file:///opt/my%20lib/libk.so")
        (startupScans Sample.runtime (Sample.excluding "/opt/my lib/*").libraryFilter
          (Sample.application "/opt/my lib/libk.so"))) (Sample.excluding "/opt/my lib/*") icpt := by
    intro icpt ran
    refine Reachable.start.of_run (meets_of_forall _ ?_) ran
    intro event member state
    obtain ⟨symbol, -, rfl⟩ := List.mem_map.mp member
    exact Sample.deployed_same _
  have kept := claim Sample.runtime (Sample.deployed "file:///opt/my%20lib/libk.so")
    (Sample.deployed "file:///opt/my%20lib/libk.so") (Sample.application "/opt/my lib/libk.so")
    (Sample.excluding "/opt/my lib/*") _ 20 "f(int)".toList "/opt/my lib/libk.so".toList 1 _ 210 rfl rfl (reached _ rfl)
    (Sample.deployed_same _) rfl (by decide)
    (Or.inr ⟨fun scan member => absurd member List.not_mem_nil, 2, rfl, _, List.mem_cons_self, [], Or.inl rfl, rfl⟩)
  have excluded : (Sample.excluding "/opt/my lib/*").libraryFilter.isExcluded "/opt/my lib/libk.so".toList = true := rfl
  rw [excluded] at kept
  cases kept

end Omniprobe
