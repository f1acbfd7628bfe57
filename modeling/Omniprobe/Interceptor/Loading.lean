import Omniprobe.Cache.Calls
import Omniprobe.Interceptor.Delivery

/-!
# Kernels seen by the interceptor

The events that fill the interceptor's tables: file scans, the loader's answers to symbol
queries, and dispatches. `kernel_objects_` keeps the first record made for each kernel object.
-/

namespace Omniprobe
open Lib

/-! ### Events -/

/-- What the threads of the process do, one critical section at a time. A scan by `addCodeObject` comes
as a `query` and an `addSymbol` for each symbol, since `addFile` then asks through the hook. -/
inductive Event where
  | addSymbol (scan : CoCache.Scan)
  | query (rt : Runtime) (symbol : Symbol)
  | createQueue (queue : Queue) (agent : Agent)
  | dispatch (rt : Runtime) (env : FixupEnv) (packet : Packet) (queue : Queue)

namespace Interceptor

/-- One `fixupPacket` call of `doPackets`. -/
def dispatch (icpt : Interceptor) (rt : Runtime) (env : FixupEnv) (packet : Packet) (queue : Queue) :
    Interceptor × Outcome (Option Fixup) :=
  fixupPacket rt env { icpt with dispatchCount := icpt.dispatchCount + 1 } packet queue (icpt.dispatchCount + 1)

def step (icpt : Interceptor) : Event → Option Interceptor
  | .addSymbol scan => (scan.add icpt.filter icpt.kernelCache).map fun cache => { icpt with kernelCache := cache }
  | .query rt symbol => some (queryKernelObject rt icpt symbol)
  | .createQueue queue agent => some { icpt with queues := icpt.queues.insert queue agent }
  | .dispatch rt env packet queue =>
    match icpt.dispatch rt env packet queue with
    | (_, .aborted) => none
    | (after, _) => some after

end Interceptor

/-- A scan by the constructor, before the API table is hooked. -/
def scanEvents (rt : Runtime) (agent : Agent) (file : BinaryFile) : List Event :=
  (CoCache.scans rt agent file).map .addSymbol

/-- The events of a startup scan together do what `addFile` does. -/
theorem run_scanEvents (rt : Runtime) (agent : Agent) (file : BinaryFile) (icpt : Interceptor) :
    run Interceptor.step icpt (scanEvents rt agent file) =
      (icpt.kernelCache.addFile rt agent icpt.filter file).map fun cache => { icpt with kernelCache := cache } := by
  rw [CoCache.addFile_eq_scans, scanEvents]
  induction CoCache.scans rt agent file generalizing icpt with
  | nil => rfl
  | cons scan rest ih =>
    rw [List.map_cons, run, List.foldlM_cons, Interceptor.step]
    cases scan.add icpt.filter icpt.kernelCache with
    | none => rfl
    | some cache => exact ih { icpt with kernelCache := cache }

/-! ### Reports -/

/-- What the loader answers for a symbol: its kernel object and the record of the kernel. -/
def report (rt : Runtime) (symbol : Symbol) : Option (KernelObject × LdKernelDescriptor) :=
  if rt.knowsSymbol symbol then some (rt.symbolKernelObject symbol, reportedKernel rt symbol) else none

def Event.reports : Event → List (KernelObject × LdKernelDescriptor)
  | .query rt symbol => (report rt symbol).toList
  | _ => []

def reports (events : List Event) : List (KernelObject × LdKernelDescriptor) := events.flatMap Event.reports

def firstReport (events : List Event) (kernelObject : KernelObject) : Option LdKernelDescriptor :=
  ((reports events).find? (·.1 = kernelObject)).map Prod.snd

def lastReport (events : List Event) (kernelObject : KernelObject) : Option LdKernelDescriptor :=
  ((reports events).reverse.find? (·.1 = kernelObject)).map Prod.snd

def Event.dispatches (kernelObject : KernelObject) : Event → Bool
  | .dispatch _ _ packet _ => packet.kernelObject == kernelObject
  | _ => false

/-- No dispatch uses the kernel object before a report of it. -/
def ReportedFirst (kernelObject : KernelObject) : List Event → Prop
  | [] => True
  | event :: rest =>
    event.dispatches kernelObject = false ∧
      ((∃ known ∈ event.reports, known.1 = kernelObject) ∨ ReportedFirst kernelObject rest)

/-! ### What an event adds to `kernel_objects_` -/

theorem queryKernelObject_objects (rt : Runtime) (icpt : Interceptor) (symbol : Symbol) :
    (queryKernelObject rt icpt symbol).kernelObjects = touchAll icpt.kernelObjects (report rt symbol).toList := by
  rcases queryKernelObject_cases rt icpt symbol with ⟨kept, member⟩ | ⟨knows, absent, recorded⟩
  · rw [kept, report]
    by_cases knows : rt.knowsSymbol symbol = true
    · rw [if_pos knows]
      simp only [Option.toList_some, touchAll, List.foldl_cons, List.foldl_nil, touch, if_pos (member knows)]
    · rw [if_neg knows]
      rfl
  · have missing : rt.symbolKernelObject symbol ∉ icpt.kernelObjects := by
      rw [mem_iff_find, absent]
      simp
    rw [recorded, report, if_pos knows]
    simp only [Option.toList_some, touchAll, List.foldl_cons, List.foldl_nil, touch, if_neg missing]

theorem step_objects {icpt icpt' : Interceptor} {event : Event} (h : icpt.step event = some icpt') :
    ∃ added, icpt'.kernelObjects = touchAll icpt.kernelObjects added ∧
      ∀ kernelObject, event.dispatches kernelObject = false →
        added.find? (·.1 = kernelObject) = event.reports.find? (·.1 = kernelObject) := by
  cases event with
  | addSymbol scan =>
    obtain ⟨cache, -, rfl⟩ := Option.map_eq_some_iff.mp h
    exact ⟨[], rfl, fun _ _ => rfl⟩
  | query rt symbol =>
    obtain rfl := Option.some.inj h
    exact ⟨_, queryKernelObject_objects rt icpt symbol, fun _ _ => rfl⟩
  | createQueue queue agent =>
    obtain rfl := Option.some.inj h
    exact ⟨[], rfl, fun _ _ => rfl⟩
  | dispatch rt env packet queue =>
    simp only [Interceptor.step] at h
    generalize call : icpt.dispatch rt env packet queue = result at h
    obtain ⟨after, outcome⟩ := result
    have objects := fixupPacket_objects call
    have same : after = icpt' := by
      cases outcome with
      | aborted => cases h
      | ok value => exact Option.some.inj h
      | threw => exact Option.some.inj h
    subst same
    rcases objects with kept | blank
    · exact ⟨[], kept, fun _ _ => rfl⟩
    · refine ⟨[(packet.kernelObject, {})], blank, ?_⟩
      intro kernelObject other
      simp only [Event.dispatches, beq_eq_false_iff_ne] at other
      simp [Event.reports, other]

/-! ### Every run -/

theorem step_keeps_record {icpt icpt' : Interceptor} {event : Event} {kernelObject : KernelObject}
    {record : LdKernelDescriptor} (h : icpt.step event = some icpt')
    (present : icpt.kernelObjects[kernelObject]? = some record) :
    icpt'.kernelObjects[kernelObject]? = some record := by
  obtain ⟨added, objects, -⟩ := step_objects h
  rw [objects, find_touchAll, present, Option.some_or]

theorem run_keeps_record {icpt icpt' : Interceptor} {events : List Event} {kernelObject : KernelObject}
    {record : LdKernelDescriptor} (ran : run Interceptor.step icpt events = some icpt')
    (present : icpt.kernelObjects[kernelObject]? = some record) :
    icpt'.kernelObjects[kernelObject]? = some record := by
  induction events generalizing icpt with
  | nil =>
    obtain rfl := Option.some.inj ran
    exact present
  | cons event rest ih =>
    obtain ⟨next, taken, ran⟩ := Option.bind_eq_some_iff.mp ran
    exact ih ran (step_keeps_record taken present)

theorem firstReport_cons (event : Event) (rest : List Event) (kernelObject : KernelObject) :
    firstReport (event :: rest) kernelObject =
      ((event.reports.find? (·.1 = kernelObject)).map Prod.snd).or (firstReport rest kernelObject) := by
  rw [firstReport, reports, List.flatMap_cons, List.find?_append, Option.map_or]
  rfl

theorem run_records_firstReport {icpt icpt' : Interceptor} {events : List Event} {kernelObject : KernelObject}
    (ran : run Interceptor.step icpt events = some icpt') (absent : icpt.kernelObjects[kernelObject]? = none)
    (reported : ReportedFirst kernelObject events) :
    icpt'.kernelObjects[kernelObject]? = firstReport events kernelObject := by
  induction events generalizing icpt with
  | nil =>
    obtain rfl := Option.some.inj ran
    exact absent
  | cons event rest ih =>
    obtain ⟨next, taken, ran⟩ := Option.bind_eq_some_iff.mp ran
    obtain ⟨added, objects, same⟩ := step_objects taken
    have now : next.kernelObjects[kernelObject]? = (event.reports.find? (·.1 = kernelObject)).map Prod.snd := by
      rw [objects, find_touchAll, absent, Option.none_or, same kernelObject reported.1]
    rw [firstReport_cons]
    cases found : event.reports.find? (·.1 = kernelObject) with
    | some entry =>
      rw [found] at now
      rw [run_keeps_record ran now]
      rfl
    | none =>
      have silent : ¬∃ known ∈ event.reports, known.1 = kernelObject := by
        rintro ⟨known, member, same⟩
        exact List.find?_eq_none.mp found known member (by simpa using same)
      rw [found] at now
      rw [ih ran now (reported.2.resolve_left silent)]
      rfl

theorem firstReport_isSome_iff (events : List Event) (kernelObject : KernelObject) :
    (∃ record, firstReport events kernelObject = some record) ↔
      ∃ known ∈ reports events, known.1 = kernelObject := by
  rw [← Option.isSome_iff_exists, firstReport, Option.isSome_map, List.find?_isSome]
  simp

/-- `kernel_objects_` has an entry for a kernel object exactly when the loader reported it, and the
entry is the record of its first report. -/
theorem kernelObjects_record_reports (start icpt : Interceptor) (events : List Event)
    (kernelObject : KernelObject) (empty : start.kernelObjects = ∅)
    (ran : run Interceptor.step start events = some icpt) (reported : ReportedFirst kernelObject events) :
    (kernelObject ∈ icpt.kernelObjects ↔ ∃ known ∈ reports events, known.1 = kernelObject) ∧
      icpt.kernelObjects[kernelObject]? = firstReport events kernelObject := by
  have absent : start.kernelObjects[kernelObject]? = none := by
    rw [empty]
    exact Std.ExtTreeMap.getElem?_empty
  have first := run_records_firstReport ran absent reported
  exact ⟨by rw [mem_iff_find, first, firstReport_isSome_iff], first⟩

namespace Sample

/-- Two kernels whose code objects were loaded one after the other at the same address. -/
def reloading : Runtime :=
  { runtime with
    symbolName := fun symbol => if symbol = 10 then "f(int)".toList else "g(int)".toList
    symbolKernelObject := fun _ => 100 }

/-- The first kernel is reported and dispatched; then the second one is reported. -/
def reload : List Event :=
  [.createQueue 1 1, .query reloading 10, .dispatch reloading (answers 0) dispatch 1, .query reloading 12]

def start : Interceptor := { runInstrumented := true, sigPool := [1, 2, 3, 4, 5, 6, 7, 8] }

end Sample

theorem kernelObjects_record_reload :
    ∃ icpt, run Interceptor.step Sample.start Sample.reload = some icpt ∧
      icpt.kernelObjects[(100 : KernelObject)]? = some (reportedKernel Sample.reloading 10) := by
  have reported : ReportedFirst 100 Sample.reload :=
    ⟨rfl, Or.inr ⟨rfl, Or.inl ⟨_, List.mem_cons_self, rfl⟩⟩⟩
  exact ⟨_, rfl, (kernelObjects_record_reports Sample.start _ Sample.reload 100 rfl rfl reported).2⟩

/-- After the address is reused, the entry still holds the first kernel's record. -/
theorem kernelObjects_not_latest :
    ¬∀ (start icpt : Interceptor) (events : List Event) (kernelObject : KernelObject),
      start.kernelObjects = ∅ → run Interceptor.step start events = some icpt →
      (kernelObject ∈ icpt.kernelObjects ↔ ∃ known ∈ reports events, known.1 = kernelObject) ∧
        icpt.kernelObjects[kernelObject]? = lastReport events kernelObject := by
  intro claim
  have latest := (claim Sample.start _ Sample.reload 100 rfl rfl).2
  have stale : lastReport Sample.reload 100 = some (reportedKernel Sample.reloading 10) := latest.symm
  exact absurd stale (by decide)

end Omniprobe
