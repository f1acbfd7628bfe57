import Omniprobe.Interceptor.Dispatches
import Omniprobe.Lib.Scan

/-!
# From the options to the library

`setup_env` of the `omniprobe` script turns options into environment variables on top of the ones it has
inherited; the library reads them in the application's process.
-/

namespace Omniprobe.Script
open Lib

/-! ### The script -/

/-- `os.environ`, and what `getenv` answers in the process that is started with it. -/
abbrev Environ := Text → Option Text

def Environ.set (env : Environ) (key value : Text) : Environ := fun other => if other = key then some value else env other

/-- `parms`. An option that is not given is empty, or has its default. -/
structure Parms where
  logFormat : Text := "csv".toList
  logLocation : Text := "console".toList
  cacheLocation : Text := []
  dispatches : Text := "all".toList
  instrumented : Bool := false
  kernels : Text := []
  handlers : List Text
  filterX : Text := []
  filterY : Text := []
  filterZ : Text := []
  libraryFilter : Text := []
  instrumentationScope : Text := []
  instrumentationScopeFile : Text := []

/-- What the file system answers about the paths of the options. -/
structure Paths where
  logIsDir : Bool := false
  /-- The parent directory is there, or could be made. -/
  logParent : Bool := true
  cacheExists : Bool := true
  cacheIsDir : Bool := true
  cacheMade : Bool := true
  /-- Both files of `triton_config`. -/
  tritonFiles : Bool := true
  libraryFilterExists : Bool := true
  scopeFileExists : Bool := true
  abspath : Text → Text := id

/-- The script's own settings. `tritonPlugin` is in `triton_config`. -/
structure Install where
  preloadLib : Text
  handlerLibDir : Text
  pluginDir : Text
  rocmPath : Text
  tritonPlugin : Text

/-- `os.path.join` of two parts. -/
def joinPath (dir name : Text) : Text :=
  if name.head? = some '/' then name
  else if dir = [] ∨ dir.getLast? = some '/' then dir ++ name
  else dir ++ '/' :: name

def Install.tritonConfig (install : Install) : List (String × Text) :=
  [("TRITON_LOGGER_LEVEL", ['3']), ("TRITON_ALWAYS_COMPILE", ['1']), ("TRITON_DISABLE_LINE_INFO", ['0']),
    ("TRITON_HIP_LLD_PATH", install.rocmPath ++ "/llvm/bin/ld.lld".toList),
    ("LLVM_PASS_PLUGIN_PATH", install.tritonPlugin)]

def Install.hipConfig (install : Install) : List (String × Text) :=
  [("LLVM_PASS_PLUGIN_PATH", joinPath install.pluginDir "libAMDGCNSubmitAddressMessages-rocm.so".toList)]

/-- An entry of `analytics_config`. -/
structure Analytic where
  libName : Text
  llvmPlugin : Option Text

/-- The loop of `main` over the analyzers: the handlers' files, and the settings with the plugin of the last one that
has its own. -/
def resolveHandlers (analytics : Text → Option Analytic) : Install → List Text → Install × List Text
  | install, [] => (install, [])
  | install, h :: rest =>
    if ".so".toList.isSuffixOf h then
      let (after, handlers) := resolveHandlers analytics install rest
      (after, h :: handlers)
    else
      match analytics h with
      | some analytic =>
        let plugin := (analytic.llvmPlugin.map (joinPath install.pluginDir)).getD install.tritonPlugin
        let (after, handlers) := resolveHandlers analytics { install with tritonPlugin := plugin } rest
        (after, joinPath install.handlerLibDir analytic.libName :: handlers)
      | none => resolveHandlers analytics install rest

structure Setup where
  env : Environ
  envDump : Environ := fun _ => none

namespace Setup

/-- `env[key] = value` and `env_dump[key] = value`. -/
def set (setup : Setup) (key : String) (value : Text) : Setup where
  env := setup.env.set key.toList value
  envDump := setup.envDump.set key.toList value

def setAll (setup : Setup) (config : List (String × Text)) : Setup :=
  config.foldl (fun setup entry => setup.set entry.1 entry.2) setup

end Setup

/-- `parms.log_format` after the check. -/
def Parms.checkedFormat (parms : Parms) : Text :=
  let lower := parms.logFormat.map Char.toLower
  if lower = "csv".toList ∨ lower = "json".toList then lower else "csv".toList

def setLogFormat (parms : Parms) (setup : Setup) : Setup :=
  if parms.logFormat ≠ [] then setup.set "LOGDUR_LOG_FORMAT" parms.checkedFormat else setup

/-- `parms.log_location` after the checks. -/
def Parms.checkedLocation (paths : Paths) (parms : Parms) : Text :=
  if parms.logLocation = [] then "console".toList
  else if parms.logLocation ≠ "console".toList ∧ (paths.logIsDir ∨ ¬paths.logParent) then "console".toList
  else parms.logLocation

def setLogLocation (paths : Paths) (parms : Parms) (setup : Setup) : Setup :=
  setup.set "LOGDUR_LOG_LOCATION" (parms.checkedLocation paths)

/-- The cache directory is there, or could be made. -/
def Parms.cacheUsable (paths : Paths) (parms : Parms) : Bool :=
  parms.cacheLocation ≠ [] && if paths.cacheExists then paths.cacheIsDir else paths.cacheMade

def setCache (paths : Paths) (parms : Parms) (setup : Setup) : Setup :=
  if parms.cacheUsable paths then setup.set "LOGDUR_KERNEL_CACHE" parms.cacheLocation else setup

def setDispatches (parms : Parms) (setup : Setup) : Setup :=
  if parms.dispatches ≠ [] then setup.set "LOGDUR_DISPATCHES" parms.dispatches else setup

def Parms.assumeTriton (parms : Parms) : Bool := parms.cacheLocation ≠ []

/-- `none` where the script exits. -/
def setInstrumented (install : Install) (paths : Paths) (parms : Parms) (setup : Setup) : Option Setup :=
  if parms.instrumented then
    let setup := setup.set "LOGDUR_INSTRUMENTED" "true".toList
    if parms.assumeTriton then
      if paths.tritonFiles then some (setup.setAll install.tritonConfig) else none
    else some (setup.setAll install.hipConfig)
  else some setup

def setKernels (parms : Parms) (setup : Setup) : Setup :=
  if parms.kernels ≠ [] ∧ parms.instrumented then setup.set "LOGDUR_FILTER" parms.kernels else setup

/-- A path in front of the ones of a variable that holds a list of them. -/
def prepend (path : Text) (paths : Option Text) : Text :=
  match paths with
  | some paths => path ++ ':' :: paths
  | none => path

def setPreload (install : Install) (setup : Setup) : Setup :=
  setup.set "LD_PRELOAD" (prepend install.preloadLib (setup.env "LD_PRELOAD".toList))

/-- `','.join(handlers)`. -/
def joinHandlers (handlers : List Text) : Text := [','].intercalate handlers

def setHandlers (parms : Parms) (setup : Setup) : Setup := setup.set "LOGDUR_HANDLERS" (joinHandlers parms.handlers)

def setGiven (key : String) (value : Text) (setup : Setup) : Setup := if value ≠ [] then setup.set key value else setup

def setGroupFilters (parms : Parms) (setup : Setup) : Setup :=
  setGiven "DH_COMMS_GROUP_FILTER_Z" parms.filterZ
    (setGiven "DH_COMMS_GROUP_FILTER_Y" parms.filterY (setGiven "DH_COMMS_GROUP_FILTER_X" parms.filterX setup))

def setLibraryFilter (paths : Paths) (parms : Parms) (setup : Setup) : Setup :=
  if parms.libraryFilter ≠ [] ∧ paths.libraryFilterExists then
    setup.set "LOGDUR_LIBRARY_FILTER" (paths.abspath parms.libraryFilter)
  else setup

/-- `none` where the script exits. -/
def setScope (paths : Paths) (parms : Parms) (setup : Setup) : Option Setup :=
  if parms.instrumentationScope ≠ [] ∨ parms.instrumentationScopeFile ≠ [] then
    if ¬parms.instrumented then none
    else if ¬parms.assumeTriton then none
    else
      let setup := setGiven "INSTRUMENTATION_SCOPE" parms.instrumentationScope setup
      if parms.instrumentationScopeFile ≠ [] then
        if paths.scopeFileExists then
          some (setup.set "INSTRUMENTATION_SCOPE_FILE" (paths.abspath parms.instrumentationScopeFile))
        else none
      else some setup
  else some setup

def setLibraryPath (install : Install) (setup : Setup) : Setup :=
  setup.set "LD_LIBRARY_PATH" (prepend install.handlerLibDir (setup.env "LD_LIBRARY_PATH".toList))

/-- `none` where the script exits. -/
def setupEnv (install : Install) (paths : Paths) (inherited : Environ) (parms : Parms) : Option Setup := do
  let setup := setCache paths parms (setLogLocation paths parms (setLogFormat parms { env := inherited }))
  let setup ← setInstrumented install paths parms (setDispatches parms setup)
  let setup := setHandlers parms (setPreload install (setKernels parms setup))
  let setup ← setScope paths parms (setLibraryFilter paths parms (setGroupFilters parms setup))
  return setLibraryPath install setup

/-- `main` up to the start of the application. -/
def start (install : Install) (analytics : Text → Option Analytic) (paths : Paths) (inherited : Environ) (parms : Parms) :
    Option Setup :=
  let (install, handlers) := resolveHandlers analytics install parms.handlers
  setupEnv install paths inherited { parms with handlers }

/-! ### The library -/

/-- The loop of `split`, with the characters since the last delimiter. -/
def splitLoop (delimiter : Char) (keepBlankFields : Bool) : Text → Text → List Text
  | field, [] => if keepBlankFields ∨ field ≠ [] then [field] else []
  | field, c :: rest =>
    if delimiter = c then
      if keepBlankFields ∨ field ≠ [] then field :: splitLoop delimiter keepBlankFields [] rest
      else splitLoop delimiter keepBlankFields [] rest
    else splitLoop delimiter keepBlankFields (field ++ [c]) rest

def split (s : Text) (delimiter : Char) (keepBlankFields : Bool) : List Text := splitLoop delimiter keepBlankFields [] s

/-- The libraries that `comms_mgr::setConfig` has opened. -/
def handlerLibraries (config : Map Text Text) : List Text :=
  match config["LOGDUR_HANDLERS".toList]? with
  | some value => if value ≠ [] then split value ',' false else []
  | none => []

theorem splitLoop_eq (delimiter : Char) {field : Text} (absent : delimiter ∉ field) (s : Text) :
    splitLoop delimiter false field s = ((field ++ s).splitOn delimiter).filter (· ≠ []) := by
  induction s generalizing field with
  | nil =>
    rw [List.append_nil, List.splitOn_eq_singleton absent, splitLoop, List.filter_singleton]
    simp
  | cons c rest ih =>
    rw [splitLoop]
    by_cases same : delimiter = c
    · subst same
      rw [if_pos rfl, ih List.not_mem_nil, List.splitOn_append_cons_self_of_not_mem absent, List.filter_cons]
      by_cases empty : field = []
      · simp [empty]
      · simp [empty]
    · have longer : delimiter ∉ field ++ [c] := by simp [absent, same]
      rw [if_neg same, ih longer, List.append_assoc]
      rfl

theorem split_eq (s : Text) (delimiter : Char) :
    split s delimiter false = (s.splitOn delimiter).filter (· ≠ []) := splitLoop_eq delimiter List.not_mem_nil s

theorem splitLoop_clean {delimiter : Char} {field : Text} (absent : delimiter ∉ field) {s piece : Text}
    (member : piece ∈ splitLoop delimiter false field s) : piece ≠ [] ∧ delimiter ∉ piece := by
  induction s generalizing field with
  | nil =>
    simp only [splitLoop, Bool.false_eq_true, false_or, List.mem_ite_nil_right, List.mem_singleton] at member
    obtain ⟨filled, rfl⟩ := member
    exact ⟨filled, absent⟩
  | cons c rest ih =>
    rw [splitLoop] at member
    by_cases same : delimiter = c
    · rw [if_pos same] at member
      by_cases filled : field = []
      · rw [if_neg (by simp [filled])] at member
        exact ih List.not_mem_nil member
      · rw [if_pos (Or.inr filled), List.mem_cons] at member
        obtain rfl | member := member
        · exact ⟨filled, absent⟩
        · exact ih List.not_mem_nil member
    · rw [if_neg same] at member
      exact ih (by simp [absent, same]) member

/-- Handlers come back as they were joined exactly when none is empty or has a comma in it. -/
theorem split_joinHandlers_iff (handlers : List Text) :
    split (joinHandlers handlers) ',' false = handlers ↔ ∀ h ∈ handlers, h ≠ [] ∧ ',' ∉ h := by
  constructor
  · intro same h member
    rw [← same] at member
    exact splitLoop_clean List.not_mem_nil member
  · intro clean
    by_cases none : handlers = []
    · subst none
      rfl
    · have pieces : (joinHandlers handlers).splitOn ',' = handlers :=
        List.splitOn_intercalate ',' (fun h member => (clean h member).2) none
      rw [split_eq, pieces, List.filter_eq_self]
      exact fun h member => decide_eq_true (clean h member).1

/-! ### What the script has written -/

namespace Setup

/-- `set`, where there is something to set. -/
def assign (setup : Setup) (key : String) : Option Text → Setup
  | some value => setup.set key value
  | none => setup

def assignAll (setup : Setup) (writes : List (String × Option Text)) : Setup :=
  writes.foldl (fun setup write => setup.assign write.1 write.2) setup

theorem assignAll_append (setup : Setup) (first later : List (String × Option Text)) :
    setup.assignAll (first ++ later) = (setup.assignAll first).assignAll later := List.foldl_append

theorem setAll_eq (setup : Setup) (config : List (String × Text)) :
    setup.setAll config = setup.assignAll (config.map fun entry => (entry.1, some entry.2)) := by
  rw [assignAll, List.foldl_map]
  rfl

theorem ite_set_eq {p : Prop} [Decidable p] (setup : Setup) (key : String) (value : Text) :
    (if p then setup.set key value else setup) = setup.assign key (if p then some value else none) := by
  split <;> rfl

theorem assign_env (setup : Setup) (key : String) (value : Option Text) (other : Text) :
    (setup.assign key value).env other = if other = key.toList then value.or (setup.env other) else setup.env other := by
  cases value with
  | none => simp [assign]
  | some value => rfl

theorem assignAll_env_ne {writes : List (String × Option Text)} {key : Text}
    (unwritten : key ∉ writes.map fun write => write.1.toList) (setup : Setup) :
    (setup.assignAll writes).env key = setup.env key := by
  induction writes generalizing setup with
  | nil => rfl
  | cons write rest ih =>
    rw [List.map_cons, List.mem_cons, not_or] at unwritten
    show ((setup.assign write.1 write.2).assignAll rest).env key = setup.env key
    rw [ih unwritten.2, assign_env, if_neg unwritten.1]

/-- A key that is written once has the value written, if there was one. -/
theorem assignAll_env {writes : List (String × Option Text)} (once : (writes.map fun write => write.1.toList).Nodup)
    {key : String} {value : Option Text} (member : (key, value) ∈ writes) (setup : Setup) :
    (setup.assignAll writes).env key.toList = value.or (setup.env key.toList) := by
  induction writes generalizing setup with
  | nil => exact absurd member List.not_mem_nil
  | cons write rest ih =>
    rw [List.map_cons, List.nodup_cons] at once
    show ((setup.assign write.1 write.2).assignAll rest).env key.toList = value.or (setup.env key.toList)
    obtain same | later := List.mem_cons.mp member
    · subst same
      rw [assignAll_env_ne once.1, assign_env, if_pos rfl]
    · have different : key.toList ≠ write.1.toList := by
        intro same
        apply once.1
        rw [← same]
        exact List.mem_map_of_mem (f := fun write : String × Option Text => write.1.toList) later
      rw [ih once.2 later, assign_env, if_neg different]

end Setup

/-- What an option that may be empty asks to be written. -/
def given (value : Text) : Option Text := if value ≠ [] then some value else none

theorem setGiven_eq (key : String) (value : Text) (setup : Setup) :
    setGiven key value setup = setup.assign key (given value) := Setup.ite_set_eq setup key value

namespace Parms

/-- `triton_config` or `hip_config`. -/
def config (install : Install) (parms : Parms) : List (String × Text) :=
  if parms.instrumented then if parms.assumeTriton then install.tritonConfig else install.hipConfig else []

/-- What `setup_env` writes before it looks at `LD_PRELOAD`. -/
def writesBefore (install : Install) (paths : Paths) (parms : Parms) : List (String × Option Text) :=
  [("LOGDUR_LOG_FORMAT", if parms.logFormat ≠ [] then some parms.checkedFormat else none),
    ("LOGDUR_LOG_LOCATION", some (parms.checkedLocation paths)),
    ("LOGDUR_KERNEL_CACHE", if parms.cacheUsable paths then some parms.cacheLocation else none),
    ("LOGDUR_DISPATCHES", given parms.dispatches),
    ("LOGDUR_INSTRUMENTED", if parms.instrumented then some "true".toList else none)] ++
  (parms.config install).map (fun entry => (entry.1, some entry.2)) ++
  [("LOGDUR_FILTER", if parms.kernels ≠ [] ∧ parms.instrumented then some parms.kernels else none)]

/-- What it writes from there on, up to `LD_LIBRARY_PATH`. -/
def writesAfter (paths : Paths) (parms : Parms) : List (String × Option Text) :=
  [("LOGDUR_HANDLERS", some (joinHandlers parms.handlers)), ("DH_COMMS_GROUP_FILTER_X", given parms.filterX),
    ("DH_COMMS_GROUP_FILTER_Y", given parms.filterY), ("DH_COMMS_GROUP_FILTER_Z", given parms.filterZ),
    ("LOGDUR_LIBRARY_FILTER",
      if parms.libraryFilter ≠ [] ∧ paths.libraryFilterExists then some (paths.abspath parms.libraryFilter) else none),
    ("INSTRUMENTATION_SCOPE", given parms.instrumentationScope),
    ("INSTRUMENTATION_SCOPE_FILE", (given parms.instrumentationScopeFile).map paths.abspath)]

/-- All of it. The paths of the loader go in front of the inherited ones. -/
def writes (install : Install) (paths : Paths) (inherited : Environ) (parms : Parms) : List (String × Option Text) :=
  parms.writesBefore install paths ++
    ("LD_PRELOAD", some (prepend install.preloadLib (inherited "LD_PRELOAD".toList))) ::
      (parms.writesAfter paths ++
        [("LD_LIBRARY_PATH", some (prepend install.handlerLibDir (inherited "LD_LIBRARY_PATH".toList)))])

theorem writes_once (install : Install) (paths : Paths) (inherited : Environ) (parms : Parms) :
    ((parms.writes install paths inherited).map fun write => write.1.toList).Nodup := by
  have keys : ((parms.config install).map fun entry => entry.1.toList) ∈
      [[], ["LLVM_PASS_PLUGIN_PATH".toList], ["TRITON_LOGGER_LEVEL".toList, "TRITON_ALWAYS_COMPILE".toList,
        "TRITON_DISABLE_LINE_INFO".toList, "TRITON_HIP_LLD_PATH".toList, "LLVM_PASS_PLUGIN_PATH".toList]] := by
    unfold config
    split
    · split
      · exact List.mem_cons_of_mem _ (List.mem_cons_of_mem _ (List.mem_singleton.mpr rfl))
      · exact List.mem_cons_of_mem _ List.mem_cons_self
    · exact List.mem_cons_self
  simp only [writes, writesBefore, writesAfter, List.map_append, List.map_cons, List.map_nil, List.map_map,
    Function.comp_def]
  generalize ((parms.config install).map fun entry => entry.1.toList) = config at keys
  simp only [List.mem_cons, List.not_mem_nil, or_false] at keys
  obtain rfl | rfl | rfl := keys
  · decide
  · decide
  · decide

end Parms

theorem setInstrumented_eq {install : Install} {paths : Paths} {parms : Parms} {setup after : Setup}
    (done : setInstrumented install paths parms setup = some after) :
    after = (setup.assign "LOGDUR_INSTRUMENTED" (if parms.instrumented then some "true".toList else none)).setAll
      (parms.config install) := by
  unfold setInstrumented at done
  unfold Parms.config
  split at done
  next instrumented =>
    simp only [instrumented, if_true]
    split at done
    next triton =>
      obtain ⟨-, same⟩ := Option.ite_none_right_eq_some.mp done
      rw [if_pos triton]
      exact (Option.some.inj same).symm
    next hip =>
      rw [if_neg hip]
      exact (Option.some.inj done).symm
  next plain =>
    rw [if_neg plain, if_neg plain]
    exact (Option.some.inj done).symm

theorem setScope_eq {paths : Paths} {parms : Parms} {setup after : Setup}
    (done : setScope paths parms setup = some after) :
    after = (setup.assign "INSTRUMENTATION_SCOPE" (given parms.instrumentationScope)).assign "INSTRUMENTATION_SCOPE_FILE"
      ((given parms.instrumentationScopeFile).map paths.abspath) := by
  unfold setScope at done
  split at done
  next =>
    obtain ⟨-, done⟩ := Option.ite_none_left_eq_some.mp done
    obtain ⟨-, done⟩ := Option.ite_none_left_eq_some.mp done
    rw [setGiven_eq] at done
    simp only at done
    split at done
    next file =>
      obtain ⟨-, same⟩ := Option.ite_none_right_eq_some.mp done
      have asked : given parms.instrumentationScopeFile = some parms.instrumentationScopeFile := if_pos file
      rw [asked]
      exact (Option.some.inj same).symm
    next file =>
      have unasked : given parms.instrumentationScopeFile = none := if_neg file
      rw [unasked]
      exact (Option.some.inj done).symm
  next unscoped =>
    rw [not_or, not_not, not_not] at unscoped
    rw [given, given, unscoped.1, unscoped.2]
    exact (Option.some.inj done).symm

/-- Where the script does not exit, it has written exactly `writes` over what it inherited. -/
theorem setupEnv_eq {install : Install} {paths : Paths} {inherited : Environ} {parms : Parms} {setup : Setup}
    (done : setupEnv install paths inherited parms = some setup) :
    setup = ({ env := inherited } : Setup).assignAll (parms.writes install paths inherited) := by
  simp only [setupEnv, Option.bind_eq_bind, Option.bind_eq_some_iff, Option.pure_def, Option.some.injEq] at done
  obtain ⟨before, instrumented, last, withScope, rfl⟩ := done
  have first : setKernels parms before = ({ env := inherited } : Setup).assignAll (parms.writesBefore install paths) := by
    rw [setInstrumented_eq instrumented, setKernels, Setup.ite_set_eq, Parms.writesBefore, Setup.assignAll_append,
      Setup.assignAll_append, setDispatches, Setup.ite_set_eq, setCache, Setup.ite_set_eq, setLogLocation, setLogFormat,
      Setup.ite_set_eq, Setup.setAll_eq]
    rfl
  have once := Parms.writes_once install paths inherited parms
  simp only [Parms.writes, List.map_append, List.map_cons, List.map_nil] at once
  have preload : (setKernels parms before).env "LD_PRELOAD".toList = inherited "LD_PRELOAD".toList := by
    rw [first]
    exact Setup.assignAll_env_ne (fun member => (List.nodup_append.mp once).2.2 _ member _ List.mem_cons_self rfl) _
  have second : last = ({ env := inherited } : Setup).assignAll (parms.writesBefore install paths ++
      ("LD_PRELOAD", some (prepend install.preloadLib (inherited "LD_PRELOAD".toList))) :: parms.writesAfter paths) := by
    rw [setScope_eq withScope, setLibraryFilter, Setup.ite_set_eq, setGroupFilters, setGiven_eq, setGiven_eq, setGiven_eq,
      setHandlers, setPreload, preload, first, Setup.assignAll_append]
    rfl
  have libraryPath : last.env "LD_LIBRARY_PATH".toList = inherited "LD_LIBRARY_PATH".toList := by
    rw [second]
    refine Setup.assignAll_env_ne (fun member => ?_) _
    rw [← List.cons_append, ← List.append_assoc] at once
    rw [List.map_append, List.map_cons] at member
    exact (List.nodup_append.mp once).2.2 _ member _ List.mem_cons_self rfl
  rw [setLibraryPath, libraryPath, second, Parms.writes, ← List.cons_append, ← List.append_assoc,
    Setup.assignAll_append _ _ [_]]
  rfl

/-- The application's environment: what the options have written, over the inherited one. -/
theorem setupEnv_env {install : Install} {paths : Paths} {inherited : Environ} {parms : Parms} {setup : Setup}
    (done : setupEnv install paths inherited parms = some setup) (key : String) (value : Option Text)
    (written : (key, value) ∈ parms.writes install paths inherited) :
    setup.env key.toList = value.or (inherited key.toList) := by
  rw [setupEnv_eq done, Setup.assignAll_env (parms.writes_once install paths inherited) written]

/-! ### What the library reads -/

/-- The library's settings that are empty where nothing is set. -/
def emptyByDefault : List String :=
  ["LOGDUR_KERNEL_CACHE", "LOGDUR_HANDLERS", "LOGDUR_FILTER", "LOGDUR_DISPATCHES", "LOGDUR_LIBRARY_FILTER"]

theorem getLogDurConfig_find (env : Environ) (key : String) (member : key ∈ emptyByDefault) :
    (getLogDurConfig env ∅)[key.toList]? = some ((env key.toList).getD []) := by
  simp only [emptyByDefault, List.mem_cons, List.not_mem_nil, or_false] at member
  unfold getLogDurConfig
  obtain rfl | rfl | rfl | rfl | rfl := member
  all_goals simp (disch := decide) only [find_insert_ne, find_insert_self]

theorem getLogDurConfig_location (env : Environ) :
    (getLogDurConfig env ∅)["LOGDUR_LOG_LOCATION".toList]? =
      some ((env "LOGDUR_LOG_LOCATION".toList).getD "console".toList) := by
  unfold getLogDurConfig
  simp (disch := decide) only [find_insert_ne, find_insert_self]

theorem getLogDurConfig_instrumented (env : Environ) :
    (getLogDurConfig env ∅)["LOGDUR_INSTRUMENTED".toList]? =
      some (instrumentedSetting (env "LOGDUR_INSTRUMENTED".toList)) := by
  unfold getLogDurConfig
  simp (disch := decide) only [find_insert_ne, find_insert_self]

namespace Parms

/-- The library's settings of options that may be left out, with what is asked for. The cache is watched, and its files
are filtered, without `--instrumented` too; `--kernels` is then said to be ignored. -/
def settings (paths : Paths) (parms : Parms) : List (String × Option Text) :=
  [("LOGDUR_KERNEL_CACHE", if parms.cacheUsable paths then some parms.cacheLocation else none),
    ("LOGDUR_DISPATCHES", given parms.dispatches),
    ("LOGDUR_FILTER", if parms.kernels ≠ [] ∧ parms.instrumented then some parms.kernels else none),
    ("LOGDUR_LIBRARY_FILTER",
      if parms.libraryFilter ≠ [] ∧ paths.libraryFilterExists then some (paths.abspath parms.libraryFilter) else none)]

/-- The same for the variables that are read where they are used, by `getenv`. -/
def direct (paths : Paths) (parms : Parms) : List (String × Option Text) :=
  [("DH_COMMS_GROUP_FILTER_X", given parms.filterX), ("DH_COMMS_GROUP_FILTER_Y", given parms.filterY),
    ("DH_COMMS_GROUP_FILTER_Z", given parms.filterZ), ("INSTRUMENTATION_SCOPE", given parms.instrumentationScope),
    ("INSTRUMENTATION_SCOPE_FILE", (given parms.instrumentationScopeFile).map paths.abspath)]

/-- The logger's check of the format is for exactly this. -/
def json (parms : Parms) : Prop := parms.logFormat.map Char.toLower = "json".toList

/-- The application's process sees the options, and nothing but the options. -/
structure Honoured (paths : Paths) (parms : Parms) (env : Environ) : Prop where
  location : (getLogDurConfig env ∅)["LOGDUR_LOG_LOCATION".toList]? = some (parms.checkedLocation paths)
  format : env "LOGDUR_LOG_FORMAT".toList = some "json".toList ↔ parms.json
  instrumented : (getLogDurConfig env ∅)["LOGDUR_INSTRUMENTED".toList]? = some "true".toList ↔ parms.instrumented = true
  handlers : handlerLibraries (getLogDurConfig env ∅) = parms.handlers
  settings : ∀ key value, (key, value) ∈ parms.settings paths →
    (getLogDurConfig env ∅)[key.toList]? = some (value.getD [])
  direct : ∀ key value, (key, value) ∈ parms.direct paths → (env key.toList).getD [] = value.getD []

/-- Nothing that an option has left out is inherited. -/
structure Unstale (paths : Paths) (parms : Parms) (inherited : Environ) : Prop where
  format : parms.logFormat = [] → inherited "LOGDUR_LOG_FORMAT".toList ≠ some "json".toList
  instrumented : parms.instrumented = false →
    instrumentedSetting (inherited "LOGDUR_INSTRUMENTED".toList) ≠ "true".toList
  optional : ∀ key, (key, none) ∈ parms.settings paths ++ parms.direct paths → (inherited key.toList).getD [] = []

theorem settings_written (install : Install) {paths : Paths} (inherited : Environ) {parms : Parms} {key : String}
    {value : Option Text} (member : (key, value) ∈ parms.settings paths) :
    (key, value) ∈ parms.writes install paths inherited ∧ key ∈ emptyByDefault := by
  simp only [settings, List.mem_cons, List.not_mem_nil, or_false, Prod.mk.injEq] at member
  simp only [writes, writesBefore, writesAfter, List.mem_append, List.mem_cons, Prod.mk.injEq]
  obtain ⟨rfl, rfl⟩ | ⟨rfl, rfl⟩ | ⟨rfl, rfl⟩ | ⟨rfl, rfl⟩ := member
  all_goals simp [emptyByDefault]

theorem direct_written (install : Install) {paths : Paths} (inherited : Environ) {parms : Parms} {key : String}
    {value : Option Text} (member : (key, value) ∈ parms.direct paths) :
    (key, value) ∈ parms.writes install paths inherited := by
  have inside : ∀ entry ∈ parms.direct paths, entry ∈ parms.writesAfter paths := by
    intro entry member
    simp only [direct, writesAfter, List.mem_cons, List.not_mem_nil, or_false] at member ⊢
    grind
  exact List.mem_append_right _ (List.mem_cons_of_mem _ (List.mem_append_left _ (inside _ member)))

end Parms

/-- A value over an inherited one reads as the value alone, unless there is none and the inherited one shows. -/
theorem overlay_reads_iff (value inherited : Option Text) :
    (value.or inherited).getD [] = value.getD [] ↔ (value = none → inherited.getD [] = []) := by
  cases value <;> simp

theorem checkedFormat_json_iff (parms : Parms) : parms.checkedFormat = "json".toList ↔ parms.json := by
  unfold Parms.checkedFormat Parms.json
  simp only
  split
  · rfl
  next other =>
    rw [not_or] at other
    exact ⟨fun same => absurd same (by decide), fun same => absurd same other.2⟩

theorem handlerLibraries_eq {config : Map Text Text} {value : Text}
    (found : config["LOGDUR_HANDLERS".toList]? = some value) : handlerLibraries config = split value ',' false := by
  unfold handlerLibraries
  rw [found]
  by_cases empty : value = []
  · subst empty
    rfl
  · exact if_pos empty

section
variable {install : Install} {paths : Paths} {inherited : Environ} {parms : Parms} {setup : Setup}

theorem format_honoured_iff (done : setupEnv install paths inherited parms = some setup) :
    (setup.env "LOGDUR_LOG_FORMAT".toList = some "json".toList ↔ parms.json) ↔
      (parms.logFormat = [] → inherited "LOGDUR_LOG_FORMAT".toList ≠ some "json".toList) := by
  have written := setupEnv_env done "LOGDUR_LOG_FORMAT" _ (List.mem_append_left _ List.mem_cons_self)
  by_cases empty : parms.logFormat = []
  · have csv : ¬parms.json := by
      intro json
      rw [Parms.json, empty] at json
      exact absurd json (by decide)
    rw [written, if_neg (not_not.mpr empty), Option.none_or]
    exact ⟨fun same _ json => csv (same.mp json),
      fun other => ⟨fun json => absurd json (other empty), fun json => absurd json csv⟩⟩
  · rw [written, if_pos empty, Option.some_or, Option.some_inj, checkedFormat_json_iff]
    exact ⟨fun _ absent => absurd absent empty, fun _ => Iff.rfl⟩

theorem instrumented_honoured_iff (done : setupEnv install paths inherited parms = some setup) :
    ((getLogDurConfig setup.env ∅)["LOGDUR_INSTRUMENTED".toList]? = some "true".toList ↔ parms.instrumented = true) ↔
      (parms.instrumented = false → instrumentedSetting (inherited "LOGDUR_INSTRUMENTED".toList) ≠ "true".toList) := by
  have written := setupEnv_env done "LOGDUR_INSTRUMENTED" (if parms.instrumented then some "true".toList else none)
    (by simp [Parms.writes, Parms.writesBefore])
  rw [getLogDurConfig_instrumented, written, Option.some_inj]
  cases parms.instrumented with
  | true =>
    have set : instrumentedSetting (some "true".toList) = "true".toList := by decide
    rw [if_pos rfl, Option.some_or, set]
    exact ⟨fun _ absent => absurd absent (by decide), fun _ => ⟨fun _ => rfl, fun _ => rfl⟩⟩
  | false =>
    rw [if_neg Bool.false_ne_true, Option.none_or]
    exact ⟨fun same _ set => absurd (same.mp set) (by decide),
      fun unset => ⟨fun set => absurd set (unset rfl), fun set => absurd set (by decide)⟩⟩

theorem handlers_honoured_iff (done : setupEnv install paths inherited parms = some setup) :
    handlerLibraries (getLogDurConfig setup.env ∅) = parms.handlers ↔ ∀ h ∈ parms.handlers, h ≠ [] ∧ ',' ∉ h := by
  have written := setupEnv_env done "LOGDUR_HANDLERS" (some (joinHandlers parms.handlers))
    (List.mem_append_right _ (List.mem_cons_of_mem _ List.mem_cons_self))
  have found := getLogDurConfig_find setup.env "LOGDUR_HANDLERS" (by decide)
  rw [written, Option.some_or, Option.getD_some] at found
  rw [handlerLibraries_eq found, split_joinHandlers_iff]

theorem settings_honoured_iff (done : setupEnv install paths inherited parms = some setup) {key : String}
    {value : Option Text} (member : (key, value) ∈ parms.settings paths) :
    (getLogDurConfig setup.env ∅)[key.toList]? = some (value.getD []) ↔
      (value = none → (inherited key.toList).getD [] = []) := by
  obtain ⟨written, read⟩ := Parms.settings_written install inherited member
  rw [getLogDurConfig_find setup.env key read, setupEnv_env done key value written, Option.some_inj, overlay_reads_iff]

theorem direct_honoured_iff (done : setupEnv install paths inherited parms = some setup) {key : String}
    {value : Option Text} (member : (key, value) ∈ parms.direct paths) :
    (setup.env key.toList).getD [] = value.getD [] ↔ (value = none → (inherited key.toList).getD [] = []) := by
  rw [setupEnv_env done key value (Parms.direct_written install inherited member), overlay_reads_iff]

theorem setupEnv_honoured_iff (done : setupEnv install paths inherited parms = some setup) :
    parms.Honoured paths setup.env ↔ (∀ h ∈ parms.handlers, h ≠ [] ∧ ',' ∉ h) ∧ parms.Unstale paths inherited := by
  constructor
  · intro honoured
    refine ⟨(handlers_honoured_iff done).mp honoured.handlers, (format_honoured_iff done).mp honoured.format,
      (instrumented_honoured_iff done).mp honoured.instrumented, fun key unwritten => ?_⟩
    obtain setting | read := List.mem_append.mp unwritten
    · exact (settings_honoured_iff done setting).mp (honoured.settings key none setting) rfl
    · exact (direct_honoured_iff done read).mp (honoured.direct key none read) rfl
  · intro ⟨clean, unstale⟩
    have location := setupEnv_env done "LOGDUR_LOG_LOCATION" (some (parms.checkedLocation paths))
      (List.mem_append_left _ (List.mem_cons_of_mem _ List.mem_cons_self))
    refine ⟨?_, (format_honoured_iff done).mpr unstale.format, (instrumented_honoured_iff done).mpr unstale.instrumented,
      (handlers_honoured_iff done).mpr clean, fun key value setting => ?_, fun key value direct => ?_⟩
    · rw [getLogDurConfig_location, location, Option.some_or, Option.getD_some]
    · refine (settings_honoured_iff done setting).mpr fun unwritten => unstale.optional key ?_
      rw [← unwritten]
      exact List.mem_append_left _ setting
    · refine (direct_honoured_iff done direct).mpr fun unwritten => unstale.optional key ?_
      rw [← unwritten]
      exact List.mem_append_right _ direct

end

/-- The application is started with what the options ask for exactly when nothing they leave out is inherited, and the
library can take the list of handlers apart. -/
theorem start_honoured_iff {install : Install} {analytics : Text → Option Analytic} {paths : Paths} {inherited : Environ}
    {parms : Parms} {setup : Setup} (started : start install analytics paths inherited parms = some setup) :
    { parms with handlers := (resolveHandlers analytics install parms.handlers).2 }.Honoured paths setup.env ↔
      (∀ h ∈ (resolveHandlers analytics install parms.handlers).2, h ≠ [] ∧ ',' ∉ h) ∧
        { parms with handlers := (resolveHandlers analytics install parms.handlers).2 }.Unstale paths inherited :=
  setupEnv_honoured_iff started

def sampleInstall : Install where
  preloadLib := "/o/lib/liblogDuration64.so".toList
  handlerLibDir := "/o/lib".toList
  pluginDir := "/o/lib/plugins".toList
  rocmPath := "/opt/rocm".toList
  tritonPlugin := "/o/lib/plugins/libAMDGCNSubmitAddressMessages-triton.so".toList

def sampleAnalytics (name : Text) : Option Analytic :=
  if name = "Heatmap".toList then some ⟨"libdefaultMessageHandlers64.so".toList, none⟩ else none

def sampleParms : Parms where
  logFormat := "JSON".toList
  instrumented := true
  handlers := ["Heatmap".toList, "/x/libOwn.so".toList]

/-- Nothing is asked for but the handlers. -/
def plainParms : Parms where
  handlers := ["Heatmap".toList]

/-- A filter that an earlier run has left in the environment. -/
def sampleInherited : Environ := fun key => if key = "LOGDUR_FILTER".toList then some "gemm".toList else none

/-- With nothing inherited the options are honoured, and with the filter they are not, instrumented or not. -/
theorem start_honoured_sample :
    (∃ setup, start sampleInstall sampleAnalytics {} (fun _ => none) sampleParms = some setup ∧
      { sampleParms with handlers := (resolveHandlers sampleAnalytics sampleInstall sampleParms.handlers).2 }.Honoured {}
        setup.env) ∧
    ∀ parms ∈ [sampleParms, plainParms], ∃ setup, start sampleInstall sampleAnalytics {} sampleInherited parms = some setup ∧
      ¬{ parms with handlers := (resolveHandlers sampleAnalytics sampleInstall parms.handlers).2 }.Honoured {}
        setup.env := by
  constructor
  · refine ⟨_, rfl, (start_honoured_iff rfl).mpr ⟨by decide, fun unset => absurd unset (by decide),
      fun unset => absurd unset (by decide), fun key unwritten => rfl⟩⟩
  · refine List.forall_mem_cons.mpr ⟨⟨_, rfl, fun honoured => ?_⟩,
      List.forall_mem_singleton.mpr ⟨_, rfl, fun honoured => ?_⟩⟩
    · have unstale := ((start_honoured_iff rfl).mp honoured).2
      exact absurd (unstale.optional "LOGDUR_FILTER" (by decide)) (by decide)
    · have unstale := ((start_honoured_iff rfl).mp honoured).2
      exact absurd (unstale.optional "LOGDUR_FILTER" (by decide)) (by decide)

end Omniprobe.Script
