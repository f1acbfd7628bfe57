import Omniprobe.Cache.Descriptor

/-!
# The code object cache

`coCache`: the maps from kernel names to symbols, argument descriptors and code objects, filled
by file scans (`addFile`) and by kernels seen at run time (`registerRuntimeKernel`), and the
lookups that a dispatch makes in them.
-/

namespace Omniprobe
open Lib

structure CodeObjectRef where
  sourceFile : Text
  coFile : Text
  mangledName : Text
  deriving DecidableEq, Repr

structure CoCache where
  lookupMap : Map₂ Agent Text Symbol := ∅
  argMap : Map₂ Agent Text ArgDescriptor := ∅
  alternatives : Map₂ Agent Symbol KernelObject := ∅
  kernargSizes : Map KernelObject UInt32 := ∅
  kernelCoMap : Map₂ Agent Text CodeObjectRef := ∅
  runtimeKernelObjects : Map₂ Agent Text KernelObject := ∅
  excludedExecutableCache : Map Executable Bool := ∅

namespace CoCache

def hasKernels (cache : CoCache) (agent : Agent) : Bool := agent ∈ cache.lookupMap

def getCodeObjectRef (cache : CoCache) (agent : Agent) (name : Text) : Option CodeObjectRef :=
  find₂ cache.kernelCoMap agent name

def getArgSize (cache : CoCache) (kernelObject : KernelObject) : UInt32 :=
  cache.kernargSizes[kernelObject]?.getD 0

/-! ### Kernels seen at run time -/

def registerRuntimeKernel (cache : CoCache) (name : Text) (symbol : Symbol) (kernelObject : KernelObject)
    (agent : Agent) (kernargSize : UInt32) : CoCache :=
  match find₂ cache.lookupMap agent name with
  | some _ => cache
  | none =>
    { cache with
      lookupMap := insert₂ cache.lookupMap agent name symbol
      kernargSizes := cache.kernargSizes.insert kernelObject kernargSize
      runtimeKernelObjects := insert₂ cache.runtimeKernelObjects agent name kernelObject }

/-- The path in a `file://path#fragment` URI, as `isKernelFromExcludedFile` cuts it out. -/
def uriPath (uri : Text) : Option Text :=
  if "file://".toList.isPrefixOf uri then some ((uri.drop 7).takeWhile (· != '#')) else none

def codeObjectExcluded (filter : LibraryFilter) (codeObject : LoadedCodeObject) : Bool :=
  match codeObject.uri.bind uriPath with
  | some path => filter.isExcluded path
  | none => false

def isKernelFromExcludedFile (rt : Runtime) (cache : CoCache) (kernelObject : KernelObject)
    (filter : LibraryFilter) : CoCache × Bool :=
  match rt.queryExecutable kernelObject with
  | none => (cache, false)
  | some executable =>
    match cache.excludedExecutableCache[executable]? with
    | some excluded => (cache, excluded)
    | none =>
      let excluded := (rt.loadedCodeObjects executable).any (codeObjectExcluded filter)
      ({ cache with excludedExecutableCache := cache.excludedExecutableCache.insert executable excluded },
        excluded)

/-! ### File scans -/

/-- Whether a kernel passes the filter; `none` where the filter is not a regex (`abort()`). -/
def passesFilter (rt : Runtime) (filter name : Text) : Option Bool :=
  if filter.isEmpty then some true else rt.regexSearch filter name

/-- The part of `addFile` that runs for one kernel symbol after its name is known. -/
def addSymbol (rt : Runtime) (agent : Agent) (filter file coFile : Text) (kernels : Map Text ArgDescriptor)
    (cache : CoCache) (symbol : Symbol) : Option CoCache :=
  let name := rt.demangleName (rt.symbolName symbol)
  match passesFilter rt filter name with
  | none => none
  | some false => some cache
  | some true =>
    some
      { cache with
        argMap := match kernels[name]? with
          | some desc => insert₂ cache.argMap agent name desc
          | none => cache.argMap
        lookupMap := insert₂ cache.lookupMap agent name symbol
        kernelCoMap := insert₂ cache.kernelCoMap agent name ⟨file, coFile, rt.symbolName symbol⟩ }

def kernelSymbols (codeObject : CodeObjectFile) : List Symbol :=
  codeObject.symbols.filterMap fun symbol => if symbol.1 = .kernel then some symbol.2 else none

def addExecutable (rt : Runtime) (agent : Agent) (filter file : Text) (cache : CoCache)
    (codeObject : CodeObjectFile) : Option CoCache :=
  (kernelSymbols codeObject).foldlM
    (addSymbol rt agent filter file codeObject.coFile (computeKernargData rt codeObject.metadata)) cache

def addFile (rt : Runtime) (agent : Agent) (filter : Text) (file : BinaryFile) (cache : CoCache) :
    Option CoCache :=
  (file.codeObjects.filter (·.loads)).foldlM (addExecutable rt agent filter file.name) cache

/-! ### Descriptors of kernels seen at run time -/

def described (cache : CoCache) (agent : Agent) (name : Text) : Bool := (find₂ cache.argMap agent name).isSome

/-- Record a code object's descriptor for one name of `lookup_map_` that has none yet. -/
def describeName (agent : Agent) (kernels : Map Text ArgDescriptor) (cache : CoCache) (name : Text) : CoCache :=
  if cache.described agent name then cache
  else
    match kernels[name]? with
    | some desc => { cache with argMap := insert₂ cache.argMap agent name desc }
    | none => cache

/-- The loader callback of `resolveRuntimeArgDescriptors`. -/
def describeFrom (rt : Runtime) (agent : Agent) (cache : CoCache) (codeObject : LoadedCodeObject) : CoCache :=
  match codeObject.metadata, cache.lookupMap[agent]? with
  | some metadata, some row => row.keys.foldl (describeName agent (computeKernargData rt metadata)) cache
  | _, _ => cache

/-- The kernel objects registered at run time whose names have no descriptor, in name order. -/
def missingKernelObjects (cache : CoCache) (agent : Agent) : List KernelObject :=
  ((cache.runtimeKernelObjects[agent]?.getD ∅).toList.filter fun entry => !cache.described agent entry.1).map
    Prod.snd

/-- The executables of the given kernel objects, each at its first occurrence. -/
def executablesOf (rt : Runtime) (kernelObjects : List KernelObject) : List Executable :=
  (kernelObjects.filterMap rt.queryExecutable).eraseDups

def resolvedCodeObjects (rt : Runtime) (cache : CoCache) (agent : Agent) : List LoadedCodeObject :=
  (executablesOf rt (cache.missingKernelObjects agent)).flatMap rt.loadedCodeObjects

def resolveRuntimeArgDescriptors (rt : Runtime) (agent : Agent) (cache : CoCache) : CoCache × Bool :=
  if agent ∈ cache.runtimeKernelObjects then
    ((cache.resolvedCodeObjects rt agent).foldl (describeFrom rt agent) cache, true)
  else (cache, false)

/-! ### Lookups made by a dispatch -/

/-- One attempt of `getArgDescriptor`. -/
def lookupDescriptor (cache : CoCache) (agent : Agent) (name : Text) (instrumented : Bool) :
    Option ArgDescriptor :=
  let cloneHiddenArgsLength :=
    if instrumented then
      match find₂ cache.argMap agent name with
      | some clone => if clone.hiddenArgsLength ≠ 0 then clone.kernargLength - clone.explicitArgsLength else 0
      | none => 0
    else 0
  let strName := if instrumented then getInstrumentedName name else name
  (find₂ cache.argMap agent strName).map fun desc =>
    { desc with cloneHiddenArgsLength := cloneHiddenArgsLength }

def getArgDescriptor (rt : Runtime) (agent : Agent) (name : Text) (instrumented : Bool) (cache : CoCache) :
    CoCache × Option ArgDescriptor :=
  match cache.lookupDescriptor agent name instrumented with
  | some desc => (cache, some desc)
  | none =>
    let (resolved, ok) := resolveRuntimeArgDescriptors rt agent cache
    (resolved, if ok then resolved.lookupDescriptor agent name instrumented else none)

/-- `findAlternative`; `none` where a symbol is refused (`abort()`). The queue's agent is only compared
for a diagnostic, so it is left out. -/
def findAlternative (rt : Runtime) (symbol : Symbol) (name : Text) (cache : CoCache) :
    Option (CoCache × KernelObject) :=
  if rt.knowsSymbol symbol then
    match find₂ cache.lookupMap (rt.symbolAgent symbol) name with
    | none => some (cache, 0)
    | some alternative =>
      if rt.knowsSymbol alternative then
        let object := rt.symbolKernelObject alternative
        some
          ({ cache with
              kernargSizes := if object ∈ cache.kernargSizes then cache.kernargSizes
                else cache.kernargSizes.insert object (rt.symbolKernargSize alternative) },
            object)
      else none
  else none

def findInstrumentedAlternative (rt : Runtime) (symbol : Symbol) (name : Text) (queueAgent : Agent)
    (cache : CoCache) : Option (CoCache × KernelObject) :=
  let memo := (find₂ cache.alternatives queueAgent symbol).getD 0
  let cache := { cache with alternatives := touch cache.alternatives queueAgent ∅ }
  if memo ≠ 0 then some (cache, memo)
  else
    match findAlternative rt symbol (getInstrumentedName name) cache with
    | none => none
    | some (cache, object) =>
      if object ≠ 0 then
        some ({ cache with alternatives := insert₂ cache.alternatives queueAgent symbol object }, object)
      else some (cache, 0)

end CoCache

end Omniprobe
