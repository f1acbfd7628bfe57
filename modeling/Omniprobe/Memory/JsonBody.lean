import Omniprobe.Lib.JsonPrint
import Omniprobe.Memory.JsonReport
import Omniprobe.Memory.Report

/-!
# The text of a report

What `report_json` prints between the braces of a dispatch's object, with the source lines that it
quotes. The files are taken not to change while the program runs.
-/

namespace Omniprobe.Memory
open Lib
open Json.Value (indentation)

/-! ### Source lines -/

/-- The files that can be read; the empty path names none. -/
structure SourceFiles where
  content : Text → Option Text
  unnamed : content [] = none

/-- The lines of a file, and none when it cannot be opened. -/
def SourceFiles.lines (files : SourceFiles) (fname : Text) : List Text :=
  match files.content fname with
  | none => []
  | some content => getlines '\n' content

/-- The static variables of `getCodeContext`. They hold the lines of the file read last. -/
structure SourceCache (files : SourceFiles) where
  fname : Text
  lines : List Text
  current : lines = files.lines fname

def SourceCache.initial (files : SourceFiles) : SourceCache files where
  fname := []
  lines := []
  current := by rw [SourceFiles.lines, files.unnamed]

def expandTabs (line : Text) : Text := line.flatMap fun c => if c = '\t' then List.replicate 8 ' ' else [c]

def getCodeContext {files : SourceFiles} (cache : SourceCache files) (fname : Text) (line : UInt16) :
    Text × SourceCache files :=
  let cache : SourceCache files := if fname = cache.fname then cache else ⟨fname, files.lines fname, rfl⟩
  if line = 0 ∨ cache.lines.length < line.toNat then ([], cache)
  else (trim (· == ' ') (expandTabs (cache.lines.getD (line.toNat - 1) [])), cache)

/-! ### What the report reads -/

/-- `std::tm`, as far as it is printed. -/
structure Tm where
  year : Nat
  month : Fin 100
  day : Fin 100
  hour : Fin 100
  minute : Fin 100
  second : Fin 100

def decimal (n : Nat) : Text := Nat.toDigits 10 n

def twoDigits (n : Fin 100) : Text := [Nat.digitChar (n / 10), Nat.digitChar (n % 10)]

/-- `std::put_time` with `"%Y-%m-%d %H:%M:%S"`. -/
def putTime (tm : Tm) : Text :=
  decimal tm.year ++ '-' :: (twoDigits tm.month ++ '-' :: (twoDigits tm.day ++ ' ' :: (twoDigits tm.hour ++ ':' ::
    (twoDigits tm.minute ++ ':' :: twoDigits tm.second))))

structure ReportEnv where
  files : SourceFiles
  /-- The content of the file `VERSION`, where it can be opened. -/
  versionFile : Option Text
  now : Tm
  kernelFilter : Option Text
  /-- `gcnArchName` of `hipGetDeviceProperties`, where the call succeeds. -/
  gcnArchName : Option Text
  /-- `get_l2_cache_line_size(arch_string_to_enum(arch))`. -/
  l2CacheLineSize : Text → Nat
  undefinedKind : UInt8
  readKind : UInt8
  writeKind : UInt8
  readWriteKind : UInt8

/-- The beginning of a line, up to the value of the key. -/
def field (indent : Nat) (key : String) : Text := indentation indent ++ (Text.delimited '"' key.toList ++ [':', ' '])

namespace ReportEnv
variable (env : ReportEnv)

def rw2strMap : List (UInt8 × String) :=
  [(env.undefinedKind, "unspecified memory operation"), (env.readKind, "read"), (env.writeKind, "write"),
    (env.readWriteKind, "read/write")]

def rw2str (rwKind : UInt8) : Text :=
  match env.rw2strMap.find? (·.1 = rwKind) with
  | some (_, name) => name.toList
  | none => "[coding error: invalid encoding of memory operation type]".toList

def version : Text :=
  match env.versionFile with
  | none => "null".toList
  | some content =>
    let trimmed := trim Json.isSpace (content.takeWhile (· ≠ '\n'))
    if trimmed = [] then "null".toList else trimmed

def hasKernelFilter : Bool := env.kernelFilter.any (· ≠ [])

def gpuInfo : Text × Nat :=
  if env.hasKernelFilter then ("unknown".toList, 128)
  else
    match env.gcnArchName with
    | none => ("unknown".toList, 128)
    | some gcnArchName =>
      let arch := gcnArchName.takeWhile (· ≠ ':')
      (arch, if env.l2CacheLineSize arch = 0 then 128 else env.l2CacheLineSize arch)

/-! ### The text -/

def globalAccessText (location : Location) (access : GlobalAccesses) (context : Text) : Text :=
  indentation 8 ++ ['\x7b', '\n'] ++
  field 10 "source_location" ++ ['\x7b', '\n'] ++
  field 12 "file" ++ Text.delimited '"' location.fname ++ [',', '\n'] ++
  field 12 "line" ++ decimal location.line.toNat ++ [',', '\n'] ++
  field 12 "column" ++ decimal location.column.toNat ++ ['\n'] ++
  indentation 10 ++ ['\x7d', ',', '\n'] ++
  field 10 "code_context" ++ Text.delimited '"' context ++ [',', '\n'] ++
  field 10 "access_info" ++ ['\x7b', '\n'] ++
  field 12 "type" ++ Text.delimited '"' (env.rw2str access.rwKind) ++ [',', '\n'] ++
  field 12 "execution_count" ++ decimal access.noAccesses ++ [',', '\n'] ++
  field 12 "ir_bytes" ++ decimal access.irAccessSize.toNat ++ [',', '\n'] ++
  field 12 "isa_bytes" ++ decimal access.isaAccessSize.toNat ++ [',', '\n'] ++
  field 12 "isa_instruction" ++ Text.delimited '"' access.isaInstruction ++ [',', '\n'] ++
  field 12 "cache_lines" ++ ['\x7b', '\n'] ++
  field 14 "needed" ++ decimal access.minCacheLinesNeeded ++ [',', '\n'] ++
  field 14 "used" ++ decimal access.noCacheLinesUsed ++ ['\n'] ++
  indentation 12 ++ ['\x7d', '\n'] ++
  indentation 10 ++ ['\x7d', '\n'] ++
  indentation 8 ++ ['\x7d']

def ldsAccessText (location : Location) (access : LdsAccesses) (context : Text) : Text :=
  indentation 8 ++ ['\x7b', '\n'] ++
  field 10 "source_location" ++ ['\x7b', '\n'] ++
  field 12 "file" ++ Text.delimited '"' location.fname ++ [',', '\n'] ++
  field 12 "line" ++ decimal location.line.toNat ++ [',', '\n'] ++
  field 12 "column" ++ decimal location.column.toNat ++ ['\n'] ++
  indentation 10 ++ ['\x7d', ',', '\n'] ++
  field 10 "code_context" ++ Text.delimited '"' context ++ [',', '\n'] ++
  field 10 "access_info" ++ ['\x7b', '\n'] ++
  field 12 "type" ++ Text.delimited '"' (env.rw2str access.rwKind) ++ [',', '\n'] ++
  field 12 "execution_count" ++ decimal access.noAccesses ++ [',', '\n'] ++
  field 12 "ir_bytes" ++ decimal access.irAccessSize.toNat ++ [',', '\n'] ++
  field 12 "total_conflicts" ++ decimal access.noBankConflicts ++ ['\n'] ++
  indentation 10 ++ ['\x7d', '\n'] ++
  indentation 8 ++ ['\x7d']

end ReportEnv

/-- The loop over the entries of a table. -/
def accessesText {files : SourceFiles} {α : Type} (accessText : Location → α → Text → Text) (first : Bool)
    (cache : SourceCache files) : List (Location × α) → Text × SourceCache files
  | [] => ([], cache)
  | (location, access) :: rest =>
    let (context, cache) := getCodeContext cache location.fname location.line
    let (later, cache) := accessesText accessText false cache rest
    ((if first then [] else [',', '\n']) ++ accessText location access context ++ later, cache)

def allEntries {α : Type} (accesses : FileLineColAccess α) : List (Location × α) := shownEntries (fun _ => true) accesses

/-- What `report_json` prints between the outer braces. -/
def jsonBody (env : ReportEnv) (cache : SourceCache env.files) (kernel : Text) (dispatchId : UInt64)
    (handler : Handler) : Text :=
  let (globalText, cache) := accessesText env.globalAccessText true cache (allEntries handler.globalAccesses)
  let (ldsText, _) := accessesText env.ldsAccessText true cache (allEntries handler.ldsAccesses)
  let (arch, cacheLineSize) := env.gpuInfo
  field 2 "kernel_analysis" ++ ['\x7b', '\n'] ++
  field 4 "kernel_info" ++ ['\x7b', '\n'] ++
  field 6 "name" ++ Text.delimited '"' kernel ++ [',', '\n'] ++
  field 6 "dispatch_id" ++ decimal dispatchId.toNat ++ ['\n'] ++
  indentation 4 ++ ['\x7d', ',', '\n'] ++
  field 4 "cache_analysis" ++ ['\x7b', '\n'] ++
  field 6 "accesses" ++ ['[', '\n'] ++
  globalText ++ '\n' :: (indentation 6 ++ [']', '\n']) ++
  indentation 4 ++ ['\x7d', ',', '\n'] ++
  field 4 "bank_conflicts" ++ ['\x7b', '\n'] ++
  field 6 "accesses" ++ ['[', '\n'] ++
  ldsText ++ '\n' :: (indentation 6 ++ [']', '\n']) ++
  indentation 4 ++ ['\x7d', '\n'] ++
  indentation 2 ++ ['\x7d', ',', '\n'] ++
  field 2 "metadata" ++ ['\x7b', '\n'] ++
  field 4 "version" ++ Text.delimited '"' env.version ++ [',', '\n'] ++
  field 4 "timestamp" ++ Text.delimited '"' (putTime env.now) ++ [',', '\n'] ++
  field 4 "gpu_info" ++ ['\x7b', '\n'] ++
  field 6 "architecture" ++ Text.delimited '"' arch ++ [',', '\n'] ++
  field 6 "cache_line_size" ++ decimal cacheLineSize ++ ['\n'] ++
  indentation 4 ++ ['\x7d', '\n'] ++
  indentation 2 ++ ['\x7d', '\n']

def Handler.jsonReport (handler : Handler) (env : ReportEnv) (cache : SourceCache env.files) (kernel : Text)
    (dispatchId : UInt64) : JsonReport where
  dispatchId
  hasData := !(handler.globalAccesses.isEmpty && handler.ldsAccesses.isEmpty)
  body := jsonBody env cache kernel dispatchId handler

end Omniprobe.Memory
