import Omniprobe.Lib.Scan

/-!
# The instrumentation scope

`InstrumentationScope`: which source locations the passes instrument, read from
`INSTRUMENTATION_SCOPE` and `INSTRUMENTATION_SCOPE_FILE`.
-/

namespace Omniprobe.Scope
open Lib

structure ScopeEntry where
  filePattern : Text
  isFullPath : Bool
  ranges : List (UInt32 × UInt32)
  deriving DecidableEq, Repr

/-! ### Errors -/

inductive ScopeError where
  | tooManyColons (spec : Text)
  | invalidStart (spec : Text)
  | invalidEnd (spec : Text)
  | endNotAfterStart (spec : Text) (endVal startVal : UInt64)
  | invalidLine (spec : Text)
  | cannotOpen (path : Text)
  deriving DecidableEq, Repr

namespace ScopeError

def lineSpecMessage (spec : Text) (fault : String) : Text :=
  "InstrumentationScope: syntax error in line spec '".toList ++ spec ++ "' — ".toList ++ fault.toList ++
    ". Disabling scope filtering.\n".toList

/-- What is written to `llvm::errs()`. -/
def message : ScopeError → Text
  | tooManyColons spec => lineSpecMessage spec "too many colons"
  | invalidStart spec => lineSpecMessage spec "invalid start number"
  | invalidEnd spec => lineSpecMessage spec "invalid end number"
  | endNotAfterStart spec endVal startVal =>
    lineSpecMessage spec ("end (" ++ toString endVal ++ ") must be greater than start (" ++ toString startVal ++ ")")
  | invalidLine spec => lineSpecMessage spec "invalid line number"
  | cannotOpen path =>
    "InstrumentationScope: cannot open scope file '".toList ++ path ++ "'. Disabling scope filtering.\n".toList

end ScopeError

/-! ### Parsing -/

/-- What `trimWhitespace` strips. -/
def isWhitespace (c : Char) : Bool := c ∈ [' ', '\t', '\r', '\n']

def colonPos : Text → Option Nat
  | [] => none
  | c :: rest => if c = ':' ∧ rest.head?.any Char.isDigit then some 0 else (colonPos rest).map (· + 1)

def splitDefinition (definition : Text) : Text × Text :=
  if definition.head? = some ':' then ([], definition.tail)
  else
    match colonPos definition with
    | none => (definition, [])
    | some pos => (definition.take pos, definition.drop (pos + 1))

def parseLineSpec (spec : Text) : Except ScopeError (UInt32 × UInt32) :=
  match spec.findFirst ':' with
  | some rangeColon =>
    let startStr := spec.take rangeColon
    let endStr := spec.drop (rangeColon + 1)
    if ':' ∈ endStr then .error (.tooManyColons spec)
    else
      let (startVal, startEnd) := strtoul startStr
      if startEnd ≠ [] then .error (.invalidStart spec)
      else
        let (endVal, endEnd) := strtoul endStr
        if endEnd ≠ [] then .error (.invalidEnd spec)
        else if endVal ≤ startVal then .error (.endNotAfterStart spec endVal startVal)
        else .ok (startVal.toUInt32, endVal.toUInt32)
  | none =>
    let (lineVal, lineEnd) := strtoul spec
    if lineEnd ≠ [] then .error (.invalidLine spec)
    else .ok (lineVal.toUInt32, (lineVal + 1).toUInt32)

def parseLineSpecs (linePart : Text) : Except ScopeError (List (UInt32 × UInt32)) :=
  (items isWhitespace ',' linePart).mapM parseLineSpec

def parseDefinition (definition : Text) : Except ScopeError ScopeEntry := do
  let (filePart, linePart) := splitDefinition definition
  let ranges ← parseLineSpecs linePart
  return ⟨filePart, filePart.head? = some '/', ranges⟩

/-- The loop over the definitions: entries before a faulty one stay. The result is `none` where the
source returns true. -/
def parseAll : List Text → List ScopeEntry → List ScopeEntry × Option ScopeError
  | [], entries => (entries, none)
  | definition :: rest, entries =>
    match parseDefinition definition with
    | .error fault => (entries, some fault)
    | .ok entry => parseAll rest (entries ++ [entry])

def parseDefinitions (input : Text) (entries : List ScopeEntry) : List ScopeEntry × Option ScopeError :=
  parseAll (items isWhitespace ';' input) entries

/-- The lines of a scope file joined with semicolons, without blank lines and comments. -/
def combineLines (content : Text) : Text :=
  ((items isWhitespace '\n' content).filter (·.head? ≠ some '#')).foldl
    (fun combined line => if combined = [] then line else combined ++ ';' :: line) []

/-! ### The class -/

structure Environment where
  scope : Option Text
  scopeFile : Option Text
  /-- The content of the file at a path; `none` when it cannot be opened. -/
  files : Text → Option Text

def parseFile (files : Text → Option Text) (path : Text) (entries : List ScopeEntry) :
    List ScopeEntry × Option ScopeError :=
  match files path with
  | none => (entries, some (.cannotOpen path))
  | some content =>
    let combined := combineLines content
    if combined = [] then (entries, none) else parseDefinitions combined entries

structure InstrumentationScope where
  entries : List ScopeEntry := []
  active : Bool := false
  deriving DecidableEq, Repr

/-- A variable that is not set or empty is skipped. -/
def parseVariable (value : Option Text) (parse : Text → List ScopeEntry → List ScopeEntry × Option ScopeError)
    (entries : List ScopeEntry) : List ScopeEntry × Option ScopeError :=
  match value with
  | none => (entries, none)
  | some text => if text = [] then (entries, none) else parse text entries

namespace InstrumentationScope

def activeMessage (count : Nat) : Text :=
  "InstrumentationScope: ".toList ++ (toString count).toList ++ " scope definition(s) active\n".toList

/-- The constructor, with what it writes to `llvm::errs()`. -/
def construct (env : Environment) : InstrumentationScope × Text :=
  if env.scope = none ∧ env.scopeFile = none then ({}, [])
  else
    let first := parseVariable env.scope parseDefinitions []
    let parsed := if first.2 = none then parseVariable env.scopeFile (parseFile env.files) first.1 else first
    match parsed with
    | (_, some fault) => ({}, fault.message)
    | (entries, none) =>
      if entries = [] then ({}, []) else (⟨entries, true⟩, activeMessage entries.length)

def isActive (scope : InstrumentationScope) : Bool := scope.active

end InstrumentationScope

namespace ScopeEntry

def fileMatches (entry : ScopeEntry) (file : Text) : Bool :=
  if entry.filePattern = [] then true
  else if entry.isFullPath then file = entry.filePattern
  else if entry.filePattern.length ≤ file.length then
    file.drop (file.length - entry.filePattern.length) = entry.filePattern
  else false

def lineMatches (entry : ScopeEntry) (line : UInt32) : Bool :=
  if entry.ranges = [] then true else entry.ranges.any fun range => range.1 ≤ line ∧ line < range.2

end ScopeEntry

def InstrumentationScope.matches (scope : InstrumentationScope) (file : Text) (line : UInt32) : Bool :=
  if !scope.active then true else scope.entries.any fun entry => entry.fileMatches file && entry.lineMatches line

end Omniprobe.Scope
