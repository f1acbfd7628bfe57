import Omniprobe.Lib.JsonUtf8
import Omniprobe.Memory.JsonBody

/-!
# The object of a dispatch

The value that the tables of a dispatch stand for, and when the text of the report denotes it and is
UTF-8.
-/

namespace Omniprobe.Memory
open Lib
open Json.Value (indentation)

/-! ### The object that the tables stand for -/

section
open Json

def locationValue (location : Location) : Value :=
  .object [("file".toList, .string location.fname), ("line".toList, .number location.line.toNat),
    ("column".toList, .number location.column.toNat)]

def globalValue (location : Location) (access : GlobalAccesses) (context type instruction : Text) : Value :=
  .object [("source_location".toList, locationValue location), ("code_context".toList, .string context),
    ("access_info".toList, .object [("type".toList, .string type), ("execution_count".toList, .number access.noAccesses),
      ("ir_bytes".toList, .number access.irAccessSize.toNat), ("isa_bytes".toList, .number access.isaAccessSize.toNat),
      ("isa_instruction".toList, .string instruction),
      ("cache_lines".toList, .object [("needed".toList, .number access.minCacheLinesNeeded),
        ("used".toList, .number access.noCacheLinesUsed)])])]

def ldsValue (location : Location) (access : LdsAccesses) (context type : Text) : Value :=
  .object [("source_location".toList, locationValue location), ("code_context".toList, .string context),
    ("access_info".toList, .object [("type".toList, .string type), ("execution_count".toList, .number access.noAccesses),
      ("ir_bytes".toList, .number access.irAccessSize.toNat),
      ("total_conflicts".toList, .number access.noBankConflicts)])]

def objectValue (kernel : Text) (dispatchId : UInt64) (globals lds : List Value) (version timestamp arch : Text)
    (cacheLineSize : Nat) : Value :=
  .object [
    ("kernel_analysis".toList, .object [
      ("kernel_info".toList, .object [("name".toList, .string kernel), ("dispatch_id".toList, .number dispatchId.toNat)]),
      ("cache_analysis".toList, .object [("accesses".toList, .array globals)]),
      ("bank_conflicts".toList, .object [("accesses".toList, .array lds)])]),
    ("metadata".toList, .object [("version".toList, .string version), ("timestamp".toList, .string timestamp),
      ("gpu_info".toList, .object [("architecture".toList, .string arch),
        ("cache_line_size".toList, .number cacheLineSize)])])]

end

/-! ### The text as printed lines -/

/-- The line that `getCodeContext` looks up. -/
def SourceFiles.sourceLine (files : SourceFiles) (location : Location) : Text :=
  if location.line = 0 then [] else (files.lines location.fname).getD (location.line.toNat - 1) []

def SourceFiles.codeContext (files : SourceFiles) (location : Location) : Text :=
  trim (· == ' ') (expandTabs (files.sourceLine location))

theorem getCodeContext_fst {files : SourceFiles} (cache : SourceCache files) (location : Location) :
    (getCodeContext cache location.fname location.line).1 = files.codeContext location := by
  obtain ⟨fname, line, column⟩ := location
  have current : (if fname = cache.fname then cache else ⟨fname, files.lines fname, rfl⟩ : SourceCache files).lines =
      files.lines fname := by
    split
    · rename_i same
      rw [cache.current, same]
    · rfl
  simp only [getCodeContext, SourceFiles.codeContext, SourceFiles.sourceLine, current]
  by_cases zero : line = 0
  · simp [zero, expandTabs, trim]
  · rw [if_neg zero]
    split
    · rename_i outside
      have long := outside.resolve_left zero
      rw [List.getD_eq_default _ _ (by omega)]
      rfl
    · rfl

section
open Json.Value
variable {α : Type} {files : SourceFiles} {accessText : Location → α → Text → Text} {shown : Location × α → Text}
variable (each : ∀ entry, accessText entry.1 entry.2 (files.codeContext entry.1) = indentation 8 ++ shown entry)
include each

theorem accessesText_false (cache : SourceCache files) (entries : List (Location × α)) :
    (accessesText accessText false cache entries).1 =
      (entries.map shown).flatMap fun text => ',' :: '\n' :: (indentation 8 ++ text) := by
  induction entries generalizing cache with
  | nil => rfl
  | cons entry rest ih =>
    obtain ⟨location, access⟩ := entry
    rw [List.map_cons, List.flatMap_cons, ← ih (getCodeContext cache location.fname location.line).2, ← each]
    simp [accessesText, getCodeContext_fst]

/-- The loop prints the lines of an array's items, up to the last line break. -/
theorem accessesText_true (cache : SourceCache files) (entries : List (Location × α)) :
    (accessesText accessText true cache entries).1 ++ ['\n'] = lines 8 (entries.map shown) := by
  cases entries with
  | nil => rfl
  | cons entry rest =>
    obtain ⟨location, access⟩ := entry
    rw [List.map_cons, lines_cons, ← each,
      ← accessesText_false each (getCodeContext cache location.fname location.line).2]
    simp [accessesText, getCodeContext_fst]

end

section
open Json Json.Value
variable (env : ReportEnv)

/-- The members of an entry as they are printed. -/
def ReportEnv.globalTree (entry : Location × GlobalAccesses) : Value :=
  globalValue entry.1 entry.2 (env.files.codeContext entry.1) (env.rw2str entry.2.rwKind) entry.2.isaInstruction

def ReportEnv.ldsTree (entry : Location × LdsAccesses) : Value :=
  ldsValue entry.1 entry.2 (env.files.codeContext entry.1) (env.rw2str entry.2.rwKind)

theorem globalAccessText_eq_print (entry : Location × GlobalAccesses) :
    env.globalAccessText entry.1 entry.2 (env.files.codeContext entry.1) =
      indentation 8 ++ (env.globalTree entry).print 8 := by
  unfold ReportEnv.globalAccessText
  simp only [ReportEnv.globalTree, globalValue, locationValue, print, printMembers, lines, field, Text.delimited, decimal,
    List.append_assoc, List.cons_append, List.nil_append]

theorem ldsAccessText_eq_print (entry : Location × LdsAccesses) :
    env.ldsAccessText entry.1 entry.2 (env.files.codeContext entry.1) =
      indentation 8 ++ (env.ldsTree entry).print 8 := by
  unfold ReportEnv.ldsAccessText
  simp only [ReportEnv.ldsTree, ldsValue, locationValue, print, printMembers, lines, field, Text.delimited, decimal,
    List.append_assoc, List.cons_append, List.nil_append]

theorem object_eq_print (cache : SourceCache env.files) (kernel : Text) (dispatchId : UInt64) (handler : Handler) :
    (handler.jsonReport env cache kernel dispatchId).object =
      (objectValue kernel dispatchId ((allEntries handler.globalAccesses).map env.globalTree)
        ((allEntries handler.ldsAccesses).map env.ldsTree) env.version (putTime env.now) env.gpuInfo.1
        env.gpuInfo.2).print 0 := by
  have globals := accessesText_true (globalAccessText_eq_print env) cache (allEntries handler.globalAccesses)
  have lds := accessesText_true (ldsAccessText_eq_print env)
    (accessesText env.globalAccessText true cache (allEntries handler.globalAccesses)).2 (allEntries handler.ldsAccesses)
  have opening : "\x7b\n".toList = ['\x7b', '\n'] := rfl
  have outermost : indentation 0 = [] := rfl
  rw [JsonReport.object, Handler.jsonReport, opening]
  unfold jsonBody
  simp only [objectValue, print, printMembers, printItems_map, lines, Nat.zero_add, Nat.reduceAdd, outermost, ← globals,
    ← lds, field, Text.delimited, decimal, List.append_assoc, List.cons_append, List.nil_append]

end

/-! ### What is simple whatever the tables hold -/

section
open Json hiding isSpace

theorem simple_twoDigits (n : Fin 100) : Simple (twoDigits n) := by
  refine simple_of_forall_isDigit fun c member => ?_
  have small : (n : Nat) / 10 < 10 := by omega
  have rest : (n : Nat) % 10 < 10 := Nat.mod_lt _ (by decide)
  rcases List.mem_pair.mp member with rfl | rfl
  · rw [Nat.isDigit_digitChar, decide_eq_true small]
  · rw [Nat.isDigit_digitChar, decide_eq_true rest]

theorem simple_putTime (tm : Tm) : Simple (putTime tm) := by
  have year : Simple (decimal tm.year) := simple_toDigits tm.year
  have separated (s : Text) {c : Char} (first : Simple [c]) (rest : Simple s) : Simple (c :: s) := simple_append first rest
  exact simple_append year <| separated _ (by decide) <| simple_append (simple_twoDigits _) <| separated _ (by decide) <|
    simple_append (simple_twoDigits _) <| separated _ (by decide) <| simple_append (simple_twoDigits _) <|
    separated _ (by decide) <| simple_append (simple_twoDigits _) <| separated _ (by decide) (simple_twoDigits _)

theorem simple_rw2str (env : ReportEnv) (rwKind : UInt8) : Simple (env.rw2str rwKind) := by
  unfold ReportEnv.rw2str
  split
  · rename_i name found
    have member := List.mem_of_find?_eq_some found
    have names : ∀ entry ∈ env.rw2strMap, Simple entry.2.toList := by
      simp only [ReportEnv.rw2strMap, List.forall_mem_cons, List.not_mem_nil, false_imp_iff, implies_true, and_true]
      decide
    exact names _ member
  · decide

/-- What can stand in a line of a source file without spoiling the object. -/
def PlainLine (line : Text) : Prop := ∀ c ∈ line, c = '\t' ∨ (c ≠ '"' ∧ c ≠ '\\' ∧ ¬c.toNat < 0x20)

theorem plain_expandTabs_iff (line : Text) : Plain (expandTabs line) ↔ PlainLine line := by
  have blanks : Plain (List.replicate 8 ' ') := by decide
  have each (c : Char) : Plain (if c = '\t' then List.replicate 8 ' ' else [c]) ↔
      c = '\t' ∨ (c ≠ '"' ∧ c ≠ '\\' ∧ ¬c.toNat < 0x20) := by
    split
    · rename_i tab
      exact iff_of_true blanks (.inl tab)
    · rename_i other
      rw [or_iff_right other]
      exact List.forall_mem_singleton
  rw [PlainLine, ← forall₂_congr fun c _ => each c]
  constructor
  · intro plain c member d inside
    exact plain d (List.mem_flatMap.mpr ⟨c, member, inside⟩)
  · intro plain d inside
    obtain ⟨c, member, inside⟩ := List.mem_flatMap.mp inside
    exact plain c member d inside

theorem plain_trim_iff (text : Text) : Plain (trim (· == ' ') text) ↔ Plain text := by
  obtain ⟨before, after, whole, leading, trailing, -⟩ := trim_split (· == ' ') text
  have blanks (s : Text) (blank : ∀ c ∈ s, (c == ' ') = true) : Plain s := by
    intro c member
    obtain rfl := eq_of_beq (blank c member)
    decide
  conv_rhs => rw [whole]
  rw [plain_append_iff, plain_append_iff, and_iff_left (blanks after trailing), and_iff_right (blanks before leading)]

/-- Without control characters, blanks are the only white space. -/
theorem trim_isSpace_eq {text : Text} (visible : ∀ c ∈ trim (· == ' ') text, ¬c.toNat < 0x20) :
    trim isSpace text = trim (· == ' ') text := by
  obtain ⟨before, after, whole, leading, trailing, trimmed⟩ := trim_split (· == ' ') text
  have space {s : Text} (blank : ∀ c ∈ s, (c == ' ') = true) : ∀ c ∈ s, isSpace c = true := by
    intro c member
    rw [eq_of_beq (blank c member)]
    rfl
  have kept {c : Char} (visible : ¬c.toNat < 0x20) (other : (c == ' ') = false) : isSpace c = false := by
    have codes : '\t'.toNat = 9 ∧ '\n'.toNat = 10 ∧ '\x0b'.toNat = 11 ∧ '\x0c'.toNat = 12 ∧ '\r'.toNat = 13 := by decide
    rw [isSpace, decide_eq_false_iff_not]
    simp only [List.mem_cons, List.not_mem_nil, or_false]
    rintro (rfl | rfl | rfl | rfl | rfl | rfl)
    · exact absurd other (by decide)
    all_goals omega
  conv_lhs => rw [whole]
  refine trim_padded ⟨fun c first => ?_, fun c last => ?_⟩ (space leading) (space trailing)
  · exact kept (visible c (List.mem_of_mem_head? first)) (trimmed.1 c first)
  · exact kept (visible c (List.mem_of_mem_getLast? last)) (trimmed.2 c last)

/-- The context of an entry is the trimmed line exactly when the line leaves the object as it is. -/
theorem inner_context_iff (line : Text) :
    Json.Inner (trim (· == ' ') (expandTabs line)) (trim isSpace (expandTabs line)) ↔ PlainLine line := by
  rw [← plain_expandTabs_iff, ← plain_trim_iff]
  constructor
  · intro inner
    rwa [trim_isSpace_eq inner.visible, inner_self_iff] at inner
  · intro plain
    rwa [trim_isSpace_eq fun c member => (plain c member).2.2, inner_self_iff]

end

/-! ### When the text denotes the object -/

section
open Json.Value
open Json (Value Plain Simple Utf8)

/-- What an entry is to be decoded to. The instruction can be any string. -/
def ReportEnv.globalElement (env : ReportEnv) (entry : Location × GlobalAccesses) (instruction : Text) : Value :=
  globalValue entry.1 entry.2 (trim isSpace (expandTabs (env.files.sourceLine entry.1))) (env.rw2str entry.2.rwKind)
    instruction

def ReportEnv.ldsElement (env : ReportEnv) (entry : Location × LdsAccesses) : Value :=
  ldsValue entry.1 entry.2 (trim isSpace (expandTabs (env.files.sourceLine entry.1))) (env.rw2str entry.2.rwKind)

/-- The text is a JSON object that gives back the kernel and one element per entry of the tables, in
order, with its location, counts, sizes and source line. -/
def DenotesReport (env : ReportEnv) (kernel : Text) (dispatchId : UInt64) (handler : Handler) (text : Text) : Prop :=
  ∃ (globals : List ((Location × GlobalAccesses) × Text)) (version arch : Text),
    globals.map Prod.fst = allEntries handler.globalAccesses ∧
      (objectValue kernel dispatchId (globals.map fun pair => env.globalElement pair.1 pair.2)
        ((allEntries handler.ldsAccesses).map env.ldsElement) version (putTime env.now) arch env.gpuInfo.2).Denotes text

theorem plainKeys_globalValue (location : Location) (access : GlobalAccesses) (context type instruction : Text) :
    (globalValue location access context type instruction).PlainKeys := by
  simp only [globalValue, locationValue, PlainKeys, PlainKeysMembers, and_true, true_and]
  decide

theorem plainKeys_ldsValue (location : Location) (access : LdsAccesses) (context type : Text) :
    (ldsValue location access context type).PlainKeys := by
  simp only [ldsValue, locationValue, PlainKeys, PlainKeysMembers, and_true, true_and]
  decide

theorem plainKeys_objectValue {globals lds : List Value} (plainGlobals : PlainKeysItems globals)
    (plainLds : PlainKeysItems lds) (kernel : Text) (dispatchId : UInt64) (version timestamp arch : Text)
    (cacheLineSize : Nat) :
    (objectValue kernel dispatchId globals lds version timestamp arch cacheLineSize).PlainKeys := by
  simp only [objectValue, PlainKeys, PlainKeysMembers, plainGlobals, plainLds, and_true, true_and]
  decide

theorem stands_globalValue_iff {location : Location} {access : GlobalAccesses}
    {context context' type instruction instruction' : Text} :
    (globalValue location access context type instruction).Stands
        (globalValue location access context' type instruction') ↔
      Plain location.fname ∧ Json.Inner context context' ∧ Plain type ∧ Json.Inner instruction instruction' := by
  simp (disch := decide) only [globalValue, locationValue, Stands, standsMembers_cons_iff, Json.inner_self_iff]
  simp [StandsMembers]

theorem stands_ldsValue_iff {location : Location} {access : LdsAccesses} {context context' type : Text} :
    (ldsValue location access context type).Stands (ldsValue location access context' type) ↔
      Plain location.fname ∧ Json.Inner context context' ∧ Plain type := by
  simp (disch := decide) only [ldsValue, locationValue, Stands, standsMembers_cons_iff, Json.inner_self_iff]
  simp [StandsMembers]

theorem stands_objectValue_iff {kernel : Text} {dispatchId : UInt64} {globals globals' lds lds' : List Value}
    {version version' timestamp arch arch' : Text} {cacheLineSize : Nat} :
    (objectValue kernel dispatchId globals lds version timestamp arch cacheLineSize).Stands
        (objectValue kernel dispatchId globals' lds' version' timestamp arch' cacheLineSize) ↔
      Plain kernel ∧ StandsItems globals globals' ∧ StandsItems lds lds' ∧ Json.Inner version version' ∧
        Plain timestamp ∧ Json.Inner arch arch' := by
  simp (disch := decide) only [objectValue, Stands, standsMembers_cons_iff, Json.inner_self_iff]
  simp [StandsMembers, and_assoc]

theorem exists_paired_iff {α β : Type} {list : List α} {P : α → β → Prop} :
    (∃ pairs : List (α × β), pairs.map Prod.fst = list ∧ ∀ pair ∈ pairs, P pair.1 pair.2) ↔ ∀ x ∈ list, ∃ y, P x y := by
  constructor
  · rintro ⟨pairs, rfl, each⟩ x member
    obtain ⟨pair, inside, rfl⟩ := List.mem_map.mp member
    exact ⟨pair.2, each pair inside⟩
  · intro each
    induction list with
    | nil => exact ⟨[], rfl, List.forall_mem_nil _⟩
    | cons x rest ih =>
      obtain ⟨⟨y, holds⟩, later⟩ := List.forall_mem_cons.mp each
      obtain ⟨pairs, firsts, others⟩ := ih later
      exact ⟨(x, y) :: pairs, by rw [List.map_cons, firsts], List.forall_mem_cons.mpr ⟨holds, others⟩⟩

section
variable (env : ReportEnv) (cache : SourceCache env.files) (kernel : Text) (dispatchId : UInt64) (handler : Handler)

theorem object_denotes_iff {globals : List ((Location × GlobalAccesses) × Text)}
    (same : globals.map Prod.fst = allEntries handler.globalAccesses) (version arch : Text) :
    (objectValue kernel dispatchId (globals.map fun pair => env.globalElement pair.1 pair.2)
        ((allEntries handler.ldsAccesses).map env.ldsElement) version (putTime env.now) arch env.gpuInfo.2).Denotes
          (handler.jsonReport env cache kernel dispatchId).object ↔
      Plain kernel ∧
        (∀ pair ∈ globals, Plain pair.1.1.fname ∧ PlainLine (env.files.sourceLine pair.1.1) ∧
          Json.Inner pair.1.2.isaInstruction pair.2) ∧
        (∀ entry ∈ allEntries handler.ldsAccesses, Plain entry.1.fname ∧ PlainLine (env.files.sourceLine entry.1)) ∧
        Json.Inner env.version version ∧ Json.Inner env.gpuInfo.1 arch := by
  have plainGlobals : PlainKeysItems (globals.map fun pair => env.globalTree pair.1) :=
    plainKeysItems_map (fun _ => plainKeys_globalValue _ _ _ _ _) globals
  have plainLds : PlainKeysItems ((allEntries handler.ldsAccesses).map env.ldsTree) :=
    plainKeysItems_map (fun _ => plainKeys_ldsValue _ _ _ _) _
  have sameGlobals : shapeItems (globals.map fun pair => env.globalTree pair.1) =
      shapeItems (globals.map fun pair => env.globalElement pair.1 pair.2) := shapeItems_map_congr fun _ => rfl
  have sameLds : shapeItems ((allEntries handler.ldsAccesses).map env.ldsTree) =
      shapeItems ((allEntries handler.ldsAccesses).map env.ldsElement) := shapeItems_map_congr fun _ => rfl
  have trees : (allEntries handler.globalAccesses).map env.globalTree = globals.map fun pair => env.globalTree pair.1 := by
    rw [← same, List.map_map]
    rfl
  have shapes : (objectValue kernel dispatchId (globals.map fun pair => env.globalTree pair.1)
      ((allEntries handler.ldsAccesses).map env.ldsTree) env.version (putTime env.now) env.gpuInfo.1
      env.gpuInfo.2).shape = (objectValue kernel dispatchId
        (globals.map fun pair => env.globalElement pair.1 pair.2)
        ((allEntries handler.ldsAccesses).map env.ldsElement) version (putTime env.now) arch env.gpuInfo.2).shape := by
    simp only [objectValue, shape, shapeMembers, sameGlobals, sameLds]
  rw [object_eq_print, trees, denotes_print_iff 0 shapes (plainKeys_objectValue plainGlobals plainLds _ _ _ _ _ _),
    stands_objectValue_iff, standsItems_map_iff, standsItems_map_iff]
  simp only [ReportEnv.globalTree, ReportEnv.ldsTree, ReportEnv.globalElement, ReportEnv.ldsElement, stands_globalValue_iff,
    stands_ldsValue_iff, SourceFiles.codeContext, inner_context_iff, (simple_rw2str env _).plain,
    (simple_putTime env.now).plain, true_and, and_true]

/-- The report is an object that gives the tables back exactly when no name and no quoted source line has a
quote, a backslash or a control character, where tabs do no harm to a line, and when the instructions, the version
and the architecture can stand between quotes. -/
theorem jsonReport_denotes_iff :
    DenotesReport env kernel dispatchId handler (handler.jsonReport env cache kernel dispatchId).object ↔
      Plain kernel ∧
        (∀ entry ∈ allEntries handler.globalAccesses, Plain entry.1.fname ∧ PlainLine (env.files.sourceLine entry.1) ∧
          ∃ instruction, Json.Inner entry.2.isaInstruction instruction) ∧
        (∀ entry ∈ allEntries handler.ldsAccesses, Plain entry.1.fname ∧ PlainLine (env.files.sourceLine entry.1)) ∧
        (∃ version, Json.Inner env.version version) ∧ ∃ arch, Json.Inner env.gpuInfo.1 arch := by
  constructor
  · rintro ⟨globals, version, arch, same, denotes⟩
    obtain ⟨name, each, lds, versioned, named⟩ := (object_denotes_iff env cache kernel dispatchId handler same _ _).mp denotes
    refine ⟨name, fun entry member => ?_, lds, ⟨version, versioned⟩, ⟨arch, named⟩⟩
    rw [← same] at member
    obtain ⟨pair, inside, rfl⟩ := List.mem_map.mp member
    obtain ⟨file, line, instruction⟩ := each pair inside
    exact ⟨file, line, pair.2, instruction⟩
  · rintro ⟨name, each, lds, ⟨version, versioned⟩, arch, named⟩
    obtain ⟨globals, same, decoded⟩ := exists_paired_iff.mpr fun entry member => (each entry member).2.2
    refine ⟨globals, version, arch, same, (object_denotes_iff env cache kernel dispatchId handler same _ _).mpr ?_⟩
    refine ⟨name, fun pair inside => ?_, lds, versioned, named⟩
    have member : pair.1 ∈ allEntries handler.globalAccesses := by
      rw [← same]
      exact List.mem_map_of_mem inside
    obtain ⟨file, line, -⟩ := each pair.1 member
    exact ⟨file, line, decoded pair inside⟩

/-- As JSON has to be, the report is UTF-8 exactly when the names, the quoted source lines, the instructions, the version
and the architecture are. -/
theorem jsonReport_utf8_iff :
    Utf8 (handler.jsonReport env cache kernel dispatchId).object ↔
      Utf8 kernel ∧
        (∀ entry ∈ allEntries handler.globalAccesses, Utf8 entry.1.fname ∧ Utf8 (env.files.codeContext entry.1) ∧
          Utf8 entry.2.isaInstruction) ∧
        (∀ entry ∈ allEntries handler.ldsAccesses, Utf8 entry.1.fname ∧ Utf8 (env.files.codeContext entry.1)) ∧
        Utf8 env.version ∧ Utf8 env.gpuInfo.1 := by
  have kind : ∀ rwKind, Utf8 (env.rw2str rwKind) := fun rwKind => (simple_rw2str env rwKind).utf8
  have time : Utf8 (putTime env.now) := (simple_putTime env.now).utf8
  rw [object_eq_print, utf8_print_iff]
  simp (disch := decide) only [objectValue, strings, utf8_stringsMembers_cons_iff, utf8_stringsItems_map_iff,
    ReportEnv.globalTree, ReportEnv.ldsTree, globalValue, ldsValue, locationValue, List.forall_mem_singleton]
  simp [stringsMembers, kind, time, and_assoc]

end

namespace ReportEnv.Sample

def line : Text := "  if (verbose) printf(\"%f\", x[i]);".toList

def files : SourceFiles where
  content fname := if fname = "copy.hip".toList then some line else none
  unnamed := rfl

def env : ReportEnv where
  files
  versionFile := some "0.1.0\n".toList
  now := ⟨2025, 6, 1, 12, 30, 0⟩
  kernelFilter := none
  gcnArchName := some "gfx942:sramecc+:xnack-".toList
  l2CacheLineSize _ := 128
  undefinedKind := 0
  readKind := 1
  writeKind := 2
  readWriteKind := 3

def location : Location := ⟨"copy.hip".toList, 1, 20⟩

def access : GlobalAccesses := ⟨1, 4, 0, 1, [], 2, 2⟩

def handler : Handler where
  globalAccesses := (∅ : FileLineColAccess GlobalAccesses).insert location.fname
    ((∅ : Lib.Map UInt16 _).insert location.line ((∅ : Lib.Map UInt16 _).insert location.column [access]))

theorem mem_allEntries : (location, access) ∈ allEntries handler.globalAccesses := by
  rw [allEntries, mem_shownEntries_iff]
  simp [accessesAt, find₂, handler]

end ReportEnv.Sample

/-- A quote in a source line ends the literal. -/
theorem jsonReport_quoted_line :
    ¬DenotesReport ReportEnv.Sample.env "copy".toList 1 ReportEnv.Sample.handler
      (ReportEnv.Sample.handler.jsonReport ReportEnv.Sample.env (SourceCache.initial _) "copy".toList 1).object := by
  rintro ⟨globals, version, arch, same, denotes⟩
  have member := ReportEnv.Sample.mem_allEntries
  rw [← same] at member
  obtain ⟨pair, inside, first⟩ := List.mem_map.mp member
  obtain ⟨-, each, -⟩ := (object_denotes_iff _ _ _ _ _ same _ _).mp denotes
  have plain := (each pair inside).2.1
  rw [first] at plain
  have quoted : '"' ∈ ReportEnv.Sample.env.files.sourceLine ReportEnv.Sample.location := by
    decide
  exact absurd (plain _ quoted) (by decide)

end

end Omniprobe.Memory
