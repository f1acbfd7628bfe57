import Omniprobe.Lib.JsonLine
import Omniprobe.Memory.Handler

/-!
# The JSON report

Every dispatch's handler appends its object to the log file and decides from its dispatch id what
stands before it. The `omniprobe` script closes the array after the run. `setupLogger` opens a stream
for every report and nothing flushes or closes it, so the file has what the stream has passed on when
the text is inserted, and the rest is lost when the process ends.
-/

namespace Omniprobe.Memory
open Lib

/-! ### The handlers' part -/

/-- The values that `report_json` frames its object with. `body` is what it prints between the braces. -/
structure JsonReport where
  dispatchId : UInt64
  hasData : Bool
  body : Text

def console : Text := "console".toList

def JsonReport.object (report : JsonReport) : Text := "\x7b\n".toList ++ report.body ++ ['\x7d']

/-- What stands before the object. -/
def JsonReport.opening (location : Text) (report : JsonReport) : Text :=
  let isFirstDispatch : Bool := report.dispatchId = 1
  let isConsoleOutput : Bool := location = console
  if !isConsoleOutput && (isFirstDispatch || (report.dispatchId = 0 && report.hasData)) then "[\n".toList
  else if !isFirstDispatch && report.dispatchId > 0 then ",\n".toList
  else []

def reportJson (location : Text) (report : JsonReport) : Text :=
  report.opening location ++ report.object ++ if location = console then ['\n'] else []

/-- `basic_filebuf::xsputn` of a stream that nothing was written to before, with `bufavail` bytes free in
its buffer: what it passes on to the file. A text that fits into the buffer stays there. -/
def xsputn (bufavail : Nat) (s : Text) : Text := if bufavail ≤ s.length then s else []

/-- The log file, opened for appending; `none` while there is no file. -/
def appendReport (bufavail : Nat) (location : Text) (file : Option Text) (report : JsonReport) : Option Text :=
  some (file.getD [] ++ xsputn bufavail (reportJson location report))

/-! ### The script's part -/

/-- The white space that `str.strip()` removes. -/
def isPythonSpace (c : Char) : Bool :=
  (9 ≤ c.toNat && c.toNat ≤ 13) || (28 ≤ c.toNat && c.toNat ≤ 32) || c.toNat == 0x85 || c.toNat == 0xa0 ||
    c.toNat == 0x1680 || (0x2000 ≤ c.toNat && c.toNat ≤ 0x200a) || c.toNat == 0x2028 || c.toNat == 0x2029 ||
    c.toNat == 0x202f || c.toNat == 0x205f || c.toNat == 0x3000

def strip (s : Text) : Text := trim isPythonSpace s

def memAnalysisHandler : Text := "libMemAnalysis64.so".toList

def finalizeJsonOutput (location : Text) (handlers : List Text) (logFormat : Option Text) (file : Option Text) :
    Option Text :=
  if location = console then file
  else if !handlers.any fun handler => (Text.rfind memAnalysisHandler handler).isSome then file
  else if logFormat = some "json".toList then
    match file with
    | none => none
    | some written =>
      if written.length > 0 then
        let content := strip written
        if "[".toList.isPrefixOf content then some (written ++ "\n]".toList)
        else if "\x7b".toList.isPrefixOf content && !"]".toList.isSuffixOf content then
          some ("[\n".toList ++ content ++ "\n]".toList)
        else some written
      else some written
  else file

/-! ### A run -/

/-- The file after all the reports of a run have been written to a fresh file, in order, and the
script has finished. -/
def finalFile (bufavail : Nat) (location : Text) (handlers : List Text) (reports : List JsonReport) : Option Text :=
  finalizeJsonOutput location handlers (some "json".toList) (reports.foldl (appendReport bufavail location) none)

section
variable {location : Text} (elsewhere : location ≠ console)
include elsewhere

theorem reportJson_first {report : JsonReport} (first : report.dispatchId = 1) :
    reportJson location report = "[\n".toList ++ report.object := by
  simp [reportJson, JsonReport.opening, first, elsewhere]

theorem reportJson_later {report : JsonReport} (numbered : 0 < report.dispatchId) (later : report.dispatchId ≠ 1) :
    reportJson location report = ",\n".toList ++ report.object := by
  have nonzero : report.dispatchId ≠ 0 := by
    rintro zero
    rw [zero] at numbered
    exact absurd numbered (by decide)
  simp [reportJson, JsonReport.opening, later, nonzero, numbered, elsewhere]

end

theorem foldl_appendReport (bufavail : Nat) (location : Text) (reports : List JsonReport) (written : Text) :
    reports.foldl (appendReport bufavail location) (some written) =
      some (written ++ (reports.map fun report => xsputn bufavail (reportJson location report)).flatten) := by
  induction reports generalizing written with
  | nil => simp
  | cons report rest ih =>
    rw [List.foldl_cons, appendReport, Option.getD_some, ih]
    simp

theorem strip_cons {c : Char} (visible : isPythonSpace c = false) (rest : Text) :
    ∃ tail, strip (c :: rest) = c :: tail := by
  have kept : ¬isPythonSpace c = true := by simp [visible]
  rw [strip, trim, List.dropWhile_cons_of_neg kept]
  cases stripped : (c :: rest).rdropWhile isPythonSpace with
  | nil =>
    have all := List.rdropWhile_eq_nil_iff.mp stripped c List.mem_cons_self
    exact (kept all).elim
  | cons d tail =>
    have starts := List.rdropWhile_prefix isPythonSpace (l := c :: rest)
    rw [stripped, List.cons_prefix_cons] at starts
    exact ⟨tail, by rw [starts.1]⟩

section
variable {location : Text} {handlers : List Text} (elsewhere : location ≠ console)
  (used : ∃ handler ∈ handlers, (Text.rfind memAnalysisHandler handler).isSome)
include elsewhere used

/-- What the script does to a file of the memory analysis in JSON format. -/
theorem finalizeJsonOutput_eq {c : Char} (visible : isPythonSpace c = false) (other : c ≠ '\x7b') (rest : Text) :
    finalizeJsonOutput location handlers (some "json".toList) (some (c :: rest)) =
      some (if c = '[' then c :: rest ++ "\n]".toList else c :: rest) := by
  obtain ⟨tail, stripped⟩ := strip_cons visible rest
  have analysed : (handlers.any fun handler => (Text.rfind memAnalysisHandler handler).isSome) = true :=
    List.any_eq_true.mpr used
  unfold finalizeJsonOutput
  rw [if_neg elsewhere, analysed]
  simp only [Bool.not_true, Bool.false_eq_true, if_false, if_true, List.length_cons, Nat.succ_pos, stripped]
  by_cases bracket : c = '['
  · simp [bracket]
  · have noBracket : ('[' == c) = false := beq_eq_false_iff_ne.mpr (Ne.symm bracket)
    have noBrace : ('\x7b' == c) = false := beq_eq_false_iff_ne.mpr (Ne.symm other)
    simp [bracket, List.isPrefixOf, noBracket, noBrace]

end

/-! ### The array -/

theorem joined_reports {location : Text} (elsewhere : location ≠ console) (first : JsonReport)
    {rest : List JsonReport} (numbered : ∀ report ∈ rest, 0 < report.dispatchId)
    (later : ∀ report ∈ rest, report.dispatchId ≠ 1) :
    Joined Json.isSpace ',' ((first :: rest).map JsonReport.object)
      (first.object ++ (rest.map (reportJson location)).flatten) := by
  induction rest generalizing first with
  | nil =>
    simp only [List.map_cons, List.map_nil, List.flatten_nil, List.append_nil]
    exact .one _
  | cons report rest ih =>
    have joined := ih report (fun other member => numbered other (List.mem_cons_of_mem _ member))
      fun other member => later other (List.mem_cons_of_mem _ member)
    have text := reportJson_later elsewhere (numbered report List.mem_cons_self) (later report List.mem_cons_self)
    have newline : ∀ c ∈ ['\n'], Json.isSpace c = true := List.forall_mem_singleton.mpr rfl
    have more := Joined.more first.object [] ['\n'] (List.forall_mem_nil _) newline joined
    simpa [text] using more

/-- The file is one array of the reports' objects. -/
def IsArrayOfReports (reports : List JsonReport) (file : Option Text) : Prop :=
  ∃ elements text, elements.Perm (reports.map JsonReport.object) ∧ file = some text ∧ Json.Document elements text

theorem document_of_reports {location : Text} (elsewhere : location ≠ console) (first : JsonReport)
    {rest : List JsonReport} (numbered : ∀ report ∈ rest, 0 < report.dispatchId)
    (later : ∀ report ∈ rest, report.dispatchId ≠ 1) :
    Json.Document ((first :: rest).map JsonReport.object)
      ("[\n".toList ++ first.object ++ (rest.map (reportJson location)).flatten ++ "\n]".toList) := by
  have newline : Json.Spaces ['\n'] := List.forall_mem_singleton.mpr rfl
  have none : Json.Spaces [] := List.forall_mem_nil _
  have array := Json.ArrayText.items newline (joined_reports elsewhere first numbered later) newline
  exact ⟨[], _, [], by simp, none, array, none⟩

/-! ### What reaches the file -/

theorem xsputn_of_le {bufavail : Nat} {s : Text} (long : bufavail ≤ s.length) : xsputn bufavail s = s := if_pos long

/-- Text is lost exactly when some of it can be missed. -/
theorem totalInk_xsputn (bufavail : Nat) {texts : List Text} (visible : ∀ text ∈ texts, 0 < Json.ink text) :
    Json.totalInk (texts.map (xsputn bufavail)) ≤ Json.totalInk texts ∧
      (Json.totalInk texts ≤ Json.totalInk (texts.map (xsputn bufavail)) → ∀ text ∈ texts, bufavail ≤ text.length) := by
  induction texts with
  | nil => exact ⟨le_rfl, fun _ _ member => absurd member (List.not_mem_nil)⟩
  | cons text rest ih =>
    obtain ⟨marked, visible⟩ := List.forall_mem_cons.mp visible
    obtain ⟨bound, all⟩ := ih visible
    rw [List.map_cons, Json.totalInk_cons, Json.totalInk_cons]
    by_cases long : bufavail ≤ text.length
    · rw [xsputn_of_le long]
      refine ⟨Nat.add_le_add_left bound _, fun same => List.forall_mem_cons.mpr ⟨long, all ?_⟩⟩
      omega
    · have kept : Json.ink (xsputn bufavail text) = 0 := by
        rw [xsputn, if_neg long]
        rfl
      rw [kept]
      exact ⟨by omega, fun same => by omega⟩

section
variable {location : Text} (elsewhere : location ≠ console)
include elsewhere

theorem reportJson_head {report : JsonReport} (numbered : 0 < report.dispatchId) :
    (reportJson location report).head? = some (if report.dispatchId = 1 then '[' else ',') := by
  by_cases one : report.dispatchId = 1
  · rw [reportJson_first elsewhere one, if_pos one]
    rfl
  · rw [reportJson_later elsewhere numbered one, if_neg one]
    rfl

theorem ink_reportJson {report : JsonReport} (numbered : 0 < report.dispatchId) :
    Json.ink (reportJson location report) = Json.ink report.object + 1 := by
  by_cases one : report.dispatchId = 1
  · rw [reportJson_first elsewhere one, Json.ink_append, Nat.add_comm]
    rfl
  · rw [reportJson_later elsewhere numbered one, Json.ink_append, Nat.add_comm]
    rfl

theorem totalInk_reportJson {reports : List JsonReport} (numbered : ∀ report ∈ reports, 0 < report.dispatchId) :
    Json.totalInk (reports.map (reportJson location)) =
      Json.totalInk (reports.map JsonReport.object) + reports.length := by
  induction reports with
  | nil => rfl
  | cons report rest ih =>
    obtain ⟨positive, numbered⟩ := List.forall_mem_cons.mp numbered
    have first := ink_reportJson elsewhere positive
    have later := ih numbered
    rw [List.map_cons, List.map_cons, Json.totalInk_cons, Json.totalInk_cons, List.length_cons]
    omega

/-- The first character in the file is the first one of a report. -/
theorem head_passed (bufavail : Nat) {reports : List JsonReport} (numbered : ∀ report ∈ reports, 0 < report.dispatchId)
    {c : Char} {tail : Text} (passed : ((reports.map (reportJson location)).map (xsputn bufavail)).flatten = c :: tail) :
    c = '[' ∨ c = ',' := by
  induction reports with
  | nil => cases passed
  | cons report rest ih =>
    obtain ⟨positive, numbered⟩ := List.forall_mem_cons.mp numbered
    have starts := reportJson_head elsewhere positive
    rw [List.map_cons, List.map_cons, List.flatten_cons] at passed
    by_cases long : bufavail ≤ (reportJson location report).length
    · rw [xsputn_of_le long] at passed
      obtain ⟨text, split⟩ := List.head?_eq_some_iff.mp starts
      rw [split] at passed
      obtain ⟨same, -⟩ := List.cons.inj passed
      rw [← same]
      split <;> simp
    · rw [xsputn, if_neg long, List.nil_append] at passed
      exact ih numbered passed

end

theorem finalizeJsonOutput_empty (location : Text) (handlers : List Text) (logFormat : Option Text) :
    finalizeJsonOutput location handlers logFormat (some []) = some [] := by
  simp [finalizeJsonOutput]

/-- A file that is one array of the reports has lost none of them. -/
theorem whole_of_array {bufavail : Nat} {location : Text} {reports : List JsonReport} (elsewhere : location ≠ console)
    (nonempty : reports ≠ []) (numbered : ∀ report ∈ reports, 0 < report.dispatchId) {elements : List Text}
    (perm : elements.Perm (reports.map JsonReport.object))
    (document : Json.Document elements
      (((reports.map (reportJson location)).map (xsputn bufavail)).flatten ++ "\n]".toList)) :
    ∀ report ∈ reports, bufavail ≤ (reportJson location report).length := by
  have visible : ∀ text ∈ reports.map (reportJson location), 0 < Json.ink text := by
    intro text member
    obtain ⟨report, present, rfl⟩ := List.mem_map.mp member
    rw [ink_reportJson elsewhere (numbered report present)]
    exact Nat.succ_pos _
  have counted : elements.length = reports.length := perm.length_eq.trans (List.length_map _)
  have some : elements ≠ [] := List.ne_nil_of_length_pos (counted ▸ List.length_pos_of_ne_nil nonempty)
  have read := document.ink some
  rw [Json.ink_append, Json.ink_flatten, Json.totalInk_perm perm, counted] at read
  have closing : Json.ink "\n]".toList = 1 := by decide
  have printed := totalInk_reportJson elsewhere numbered
  intro report member
  exact (totalInk_xsputn bufavail visible).2 (by omega) _ (List.mem_map_of_mem member)

/-- The file left by a run in JSON format is one array of the instrumented dispatches' objects exactly
when the report of dispatch 1 is the first to be written and no report fits into the buffer. -/
theorem finalFile_array_iff {bufavail : Nat} {location : Text} {handlers : List Text} {reports : List JsonReport}
    (elsewhere : location ≠ console)
    (used : ∃ handler ∈ handlers, (Text.rfind memAnalysisHandler handler).isSome) (nonempty : reports ≠ [])
    (numbered : ∀ report ∈ reports, 0 < report.dispatchId) (distinct : (reports.map JsonReport.dispatchId).Nodup) :
    IsArrayOfReports reports (finalFile bufavail location handlers reports) ↔
      reports.head?.map JsonReport.dispatchId = some 1 ∧
        ∀ report ∈ reports, bufavail ≤ (reportJson location report).length := by
  have written : finalFile bufavail location handlers reports =
      finalizeJsonOutput location handlers (some "json".toList)
        (some ((reports.map (reportJson location)).map (xsputn bufavail)).flatten) := by
    obtain ⟨first, rest, rfl⟩ := List.exists_cons_of_ne_nil nonempty
    rw [finalFile, List.foldl_cons, appendReport, Option.getD_none, foldl_appendReport, List.nil_append, List.map_map]
    rfl
  have intact (whole : ∀ report ∈ reports, bufavail ≤ (reportJson location report).length) :
      (reports.map (reportJson location)).map (xsputn bufavail) = reports.map (reportJson location) := by
    rw [List.map_map]
    exact List.map_congr_left fun report member => xsputn_of_le (whole report member)
  obtain ⟨first, rest, rfl⟩ := List.exists_cons_of_ne_nil nonempty
  obtain ⟨positive, later⟩ := List.forall_mem_cons.mp numbered
  rw [written, List.head?_cons, Option.map_some, Option.some.injEq]
  constructor
  · rintro ⟨elements, text, perm, final, document⟩
    cases passed : (((first :: rest).map (reportJson location)).map (xsputn bufavail)).flatten with
    | nil =>
      rw [passed, finalizeJsonOutput_empty] at final
      obtain rfl := Option.some.inj final
      obtain ⟨before, inner, behind, split, -, array, -⟩ := document
      obtain ⟨body, rfl, -⟩ := array.body
      simp at split
    | cons c tail =>
      have starts := head_passed elsewhere bufavail numbered passed
      have visible : Json.isSpace c = false ∧ isPythonSpace c = false ∧ c ≠ '\x7b' := by
        rcases starts with rfl | rfl <;> decide
      rw [passed, finalizeJsonOutput_eq elsewhere used visible.2.1 visible.2.2] at final
      obtain rfl := Option.some.inj final
      by_cases bracket : c = '['
      · rw [if_pos bracket, ← passed] at document
        have whole := whole_of_array elsewhere nonempty numbered perm document
        -- Nothing is lost, so the bracket is the one of the first report.
        rw [intact whole, List.map_cons, List.flatten_cons] at passed
        obtain ⟨line, split⟩ := List.head?_eq_some_iff.mp (reportJson_head elsewhere positive)
        rw [split, bracket] at passed
        obtain ⟨same, -⟩ := List.cons.inj passed
        refine ⟨?_, whole⟩
        by_contra other
        rw [if_neg other] at same
        exact absurd same (by decide)
      · rw [if_neg bracket] at document
        exact absurd (document.head visible.1) bracket
  · rintro ⟨one, whole⟩
    obtain ⟨apart, -⟩ := List.nodup_cons.mp distinct
    have others : ∀ report ∈ rest, report.dispatchId ≠ 1 :=
      fun report member same => apart (List.mem_map.mpr ⟨report, member, same.trans one.symm⟩)
    have array := document_of_reports elsewhere first later others
    rw [intact whole, List.map_cons, List.flatten_cons, reportJson_first elsewhere one]
    refine ⟨_, _, List.Perm.refl _, ?_, array⟩
    exact finalizeJsonOutput_eq elsewhere used rfl (by decide) _

namespace Handler.Sample

def report (id : UInt64) (blanks : Nat) : JsonReport := ⟨id, true, "  \"id\": 0\n".toList ++ List.replicate blanks ' '⟩

def logFile : Text := "log.json".toList

def plugins : List Text := ["libMemAnalysis64.so".toList]

/-- `BUFSIZ - 1`. -/
def bufavail : Nat := 8191

theorem le_length_reportJson (location : Text) (id : UInt64) {blanks : Nat} (long : bufavail ≤ blanks) :
    bufavail ≤ (reportJson location (report id blanks)).length := by
  refine Nat.le_trans long ?_
  simp only [reportJson, JsonReport.object, report, List.length_append, List.length_replicate]
  omega

end Handler.Sample

open Handler in
theorem finalFile_array_sample :
    IsArrayOfReports [Sample.report 1 8191, Sample.report 3 9000]
      (finalFile Sample.bufavail Sample.logFile Sample.plugins [Sample.report 1 8191, Sample.report 3 9000]) :=
  (finalFile_array_iff (by decide) ⟨_, List.mem_cons_self, by decide⟩ (by simp)
    (List.forall_mem_cons.mpr ⟨by decide, List.forall_mem_singleton.mpr (by decide)⟩) (by decide)).mpr
    ⟨rfl, List.forall_mem_cons.mpr ⟨Sample.le_length_reportJson _ _ (by decide),
      List.forall_mem_singleton.mpr (Sample.le_length_reportJson _ _ (by decide))⟩⟩

open Handler in
/-- With only dispatch 2 instrumented the file starts with a comma. -/
theorem finalFile_starts_with_comma :
    ¬∀ (bufavail : Nat) (location : Text) (handlers : List Text) (reports : List JsonReport), location ≠ console →
      (∃ handler ∈ handlers, (Text.rfind memAnalysisHandler handler).isSome) → reports ≠ [] →
      (∀ report ∈ reports, 0 < report.dispatchId) → (reports.map JsonReport.dispatchId).Nodup →
      IsArrayOfReports reports (finalFile bufavail location handlers reports) := by
  intro claim
  obtain ⟨elements, text, -, final, document⟩ := claim Sample.bufavail Sample.logFile Sample.plugins
    [Sample.report 2 8191] (by decide) ⟨_, List.mem_cons_self, by decide⟩ (by simp)
    (List.forall_mem_singleton.mpr (by decide)) (by decide)
  have elsewhere : Sample.logFile ≠ console := by decide
  have passed : finalFile Sample.bufavail Sample.logFile Sample.plugins [Sample.report 2 8191] =
      some (',' :: '\n' :: (Sample.report 2 8191).object) := by
    have long : Sample.bufavail ≤ 8191 := le_rfl
    rw [finalFile, List.foldl_cons, List.foldl_nil, appendReport, xsputn_of_le (Sample.le_length_reportJson _ _ long),
      reportJson_later elsewhere (by decide) (by decide)]
    exact finalizeJsonOutput_eq elsewhere ⟨_, List.mem_cons_self, by decide⟩ rfl (by decide) _
  obtain rfl := Option.some.inj (passed.symm.trans final)
  exact absurd (document.head rfl) (by decide)

open Handler in
-- A report that fits into the buffer never reaches the file.
example : finalFile Sample.bufavail Sample.logFile Sample.plugins [Sample.report 1 0] = some [] := by decide

end Omniprobe.Memory
