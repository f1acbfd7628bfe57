import Omniprobe.Scope.InstrumentationScope

/-!
# Scopes from several sources

How definitions from several texts add up, and what the constructor makes of the two variables.
-/

namespace Omniprobe.Scope
open Lib

/-! ### The lines of a scope file -/

/-- The trimmed lines that are neither blank nor comments. -/
def scopeLines (content : Text) : List Text :=
  ((content.splitOn '\n').map (trim isWhitespace)).filter fun line => line ≠ [] ∧ line.head? ≠ some '#'

theorem foldl_combine (lines : List Text) {combined : Text} (filled : combined ≠ []) :
    lines.foldl (fun combined line => if combined = [] then line else combined ++ ';' :: line) combined =
      [';'].intercalate (combined :: lines) := by
  induction lines generalizing combined with
  | nil => simp
  | cons line rest ih =>
    rw [List.foldl_cons, if_neg filled, ih (by simp), List.intercalate_cons_cons]
    cases rest with
    | nil => simp
    | cons next rest => simp [List.intercalate_cons_cons]

theorem combineLines_eq_intercalate (content : Text) :
    combineLines content = [';'].intercalate (scopeLines content) := by
  have kept : (items isWhitespace '\n' content).filter (·.head? ≠ some '#') = scopeLines content := by
    rw [items_eq_splitOn, List.filter_filter, scopeLines]
    refine List.filter_congr fun line _ => ?_
    simp [Bool.and_comm]
  have filled : ∀ line ∈ scopeLines content, line ≠ [] := by
    intro line member
    simpa using (decide_eq_true_iff.mp (List.mem_filter.mp member).2).1
  rw [combineLines, kept]
  cases lines : scopeLines content with
  | nil => rfl
  | cons line rest =>
    rw [List.foldl_cons, if_pos rfl, foldl_combine rest (filled line (by simp [lines]))]

/-! ### Parsers that extend a list -/

/-- What is parsed, and whether it parses, does not depend on the entries there are already. -/
def Extends (parse : List ScopeEntry → List ScopeEntry × Option ScopeError) : Prop :=
  ∀ entries, parse entries = (entries ++ (parse []).1, (parse []).2)

theorem parseAll_extends (definitions : List Text) : Extends (parseAll definitions) := by
  intro entries
  induction definitions generalizing entries with
  | nil => simp [parseAll]
  | cons definition rest ih =>
    rw [parseAll, parseAll]
    cases parseDefinition definition with
    | error fault => simp
    | ok entry =>
      dsimp only
      rw [ih (entries ++ [entry]), ih ([] ++ [entry])]
      simp

theorem parseDefinitions_extends (input : Text) : Extends (parseDefinitions input) :=
  parseAll_extends _

theorem parseFile_extends (files : Text → Option Text) (path : Text) : Extends (parseFile files path) := by
  intro entries
  unfold parseFile
  cases files path with
  | none => simp
  | some content =>
    dsimp only
    split
    · simp
    · exact parseDefinitions_extends _ entries

theorem parseVariable_extends (value : Option Text)
    {parse : Text → List ScopeEntry → List ScopeEntry × Option ScopeError} (extending : ∀ text, Extends (parse text)) :
    Extends (parseVariable value parse) := by
  intro entries
  unfold parseVariable
  cases value with
  | none => simp
  | some text =>
    dsimp only
    split
    · simp
    · exact extending text entries

/-! ### Definitions after definitions -/

theorem parseAll_append (first second : List Text) (entries : List ScopeEntry) :
    parseAll (first ++ second) entries =
      match parseAll first entries with
      | (parsed, none) => parseAll second parsed
      | failed => failed := by
  induction first generalizing entries with
  | nil => rfl
  | cons definition rest ih =>
    rw [List.cons_append, parseAll, parseAll]
    cases parseDefinition definition with
    | error fault => rfl
    | ok entry => exact ih (entries ++ [entry])

theorem parseDefinitions_append (a b : Text) (entries : List ScopeEntry) :
    parseDefinitions (a ++ ';' :: b) entries =
      match parseDefinitions a entries with
      | (parsed, none) => parseDefinitions b parsed
      | failed => failed := by
  rw [parseDefinitions, items_append, parseAll_append]
  rfl

theorem parseDefinitions_append_eq_none_iff (a b : Text) (entries : List ScopeEntry) :
    (parseDefinitions (a ++ ';' :: b) entries).2 = none ↔
      (parseDefinitions a entries).2 = none ∧ (parseDefinitions b entries).2 = none := by
  rw [parseDefinitions_append]
  cases first : parseDefinitions a entries with
  | mk parsed fault =>
    cases fault with
    | some fault => simp
    | none =>
      dsimp only
      rw [parseDefinitions_extends b parsed, parseDefinitions_extends b entries]
      simp

theorem parseDefinitions_append_entries {a b : Text} {entries : List ScopeEntry}
    (parses : (parseDefinitions (a ++ ';' :: b) entries).2 = none) :
    (parseDefinitions (a ++ ';' :: b) entries).1 =
      entries ++ (parseDefinitions a []).1 ++ (parseDefinitions b []).1 := by
  have first := ((parseDefinitions_append_eq_none_iff a b entries).mp parses).1
  have extended := parseDefinitions_extends a entries
  have whole : parseDefinitions a entries = (entries ++ (parseDefinitions a []).1, none) := by
    rw [← first, extended]
  rw [parseDefinitions_append, whole]
  dsimp only
  rw [parseDefinitions_extends b]

theorem parseFile_eq_parseDefinitions {files : Text → Option Text} {path content : Text}
    (opens : files path = some content) (entries : List ScopeEntry) :
    parseFile files path entries = parseDefinitions ([';'].intercalate (scopeLines content)) entries := by
  rw [parseFile, opens]
  dsimp only
  rw [combineLines_eq_intercalate]
  split
  · rename_i empty
    rw [empty]
    rfl
  · rfl

/-! ### The two variables -/

/-- The locations that some of the entries match. -/
def Matched (entries : List ScopeEntry) (file : Text) (line : UInt32) : Prop :=
  ∃ entry ∈ entries, entry.fileMatches file = true ∧ entry.lineMatches line = true

theorem Matched.append_iff {first second : List ScopeEntry} {file : Text} {line : UInt32} :
    Matched (first ++ second) file line ↔ Matched first file line ∨ Matched second file line := by
  simp only [Matched, List.mem_append, or_and_right, exists_or]

namespace Environment

/-- What `INSTRUMENTATION_SCOPE` defines. -/
def definitions (env : Environment) : List ScopeEntry × Option ScopeError :=
  parseVariable env.scope parseDefinitions []

/-- What the file of `INSTRUMENTATION_SCOPE_FILE` defines. -/
def fileDefinitions (env : Environment) : List ScopeEntry × Option ScopeError :=
  parseVariable env.scopeFile (parseFile env.files) []

end Environment

namespace InstrumentationScope

theorem matches_iff_matched {scope : InstrumentationScope} (active : scope.active = true) (file : Text) (line : UInt32) :
    scope.matches file line = true ↔ Matched scope.entries file line := by
  simp [InstrumentationScope.matches, active, Matched]

theorem construct_of_parses {env : Environment} (first : env.definitions.2 = none)
    (second : env.fileDefinitions.2 = none) :
    (construct env).1 =
      if env.definitions.1 ++ env.fileDefinitions.1 = [] then {}
      else ⟨env.definitions.1 ++ env.fileDefinitions.1, true⟩ := by
  by_cases unset : env.scope = none ∧ env.scopeFile = none
  · have none₁ : env.definitions.1 = [] := by simp [Environment.definitions, unset, parseVariable]
    have none₂ : env.fileDefinitions.1 = [] := by simp [Environment.fileDefinitions, unset, parseVariable]
    rw [construct, if_pos unset, none₁, none₂]
    rfl
  · have read := parseVariable_extends env.scopeFile (parseFile_extends env.files) env.definitions.1
    rw [construct, if_neg unset]
    rw [← Environment.fileDefinitions, second] at read
    rw [← Environment.definitions]
    dsimp only
    rw [if_pos first, read]
    dsimp only
    split <;> rfl

theorem construct_of_fault {env : Environment} (fault : env.definitions.2 ≠ none ∨ env.fileDefinitions.2 ≠ none) :
    (construct env).1 = {} := by
  by_cases unset : env.scope = none ∧ env.scopeFile = none
  · rw [construct, if_pos unset]
  rw [construct, if_neg unset, ← Environment.definitions]
  dsimp only
  by_cases first : env.definitions.2 = none
  · have second := fault.resolve_left (not_not_intro first)
    have read := parseVariable_extends env.scopeFile (parseFile_extends env.files) env.definitions.1
    rw [← Environment.fileDefinitions] at read
    obtain ⟨fault, failed⟩ := Option.ne_none_iff_exists'.mp second
    rw [if_pos first, read, failed]
  · obtain ⟨fault, failed⟩ := Option.ne_none_iff_exists'.mp first
    rw [if_neg first]
    split
    · rfl
    · rename_i parsed
      rw [parsed] at failed
      cases failed

theorem construct_matches_iff (env : Environment) (first : env.definitions.2 = none)
    (second : env.fileDefinitions.2 = none) (some : env.definitions.1 ++ env.fileDefinitions.1 ≠ []) :
    (construct env).1.isActive = true ∧ ∀ file line, (construct env).1.matches file line = true ↔
      Matched env.definitions.1 file line ∨ Matched env.fileDefinitions.1 file line := by
  rw [construct_of_parses first second, if_neg some]
  refine ⟨rfl, fun file line => ?_⟩
  rw [matches_iff_matched rfl]
  exact Matched.append_iff

/-- `INSTRUMENTATION_SCOPE` without the file. -/
theorem construct_scope_matches_iff {env : Environment} (parses : env.definitions.2 = none)
    (some : env.definitions.1 ≠ []) (file : Text) (line : UInt32) :
    (construct { env with scopeFile := none }).1.matches file line = true ↔ Matched env.definitions.1 file line := by
  have alone := construct_matches_iff { env with scopeFile := none } parses rfl (by
    rw [show Environment.fileDefinitions { env with scopeFile := none } = ([], none) from rfl, List.append_nil]
    exact some)
  rw [alone.2]
  exact or_iff_left fun ⟨entry, member, _⟩ => List.not_mem_nil member

/-- `INSTRUMENTATION_SCOPE_FILE` without the definitions. -/
theorem construct_scopeFile_matches_iff {env : Environment} (parses : env.fileDefinitions.2 = none)
    (some : env.fileDefinitions.1 ≠ []) (file : Text) (line : UInt32) :
    (construct { env with scope := none }).1.matches file line = true ↔ Matched env.fileDefinitions.1 file line := by
  have alone := construct_matches_iff { env with scope := none } rfl parses (by
    rw [show Environment.definitions { env with scope := none } = ([], none) from rfl, List.nil_append]
    exact some)
  rw [alone.2]
  exact or_iff_right fun ⟨entry, member, _⟩ => List.not_mem_nil member

end InstrumentationScope

open InstrumentationScope in
/-- Definitions add up within a text, over the lines of a file and over the two variables, and one faulty definition
turns the filter off. -/
theorem scopes_compose :
    (∀ a b entries,
      ((parseDefinitions (a ++ ';' :: b) entries).2 = none ↔
        (parseDefinitions a entries).2 = none ∧ (parseDefinitions b entries).2 = none) ∧
      ((parseDefinitions (a ++ ';' :: b) entries).2 = none →
        (parseDefinitions (a ++ ';' :: b) entries).1 =
          entries ++ (parseDefinitions a []).1 ++ (parseDefinitions b []).1)) ∧
    (∀ files path content entries, files path = some content →
      parseFile files path entries = parseDefinitions ([';'].intercalate (scopeLines content)) entries) ∧
    ∀ env : Environment,
      (env.definitions.2 = none → env.fileDefinitions.2 = none → env.definitions.1 ++ env.fileDefinitions.1 ≠ [] →
        (construct env).1.isActive = true ∧ ∀ file line, (construct env).1.matches file line = true ↔
          Matched env.definitions.1 file line ∨ Matched env.fileDefinitions.1 file line) ∧
      (env.definitions.2 = none → env.definitions.1 ≠ [] → ∀ file line,
        (construct { env with scopeFile := none }).1.matches file line = true ↔
          Matched env.definitions.1 file line) ∧
      (env.fileDefinitions.2 = none → env.fileDefinitions.1 ≠ [] → ∀ file line,
        (construct { env with scope := none }).1.matches file line = true ↔
          Matched env.fileDefinitions.1 file line) ∧
      (env.definitions.2 ≠ none ∨ env.fileDefinitions.2 ≠ none →
        (construct env).1.isActive = false ∧ (construct env).1.entries = [] ∧
          ∀ file line, (construct env).1.matches file line = true) := by
  refine ⟨fun a b entries => ?_, fun files path content entries opens => ?_, fun env => ⟨?_, ?_, ?_, ?_⟩⟩
  · exact ⟨parseDefinitions_append_eq_none_iff a b entries, parseDefinitions_append_entries⟩
  · exact parseFile_eq_parseDefinitions opens entries
  · exact construct_matches_iff env
  · exact construct_scope_matches_iff
  · exact construct_scopeFile_matches_iff
  · intro fault
    rw [construct_of_fault fault]
    exact ⟨rfl, rfl, fun file line => rfl⟩

namespace Sample

/-- Definitions in both variables. -/
def both : Environment where
  scope := some "a.hip:10; /src/b.hip".toList
  scopeFile := some "/scope".toList
  files := fun _ => some "# the reader\nc.hip:1:5,8\n".toList

/-- The range of the last line ends before it starts. -/
def faulty : Environment := { both with files := fun _ => some "c.hip:1:5\nc.hip:8:3".toList }

theorem both_matched (file : Text) (line : UInt32) :
    Matched both.definitions.1 file line ∨ Matched both.fileDefinitions.1 file line ↔
      Matched [⟨"a.hip".toList, false, [(10, 11)]⟩, ⟨"/src/b.hip".toList, true, []⟩] file line ∨
        Matched [⟨"c.hip".toList, false, [(1, 5), (8, 9)]⟩] file line := by
  have definitions : both.definitions.1 =
      [⟨"a.hip".toList, false, [(10, 11)]⟩, ⟨"/src/b.hip".toList, true, []⟩] := by decide +kernel
  have fileDefinitions : both.fileDefinitions.1 = [⟨"c.hip".toList, false, [(1, 5), (8, 9)]⟩] := by decide +kernel
  rw [definitions, fileDefinitions]

end Sample

open InstrumentationScope in
theorem scopes_compose_sample :
    ((construct Sample.both).1.isActive = true ∧ ∀ file line, (construct Sample.both).1.matches file line = true ↔
        Matched [⟨"a.hip".toList, false, [(10, 11)]⟩, ⟨"/src/b.hip".toList, true, []⟩] file line ∨
          Matched [⟨"c.hip".toList, false, [(1, 5), (8, 9)]⟩] file line) ∧
      (construct Sample.faulty).1.isActive = false ∧ (construct Sample.faulty).1.entries = [] ∧
        ∀ file line, (construct Sample.faulty).1.matches file line = true := by
  obtain ⟨add, -, -, -⟩ := scopes_compose.2.2 Sample.both
  obtain ⟨-, -, -, fails⟩ := scopes_compose.2.2 Sample.faulty
  obtain ⟨active, matched⟩ := add (by decide +kernel) (by decide +kernel) (by decide +kernel)
  refine ⟨⟨active, fun file line => ?_⟩, fails (.inr (by decide +kernel))⟩
  rw [matched, Sample.both_matched]

end Omniprobe.Scope
