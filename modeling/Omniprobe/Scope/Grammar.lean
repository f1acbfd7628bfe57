import Omniprobe.Scope.Format

/-!
# The grammar of scope definitions

The documented grammar, the texts that the parser accepts, and where the two differ.
-/

namespace Omniprobe.Scope
open Lib

/-! ### The documented grammar -/

structure FilePattern (s : Text) : Prop where
  notEmpty : s ≠ []
  noColonFirst : s.head? ≠ some ':'
  noColonDigit : ∀ before c after, s = before ++ ':' :: c :: after → ¬c.isDigit

/-- `N`, or `N:M` with `N < M`. -/
inductive PlainSpec : Text → Prop where
  | line {s : Text} {n : Nat} (number : Decimal s n) : PlainSpec s
  | range {s t : Text} {n m : Nat} (start : Decimal s n) (stop : Decimal t m) (ordered : n < m) :
      PlainSpec (s ++ ':' :: t)

inductive PlainDefinition : Text → Prop where
  | file {pattern : Text} (named : FilePattern pattern) : PlainDefinition pattern
  | lines {pattern lines : Text} (optional : pattern = [] ∨ FilePattern pattern)
      (some : items isWhitespace ',' lines ≠ []) (plain : ∀ spec ∈ items isWhitespace ',' lines, PlainSpec spec) :
      PlainDefinition (pattern ++ ':' :: lines)

def InGrammar (input : Text) : Prop := ∀ definition ∈ items isWhitespace ';' input, PlainDefinition definition

/-! ### The line specs that are accepted -/

/-- What `strtoul` reads to the end, with its value: the empty string is read as zero. -/
inductive Lenient (s : Text) : UInt64 → Prop where
  | empty (nothing : cString s = []) : Lenient s 0
  | number {n : Int} (numeral : Numeral (cString s) n) : Lenient s (ulong n)

/-- The line specs that parse, with the stored range. -/
inductive Reads : Text → UInt32 × UInt32 → Prop where
  | line {s : Text} {v : UInt64} (single : ':' ∉ s) (number : Lenient s v) : Reads s (v.toUInt32, (v + 1).toUInt32)
  | range {s t : Text} {v w : UInt64} (first : ':' ∉ s) (last : ':' ∉ t) (start : Lenient s v) (stop : Lenient t w)
      (ordered : v < w) : Reads (s ++ ':' :: t) (v.toUInt32, w.toUInt32)

theorem lenient_iff (s : Text) (v : UInt64) : Lenient s v ↔ strtoul s = (v, []) := by
  constructor
  · rintro (nothing | numeral)
    · exact strtoul_of_cString_eq_nil nothing
    · exact strtoul_numeral numeral
  · intro read
    rcases (strtoul_rest_eq_nil_iff s).mp (by rw [read]) with nothing | ⟨n, numeral⟩
    · rw [strtoul_of_cString_eq_nil nothing] at read
      cases read
      exact .empty nothing
    · rw [strtoul_numeral numeral] at read
      cases read
      exact .number numeral

theorem lenient_of_strtoul {s : Text} (read : (strtoul s).2 = []) : Lenient s (strtoul s).1 :=
  (lenient_iff s _).mpr (by rw [← read])

theorem reads_of_parseLineSpec {spec : Text} {range : UInt32 × UInt32} (parsed : parseLineSpec spec = .ok range) :
    Reads spec range := by
  unfold parseLineSpec at parsed
  by_cases colon : ':' ∈ spec
  · obtain ⟨s, t, rfl, first⟩ := List.eq_append_cons_of_mem colon
    rw [Text.findFirst_append_cons first] at parsed
    dsimp only at parsed
    rw [List.take_left, List.append_cons, List.drop_left' (by simp)] at parsed
    split at parsed
    · cases parsed
    split at parsed
    · cases parsed
    split at parsed
    · cases parsed
    split at parsed
    · cases parsed
    · rename_i last start stop ordered
      cases parsed
      exact .range first last (lenient_of_strtoul (not_not.mp start)) (lenient_of_strtoul (not_not.mp stop))
        (UInt64.not_le.mp ordered)
  · rw [Text.findFirst_eq_none colon] at parsed
    dsimp only at parsed
    split at parsed
    · cases parsed
    · rename_i number
      cases parsed
      exact .line colon (lenient_of_strtoul (not_not.mp number))

theorem parseLineSpec_of_reads {spec : Text} {range : UInt32 × UInt32} (reads : Reads spec range) :
    parseLineSpec spec = .ok range := by
  cases reads with
  | line single number =>
    rw [parseLineSpec, Text.findFirst_eq_none single]
    dsimp only
    rw [(lenient_iff _ _).mp number]
    simp
  | range first last start stop ordered =>
    rw [parseLineSpec, Text.findFirst_append_cons first]
    dsimp only
    rw [List.take_left, List.append_cons, List.drop_left' (by simp), if_neg last, (lenient_iff _ _).mp start,
      (lenient_iff _ _).mp stop]
    simp [UInt64.not_le.mpr ordered]

theorem parseLineSpec_eq_ok_iff (spec : Text) (range : UInt32 × UInt32) :
    parseLineSpec spec = .ok range ↔ Reads spec range :=
  ⟨reads_of_parseLineSpec, parseLineSpec_of_reads⟩

/-! ### The definitions that are accepted -/

/-- The line specs of all definitions, in order. -/
def lineSpecs (input : Text) : List Text :=
  (items isWhitespace ';' input).flatMap fun definition => items isWhitespace ',' (splitDefinition definition).2

theorem parseDefinition_eq_ok_iff (definition : Text) (entry : ScopeEntry) :
    parseDefinition definition = .ok entry ↔
      entry.filePattern = (splitDefinition definition).1 ∧
      entry.isFullPath = decide ((splitDefinition definition).1.head? = some '/') ∧
      List.Forall₂ Reads (items isWhitespace ',' (splitDefinition definition).2) entry.ranges := by
  obtain ⟨file, lines, split⟩ : ∃ file lines, splitDefinition definition = (file, lines) := ⟨_, _, rfl⟩
  have specs (ranges : List (UInt32 × UInt32)) :
      parseLineSpecs lines = .ok ranges ↔ List.Forall₂ Reads (items isWhitespace ',' lines) ranges := by
    simp only [parseLineSpecs, mapM_ok_iff, parseLineSpec_eq_ok_iff]
  rw [parseDefinition, split]
  dsimp only
  rw [← specs]
  cases parseLineSpecs lines with
  | error fault => exact iff_of_false (by rintro ⟨⟩) (by rintro ⟨-, -, ⟨⟩⟩)
  | ok ranges =>
    constructor
    · rintro ⟨⟩
      exact ⟨rfl, rfl, rfl⟩
    · rintro ⟨pattern, full, same⟩
      obtain ⟨filePattern, isFullPath, stored⟩ := entry
      dsimp only at pattern full
      subst pattern
      subst full
      cases same
      rfl

theorem parseAll_eq_none_iff (definitions : List Text) (entries all : List ScopeEntry) :
    parseAll definitions entries = (all, none) ↔
      ∃ stored, all = entries ++ stored ∧
        List.Forall₂ (fun definition entry => parseDefinition definition = .ok entry) definitions stored := by
  induction definitions generalizing entries with
  | nil => simp [parseAll, eq_comm]
  | cons definition rest ih =>
    rw [parseAll]
    cases first : parseDefinition definition with
    | error fault =>
      refine iff_of_false (by rintro ⟨⟩) ?_
      rintro ⟨stored, -, each⟩
      obtain ⟨entry, stored, parsed, -, -⟩ := List.forall₂_cons_left_iff.mp each
      rw [first] at parsed
      cases parsed
    | ok entry =>
      dsimp only
      rw [ih]
      constructor
      · rintro ⟨stored, rfl, each⟩
        exact ⟨entry :: stored, by simp, .cons first each⟩
      · rintro ⟨stored, rfl, each⟩
        obtain ⟨entry', stored, parsed, later, rfl⟩ := List.forall₂_cons_left_iff.mp each
        rw [first] at parsed
        cases parsed
        exact ⟨stored, by simp, later⟩

theorem parseDefinitions_reads {input : Text} {entries : List ScopeEntry}
    (parses : (parseDefinitions input entries).2 = none) :
    ∃ stored, (parseDefinitions input entries).1 = entries ++ stored ∧
      List.Forall₂ Reads (lineSpecs input) (stored.flatMap ScopeEntry.ranges) := by
  obtain ⟨stored, whole, each⟩ := (parseAll_eq_none_iff _ entries _).mp (Prod.ext (rfl : _ = (parseDefinitions input entries).1) parses)
  refine ⟨stored, whole, List.rel_flatMap each ?_⟩
  intro definition entry parsed
  exact ((parseDefinition_eq_ok_iff definition entry).mp parsed).2.2

theorem exists_forall₂_iff {α β : Type} {R : α → β → Prop} {list : List α} :
    (∃ out, List.Forall₂ R list out) ↔ ∀ x ∈ list, ∃ y, R x y := by
  induction list with
  | nil => simp
  | cons x rest ih =>
    rw [List.forall_mem_cons, ← ih]
    constructor
    · rintro ⟨out, each⟩
      obtain ⟨y, ys, first, later, -⟩ := List.forall₂_cons_left_iff.mp each
      exact ⟨⟨y, first⟩, ys, later⟩
    · rintro ⟨⟨y, first⟩, ys, later⟩
      exact ⟨y :: ys, .cons first later⟩

/-- A text parses exactly when each of its line specs can be read. -/
theorem parseDefinitions_eq_none_iff (input : Text) (entries : List ScopeEntry) :
    (parseDefinitions input entries).2 = none ↔ ∀ spec ∈ lineSpecs input, ∃ range, Reads spec range := by
  constructor
  · intro parses
    obtain ⟨stored, -, each⟩ := parseDefinitions_reads parses
    exact exists_forall₂_iff.mp ⟨_, each⟩
  · intro readable
    have stored : ∃ stored,
        List.Forall₂ (fun definition entry => parseDefinition definition = .ok entry) (items isWhitespace ';' input)
          stored := by
      refine exists_forall₂_iff.mpr fun definition member => ?_
      have specs : ∀ spec ∈ items isWhitespace ',' (splitDefinition definition).2, ∃ range, Reads spec range :=
        fun spec inside => readable spec (List.mem_flatMap.mpr ⟨definition, member, inside⟩)
      obtain ⟨ranges, each⟩ := exists_forall₂_iff.mpr specs
      exact ⟨⟨_, _, ranges⟩, (parseDefinition_eq_ok_iff definition _).mpr ⟨rfl, rfl, each⟩⟩
    obtain ⟨stored, each⟩ := stored
    rw [parseDefinitions, (parseAll_eq_none_iff _ entries _).mpr ⟨stored, rfl, each⟩]

/-! ### Where a definition is split -/

theorem colonPos_split {definition : Text} {pos : Nat} (found : colonPos definition = some pos) :
    ∃ pattern lines, definition = pattern ++ ':' :: lines ∧ pattern.length = pos ∧ colonPos pattern = none ∧
      lines ≠ [] ∧ ∀ c ∈ lines.head?, c.isDigit := by
  induction definition generalizing pos with
  | nil => cases found
  | cons c rest ih =>
    rw [colonPos] at found
    split at found
    · rename_i start
      obtain ⟨rfl, digit⟩ := start
      cases found
      cases rest with
      | nil => cases digit
      | cons d rest => exact ⟨[], d :: rest, rfl, rfl, rfl, List.cons_ne_nil _ _, by simpa using digit⟩
    · rename_i plain
      obtain ⟨pos', later, rfl⟩ := Option.map_eq_some_iff.mp found
      obtain ⟨pattern, lines, rfl, length, free, digits⟩ := ih later
      refine ⟨c :: pattern, lines, rfl, by rw [List.length_cons, length], ?_, digits⟩
      have same : ¬(c = ':' ∧ pattern.head?.any Char.isDigit) := by
        rintro ⟨rfl, digit⟩
        cases pattern with
        | nil => cases digit
        | cons d pattern => exact plain ⟨rfl, digit⟩
      rw [colonPos, if_neg same, free]
      rfl

theorem splitDefinition_cases {definition : Text} (filled : definition ≠ []) :
    (∃ lines, definition = ':' :: lines ∧ splitDefinition definition = ([], lines)) ∨
    (FilePattern definition ∧ splitDefinition definition = (definition, [])) ∨
    ∃ pattern lines, definition = pattern ++ ':' :: lines ∧ FilePattern pattern ∧
      (lines ≠ [] ∧ ∀ c ∈ lines.head?, c.isDigit) ∧ splitDefinition definition = (pattern, lines) := by
  by_cases first : definition.head? = some ':'
  · obtain ⟨lines, rfl⟩ := List.head?_eq_some_iff.mp first
    exact .inl ⟨lines, rfl, rfl⟩
  · cases found : colonPos definition with
    | none =>
      have free := colonPos_eq_none_iff.mp found
      exact .inr (.inl ⟨⟨filled, first, free⟩, splitDefinition_pattern first free⟩)
    | some pos =>
      obtain ⟨pattern, lines, rfl, -, missing, digits⟩ := colonPos_split found
      have free := colonPos_eq_none_iff.mp missing
      have named : pattern ≠ [] := by
        rintro rfl
        exact first rfl
      rw [List.head?_append_of_ne_nil _ named] at first
      exact .inr (.inr ⟨pattern, lines, rfl, ⟨named, first, free⟩, digits, splitDefinition_append first free digits⟩)

/-! ### Plain line specs -/

theorem PlainSpec.of_append {s t : Text} (plain : PlainSpec (s ++ ':' :: t)) : ∃ m, Decimal t m := by
  have colon : ¬Char.isDigit ':' := by decide
  generalize whole : s ++ ':' :: t = spec at plain
  cases plain with
  | line number =>
    subst whole
    exact absurd (by simp) (number.not_mem colon)
  | range start stop ordered =>
    have first : ':' ∉ s := by
      intro early
      obtain ⟨before, after, rfl, absent⟩ := List.eq_append_cons_of_mem early
      rw [List.append_assoc, List.cons_append] at whole
      have rest := (Text.first_split_unique absent (start.not_mem colon) whole).2
      exact stop.not_mem colon (rest ▸ by simp)
    obtain ⟨-, rfl⟩ := Text.first_split_unique first (start.not_mem colon) whole
    exact ⟨_, stop⟩

/-- The specs after a colon inside a list of plain specs are plain: the first of them ends a range. -/
theorem plain_after_colon {s t : Text} (plain : ∀ spec ∈ items isWhitespace ',' (s ++ ':' :: t), PlainSpec spec) :
    ∀ spec ∈ items isWhitespace ',' t, PlainSpec spec := by
  have comma : ',' ≠ ':' := by decide
  have visible : isWhitespace ':' = false := by decide
  -- What stands before the last comma of `s` plays no role.
  obtain ⟨before, absent, plain⟩ : ∃ before, ',' ∉ before ∧
      ∀ spec ∈ items isWhitespace ',' (before ++ ':' :: t), PlainSpec spec := by
    by_cases several : ',' ∈ s
    · obtain ⟨front, before, rfl, absent⟩ := Text.exists_last_split several
      rw [List.append_assoc, List.cons_append, items_append] at plain
      exact ⟨before, absent, fun spec member => plain spec (List.mem_append_right _ member)⟩
    · exact ⟨s, several, plain⟩
  -- The spec with the colon ends at the first comma of `t`.
  have first {piece : Text} (inside : ',' ∉ piece)
      (plain : ∀ spec ∈ items isWhitespace ',' (before ++ ':' :: piece), PlainSpec spec) :
      ∀ spec ∈ items isWhitespace ',' piece, PlainSpec spec := by
    have whole : ',' ∉ before ++ ':' :: piece := by simp [absent, inside, comma]
    have trimmed := trim_append_cons visible before piece
    rw [items_of_not_mem whole, trimmed, if_neg (by simp)] at plain
    obtain ⟨m, number⟩ := (plain _ (List.mem_singleton_self _)).of_append
    have alone : trim isWhitespace piece = piece.rdropWhile isWhitespace := by
      refine trim_eq_rdropWhile number.1 fun c member => ?_
      exact isWhitespace_of_isDigit (number.2.1 c (List.mem_of_mem_head? member))
    rw [items_of_not_mem inside, alone, if_neg number.1]
    exact fun spec member => (List.mem_singleton.mp member) ▸ .line number
  by_cases several : ',' ∈ t
  · obtain ⟨piece, rest, rfl, inside⟩ := List.eq_append_cons_of_mem several
    rw [← List.cons_append, ← List.append_assoc, items_append] at plain
    rw [items_append, List.forall_mem_append]
    obtain ⟨earlier, later⟩ := List.forall_mem_append.mp plain
    exact ⟨first inside earlier, later⟩
  · exact first several plain

theorem PlainSpec.digits {spec : Text} (plain : PlainSpec spec) : ∀ number ∈ spec.splitOn ':', ∃ n, Decimal number n := by
  have colon : ¬Char.isDigit ':' := by decide
  cases plain with
  | line number =>
    rw [List.splitOn_eq_singleton (number.not_mem colon), List.forall_mem_singleton]
    exact ⟨_, number⟩
  | range start stop ordered =>
    rw [List.splitOn_append_cons_self_of_not_mem (start.not_mem colon), List.forall_mem_cons,
      List.splitOn_eq_singleton (stop.not_mem colon), List.forall_mem_singleton]
    exact ⟨⟨_, start⟩, _, stop⟩

theorem Lenient.eq_of_decimal {s : Text} {v : UInt64} {n : Nat} (lenient : Lenient s v) (decimal : Decimal s n) :
    v = .ofNat (min n ulongMax) := by
  have read := (lenient_iff s v).mp lenient
  rw [strtoul_decimal decimal] at read
  exact (congrArg Prod.fst read).symm

theorem plainSpec_iff_digits {spec : Text} {range : UInt32 × UInt32} (reads : Reads spec range) :
    PlainSpec spec ↔ ∀ number ∈ spec.splitOn ':', ∃ n, Decimal number n := by
  refine ⟨PlainSpec.digits, fun digits => ?_⟩
  cases reads with
  | line single number =>
    rw [List.splitOn_eq_singleton single, List.forall_mem_singleton] at digits
    obtain ⟨n, decimal⟩ := digits
    exact .line decimal
  | range first last start stop ordered =>
    rw [List.splitOn_append_cons_self_of_not_mem first, List.forall_mem_cons, List.splitOn_eq_singleton last,
      List.forall_mem_singleton] at digits
    obtain ⟨⟨n, from'⟩, m, to'⟩ := digits
    have fits (k : Nat) : min k ulongMax < UInt64.size := by
      unfold ulongMax
      have wide : UInt64.size = 2 ^ 64 := rfl
      omega
    rw [start.eq_of_decimal from', stop.eq_of_decimal to', UInt64.lt_iff_toNat_lt, UInt64.toNat_ofNat_of_lt' (fits n),
      UInt64.toNat_ofNat_of_lt' (fits m)] at ordered
    exact .range from' to' (by omega)

/-! ### Definitions in the grammar -/

theorem plainDefinition_iff {definition : Text} (filled : definition ≠ []) :
    PlainDefinition definition ↔
      (definition.head? = some ':' → items isWhitespace ',' definition.tail ≠ []) ∧
      ∀ spec ∈ items isWhitespace ',' (splitDefinition definition).2, PlainSpec spec := by
  have nothing : items isWhitespace ',' ([] : Text) = [] := rfl
  constructor
  · intro plain
    cases plain with
    | file named =>
      rw [splitDefinition_pattern named.noColonFirst named.noColonDigit, nothing]
      exact ⟨fun first => absurd first named.noColonFirst, List.forall_mem_nil _⟩
    | @lines pattern lines optional some plain =>
      rcases optional with rfl | named
      · exact ⟨fun _ => some, plain⟩
      rw [List.head?_append_of_ne_nil _ named.notEmpty]
      refine ⟨fun first => absurd first named.noColonFirst, ?_⟩
      rcases splitDefinition_cases filled with ⟨lines', first, -⟩ | ⟨-, split⟩ | ⟨pattern', lines', same, named', digits, split⟩
      · have start := congrArg List.head? first
        rw [List.head?_append_of_ne_nil _ named.notEmpty] at start
        exact absurd start named.noColonFirst
      · rw [split, nothing]
        exact List.forall_mem_nil _
      · rw [split]
        -- The parser cuts at the colon of the pattern or at one inside the specs.
        rcases List.append_eq_append_iff.mp same with ⟨between, front, back⟩ | ⟨between, front, back⟩
        · cases between with
          | nil => exact (List.cons.inj back).2 ▸ plain
          | cons c between =>
            obtain ⟨rfl, rfl⟩ := List.cons.inj back
            exact plain_after_colon plain
        · cases between with
          | nil => exact (List.cons.inj back).2 ▸ plain
          | cons c between =>
            obtain ⟨rfl, rfl⟩ := List.cons.inj back
            cases between with
            | nil => exact absurd (digits.2 ':' rfl) (by decide)
            | cons d between => exact absurd (digits.2 d rfl) (named.noColonDigit _ _ _ front)
  · rintro ⟨some, plain⟩
    rcases splitDefinition_cases filled with ⟨lines, rfl, split⟩ | ⟨named, -⟩ | ⟨pattern, lines, rfl, named, digits, split⟩
    · rw [split] at plain
      exact @PlainDefinition.lines [] lines (.inl rfl) (some rfl) plain
    · exact .file named
    · rw [split] at plain
      obtain ⟨c, rest, rfl⟩ := List.exists_cons_of_ne_nil digits.1
      have digit := digits.2 c rfl
      have other : c ≠ ',' := by
        rintro rfl
        exact absurd digit (by decide)
      exact .lines (.inr named) (items_cons_ne_nil (isWhitespace_of_isDigit digit) other rest) plain

/-- The parser accepts a text outside the grammar when a definition is a colon without specs, or when it reads a number
that is not made of digits alone. -/
theorem accepted_inGrammar_iff (input : Text) (entries : List ScopeEntry) :
    ((parseDefinitions input entries).2 = none → InGrammar input) ↔
      (∃ spec ∈ lineSpecs input, ¬∃ range, Reads spec range) ∨
      (∀ definition ∈ items isWhitespace ';' input,
        definition.head? = some ':' → items isWhitespace ',' definition.tail ≠ []) ∧
      ∀ spec ∈ lineSpecs input, ∀ number ∈ spec.splitOn ':', ∃ n, Decimal number n := by
  have shape : InGrammar input ↔
      (∀ definition ∈ items isWhitespace ';' input,
        definition.head? = some ':' → items isWhitespace ',' definition.tail ≠ []) ∧
      ∀ spec ∈ lineSpecs input, PlainSpec spec := by
    simp only [InGrammar, lineSpecs, List.mem_flatMap]
    constructor
    · intro plain
      refine ⟨fun definition member => ?_, ?_⟩
      · exact ((plainDefinition_iff (ne_nil_of_mem_items member)).mp (plain definition member)).1
      · rintro spec ⟨definition, member, inside⟩
        exact ((plainDefinition_iff (ne_nil_of_mem_items member)).mp (plain definition member)).2 spec inside
    · rintro ⟨some, plain⟩ definition member
      refine (plainDefinition_iff (ne_nil_of_mem_items member)).mpr ⟨some definition member, fun spec inside => ?_⟩
      exact plain spec ⟨definition, member, inside⟩
  by_cases readable : ∀ spec ∈ lineSpecs input, ∃ range, Reads spec range
  · have parses := (parseDefinitions_eq_none_iff input entries).mpr readable
    have none : ¬∃ spec ∈ lineSpecs input, ¬∃ range, Reads spec range := by simpa using readable
    rw [or_iff_right none, shape, forall_prop_of_true parses]
    refine and_congr_right fun _ => forall₂_congr fun spec member => ?_
    obtain ⟨range, reads⟩ := readable spec member
    exact plainSpec_iff_digits reads
  · have faulty : ∃ spec ∈ lineSpecs input, ¬∃ range, Reads spec range := by simpa using readable
    refine iff_of_true (fun parses => ?_) (.inl faulty)
    exact absurd ((parseDefinitions_eq_none_iff input entries).mp parses) readable

/-- A colon alone, a sign and a range without its start are accepted. -/
theorem accepted_colon_and_sign :
    ((parseDefinitions ":".toList []).2 = none ∧ ¬InGrammar ":".toList) ∧
    ((parseDefinitions ":+5".toList []).2 = none ∧ ¬InGrammar ":+5".toList) ∧
    ((parseDefinitions "::5".toList []).2 = none ∧ ¬InGrammar "::5".toList) := by
  have noDecimal {s : Text} (bad : s = [] ∨ ∃ c ∈ s, ¬c.isDigit) : ¬∃ n, Decimal s n := by
    rintro ⟨n, decimal⟩
    rcases bad with empty | ⟨c, member, other⟩
    · exact decimal.1 empty
    · exact other (decimal.2.1 c member)
  refine ⟨⟨by decide, fun grammar => ?_⟩, ⟨by decide, fun grammar => ?_⟩, ⟨by decide, fun grammar => ?_⟩⟩
  · have plain := (plainDefinition_iff (by decide)).mp (grammar [':'] (by decide))
    exact plain.1 rfl rfl
  · have plain := (plainDefinition_iff (by decide)).mp (grammar [':', '+', '5'] (by decide))
    have digits := (plain.2 ['+', '5'] (by decide)).digits ['+', '5'] (by decide)
    exact noDecimal (.inr ⟨'+', by decide, by decide⟩) digits
  · have plain := (plainDefinition_iff (by decide)).mp (grammar [':', ':', '5'] (by decide))
    have digits := (plain.2 [':', '5'] (by decide)).digits [] (by decide)
    exact noDecimal (.inl rfl) digits

end Omniprobe.Scope
