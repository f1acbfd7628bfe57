import Omniprobe.Lib.Numbers
import Omniprobe.Scope.InstrumentationScope

/-!
# The format of scope definitions

Definitions as a user means them, the texts they may be written as, and what a parsed text matches.
-/

namespace Omniprobe.Scope
open Lib

/-! ### Definitions and their texts -/

inductive LineSpec where
  | line (n : Nat) (small : n < 2 ^ 32 - 1)
  | range (n m : Nat) (ordered : n < m) (small : m < 2 ^ 32 - 1)

/-- A file pattern with line specs, and what lets its text be read back. -/
structure Definition where
  pattern : Text
  specs : List LineSpec
  noSemicolon : ';' ∉ pattern
  noBlankEnds : Trimmed isWhitespace pattern
  noColonFirst : pattern.head? ≠ some ':'
  noColonDigit : ∀ before c after, pattern = before ++ ':' :: c :: after → ¬c.isDigit
  notEmpty : pattern = [] → specs ≠ []

namespace LineSpec

def text : LineSpec → Text
  | line n _ => Nat.toDigits 10 n
  | range n m _ _ => Nat.toDigits 10 n ++ ':' :: Nat.toDigits 10 m

/-- The lines that a spec stands for. -/
def Covers (l : UInt32) : LineSpec → Prop
  | line n _ => l.toNat = n
  | range n m _ _ => n ≤ l.toNat ∧ l.toNat < m

def bounds : LineSpec → UInt32 × UInt32
  | line n _ => (.ofNat n, .ofNat (n + 1))
  | range n m _ _ => (.ofNat n, .ofNat m)

end LineSpec

namespace Definition

/-- The texts of a definition: blanks may stand around the commas. -/
def Renders (definition : Definition) (text : Text) : Prop :=
  if definition.specs = [] then text = definition.pattern
  else
    ∃ lines, Joined isWhitespace ',' (definition.specs.map LineSpec.text) lines ∧
      text = definition.pattern ++ ':' :: lines

/-- The source locations that a definition stands for. -/
def Covers (definition : Definition) (file : Text) (l : UInt32) : Prop :=
  (definition.pattern = [] ∨
    definition.pattern.head? = some '/' ∧ file = definition.pattern ∨
    definition.pattern.head? ≠ some '/' ∧ definition.pattern <:+ file) ∧
  (definition.specs = [] ∨ ∃ spec ∈ definition.specs, spec.Covers l)

def entry (definition : Definition) : ScopeEntry :=
  ⟨definition.pattern, definition.pattern.head? = some '/', definition.specs.map LineSpec.bounds⟩

end Definition

/-- The texts of a list of definitions: blanks may stand around the semicolons. -/
def Renders (definitions : List Definition) (text : Text) : Prop :=
  ∃ texts, List.Forall₂ Definition.Renders definitions texts ∧ Joined isWhitespace ';' texts text

/-! ### Line specs -/

theorem isWhitespace_of_isDigit {c : Char} (digit : c.isDigit) : isWhitespace c = false := by
  have blanks : ∀ c ∈ [' ', '\t', '\r', '\n'], ¬c.isDigit := by simp
  rw [isWhitespace, decide_eq_false_iff_not]
  exact fun blank => blanks c blank digit

theorem decimal_toDigits (n : Nat) : Decimal (Nat.toDigits 10 n) n :=
  ⟨Nat.toDigits_ne_nil, fun _ member => isDigit_of_mem_toDigits member, Nat.ofDigitChars_ten_toDigits⟩

theorem strtoul_toDigits {n : Nat} (small : n < 2 ^ 32) : strtoul (Nat.toDigits 10 n) = (.ofNat n, []) := by
  have fits : n ≤ ulongMax := by
    unfold ulongMax
    omega
  rw [strtoul_decimal (decimal_toDigits n), Nat.min_eq_left fits]

namespace LineSpec

theorem text_ends (spec : LineSpec) :
    spec.text ≠ [] ∧ (∀ c ∈ spec.text.head?, c.isDigit) ∧ ∀ c ∈ spec.text.getLast?, c.isDigit := by
  cases spec with
  | line n small =>
    refine ⟨Nat.toDigits_ne_nil, ?_, ?_⟩ <;> intro c member
    · exact isDigit_of_mem_toDigits (List.mem_of_mem_head? member)
    · exact isDigit_of_mem_toDigits (List.mem_of_mem_getLast? member)
  | range n m ordered small =>
    refine ⟨by simp [text], ?_, ?_⟩ <;> intro c member
    · rw [text, List.head?_append_of_ne_nil _ Nat.toDigits_ne_nil] at member
      exact isDigit_of_mem_toDigits (List.mem_of_mem_head? member)
    · rw [text, List.append_cons, List.getLast?_append_of_ne_nil _ Nat.toDigits_ne_nil] at member
      exact isDigit_of_mem_toDigits (List.mem_of_mem_getLast? member)

theorem not_mem_text (spec : LineSpec) {c : Char} (other : ¬c.isDigit) (mark : c ≠ ':') : c ∉ spec.text := by
  cases spec with
  | line n small => exact not_mem_toDigits n other
  | range n m ordered small => simp [text, not_mem_toDigits _ other, mark]

theorem parseLineSpec_text (spec : LineSpec) : parseLineSpec spec.text = .ok spec.bounds := by
  have colon : ¬Char.isDigit ':' := by decide
  cases spec with
  | line n small =>
    rw [parseLineSpec, text, Text.findFirst_eq_none (not_mem_toDigits n colon)]
    dsimp only
    rw [strtoul_toDigits (by omega)]
    simp [bounds]
  | range n m ordered small =>
    have later : ¬UInt64.ofNat m ≤ UInt64.ofNat n := by
      have wide : UInt64.size = 2 ^ 64 := rfl
      rw [UInt64.le_iff_toNat_le, UInt64.toNat_ofNat_of_lt' (by omega), UInt64.toNat_ofNat_of_lt' (by omega)]
      omega
    rw [parseLineSpec, text, Text.findFirst_append_cons (not_mem_toDigits n colon)]
    dsimp only
    rw [List.take_left, List.append_cons, List.drop_left' (by simp), if_neg (not_mem_toDigits m colon),
      strtoul_toDigits (by omega), strtoul_toDigits (by omega)]
    simp [bounds, later]

theorem bounds_iff_covers (spec : LineSpec) (l : UInt32) :
    spec.bounds.1 ≤ l ∧ l < spec.bounds.2 ↔ spec.Covers l := by
  have wide : UInt32.size = 2 ^ 32 := rfl
  cases spec with
  | line n small =>
    rw [bounds, Covers, UInt32.le_iff_toNat_le, UInt32.lt_iff_toNat_lt, UInt32.toNat_ofNat_of_lt' (by omega),
      UInt32.toNat_ofNat_of_lt' (by omega)]
    omega
  | range n m ordered small =>
    rw [bounds, Covers, UInt32.le_iff_toNat_le, UInt32.lt_iff_toNat_lt, UInt32.toNat_ofNat_of_lt' (by omega),
      UInt32.toNat_ofNat_of_lt' (by omega)]

end LineSpec

theorem mapM_ok_iff {α β ε : Type} {f : α → Except ε β} {list : List α} {out : List β} :
    list.mapM f = .ok out ↔ List.Forall₂ (fun x y => f x = .ok y) list out := by
  induction list generalizing out with
  | nil =>
    rw [List.mapM_nil, List.forall₂_nil_left_iff]
    exact ⟨fun same => (Except.ok.inj same).symm, fun none => none ▸ rfl⟩
  | cons x rest ih =>
    rw [List.mapM_cons, List.forall₂_cons_left_iff]
    cases first : f x with
    | error fault =>
      constructor
      · rintro ⟨⟩
      · rintro ⟨y, ys, ⟨⟩, -⟩
    | ok y =>
      constructor
      · intro all
        cases later : rest.mapM f with
        | error fault =>
          rw [later] at all
          cases all
        | ok ys =>
          rw [later] at all
          exact ⟨y, ys, rfl, ih.mp later, (Except.ok.inj all).symm⟩
      · rintro ⟨y', ys, same, later, rfl⟩
        rw [ih.mpr later, Except.ok.inj same]
        rfl

theorem parseLineSpecs_joined {specs : List LineSpec} {lines : Text}
    (joined : Joined isWhitespace ',' (specs.map LineSpec.text) lines) :
    parseLineSpecs lines = .ok (specs.map LineSpec.bounds) := by
  have clean : ∀ item ∈ specs.map LineSpec.text, ',' ∉ item ∧ Trimmed isWhitespace item := by
    intro item member
    obtain ⟨spec, -, rfl⟩ := List.mem_map.mp member
    obtain ⟨-, first, last⟩ := spec.text_ends
    refine ⟨spec.not_mem_text (by decide) (by decide), ?_, ?_⟩
    · exact fun c member => isWhitespace_of_isDigit (first c member)
    · exact fun c member => isWhitespace_of_isDigit (last c member)
  have filled : ∀ item ∈ specs.map LineSpec.text, item ≠ [] := by
    intro item member
    obtain ⟨spec, -, rfl⟩ := List.mem_map.mp member
    exact spec.text_ends.1
  rw [parseLineSpecs, joined.items_eq (by decide) clean filled]
  rw [mapM_ok_iff, List.forall₂_map_left_iff, List.forall₂_map_right_iff, List.forall₂_same]
  exact fun spec _ => spec.parseLineSpec_text

/-! ### One definition -/

theorem colonPos_eq_none_iff {pattern : Text} :
    colonPos pattern = none ↔ ∀ before c after, pattern = before ++ ':' :: c :: after → ¬c.isDigit := by
  constructor
  · intro missing before
    induction before generalizing pattern with
    | nil =>
      rintro c after rfl digit
      simp [colonPos, digit] at missing
    | cons first before ih =>
      rintro c after rfl
      rw [List.cons_append, colonPos] at missing
      split at missing
      · cases missing
      · exact ih (Option.map_eq_none_iff.mp missing) c after rfl
  · intro free
    induction pattern with
    | nil => rfl
    | cons first rest ih =>
      have later := ih fun before c after whole => free (first :: before) c after (by rw [whole, List.cons_append])
      have plain : ¬(first = ':' ∧ rest.head?.any Char.isDigit) := by
        rintro ⟨rfl, digit⟩
        cases rest with
        | nil => cases digit
        | cons c after => exact free [] c after rfl (by simpa using digit)
      rw [colonPos, if_neg plain, later]
      rfl

theorem colonPos_append {pattern lines : Text}
    (free : ∀ before c after, pattern = before ++ ':' :: c :: after → ¬c.isDigit)
    (digits : lines ≠ [] ∧ ∀ c ∈ lines.head?, c.isDigit) :
    colonPos (pattern ++ ':' :: lines) = some pattern.length := by
  induction pattern with
  | nil =>
    obtain ⟨c, rest, rfl⟩ := List.exists_cons_of_ne_nil digits.1
    have digit := digits.2 c rfl
    simp [colonPos, digit]
  | cons first rest ih =>
    have later := ih fun before c after whole => free (first :: before) c after (by rw [whole, List.cons_append])
    -- What follows the first character is in the pattern, or it is the colon that ends it.
    have plain : ¬(first = ':' ∧ (rest ++ ':' :: lines).head?.any Char.isDigit) := by
      rintro ⟨rfl, digit⟩
      cases rest with
      | nil => cases digit
      | cons c after => exact free [] c after rfl (by simpa using digit)
    rw [List.cons_append, colonPos, if_neg plain, later]
    rfl

theorem splitDefinition_pattern {pattern : Text} (first : pattern.head? ≠ some ':')
    (free : ∀ before c after, pattern = before ++ ':' :: c :: after → ¬c.isDigit) :
    splitDefinition pattern = (pattern, []) := by
  rw [splitDefinition, if_neg first, colonPos_eq_none_iff.mpr free]

theorem splitDefinition_append {pattern lines : Text} (first : pattern.head? ≠ some ':')
    (free : ∀ before c after, pattern = before ++ ':' :: c :: after → ¬c.isDigit)
    (digits : lines ≠ [] ∧ ∀ c ∈ lines.head?, c.isDigit) :
    splitDefinition (pattern ++ ':' :: lines) = (pattern, lines) := by
  by_cases empty : pattern = []
  · rw [empty]
    rfl
  · have start : (pattern ++ ':' :: lines).head? ≠ some ':' := by
      rw [List.head?_append_of_ne_nil _ empty]
      exact first
    rw [splitDefinition, if_neg start, colonPos_append free digits]
    dsimp only
    rw [List.take_left, List.append_cons, List.drop_left' (by simp)]

namespace Definition

theorem lines_ends {definition : Definition} {lines : Text}
    (joined : Joined isWhitespace ',' (definition.specs.map LineSpec.text) lines) :
    (lines ≠ [] ∧ ∀ c ∈ lines.head?, c.isDigit) ∧ ∀ c ∈ lines.getLast?, c.isDigit := by
  have ends : ∀ item ∈ definition.specs.map LineSpec.text,
      item ≠ [] ∧ (∀ c ∈ item.head?, c.isDigit) ∧ ∀ c ∈ item.getLast?, c.isDigit := by
    intro item member
    obtain ⟨spec, -, rfl⟩ := List.mem_map.mp member
    exact spec.text_ends
  refine ⟨joined.head_of_items fun item member => ?_, (joined.getLast_of_items fun item member => ?_).2⟩
  · exact ⟨(ends item member).1, (ends item member).2.1⟩
  · exact ⟨(ends item member).1, (ends item member).2.2⟩

theorem parseDefinition_rendered {definition : Definition} {text : Text} (rendered : definition.Renders text) :
    parseDefinition text = .ok definition.entry := by
  unfold Renders at rendered
  split at rendered
  · rename_i none
    rw [rendered, parseDefinition, splitDefinition_pattern definition.noColonFirst definition.noColonDigit, entry, none]
    rfl
  · obtain ⟨lines, joined, rfl⟩ := rendered
    rw [parseDefinition,
      splitDefinition_append definition.noColonFirst definition.noColonDigit (lines_ends joined).1]
    dsimp only
    rw [parseLineSpecs_joined joined]
    rfl

theorem rendered_item {definition : Definition} {text : Text} (rendered : definition.Renders text) :
    (';' ∉ text ∧ Trimmed isWhitespace text) ∧ text ≠ [] := by
  unfold Renders at rendered
  split at rendered
  · rename_i none
    subst rendered
    exact ⟨⟨definition.noSemicolon, definition.noBlankEnds⟩, fun empty => definition.notEmpty empty none⟩
  · obtain ⟨lines, joined, rfl⟩ := rendered
    obtain ⟨⟨filled, -⟩, last⟩ := lines_ends joined
    have unsplit : ';' ∉ lines := by
      refine joined.not_mem (by decide) (by decide) fun item member => ?_
      obtain ⟨spec, -, rfl⟩ := List.mem_map.mp member
      exact spec.not_mem_text (by decide) (by decide)
    refine ⟨⟨by simp [definition.noSemicolon, unsplit], ?_, ?_⟩, by simp⟩
    · intro c member
      by_cases empty : definition.pattern = []
      · rw [empty] at member
        obtain rfl : ':' = c := by simpa using member
        decide
      · rw [List.head?_append_of_ne_nil _ empty] at member
        exact definition.noBlankEnds.1 c member
    · intro c member
      rw [List.append_cons, List.getLast?_append_of_ne_nil _ filled] at member
      exact isWhitespace_of_isDigit (last c member)

theorem entry_matches_iff (definition : Definition) (file : Text) (l : UInt32) :
    (definition.entry.fileMatches file && definition.entry.lineMatches l) = true ↔ definition.Covers file l := by
  rw [Bool.and_eq_true, Covers]
  refine and_congr ?_ ?_
  · unfold ScopeEntry.fileMatches entry
    dsimp only
    by_cases empty : definition.pattern = []
    · simp [empty]
    · by_cases full : definition.pattern.head? = some '/'
      · simp [empty, full]
      · simp only [empty, full, if_false, false_or, false_and, ne_eq, not_false_eq_true, true_and, decide_false,
          Bool.false_eq_true]
        split
        · rw [List.suffix_iff_eq_drop, decide_eq_true_iff]
          exact eq_comm
        · rename_i long
          exact iff_of_false (fun h => by cases h) fun ending => long ending.length_le
  · unfold ScopeEntry.lineMatches entry
    dsimp only
    by_cases none : definition.specs = []
    · simp [none]
    · simp only [List.map_eq_nil_iff, none, if_false, false_or, List.any_map, List.any_eq_true]
      refine exists_congr fun spec => and_congr_right fun _ => ?_
      simpa using spec.bounds_iff_covers l

end Definition

/-! ### All the definitions -/

theorem parseAll_rendered {definitions : List Definition} {texts : List Text}
    (rendered : List.Forall₂ Definition.Renders definitions texts) (entries : List ScopeEntry) :
    parseAll texts entries = (entries ++ definitions.map Definition.entry, none) := by
  induction rendered generalizing entries with
  | nil => simp [parseAll]
  | cons first later ih =>
    rw [parseAll, Definition.parseDefinition_rendered first]
    dsimp only
    rw [ih, List.map_cons, List.append_assoc, List.singleton_append]

theorem renders_items {definitions : List Definition} {texts : List Text}
    (rendered : List.Forall₂ Definition.Renders definitions texts) :
    ∀ text ∈ texts, (';' ∉ text ∧ Trimmed isWhitespace text) ∧ text ≠ [] := by
  induction rendered with
  | nil => exact List.forall_mem_nil _
  | cons first later ih => exact List.forall_mem_cons.mpr ⟨Definition.rendered_item first, ih⟩

theorem parseDefinitions_rendered {definitions : List Definition} {text : Text}
    (rendered : Renders definitions text) (entries : List ScopeEntry) :
    parseDefinitions text entries = (entries ++ definitions.map Definition.entry, none) := by
  obtain ⟨texts, each, joined⟩ := rendered
  have item := renders_items each
  rw [parseDefinitions, joined.items_eq (by decide) (fun text member => (item text member).1)
    fun text member => (item text member).2]
  exact parseAll_rendered each entries

theorem Renders.ne_nil {definitions : List Definition} {text : Text} (rendered : Renders definitions text) :
    definitions ≠ [] ∧ text ≠ [] := by
  obtain ⟨texts, each, joined⟩ := rendered
  have several := joined.ne_nil
  constructor
  · rintro rfl
    cases each
    exact several rfl
  · refine (joined.head_of_items (P := fun _ => True) fun item member => ⟨?_, fun _ _ => trivial⟩).1
    exact (renders_items each item member).2

theorem construct_rendered {definitions : List Definition} {text : Text} (rendered : Renders definitions text)
    {env : Environment} (given : env.scope = some text) (alone : env.scopeFile = none ∨ env.scopeFile = some []) :
    InstrumentationScope.construct env =
      (⟨definitions.map Definition.entry, true⟩, InstrumentationScope.activeMessage definitions.length) := by
  obtain ⟨some, filled⟩ := rendered.ne_nil
  have first : parseVariable env.scope parseDefinitions [] = (definitions.map Definition.entry, none) := by
    rw [given, parseVariable, if_neg filled, parseDefinitions_rendered rendered, List.nil_append]
  have second (entries : List ScopeEntry) : parseVariable env.scopeFile (parseFile env.files) entries = (entries, none) := by
    rcases alone with unset | empty
    · rw [unset]
      rfl
    · rw [empty]
      rfl
  have set : ¬(env.scope = none ∧ env.scopeFile = none) := by simp [given]
  rw [InstrumentationScope.construct, if_neg set, first]
  dsimp only
  rw [if_pos rfl, second]
  dsimp only
  rw [if_neg (by simpa using some), List.length_map]

/-- A scope given in the variable alone matches what its definitions cover. -/
theorem scope_matches_iff_covers {definitions : List Definition} {text : Text} (rendered : Renders definitions text)
    (env : Environment) (given : env.scope = some text) (alone : env.scopeFile = none ∨ env.scopeFile = some []) :
    (parseDefinitions text []).2 = none ∧
      (InstrumentationScope.construct env).1.isActive = true ∧
        ∀ file l, (InstrumentationScope.construct env).1.matches file l = true ↔
          ∃ definition ∈ definitions, definition.Covers file l := by
  rw [construct_rendered rendered given alone, parseDefinitions_rendered rendered]
  refine ⟨rfl, rfl, fun file l => ?_⟩
  simp only [InstrumentationScope.matches, Bool.not_true, Bool.false_eq_true, if_false, List.any_map, List.any_eq_true]
  exact exists_congr fun definition => and_congr_right fun _ => definition.entry_matches_iff file l

namespace Sample

/-- A pattern with a comma, a blank and a colon. -/
def kernels : Definition where
  pattern := "a,b c:d.cpp".toList
  specs := [.line 3 (by decide), .range 5 9 (by decide) (by decide)]
  noSemicolon := by decide
  noBlankEnds := by decide
  noColonFirst := by decide
  noColonDigit := colonPos_eq_none_iff.mp (by decide)
  notEmpty := by decide

def header : Definition where
  pattern := "/x.h".toList
  specs := []
  noSemicolon := by decide
  noBlankEnds := by decide
  noColonFirst := by decide
  noColonDigit := colonPos_eq_none_iff.mp (by decide)
  notEmpty := by decide

def text : Text := "a,b c:d.cpp:3 , 5:9; /x.h".toList

theorem text_renders : Renders [kernels, header] text := by
  have lines : Joined isWhitespace ',' (kernels.specs.map LineSpec.text) "3 , 5:9".toList :=
    .more ['3'] [' '] [' '] (by simp [isWhitespace]) (by simp [isWhitespace]) (.one "5:9".toList)
  refine ⟨["a,b c:d.cpp:3 , 5:9".toList, "/x.h".toList], .cons ⟨_, lines, rfl⟩ (.cons rfl .nil), ?_⟩
  exact .more "a,b c:d.cpp:3 , 5:9".toList [] [' '] (by simp) (by simp [isWhitespace]) (.one _)

end Sample

theorem scope_matches_sample :
    (InstrumentationScope.construct ⟨some Sample.text, none, fun _ => none⟩).1.matches "/src/a,b c:d.cpp".toList 7 = true := by
  have read := scope_matches_iff_covers Sample.text_renders ⟨some Sample.text, none, fun _ => none⟩ rfl (.inl rfl)
  refine (read.2.2 "/src/a,b c:d.cpp".toList 7).mpr ⟨Sample.kernels, List.mem_cons_self, ?_, ?_⟩
  · exact .inr (.inr ⟨by decide, by decide⟩)
  · exact .inr ⟨.range 5 9 (by decide) (by decide), List.mem_cons_of_mem _ List.mem_cons_self, by decide, by decide⟩

end Omniprobe.Scope
