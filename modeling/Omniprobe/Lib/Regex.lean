import Omniprobe.Lib.Text

/-!
# Regular expressions

Sequences of quantified atoms, the part of the ECMAScript grammar that has no groups, alternatives,
anchors or counted repetitions: its reader, and whether an expression matches a whole text.
-/

namespace Omniprobe.Lib.Regex

/-! ### Syntax -/

def isLineTerminator (c : Char) : Bool :=
  c == '\n' || c == '\r' || c == '\u2028' || c == '\u2029'

/-- `SyntaxCharacter`. -/
def syntaxCharacters : List Char := "^$\\.*+?()[]\x7b\x7d|".toList

inductive Quantifier where
  | once | many
  deriving DecidableEq, Repr

structure Term where
  set : Char → Bool
  quantifier : Quantifier

def anyChar (c : Char) : Bool := !isLineTerminator c

def oneOf (chars : List Char) (c : Char) : Bool := chars.contains c

/-- The members of a class up to its closing bracket. Ranges, escapes and nested brackets are left out. -/
def parseClass : Text → Option (List Char × Text)
  | [] => none
  | c :: rest =>
    if c = ']' then some ([], rest)
    else if c = '\\' ∨ c = '-' ∨ c = '[' then none
    else (parseClass rest).map fun (chars, rest) => (c :: chars, rest)

/-- What follows an opening bracket. -/
def parseBracket (text : Text) : Option ((Char → Bool) × Text) :=
  if text.head? = some '^' then (parseClass text.tail).map fun (chars, rest) => (fun c => !oneOf chars c, rest)
  else (parseClass text).map fun (chars, rest) => (oneOf chars, rest)

/-- What follows a backslash. Only the escape of a syntax character is read. -/
def parseEscape : Text → Option ((Char → Bool) × Text)
  | [] => none
  | c :: rest => if c ∈ syntaxCharacters then some (oneOf [c], rest) else none

/-- One `Atom`; `none` where the text has none or one that is left out here. -/
def parseAtom : Text → Option ((Char → Bool) × Text)
  | [] => none
  | c :: rest =>
    if c = '.' then some (anyChar, rest)
    else if c = '\\' then parseEscape rest
    else if c = '[' then parseBracket rest
    else if c ∈ syntaxCharacters then none
    else some (oneOf [c], rest)

/-- The quantifier after an atom. A `?` after the quantifier only changes the order in which matches are
tried. -/
def parseQuantifier : Text → Option (Quantifier × Text)
  | [] => some (.once, [])
  | c :: rest =>
    if c = '*' then some (.many, if rest.head? = some '?' then rest.tail else rest)
    else if c ∈ "+?\x7b".toList then none
    else some (.once, c :: rest)

/-- Every round reads at least one character, so `fuel` is the length of the text. -/
def parseTerms : Nat → Text → Option (List Term)
  | _, [] => some []
  | 0, _ :: _ => none
  | fuel + 1, text =>
    match parseAtom text with
    | none => none
    | some (set, rest) =>
      match parseQuantifier rest with
      | none => none
      | some (quantifier, rest) => (parseTerms fuel rest).map (⟨set, quantifier⟩ :: ·)

def parse (text : Text) : Option (List Term) := parseTerms text.length text

/-! ### Matching -/

/-- `regex_match`: the terms match consecutive parts that make up the whole text. -/
def matchTerms : List Term → Text → Bool
  | [], s => s.isEmpty
  | ⟨set, .once⟩ :: rest, s =>
    match s with
    | [] => false
    | c :: s => set c && matchTerms rest s
  | ⟨set, .many⟩ :: rest, s =>
    (List.range (s.length + 1)).any fun n => (s.take n).all set && matchTerms rest (s.drop n)

theorem matchTerms_nil_iff (s : Text) : matchTerms [] s = true ↔ s = [] := by
  rw [matchTerms, List.isEmpty_iff]

theorem matchTerms_once_iff (set : Char → Bool) (rest : List Term) (s : Text) :
    matchTerms (⟨set, .once⟩ :: rest) s = true ↔ ∃ c s', s = c :: s' ∧ set c = true ∧ matchTerms rest s' = true := by
  cases s with
  | nil => simp [matchTerms]
  | cons c s =>
    rw [matchTerms, Bool.and_eq_true]
    constructor
    · rintro ⟨member, matched⟩
      exact ⟨c, s, rfl, member, matched⟩
    · rintro ⟨d, s', split, member, matched⟩
      obtain ⟨rfl, rfl⟩ := List.cons.inj split
      exact ⟨member, matched⟩

theorem matchTerms_many_iff (set : Char → Bool) (rest : List Term) (s : Text) :
    matchTerms (⟨set, .many⟩ :: rest) s = true ↔
      ∃ before after, s = before ++ after ∧ (∀ c ∈ before, set c = true) ∧ matchTerms rest after = true := by
  simp only [matchTerms, List.any_eq_true, List.mem_range, Bool.and_eq_true, List.all_eq_true]
  constructor
  · rintro ⟨n, -, members, matched⟩
    exact ⟨s.take n, s.drop n, (List.take_append_drop n s).symm, members, matched⟩
  · rintro ⟨before, after, rfl, members, matched⟩
    refine ⟨before.length, ?_, ?_, ?_⟩
    · rw [List.length_append]
      omega
    · rwa [List.take_left]
    · rwa [List.drop_left]

/-! ### Reading -/

/-- A text that does not continue the atom before it. -/
def StartsTerm (s : Text) : Prop := ∀ c ∈ s.head?, c ∉ "*+?\x7b".toList

theorem parseQuantifier_once {s : Text} (starts : StartsTerm s) : parseQuantifier s = some (.once, s) := by
  cases s with
  | nil => rfl
  | cons c rest =>
    have other := starts c rfl
    have notStar : c ≠ '*' := by
      rintro rfl
      exact other (by decide)
    have notOther : c ∉ "+?\x7b".toList := fun member => other (List.mem_cons_of_mem _ member)
    rw [parseQuantifier, if_neg notStar, if_neg notOther]

theorem parseQuantifier_many {s : Text} (starts : StartsTerm s) : parseQuantifier ('*' :: s) = some (.many, s) := by
  have notLazy : s.head? ≠ some '?' := fun same => starts '?' same (by decide)
  rw [parseQuantifier, if_pos rfl, if_neg notLazy]

theorem parseTerms_term {fuel : Nat} {text rest after : Text} {set : Char → Bool} {quantifier : Quantifier}
    {terms : List Term} (atom : parseAtom text = some (set, rest))
    (quantified : parseQuantifier rest = some (quantifier, after)) (parsed : parseTerms fuel after = some terms) :
    parseTerms (fuel + 1) text = some (⟨set, quantifier⟩ :: terms) := by
  cases text with
  | nil => cases atom
  | cons c text =>
    simp only [parseTerms, atom, quantified, parsed, Option.map_some]

end Omniprobe.Lib.Regex
