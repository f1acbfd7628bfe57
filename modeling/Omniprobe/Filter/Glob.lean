import Omniprobe.Hsa
import Omniprobe.Lib.Regex

/-!
# Exclude patterns

`globToRegex` compiles a path pattern to a regular expression. What the expression matches is the
language of the pattern read from left to right.
-/

namespace Omniprobe
open Lib

namespace LibraryFilter

/-! ### The compiler -/

def escapedCharacters : List Char := ".+^$()[]\x7b\x7d|\\".toList

/-- The text for one character that does not start a `**`. -/
def regexOf (c : Char) : Text :=
  if c = '*' then "[^/]*".toList
  else if c = '?' then "[^/]".toList
  else if c ∈ escapedCharacters then ['\\', c]
  else [c]

/-- The loop of `globToRegex`. -/
def regexText : Text → Text
  | [] => []
  | [c] => regexOf c
  | c :: d :: rest =>
    if c = '*' ∧ d = '*' then ".*".toList ++ regexText rest else regexOf c ++ regexText (d :: rest)

/-- `none` where `std::regex` refuses the text. -/
def globToRegex (pattern : Text) : Option (Text → Bool) := (Regex.parse (regexText pattern)).map Regex.matchTerms

/-! ### The meaning of patterns -/

/-- `**` matches any text, a remaining `*` any text without a slash, `?` one character other than a slash,
and every other character matches itself. -/
inductive Matches : Text → Text → Prop where
  | done : Matches [] []
  | anything {pattern path : Text} (part : Text) (rest : Matches pattern path) :
      Matches ('*' :: '*' :: pattern) (part ++ path)
  | segment {pattern path : Text} (part : Text) (single : pattern.head? ≠ some '*') (inside : '/' ∉ part)
      (rest : Matches pattern path) : Matches ('*' :: pattern) (part ++ path)
  | character {pattern path : Text} (c : Char) (inside : c ≠ '/') (rest : Matches pattern path) :
      Matches ('?' :: pattern) (c :: path)
  | literal {pattern path : Text} (c : Char) (plain : c ≠ '*' ∧ c ≠ '?') (rest : Matches pattern path) :
      Matches (c :: pattern) (c :: path)

/-! ### The terms of a pattern -/

def notSlash (c : Char) : Bool := !Regex.oneOf ['/'] c

theorem notSlash_iff (c : Char) : notSlash c = true ↔ c ≠ '/' := by
  simp [notSlash, Regex.oneOf]

def termOf (c : Char) : Regex.Term :=
  if c = '*' then ⟨notSlash, .many⟩ else if c = '?' then ⟨notSlash, .once⟩ else ⟨Regex.oneOf [c], .once⟩

def termsOf : Text → List Regex.Term
  | [] => []
  | [c] => [termOf c]
  | c :: d :: rest =>
    if c = '*' ∧ d = '*' then ⟨Regex.anyChar, .many⟩ :: termsOf rest else termOf c :: termsOf (d :: rest)

/-- The syntax characters that are not glob characters are the ones that are escaped. -/
theorem escaped_of_syntactic {c : Char} (notStar : c ≠ '*') (notMark : c ≠ '?')
    (syntactic : c ∈ Regex.syntaxCharacters) : c ∈ escapedCharacters := by
  have all : Regex.syntaxCharacters.all (fun c => c == '*' || c == '?' || escapedCharacters.contains c) = true := by
    decide
  simpa [notStar, notMark] using List.all_eq_true.mp all c syntactic

theorem syntax_of_escaped {c : Char} (escaped : c ∈ escapedCharacters) : c ∈ Regex.syntaxCharacters := by
  have all : escapedCharacters.all (fun c => Regex.syntaxCharacters.contains c) = true := by decide
  simpa using List.all_eq_true.mp all c escaped

theorem syntax_of_quantifier {c : Char} (quantifier : c ∈ "*+?\x7b".toList) : c ∈ Regex.syntaxCharacters := by
  have all : "*+?\x7b".toList.all (fun c => Regex.syntaxCharacters.contains c) = true := by decide
  simpa using List.all_eq_true.mp all c quantifier

theorem regexOf_starts (c : Char) (rest : Text) : Regex.StartsTerm (regexOf c ++ rest) := by
  unfold regexOf
  split
  · rintro d ⟨⟩
    decide
  split
  · rintro d ⟨⟩
    decide
  split
  · rintro d ⟨⟩
    decide
  · rename_i notStar notMark plain
    rintro d ⟨⟩ quantifier
    exact plain (escaped_of_syntactic notStar notMark (syntax_of_quantifier quantifier))

theorem regexText_starts (pattern : Text) : Regex.StartsTerm (regexText pattern) := by
  cases pattern with
  | nil =>
    rintro d ⟨⟩
  | cons c rest =>
    cases rest with
    | nil =>
      have starts := regexOf_starts c []
      rwa [List.append_nil] at starts
    | cons d rest =>
      rw [regexText]
      split
      · rintro e ⟨⟩
        decide
      · exact regexOf_starts c _

theorem parseAtom_plain {c : Char} (plain : c ∉ Regex.syntaxCharacters) (rest : Text) :
    Regex.parseAtom (c :: rest) = some (Regex.oneOf [c], rest) := by
  have notDot : c ≠ '.' := by
    rintro rfl
    exact plain (by decide)
  have notBackslash : c ≠ '\\' := by
    rintro rfl
    exact plain (by decide)
  have notBracket : c ≠ '[' := by
    rintro rfl
    exact plain (by decide)
  rw [Regex.parseAtom, if_neg notDot, if_neg notBackslash, if_neg notBracket, if_neg plain]

theorem parseTerms_regexOf (c : Char) {rest : Text} (starts : Regex.StartsTerm rest) {fuel : Nat}
    {terms : List Regex.Term} (parsed : Regex.parseTerms fuel rest = some terms) :
    Regex.parseTerms (fuel + 1) (regexOf c ++ rest) = some (termOf c :: terms) := by
  unfold regexOf termOf
  split
  · exact Regex.parseTerms_term rfl (Regex.parseQuantifier_many starts) parsed
  split
  · exact Regex.parseTerms_term rfl (Regex.parseQuantifier_once starts) parsed
  split
  · rename_i escaped
    have atom : Regex.parseAtom (['\\', c] ++ rest) = some (Regex.oneOf [c], rest) :=
      if_pos (syntax_of_escaped escaped)
    exact Regex.parseTerms_term atom (Regex.parseQuantifier_once starts) parsed
  · rename_i notStar notMark plain
    have plain' : c ∉ Regex.syntaxCharacters :=
      fun syntactic => plain (escaped_of_syntactic notStar notMark syntactic)
    exact Regex.parseTerms_term (parseAtom_plain plain' rest) (Regex.parseQuantifier_once starts) parsed

theorem regexOf_length_pos (c : Char) : 0 < (regexOf c).length := by
  unfold regexOf
  split
  · decide
  split
  · decide
  split <;> simp

theorem parseTerms_regexText (pattern : Text) {fuel : Nat} (enough : (regexText pattern).length ≤ fuel) :
    Regex.parseTerms fuel (regexText pattern) = some (termsOf pattern) := by
  induction pattern using regexText.induct generalizing fuel with
  | case1 =>
    cases fuel <;> rfl
  | case2 c =>
    have positive := regexOf_length_pos c
    rw [regexText] at enough ⊢
    obtain ⟨fuel, rfl⟩ := Nat.exists_eq_succ_of_ne_zero (show fuel ≠ 0 by omega)
    have nothing : Regex.parseTerms fuel [] = some [] := by cases fuel <;> rfl
    have starts : Regex.StartsTerm [] := by rintro d ⟨⟩
    have parsed := parseTerms_regexOf c starts nothing
    rwa [List.append_nil] at parsed
  | case3 c d rest stars ih =>
    rw [regexText, if_pos stars] at enough ⊢
    rw [termsOf, if_pos stars]
    simp only [List.length_append] at enough
    have two : ".*".toList.length = 2 := rfl
    obtain ⟨fuel, rfl⟩ := Nat.exists_eq_succ_of_ne_zero (show fuel ≠ 0 by omega)
    have parsed := ih (show _ ≤ fuel by omega)
    exact Regex.parseTerms_term rfl (Regex.parseQuantifier_many (regexText_starts rest)) parsed
  | case4 c d rest single ih =>
    have positive := regexOf_length_pos c
    rw [regexText, if_neg single] at enough ⊢
    rw [termsOf, if_neg single]
    rw [List.length_append] at enough
    obtain ⟨fuel, rfl⟩ := Nat.exists_eq_succ_of_ne_zero (show fuel ≠ 0 by omega)
    exact parseTerms_regexOf c (regexText_starts (d :: rest)) (ih (by omega))

theorem globToRegex_eq (pattern : Text) : globToRegex pattern = some (Regex.matchTerms (termsOf pattern)) := by
  rw [globToRegex, Regex.parse, parseTerms_regexText pattern le_rfl, Option.map_some]

/-! ### Both matchers accept the same paths -/

def OneLine (path : Text) : Prop := ∀ c ∈ path, Regex.isLineTerminator c = false

theorem OneLine.right {before after : Text} (oneLine : OneLine (before ++ after)) : OneLine after :=
  fun c member => oneLine c (List.mem_append_right _ member)

theorem matches_literal_iff {c : Char} (notStar : c ≠ '*') (notMark : c ≠ '?') {pattern path : Text} :
    Matches (c :: pattern) path ↔ ∃ rest, path = c :: rest ∧ Matches pattern rest := by
  constructor
  · intro matched
    cases matched with
    | anything => exact (notStar rfl).elim
    | segment => exact (notStar rfl).elim
    | character => exact (notMark rfl).elim
    | literal c plain rest => exact ⟨_, rfl, rest⟩
  · rintro ⟨rest, rfl, matched⟩
    exact .literal c ⟨notStar, notMark⟩ matched

theorem matches_character_iff {pattern path : Text} :
    Matches ('?' :: pattern) path ↔ ∃ c rest, path = c :: rest ∧ c ≠ '/' ∧ Matches pattern rest := by
  constructor
  · intro matched
    cases matched with
    | character c inside rest => exact ⟨c, _, rfl, inside, rest⟩
    | literal c plain rest => exact (plain.2 rfl).elim
  · rintro ⟨c, rest, rfl, inside, matched⟩
    exact .character c inside matched

theorem matches_segment_iff {pattern path : Text} (single : pattern.head? ≠ some '*') :
    Matches ('*' :: pattern) path ↔
      ∃ part rest, path = part ++ rest ∧ '/' ∉ part ∧ Matches pattern rest := by
  constructor
  · intro matched
    cases matched with
    | anything => exact (single rfl).elim
    | segment part _ inside rest => exact ⟨part, _, rfl, inside, rest⟩
    | literal c plain rest => exact (plain.1 rfl).elim
  · rintro ⟨part, rest, rfl, inside, matched⟩
    exact .segment part single inside matched

theorem matches_anything_iff {pattern path : Text} :
    Matches ('*' :: '*' :: pattern) path ↔ ∃ part rest, path = part ++ rest ∧ Matches pattern rest := by
  constructor
  · intro matched
    cases matched with
    | anything part rest => exact ⟨part, _, rfl, rest⟩
    | segment _ single => exact (single rfl).elim
    | literal c plain rest => exact (plain.1 rfl).elim
  · rintro ⟨part, rest, rfl, matched⟩
    exact .anything part matched

/-- One character of a pattern that does not start a `**`. -/
theorem matchTerms_termOf_iff {c : Char} {pattern : Text} {terms : List Regex.Term}
    (single : c = '*' → pattern.head? ≠ some '*')
    (ih : ∀ {path : Text}, OneLine path → (Regex.matchTerms terms path = true ↔ Matches pattern path)) {path : Text}
    (oneLine : OneLine path) : Regex.matchTerms (termOf c :: terms) path = true ↔ Matches (c :: pattern) path := by
  unfold termOf
  split
  · rename_i star
    subst star
    rw [Regex.matchTerms_many_iff, matches_segment_iff (single rfl)]
    refine exists_congr fun part => exists_congr fun rest => ?_
    refine and_congr_right fun split => and_congr ?_ (ih (split ▸ oneLine).right)
    simp only [notSlash_iff]
    exact ⟨fun all slash => all '/' slash rfl, fun absent c member same => absent (same ▸ member)⟩
  split
  · rename_i mark
    subst mark
    rw [Regex.matchTerms_once_iff, matches_character_iff]
    refine exists_congr fun d => exists_congr fun rest => ?_
    refine and_congr_right fun split => and_congr (notSlash_iff d) (ih ?_)
    exact fun e member => oneLine e (split ▸ List.mem_cons_of_mem d member)
  · rename_i notStar notMark
    rw [Regex.matchTerms_once_iff, matches_literal_iff notStar notMark]
    constructor
    · rintro ⟨d, rest, rfl, same, matched⟩
      obtain rfl : d = c := by simpa [Regex.oneOf] using same
      exact ⟨rest, rfl, (ih fun e member => oneLine e (List.mem_cons_of_mem d member)).mp matched⟩
    · rintro ⟨rest, rfl, matched⟩
      have inside : Regex.oneOf [c] c = true := by simp [Regex.oneOf]
      exact ⟨c, rest, rfl, inside, (ih fun e member => oneLine e (List.mem_cons_of_mem c member)).mpr matched⟩

theorem matchTerms_termsOf_iff (pattern : Text) {path : Text} (oneLine : OneLine path) :
    Regex.matchTerms (termsOf pattern) path = true ↔ Matches pattern path := by
  induction pattern using regexText.induct generalizing path with
  | case1 =>
    rw [termsOf, Regex.matchTerms_nil_iff]
    constructor
    · rintro rfl
      exact .done
    · intro matched
      cases matched
      rfl
  | case2 c =>
    rw [termsOf]
    refine matchTerms_termOf_iff (fun _ => by simp) (fun {path} _ => ?_) oneLine
    rw [Regex.matchTerms_nil_iff]
    constructor
    · rintro rfl
      exact .done
    · intro matched
      cases matched
      rfl
  | case3 c d rest stars ih =>
    obtain ⟨rfl, rfl⟩ := stars
    rw [termsOf, if_pos ⟨rfl, rfl⟩, Regex.matchTerms_many_iff, matches_anything_iff]
    refine exists_congr fun part => exists_congr fun rest => ?_
    refine and_congr_right fun split => ?_
    -- The path is one line, so the dot matches every character of the part.
    have all : ∀ c ∈ part, Regex.anyChar c = true := by
      intro c member
      simp [Regex.anyChar, oneLine c (split ▸ List.mem_append_left _ member)]
    rw [ih (split ▸ oneLine).right]
    exact ⟨And.right, fun matched => ⟨all, matched⟩⟩
  | case4 c d rest single ih =>
    rw [termsOf, if_neg single]
    refine matchTerms_termOf_iff (fun star => ?_) (fun {path} => ih) oneLine
    simpa using fun same => single ⟨star, same⟩

/-- A filter with one exclude pattern excludes exactly the paths that match the pattern. -/
theorem isExcluded_iff_matches (pattern path : Text) (oneLine : ∀ c ∈ path, Regex.isLineTerminator c = false) :
    ∃ compiled, globToRegex pattern = some compiled ∧
      (isExcluded ⟨true, [compiled]⟩ path = true ↔ Matches pattern path) := by
  refine ⟨_, globToRegex_eq pattern, ?_⟩
  rw [← matchTerms_termsOf_iff pattern oneLine]
  simp [isExcluded, matchesAnyPattern]

theorem isExcluded_sample :
    ∃ compiled, globToRegex "/opt/**/lib?.so*".toList = some compiled ∧
      isExcluded ⟨true, [compiled]⟩ "/opt/rocm/lib/libc.so".toList = true ∧
      Matches "/opt/**/lib?.so*".toList "/opt/rocm/lib/libc.so".toList := by
  have plain : "/opt/rocm/lib/libc.so".toList.all (fun c => !Regex.isLineTerminator c) = true := by decide
  obtain ⟨compiled, compiles, exact⟩ := isExcluded_iff_matches "/opt/**/lib?.so*".toList
    "/opt/rocm/lib/libc.so".toList fun c member => by simpa using List.all_eq_true.mp plain c member
  have excluded : isExcluded ⟨true, [compiled]⟩ "/opt/rocm/lib/libc.so".toList = true := by
    rw [globToRegex_eq, Option.some.injEq] at compiles
    rw [← compiles]
    decide
  exact ⟨compiled, compiles, excluded, exact.mp excluded⟩

end LibraryFilter

end Omniprobe
