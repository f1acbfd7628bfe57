import Mathlib

/-!
# Strings as lists of characters

A `std::string` is the list of its bytes, each written as the character with that code.
Positions are `Nat`; `std::string::npos` is `none`.
-/

namespace Omniprobe.Lib

abbrev Text := List Char

/-! ### Decimals -/

theorem isDigit_of_mem_toDigits {n : Nat} {c : Char} (member : c ∈ Nat.toDigits 10 n) : c.isDigit :=
  Nat.isDigit_of_mem_toDigits (by decide) (by decide) member

theorem not_mem_toDigits (n : Nat) {c : Char} (other : ¬c.isDigit) : c ∉ Nat.toDigits 10 n :=
  fun member => other (isDigit_of_mem_toDigits member)

/-! ### Searches -/

namespace Text

/-- `s.find_first_of(c)`. -/
def findFirst (c : Char) (s : Text) : Option Nat := s.findIdx? (· == c)

theorem findFirst_eq_none {c : Char} {s : Text} (absent : c ∉ s) : findFirst c s = none := by
  rw [findFirst, List.findIdx?_eq_none_iff]
  intro other member
  rw [beq_eq_false_iff_ne]
  rintro rfl
  exact absent member

theorem findFirst_append_cons {c : Char} {s : Text} (absent : c ∉ s) (rest : Text) :
    findFirst c (s ++ c :: rest) = some s.length := by
  have before := findFirst_eq_none absent
  unfold findFirst at before ⊢
  rw [List.findIdx?_append, before, List.findIdx?_cons]
  simp

theorem first_split_unique {c : Char} {before before' after after' : Text} (absent : c ∉ before)
    (absent' : c ∉ before') (same : before ++ c :: after = before' ++ c :: after') :
    before = before' ∧ after = after' := by
  have position := congrArg (findFirst c) same
  rw [findFirst_append_cons absent, findFirst_append_cons absent'] at position
  obtain ⟨front, back⟩ := List.append_inj same (Option.some.inj position)
  exact ⟨front, List.cons_inj_right c |>.mp back⟩

/-- `s.find_last_of(c)`. -/
def findLast (c : Char) (s : Text) : Option Nat :=
  (s.reverse.findIdx? (· == c)).map fun i => s.length - 1 - i

theorem findLast_eq_none {c : Char} {s : Text} (absent : c ∉ s) : findLast c s = none := by
  have none := findFirst_eq_none (s := s.reverse) (by simpa using absent)
  unfold findFirst at none
  rw [findLast, none, Option.map_none]

theorem findLast_append_cons {c : Char} {rest : Text} (s : Text) (absent : c ∉ rest) :
    findLast c (s ++ c :: rest) = some s.length := by
  have first := findFirst_append_cons (s := rest.reverse) (by simpa using absent) s.reverse
  have turned : (s ++ c :: rest).reverse = rest.reverse ++ c :: s.reverse := by simp
  unfold findFirst at first
  rw [findLast, turned, first, Option.map_some, List.length_append, List.length_cons, List.length_reverse]
  congr 1
  omega

theorem exists_last_split {c : Char} {s : Text} (present : c ∈ s) :
    ∃ before after, s = before ++ c :: after ∧ c ∉ after := by
  obtain ⟨front, back, turned, absent⟩ := List.eq_append_cons_of_mem (List.mem_reverse.mpr present)
  refine ⟨back.reverse, front.reverse, ?_, by simpa using absent⟩
  rw [← List.reverse_reverse s, turned]
  simp

theorem last_split_unique {c : Char} {before before' after after' : Text} (absent : c ∉ after)
    (absent' : c ∉ after') (same : before ++ c :: after = before' ++ c :: after') :
    before = before' ∧ after = after' := by
  have position := congrArg (findLast c) same
  rw [findLast_append_cons _ absent, findLast_append_cons _ absent'] at position
  obtain ⟨front, back⟩ := List.append_inj same (Option.some.inj position)
  exact ⟨front, List.cons_inj_right c |>.mp back⟩

/-- `s.rfind(pattern)`: the last position where `pattern` occurs. -/
def rfind (pattern : Text) : Text → Option Nat
  | [] => if pattern = [] then some 0 else none
  | c :: rest =>
    match rfind pattern rest with
    | some i => some (i + 1)
    | none => if pattern.isPrefixOf (c :: rest) then some 0 else none

theorem rfind_append {pattern rest : Text} {pos : Nat} (found : rfind pattern rest = some pos) (s : Text) :
    rfind pattern (s ++ rest) = some (s.length + pos) := by
  induction s with
  | nil => simpa using found
  | cons c s ih =>
    rw [List.cons_append, rfind, ih]
    simp only [List.length_cons, Option.some.injEq]
    omega

theorem rfind_split {pattern s : Text} {pos : Nat} (found : rfind pattern s = some pos) :
    ∃ before after, s = before ++ (pattern ++ after) ∧ before.length = pos ∧
      rfind pattern (pattern ++ after) = some 0 := by
  induction s generalizing pos with
  | nil =>
    rw [rfind] at found
    split at found
    · next empty =>
      subst empty
      cases found
      exact ⟨[], [], rfl, rfl, rfl⟩
    · cases found
  | cons c rest ih =>
    have whole := found
    rw [rfind] at found
    cases later : rfind pattern rest with
    | some pos' =>
      rw [later] at found
      cases found
      obtain ⟨before, after, rfl, length, last⟩ := ih later
      exact ⟨c :: before, after, rfl, by rw [List.length_cons, length], last⟩
    | none =>
      rw [later] at found
      simp only at found
      split at found
      · next starts =>
        cases found
        obtain ⟨after, cut⟩ := List.isPrefixOf_iff_prefix.mp starts
        exact ⟨[], after, cut.symm, rfl, by rw [cut, whole]⟩
      · cases found

theorem prefix_of_prefix_append {pattern s rest : Text} (starts : pattern <+: s ++ rest)
    (foreign : ∀ c ∈ pattern, c ∉ rest) : pattern <+: s := by
  induction pattern generalizing s with
  | nil => exact List.nil_prefix
  | cons c pattern ih =>
    cases s with
    | nil =>
      have inRest : c ∈ rest := starts.subset List.mem_cons_self
      exact absurd inRest (foreign c List.mem_cons_self)
    | cons d s =>
      obtain ⟨rfl, tail⟩ := List.cons_prefix_cons.mp starts
      rw [List.cons_prefix_cons]
      exact ⟨rfl, ih tail fun e member => foreign e (List.mem_cons_of_mem _ member)⟩

theorem rfind_append_eq_none {pattern s rest : Text} (absent : rfind pattern s = none)
    (foreign : ∀ c ∈ pattern, c ∉ rest) (ends : rfind pattern rest = none) :
    rfind pattern (s ++ rest) = none := by
  induction s with
  | nil => exact ends
  | cons c s ih =>
    rw [rfind] at absent
    cases later : rfind pattern s with
    | some pos => simp [later] at absent
    | none =>
      rw [List.cons_append, rfind, ih later]
      simp only
      rw [if_neg]
      intro starts
      have starts := prefix_of_prefix_append (s := c :: s) (List.isPrefixOf_iff_prefix.mp starts) foreign
      simp [later, List.isPrefixOf_iff_prefix.mpr starts] at absent

def replaceAt (s : Text) (pos count : Nat) (new : Text) : Text := s.take pos ++ new ++ s.drop (pos + count)

def insertAt (s : Text) (pos : Nat) (new : Text) : Text := s.take pos ++ new ++ s.drop pos

theorem insertAt_ne_nil (s : Text) (pos : Nat) {new : Text} (some : new ≠ []) : insertAt s pos new ≠ [] := by
  rw [insertAt, List.append_assoc]
  exact List.append_ne_nil_of_right_ne_nil _ (List.append_ne_nil_of_left_ne_nil some _)

theorem mem_insertAt {c : Char} {s new : Text} {pos : Nat} : c ∈ insertAt s pos new ↔ c ∈ s ∨ c ∈ new := by
  have parts : c ∈ s ↔ c ∈ s.take pos ∨ c ∈ s.drop pos := by
    rw [← List.mem_append, List.take_append_drop]
  rw [insertAt, List.mem_append, List.mem_append, parts]
  tauto

/-- `p > q` for positions, where `npos` is the largest `size_t`. -/
def positionAfter : Option Nat → Option Nat → Bool
  | _, none => false
  | none, some _ => true
  | some p, some q => q < p

/-! ### The first occurrence of a pattern -/

/-- What follows the first occurrence of the pattern: `s.find(pattern)`, moved past the pattern. -/
def after (pattern : Text) : Text → Option Text
  | [] => if pattern = [] then some [] else none
  | c :: rest =>
    if pattern.isPrefixOf (c :: rest) then some ((c :: rest).drop pattern.length) else after pattern rest

theorem after_append (pattern rest : Text) : after pattern (pattern ++ rest) = some rest := by
  have starts : pattern.isPrefixOf (pattern ++ rest) = true :=
    List.isPrefixOf_iff_prefix.mpr (List.prefix_append pattern rest)
  cases pattern with
  | nil =>
    cases rest with
    | nil => rfl
    | cons c rest => rfl
  | cons c pattern =>
    rw [List.cons_append] at starts ⊢
    rw [after, if_pos starts, ← List.cons_append, List.drop_left]

theorem after_skip {pattern rest : Text} {c : Char} (absent : ¬pattern <+: c :: rest) :
    after pattern (c :: rest) = after pattern rest := by
  rw [after, if_neg]
  rwa [List.isPrefixOf_iff_prefix]

theorem after_eq_none_iff {pattern s : Text} : after pattern s = none ↔ ¬pattern <:+: s := by
  induction s with
  | nil => simp [after]
  | cons c rest ih =>
    rw [after, List.infix_cons_iff, not_or, ← ih, ← List.isPrefixOf_iff_prefix]
    split
    · rename_i starts
      simp [starts]
    · rename_i other
      rw [and_iff_right other]

/-- What is found is what follows the first occurrence. -/
theorem after_eq_some_iff {pattern s rest : Text} :
    after pattern s = some rest ↔ ∃ before, s = before ++ (pattern ++ rest) ∧
      ∀ before' rest', s = before' ++ (pattern ++ rest') → before.length ≤ before'.length := by
  induction s with
  | nil =>
    rw [after]
    constructor
    · intro found
      split at found
      · rename_i empty
        obtain rfl := Option.some.inj found
        exact ⟨[], by simp [empty], fun _ _ _ => Nat.zero_le _⟩
      · cases found
    · rintro ⟨before, split, -⟩
      obtain ⟨-, split⟩ := List.append_eq_nil_iff.mp split.symm
      obtain ⟨rfl, rfl⟩ := List.append_eq_nil_iff.mp split
      rfl
  | cons c tail ih =>
    by_cases starts : pattern <+: c :: tail
    · obtain ⟨behind, whole⟩ := id starts
      rw [after, if_pos (List.isPrefixOf_iff_prefix.mpr starts), ← whole, List.drop_left, Option.some.injEq]
      constructor
      · rintro rfl
        exact ⟨[], rfl, fun _ _ _ => Nat.zero_le _⟩
      · rintro ⟨before, split, first⟩
        obtain rfl := List.length_eq_zero_iff.mp (Nat.le_zero.mp (first [] behind rfl))
        exact List.append_cancel_left split
    · rw [after_skip starts, ih]
      constructor
      · rintro ⟨before, rfl, first⟩
        refine ⟨c :: before, rfl, ?_⟩
        intro before' rest' split
        cases before' with
        | nil => exact absurd ⟨rest', split.symm⟩ starts
        | cons d before' => exact Nat.succ_le_succ (first before' rest' (List.cons.inj split).2)
      · rintro ⟨before, split, first⟩
        cases before with
        | nil => exact absurd ⟨rest, split.symm⟩ starts
        | cons d before =>
          obtain ⟨rfl, later⟩ := List.cons.inj split
          refine ⟨before, later, ?_⟩
          intro before' rest' other
          exact Nat.le_of_succ_le_succ (first (c :: before') rest' (congrArg _ other))

/-- A word between two delimiters. -/
def delimited (d : Char) (word : Text) : Text := d :: (word ++ [d])

section
variable {d : Char} {word : Text}

theorem after_foreign {skipped : Text} (rest : Text) (foreign : d ∉ skipped) :
    after (delimited d word) (skipped ++ rest) = after (delimited d word) rest := by
  induction skipped with
  | nil => rfl
  | cons c skipped ih =>
    rw [List.mem_cons, not_or] at foreign
    rw [List.cons_append, after_skip, ih foreign.2]
    intro starts
    exact foreign.1 (List.cons_prefix_cons.mp starts).1

theorem prefix_of_delimited {text rest : Text} (inside : d ∉ word) (starts : word ++ [d] <+: text ++ d :: rest) :
    word ++ [d] <+: text ++ [d] := by
  induction word generalizing text with
  | nil =>
    cases text with
    | nil => exact List.prefix_rfl
    | cons c text =>
      obtain ⟨rfl, -⟩ := List.cons_prefix_cons.mp starts
      exact List.cons_prefix_cons.mpr ⟨rfl, List.nil_prefix⟩
  | cons e word ih =>
    rw [List.mem_cons, not_or] at inside
    cases text with
    | nil => exact absurd (List.cons_prefix_cons.mp starts).1.symm inside.1
    | cons c text =>
      obtain ⟨rfl, tail⟩ := List.cons_prefix_cons.mp starts
      exact List.cons_prefix_cons.mpr ⟨rfl, ih inside.2 tail⟩

/-- The search passes over a text that ends in a delimiter, when the word does not occur in it and does not
start right after it. -/
theorem after_closed {text rest : Text} (inside : d ∉ word) (absent : ¬delimited d word <:+: text ++ [d])
    (follow : ¬word ++ [d] <+: rest) :
    after (delimited d word) (text ++ d :: rest) = after (delimited d word) rest := by
  induction text with
  | nil =>
    refine after_skip fun starts => ?_
    exact follow (List.cons_prefix_cons.mp starts).2
  | cons c text ih =>
    have later : ¬delimited d word <:+: text ++ [d] := fun within => absent (List.infix_cons within)
    rw [List.cons_append, after_skip, ih later]
    intro starts
    obtain ⟨rfl, tail⟩ := List.cons_prefix_cons.mp starts
    exact absent (List.cons_prefix_cons.mpr ⟨rfl, prefix_of_delimited inside tail⟩).isInfix

/-- A word between delimiters occurs in another one only as the whole. -/
theorem eq_of_delimited_infix {other : Text} (outside : d ∉ other) (within : delimited d word <:+: delimited d other) :
    word = other := by
  obtain ⟨before, behind, split⟩ := within
  have quotes := congrArg (List.count d) split
  simp only [delimited, List.count_append, List.count_cons_self, List.count_nil,
    List.count_eq_zero.mpr outside] at quotes
  have alone : before = [] := by
    cases before with
    | nil => rfl
    | cons c before =>
      obtain ⟨rfl, -⟩ := List.cons.inj split
      rw [List.count_cons_self] at quotes
      omega
  have inside : d ∉ word := List.count_eq_zero.mp (by omega)
  subst alone
  rw [List.nil_append, delimited, delimited, List.cons_append, List.append_assoc] at split
  exact (first_split_unique inside outside (List.cons.inj split).2).1

end

/-! ### Percent-encoding -/

/-- The characters that a URI path keeps as they are. -/
def unreserved (c : Char) : Bool := c.isAlphanum || "/_.~-".toList.contains c

def hexDigit (n : Nat) : Char := "0123456789ABCDEF".toList.getD n '0'

def percentEncode (path : Text) : Text :=
  path.flatMap fun c => if unreserved c then [c] else ['%', hexDigit (c.toNat / 16), hexDigit (c.toNat % 16)]

theorem hexDigit_ne_hash (n : Nat) : hexDigit n ≠ '#' := by
  rcases Nat.lt_or_ge n 16 with small | large
  · have digits : ∀ n < 16, hexDigit n ≠ '#' := by decide
    exact digits n small
  · rw [hexDigit, List.getD_eq_default _ _ large]
    decide

theorem hash_not_mem_percentEncode (path : Text) : '#' ∉ percentEncode path := by
  rw [percentEncode, List.mem_flatMap]
  rintro ⟨c, -, inside⟩
  split at inside
  · rename_i kept
    obtain rfl := List.mem_singleton.mp inside
    revert kept
    decide
  · simp [(hexDigit_ne_hash _).symm] at inside

/-- A path without a percent sign in its encoding is its own encoding. -/
theorem percentEncode_eq_self {path : Text} (plain : '%' ∉ percentEncode path) : percentEncode path = path := by
  induction path with
  | nil => rfl
  | cons c rest ih =>
    rw [percentEncode, List.flatMap_cons, ← percentEncode] at plain ⊢
    rw [List.mem_append, not_or] at plain
    split
    · rw [ih plain.2, List.singleton_append]
    · rename_i encoded
      exact absurd (by rw [if_neg encoded]; exact List.mem_cons_self) plain.1

end Text

end Omniprobe.Lib
