import Omniprobe.Scope.Grammar

/-!
# The stored line ranges

When the range that is stored for a line spec holds the lines that its numerals denote.
-/

namespace Omniprobe.Scope
open Lib

/-- The half-open interval of lines that the numerals of a line spec denote. -/
inductive Denotes : Text → Int → Int → Prop where
  | line {s : Text} {n : Int} (number : Numeral s n) : Denotes s n (n + 1)
  | range {s t : Text} {n m : Int} (start : Numeral s n) (stop : Numeral t m) : Denotes (s ++ ':' :: t) n m

/-- A stored range that is not empty and holds exactly the lines that were written. -/
def Faithful (spec : Text) (range : UInt32 × UInt32) : Prop :=
  range.1 < range.2 ∧ ∃ lo hi : Int, Denotes spec lo hi ∧
    ∀ l : UInt32, range.1 ≤ l ∧ l < range.2 ↔ lo ≤ l.toNat ∧ l.toNat < hi

/-! ### What is stored for an interval -/

theorem numeral_no_colon {s : Text} {n : Int} (numeral : Numeral s n) : ':' ∉ s :=
  numeral.not_mem (by decide) (by decide) (by decide) (by decide)

theorem Lenient.eq_of_numeral {s : Text} {v : UInt64} {n : Int} (lenient : Lenient s v) (numeral : Numeral s n) :
    v = ulong n := by
  have seen : cString s = s := cString_eq_self (numeral.not_mem (by decide) (by decide) (by decide) (by decide))
  have read := (lenient_iff s v).mp lenient
  rw [strtoul_numeral (seen.symm ▸ numeral)] at read
  exact (congrArg Prod.fst read).symm

theorem reads_denotes {spec : Text} {range : UInt32 × UInt32} {lo hi : Int} (reads : Reads spec range)
    (denotes : Denotes spec lo hi) :
    (hi = lo + 1 ∧ range = ((ulong lo).toUInt32, (ulong lo + 1).toUInt32)) ∨
    (ulong lo < ulong hi ∧ range = ((ulong lo).toUInt32, (ulong hi).toUInt32)) := by
  cases denotes with
  | line numeral =>
    cases reads with
    | line single number =>
      rw [number.eq_of_numeral numeral]
      exact .inl ⟨rfl, rfl⟩
    | range first last start stop ordered => exact absurd (by simp) (numeral_no_colon numeral)
  | range from' to' =>
    generalize whole : _ ++ ':' :: _ = spec at reads
    cases reads with
    | line single number =>
      subst whole
      exact absurd (by simp) single
    | range first last start stop ordered =>
      obtain ⟨rfl, rfl⟩ := Text.first_split_unique (numeral_no_colon from') first whole
      rw [start.eq_of_numeral from', stop.eq_of_numeral to'] at ordered ⊢
      exact .inr ⟨ordered, rfl⟩

theorem stored_of_small {spec : Text} {range : UInt32 × UInt32} {lo hi : Nat} (reads : Reads spec range)
    (denotes : Denotes spec lo hi) (ordered : lo < hi) (small : hi < 2 ^ 32) :
    range.1.toNat = lo ∧ range.2.toNat = hi := by
  have fits : lo ≤ ulongMax ∧ hi ≤ ulongMax := by
    unfold ulongMax
    omega
  have start := toNat_ulong_natCast fits.1
  have stop := toNat_ulong_natCast fits.2
  rcases reads_denotes reads denotes with ⟨single, rfl⟩ | ⟨-, rfl⟩
  · dsimp only
    rw [UInt64.toNat_toUInt32, UInt64.toNat_toUInt32, UInt64.toNat_add, start, UInt64.toNat_one]
    omega
  · dsimp only
    rw [UInt64.toNat_toUInt32, UInt64.toNat_toUInt32, start, stop]
    omega

theorem faithful_of_small {spec : Text} {range : UInt32 × UInt32} {lo hi : Nat} (reads : Reads spec range)
    (denotes : Denotes spec lo hi) (ordered : lo < hi) (small : hi < 2 ^ 32) : Faithful spec range := by
  obtain ⟨start, stop⟩ := stored_of_small reads denotes ordered small
  refine ⟨?_, lo, hi, denotes, fun l => ?_⟩
  · rw [UInt32.lt_iff_toNat_lt]
    omega
  · rw [UInt32.le_iff_toNat_le, UInt32.lt_iff_toNat_lt]
    omega

/-! ### What a faithful range can denote -/

theorem small_of_faithful {range : UInt32 × UInt32} {lo hi : Int} (filled : range.1 < range.2)
    (same : ∀ l : UInt32, range.1 ≤ l ∧ l < range.2 ↔ lo ≤ l.toNat ∧ l.toNat < hi) :
    lo ≤ range.1.toNat ∧ range.1.toNat < hi ∧ hi < 2 ^ 32 := by
  obtain ⟨below, above⟩ := (same range.1).mp ⟨UInt32.le_refl _, filled⟩
  refine ⟨below, above, ?_⟩
  -- Otherwise the largest line would be written, and no stored range holds it.
  by_contra large
  have largest : (UInt32.ofNat (2 ^ 32 - 1)).toNat = 2 ^ 32 - 1 := rfl
  have start := range.1.toNat_lt
  have stop := range.2.toNat_lt
  have stored := ((same (.ofNat (2 ^ 32 - 1))).mpr (by omega)).2
  rw [UInt32.lt_iff_toNat_lt] at stored
  omega

theorem nonneg_of_faithful {spec : Text} {range : UInt32 × UInt32} {lo hi : Int} (reads : Reads spec range)
    (denotes : Denotes spec lo hi) (filled : range.1 < range.2)
    (same : ∀ l : UInt32, range.1 ≤ l ∧ l < range.2 ↔ lo ≤ l.toNat ∧ l.toNat < hi) : 0 ≤ lo := by
  obtain ⟨below, above, small⟩ := small_of_faithful filled same
  by_contra negative
  -- Line zero is written, so the range starts there, with a start that is a multiple of 2 ^ 32.
  have zero := ((same 0).mpr (by simp; omega)).1
  rw [UInt32.le_iff_toNat_le, UInt32.toNat_zero] at zero
  rcases reads_denotes reads denotes with ⟨single, rfl⟩ | ⟨ordered, rfl⟩
  · omega
  · have positive := ulong_toNat_pos (n := lo) (by omega)
    obtain ⟨m, rfl⟩ : ∃ m : Nat, hi = m := ⟨hi.toNat, by omega⟩
    have fits : m ≤ ulongMax := by
      unfold ulongMax
      omega
    rw [UInt64.lt_iff_toNat_lt, toNat_ulong_natCast fits] at ordered
    dsimp only at zero
    rw [UInt64.toNat_toUInt32] at zero
    omega

/-- A line spec is stored faithfully exactly when its interval starts at zero or later, is not empty and ends below
the 32-bit boundary. -/
theorem faithful_iff_small {spec : Text} {range : UInt32 × UInt32} (reads : Reads spec range) :
    Faithful spec range ↔ ∃ lo hi : Nat, Denotes spec lo hi ∧ lo < hi ∧ hi < 2 ^ 32 := by
  constructor
  · rintro ⟨filled, lo, hi, denotes, same⟩
    obtain ⟨below, above, small⟩ := small_of_faithful filled same
    have nonneg := nonneg_of_faithful reads denotes filled same
    obtain ⟨n, rfl⟩ : ∃ n : Nat, lo = n := ⟨lo.toNat, by omega⟩
    obtain ⟨m, rfl⟩ : ∃ m : Nat, hi = m := ⟨hi.toNat, by omega⟩
    exact ⟨n, m, denotes, by omega, by omega⟩
  · rintro ⟨lo, hi, denotes, ordered, small⟩
    exact faithful_of_small reads denotes ordered small

/-! ### All line specs -/

theorem forall₂_iff_forall {α β : Type} {R S : α → β → Prop} {P : α → Prop} {list : List α} {out : List β}
    (each : List.Forall₂ R list out) (same : ∀ x y, R x y → (S x y ↔ P x)) :
    List.Forall₂ S list out ↔ ∀ x ∈ list, P x := by
  induction each with
  | nil => simp
  | cons first later ih => rw [List.forall₂_cons, List.forall_mem_cons, same _ _ first, ih]

/-- The ranges that are stored for an accepted text are the ones written in it exactly when every interval ends below
2 ^ 32. -/
theorem stored_faithful_iff (input : Text) (entries stored : List ScopeEntry)
    (accepted : parseDefinitions input entries = (entries ++ stored, none)) :
    List.Forall₂ Faithful (lineSpecs input) (stored.flatMap ScopeEntry.ranges) ↔
      ∀ spec ∈ lineSpecs input, ∃ lo hi : Nat, Denotes spec lo hi ∧ lo < hi ∧ hi < 2 ^ 32 := by
  have parses : (parseDefinitions input entries).2 = none := by rw [accepted]
  obtain ⟨stored', whole, each⟩ := parseDefinitions_reads parses
  rw [accepted] at whole
  obtain rfl := List.append_cancel_left whole
  exact forall₂_iff_forall each fun spec range => faithful_iff_small

theorem stored_faithful_sample :
    List.Forall₂ Faithful [['5', ':', '9'], ['1', '2']] [(5, 9), (12, 13)] := by
  have decimal : Decimal ['5'] 5 ∧ Decimal ['9'] 9 ∧ Decimal ['1', '2'] 12 :=
    ⟨⟨by simp, by simp, rfl⟩, ⟨by simp, by simp, rfl⟩, by simp, by simp, rfl⟩
  refine (stored_faithful_iff ":5:9,12".toList [] [⟨[], false, [(5, 9), (12, 13)]⟩] (by decide)).mpr ?_
  have specs : lineSpecs ":5:9,12".toList = [['5', ':', '9'], ['1', '2']] := by decide
  rw [specs]
  refine List.forall_mem_cons.mpr ⟨?_, List.forall_mem_singleton.mpr ?_⟩
  · exact ⟨5, 9, .range (s := ['5']) decimal.1.numeral decimal.2.1.numeral, by decide, by decide⟩
  · exact ⟨12, 13, .line decimal.2.2.numeral, by decide, by decide⟩

/-- The last 32-bit line is stored as an empty range, and so is a range that ends after it; the number after it is
stored as line zero. -/
theorem stored_at_boundary :
    (parseDefinitions ":4294967295".toList [] = ([⟨[], false, [(4294967295, 0)]⟩], none) ∧
      ¬Faithful "4294967295".toList (4294967295, 0)) ∧
    (parseDefinitions ":5:4294967296".toList [] = ([⟨[], false, [(5, 0)]⟩], none) ∧
      ¬Faithful "5:4294967296".toList (5, 0)) ∧
    parseDefinitions ":4294967296".toList [] = ([⟨[], false, [(0, 1)]⟩], none) := by
  refine ⟨⟨by decide, fun faithful => ?_⟩, ⟨by decide, fun faithful => ?_⟩, by decide⟩
  · exact absurd faithful.1 (by decide)
  · exact absurd faithful.1 (by decide)

end Omniprobe.Scope
