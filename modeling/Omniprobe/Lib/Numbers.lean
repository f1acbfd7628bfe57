import Omniprobe.Lib.Scan

/-!
# The numerals that `strtoul` reads

Which C strings `strtoul` reads to their end, and the value it gives them.
-/

namespace Omniprobe.Lib

/-! ### Numerals -/

/-- A number as decimal digits and nothing else. -/
def Decimal (s : Text) (n : Nat) : Prop := s ≠ [] ∧ (∀ c ∈ s, c.isDigit) ∧ Nat.ofDigitChars 10 s 0 = n

/-- A number as the C library reads it: digits after blanks and at most one sign. -/
inductive Numeral : Text → Int → Prop where
  | plain {blanks digits : Text} {n : Nat} (skipped : ∀ c ∈ blanks, isSpace c) (decimal : Decimal digits n) :
      Numeral (blanks ++ digits) n
  | plus {blanks digits : Text} {n : Nat} (skipped : ∀ c ∈ blanks, isSpace c) (decimal : Decimal digits n) :
      Numeral (blanks ++ '+' :: digits) n
  | minus {blanks digits : Text} {n : Nat} (skipped : ∀ c ∈ blanks, isSpace c) (decimal : Decimal digits n) :
      Numeral (blanks ++ '-' :: digits) (-n)

/-- The value of a number as an `unsigned long`: saturated when it is too large, negated when it has a minus sign. -/
def ulong (n : Int) : UInt64 := if ulongMax < n.natAbs then .ofNat ulongMax else .ofInt n

/-- The part of a string that C sees. -/
def cString (s : Text) : Text := s.takeWhile (· ≠ '\x00')

theorem Decimal.numeral {s : Text} {n : Nat} (decimal : Decimal s n) : Numeral s n :=
  .plain (List.forall_mem_nil _) decimal

/-! ### Digits, signs and blanks are different characters -/

theorem not_special_of_isDigit {c : Char} (digit : c.isDigit) :
    c ∉ ['\x00', ' ', '\t', '\n', '\x0b', '\x0c', '\r', '-', '+', ':', ','] := by
  have special : ∀ c ∈ ['\x00', ' ', '\t', '\n', '\x0b', '\x0c', '\r', '-', '+', ':', ','], ¬c.isDigit := by simp
  exact fun known => special c known digit

theorem isSpace_of_isDigit {c : Char} (digit : c.isDigit) : isSpace c = false := by
  have ordinary := not_special_of_isDigit digit
  simp only [List.mem_cons, List.not_mem_nil, or_false, not_or] at ordinary
  simp [isSpace, ordinary]

theorem not_isSpace_of_mem {c : Char} (visible : isSpace c = false) {blanks : Text} (skipped : ∀ c ∈ blanks, isSpace c) :
    c ∉ blanks := by
  intro member
  rw [skipped c member] at visible
  cases visible

namespace Decimal

variable {s : Text} {n : Nat}

theorem not_mem (decimal : Decimal s n) {c : Char} (other : ¬c.isDigit) : c ∉ s :=
  fun member => other (decimal.2.1 c member)

theorem head?_ne (decimal : Decimal s n) {c : Char} (other : ¬c.isDigit) : s.head? ≠ some c :=
  fun first => decimal.not_mem other (List.mem_of_mem_head? first)

theorem dropWhile_isSpace (decimal : Decimal s n) : s.dropWhile isSpace = s := by
  obtain ⟨first, rest, rfl⟩ := List.exists_cons_of_ne_nil decimal.1
  exact List.dropWhile_cons_of_neg (by simp [isSpace_of_isDigit (decimal.2.1 first List.mem_cons_self)])

end Decimal

theorem Numeral.not_mem {s : Text} {n : Int} (numeral : Numeral s n) {c : Char} (visible : isSpace c = false)
    (other : ¬c.isDigit) (plus : c ≠ '+') (minus : c ≠ '-') : c ∉ s := by
  cases numeral with
  | plain skipped decimal => simp [not_isSpace_of_mem visible skipped, decimal.not_mem other]
  | plus skipped decimal => simp [not_isSpace_of_mem visible skipped, decimal.not_mem other, plus]
  | minus skipped decimal => simp [not_isSpace_of_mem visible skipped, decimal.not_mem other, minus]

theorem cString_eq_self {s : Text} (free : '\x00' ∉ s) : cString s = s := by
  rw [cString, List.takeWhile_eq_self_iff]
  intro c member
  simpa using ne_of_mem_of_not_mem member free

/-! ### What `strtoul` gives -/

theorem ofInt_natCast (n : Nat) : UInt64.ofInt n = .ofNat n := by
  have same : ((n : Int) % 2 ^ 64).toNat = n % 2 ^ 64 := by omega
  rw [UInt64.ofInt, same]
  exact UInt64.ofNat_mod_size

theorem ulong_natCast (n : Nat) : ulong n = .ofNat (min n ulongMax) := by
  unfold ulong
  rw [Int.natAbs_natCast]
  split
  · rename_i large
    rw [Nat.min_eq_right (Nat.le_of_lt large)]
  · rename_i small
    rw [Nat.min_eq_left (Nat.le_of_not_lt small), ofInt_natCast]

theorem toNat_ulong_natCast {n : Nat} (fits : n ≤ ulongMax) : (ulong n).toNat = n := by
  have wide : ulongMax + 1 = UInt64.size := rfl
  rw [ulong_natCast, Nat.min_eq_left fits, UInt64.toNat_ofNat_of_lt' (by omega)]

theorem ulong_toNat_pos {n : Int} (nonzero : n ≠ 0) : 0 < (ulong n).toNat := by
  unfold ulong
  split
  · decide
  · rename_i small
    unfold ulongMax at small
    rw [UInt64.ofInt, UInt64.toNat_ofNat']
    omega

/-- The reading after the blanks: a sign, digits, and what stops them. -/
theorem strtoul_eq {s body digits rest : Text} (skip : (cString s).dropWhile isSpace = body)
    (unsigned : (if body.head? = some '-' ∨ body.head? = some '+' then body.tail else body) = digits ++ rest)
    (filled : digits ≠ []) (all : ∀ c ∈ digits, c.isDigit) (stop : ∀ c ∈ rest.head?, ¬c.isDigit) :
    strtoul s =
      (ulong (if body.head? = some '-' then -(Nat.ofDigitChars 10 digits 0 : Int) else Nat.ofDigitChars 10 digits 0),
        rest) := by
  have taken : (digits ++ rest).takeWhile Char.isDigit = digits := by
    rw [List.takeWhile_append_of_pos all]
    cases rest with
    | nil => simp
    | cons c rest => rw [List.takeWhile_cons_of_neg (by simpa using stop c rfl), List.append_nil]
  have dropped : (digits ++ rest).dropWhile Char.isDigit = rest := by
    rw [List.dropWhile_append_of_pos all]
    cases rest with
    | nil => rfl
    | cons c rest => exact List.dropWhile_cons_of_neg (by simpa using stop c rfl)
  rw [cString] at skip
  unfold strtoul ulong
  dsimp only
  rw [skip, unsigned, taken, dropped, if_neg filled]
  by_cases minus : body.head? = some '-'
  · simp only [minus, if_true, Int.natAbs_neg, Int.natAbs_natCast, UInt64.ofInt_neg, ofInt_natCast]
  · simp only [minus, if_false, Int.natAbs_natCast, ofInt_natCast]

theorem strtoul_numeral {s : Text} {n : Int} (numeral : Numeral (cString s) n) : strtoul s = (ulong n, []) := by
  generalize seen : cString s = whole at numeral
  have noSign : ¬Char.isDigit '-' ∧ ¬Char.isDigit '+' := by decide
  have nothing : ∀ c ∈ ([] : Text).head?, ¬c.isDigit := by simp
  cases numeral with
  | @plain blanks digits n skipped decimal =>
    have skip : (cString s).dropWhile isSpace = digits := by
      rw [seen, List.dropWhile_append_of_pos skipped, decimal.dropWhile_isSpace]
    have minus := decimal.head?_ne noSign.1
    have sign : (if digits.head? = some '-' ∨ digits.head? = some '+' then digits.tail else digits) = digits ++ [] := by
      simp [minus, decimal.head?_ne noSign.2]
    rw [strtoul_eq skip sign decimal.1 decimal.2.1 nothing, if_neg minus, decimal.2.2]
  | @plus blanks digits n skipped decimal =>
    have skip : (cString s).dropWhile isSpace = '+' :: digits := by
      rw [seen, List.dropWhile_append_of_pos skipped]
      rfl
    rw [strtoul_eq skip (List.append_nil digits).symm decimal.1 decimal.2.1 nothing, decimal.2.2]
    rfl
  | @minus blanks digits n skipped decimal =>
    have skip : (cString s).dropWhile isSpace = '-' :: digits := by
      rw [seen, List.dropWhile_append_of_pos skipped]
      rfl
    rw [strtoul_eq skip (List.append_nil digits).symm decimal.1 decimal.2.1 nothing, decimal.2.2]
    rfl

theorem strtoul_of_cString_eq_nil {s : Text} (empty : cString s = []) : strtoul s = (0, []) := by
  rw [cString] at empty
  unfold strtoul
  rw [empty]
  rfl

theorem numeral_of_strtoul {s : Text} (read : (strtoul s).2 = []) (filled : cString s ≠ []) :
    ∃ n, Numeral (cString s) n := by
  obtain ⟨body, skip⟩ : ∃ body, (cString s).dropWhile isSpace = body := ⟨_, rfl⟩
  obtain ⟨unsigned, sign⟩ :
    ∃ unsigned, (if body.head? = some '-' ∨ body.head? = some '+' then body.tail else body) = unsigned := ⟨_, rfl⟩
  have whole : cString s = (cString s).takeWhile isSpace ++ body := by
    rw [← skip, List.takeWhile_append_dropWhile]
  have skipped : ∀ c ∈ (cString s).takeWhile isSpace, isSpace c := fun c member => List.mem_takeWhile_imp member
  have some : unsigned.takeWhile Char.isDigit ≠ [] := by
    intro none
    rw [cString] at skip filled
    unfold strtoul at read
    dsimp only at read
    rw [skip, sign, if_pos none] at read
    exact filled read
  have digits : ∀ c ∈ unsigned.takeWhile Char.isDigit, c.isDigit := fun c member => List.mem_takeWhile_imp member
  have all : ∀ c ∈ unsigned, c.isDigit := by
    have stop : ∀ c ∈ (unsigned.dropWhile Char.isDigit).head?, ¬c.isDigit := by
      intro c first
      have ends := List.head?_dropWhile_not Char.isDigit unsigned
      rw [first] at ends
      simpa using ends
    have rest := congrArg Prod.snd
      (strtoul_eq skip (sign.trans List.takeWhile_append_dropWhile.symm) some digits stop)
    rw [read] at rest
    rwa [← List.dropWhile_eq_nil_iff, eq_comm]
  have nonempty : unsigned ≠ [] := by
    rintro rfl
    exact some rfl
  have decimal : Decimal unsigned (Nat.ofDigitChars 10 unsigned 0) := ⟨nonempty, all, rfl⟩
  rw [whole]
  cases body with
  | nil => exact ⟨_, .plain skipped (sign ▸ decimal)⟩
  | cons c rest =>
    by_cases minus : c = '-'
    · subst minus
      exact ⟨_, .minus skipped (sign ▸ decimal)⟩
    by_cases plus : c = '+'
    · subst plus
      exact ⟨_, .plus skipped (sign ▸ decimal)⟩
    · have plain : c :: rest = unsigned := by simpa [minus, plus] using sign
      rw [plain]
      exact ⟨_, .plain skipped decimal⟩

/-- `strtoul` reads a string to its end exactly when what C sees of it is empty or a numeral. -/
theorem strtoul_rest_eq_nil_iff (s : Text) : (strtoul s).2 = [] ↔ cString s = [] ∨ ∃ n, Numeral (cString s) n := by
  constructor
  · intro read
    by_cases empty : cString s = []
    · exact .inl empty
    · exact .inr (numeral_of_strtoul read empty)
  · rintro (empty | ⟨n, numeral⟩)
    · rw [strtoul_of_cString_eq_nil empty]
    · rw [strtoul_numeral numeral]

/-- A string of digits is read to its end, up to the largest `unsigned long`. -/
theorem strtoul_decimal {s : Text} {n : Nat} (decimal : Decimal s n) : strtoul s = (.ofNat (min n ulongMax), []) := by
  have seen : cString s = s := cString_eq_self (decimal.not_mem (by decide))
  have read := strtoul_numeral (s := s) (seen.symm ▸ decimal.numeral)
  rw [read, ulong_natCast]

end Omniprobe.Lib
