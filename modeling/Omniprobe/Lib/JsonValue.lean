import Omniprobe.Lib.Json

/-!
# JSON values

The texts that denote a JSON value, and which texts may stand between the quotes of a literal.
-/

namespace Omniprobe.Lib.Json

/-- JSON values; numbers are natural numbers. -/
inductive Value where
  | string (s : Text)
  | number (n : Nat)
  | array (items : List Value)
  | object (members : List (Text × Value))

def isPlain (c : Char) : Bool := c != '"' && c != '\\' && ' ' ≤ c

/-- A text that stands for itself between quotes. -/
def Plain (s : Text) : Prop := ∀ c ∈ s, c ≠ '"' ∧ c ≠ '\\' ∧ ¬c.toNat < 0x20

theorem all_isPlain_iff (s : Text) : s.all isPlain = true ↔ Plain s := by
  have visible (c : Char) : ' ' ≤ c ↔ 0x20 ≤ c.toNat := Iff.rfl
  simp [isPlain, Plain, and_assoc, visible]

instance (s : Text) : Decidable (Plain s) := decidable_of_iff _ (all_isPlain_iff s)

theorem plain_append_iff {s t : Text} : Plain (s ++ t) ↔ Plain s ∧ Plain t := List.forall_mem_append

theorem plain_of_forall_isDigit {s : Text} (digits : ∀ c ∈ s, c.isDigit) : Plain s := by
  intro c member
  have low := (Char.isDigit_iff_toNat.mp (digits c member)).1
  have zero : '0'.toNat = 48 := rfl
  refine ⟨?_, ?_, by omega⟩
  · rintro rfl
    exact absurd (digits _ member) (by decide)
  · rintro rfl
    exact absurd (digits _ member) (by decide)

theorem plain_toDigits (n : Nat) : Plain (Nat.toDigits 10 n) :=
  plain_of_forall_isDigit fun _ member => isDigit_of_mem_toDigits member

namespace Value

/-! ### The texts of a value -/

mutual

def Denotes : Value → Text → Prop
  | .string s, text => ∃ pieces, decode pieces = s ∧ text = literal pieces
  | .number n, text => text = Nat.toDigits 10 n
  | .array items, text => ∃ texts body, DenotesItems items texts ∧ Body texts body ∧ text = '[' :: (body ++ [']'])
  | .object members, text =>
    ∃ texts body, DenotesMembers members texts ∧ Body texts body ∧ text = '\x7b' :: (body ++ ['\x7d'])

def DenotesItems : List Value → List Text → Prop
  | [], texts => texts = []
  | item :: rest, texts => ∃ text later, texts = text :: later ∧ Denotes item text ∧ DenotesItems rest later

def DenotesMembers : List (Text × Value) → List Text → Prop
  | [], texts => texts = []
  | (key, value) :: rest, texts =>
    ∃ pieces before behind text later, texts = (literal pieces ++ (before ++ ':' :: (behind ++ text))) :: later ∧
      decode pieces = key ∧ Spaces before ∧ Spaces behind ∧ Denotes value text ∧ DenotesMembers rest later

end

/-! ### Strings and shapes -/

mutual

/-- The keys and strings of a value, in the order of its text. -/
def strings : Value → List Text
  | .string s => [s]
  | .number _ => []
  | .array items => stringsItems items
  | .object members => stringsMembers members

def stringsItems : List Value → List Text
  | [] => []
  | item :: rest => strings item ++ stringsItems rest

def stringsMembers : List (Text × Value) → List Text
  | [] => []
  | (key, value) :: rest => key :: (strings value ++ stringsMembers rest)

end

mutual

/-- A value without its keys and strings. -/
def shape : Value → Value
  | .string _ => .string []
  | .number n => .number n
  | .array items => .array (shapeItems items)
  | .object members => .object (shapeMembers members)

def shapeItems : List Value → List Value
  | [] => []
  | item :: rest => shape item :: shapeItems rest

def shapeMembers : List (Text × Value) → List (Text × Value)
  | [] => []
  | (_, value) :: rest => ([], shape value) :: shapeMembers rest

end

mutual

/-- No key needs an escape. -/
def PlainKeys : Value → Prop
  | .string _ => True
  | .number _ => True
  | .array items => PlainKeysItems items
  | .object members => PlainKeysMembers members

def PlainKeysItems : List Value → Prop
  | [] => True
  | item :: rest => PlainKeys item ∧ PlainKeysItems rest

def PlainKeysMembers : List (Text × Value) → Prop
  | [] => True
  | (key, value) :: rest => Plain key ∧ PlainKeys value ∧ PlainKeysMembers rest

end

end Value

/-! ### The insides of literals -/

/-- A text as it may stand between the quotes of a literal that stands for the string. -/
def Inner (text string : Text) : Prop := ∃ pieces, text = innerText pieces ∧ decode pieces = string

theorem Piece.value_shorter (piece : Piece) :
    piece.value.length < piece.text.length ∨ ∃ c, piece.value = [c] ∧ piece.text = [c] ∧ Plain [c] := by
  have digits (unit : CodeUnit) : unit.digits.length = 4 := rfl
  cases piece with
  | plain c valid => exact .inr ⟨c, rfl, rfl, List.forall_mem_singleton.mpr ⟨valid.1, valid.2.1, Nat.not_lt.mpr valid.2.2⟩⟩
  | escape code =>
    refine .inl ?_
    simp [Piece.value, Piece.text]
  | unicode unit valid =>
    have short := utf8_length unit.value
    refine .inl ?_
    simp only [Piece.value, Piece.text, List.length_cons, digits]
    omega
  | pair high low valid =>
    have short := utf8_length (0x10000 + (high.value - 0xd800) * 0x400 + (low.value - 0xdc00))
    refine .inl ?_
    simp only [Piece.value, Piece.text, List.length_cons, List.length_append, digits]
    omega

theorem decode_shorter (pieces : List Piece) :
    (decode pieces).length < (innerText pieces).length ∨ Plain (innerText pieces) := by
  induction pieces with
  | nil => exact .inr (List.forall_mem_nil _)
  | cons piece rest ih =>
    rw [decode_cons, innerText_cons, List.length_append, List.length_append]
    have later : (decode rest).length ≤ (innerText rest).length := by
      rcases ih with shorter | plain
      · exact Nat.le_of_lt shorter
      · have same := decode_of_plain fun member => (plain _ member).2.1 rfl
        rw [same]
    rcases piece.value_shorter with shorter | ⟨c, value, text, visible⟩
    · exact .inl (by omega)
    · rw [value, text]
      rcases ih with shorter | plain
      · exact .inl (by simpa using shorter)
      · exact .inr (List.forall_mem_append.mpr ⟨visible, plain⟩)

theorem exists_plain_pieces {s : Text} (plain : Plain s) : ∃ pieces, s = innerText pieces ∧ decode pieces = s := by
  induction s with
  | nil => exact ⟨[], rfl, rfl⟩
  | cons c rest ih =>
    obtain ⟨⟨quote, backslash, visible⟩, later⟩ := List.forall_mem_cons.mp plain
    obtain ⟨pieces, text, value⟩ := ih later
    refine ⟨.plain c ⟨quote, backslash, Nat.not_lt.mp visible⟩ :: pieces, ?_, ?_⟩
    · rw [innerText_cons, ← text]
      rfl
    · rw [decode_cons, value]
      rfl

/-- A text stands for itself exactly when it has no quote, backslash or control character. -/
theorem inner_self_iff {s : Text} : Inner s s ↔ Plain s := by
  constructor
  · rintro ⟨pieces, text, value⟩
    rcases decode_shorter pieces with shorter | plain
    · rw [value, ← text] at shorter
      exact absurd shorter (Nat.lt_irrefl _)
    · rwa [← text] at plain
  · exact exists_plain_pieces

theorem visible_of_hexValue {c : Char} (valid : (hexValue? c).isSome) : c ≠ '"' ∧ c ≠ '\\' ∧ ¬c.toNat < 0x20 := by
  refine ⟨?_, ?_, fun control => ?_⟩
  · rintro rfl
    cases valid
  · rintro rfl
    cases valid
  · have below (d : Char) (digit : 0x20 ≤ d.toNat) : ¬d ≤ c := by
      intro above
      have order : d.toNat ≤ c.toNat := above
      omega
    simp [hexValue?, below] at valid

theorem plain_digits (unit : CodeUnit) : Plain unit.digits := by
  simp only [Plain, CodeUnit.digits, List.forall_mem_cons, List.not_mem_nil, false_imp_iff, implies_true, and_true]
  exact ⟨visible_of_hexValue unit.first.valid, visible_of_hexValue unit.second.valid,
    visible_of_hexValue unit.third.valid, visible_of_hexValue unit.fourth.valid⟩

theorem Piece.visible (piece : Piece) : ∀ c ∈ piece.text, ¬c.toNat < 0x20 := by
  have digits (unit : CodeUnit) : ∀ c ∈ unit.digits, ¬c.toNat < 0x20 := fun c member => (plain_digits unit c member).2.2
  have special : ¬ '\\'.toNat < 0x20 ∧ ¬ 'u'.toNat < 0x20 := by decide
  cases piece with
  | plain c valid => exact List.forall_mem_singleton.mpr (Nat.not_lt.mpr valid.2.2)
  | escape code =>
    have letter : ¬code.letter.toNat < 0x20 := by cases code <;> decide
    exact List.forall_mem_cons.mpr ⟨special.1, List.forall_mem_singleton.mpr letter⟩
  | unicode unit valid =>
    simp only [Piece.text, List.forall_mem_cons]
    exact ⟨special.1, special.2, digits unit⟩
  | pair high low valid =>
    simp only [Piece.text, List.forall_mem_cons, List.forall_mem_append]
    exact ⟨special.1, special.2, digits high, special.1, special.2, digits low⟩

theorem Inner.visible {text string : Text} (inner : Inner text string) : ∀ c ∈ text, ¬c.toNat < 0x20 := by
  obtain ⟨pieces, rfl, -⟩ := inner
  intro c member
  obtain ⟨piece, -, inside⟩ := List.mem_flatMap.mp member
  exact piece.visible c inside

end Omniprobe.Lib.Json
