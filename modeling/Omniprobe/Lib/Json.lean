import Omniprobe.Lib.Scan

/-!
# JSON texts

The texts of JSON arrays and objects, as relations between a text and the texts of its elements, and
string literals with what they stand for. White space may stand between any two tokens. Texts are in
UTF-8.
-/

namespace Omniprobe.Lib.Json

def isSpace (c : Char) : Bool := c == ' ' || c == '\t' || c == '\n' || c == '\r'

def Spaces (s : Text) : Prop := ∀ c ∈ s, isSpace c = true

/-- A JSON array whose elements have the given texts. -/
inductive ArrayText : List Text → Text → Prop where
  | empty {inner : Text} (spaces : Spaces inner) : ArrayText [] ('[' :: (inner ++ [']']))
  | items {list : List Text} {before text after : Text} (leading : Spaces before)
      (joined : Joined isSpace ',' list text) (trailing : Spaces after) :
      ArrayText list ('[' :: (before ++ text ++ after ++ [']']))

/-- A text that is one array, with white space around it. -/
def Document (list : List Text) (text : Text) : Prop :=
  ∃ before inner after, text = before ++ inner ++ after ∧ Spaces before ∧ ArrayText list inner ∧ Spaces after

theorem Document.head {list : List Text} {c : Char} {rest : Text} (document : Document list (c :: rest))
    (visible : isSpace c = false) : c = '[' := by
  obtain ⟨before, inner, after, split, leading, array, -⟩ := document
  cases before with
  | cons d before =>
    obtain ⟨rfl, -⟩ := List.cons.inj split
    exact absurd (leading c List.mem_cons_self) (by simp [visible])
  | nil =>
    obtain ⟨tail, rfl⟩ : ∃ tail, inner = '[' :: tail := by
      cases array with
      | empty => exact ⟨_, rfl⟩
      | items => exact ⟨_, rfl⟩
    exact (List.cons.inj split).1

/-! ### Objects -/

/-- The items of an array or an object, between its brackets. -/
def Body (list : List Text) (body : Text) : Prop :=
  list = [] ∧ Spaces body ∨
  ∃ before text behind, body = before ++ text ++ behind ∧ Spaces before ∧ Joined isSpace ',' list text ∧ Spaces behind

theorem ArrayText.body {list : List Text} {text : Text} (array : ArrayText list text) :
    ∃ body, text = '[' :: (body ++ [']']) ∧ Body list body := by
  cases array with
  | empty spaces => exact ⟨_, rfl, Or.inl ⟨rfl, spaces⟩⟩
  | items leading joined trailing => exact ⟨_, rfl, Or.inr ⟨_, _, _, rfl, leading, joined, trailing⟩⟩

/-- A text that is one object whose members have the given texts, with white space around it. -/
def ObjectDocument (members : List Text) (text : Text) : Prop :=
  ∃ before body behind, text = before ++ '\x7b' :: (body ++ '\x7d' :: behind) ∧ Spaces before ∧ Body members body ∧
    Spaces behind

/-! ### String literals -/

inductive Escape where
  | quote | backslash | slash | backspace | formFeed | newline | carriageReturn | tab
  deriving DecidableEq, Repr

/-- The character after the backslash. -/
def Escape.letter : Escape → Char
  | quote => '"'
  | backslash => '\\'
  | slash => '/'
  | backspace => 'b'
  | formFeed => 'f'
  | newline => 'n'
  | carriageReturn => 'r'
  | tab => 't'

def Escape.value : Escape → Char
  | quote => '"'
  | backslash => '\\'
  | slash => '/'
  | backspace => Char.ofNat 8
  | formFeed => Char.ofNat 12
  | newline => '\n'
  | carriageReturn => '\r'
  | tab => '\t'

def hexValue? (c : Char) : Option Nat :=
  if '0' ≤ c ∧ c ≤ '9' then some (c.toNat - '0'.toNat)
  else if 'a' ≤ c ∧ c ≤ 'f' then some (c.toNat - 'a'.toNat + 10)
  else if 'A' ≤ c ∧ c ≤ 'F' then some (c.toNat - 'A'.toNat + 10)
  else none

structure HexDigit where
  char : Char
  valid : (hexValue? char).isSome = true
  deriving DecidableEq, Repr

def HexDigit.value (digit : HexDigit) : Nat := (hexValue? digit.char).getD 0

/-- The digits of a `\u` escape. -/
structure CodeUnit where
  first : HexDigit
  second : HexDigit
  third : HexDigit
  fourth : HexDigit
  deriving DecidableEq, Repr

namespace CodeUnit

def value (unit : CodeUnit) : Nat :=
  ((unit.first.value * 16 + unit.second.value) * 16 + unit.third.value) * 16 + unit.fourth.value

def digits (unit : CodeUnit) : Text := [unit.first.char, unit.second.char, unit.third.char, unit.fourth.char]

def isHigh (unit : CodeUnit) : Bool := 0xd800 ≤ unit.value && unit.value < 0xdc00

def isLow (unit : CodeUnit) : Bool := 0xdc00 ≤ unit.value && unit.value < 0xe000

end CodeUnit

/-- What stands between the quotes of a literal. Half of a surrogate pair is no character. -/
inductive Piece where
  | plain (c : Char) (valid : c ≠ '"' ∧ c ≠ '\\' ∧ 0x20 ≤ c.toNat)
  | escape (code : Escape)
  | unicode (unit : CodeUnit) (valid : unit.isHigh = false ∧ unit.isLow = false)
  | pair (high low : CodeUnit) (valid : high.isHigh = true ∧ low.isLow = true)
  deriving DecidableEq, Repr

def utf8 (codePoint : Nat) : Text :=
  (String.utf8EncodeChar (Char.ofNat codePoint)).map fun byte => Char.ofNat byte.toNat

def Piece.text : Piece → Text
  | plain c _ => [c]
  | escape code => ['\\', code.letter]
  | unicode unit _ => '\\' :: 'u' :: unit.digits
  | pair high low _ => '\\' :: 'u' :: (high.digits ++ '\\' :: 'u' :: low.digits)

def Piece.value : Piece → Text
  | plain c _ => [c]
  | escape code => [code.value]
  | unicode unit _ => utf8 unit.value
  | pair high low _ => utf8 (0x10000 + (high.value - 0xd800) * 0x400 + (low.value - 0xdc00))

/-- The string that a literal stands for. -/
def decode (pieces : List Piece) : Text := pieces.flatMap Piece.value

/-- The text between the quotes. -/
def innerText (pieces : List Piece) : Text := pieces.flatMap Piece.text

def literal (pieces : List Piece) : Text := Text.delimited '"' (innerText pieces)

theorem innerText_cons (piece : Piece) (rest : List Piece) : innerText (piece :: rest) = piece.text ++ innerText rest :=
  List.flatMap_cons

theorem decode_cons (piece : Piece) (rest : List Piece) : decode (piece :: rest) = piece.value ++ decode rest :=
  List.flatMap_cons

theorem utf8_length (codePoint : Nat) : (utf8 codePoint).length ≤ 4 := by
  rw [utf8]
  generalize Char.ofNat codePoint = c
  rw [List.length_map, String.length_utf8EncodeChar]
  exact c.utf8Size_le_four

theorem decode_of_plain {pieces : List Piece} (plain : '\\' ∉ innerText pieces) : decode pieces = innerText pieces := by
  induction pieces with
  | nil => rfl
  | cons piece rest ih =>
    rw [innerText_cons, List.mem_append, not_or] at plain
    rw [decode_cons, innerText_cons, ih plain.2]
    cases piece with
    | plain c valid => rfl
    | escape code => exact absurd List.mem_cons_self plain.1
    | unicode unit valid => exact absurd List.mem_cons_self plain.1
    | pair high low valid => exact absurd List.mem_cons_self plain.1

theorem not_mem_digits {c : Char} (invalid : hexValue? c = none) (unit : CodeUnit) : c ∉ unit.digits := by
  have digit : ∀ digit : HexDigit, c ≠ digit.char := by
    intro digit same
    have valid := digit.valid
    rw [← same, invalid] at valid
    cases valid
  simp [CodeUnit.digits, digit]

/-- A quote inside a literal is an escaped one. -/
theorem quote_mem_innerText {pieces : List Piece} (member : '"' ∈ innerText pieces) : '"' ∈ decode pieces := by
  obtain ⟨piece, present, inside⟩ := List.mem_flatMap.mp member
  refine List.mem_flatMap.mpr ⟨piece, present, ?_⟩
  have digits := not_mem_digits (c := '"') rfl
  cases piece with
  | plain c valid => exact inside
  | escape code => cases code <;> first | exact List.mem_cons_self | exact absurd inside (by decide)
  | unicode unit valid => simp [Piece.text, digits] at inside
  | pair high low valid => simp [Piece.text, digits] at inside

end Omniprobe.Lib.Json
