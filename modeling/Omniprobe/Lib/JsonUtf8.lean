import Omniprobe.Lib.JsonLine
import Omniprobe.Lib.JsonPrint

/-!
# JSON in UTF-8

A text in JSON has to be UTF-8. Printers that put strings between quotes as they are print UTF-8 exactly
when the strings are.
-/

namespace Omniprobe.Lib.Json

/-! ### Characters as bytes -/

/-- The bytes of characters. -/
def Utf8 (text : Text) : Prop := ∃ chars : List Char, text = chars.flatMap fun c => utf8 c.toNat

theorem utf8_eq (c : Char) : utf8 c.toNat = (String.utf8EncodeChar c).map fun byte => Char.ofNat byte.toNat := by
  rw [utf8, Char.ofNat_toNat]

theorem utf8_of_ascii {c : Char} (ascii : c.toNat < 128) : utf8 c.toNat = [c] := by
  have small : c.val.toNat ≤ 0x7f := Nat.le_of_lt_succ ascii
  have size : (String.utf8EncodeChar c) = [UInt8.ofNat c.val.toNat] := if_pos small
  rw [utf8_eq, size, List.map_singleton, UInt8.toNat_ofNat', Nat.mod_eq_of_lt (by omega)]
  exact congrArg (fun c => [c]) (Char.ofNat_toNat c)

/-- A byte of a longer character is no character by itself. -/
theorem utf8_not_ascii {c : Char} (long : ¬c.toNat < 128) : ∀ b ∈ utf8 c.toNat, ¬b.toNat < 128 := by
  have bytes : ∀ byte ∈ String.utf8EncodeChar c, 128 ≤ byte.toNat := by
    have large : ¬c.val.toNat ≤ 0x7f := fun small => long (Nat.lt_succ_of_le small)
    unfold String.utf8EncodeChar
    dsimp only
    rw [if_neg large]
    split
    · simp
      omega
    split
    · simp
      omega
    · simp
      omega
  intro b member
  rw [utf8_eq] at member
  obtain ⟨byte, inside, rfl⟩ := List.mem_map.mp member
  have small := byte.toNat_lt
  have valid : byte.toNat.isValidChar := .inl (by omega)
  rw [Char.toNat_ofNat, if_pos valid]
  exact Nat.not_lt.mpr (bytes byte inside)

theorem Utf8.append {s t : Text} (first : Utf8 s) (second : Utf8 t) : Utf8 (s ++ t) := by
  obtain ⟨chars, rfl⟩ := first
  obtain ⟨others, rfl⟩ := second
  exact ⟨chars ++ others, List.flatMap_append.symm⟩

theorem utf8_singleton {c : Char} (ascii : c.toNat < 128) : Utf8 [c] :=
  ⟨[c], by rw [List.flatMap_singleton, utf8_of_ascii ascii]⟩

/-- A text can be divided at an ASCII character. -/
theorem utf8_append_cons_iff {c : Char} (ascii : c.toNat < 128) (s t : Text) : Utf8 (s ++ c :: t) ↔ Utf8 s ∧ Utf8 t := by
  constructor
  · rintro ⟨chars, split⟩
    induction chars generalizing s with
    | nil => simp at split
    | cons d rest ih =>
      rw [List.flatMap_cons] at split
      obtain ⟨inside, whole, later⟩ | ⟨before, rfl, later⟩ := List.append_eq_append_iff.mp split
      · cases inside with
        | nil =>
          rw [List.append_nil] at whole
          rw [List.nil_append] at later
          obtain ⟨-, second⟩ := ih [] later
          exact ⟨⟨[d], by rw [List.flatMap_singleton, whole]⟩, second⟩
        | cons e inside =>
          obtain ⟨rfl, rest'⟩ := List.cons.inj later
          -- The character is one of the bytes of `d`, so it is all of them.
          by_cases small : d.toNat < 128
          · rw [utf8_of_ascii small] at whole
            obtain ⟨rfl, none⟩ := List.append_eq_singleton_iff.mp whole.symm |>.resolve_right (by simp)
            obtain rfl := (List.cons.inj none).2
            exact ⟨⟨[], rfl⟩, ⟨rest, rest'⟩⟩
          · have member : c ∈ utf8 d.toNat := by simp [whole]
            exact absurd ascii (utf8_not_ascii small c member)
      · obtain ⟨first, second⟩ := ih before later.symm
        have here : Utf8 (utf8 d.toNat) := ⟨[d], by rw [List.flatMap_singleton]⟩
        exact ⟨here.append first, second⟩
  · rintro ⟨first, second⟩
    exact first.append ((utf8_singleton ascii).append second)

theorem utf8_nil : Utf8 [] := ⟨[], rfl⟩

theorem utf8_cons_iff {c : Char} (ascii : c.toNat < 128) (t : Text) : Utf8 (c :: t) ↔ Utf8 t := by
  have divided := utf8_append_cons_iff ascii [] t
  rwa [List.nil_append, and_iff_right utf8_nil] at divided

theorem utf8_concat_iff {c : Char} (ascii : c.toNat < 128) (s : Text) : Utf8 (s ++ [c]) ↔ Utf8 s := by
  rw [utf8_append_cons_iff ascii, and_iff_left utf8_nil]

theorem utf8_ascii_append_iff {s : Text} (ascii : ∀ c ∈ s, c.toNat < 128) (t : Text) : Utf8 (s ++ t) ↔ Utf8 t := by
  induction s with
  | nil => rfl
  | cons c rest ih =>
    obtain ⟨here, later⟩ := List.forall_mem_cons.mp ascii
    rw [List.cons_append, utf8_cons_iff here, ih later]

theorem utf8_ascii {s : Text} (ascii : ∀ c ∈ s, c.toNat < 128) : Utf8 s := by
  rw [← List.append_nil s, utf8_ascii_append_iff ascii]
  exact utf8_nil

theorem utf8_append_ascii_iff (s : Text) {t : Text} (ascii : ∀ c ∈ t, c.toNat < 128) : Utf8 (s ++ t) ↔ Utf8 s := by
  cases t with
  | nil => rw [List.append_nil]
  | cons c rest =>
    obtain ⟨here, later⟩ := List.forall_mem_cons.mp ascii
    rw [utf8_append_cons_iff here, and_iff_left (utf8_ascii later)]

theorem utf8_delimited_iff (s : Text) : Utf8 (Text.delimited '"' s) ↔ Utf8 s := by
  rw [Text.delimited, utf8_cons_iff (by decide), utf8_concat_iff (by decide)]

theorem utf8_member_iff (key text : Text) : Utf8 (Text.delimited '"' key ++ ':' :: ' ' :: text) ↔ Utf8 key ∧ Utf8 text := by
  rw [utf8_append_cons_iff (by decide), utf8_delimited_iff, utf8_cons_iff (by decide)]

theorem utf8_intercalate_iff (texts : List Text) : Utf8 ([','].intercalate texts) ↔ ∀ text ∈ texts, Utf8 text := by
  induction texts with
  | nil => exact iff_of_true utf8_nil (List.forall_mem_nil _)
  | cons text rest ih =>
    cases rest with
    | nil => rw [List.intercalate_singleton, List.forall_mem_singleton]
    | cons next rest =>
      rw [List.intercalate_cons_cons, List.append_assoc, List.singleton_append, utf8_append_cons_iff (by decide),
        List.forall_mem_cons]
      exact and_congr_right' ih

/-- Characters of one byte that stand for themselves in a literal. -/
def Simple (s : Text) : Prop := ∀ c ∈ s, (c ≠ '"' ∧ c ≠ '\\' ∧ ¬c.toNat < 0x20) ∧ c.toNat < 128

instance (s : Text) : Decidable (Simple s) := List.decidableBAll _ s

theorem simple_append {s t : Text} (first : Simple s) (second : Simple t) : Simple (s ++ t) :=
  List.forall_mem_append.mpr ⟨first, second⟩

theorem simple_of_forall_isDigit {s : Text} (digits : ∀ c ∈ s, c.isDigit) : Simple s := by
  intro c member
  obtain ⟨-, atMost⟩ := Char.isDigit_iff_toNat.mp (digits c member)
  exact ⟨plain_of_forall_isDigit digits c member, Nat.lt_of_le_of_lt atMost (by decide)⟩

theorem Simple.plain {s : Text} (simple : Simple s) : Plain s := fun c member => (simple c member).1

theorem Simple.utf8 {s : Text} (simple : Simple s) : Utf8 s := utf8_ascii fun c member => (simple c member).2

theorem simple_toDigits (n : Nat) : Simple (Nat.toDigits 10 n) :=
  simple_of_forall_isDigit fun _ member => isDigit_of_mem_toDigits member

namespace Value

theorem ascii_indentation (indent : Nat) : ∀ c ∈ indentation indent, c.toNat < 128 := by
  intro c member
  rw [List.eq_of_mem_replicate member]
  decide

theorem utf8_lines_iff (indent : Nat) (texts : List Text) : Utf8 (lines indent texts) ↔ ∀ text ∈ texts, Utf8 text := by
  have blanks := ascii_indentation indent
  induction texts with
  | nil => exact iff_of_true (utf8_singleton (by decide)) (List.forall_mem_nil _)
  | cons text rest ih =>
    cases rest with
    | nil => rw [lines, utf8_concat_iff (by decide), utf8_ascii_append_iff blanks, List.forall_mem_singleton]
    | cons next rest =>
      rw [lines, List.append_assoc, utf8_ascii_append_iff blanks, utf8_append_cons_iff (by decide),
        utf8_cons_iff (by decide), List.forall_mem_cons]
      · exact and_congr_right' ih
      · exact List.cons_ne_nil _ _

theorem utf8_bracketed_iff {opening closing : Char} (indent : Nat) (texts : List Text) (first : opening.toNat < 128)
    (last : closing.toNat < 128) :
    Utf8 (opening :: '\n' :: (lines (indent + 2) texts ++ indentation indent ++ [closing])) ↔
      ∀ text ∈ texts, Utf8 text := by
  rw [utf8_cons_iff first, utf8_cons_iff (by decide), utf8_concat_iff last,
    utf8_append_ascii_iff _ (ascii_indentation indent), utf8_lines_iff]

/-! ### The printers -/

mutual

theorem utf8_compact_iff : ∀ tree : Value, Utf8 tree.compact ↔ ∀ s ∈ tree.strings, Utf8 s
  | .string s => by rw [compact, strings, utf8_delimited_iff, List.forall_mem_singleton]
  | .number n => iff_of_true (simple_toDigits n).utf8 (List.forall_mem_nil _)
  | .array items => by
    rw [compact, strings, utf8_cons_iff (by decide), utf8_concat_iff (by decide), utf8_intercalate_iff,
      utf8_compactItems_iff items]
  | .object members => by
    rw [compact, strings, utf8_cons_iff (by decide), utf8_concat_iff (by decide), utf8_intercalate_iff,
      utf8_compactMembers_iff members]

theorem utf8_compactItems_iff : ∀ items : List Value,
    (∀ text ∈ compactItems items, Utf8 text) ↔ ∀ s ∈ stringsItems items, Utf8 s
  | [] => iff_of_true (List.forall_mem_nil _) (List.forall_mem_nil _)
  | item :: rest => by
    rw [compactItems, stringsItems, List.forall_mem_cons, List.forall_mem_append, utf8_compact_iff item,
      utf8_compactItems_iff rest]

theorem utf8_compactMembers_iff : ∀ members : List (Text × Value),
    (∀ text ∈ compactMembers members, Utf8 text) ↔ ∀ s ∈ stringsMembers members, Utf8 s
  | [] => iff_of_true (List.forall_mem_nil _) (List.forall_mem_nil _)
  | (key, value) :: rest => by
    rw [compactMembers, stringsMembers, List.forall_mem_cons, List.forall_mem_cons, List.forall_mem_append,
      utf8_member_iff, utf8_compact_iff value, utf8_compactMembers_iff rest, and_assoc]

end

mutual

theorem utf8_print_iff (indent : Nat) : ∀ tree : Value, Utf8 (tree.print indent) ↔ ∀ s ∈ tree.strings, Utf8 s
  | .string s => by rw [print, strings, utf8_delimited_iff, List.forall_mem_singleton]
  | .number n => by
    rw [print]
    exact iff_of_true (simple_toDigits n).utf8 (List.forall_mem_nil _)
  | .array items => by
    rw [print, strings, utf8_bracketed_iff indent _ (by decide) (by decide), utf8_printItems_iff (indent + 2) items]
  | .object members => by
    rw [print, strings, utf8_bracketed_iff indent _ (by decide) (by decide), utf8_printMembers_iff (indent + 2) members]

theorem utf8_printItems_iff (indent : Nat) : ∀ items : List Value,
    (∀ text ∈ printItems indent items, Utf8 text) ↔ ∀ s ∈ stringsItems items, Utf8 s
  | [] => iff_of_true (List.forall_mem_nil _) (List.forall_mem_nil _)
  | item :: rest => by
    rw [printItems, stringsItems, List.forall_mem_cons, List.forall_mem_append, utf8_print_iff indent item,
      utf8_printItems_iff indent rest]

theorem utf8_printMembers_iff (indent : Nat) : ∀ members : List (Text × Value),
    (∀ text ∈ printMembers indent members, Utf8 text) ↔ ∀ s ∈ stringsMembers members, Utf8 s
  | [] => iff_of_true (List.forall_mem_nil _) (List.forall_mem_nil _)
  | (key, value) :: rest => by
    rw [printMembers, stringsMembers, List.forall_mem_cons, List.forall_mem_cons, List.forall_mem_append,
      utf8_member_iff, utf8_print_iff indent value, utf8_printMembers_iff indent rest, and_assoc]

end

theorem utf8_stringsMembers_cons_iff {key : Text} (simple : Simple key) (value : Value) (rest : List (Text × Value)) :
    (∀ s ∈ stringsMembers ((key, value) :: rest), Utf8 s) ↔
      (∀ s ∈ value.strings, Utf8 s) ∧ ∀ s ∈ stringsMembers rest, Utf8 s := by
  rw [stringsMembers, List.forall_mem_cons, and_iff_right simple.utf8, List.forall_mem_append]

theorem utf8_stringsItems_map_iff {α : Type} (list : List α) (f : α → Value) :
    (∀ s ∈ stringsItems (list.map f), Utf8 s) ↔ ∀ x ∈ list, ∀ s ∈ (f x).strings, Utf8 s := by
  induction list with
  | nil => exact iff_of_true (List.forall_mem_nil _) (List.forall_mem_nil _)
  | cons x rest ih => rw [List.map_cons, stringsItems, List.forall_mem_append, ih, List.forall_mem_cons]

end Value

theorem utf8_printedLines_iff (values : List Value) :
    Utf8 (printedLines values) ↔ ∀ value ∈ values, ∀ s ∈ value.strings, Utf8 s := by
  induction values with
  | nil => exact iff_of_true utf8_nil (List.forall_mem_nil _)
  | cons value rest ih =>
    have split : printedLines (value :: rest) = value.compact ++ '\n' :: printedLines rest := by
      simp [printedLines]
    rw [split, utf8_append_cons_iff (by decide), ih, Value.utf8_compact_iff, List.forall_mem_cons]

end Omniprobe.Lib.Json
