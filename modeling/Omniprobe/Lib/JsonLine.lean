import Omniprobe.Lib.JsonCompact

/-!
# JSON on one line

A printer that joins items by commas and puts a blank behind each colon. Strings are put between quotes
as they are, so what is printed denotes the value exactly when none of them needs an escape. Logs have
values on a line each.
-/

namespace Omniprobe.Lib.Json

/-! ### The printer -/

namespace Value

mutual

def compact : Value → Text
  | .string s => Text.delimited '"' s
  | .number n => Nat.toDigits 10 n
  | .array items => '[' :: ([','].intercalate (compactItems items) ++ [']'])
  | .object members => '\x7b' :: ([','].intercalate (compactMembers members) ++ ['\x7d'])

def compactItems : List Value → List Text
  | [] => []
  | item :: rest => compact item :: compactItems rest

def compactMembers : List (Text × Value) → List Text
  | [] => []
  | (key, value) :: rest => (Text.delimited '"' key ++ ':' :: ' ' :: compact value) :: compactMembers rest

end

theorem compactItems_map {α : Type} (list : List α) (f : α → Value) :
    compactItems (list.map f) = list.map fun x => (f x).compact := by
  induction list with
  | nil => rfl
  | cons x rest ih => rw [List.map_cons, List.map_cons, compactItems, ih]

theorem compactMembers_append (first second : List (Text × Value)) :
    compactMembers (first ++ second) = compactMembers first ++ compactMembers second := by
  induction first with
  | nil => rfl
  | cons member rest ih => rw [List.cons_append, compactMembers, ih, compactMembers, List.cons_append]

theorem stringsMembers_append (first second : List (Text × Value)) :
    stringsMembers (first ++ second) = stringsMembers first ++ stringsMembers second := by
  induction first with
  | nil => rfl
  | cons member rest ih =>
    rw [List.cons_append, stringsMembers, ih, stringsMembers, List.cons_append, List.append_assoc]

theorem stringsMembers_numbers (fields : List (Text × Nat)) :
    stringsMembers (fields.map fun field => (field.1, .number field.2)) = fields.map Prod.fst := by
  induction fields with
  | nil => rfl
  | cons field rest ih =>
    rw [List.map_cons, stringsMembers, ih]
    rfl

theorem stringsItems_numbers {α : Type} (list : List α) (f : α → Nat) : stringsItems (list.map fun x => .number (f x)) = [] := by
  induction list with
  | nil => rfl
  | cons x rest ih =>
    rw [List.map_cons, stringsItems, ih]
    rfl

end Value

/-! ### Characters that are no white space -/

def ink (s : Text) : Nat := s.countP fun c => !isSpace c

def totalInk (texts : List Text) : Nat := (texts.map ink).sum

theorem ink_append (s t : Text) : ink (s ++ t) = ink s + ink t := List.countP_append

theorem ink_cons_of_visible {c : Char} (visible : isSpace c = false) (s : Text) : ink (c :: s) = ink s + 1 :=
  List.countP_cons_of_pos (by simp [visible])

theorem ink_spaces {s : Text} (spaces : Spaces s) : ink s = 0 := by
  rw [ink, List.countP_eq_zero]
  intro c member
  simp [spaces c member]

theorem ink_bracketed {opening closing : Char} (first : isSpace opening = false) (last : isSpace closing = false)
    (body : Text) : ink (opening :: (body ++ [closing])) = ink body + 2 := by
  rw [ink_cons_of_visible first, ink_append, ink_cons_of_visible last]
  rfl

theorem ink_eq_length {s : Text} (visible : ∀ c ∈ s, isSpace c = false) : ink s = s.length := by
  rw [ink, List.countP_eq_length]
  intro c member
  simp [visible c member]

theorem totalInk_append (first second : List Text) : totalInk (first ++ second) = totalInk first + totalInk second := by
  rw [totalInk, List.map_append, List.sum_append]
  rfl

theorem totalInk_cons (text : Text) (rest : List Text) : totalInk (text :: rest) = ink text + totalInk rest := by
  rw [totalInk, List.map_cons, List.sum_cons]
  rfl

theorem Joined.ink {texts : List Text} {text : Text} (joined : Joined isSpace ',' texts text) :
    Json.ink text + 1 = totalInk texts + texts.length := by
  induction joined with
  | one item => rfl
  | more item before after leading trailing _ ih =>
    rw [ink_append, ink_append, ink_cons_of_visible rfl, ink_append, ink_spaces leading, ink_spaces trailing, totalInk_cons,
      List.length_cons]
    omega

theorem Body.ink {texts : List Text} {body : Text} (shape : Body texts body) :
    Json.ink body = totalInk texts + (texts.length - 1) := by
  rcases shape with ⟨rfl, spaces⟩ | ⟨before, text, behind, rfl, leading, joined, trailing⟩
  · exact ink_spaces spaces
  · have items := Joined.ink joined
    have some := List.length_pos_of_ne_nil joined.ne_nil
    rw [ink_append, ink_append, ink_spaces leading, ink_spaces trailing]
    omega

/-- The brackets, and a comma between two elements. -/
theorem Document.ink {list : List Text} {text : Text} (some : list ≠ []) (document : Document list text) :
    Json.ink text = totalInk list + list.length + 1 := by
  obtain ⟨before, inner, after, rfl, leading, array, trailing⟩ := document
  obtain ⟨body, rfl, shape⟩ := array.body
  have items := Body.ink shape
  have counted := List.length_pos_of_ne_nil some
  rw [ink_append, ink_append, ink_spaces leading, ink_spaces trailing, ink_bracketed rfl rfl]
  omega

theorem totalInk_perm {list list' : List Text} (perm : list.Perm list') : totalInk list = totalInk list' :=
  (perm.map Json.ink).sum_eq

theorem ink_flatten (texts : List Text) : Json.ink texts.flatten = totalInk texts := by
  induction texts with
  | nil => rfl
  | cons text rest ih => rw [List.flatten_cons, ink_append, ih, totalInk_cons]

/-! ### What stands between the quotes -/

theorem isSpace_of_hexValue {c : Char} (valid : (hexValue? c).isSome = true) : isSpace c = false := by
  rw [Bool.eq_false_iff]
  intro blank
  simp only [isSpace, Bool.or_eq_true, beq_iff_eq, or_assoc] at blank
  rcases blank with rfl | rfl | rfl | rfl <;> cases valid

theorem Piece.ink_value (piece : Piece) :
    ink piece.value < ink piece.text ∨ ∃ c, piece.value = [c] ∧ piece.text = [c] ∧ Plain [c] := by
  rcases piece.value_shorter with shorter | same
  · refine .inl (Nat.lt_of_le_of_lt List.countP_le_length (Nat.lt_of_lt_of_eq shorter (ink_eq_length ?_).symm))
    have digits (unit : CodeUnit) : ∀ c ∈ unit.digits, isSpace c = false := by
      simp only [CodeUnit.digits, List.forall_mem_cons, List.not_mem_nil, false_imp_iff, implies_true, and_true]
      exact ⟨isSpace_of_hexValue unit.first.valid, isSpace_of_hexValue unit.second.valid,
        isSpace_of_hexValue unit.third.valid, isSpace_of_hexValue unit.fourth.valid⟩
    cases piece with
    | plain c valid => exact absurd shorter (Nat.lt_irrefl _)
    | escape code => cases code <;> simp [Piece.text, Escape.letter, isSpace]
    | unicode unit valid => exact List.forall_mem_cons.mpr ⟨rfl, List.forall_mem_cons.mpr ⟨rfl, digits unit⟩⟩
    | pair high low valid =>
      simp only [Piece.text, List.forall_mem_cons, List.forall_mem_append]
      exact ⟨rfl, rfl, digits high, rfl, rfl, digits low⟩
  · exact .inr same

theorem Inner.ink {text string : Text} (inner : Inner text string) :
    Json.ink string ≤ Json.ink text ∧ (Json.ink text = Json.ink string → Plain string) := by
  obtain ⟨pieces, rfl, rfl⟩ := inner
  induction pieces with
  | nil => exact ⟨Nat.le_refl _, fun _ => List.forall_mem_nil _⟩
  | cons piece rest ih =>
    obtain ⟨atMost, exactly⟩ := ih
    rw [decode_cons, innerText_cons, ink_append, ink_append]
    rcases piece.ink_value with shorter | ⟨c, value, text, visible⟩
    · exact ⟨by omega, by omega⟩
    · rw [value, text]
      exact ⟨by omega, fun same => List.forall_mem_append.mpr ⟨visible, exactly (by omega)⟩⟩

/-- Strings stand for themselves where they are as long as what stands between the quotes. -/
theorem plain_of_ink {insides strings : List Text} (stand : List.Forall₂ Inner insides strings) :
    totalInk strings ≤ totalInk insides ∧ (totalInk insides = totalInk strings → ∀ s ∈ strings, Plain s) := by
  induction stand with
  | nil => exact ⟨Nat.le_refl _, fun _ => List.forall_mem_nil _⟩
  | cons inner _ ih =>
    obtain ⟨atMost, exactly⟩ := ih
    obtain ⟨here, plain⟩ := inner.ink
    rw [totalInk_cons, totalInk_cons]
    exact ⟨by omega, fun same => List.forall_mem_cons.mpr ⟨plain (by omega), exactly (by omega)⟩⟩

namespace Value

/-! ### What stands outside of the quotes -/

mutual

/-- The quotes, digits, brackets, colons and commas of a text of the value. -/
def frame : Value → Nat
  | .string _ => 2
  | .number n => ink (Nat.toDigits 10 n)
  | .array items => frameItems items + (items.length - 1) + 2
  | .object members => frameMembers members + (members.length - 1) + 2

def frameItems : List Value → Nat
  | [] => 0
  | item :: rest => frame item + frameItems rest

def frameMembers : List (Text × Value) → Nat
  | [] => 0
  | (_, value) :: rest => 3 + frame value + frameMembers rest

end

mutual

theorem Denotes.ink : ∀ {value : Value} {text : Text}, value.Denotes text →
    ∃ insides, List.Forall₂ Inner insides value.strings ∧ Json.ink text = totalInk insides + value.frame
  | .string s, text, denotes => by
    obtain ⟨pieces, stands, rfl⟩ := denotes
    refine ⟨_, .cons ⟨pieces, rfl, stands⟩ .nil, ?_⟩
    rw [literal, Text.delimited, ink_bracketed rfl rfl, totalInk_cons]
    rfl
  | .number n, text, denotes => by
    obtain rfl : text = Nat.toDigits 10 n := denotes
    exact ⟨[], .nil, (Nat.zero_add _).symm⟩
  | .array items, text, denotes => by
    obtain ⟨texts, body, each, shape, rfl⟩ := denotes
    obtain ⟨insides, stand, items, same⟩ := DenotesItems.ink each
    refine ⟨insides, stand, ?_⟩
    rw [ink_bracketed rfl rfl, Body.ink shape, items, same, frame]
    omega
  | .object members, text, denotes => by
    obtain ⟨texts, body, each, shape, rfl⟩ := denotes
    obtain ⟨insides, stand, items, same⟩ := DenotesMembers.ink each
    refine ⟨insides, stand, ?_⟩
    rw [ink_bracketed rfl rfl, Body.ink shape, items, same, frame]
    omega

theorem DenotesItems.ink : ∀ {items : List Value} {texts : List Text}, DenotesItems items texts →
    ∃ insides, List.Forall₂ Inner insides (stringsItems items) ∧
      totalInk texts = totalInk insides + frameItems items ∧ texts.length = items.length
  | [], texts, denotes => by
    obtain rfl : texts = [] := denotes
    exact ⟨[], .nil, rfl, rfl⟩
  | item :: rest, texts, denotes => by
    obtain ⟨text, later, rfl, first, others⟩ := denotes
    obtain ⟨insides, stand, here⟩ := Denotes.ink first
    obtain ⟨insides', stand', there, same⟩ := DenotesItems.ink others
    refine ⟨insides ++ insides', List.rel_append stand stand', ?_, congrArg Nat.succ same⟩
    rw [totalInk_cons, here, there, totalInk_append, frameItems]
    omega

theorem DenotesMembers.ink : ∀ {members : List (Text × Value)} {texts : List Text}, DenotesMembers members texts →
    ∃ insides, List.Forall₂ Inner insides (stringsMembers members) ∧
      totalInk texts = totalInk insides + frameMembers members ∧ texts.length = members.length
  | [], texts, denotes => by
    obtain rfl : texts = [] := denotes
    exact ⟨[], .nil, rfl, rfl⟩
  | (key, value) :: rest, texts, denotes => by
    obtain ⟨pieces, before, behind, text, later, rfl, named, leading, trailing, first, others⟩ := denotes
    obtain ⟨insides, stand, here⟩ := Denotes.ink first
    obtain ⟨insides', stand', there, same⟩ := DenotesMembers.ink others
    refine ⟨innerText pieces :: (insides ++ insides'), .cons ⟨pieces, rfl, named⟩ (List.rel_append stand stand'), ?_,
      congrArg Nat.succ same⟩
    rw [totalInk_cons, literal, Text.delimited, ink_append, ink_bracketed rfl rfl, ink_append, ink_spaces leading,
      ink_cons_of_visible rfl, ink_append, ink_spaces trailing, here, there, totalInk_cons, totalInk_append, frameMembers]
    omega

end

mutual

theorem compact_ink : ∀ tree : Value, ink tree.compact = totalInk tree.strings + tree.frame
  | .string s => by
    rw [compact, Text.delimited, ink_bracketed rfl rfl, strings, totalInk_cons]
    rfl
  | .number n => (Nat.zero_add _).symm
  | .array items => by
    obtain ⟨total, same⟩ := compactItems_ink items
    rw [compact, ink_bracketed rfl rfl, Body.ink (body_intercalate _), total, same, strings, frame]
    omega
  | .object members => by
    obtain ⟨total, same⟩ := compactMembers_ink members
    rw [compact, ink_bracketed rfl rfl, Body.ink (body_intercalate _), total, same, strings, frame]
    omega

theorem compactItems_ink : ∀ items : List Value,
    totalInk (compactItems items) = totalInk (stringsItems items) + frameItems items ∧
      (compactItems items).length = items.length
  | [] => ⟨rfl, rfl⟩
  | item :: rest => by
    obtain ⟨total, same⟩ := compactItems_ink rest
    refine ⟨?_, congrArg Nat.succ same⟩
    rw [compactItems, totalInk_cons, compact_ink item, total, stringsItems, totalInk_append, frameItems]
    omega

theorem compactMembers_ink : ∀ members : List (Text × Value),
    totalInk (compactMembers members) = totalInk (stringsMembers members) + frameMembers members ∧
      (compactMembers members).length = members.length
  | [] => ⟨rfl, rfl⟩
  | (key, value) :: rest => by
    obtain ⟨total, same⟩ := compactMembers_ink rest
    have blank : ink (' ' :: value.compact) = ink value.compact := List.countP_cons_of_neg (by decide)
    refine ⟨?_, congrArg Nat.succ same⟩
    rw [compactMembers, totalInk_cons, Text.delimited, ink_append, ink_bracketed rfl rfl, ink_cons_of_visible rfl, blank,
      compact_ink value, total, stringsMembers, totalInk_cons, totalInk_append, frameMembers]
    omega

end

/-! ### What is denoted -/

mutual

theorem denotes_compact_of_plain : ∀ {tree : Value}, (∀ s ∈ tree.strings, Plain s) → tree.Denotes tree.compact
  | .string s, plain => denotes_string (plain s List.mem_cons_self)
  | .number _, _ => rfl
  | .array _, plain => ⟨_, _, denotesItems_compact_of_plain plain, body_intercalate _, rfl⟩
  | .object _, plain => ⟨_, _, denotesMembers_compact_of_plain plain, body_intercalate _, rfl⟩

theorem denotesItems_compact_of_plain : ∀ {items : List Value}, (∀ s ∈ stringsItems items, Plain s) →
    DenotesItems items (compactItems items)
  | [], _ => rfl
  | _ :: _, plain => by
    obtain ⟨first, later⟩ := List.forall_mem_append.mp plain
    exact ⟨_, _, rfl, denotes_compact_of_plain first, denotesItems_compact_of_plain later⟩

theorem denotesMembers_compact_of_plain : ∀ {members : List (Text × Value)}, (∀ s ∈ stringsMembers members, Plain s) →
    DenotesMembers members (compactMembers members)
  | [], _ => rfl
  | (key, value) :: rest, plain => by
    obtain ⟨named, others⟩ := List.forall_mem_cons.mp plain
    obtain ⟨first, later⟩ := List.forall_mem_append.mp others
    have blank : Spaces [' '] := List.forall_mem_singleton.mpr rfl
    exact denotesMembers_cons named blank (denotes_compact_of_plain first) (denotesMembers_compact_of_plain later)

end

/-- What is printed denotes the value exactly when all its strings may stand between quotes as they are: a quote or an
escape would leave less for the strings than was printed. -/
theorem denotes_compact_iff {tree : Value} : tree.Denotes tree.compact ↔ ∀ s ∈ tree.strings, Plain s := by
  refine ⟨fun denotes => ?_, denotes_compact_of_plain⟩
  obtain ⟨insides, stand, printed⟩ := denotes.ink
  rw [compact_ink] at printed
  exact (plain_of_ink stand).2 (Nat.add_right_cancel printed).symm

end Value

/-! ### Lines -/

theorem not_mem_intercalate {c sep : Char} (other : c ≠ sep) {texts : List Text} (absent : ∀ text ∈ texts, c ∉ text) :
    c ∉ [sep].intercalate texts := by
  cases texts with
  | nil => exact List.not_mem_nil
  | cons text rest =>
    obtain ⟨first, later⟩ := List.forall_mem_cons.mp absent
    rw [intercalate_cons_eq, List.mem_append, List.mem_flatMap]
    rintro (member | ⟨text, within, member⟩)
    · exact first member
    · rcases List.mem_cons.mp member with same | member
      · exact other same
      · exact later text within member

namespace Value

mutual

theorem newline_not_mem_compact : ∀ {tree : Value}, (∀ s ∈ tree.strings, '\n' ∉ s) → '\n' ∉ tree.compact
  | .string s, absent => by
    have inside := absent s List.mem_cons_self
    simpa [compact, Text.delimited] using inside
  | .number n, _ => not_mem_toDigits n (by decide)
  | .array _, absent => by
    have inside := not_mem_intercalate (by decide : '\n' ≠ ',') (newline_not_mem_compactItems absent)
    simpa [compact] using inside
  | .object _, absent => by
    have inside := not_mem_intercalate (by decide : '\n' ≠ ',') (newline_not_mem_compactMembers absent)
    simpa [compact] using inside

theorem newline_not_mem_compactItems : ∀ {items : List Value}, (∀ s ∈ stringsItems items, '\n' ∉ s) →
    ∀ text ∈ compactItems items, '\n' ∉ text
  | [], _ => List.forall_mem_nil _
  | _ :: _, absent => by
    obtain ⟨first, later⟩ := List.forall_mem_append.mp absent
    exact List.forall_mem_cons.mpr ⟨newline_not_mem_compact first, newline_not_mem_compactItems later⟩

theorem newline_not_mem_compactMembers : ∀ {members : List (Text × Value)}, (∀ s ∈ stringsMembers members, '\n' ∉ s) →
    ∀ text ∈ compactMembers members, '\n' ∉ text
  | [], _ => List.forall_mem_nil _
  | (key, value) :: rest, absent => by
    obtain ⟨named, others⟩ := List.forall_mem_cons.mp absent
    obtain ⟨first, later⟩ := List.forall_mem_append.mp others
    refine List.forall_mem_cons.mpr ⟨?_, newline_not_mem_compactMembers later⟩
    have inside := newline_not_mem_compact first
    simpa [Text.delimited, named] using inside

end

end Value

/-- The lines of a text that are ended. -/
def linesOf : Text → List Text
  | [] => []
  | c :: rest =>
    if c = '\n' then [] :: linesOf rest
    else
      match linesOf rest with
      | [] => []
      | line :: later => (c :: line) :: later

theorem linesOf_append {line : Text} (whole : '\n' ∉ line) (rest : Text) :
    linesOf (line ++ '\n' :: rest) = line :: linesOf rest := by
  induction line with
  | nil => exact if_pos rfl
  | cons c line ih =>
    rw [List.mem_cons, not_or] at whole
    rw [List.cons_append, linesOf, if_neg (Ne.symm whole.1), ih whole.2]

theorem length_linesOf (text : Text) : (linesOf text).length = text.count '\n' := by
  induction text with
  | nil => rfl
  | cons c rest ih =>
    rw [linesOf, List.count_cons, ← ih]
    by_cases newline : c = '\n'
    · simp [newline]
    · simp only [newline, if_false, beq_iff_eq, Nat.add_zero]
      cases linesOf rest with
      | nil => rfl
      | cons line later => rfl

/-- A text of values on a line each, which are printed. -/
def printedLines (values : List Value) : Text := values.flatMap fun value => value.compact ++ ['\n']

theorem printedLines_append (first second : List Value) :
    printedLines (first ++ second) = printedLines first ++ printedLines second := List.flatMap_append

theorem linesOf_printedLines {values : List Value} (whole : ∀ value ∈ values, '\n' ∉ value.compact) :
    linesOf (printedLines values) = values.map Value.compact := by
  induction values with
  | nil => rfl
  | cons value rest ih =>
    obtain ⟨first, later⟩ := List.forall_mem_cons.mp whole
    rw [printedLines, List.flatMap_cons, List.append_assoc, List.singleton_append, linesOf_append first, List.map_cons]
    exact congrArg _ (ih later)

theorem whole_of_length {values : List Value} (same : (linesOf (printedLines values)).length = values.length) :
    ∀ value ∈ values, '\n' ∉ value.compact := by
  rw [length_linesOf] at same
  have atLeast (values : List Value) : values.length ≤ (printedLines values).count '\n' := by
    induction values with
    | nil => exact Nat.le_refl _
    | cons value rest ih =>
      rw [printedLines, List.flatMap_cons, List.count_append, List.count_append, List.length_cons]
      have ended : ['\n'].count '\n' = 1 := rfl
      unfold printedLines at ih
      omega
  induction values with
  | nil => exact List.forall_mem_nil _
  | cons value rest ih =>
    have later := atLeast rest
    have split : (printedLines (value :: rest)).count '\n' =
        value.compact.count '\n' + 1 + (printedLines rest).count '\n' := by
      rw [printedLines, List.flatMap_cons, List.count_append, List.count_append]
      rfl
    rw [split, List.length_cons] at same
    exact List.forall_mem_cons.mpr ⟨List.count_eq_zero.mp (by omega), ih (by omega)⟩

/-- A log has the values on a line each exactly when all their strings may stand between quotes as they are. -/
theorem denotes_linesOf_iff (values : List Value) :
    List.Forall₂ Value.Denotes values (linesOf (printedLines values)) ↔
      ∀ value ∈ values, ∀ s ∈ value.strings, Plain s := by
  constructor
  · intro each
    rw [linesOf_printedLines (whole_of_length each.length_eq.symm), List.forall₂_map_right_iff, List.forall₂_same] at each
    exact fun value member => Value.denotes_compact_iff.mp (each value member)
  · intro plain
    have whole : ∀ value ∈ values, '\n' ∉ value.compact := by
      refine fun value member => Value.newline_not_mem_compact fun s inside newline => ?_
      exact (plain value member s inside '\n' newline).2.2 (by decide)
    rw [linesOf_printedLines whole, List.forall₂_map_right_iff, List.forall₂_same]
    exact fun value member => Value.denotes_compact_iff.mpr (plain value member)

end Omniprobe.Lib.Json
