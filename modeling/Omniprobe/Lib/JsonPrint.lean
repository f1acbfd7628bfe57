import Omniprobe.Lib.JsonScan

/-!
# Printers that do not escape

A printer that puts strings between quotes as they are. What it prints denotes a value of the printed
shape exactly when every string is the inside of a literal.
-/

namespace Omniprobe.Lib.Json
namespace Value

/-! ### The printer -/

def indentation (indent : Nat) : Text := List.replicate indent ' '

/-- The items of an array or an object, each on its lines. -/
def lines (indent : Nat) : List Text → Text
  | [] => ['\n']
  | [text] => indentation indent ++ text ++ ['\n']
  | text :: rest => indentation indent ++ text ++ ',' :: '\n' :: lines indent rest

mutual

/-- Strings are put between quotes as they are. -/
def print (indent : Nat) : Value → Text
  | .string s => Text.delimited '"' s
  | .number n => Nat.toDigits 10 n
  | .array items => '[' :: '\n' :: (lines (indent + 2) (printItems (indent + 2) items) ++ indentation indent ++ [']'])
  | .object members =>
    '\x7b' :: '\n' :: (lines (indent + 2) (printMembers (indent + 2) members) ++ indentation indent ++ ['\x7d'])

def printItems (indent : Nat) : List Value → List Text
  | [] => []
  | item :: rest => print indent item :: printItems indent rest

def printMembers (indent : Nat) : List (Text × Value) → List Text
  | [] => []
  | (key, value) :: rest => (Text.delimited '"' key ++ ':' :: ' ' :: print indent value) :: printMembers indent rest

end

/-! ### What the printed strings stand for -/

mutual

/-- The second value is the first one with its keys and strings read as the insides of literals. -/
def Stands : Value → Value → Prop
  | .string s, .string s' => Inner s s'
  | .number n, .number m => n = m
  | .array items, .array items' => StandsItems items items'
  | .object members, .object members' => StandsMembers members members'
  | _, _ => False

def StandsItems : List Value → List Value → Prop
  | [], [] => True
  | item :: rest, item' :: rest' => Stands item item' ∧ StandsItems rest rest'
  | _, _ => False

def StandsMembers : List (Text × Value) → List (Text × Value) → Prop
  | [], [] => True
  | (key, value) :: rest, (key', value') :: rest' => Inner key key' ∧ Stands value value' ∧ StandsMembers rest rest'
  | _, _ => False

end

end Value

/-! ### What is closed in a printed text -/

theorem quote_not_mem_indentation (indent : Nat) : '"' ∉ Value.indentation indent := by
  simp [Value.indentation]

theorem yields_lines (indent : Nat) {texts : List Text} {strings : List (List Text)}
    (each : List.Forall₂ Yields texts strings) : Yields (Value.lines indent texts) strings.flatten := by
  induction each with
  | nil =>
    rw [Value.lines]
    exact (scans_of_no_quote (by decide)).yields
  | @cons text found texts strings first later ih =>
    cases later with
    | nil =>
      have line := first.before_no_quote ['\n'] (by decide)
      rw [Value.lines, List.append_assoc, List.flatten_singleton]
      exact Yields.after_no_quote _ (quote_not_mem_indentation indent) line
    | @cons next found' texts strings second more =>
      have unfolded : Value.lines indent (text :: next :: texts) =
          Value.indentation indent ++ (text ++ ',' :: '\n' :: Value.lines indent (next :: texts)) := by
        rw [Value.lines, List.append_assoc]
        exact List.cons_ne_nil _ _
      have following := Yields.after_no_quote [',', '\n'] (by decide) ih
      have line := first.append following fun _ _ => outside_of_comma
      rw [unfolded]
      exact Yields.after_no_quote _ (quote_not_mem_indentation indent) line

theorem Yields.bracketed {body : Text} {strings : List Text} (yields : Yields body strings) (indent : Nat)
    {opening closing : Char} (first : opening ≠ '"') (last : closing ≠ '"') :
    Yields (opening :: '\n' :: (body ++ Value.indentation indent ++ [closing])) strings := by
  have closed := (yields.before_no_quote _ (quote_not_mem_indentation indent)).before_no_quote [closing]
    (by simpa using last.symm)
  exact Yields.after_no_quote [opening, '\n'] (by simpa using first.symm) closed

namespace Value

theorem stringsItems_eq_flatten (items : List Value) : stringsItems items = (items.map strings).flatten := by
  induction items with
  | nil => rfl
  | cons item rest ih => rw [stringsItems, ih, List.map_cons, List.flatten_cons]

theorem stringsMembers_eq_flatten (members : List (Text × Value)) :
    stringsMembers members = (members.map fun member => member.1 :: strings member.2).flatten := by
  induction members with
  | nil => rfl
  | cons member rest ih => rw [stringsMembers, ih, List.map_cons, List.flatten_cons, List.cons_append]

mutual

/-- What is printed closes at least one literal for each key and string. -/
theorem yields_print (indent : Nat) : ∀ {tree : Value}, tree.PlainKeys → Yields (tree.print indent) tree.strings
  | .string s, _ => yields_delimited s
  | .number n, _ => by
    refine (scans_of_no_quote fun member => ?_).yields
    exact not_mem_toDigits n (by decide) member
  | .array items, plain => by
    have inside := yields_lines (indent + 2) (yields_printItems (indent + 2) plain)
    rw [← stringsItems_eq_flatten] at inside
    exact inside.bracketed indent (by decide) (by decide)
  | .object members, plain => by
    have inside := yields_lines (indent + 2) (yields_printMembers (indent + 2) plain)
    rw [← stringsMembers_eq_flatten] at inside
    exact inside.bracketed indent (by decide) (by decide)

theorem yields_printItems (indent : Nat) : ∀ {items : List Value}, PlainKeysItems items →
    List.Forall₂ Yields (printItems indent items) (items.map strings)
  | [], _ => .nil
  | _ :: _, plain => .cons (yields_print indent plain.1) (yields_printItems indent plain.2)

theorem yields_printMembers (indent : Nat) : ∀ {members : List (Text × Value)}, PlainKeysMembers members →
    List.Forall₂ Yields (printMembers indent members) (members.map fun member => member.1 :: strings member.2)
  | [], _ => .nil
  | (key, value) :: rest, plain => by
    refine .cons ?_ (yields_printMembers indent plain.2.2)
    have value := Yields.after_no_quote [':', ' '] (by decide) (yields_print indent plain.2.1)
    exact (scans_plain plain.1).append_yields value

end

/-! ### What a printed text denotes -/

mutual

theorem strings_shape_length : ∀ value : Value, value.shape.strings.length = value.strings.length
  | .string _ => rfl
  | .number _ => rfl
  | .array items => stringsItems_shape_length items
  | .object members => stringsMembers_shape_length members

theorem stringsItems_shape_length : ∀ items : List Value,
    (stringsItems (shapeItems items)).length = (stringsItems items).length
  | [] => rfl
  | item :: rest => by
    rw [shapeItems, stringsItems, stringsItems, List.length_append, List.length_append, strings_shape_length item,
      stringsItems_shape_length rest]

theorem stringsMembers_shape_length : ∀ members : List (Text × Value),
    (stringsMembers (shapeMembers members)).length = (stringsMembers members).length
  | [] => rfl
  | (key, value) :: rest => by
    rw [shapeMembers, stringsMembers, stringsMembers, List.length_cons, List.length_cons, List.length_append,
      List.length_append, strings_shape_length value, stringsMembers_shape_length rest]

end

theorem forall₂_append_iff {α β : Type} {R : α → β → Prop} {first later : List α} {first' later' : List β}
    (same : first.length = first'.length) :
    List.Forall₂ R (first ++ later) (first' ++ later') ↔ List.Forall₂ R first first' ∧ List.Forall₂ R later later' := by
  induction first generalizing first' with
  | nil =>
    obtain rfl := List.length_eq_zero_iff.mp same.symm
    simp
  | cons x rest ih =>
    cases first' with
    | nil => cases same
    | cons y rest' => simp [ih (Nat.succ.inj same), and_assoc]

theorem strings_length_eq {tree value : Value} (same : tree.shape = value.shape) :
    tree.strings.length = value.strings.length := by
  rw [← strings_shape_length tree, same, strings_shape_length value]

theorem joined_lines (indent : Nat) {texts : List Text} (some : texts ≠ []) :
    ∃ joined, lines indent texts = indentation indent ++ joined ++ ['\n'] ∧ Joined isSpace ',' texts joined := by
  have blanks : ∀ c ∈ '\n' :: indentation indent, isSpace c = true := by
    simp [indentation, isSpace]
  induction texts with
  | nil => exact absurd rfl some
  | cons text rest ih =>
    cases rest with
    | nil => exact ⟨text, by rw [lines], .one text⟩
    | cons next rest =>
      obtain ⟨joined, whole, joins⟩ := ih (List.cons_ne_nil _ _)
      refine ⟨_, ?_, .more text [] ('\n' :: indentation indent) (List.forall_mem_nil _) blanks joins⟩
      rw [lines, whole]
      · simp
      · exact List.cons_ne_nil _ _

theorem body_lines (indent indent' : Nat) (texts : List Text) :
    Body texts ('\n' :: (lines indent texts ++ indentation indent')) := by
  have spaces (n : Nat) : Spaces (indentation n) := by
    simp [Spaces, indentation, isSpace]
  have newline : isSpace '\n' = true := rfl
  by_cases none : texts = []
  · subst none
    refine .inl ⟨rfl, ?_⟩
    rw [lines]
    exact List.forall_mem_cons.mpr ⟨newline, List.forall_mem_cons.mpr ⟨newline, spaces indent'⟩⟩
  · obtain ⟨joined, whole, joins⟩ := joined_lines indent none
    refine .inr ⟨'\n' :: indentation indent, joined, '\n' :: indentation indent', ?_, ?_, joins, ?_⟩
    · rw [whole]
      simp
    · exact List.forall_mem_cons.mpr ⟨newline, spaces indent⟩
    · exact List.forall_mem_cons.mpr ⟨newline, spaces indent'⟩

mutual

theorem denotes_print_of_stands (indent : Nat) : ∀ {tree value : Value}, tree.Stands value →
    value.Denotes (tree.print indent)
  | .string s, value, stands => by
    cases value with
    | string s' =>
      obtain ⟨pieces, rfl, decoded⟩ := stands
      exact ⟨pieces, decoded, rfl⟩
    | _ => exact stands.elim
  | .number n, value, stands => by
    cases value with
    | number m =>
      obtain rfl : n = m := stands
      rfl
    | _ => exact stands.elim
  | .array items, value, stands => by
    cases value with
    | array items' =>
      refine ⟨_, _, denotesItems_print_of_stands (indent + 2) stands, body_lines (indent + 2) indent _, ?_⟩
      simp [print]
    | _ => exact stands.elim
  | .object members, value, stands => by
    cases value with
    | object members' =>
      refine ⟨_, _, denotesMembers_print_of_stands (indent + 2) stands, body_lines (indent + 2) indent _, ?_⟩
      simp [print]
    | _ => exact stands.elim

theorem denotesItems_print_of_stands (indent : Nat) : ∀ {items items' : List Value}, StandsItems items items' →
    DenotesItems items' (printItems indent items)
  | [], items', stands => by
    cases items' with
    | nil => rfl
    | cons item' rest' => exact stands.elim
  | item :: rest, items', stands => by
    cases items' with
    | nil => exact stands.elim
    | cons item' rest' =>
      exact ⟨_, _, rfl, denotes_print_of_stands indent stands.1, denotesItems_print_of_stands indent stands.2⟩

theorem denotesMembers_print_of_stands (indent : Nat) : ∀ {members members' : List (Text × Value)},
    StandsMembers members members' → DenotesMembers members' (printMembers indent members)
  | [], members', stands => by
    cases members' with
    | nil => rfl
    | cons member' rest' => exact stands.elim
  | (key, value) :: rest, members', stands => by
    cases members' with
    | nil => exact stands.elim
    | cons member' rest' =>
      obtain ⟨⟨pieces, rfl, named⟩, first, later⟩ := stands
      have blank : Spaces [' '] := List.forall_mem_singleton.mpr rfl
      exact ⟨pieces, [], [' '], _, _, rfl, named, List.forall_mem_nil _, blank, denotes_print_of_stands indent first,
        denotesMembers_print_of_stands indent later⟩

end

mutual

theorem stands_of_strings : ∀ {tree value : Value}, tree.shape = value.shape →
    List.Forall₂ Inner tree.strings value.strings → tree.Stands value
  | .string s, value, same, inner => by
    cases value <;> cases same
    exact (List.forall₂_cons.mp inner).1
  | .number n, value, same, inner => by
    cases value <;> cases same
    rfl
  | .array items, value, same, inner => by
    cases value with
    | array items' => exact standsItems_of_strings (Value.array.inj same) inner
    | _ => cases same
  | .object members, value, same, inner => by
    cases value with
    | object members' => exact standsMembers_of_strings (Value.object.inj same) inner
    | _ => cases same

theorem standsItems_of_strings : ∀ {items items' : List Value}, shapeItems items = shapeItems items' →
    List.Forall₂ Inner (stringsItems items) (stringsItems items') → StandsItems items items'
  | [], items', same, inner => by
    cases items' <;> cases same
    trivial
  | item :: rest, items', same, inner => by
    cases items' with
    | nil => cases same
    | cons item' rest' =>
      obtain ⟨first, later⟩ := List.cons.inj same
      obtain ⟨contents, others⟩ := (forall₂_append_iff (strings_length_eq first)).mp inner
      exact ⟨stands_of_strings first contents, standsItems_of_strings later others⟩

theorem standsMembers_of_strings : ∀ {members members' : List (Text × Value)},
    shapeMembers members = shapeMembers members' →
    List.Forall₂ Inner (stringsMembers members) (stringsMembers members') → StandsMembers members members'
  | [], members', same, inner => by
    cases members' <;> cases same
    trivial
  | (key, value) :: rest, members', same, inner => by
    cases members' with
    | nil => cases same
    | cons member' rest' =>
      obtain ⟨first, later⟩ := List.cons.inj same
      have first := (Prod.mk.inj first).2
      obtain ⟨named, contents⟩ := List.forall₂_cons.mp inner
      obtain ⟨contents, others⟩ := (forall₂_append_iff (strings_length_eq first)).mp contents
      exact ⟨named, stands_of_strings first contents, standsMembers_of_strings later others⟩

end

/-- A printed text denotes a value of the same shape exactly when each string of the value is what the printed one
stands for between quotes. -/
theorem denotes_print_iff (indent : Nat) {tree value : Value} (same : tree.shape = value.shape) (plain : tree.PlainKeys) :
    value.Denotes (tree.print indent) ↔ tree.Stands value := by
  refine ⟨fun denotes => stands_of_strings same ?_, denotes_print_of_stands indent⟩
  obtain ⟨insides, scans, stand⟩ := denotes.scans
  obtain ⟨closed, whole, -, exactly⟩ := yields_print indent plain _ _ (scans [])
  obtain rfl : insides = closed := by simpa using whole
  rw [exactly (stand.length_eq.trans (strings_length_eq same).symm)] at stand
  exact stand

theorem standsMembers_cons_iff {key : Text} (plain : Plain key) {value value' : Value}
    {rest rest' : List (Text × Value)} :
    StandsMembers ((key, value) :: rest) ((key, value') :: rest') ↔ Stands value value' ∧ StandsMembers rest rest' :=
  and_iff_right (inner_self_iff.mpr plain)

/-! ### Arrays that are mapped from a list -/

section
variable {α : Type}

theorem shapeItems_map_congr {list : List α} {f g : α → Value} (same : ∀ x, (f x).shape = (g x).shape) :
    shapeItems (list.map f) = shapeItems (list.map g) := by
  induction list with
  | nil => rfl
  | cons x rest ih => rw [List.map_cons, List.map_cons, shapeItems, shapeItems, same, ih]

theorem plainKeysItems_map {f : α → Value} (plain : ∀ x, (f x).PlainKeys) (list : List α) :
    PlainKeysItems (list.map f) := by
  induction list with
  | nil => trivial
  | cons x rest ih => exact ⟨plain x, ih⟩

theorem standsItems_map_iff {list : List α} {f g : α → Value} :
    StandsItems (list.map f) (list.map g) ↔ ∀ x ∈ list, (f x).Stands (g x) := by
  induction list with
  | nil => simp [StandsItems]
  | cons x rest ih => rw [List.map_cons, List.map_cons, StandsItems, ih, List.forall_mem_cons]

theorem printItems_map (indent : Nat) (list : List α) (f : α → Value) :
    printItems indent (list.map f) = list.map fun x => (f x).print indent := by
  induction list with
  | nil => rfl
  | cons x rest ih => rw [List.map_cons, List.map_cons, printItems, ih]

theorem lines_cons (indent : Nat) (text : Text) (rest : List Text) :
    lines indent (text :: rest) =
      indentation indent ++ text ++ rest.flatMap (fun text => ',' :: '\n' :: (indentation indent ++ text)) ++ ['\n'] := by
  induction rest generalizing text with
  | nil => simp [lines]
  | cons next rest ih =>
    rw [lines, ih]
    · simp
    · exact List.cons_ne_nil _ _

end

end Value

end Omniprobe.Lib.Json
