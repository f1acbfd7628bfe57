import Omniprobe.Lib.JsonUtf8

/-!
# The JSON helper

`JSONHelper` puts the text of an object together field by field, each with a comma behind it, and takes the
last comma back.
-/

namespace Omniprobe.Handlers
open Lib Json

/-! ### The helper -/

/-- What is put into a stream. -/
inductive Item where
  | text (s : Text)
  | number (n : Nat)

def Item.shown (hex : Bool) : Item → Text
  | .text s => s
  | .number n => Nat.toDigits (if hex then 16 else 10) n

/-- A field's value, or an item of a vector. -/
def Item.field (item : Item) (quotes hex : Bool) : Text :=
  let quote : Text := if quotes then ['"'] else []
  quote ++ (if hex then "0x".toList else []) ++ item.shown hex ++ quote

structure JSONHelper where
  ss : Text := ['\x7b']

namespace JSONHelper

def addField (json : JSONHelper) (name : Text) (value : Item) (quotes : Bool := false) (hex : Bool := false) : JSONHelper :=
  ⟨json.ss ++ Text.delimited '"' name ++ ": ".toList ++ value.field quotes hex ++ [',']⟩

/-- `none` without items, where there is no comma to take back. -/
def addVector (json : JSONHelper) (name : Text) (items : List Item) (quotes : Bool := false) (hex : Bool := false) :
    Option JSONHelper :=
  let result := items.flatMap fun item => item.field quotes hex ++ [',']
  if result = [] then none
  else some ⟨json.ss ++ Text.delimited '"' name ++ ": [".toList ++ result.dropLast ++ "],".toList⟩

def getJSON (json : JSONHelper) : Text :=
  (if json.ss.getLast? = some ',' then json.ss.dropLast else json.ss) ++ ['\x7d']

/-! ### The object that is put together -/

/-- The helper has the members of an object. -/
def Holds (json : JSONHelper) (members : List (Text × Value)) : Prop :=
  json.ss = '\x7b' :: (Value.compactMembers members).flatMap fun member => member ++ [',']

variable {json : JSONHelper} {members : List (Text × Value)}

theorem holds_new : Holds {} [] := rfl

theorem Holds.more (holds : json.Holds members) (name : Text) {value : Value} {shown : Text} (compact : value.compact = shown) :
    Holds ⟨json.ss ++ Text.delimited '"' name ++ ": ".toList ++ shown ++ [',']⟩ (members ++ [(name, value)]) := by
  rw [Holds] at holds ⊢
  rw [holds, Value.compactMembers_append, List.flatMap_append, ← compact]
  simp [Value.compactMembers]

theorem Holds.number (holds : json.Holds members) (name : Text) (n : Nat) :
    (json.addField name (.number n)).Holds (members ++ [(name, .number n)]) :=
  holds.more name (List.append_nil _).symm

theorem Holds.numbers (holds : json.Holds members) (fields : List (Text × Nat)) :
    (fields.foldl (fun json field => json.addField field.1 (.number field.2)) json).Holds
      (members ++ fields.map fun field => (field.1, .number field.2)) := by
  induction fields generalizing json members with
  | nil =>
    rw [List.map_nil, List.append_nil]
    exact holds
  | cons field rest ih =>
    rw [List.foldl_cons, List.map_cons, ← List.singleton_append, ← List.append_assoc]
    exact ih (holds.number field.1 field.2)

theorem Holds.string (holds : json.Holds members) (name s : Text) :
    (json.addField name (.text s) true).Holds (members ++ [(name, .string s)]) :=
  holds.more name rfl

/-- A text that brings its own quotes. -/
theorem Holds.quoted (holds : json.Holds members) (name s : Text) :
    (json.addField name (.text (Text.delimited '"' s))).Holds (members ++ [(name, .string s)]) :=
  holds.more name (List.append_nil _).symm

theorem Holds.vector (holds : json.Holds members) (name : Text) {items : List Item} {values : List Value}
    (shown : items.map (Item.shown false) = Value.compactItems values) (nonempty : values ≠ []) :
    ∃ after, json.addVector name items = some after ∧ after.Holds (members ++ [(name, .array values)]) := by
  have fields : (items.flatMap fun item => item.field false false ++ [',']) =
      (Value.compactItems values).flatMap fun text => text ++ [','] := by
    rw [← shown, List.flatMap_map]
    refine List.flatMap_congr fun item _ => ?_
    rw [Item.field]
    simp
  have texts : Value.compactItems values ≠ [] := by
    obtain ⟨value, rest, rfl⟩ := List.exists_cons_of_ne_nil nonempty
    exact List.cons_ne_nil _ _
  obtain ⟨text, rest, split⟩ := List.exists_cons_of_ne_nil texts
  have joined := dropLast_flatMap_concat ',' texts []
  rw [List.nil_append, List.nil_append] at joined
  have result : (items.flatMap fun item => item.field false false ++ [',']) ≠ [] := by
    rw [fields, split]
    simp
  refine ⟨_, if_neg result, ?_⟩
  have whole := holds.more name (rfl : (Value.array values).compact = _)
  rw [fields, joined]
  simpa [Value.compact] using whole

theorem Holds.getJSON (holds : json.Holds members) : json.getJSON = (Value.object members).compact := by
  rw [Holds] at holds
  rw [JSONHelper.getJSON, holds, Value.compact]
  by_cases none : Value.compactMembers members = []
  · rw [none]
    rfl
  · have joined := dropLast_flatMap_concat ',' none ['\x7b']
    have last : ('\x7b' :: (Value.compactMembers members).flatMap fun member => member ++ [',']).getLast? = some ',' := by
      obtain ⟨text, rest, split⟩ := List.exists_cons_of_ne_nil none
      rw [split, flatMap_concat_eq, ← List.cons_append, List.getLast?_concat]
    rw [if_pos last]
    exact congrArg (· ++ ['\x7d']) joined

end JSONHelper

end Omniprobe.Handlers
