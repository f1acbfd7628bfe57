import Omniprobe.Lib.JsonValue

/-!
# Compact JSON

Arrays and objects whose items are joined by single commas, as a printer writes them that ends each
item with a comma and takes the last one back, and how the text of a value can end.
-/

namespace Omniprobe.Lib.Json

/-! ### Commas -/

section
variable {α : Type} (sep : α)

theorem intercalate_cons_eq (item : List α) (rest : List (List α)) :
    [sep].intercalate (item :: rest) = item ++ rest.flatMap fun item => sep :: item := by
  induction rest generalizing item with
  | nil => simp
  | cons next rest ih => rw [List.intercalate_cons_cons, ih, List.flatMap_cons, List.append_assoc, List.singleton_append,
      List.cons_append]

theorem flatMap_concat_eq (item : List α) (rest : List (List α)) :
    ((item :: rest).flatMap fun item => item ++ [sep]) = [sep].intercalate (item :: rest) ++ [sep] := by
  induction rest generalizing item with
  | nil => simp
  | cons next rest ih =>
    rw [List.flatMap_cons, ih, List.intercalate_cons_cons, List.append_assoc, List.append_assoc, List.append_assoc]

theorem dropLast_flatMap_concat {items : List (List α)} (some : items ≠ []) (front : List α) :
    (front ++ items.flatMap fun item => item ++ [sep]).dropLast = front ++ [sep].intercalate items := by
  obtain ⟨item, rest, rfl⟩ := List.exists_cons_of_ne_nil some
  rw [flatMap_concat_eq, ← List.append_assoc, List.dropLast_concat]

theorem joined_intercalate (blank : α → Bool) {items : List (List α)} (some : items ≠ []) :
    Joined blank sep items ([sep].intercalate items) := by
  obtain ⟨item, rest, rfl⟩ := List.exists_cons_of_ne_nil some
  induction rest generalizing item with
  | nil =>
    rw [List.intercalate_singleton]
    exact .one item
  | cons next rest ih =>
    have later : Joined blank sep (item :: next :: rest) (item ++ [] ++ sep :: ([] ++ [sep].intercalate (next :: rest))) :=
      .more item [] [] (List.forall_mem_nil _) (List.forall_mem_nil _) (ih next (List.cons_ne_nil _ _))
    rw [List.append_nil, List.nil_append] at later
    rw [List.intercalate_cons_cons, List.append_assoc]
    exact later

end

theorem body_intercalate (items : List Text) : Body items ([','].intercalate items) := by
  by_cases none : items = []
  · exact .inl ⟨none, by rw [none]; exact List.forall_mem_nil _⟩
  · exact .inr ⟨[], _, [], by simp, List.forall_mem_nil _, joined_intercalate ',' isSpace none, List.forall_mem_nil _⟩

theorem arrayText_intercalate (list : List Text) : ArrayText list ('[' :: ([','].intercalate list ++ [']'])) := by
  cases list with
  | nil => exact .empty (List.forall_mem_nil _)
  | cons item rest =>
    have array := ArrayText.items (List.forall_mem_nil _)
      (joined_intercalate ',' isSpace (List.cons_ne_nil item rest)) (List.forall_mem_nil _)
    rw [List.nil_append, List.append_nil] at array
    exact array

namespace Value

theorem denotesItems_map {α : Type} {list : List α} {value : α → Value} {text : α → Text}
    (each : ∀ x ∈ list, (value x).Denotes (text x)) : DenotesItems (list.map value) (list.map text) := by
  induction list with
  | nil => rfl
  | cons x rest ih =>
    obtain ⟨first, later⟩ := List.forall_mem_cons.mp each
    exact ⟨_, _, rfl, first, ih later⟩

theorem denotes_array_map {α : Type} {list : List α} {value : α → Value} {text : α → Text}
    (each : ∀ x ∈ list, (value x).Denotes (text x)) :
    (array (list.map value)).Denotes ('[' :: ([','].intercalate (list.map text) ++ [']'])) :=
  ⟨_, _, denotesItems_map each, body_intercalate _, rfl⟩

theorem denotes_string {s : Text} (plain : Plain s) : (string s).Denotes (Text.delimited '"' s) := by
  obtain ⟨pieces, text, decoded⟩ := exists_plain_pieces plain
  exact ⟨pieces, decoded, by rw [literal, ← text]⟩

theorem denotesMembers_nil : DenotesMembers [] [] := rfl

theorem denotesMembers_cons {key text : Text} {value : Value} {rest : List (Text × Value)} {later : List Text}
    (plain : Plain key) {space : Text} (blank : Spaces space) (denotes : value.Denotes text)
    (members : DenotesMembers rest later) :
    DenotesMembers ((key, value) :: rest) ((Text.delimited '"' key ++ ':' :: (space ++ text)) :: later) := by
  obtain ⟨pieces, inner, decoded⟩ := exists_plain_pieces plain
  refine ⟨pieces, [], space, text, later, ?_, decoded, List.forall_mem_nil _, blank, denotes, members⟩
  rw [literal, ← inner, List.nil_append]

/-! ### Ends -/

theorem getLast?_bracketed (opening closing : Char) (inner : Text) :
    (opening :: (inner ++ [closing])).getLast? = some closing := by
  rw [← List.cons_append, List.getLast?_concat]

/-- The text of a value that is no number is closed by a quote or a bracket. -/
theorem Denotes.closed {value : Value} {text : Text} (denotes : value.Denotes text) :
    (∃ s, value = string s ∧ text.getLast? = some '"') ∨
      (∃ n, value = number n ∧ text = Nat.toDigits 10 n) ∨
      (∃ items texts body, value = array items ∧ DenotesItems items texts ∧ Body texts body ∧
        text = '[' :: (body ++ [']'])) ∨
      ∃ members texts body, value = object members ∧ DenotesMembers members texts ∧ Body texts body ∧
        text = '\x7b' :: (body ++ ['\x7d']) := by
  cases value with
  | string s =>
    obtain ⟨pieces, -, rfl⟩ := denotes
    exact .inl ⟨s, rfl, getLast?_bracketed '"' '"' _⟩
  | number n => exact .inr (.inl ⟨n, rfl, denotes⟩)
  | array items =>
    obtain ⟨texts, body, each, joined, rfl⟩ := denotes
    exact .inr (.inr (.inl ⟨items, texts, body, rfl, each, joined, rfl⟩))
  | object members =>
    obtain ⟨texts, body, each, joined, rfl⟩ := denotes
    exact .inr (.inr (.inr ⟨members, texts, body, rfl, each, joined, rfl⟩))

theorem Denotes.last {value : Value} {text : Text} (denotes : value.Denotes text) :
    text ≠ [] ∧ ∀ c ∈ text.getLast?, c ∈ ['"', ']', '\x7d'] ∨ c.isDigit = true := by
  have bracket {c : Char} {text : Text} (ends : text.getLast? = some c) (closing : c ∈ ['"', ']', '\x7d']) :
      text ≠ [] ∧ ∀ c ∈ text.getLast?, c ∈ ['"', ']', '\x7d'] ∨ c.isDigit = true := by
    refine ⟨?_, fun d member => ?_⟩
    · rintro rfl
      cases ends
    · cases ends.symm.trans member
      exact .inl closing
  rcases denotes.closed with ⟨s, -, ends⟩ | ⟨n, -, rfl⟩ | ⟨_, _, body, -, -, -, rfl⟩ | ⟨_, _, body, -, -, -, rfl⟩
  · exact bracket ends (by decide)
  · refine ⟨Nat.toDigits_ne_nil, fun c member => .inr ?_⟩
    exact isDigit_of_mem_toDigits (List.mem_of_getLast? member)
  · exact bracket (getLast?_bracketed '[' ']' body) (by decide)
  · exact bracket (getLast?_bracketed '\x7b' '\x7d' body) (by decide)

theorem body_ends {texts : List Text} {body : Text} {c : Char} (joined : Body texts body) (ends : body.getLast? = some c)
    (visible : isSpace c = false) : ∃ item ∈ texts, item <:+ body := by
  rcases joined with ⟨-, spaces⟩ | ⟨before, text, behind, rfl, -, joined, spaces⟩
  · exact absurd (spaces c (List.mem_of_getLast? ends)) (by simp [visible])
  · have none : behind = [] := by
      by_contra some
      rw [List.getLast?_append_of_ne_nil _ some] at ends
      exact absurd (spaces c (List.mem_of_getLast? ends)) (by simp [visible])
    rw [none, List.append_nil]
    obtain ⟨item, member, suffix⟩ := joined.last_suffix
    exact ⟨item, member, suffix.trans (List.suffix_append _ _)⟩

theorem DenotesItems.denotes {items : List Value} {texts : List Text} (each : DenotesItems items texts) :
    ∀ text ∈ texts, ∃ value : Value, value.Denotes text := by
  induction items generalizing texts with
  | nil =>
    obtain rfl : texts = [] := each
    exact List.forall_mem_nil _
  | cons item rest ih =>
    obtain ⟨text, later, rfl, first, others⟩ := each
    exact List.forall_mem_cons.mpr ⟨⟨item, first⟩, ih others⟩

theorem DenotesMembers.denotes {members : List (Text × Value)} {texts : List Text} (each : DenotesMembers members texts) :
    ∀ member ∈ texts, ∃ (value : Value) (text : Text), value.Denotes text ∧ text <:+ member := by
  induction members generalizing texts with
  | nil =>
    obtain rfl : texts = [] := each
    exact List.forall_mem_nil _
  | cons member rest ih =>
    obtain ⟨pieces, before, behind, text, later, rfl, -, -, -, first, others⟩ := each
    refine List.forall_mem_cons.mpr ⟨⟨member.2, text, first, ?_⟩, ih others⟩
    exact (List.suffix_append _ _).trans
      ((List.suffix_cons _ _).trans ((List.suffix_append _ _).trans (List.suffix_append _ _)))

theorem not_denotes_bracket (value : Value) : ¬value.Denotes [']'] := by
  intro denotes
  rcases denotes.closed with ⟨s, -, closed⟩ | ⟨n, -, digits⟩ | ⟨_, _, body, -, -, -, same⟩ | ⟨_, _, body, -, -, -, same⟩
  · cases closed
  · have member : ']' ∈ Nat.toDigits 10 n := by
      rw [← digits]
      exact List.mem_singleton.mpr rfl
    exact not_mem_toDigits n (by decide) member
  · cases same
  · cases same

/-- Behind a colon stands the text of a value, not the end of an array. -/
theorem not_denotes_colon_bracket (value : Value) (front : Text) : ¬value.Denotes (front ++ [':', ']']) := by
  intro denotes
  have ends : (front ++ [':', ']']).getLast? = some ']' := by simp
  rcases denotes.closed with ⟨s, -, closed⟩ | ⟨n, -, digits⟩ | ⟨items, texts, body, -, each, joined, same⟩ |
    ⟨_, _, body, -, -, -, same⟩
  · cases ends.symm.trans closed
  · rw [digits] at ends
    exact not_mem_toDigits n (by decide) (List.mem_of_getLast? ends)
  · have colon : front ++ [':'] = '[' :: body := by
      have split : (front ++ [':']) ++ [']'] = ('[' :: body) ++ [']'] := by simpa using same
      exact List.append_cancel_right split
    have last : body.getLast? = some ':' := by
      have whole := congrArg List.getLast? colon
      rw [List.getLast?_concat] at whole
      cases body with
      | nil => cases whole
      | cons c rest => exact whole.symm
    -- The last item of the array would end with the colon.
    obtain ⟨item, member, suffix⟩ := body_ends joined last rfl
    obtain ⟨value, inner⟩ := each.denotes item member
    obtain ⟨some, closes⟩ := inner.last
    obtain ⟨rest, rfl⟩ := suffix
    rw [List.getLast?_append_of_ne_nil _ some] at last
    exact absurd (closes _ last) (by decide)
  · rw [same, getLast?_bracketed] at ends
    cases ends

/-- An object does not end with a key and the end of an array. -/
theorem not_denotes_colon_brackets (value : Value) (front : Text) : ¬value.Denotes (front ++ [':', ']', '\x7d']) := by
  intro denotes
  have ends : (front ++ [':', ']', '\x7d']).getLast? = some '\x7d' := by simp
  rcases denotes.closed with ⟨s, -, closed⟩ | ⟨n, -, digits⟩ | ⟨_, _, body, -, -, -, same⟩ |
    ⟨members, texts, body, -, each, joined, same⟩
  · cases ends.symm.trans closed
  · rw [digits] at ends
    exact not_mem_toDigits n (by decide) (List.mem_of_getLast? ends)
  · rw [same, getLast?_bracketed] at ends
    cases ends
  · have whole : front ++ [':', ']'] = '\x7b' :: body := by
      have split : (front ++ [':', ']']) ++ ['\x7d'] = ('\x7b' :: body) ++ ['\x7d'] := by simpa using same
      exact List.append_cancel_right split
    have last : body.getLast? = some ']' := by
      have whole := congrArg List.getLast? whole
      cases body with
      | nil => simp at whole
      | cons c rest => simpa using whole.symm
    obtain ⟨member, present, suffix⟩ := body_ends joined last rfl
    obtain ⟨inner, text, denotes, written⟩ := each.denotes member present
    have position : text <:+ front ++ [':', ']'] := by
      rw [whole]
      exact written.trans (suffix.trans (List.suffix_cons _ _))
    rcases List.suffix_or_suffix_of_suffix (List.suffix_append front [':', ']']) position with longer | shorter
    · obtain ⟨rest, rfl⟩ := longer
      exact not_denotes_colon_bracket inner rest denotes
    · rcases List.suffix_cons_iff.mp shorter with same | shorter
      · rw [same] at denotes
        exact not_denotes_colon_bracket inner [] denotes
      · rcases List.suffix_cons_iff.mp shorter with same | none
        · rw [same] at denotes
          exact not_denotes_bracket inner denotes
        · exact denotes.last.1 (List.suffix_nil.mp none)

end Value

end Omniprobe.Lib.Json
