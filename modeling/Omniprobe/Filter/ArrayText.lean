import Omniprobe.Filter.Config

/-!
# Texts that the array reader accepts

The reader takes more than JSON: commas may be missing or repeated, and a backslash may stand before
any character. The texts on which it returns true and on which it pushes a string are described
without it.
-/

namespace Omniprobe.LibraryFilter
open Lib

/-! ### Strings and what stands between them -/

/-- A character of a string, as it is or behind a backslash. -/
inductive Mark where
  | plain (c : Char) (valid : c ≠ '"' ∧ c ≠ '\\')
  | escaped (c : Char)

namespace Mark

def text : Mark → Text
  | plain c _ => [c]
  | escaped c => ['\\', c]

def value : Mark → Char
  | plain c _ => c
  | escaped c => c

end Mark

inductive Token where
  | blank (c : Char) (valid : Lib.isSpace c = true ∨ c = ',')
  | string (marks : List Mark)

namespace Token

def text : Token → Text
  | blank c _ => [c]
  | string marks => Text.delimited '"' (marks.flatMap Mark.text)

def value : Token → Option Text
  | blank _ _ => none
  | string marks => some (marks.map Mark.value)

end Token

def tokensText (tokens : List Token) : Text := tokens.flatMap Token.text

/-- Tokens up to a closing bracket. -/
def Closes (body : Text) : Prop := ∃ tokens rest, body = tokensText tokens ++ ']' :: rest

/-- The first thing that is not blank is a whole string. -/
def StartsWithString (body : Text) : Prop :=
  ∃ blanks marks rest, (∀ c ∈ blanks, Lib.isSpace c = true ∨ c = ',') ∧
    body = blanks ++ ((Token.string marks).text ++ rest)

/-! ### The reader on such texts -/

theorem parseString_marks (value : Text) (marks : List Mark) (rest : Text) :
    parseString value (marks.flatMap Mark.text ++ '"' :: rest) =
      ((value ++ marks.map Mark.value) :: (parseElements rest).1, (parseElements rest).2) := by
  induction marks generalizing value with
  | nil => rw [List.flatMap_nil, List.nil_append, List.map_nil, List.append_nil, parseString_quote]
  | cons mark marks ih =>
    rw [List.flatMap_cons, List.append_assoc, List.map_cons]
    cases mark with
    | plain c valid =>
      rw [Mark.text, List.singleton_append, parseString_other _ _ valid.1 valid.2, ih, List.append_assoc]
      rfl
    | escaped c =>
      rw [Mark.text, List.cons_append, List.singleton_append, parseString_escape, ih, List.append_assoc]
      rfl

theorem parseElements_string (marks : List Mark) (rest : Text) :
    parseElements ((Token.string marks).text ++ rest) =
      (marks.map Mark.value :: (parseElements rest).1, (parseElements rest).2) := by
  have shape : (Token.string marks).text ++ rest = '"' :: (marks.flatMap Mark.text ++ '"' :: rest) := by
    simp [Token.text, Text.delimited]
  rw [shape, parseElements, if_neg (by decide), if_neg (by decide), if_neg (by decide), if_pos rfl, parseString_marks,
    List.nil_append]

theorem parseElements_blank {c : Char} (valid : Lib.isSpace c = true ∨ c = ',') (rest : Text) :
    parseElements (c :: rest) = parseElements rest := by
  rw [parseElements]
  rcases valid with space | rfl
  · rw [if_pos space]
  · rw [if_neg (by decide), if_neg (by decide), if_pos rfl]

theorem parseElements_bracket (rest : Text) : parseElements (']' :: rest) = ([], true) := by
  rw [parseElements, if_neg (by decide), if_pos rfl]

theorem parseElements_tokens (tokens : List Token) (rest : Text) :
    parseElements (tokensText tokens ++ rest) =
      (tokens.filterMap Token.value ++ (parseElements rest).1, (parseElements rest).2) := by
  induction tokens with
  | nil => rfl
  | cons token tokens ih =>
    rw [tokensText, List.flatMap_cons, List.append_assoc, ← tokensText]
    cases token with
    | blank c valid =>
      rw [Token.text, List.singleton_append, parseElements_blank valid, ih]
      rfl
    | string marks =>
      rw [parseElements_string, ih]
      rfl

/-! ### The reader on any text -/

/-- A string has a closing quote, or the reader stops in it. -/
theorem parseString_cases (s : Text) :
    (∃ (marks : List Mark) (rest : Text), s = marks.flatMap Mark.text ++ '"' :: rest) ∨
      ∀ value, parseString value s = ([], false) := by
  match s with
  | [] => exact .inr fun value => rfl
  | c :: s =>
    by_cases quote : c = '"'
    · exact .inl ⟨[], s, by rw [quote]; rfl⟩
    by_cases backslash : c = '\\'
    · subst backslash
      match s with
      | [] => exact .inr fun value => rfl
      | d :: s =>
        rcases parseString_cases s with ⟨marks, rest, rfl⟩ | stops
        · exact .inl ⟨.escaped d :: marks, rest, rfl⟩
        · exact .inr fun value => by rw [parseString_escape, stops]
    · rcases parseString_cases s with ⟨marks, rest, rfl⟩ | stops
      · exact .inl ⟨.plain c ⟨quote, backslash⟩ :: marks, rest, rfl⟩
      · exact .inr fun value => by rw [parseString_other _ _ quote backslash, stops]

/-- The reader comes to a closing bracket, or stops behind some tokens. -/
theorem parseElements_cases (s : Text) :
    ∃ tokens rest, s = tokensText tokens ++ rest ∧
      ((∃ behind, rest = ']' :: behind) ∨ parseElements rest = ([], false)) := by
  match s with
  | [] => exact ⟨[], [], rfl, .inr rfl⟩
  | c :: s =>
    by_cases blank : Lib.isSpace c = true ∨ c = ','
    · obtain ⟨tokens, rest, rfl, ends⟩ := parseElements_cases s
      exact ⟨.blank c blank :: tokens, rest, rfl, ends⟩
    by_cases bracket : c = ']'
    · exact ⟨[], c :: s, rfl, .inl ⟨s, by rw [bracket]⟩⟩
    obtain ⟨visible, other⟩ := not_or.mp blank
    by_cases quote : c = '"'
    · subst quote
      rcases parseString_cases s with ⟨marks, rest, rfl⟩ | stops
      · obtain ⟨tokens, rest, rfl, ends⟩ := parseElements_cases rest
        refine ⟨.string marks :: tokens, rest, ?_, ends⟩
        simp [tokensText, Token.text, Text.delimited]
      · refine ⟨[], '"' :: s, rfl, .inr ?_⟩
        rw [parseElements, if_neg visible, if_neg bracket, if_neg other, if_pos rfl, stops]
    · refine ⟨[], c :: s, rfl, .inr ?_⟩
      rw [parseElements, if_neg visible, if_neg bracket, if_neg other, if_neg quote]
termination_by s.length

theorem parseElements_closed_iff (body : Text) : (parseElements body).2 = true ↔ Closes body := by
  constructor
  · intro closed
    obtain ⟨tokens, rest, rfl, ⟨behind, rfl⟩ | stops⟩ := parseElements_cases body
    · exact ⟨tokens, behind, rfl⟩
    · rw [parseElements_tokens, stops] at closed
      cases closed
  · rintro ⟨tokens, rest, rfl⟩
    rw [parseElements_tokens, parseElements_bracket]

theorem startsWithString_of_tokens {tokens : List Token} (some : tokens.filterMap Token.value ≠ []) (rest : Text) :
    StartsWithString (tokensText tokens ++ rest) := by
  induction tokens with
  | nil => exact absurd rfl some
  | cons token tokens ih =>
    cases token with
    | blank c valid =>
      obtain ⟨blanks, marks, behind, blank, split⟩ := ih some
      refine ⟨c :: blanks, marks, behind, List.forall_mem_cons.mpr ⟨valid, blank⟩, ?_⟩
      rw [List.cons_append, ← split]
      rfl
    | string marks =>
      refine ⟨[], marks, tokensText tokens ++ rest, List.forall_mem_nil _, ?_⟩
      rw [tokensText, List.flatMap_cons, List.append_assoc]
      rfl

theorem parseElements_pushes_iff (body : Text) : (parseElements body).1 ≠ [] ↔ StartsWithString body := by
  constructor
  · intro pushes
    obtain ⟨tokens, rest, rfl, ends⟩ := parseElements_cases body
    have nothing : (parseElements rest).1 = [] := by
      rcases ends with ⟨behind, rfl⟩ | stops
      · rw [parseElements_bracket]
      · rw [stops]
    rw [parseElements_tokens, nothing, List.append_nil] at pushes
    exact startsWithString_of_tokens pushes rest
  · rintro ⟨blanks, marks, rest, blank, rfl⟩
    induction blanks with
    | nil =>
      rw [List.nil_append, parseElements_string]
      exact List.cons_ne_nil _ _
    | cons c blanks ih =>
      obtain ⟨valid, blank⟩ := List.forall_mem_cons.mp blank
      rw [List.cons_append, parseElements_blank valid]
      exact ih blank

/-! ### The array of a key -/

/-- Behind the first occurrence of the quoted key there is a colon, and behind that an array begins. -/
def ArrayAt (key : Key) (json body : Text) : Prop :=
  ∃ before between spaces, json = before ++ (quoted key ++ (between ++ ':' :: (spaces ++ '[' :: body))) ∧
    (∀ before' rest', json = before' ++ (quoted key ++ rest') → before.length ≤ before'.length) ∧ ':' ∉ between ∧
      ∀ c ∈ spaces, Lib.isSpace c = true

/-- The key does not occur, or its array is closed. -/
def Readable (key : Key) (json : Text) : Prop := ¬quoted key <:+: json ∨ ∃ body, ArrayAt key json body ∧ Closes body

/-- The key's array begins with a whole string. -/
def HasString (key : Key) (json : Text) : Prop := ∃ body, ArrayAt key json body ∧ StartsWithString body

section
variable {key : Key} {json body : Text}

theorem ArrayAt.infix (array : ArrayAt key json body) : quoted key <:+: json := by
  obtain ⟨before, between, spaces, split, -⟩ := array
  exact ⟨before, between ++ ':' :: (spaces ++ '[' :: body), by rw [split, List.append_assoc]⟩

theorem ArrayAt.findAndParseArray (array : ArrayAt key json body) :
    findAndParseArray json key.name = parseElements body := by
  obtain ⟨before, between, spaces, split, first, colon, blank⟩ := array
  have found : Text.after (Text.delimited '"' key.name) json = some (between ++ ':' :: (spaces ++ '[' :: body)) :=
    Text.after_eq_some_iff.mpr ⟨before, split, first⟩
  have passed : ∀ c ∈ between, (c != ':') = true := fun c member => by simpa using ne_of_mem_of_not_mem member colon
  have value : (between ++ ':' :: (spaces ++ '[' :: body)).dropWhile (· != ':') = ':' :: (spaces ++ '[' :: body) := by
    rw [List.dropWhile_append_of_pos passed, List.dropWhile_cons_of_neg (by decide)]
  have opening : (spaces ++ '[' :: body).dropWhile Lib.isSpace = '[' :: body := by
    rw [List.dropWhile_append_of_pos blank, List.dropWhile_cons_of_neg (by decide)]
  rw [LibraryFilter.findAndParseArray, found]
  dsimp only
  rw [value]
  dsimp only
  rw [parseStringArray, opening]
  rfl

theorem findAndParseArray_cases (key : Key) (json : Text) :
    (¬quoted key <:+: json ∧ findAndParseArray json key.name = ([], true)) ∨ (∃ body, ArrayAt key json body) ∨
      quoted key <:+: json ∧ findAndParseArray json key.name = ([], false) := by
  cases found : Text.after (quoted key) json with
  | none =>
    refine .inl ⟨Text.after_eq_none_iff.mp found, ?_⟩
    rw [LibraryFilter.findAndParseArray, ← quoted, found]
  | some rest =>
    obtain ⟨before, split, first⟩ := Text.after_eq_some_iff.mp found
    have within : quoted key <:+: json := ⟨before, rest, by rw [split, List.append_assoc]⟩
    cases value : rest.dropWhile (· != ':') with
    | nil =>
      refine .inr (.inr ⟨within, ?_⟩)
      rw [LibraryFilter.findAndParseArray, ← quoted, found]
      dsimp only
      rw [value]
    | cons c behind =>
      have kept := List.head?_dropWhile_not (· != ':') rest
      rw [value] at kept
      obtain rfl : c = ':' := by simpa using kept
      have whole : rest = rest.takeWhile (· != ':') ++ ':' :: behind := by
        rw [← value, List.takeWhile_append_dropWhile]
      have colon : ':' ∉ rest.takeWhile (· != ':') := fun member => by simpa using List.mem_takeWhile_imp member
      by_cases opens : ∃ body, behind.dropWhile Lib.isSpace = '[' :: body
      · obtain ⟨body, opens⟩ := opens
        refine .inr (.inl ⟨body, before, _, behind.takeWhile Lib.isSpace, ?_, first, colon,
          fun c member => List.mem_takeWhile_imp member⟩)
        rw [← opens, List.takeWhile_append_dropWhile, ← whole, split]
      · refine .inr (.inr ⟨within, ?_⟩)
        rw [LibraryFilter.findAndParseArray, ← quoted, found]
        dsimp only
        rw [value]
        dsimp only
        rw [parseStringArray]
        split
        · rename_i body bracket
          exact absurd ⟨body, bracket⟩ opens
        · rfl

theorem findAndParseArray_readable_iff (key : Key) (json : Text) :
    (findAndParseArray json key.name).2 = true ↔ Readable key json := by
  rcases findAndParseArray_cases key json with ⟨absent, found⟩ | ⟨body, array⟩ | ⟨within, found⟩
  · exact iff_of_true (by rw [found]) (.inl absent)
  · constructor
    · intro closed
      rw [array.findAndParseArray, parseElements_closed_iff] at closed
      exact .inr ⟨body, array, closed⟩
    · rintro (absent | ⟨body', array', closes⟩)
      · exact absurd array.infix absent
      · rw [array'.findAndParseArray]
        exact (parseElements_closed_iff body').mpr closes
  · constructor
    · intro closed
      rw [found] at closed
      cases closed
    · rintro (absent | ⟨body', array', closes⟩)
      · exact absurd within absent
      · rw [array'.findAndParseArray]
        exact (parseElements_closed_iff body').mpr closes

theorem findAndParseArray_nil_iff (key : Key) (json : Text) :
    (findAndParseArray json key.name).1 = [] ↔ ¬HasString key json := by
  have pushes (has : HasString key json) : (findAndParseArray json key.name).1 ≠ [] := by
    obtain ⟨body, array, starts⟩ := has
    rw [array.findAndParseArray]
    exact (parseElements_pushes_iff body).mpr starts
  refine ⟨fun nothing has => pushes has nothing, fun none => ?_⟩
  rcases findAndParseArray_cases key json with ⟨-, found⟩ | ⟨body, array⟩ | ⟨-, found⟩
  · rw [found]
  · by_contra some
    rw [array.findAndParseArray] at some
    exact none ⟨body, array, (parseElements_pushes_iff body).mp some⟩
  · rw [found]

end

end Omniprobe.LibraryFilter
