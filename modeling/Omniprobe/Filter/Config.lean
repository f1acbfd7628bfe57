import Omniprobe.Filter.Glob
import Omniprobe.Lib.JsonCompact

/-!
# The filter configuration

`loadConfig` reads three arrays of strings out of the text of the configuration file. It looks for a
key as its name in quotes, wherever that stands, and undoes an escape by dropping the backslash.
-/

namespace Omniprobe.LibraryFilter
open Lib Json

/-! ### The reader -/

mutual

/-- The loop of `parseStringArray`: the strings it pushes and what it returns. -/
def parseElements : Text → List Text × Bool
  | [] => ([], false)
  | c :: rest =>
    if Lib.isSpace c then parseElements rest
    else if c = ']' then ([], true)
    else if c = ',' then parseElements rest
    else if c = '"' then parseString [] rest
    else ([], false)

/-- Its innerText loop, from behind the opening quote on. -/
def parseString (value : Text) : Text → List Text × Bool
  | [] => ([], false)
  | c :: rest =>
    if c = '"' then
      let (values, closed) := parseElements rest
      (value :: values, closed)
    else if c = '\\' then
      match rest with
      | [] => ([], false)
      | d :: rest => parseString (value ++ [d]) rest
    else parseString (value ++ [c]) rest

end

def parseStringArray (json : Text) : List Text × Bool :=
  match json.dropWhile Lib.isSpace with
  | '[' :: rest => parseElements rest
  | _ => ([], false)

def findAndParseArray (json key : Text) : List Text × Bool :=
  match Text.after (Text.delimited '"' key) json with
  | none => ([], true)
  | some rest =>
    match rest.dropWhile (· != ':') with
    | [] => ([], false)
    | _ :: rest => parseStringArray rest

/-- What `loadConfig` sets, with the patterns that it compiles. -/
structure Config where
  includePatterns : List Text := []
  includeWithDepsPatterns : List Text := []
  excludePatterns : List Text := []
  filter : LibraryFilter := ⟨false, []⟩

/-- The loop over the exclude patterns: the expressions it pushes and whether all were accepted. It is assumed that none is
too large for `std::regex`. -/
def compileExcludes : List Text → List (Text → Bool) × Bool
  | [] => ([], true)
  | pattern :: rest =>
    match globToRegex pattern with
    | none => ([], false)
    | some regex =>
      let (regexes, compiled) := compileExcludes rest
      (regex :: regexes, compiled)

/-- The filter's state after the call and what it returns. `none` is a file that cannot be opened. -/
def loadConfig : Option Text → Config × Bool
  | none => ({}, false)
  | some json =>
    match findAndParseArray json "include".toList with
    | (includePatterns, false) => ({ includePatterns }, false)
    | (includePatterns, true) =>
      match findAndParseArray json "include_with_deps".toList with
      | (includeWithDepsPatterns, false) => ({ includePatterns, includeWithDepsPatterns }, false)
      | (includeWithDepsPatterns, true) =>
        match findAndParseArray json "exclude".toList with
        | (excludePatterns, false) => ({ includePatterns, includeWithDepsPatterns, excludePatterns }, false)
        | (excludePatterns, true) =>
          let (regexes, compiled) := compileExcludes excludePatterns
          ({ includePatterns, includeWithDepsPatterns, excludePatterns, filter := ⟨compiled, regexes⟩ }, compiled)

/-! ### Configurations as JSON -/

inductive Key where
  | included | includedWithDeps | excluded
  deriving DecidableEq, Repr

def Key.name : Key → Text
  | included => "include".toList
  | includedWithDeps => "include_with_deps".toList
  | excluded => "exclude".toList

/-- A member of the configuration object. Its key may be spelled with escapes, too. -/
structure Member where
  key : Key
  spelling : List Piece
  spelled : decode spelling = key.name
  strings : List (List Piece)

def MemberText (member : Member) (text : Text) : Prop :=
  ∃ before behind array, text = literal member.spelling ++ (before ++ ':' :: (behind ++ array)) ∧
    Spaces before ∧ Spaces behind ∧ ArrayText (member.strings.map literal) array

/-- The text of a configuration: an object with each of the three keys at most once. -/
def ConfigText (members : List Member) (text : Text) : Prop :=
  (members.map Member.key).Nodup ∧ ∃ texts, List.Forall₂ MemberText members texts ∧ ObjectDocument texts text

/-- The strings that the document gives for a key. -/
def strings (key : Key) (members : List Member) : List Text :=
  ((members.find? fun member => member.key = key).map fun member => member.strings.map decode).getD []

/-- The configuration that the document means. -/
def configOf (members : List Member) : Config where
  includePatterns := strings .included members
  includeWithDepsPatterns := strings .includedWithDeps members
  excludePatterns := strings .excluded members
  filter := ⟨true, (strings .excluded members).filterMap globToRegex⟩

theorem compileExcludes_eq (patterns : List Text) :
    compileExcludes patterns = (patterns.filterMap globToRegex, true) := by
  induction patterns with
  | nil => rfl
  | cons pattern rest ih =>
    rw [compileExcludes, globToRegex_eq, List.filterMap_cons, globToRegex_eq, ih]

/-! ### Reading an array -/

/-- What is left of a piece when its backslashes are dropped. -/
def stripPiece : Piece → Text
  | .plain c _ => [c]
  | .escape code => [code.letter]
  | .unicode unit _ => 'u' :: unit.digits
  | .pair high low _ => 'u' :: (high.digits ++ 'u' :: low.digits)

def strip (pieces : List Piece) : Text := pieces.flatMap stripPiece

theorem isSpace_of_json {c : Char} (space : Json.isSpace c = true) : Lib.isSpace c = true := by
  simp only [Json.isSpace, Bool.or_eq_true, beq_iff_eq] at space
  rcases space with ((rfl | rfl) | rfl) | rfl <;> decide

theorem parseElements_spaces {spaces : Text} (blank : Spaces spaces) (rest : Text) :
    parseElements (spaces ++ rest) = parseElements rest := by
  induction spaces with
  | nil => rfl
  | cons c spaces ih =>
    rw [List.cons_append, parseElements, if_pos (isSpace_of_json (blank c List.mem_cons_self))]
    exact ih fun d member => blank d (List.mem_cons_of_mem c member)

theorem parseString_other {c : Char} (value rest : Text) (quote : c ≠ '"') (escape : c ≠ '\\') :
    parseString value (c :: rest) = parseString (value ++ [c]) rest := by
  rw [parseString.eq_def]
  exact (if_neg quote).trans (if_neg escape)

theorem parseString_quote (value rest : Text) :
    parseString value ('"' :: rest) = (value :: (parseElements rest).1, (parseElements rest).2) := by
  rw [parseString.eq_def]
  exact if_pos rfl

theorem parseString_plain {chars : Text} (value rest : Text) (quotes : '"' ∉ chars) (escapes : '\\' ∉ chars) :
    parseString value (chars ++ rest) = parseString (value ++ chars) rest := by
  induction chars generalizing value with
  | nil => rw [List.nil_append, List.append_nil]
  | cons c chars ih =>
    rw [List.mem_cons, not_or] at quotes escapes
    rw [List.cons_append, parseString_other _ _ (Ne.symm quotes.1) (Ne.symm escapes.1), ih _ quotes.2 escapes.2,
      List.append_assoc, List.singleton_append]

theorem parseString_escape (value : Text) (c : Char) (rest : Text) :
    parseString value ('\\' :: c :: rest) = parseString (value ++ [c]) rest := by
  rw [parseString, if_neg (by decide), if_pos rfl]

theorem parseString_unit (value : Text) (unit : CodeUnit) (rest : Text) :
    parseString value ('\\' :: 'u' :: (unit.digits ++ rest)) = parseString (value ++ 'u' :: unit.digits) rest := by
  rw [parseString_escape, parseString_plain _ _ (not_mem_digits rfl unit) (not_mem_digits rfl unit), List.append_assoc,
    List.singleton_append]

theorem parseString_piece (value : Text) (piece : Piece) (rest : Text) :
    parseString value (piece.text ++ rest) = parseString (value ++ stripPiece piece) rest := by
  cases piece with
  | plain c valid =>
    refine parseString_plain value rest ?_ ?_
    · rw [Piece.text, List.mem_singleton]
      exact Ne.symm valid.1
    · rw [Piece.text, List.mem_singleton]
      exact Ne.symm valid.2.1
  | escape code => exact parseString_escape value code.letter rest
  | unicode unit valid => exact parseString_unit value unit rest
  | pair high low valid =>
    rw [Piece.text, List.cons_append, List.cons_append, List.append_assoc, parseString_unit, List.cons_append,
      List.cons_append, parseString_unit, stripPiece, List.append_assoc, List.cons_append]

theorem parseString_inner (value : Text) (pieces : List Piece) (rest : Text) :
    parseString value (innerText pieces ++ '"' :: rest) =
      ((value ++ strip pieces) :: (parseElements rest).1, (parseElements rest).2) := by
  induction pieces generalizing value with
  | nil =>
    rw [innerText, strip, List.flatMap_nil, List.flatMap_nil, List.append_nil, List.nil_append, parseString_quote]
  | cons piece pieces ih =>
    rw [innerText_cons, List.append_assoc, parseString_piece, ih, List.append_assoc, strip, strip, List.flatMap_cons]

theorem parseElements_literal (pieces : List Piece) (rest : Text) :
    parseElements (literal pieces ++ rest) =
      (strip pieces :: (parseElements rest).1, (parseElements rest).2) := by
  have shape : literal pieces ++ rest = '"' :: (innerText pieces ++ '"' :: rest) := by
    simp [literal, Text.delimited]
  rw [shape, parseElements, if_neg (by decide), if_neg (by decide), if_neg (by decide), if_pos rfl, parseString_inner,
    List.nil_append]

theorem parseElements_joined {items : List (List Piece)} {text : Text}
    (joined : Joined Json.isSpace ',' (items.map literal) text) (rest : Text) :
    parseElements (text ++ rest) = (items.map strip ++ (parseElements rest).1, (parseElements rest).2) := by
  generalize texts : items.map literal = list at joined
  induction joined generalizing items with
  | one item =>
    obtain ⟨pieces, others, rfl, rfl, none⟩ := List.map_eq_cons_iff.mp texts
    obtain rfl := List.map_eq_nil_iff.mp none
    exact parseElements_literal pieces rest
  | more item before after leading trailing joined ih =>
    obtain ⟨pieces, others, rfl, rfl, others⟩ := List.map_eq_cons_iff.mp texts
    rw [List.append_assoc, List.append_assoc, parseElements_literal, parseElements_spaces leading, List.cons_append,
      parseElements, if_neg (by decide), if_neg (by decide), if_pos rfl, List.append_assoc,
      parseElements_spaces trailing, ih others, List.map_cons, List.cons_append]

theorem parseElements_body {items : List (List Piece)} {body : Text} (array : Body (items.map literal) body)
    (rest : Text) : parseElements (body ++ ']' :: rest) = (items.map strip, true) := by
  have closing : parseElements (']' :: rest) = ([], true) := by
    rw [parseElements, if_neg (by decide), if_pos rfl]
  rcases array with ⟨none, spaces⟩ | ⟨before, text, behind, rfl, leading, joined, trailing⟩
  · obtain rfl := List.map_eq_nil_iff.mp none
    rw [parseElements_spaces spaces, closing]
    rfl
  · rw [List.append_assoc, List.append_assoc, parseElements_spaces leading, parseElements_joined joined,
      parseElements_spaces trailing, closing, List.append_nil]

theorem parseStringArray_array {items : List (List Piece)} {before array : Text} (leading : Spaces before)
    (written : ArrayText (items.map literal) array) (rest : Text) :
    parseStringArray (before ++ (array ++ rest)) = (items.map strip, true) := by
  obtain ⟨body, rfl, shape⟩ := written.body
  have skipped : (before ++ ('[' :: (body ++ [']']) ++ rest)).dropWhile Lib.isSpace = '[' :: (body ++ ']' :: rest) := by
    rw [List.dropWhile_append_of_pos fun c member => isSpace_of_json (leading c member), List.cons_append,
      List.dropWhile_cons_of_neg (by decide), List.append_assoc, List.singleton_append]
  rw [parseStringArray, skipped]
  exact parseElements_body shape rest

/-! ### Finding a key -/

def quoted (key : Key) : Text := Text.delimited '"' key.name

theorem Key.quote_not_mem (key : Key) : '"' ∉ key.name := by cases key <;> decide

theorem Key.backslash_not_mem (key : Key) : '\\' ∉ key.name := by cases key <;> decide

theorem Key.name_inj {key other : Key} (same : key.name = other.name) : key = other := by
  cases key <;> cases other <;> first | rfl | exact absurd same (by decide)

/-- Whether the member's key is the given one, spelled without escapes. -/
def Member.opens (key : Key) (member : Member) : Bool := innerText member.spelling = key.name

theorem Member.key_of_opens {key : Key} {member : Member} (opens : member.opens key = true) : member.key = key := by
  have same : innerText member.spelling = key.name := of_decide_eq_true opens
  apply Key.name_inj
  rw [← member.spelled, decode_of_plain (same ▸ key.backslash_not_mem), same]

/-- A string of the member has the quoted key in its text. -/
def Member.Hides (key : Key) (member : Member) : Prop := ∃ string ∈ member.strings, quoted key <:+: literal string

instance (key : Key) (member : Member) : Decidable (member.Hides key) :=
  inferInstanceAs (Decidable (∃ string ∈ member.strings, quoted key <:+: literal string))

/-- What follows is not the start of a word. -/
def EndsWord (rest : Text) : Prop := ∀ c ∈ rest.head?, c.isAlpha = false

theorem endsWord_of_spaces {spaces : Text} {c : Char} (blank : Spaces spaces) (rest : Text)
    (other : c.isAlpha = false) : EndsWord (spaces ++ c :: rest) := by
  cases spaces with
  | nil =>
    rintro d ⟨⟩
    exact other
  | cons e spaces =>
    rintro d ⟨⟩
    have space := blank e List.mem_cons_self
    simp only [Json.isSpace, Bool.or_eq_true, beq_iff_eq] at space
    rcases space with ((rfl | rfl) | rfl) | rfl <;> decide

section
variable {key : Key} {rest : Text}

theorem not_prefix_of_endsWord (ends : EndsWord rest) : ¬key.name ++ ['"'] <+: rest := by
  intro starts
  cases rest with
  | nil => cases key <;> exact absurd (List.prefix_nil.mp starts) (by decide)
  | cons c rest =>
    have letter := ends c rfl
    have same : (key.name ++ ['"']).head? = some c := by
      obtain ⟨tail, split⟩ := starts
      cases key <;> exact congrArg List.head? split
    cases key <;> obtain rfl := Option.some.inj same <;> exact absurd letter (by decide)

theorem after_literal {pieces : List Piece} (absent : ¬quoted key <:+: literal pieces) (ends : EndsWord rest) :
    Text.after (quoted key) (literal pieces ++ rest) = Text.after (quoted key) rest := by
  have shape : literal pieces ++ rest = ('"' :: innerText pieces) ++ '"' :: rest := by
    simp [literal, Text.delimited]
  rw [shape]
  exact Text.after_closed key.quote_not_mem absent (not_prefix_of_endsWord ends)

theorem after_spaces {spaces : Text} (blank : Spaces spaces) :
    Text.after (quoted key) (spaces ++ rest) = Text.after (quoted key) rest := by
  refine Text.after_foreign rest fun member => ?_
  exact absurd (blank '"' member) (by decide)

theorem after_other {c : Char} (other : c ≠ '"') :
    Text.after (quoted key) (c :: rest) = Text.after (quoted key) rest := by
  have foreign : '"' ∉ [c] := by simpa using Ne.symm other
  exact Text.after_foreign rest foreign

theorem after_joined {items : List (List Piece)} {text : Text}
    (joined : Joined Json.isSpace ',' (items.map literal) text) (absent : ∀ item ∈ items, ¬quoted key <:+: literal item)
    (ends : EndsWord rest) : Text.after (quoted key) (text ++ rest) = Text.after (quoted key) rest := by
  generalize texts : items.map literal = list at joined
  induction joined generalizing items with
  | one item =>
    obtain ⟨pieces, others, rfl, rfl, -⟩ := List.map_eq_cons_iff.mp texts
    exact after_literal (absent pieces List.mem_cons_self) ends
  | more item before after leading trailing joined ih =>
    obtain ⟨pieces, others, rfl, rfl, others⟩ := List.map_eq_cons_iff.mp texts
    rw [List.append_assoc, List.append_assoc, List.cons_append,
      after_literal (absent pieces List.mem_cons_self) (endsWord_of_spaces leading _ (by decide)),
      after_spaces leading, after_other (by decide), List.append_assoc, after_spaces trailing]
    exact ih (fun item member => absent item (List.mem_cons_of_mem pieces member)) others

theorem after_array {items : List (List Piece)} {array : Text} (written : ArrayText (items.map literal) array)
    (absent : ∀ item ∈ items, ¬quoted key <:+: literal item) :
    Text.after (quoted key) (array ++ rest) = Text.after (quoted key) rest := by
  obtain ⟨body, rfl, shape⟩ := written.body
  have closing : Text.after (quoted key) (']' :: rest) = Text.after (quoted key) rest := after_other (by decide)
  rw [List.cons_append, after_other (by decide), List.append_assoc, List.singleton_append]
  rcases shape with ⟨-, spaces⟩ | ⟨before, text, behind, rfl, leading, joined, trailing⟩
  · rw [after_spaces spaces, closing]
  · rw [List.append_assoc, List.append_assoc, after_spaces leading,
      after_joined joined absent (endsWord_of_spaces trailing _ (by decide)), after_spaces trailing, closing]

/-- The search passes over a member with another key, unless one of its strings hides the key. -/
theorem after_member {member : Member} {text : Text} (written : MemberText member text)
    (other : member.opens key = false) (plain : ¬member.Hides key) :
    Text.after (quoted key) (text ++ rest) = Text.after (quoted key) rest := by
  obtain ⟨before, behind, array, rfl, leading, trailing, array'⟩ := written
  have named : ¬quoted key <:+: literal member.spelling := by
    intro within
    have outside : '"' ∉ innerText member.spelling := by
      intro present
      have inName := quote_mem_innerText present
      rw [member.spelled] at inName
      exact member.key.quote_not_mem inName
    have same := Text.eq_of_delimited_infix outside within
    simp [Member.opens, same] at other
  rw [List.append_assoc, List.append_assoc, List.cons_append,
    after_literal named (endsWord_of_spaces leading _ (by decide)), after_spaces leading, after_other (by decide),
    List.append_assoc, after_spaces trailing]
  exact after_array array' fun item member within => plain ⟨item, member, within⟩

/-- Where a search among the members has to end: right behind the first one that it can find. -/
def EndsAt (key : Key) (members : List Member) (found : Option Text) : Prop :=
  match members.find? (Member.opens key) with
  | none => found = none
  | some member => ∃ before behind array rest, found = some (before ++ ':' :: (behind ++ (array ++ rest))) ∧
    Spaces before ∧ Spaces behind ∧ ArrayText (member.strings.map literal) array

/-- No string hides the key, up to the member that opens it. -/
def Visible (key : Key) (members : List Member) : Prop :=
  ∀ member ∈ members.takeWhile fun member => !member.opens key, ¬member.Hides key

instance (key : Key) (members : List Member) : Decidable (Visible key members) :=
  inferInstanceAs (Decidable (∀ member ∈ members.takeWhile fun member => !member.opens key, ¬member.Hides key))

theorem endsAt_of_opens {member : Member} {members : List Member} {text : Text} (written : MemberText member text)
    (opens : member.opens key = true) :
    EndsAt key (member :: members) (Text.after (quoted key) (text ++ rest)) := by
  obtain ⟨before, behind, array, rfl, leading, trailing, written⟩ := written
  have same : literal member.spelling = quoted key := by
    rw [literal, of_decide_eq_true opens]
    rfl
  rw [EndsAt, List.find?_cons_of_pos opens]
  refine ⟨before, behind, array, rest, ?_, leading, trailing, written⟩
  rw [same, List.append_assoc, Text.after_append, List.append_assoc, List.cons_append, List.append_assoc]

theorem endsAt_of_other {member : Member} {members : List Member} {found : Option Text}
    (other : member.opens key = false) (later : EndsAt key members found) : EndsAt key (member :: members) found := by
  rw [EndsAt, List.find?_cons_of_neg (by simp [other])]
  exact later

theorem Visible.head {member : Member} {members : List Member} (visible : Visible key (member :: members))
    (other : member.opens key = false) : ¬member.Hides key ∧ Visible key members := by
  rw [Visible, List.takeWhile_cons_of_pos (by simp [other])] at visible
  exact ⟨visible member List.mem_cons_self, fun later within => visible later (List.mem_cons_of_mem member within)⟩

theorem endsAt_members {members : List Member} {texts : List Text} {text : Text}
    (joined : Joined Json.isSpace ',' texts text) (written : List.Forall₂ MemberText members texts)
    (visible : Visible key members) (plain : '"' ∉ rest) :
    EndsAt key members (Text.after (quoted key) (text ++ rest)) := by
  have nothing : Text.after (quoted key) rest = none := by
    rw [← List.append_nil rest, quoted, Text.after_foreign [] plain]
    rfl
  induction joined generalizing members with
  | one item =>
    obtain ⟨member, _, single, none, rfl⟩ := List.forall₂_cons_right_iff.mp written
    obtain rfl := List.forall₂_nil_right_iff.mp none
    cases opens : member.opens key with
    | true => exact endsAt_of_opens single opens
    | false =>
      rw [after_member single opens (visible.head opens).1, nothing]
      exact endsAt_of_other opens rfl
  | more item before after leading trailing joined ih =>
    obtain ⟨member, others, first, others', rfl⟩ := List.forall₂_cons_right_iff.mp written
    rw [List.append_assoc, List.append_assoc, List.cons_append]
    cases opens : member.opens key with
    | true => exact endsAt_of_opens first opens
    | false =>
      obtain ⟨plain, visible⟩ := visible.head opens
      rw [after_member first opens plain, after_spaces leading, after_other (by decide), List.append_assoc,
        after_spaces trailing]
      exact endsAt_of_other opens (ih others' visible)

theorem endsAt_document {members : List Member} {json : Text} (written : ConfigText members json)
    (visible : Visible key members) : EndsAt key members (Text.after (quoted key) json) := by
  obtain ⟨-, texts, members', before, body, behind, rfl, leading, shape, trailing⟩ := written
  have plain : ∀ spaces, Spaces spaces → '"' ∉ spaces ++ '\x7d' :: behind := by
    intro spaces blank present
    rcases List.mem_append.mp present with inside | inside
    · exact absurd (blank '"' inside) (by decide)
    rcases List.mem_cons.mp inside with same | inside
    · exact absurd same (by decide)
    · exact absurd (trailing '"' inside) (by decide)
  rw [after_spaces leading, after_other (by decide)]
  rcases shape with ⟨rfl, spaces⟩ | ⟨before, text, behind, rfl, leading, joined, blank⟩
  · obtain rfl := List.forall₂_nil_right_iff.mp members'
    rw [← List.append_nil (_ ++ _), quoted, Text.after_foreign [] (plain body spaces)]
    rfl
  · rw [List.append_assoc, List.append_assoc, after_spaces leading]
    exact endsAt_members joined members' visible (plain behind blank)

/-- The strings of the first member that opens the key. -/
def opened (key : Key) (members : List Member) : List (List Piece) :=
  ((members.find? (Member.opens key)).map Member.strings).getD []

/-- From the first occurrence of the quoted key, the next colon stands before the array of the key; or the
quoted key does not occur and has no strings. -/
def Reaches (key : Key) (members : List Member) (json : Text) : Prop :=
  Text.after (quoted key) json = none ∧ opened key members = [] ∨
  ∃ found behind array rest, Text.after (quoted key) json = some found ∧
    found.dropWhile (· != ':') = ':' :: (behind ++ (array ++ rest)) ∧ Spaces behind ∧
    ArrayText ((opened key members).map literal) array

theorem reaches_of_visible {members : List Member} {json : Text} (written : ConfigText members json)
    (visible : Visible key members) : Reaches key members json := by
  have ends := endsAt_document written visible
  rw [EndsAt] at ends
  rw [Reaches, opened]
  cases first : members.find? (Member.opens key) with
  | none =>
    rw [first] at ends
    exact Or.inl ⟨ends, rfl⟩
  | some member =>
    rw [first] at ends
    obtain ⟨before, behind, array, rest, after, leading, trailing, written⟩ := ends
    refine Or.inr ⟨_, behind, array, rest, after, ?_, trailing, written⟩
    rw [List.dropWhile_append_of_pos, List.dropWhile_cons_of_neg (by decide)]
    intro c member
    rw [bne_iff_ne]
    rintro rfl
    exact absurd (leading ':' member) (by decide)

theorem findAndParseArray_eq {members : List Member} {json : Text} (reaches : Reaches key members json) :
    findAndParseArray json key.name = ((opened key members).map strip, true) := by
  rw [findAndParseArray, ← quoted]
  rcases reaches with ⟨absent, none⟩ | ⟨found, behind, array, rest, after, colon, trailing, written⟩
  · rw [absent, none]
    rfl
  · rw [after]
    simp only [colon]
    exact parseStringArray_array trailing written rest

end

/-! ### Strings that are read as they are meant -/

/-- A backslash may only stand before a character that it leaves as it is. -/
def keepsMeaning : Piece → Bool
  | .plain _ _ => true
  | .escape code => code = .quote || code = .backslash || code = .slash
  | .unicode _ _ => false
  | .pair _ _ _ => false

theorem decode_length_le (pieces : List Piece) : (decode pieces).length ≤ (strip pieces).length := by
  rw [decode, strip, List.length_flatMap, List.length_flatMap]
  refine List.sum_le_sum fun piece _ => ?_
  cases piece with
  | plain c valid => exact le_rfl
  | escape code => exact le_rfl
  | unicode unit valid => exact (utf8_length _).trans (by decide : 4 ≤ 5)
  | pair high low valid => exact (utf8_length _).trans (by decide : 4 ≤ 10)

/-- Five characters are read for a code unit, and at most four bytes are meant. -/
theorem append_ne_of_shorter {meant read before behind : Text} (shorter : meant.length < read.length)
    (bound : behind.length ≤ before.length) : read ++ before ≠ meant ++ behind := by
  intro same
  have lengths := congrArg List.length same
  rw [List.length_append, List.length_append] at lengths
  omega

theorem letter_eq_value_iff (code : Escape) : code.letter = code.value ↔ keepsMeaning (.escape code) = true := by
  cases code <;> decide

theorem strip_eq_decode_iff (pieces : List Piece) :
    strip pieces = decode pieces ↔ ∀ piece ∈ pieces, keepsMeaning piece = true := by
  induction pieces with
  | nil => simp [strip, decode]
  | cons piece rest ih =>
    have bound := decode_length_le rest
    rw [List.forall_mem_cons, ← ih, decode_cons, strip, List.flatMap_cons, ← strip]
    cases piece with
    | plain c valid => simp [stripPiece, Piece.value, keepsMeaning]
    | escape code => simp [stripPiece, Piece.value, ← letter_eq_value_iff]
    | unicode unit valid =>
      refine ⟨fun same => absurd same (append_ne_of_shorter ?_ bound), fun both => Bool.noConfusion both.1⟩
      exact (utf8_length _).trans_lt (by decide : 4 < 5)
    | pair high low valid =>
      refine ⟨fun same => absurd same (append_ne_of_shorter ?_ bound), fun both => Bool.noConfusion both.1⟩
      exact (utf8_length _).trans_lt (by decide : 4 < 10)

/-- The member's strings are read as they are meant: its key is spelled without escapes, and so are the
strings, but for escaped quotes, backslashes and slashes. -/
def Member.Faithful (member : Member) : Prop :=
  member.strings ≠ [] →
    member.opens member.key = true ∧ ∀ string ∈ member.strings, ∀ piece ∈ string, keepsMeaning piece = true

theorem Member.faithful_iff_of_opens {member : Member} (opens : member.opens member.key = true) :
    member.strings.map strip = member.strings.map decode ↔ member.Faithful := by
  rw [List.map_inj_left]
  simp only [strip_eq_decode_iff]
  constructor
  · intro all _
    exact ⟨opens, all⟩
  · intro faithful string within
    exact (faithful (List.ne_nil_of_mem within)).2 string within

theorem Member.faithful_iff_of_not_opens {member : Member} (other : member.opens member.key = false) :
    [] = member.strings.map decode ↔ member.Faithful := by
  rw [eq_comm, List.map_eq_nil_iff]
  constructor
  · intro none some
    exact absurd none some
  · intro faithful
    by_contra some
    rw [(faithful some).1] at other
    cases other

theorem opened_eq_iff {members : List Member} (distinct : (members.map Member.key).Nodup) (key : Key) :
    (opened key members).map strip = strings key members ↔
      ∀ member ∈ members, member.key = key → member.Faithful := by
  rw [opened, strings]
  have unique : ∀ member ∈ members, ∀ other ∈ members, member.key = other.key → member = other :=
    fun member within other within' same => List.inj_on_of_nodup_map distinct within within' same
  cases named : members.find? fun member => member.key = key with
  | none =>
    have absent : ∀ member ∈ members, member.key ≠ key := by simpa using List.find?_eq_none.mp named
    have unopened : members.find? (Member.opens key) = none :=
      List.find?_eq_none.mpr fun member within opens => absent member within (member.key_of_opens opens)
    rw [unopened]
    simp only [Option.map_none, Option.getD_none, List.map_nil, true_iff]
    exact fun member within same => absurd same (absent member within)
  | some member =>
    have within := List.mem_of_find?_eq_some named
    obtain rfl : member.key = key := by simpa using List.find?_some named
    have single : (∀ other ∈ members, other.key = member.key → other.Faithful) ↔ member.Faithful :=
      ⟨fun all => all member within rfl,
        fun faithful other within' same => unique other within' member within same ▸ faithful⟩
    rw [single]
    cases opened : members.find? (Member.opens member.key) with
    | some other =>
      have opens : other.opens member.key = true := List.find?_some opened
      obtain rfl : other = member :=
        unique other (List.mem_of_find?_eq_some opened) member within (other.key_of_opens opens)
      exact Member.faithful_iff_of_opens opens
    | none =>
      refine Member.faithful_iff_of_not_opens ?_
      simpa using List.find?_eq_none.mp opened member within

/-! ### Every configuration -/

theorem loadConfig_eq {members : List Member} {json : Text} (reaches : ∀ key, Reaches key members json) :
    loadConfig (some json) =
      ({ includePatterns := (opened .included members).map strip
         includeWithDepsPatterns := (opened .includedWithDeps members).map strip
         excludePatterns := (opened .excluded members).map strip
         filter := ⟨true, ((opened .excluded members).map strip).filterMap globToRegex⟩ }, true) := by
  have included : findAndParseArray json "include".toList = _ := findAndParseArray_eq (reaches .included)
  have includedWithDeps : findAndParseArray json "include_with_deps".toList = _ :=
    findAndParseArray_eq (reaches .includedWithDeps)
  have excluded : findAndParseArray json "exclude".toList = _ := findAndParseArray_eq (reaches .excluded)
  simp only [loadConfig, included, includedWithDeps, excluded, compileExcludes_eq]

/-- Where the searches reach the arrays of their keys, the configuration is read as the document means it
exactly when every member's strings are. -/
theorem loadConfig_reads_iff {members : List Member} {json : Text} (written : ConfigText members json)
    (reaches : ∀ key, Reaches key members json) :
    loadConfig (some json) = (configOf members, true) ↔ ∀ member ∈ members, member.Faithful := by
  have byKey := opened_eq_iff written.1
  rw [loadConfig_eq reaches]
  constructor
  · intro same member within
    obtain ⟨included, includedWithDeps, excluded, -⟩ := Config.mk.inj (Prod.mk.inj same).1
    refine (byKey member.key).mp ?_ member within rfl
    cases member.key with
    | included => exact included
    | includedWithDeps => exact includedWithDeps
    | excluded => exact excluded
  · intro faithful
    have same : ∀ key, (opened key members).map strip = strings key members :=
      fun key => (byKey key).mpr fun member within _ => faithful member within
    rw [same, same, same]
    rfl

/-- The least text of a member. -/
def Member.compact (member : Member) : Text :=
  literal member.spelling ++ ':' :: '[' :: ([','].intercalate (member.strings.map literal) ++ [']'])

/-- The least text of a configuration. -/
def compactConfig (members : List Member) : Text :=
  '\x7b' :: ([','].intercalate (members.map Member.compact) ++ ['\x7d'])

theorem configText_compact {members : List Member} (distinct : (members.map Member.key).Nodup) :
    ConfigText members (compactConfig members) := by
  have none : Spaces [] := List.forall_mem_nil _
  refine ⟨distinct, members.map Member.compact, ?_, [], _, [], rfl, none, body_intercalate _, none⟩
  rw [List.forall₂_map_right_iff, List.forall₂_same]
  exact fun member _ => ⟨[], [], _, rfl, none, none, arrayText_intercalate _⟩

namespace Sample

def plain (text : String) : List Piece :=
  text.toList.filterMap fun c => if valid : c ≠ '"' ∧ c ≠ '\\' ∧ 0x20 ≤ c.toNat then some (.plain c valid) else none

def excludes (strings : List (List Piece)) : Member := ⟨.excluded, plain "exclude", rfl, strings⟩

def includes (strings : List (List Piece)) : Member := ⟨.included, plain "include", rfl, strings⟩

/-- An accented letter as an escape. -/
def accent : Piece := .unicode ⟨⟨'0', rfl⟩, ⟨'0', rfl⟩, ⟨'e', rfl⟩, ⟨'9', rfl⟩⟩ ⟨rfl, rfl⟩

/-- Two keys, and a solidus that is escaped. -/
def members : List Member :=
  [excludes [.escape .slash :: plain "opt", plain "/usr/*"], includes [plain "/app/lib.so"]]

theorem members_faithful : ∀ member ∈ members, member.Faithful :=
  List.forall_mem_cons.mpr ⟨fun _ => by decide, List.forall_mem_singleton.mpr fun _ => by decide⟩

end Sample

theorem loadConfig_reads_sample :
    loadConfig (some "\x7b\"exclude\":[\"\\/opt\",\"/usr/*\"],\"include\":[\"/app/lib.so\"]\x7d".toList) =
      (configOf Sample.members, true) := by
  have text : "\x7b\"exclude\":[\"\\/opt\",\"/usr/*\"],\"include\":[\"/app/lib.so\"]\x7d".toList =
      compactConfig Sample.members := by
    decide
  rw [text]
  have written : ConfigText Sample.members (compactConfig Sample.members) := configText_compact (by decide)
  refine (loadConfig_reads_iff written fun key => reaches_of_visible written ?_).mpr Sample.members_faithful
  cases key <;> decide

/-- The `\u00e9` of the pattern is read as the letter u and four digits. -/
theorem loadConfig_misreads :
    ¬∀ (members : List Member) (json : Text), ConfigText members json →
      loadConfig (some json) = (configOf members, true) := by
  intro claim
  have same := claim [Sample.excludes [Sample.plain "/caf" ++ [Sample.accent]]] _ (configText_compact (by decide))
  have read : (loadConfig (some (compactConfig [Sample.excludes [Sample.plain "/caf" ++ [Sample.accent]]]))).1.excludePatterns =
      ["/cafu00e9".toList] := by decide
  rw [same] at read
  have lengths := congrArg (List.map List.length) read
  exact absurd lengths (by decide)

end Omniprobe.LibraryFilter
