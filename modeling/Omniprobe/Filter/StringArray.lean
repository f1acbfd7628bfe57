import Omniprobe.Filter.Config

/-!
# The cursor of the array reader

`parseStringArray` walks the text by position. `Config` reads from what is left of the text; the two
are related here, and the reader is shown to stay inside the text and to undo the encoding of a list
of strings.
-/

namespace Omniprobe.LibraryFilter.Cursor
open Lib

/-! ### The reader by position -/

/-- `json[pos]` of a `std::string`: a NUL stands behind the last character, and nothing can be read beyond it. -/
def charAt (json : Text) (pos : Nat) : Option Char := if pos = json.length then some '\x00' else json[pos]?

def skipSpaces (json : Text) (pos : Nat) : Nat :=
  if inside : pos < json.length then if isSpace json[pos] then skipSpaces json (pos + 1) else pos else pos
termination_by json.length - pos

/-- The loop over the characters of a string, up to its closing quote. -/
def readString (json : Text) (pos : Nat) (value : Text) : Nat × Text :=
  if inside : pos < json.length then
    if json[pos] = '"' then (pos, value)
    else if escaped : json[pos] = '\\' ∧ pos + 1 < json.length then
      readString json (pos + 2) (value ++ [json.get ⟨pos + 1, escaped.2⟩])
    else readString json (pos + 1) (value ++ [json[pos]])
  else (pos, value)
termination_by json.length - pos

theorem le_skipSpaces (json : Text) (pos : Nat) : pos ≤ skipSpaces json pos := by
  fun_induction skipSpaces json pos with
  | case1 pos inside space ih => omega
  | case2 pos inside visible => exact Nat.le_refl _
  | case3 pos outside => exact Nat.le_refl _

theorem le_readString (json : Text) (pos : Nat) (value : Text) : pos ≤ (readString json pos value).1 := by
  fun_induction readString json pos value with
  | case1 pos value inside closing => exact Nat.le_refl _
  | case2 pos value inside open' escaped ih => omega
  | case3 pos value inside open' plain ih => omega
  | case4 pos value outside => exact Nat.le_refl _

/-- How a round of the loop over the elements ends: the loop is left, or goes on, perhaps with a string more. -/
inductive Round where
  | stop (closed : Bool) (pos : Nat)
  | next (pos : Nat) (value : Option Text)

/-- One round; `none` is a read beyond the text. -/
def parseElement (json : Text) (pos : Nat) : Option Round :=
  let pos := skipSpaces json pos
  (charAt json pos).map fun c =>
    if c = ']' then .stop true (pos + 1)
    else if c = ',' then .next (pos + 1) none
    else if c ≠ '"' then .stop false pos
    else
      let read := readString json (pos + 1) []
      if read.1 < json.length then .next (read.1 + 1) (some read.2) else .stop false read.1

theorem lt_of_parseElement {json : Text} {pos next : Nat} {value : Option Text}
    (taken : parseElement json pos = some (.next next value)) : pos < next := by
  obtain ⟨c, -, round⟩ := Option.map_eq_some_iff.mp taken
  have skipped := le_skipSpaces json pos
  have read := le_readString json (skipSpaces json pos + 1) []
  split at round
  · cases round
  split at round
  · cases round
    omega
  split at round
  · cases round
  · simp only at round
    split at round
    · cases round
      omega
    · cases round

/-- The loop from behind the opening bracket on: what it returns, the cursor and the strings. -/
def parseElements (json : Text) (pos : Nat) (result : List Text) : Option (Bool × Nat × List Text) :=
  if pos < json.length then
    match _taken : parseElement json pos with
    | none => none
    | some (.stop closed pos) => some (closed, pos, result)
    | some (.next next value) => parseElements json next (result ++ value.toList)
  else some (false, pos, result)
termination_by json.length - pos
decreasing_by
  have further := lt_of_parseElement _taken
  omega

def parseStringArray (json : Text) (pos : Nat) (result : List Text) : Option (Bool × Nat × List Text) :=
  let pos := skipSpaces json pos
  if json[pos]? = some '[' then parseElements json (pos + 1) result else some (false, pos, result)

/-! ### Bounds -/

theorem skipSpaces_le {json : Text} {pos : Nat} (within : pos ≤ json.length) : skipSpaces json pos ≤ json.length := by
  fun_induction skipSpaces json pos with
  | case1 pos inside space ih => exact ih inside
  | case2 pos inside visible => exact within
  | case3 pos outside => exact within

theorem readString_le {json : Text} {pos : Nat} (value : Text) (within : pos ≤ json.length) :
    (readString json pos value).1 ≤ json.length := by
  fun_induction readString json pos value with
  | case1 pos value inside closing => exact within
  | case2 pos value inside other escaped ih => exact ih escaped.2
  | case3 pos value inside other plain ih => exact ih inside
  | case4 pos value outside => exact within

theorem charAt_isSome {json : Text} {pos : Nat} (within : pos ≤ json.length) : ∃ c, charAt json pos = some c := by
  unfold charAt
  split
  · exact ⟨_, rfl⟩
  · rename_i other
    exact ⟨_, List.getElem?_eq_getElem (Nat.lt_of_le_of_ne within other)⟩

theorem lt_of_charAt {json : Text} {pos : Nat} {c : Char} (read : charAt json pos = some c) (visible : c ≠ '\x00') :
    pos < json.length := by
  unfold charAt at read
  split at read
  · cases read
    exact absurd rfl visible
  · exact (List.getElem?_eq_some_iff.mp read).1

def Round.pos : Round → Nat
  | stop _ pos => pos
  | next pos _ => pos

theorem parseElement_within {json : Text} {pos : Nat} (within : pos ≤ json.length) :
    ∃ round, parseElement json pos = some round ∧ pos ≤ round.pos ∧ round.pos ≤ json.length := by
  obtain ⟨c, read⟩ := charAt_isSome (skipSpaces_le within)
  have skipped := le_skipSpaces json pos
  have upper := skipSpaces_le within
  rw [parseElement, read, Option.map_some]
  refine ⟨_, rfl, ?_⟩
  split
  · rename_i bracket
    have inside := lt_of_charAt read (by rw [bracket]; decide)
    exact ⟨by simp only [Round.pos]; omega, inside⟩
  split
  · rename_i comma
    have inside := lt_of_charAt read (by rw [comma]; decide)
    exact ⟨by simp only [Round.pos]; omega, inside⟩
  split
  · exact ⟨skipped, upper⟩
  · rename_i quote
    have inside := lt_of_charAt read (by rw [not_not.mp quote]; decide)
    have lower := le_readString json (skipSpaces json pos + 1) []
    have higher := readString_le [] inside
    simp only
    split
    · rename_i closed
      exact ⟨by simp only [Round.pos]; omega, closed⟩
    · exact ⟨by simp only [Round.pos]; omega, higher⟩

theorem parseElements_within {json : Text} {pos : Nat} (result : List Text) (within : pos ≤ json.length) :
    ∃ closed pos' result', parseElements json pos result = some (closed, pos', result') ∧ pos ≤ pos' ∧
      pos' ≤ json.length := by
  fun_induction parseElements json pos result with
  | case1 pos result inside none =>
    obtain ⟨round, taken, -⟩ := parseElement_within within
    rw [taken] at none
    cases none
  | case2 pos result inside closed stopped taken =>
    obtain ⟨round, same, lower, upper⟩ := parseElement_within within
    rw [taken] at same
    cases same
    exact ⟨closed, stopped, result, rfl, lower, upper⟩
  | case3 pos result inside next value taken ih =>
    obtain ⟨round, same, lower, upper⟩ := parseElement_within within
    rw [taken] at same
    cases same
    obtain ⟨closed, pos', result', ran, further, stays⟩ := ih upper
    exact ⟨closed, pos', result', ran, Nat.le_trans lower further, stays⟩
  | case4 pos result outside => exact ⟨false, pos, result, rfl, Nat.le_refl _, within⟩

theorem parseStringArray_within {json : Text} {pos : Nat} (result : List Text) (within : pos ≤ json.length) :
    ∃ closed pos' result', parseStringArray json pos result = some (closed, pos', result') ∧ pos ≤ pos' ∧
      pos' ≤ json.length := by
  have skipped := le_skipSpaces json pos
  unfold parseStringArray
  simp only
  split
  · rename_i opens
    obtain ⟨inside, -⟩ := List.getElem?_eq_some_iff.mp opens
    obtain ⟨closed, pos', result', ran, further, stays⟩ := parseElements_within result inside
    exact ⟨closed, pos', result', ran, by omega, stays⟩
  · exact ⟨false, _, result, rfl, skipped, skipSpaces_le within⟩

/-! ### What is left of the text -/

theorem read_of_drop {json rest : Text} {c : Char} {pos : Nat} (left : json.drop pos = c :: rest) :
    ∃ inside : pos < json.length, json[pos] = c ∧ json.drop (pos + 1) = rest := by
  have inside : pos < json.length := by
    by_contra outside
    rw [List.drop_eq_nil_of_le (Nat.not_lt.mp outside)] at left
    cases left
  rw [List.drop_eq_getElem_cons inside] at left
  exact ⟨inside, List.cons.inj left⟩

theorem drop_skipSpaces (json : Text) (pos : Nat) : json.drop (skipSpaces json pos) = (json.drop pos).dropWhile isSpace := by
  fun_induction skipSpaces json pos with
  | case1 pos inside space ih => rw [ih, List.drop_eq_getElem_cons inside, List.dropWhile_cons_of_pos space]
  | case2 pos inside visible => rw [List.drop_eq_getElem_cons inside, List.dropWhile_cons_of_neg visible]
  | case3 pos outside => rw [List.drop_eq_nil_of_le (Nat.not_lt.mp outside), List.dropWhile_nil]

theorem skipSpaces_eq {json spaces rest : Text} {pos : Nat} (left : json.drop pos = spaces ++ rest)
    (blank : ∀ c ∈ spaces, isSpace c = true) (visible : ∀ c ∈ rest.head?, isSpace c = false) :
    skipSpaces json pos = pos + spaces.length := by
  induction spaces generalizing pos with
  | nil =>
    rw [skipSpaces]
    split
    · rename_i inside
      rw [List.drop_eq_getElem_cons inside, List.nil_append] at left
      rw [if_neg (by simp [visible json[pos] (by rw [← left]; rfl)])]
      rfl
    · rfl
  | cons c spaces ih =>
    obtain ⟨inside, first, left⟩ := read_of_drop left
    obtain ⟨space, blank⟩ := List.forall_mem_cons.mp blank
    rw [skipSpaces, dif_pos inside, first, if_pos space, ih left blank, List.length_cons]
    omega

theorem charAt_eq {json rest : Text} {c : Char} {pos : Nat} (left : json.drop pos = c :: rest) :
    charAt json pos = some c := by
  obtain ⟨inside, first, -⟩ := read_of_drop left
  rw [charAt, if_neg (Nat.ne_of_lt inside), List.getElem?_eq_getElem inside, first]

/-! ### The reader of what is left -/

theorem parseElements_dropWhile (s : Text) :
    LibraryFilter.parseElements (s.dropWhile isSpace) = LibraryFilter.parseElements s := by
  induction s with
  | nil => rfl
  | cons c rest ih =>
    by_cases space : isSpace c = true
    · rw [List.dropWhile_cons_of_pos space, ih, LibraryFilter.parseElements, if_pos space]
    · rw [List.dropWhile_cons_of_neg space]

theorem parseString_drop {json : Text} {pos : Nat} (value : Text) (within : pos ≤ json.length) :
    LibraryFilter.parseString value (json.drop pos) =
      if (readString json pos value).1 < json.length then
        ((readString json pos value).2 :: (LibraryFilter.parseElements (json.drop ((readString json pos value).1 + 1))).1,
          (LibraryFilter.parseElements (json.drop ((readString json pos value).1 + 1))).2)
      else ([], false) := by
  fun_induction readString json pos value with
  | case1 pos value inside closing =>
    rw [List.drop_eq_getElem_cons inside, closing, parseString_quote, if_pos inside]
  | case2 pos value inside other escaped ih =>
    obtain ⟨backslash, further⟩ := escaped
    have left : json.drop pos = '\\' :: json[pos + 1] :: json.drop (pos + 2) := by
      rw [List.drop_eq_getElem_cons inside, List.drop_eq_getElem_cons further, backslash]
    rw [left, parseString_escape]
    exact ih further
  | case3 pos value inside other plain ih =>
    rw [List.drop_eq_getElem_cons inside]
    by_cases backslash : json[pos] = '\\'
    · -- The backslash is the last character: no string is read either way.
      have last : pos + 1 = json.length := by
        by_contra further
        exact plain ⟨backslash, by omega⟩
      have stopped := le_readString json (pos + 1) (value ++ [json[pos]])
      rw [if_neg (by omega), List.drop_eq_nil_of_le (Nat.le_of_eq last.symm), backslash, parseString.eq_def]
      rfl
    · rw [parseString_other _ _ other backslash]
      exact ih inside
  | case4 pos value outside =>
    rw [List.drop_eq_nil_of_le (Nat.not_lt.mp outside), if_neg outside, parseString.eq_def]

/-- What the reader of `Config` makes of the text from a round on. -/
def Round.outcome (json : Text) : Round → List Text × Bool
  | stop closed _ => ([], closed)
  | next pos value =>
    (value.toList ++ (LibraryFilter.parseElements (json.drop pos)).1, (LibraryFilter.parseElements (json.drop pos)).2)

theorem parseElements_round {json : Text} {pos : Nat} {round : Round} (within : pos ≤ json.length)
    (taken : parseElement json pos = some round) : LibraryFilter.parseElements (json.drop pos) = round.outcome json := by
  obtain ⟨c, read, rfl⟩ := Option.map_eq_some_iff.mp taken
  have visible : ∀ d ∈ (json.drop (skipSpaces json pos)).head?, isSpace d = false := by
    intro d first
    have stops := List.head?_dropWhile_not isSpace (json.drop pos)
    rw [← drop_skipSpaces, first] at stops
    simpa using stops
  rw [← parseElements_dropWhile, ← drop_skipSpaces]
  rcases Nat.lt_or_eq_of_le (skipSpaces_le within) with inside | ended
  · have same : json[skipSpaces json pos] = c := by
      rw [charAt, if_neg (Nat.ne_of_lt inside), List.getElem?_eq_getElem inside] at read
      exact Option.some.inj read
    rw [List.drop_eq_getElem_cons inside, same] at visible ⊢
    rw [LibraryFilter.parseElements, visible c rfl, if_neg (by decide)]
    split
    · rfl
    split
    · rfl
    rename_i quote
    by_cases opens : c = '"'
    · rw [if_pos opens, if_neg (not_not.mpr opens), parseString_drop [] inside, Nat.succ_eq_add_one]
      simp only
      split
      · rfl
      · rfl
    · rw [if_neg opens, if_pos opens]
      rfl
  · rw [charAt, if_pos ended] at read
    obtain rfl := Option.some.inj read
    rw [ended, List.drop_length]
    rfl

theorem parseElements_drop {json : Text} {pos : Nat} (result : List Text) (within : pos ≤ json.length) :
    ∃ pos', parseElements json pos result =
      some ((LibraryFilter.parseElements (json.drop pos)).2, pos',
        result ++ (LibraryFilter.parseElements (json.drop pos)).1) := by
  fun_induction parseElements json pos result with
  | case1 pos result inside none =>
    obtain ⟨round, taken, -⟩ := parseElement_within within
    cases none.symm.trans taken
  | case2 pos result inside closed stopped taken =>
    rw [parseElements_round within taken, Round.outcome]
    exact ⟨stopped, by rw [List.append_nil]⟩
  | case3 pos result inside next value taken ih =>
    obtain ⟨round, same, -, upper⟩ := parseElement_within within
    cases taken.symm.trans same
    obtain ⟨pos', ran⟩ := ih upper
    exact ⟨pos', by rw [ran, parseElements_round within taken, Round.outcome, List.append_assoc]⟩
  | case4 pos result outside =>
    rw [List.drop_eq_nil_of_le (Nat.not_lt.mp outside), LibraryFilter.parseElements]
    exact ⟨pos, by rw [List.append_nil]⟩

/-- The reader by position is the one that `findAndParseArray` was modelled with. -/
theorem parseStringArray_drop (json : Text) (pos : Nat) (result : List Text) :
    ∃ pos', parseStringArray json pos result =
      some ((LibraryFilter.parseStringArray (json.drop pos)).2, pos',
        result ++ (LibraryFilter.parseStringArray (json.drop pos)).1) := by
  unfold parseStringArray LibraryFilter.parseStringArray
  rw [← drop_skipSpaces]
  simp only
  split
  · rename_i opens
    obtain ⟨inside, bracket⟩ := List.getElem?_eq_some_iff.mp opens
    rw [List.drop_eq_getElem_cons inside, bracket]
    exact parseElements_drop result inside
  · rename_i other
    refine ⟨skipSpaces json pos, ?_⟩
    split
    · rename_i rest left
      obtain ⟨inside, bracket, -⟩ := read_of_drop left
      exact absurd (List.getElem?_eq_some_iff.mpr ⟨inside, bracket⟩) other
    · rw [List.append_nil]

/-! ### The encoding -/

def escape (c : Char) : Text := if c = '"' ∨ c = '\\' then ['\\', c] else [c]

def quote (s : Text) : Text := '"' :: (s.flatMap escape ++ ['"'])

/-- A JSON array of strings, each with its quotes and backslashes escaped and nothing else. -/
def ArrayOf (strings : List Text) (array : Text) : Prop :=
  ∃ body, array = '[' :: (body ++ [']']) ∧
    (strings = [] ∧ (∀ c ∈ body, isSpace c = true) ∨
      ∃ before joined behind, body = before ++ joined ++ behind ∧ (∀ c ∈ before, isSpace c = true) ∧
        Joined (isSpace ·) ',' (strings.map quote) joined ∧ ∀ c ∈ behind, isSpace c = true)

theorem readString_encoded {json s rest : Text} {pos : Nat} (value : Text)
    (left : json.drop pos = s.flatMap escape ++ '"' :: rest) :
    readString json pos value = (pos + (s.flatMap escape).length, value ++ s) := by
  induction s generalizing pos value with
  | nil =>
    obtain ⟨inside, first, -⟩ := read_of_drop left
    rw [readString, dif_pos inside, if_pos first, List.flatMap_nil, List.length_nil, List.append_nil, Nat.add_zero]
  | cons c s ih =>
    rw [List.flatMap_cons, List.append_assoc] at left
    by_cases special : c = '"' ∨ c = '\\'
    · rw [escape, if_pos special] at left
      obtain ⟨inside, backslash, left⟩ := read_of_drop left
      obtain ⟨further, escaped, left⟩ := read_of_drop left
      have other : json[pos] ≠ '"' := by rw [backslash]; decide
      have isEscape : json[pos] = '\\' ∧ pos + 1 < json.length := ⟨backslash, further⟩
      have character : json.get ⟨pos + 1, further⟩ = c := escaped
      rw [readString, dif_pos inside, if_neg other, dif_pos isEscape, character, ih _ left, List.flatMap_cons, escape,
        if_pos special, List.length_append, List.append_assoc]
      simp only [List.length_cons, List.length_nil, List.singleton_append, Prod.mk.injEq, and_true]
      omega
    · rw [escape, if_neg special] at left
      obtain ⟨inside, first, left⟩ := read_of_drop left
      have other : json[pos] ≠ '"' := by
        rw [first]
        exact fun same => special (.inl same)
      have plain : ¬(json[pos] = '\\' ∧ pos + 1 < json.length) := by
        rw [first]
        exact fun same => special (.inr same.1)
      rw [readString, dif_pos inside, if_neg other, dif_neg plain, first, ih _ left, List.flatMap_cons, escape,
        if_neg special, List.length_append, List.append_assoc]
      simp only [List.length_cons, List.length_nil, List.singleton_append, Prod.mk.injEq, and_true]
      omega

/-! ### Rounds -/

section
variable {json spaces rest : Text} {pos : Nat}

theorem skipSpaces_to {c : Char} (left : json.drop pos = spaces ++ c :: rest) (blank : ∀ c ∈ spaces, isSpace c = true)
    (visible : isSpace c = false) :
    skipSpaces json pos = pos + spaces.length ∧ json.drop (pos + spaces.length) = c :: rest := by
  refine ⟨skipSpaces_eq left blank fun d first => ?_, ?_⟩
  · cases first
    exact visible
  · rw [← List.drop_drop, left, List.drop_left]

theorem parseElement_bracket (left : json.drop pos = spaces ++ ']' :: rest) (blank : ∀ c ∈ spaces, isSpace c = true) :
    parseElement json pos = some (.stop true (pos + spaces.length + 1)) := by
  obtain ⟨skipped, left⟩ := skipSpaces_to left blank rfl
  rw [parseElement, skipped, charAt_eq left]
  rfl

theorem parseElement_comma (left : json.drop pos = spaces ++ ',' :: rest) (blank : ∀ c ∈ spaces, isSpace c = true) :
    parseElement json pos = some (.next (pos + spaces.length + 1) none) := by
  obtain ⟨skipped, left⟩ := skipSpaces_to left blank rfl
  rw [parseElement, skipped, charAt_eq left]
  rfl

theorem parseElement_quote {s : Text} (left : json.drop pos = spaces ++ (quote s ++ rest))
    (blank : ∀ c ∈ spaces, isSpace c = true) :
    parseElement json pos = some (.next (pos + spaces.length + (quote s).length) (some s)) := by
  rw [quote, List.cons_append, List.append_assoc, List.singleton_append] at left
  obtain ⟨skipped, left⟩ := skipSpaces_to left blank rfl
  obtain ⟨-, -, inner⟩ := read_of_drop left
  have read := readString_encoded [] inner
  have closing : json.drop (pos + spaces.length + 1 + (s.flatMap escape).length) = '"' :: rest := by
    rw [← List.drop_drop, inner, List.drop_left]
  obtain ⟨inside, -, -⟩ := read_of_drop closing
  rw [parseElement, skipped, charAt_eq left]
  simp only [Option.map_some, read]
  rw [if_neg (by decide), if_neg (by decide), if_neg (by decide), if_pos inside]
  simp only [quote, List.length_cons, List.length_append, List.length_nil, List.nil_append]
  congr 2
  omega

end

/-! ### The loop on an encoded list -/

section
variable {json : Text}

theorem parseElements_stop {pos stopped : Nat} {closed : Bool} (inside : pos < json.length)
    (taken : parseElement json pos = some (.stop closed stopped)) (result : List Text) :
    parseElements json pos result = some (closed, stopped, result) := by
  rw [parseElements, if_pos inside]
  split
  · rename_i none
    cases taken.symm.trans none
  · rename_i stop
    cases taken.symm.trans stop
    rfl
  · rename_i next
    cases taken.symm.trans next

theorem parseElements_next {pos next : Nat} {value : Option Text} (inside : pos < json.length)
    (taken : parseElement json pos = some (.next next value)) (result : List Text) :
    parseElements json pos result = parseElements json next (result ++ value.toList) := by
  rw [parseElements, if_pos inside]
  split
  · rename_i none
    cases taken.symm.trans none
  · rename_i stop
    cases taken.symm.trans stop
  · rename_i next
    cases taken.symm.trans next
    rfl

theorem lt_of_drop_append {spaces rest : Text} {c : Char} {pos : Nat} (left : json.drop pos = spaces ++ c :: rest) :
    pos < json.length := by
  by_contra outside
  rw [List.drop_eq_nil_of_le (Nat.not_lt.mp outside)] at left
  cases spaces <;> cases left

theorem parseElements_bracket {spaces rest : Text} {pos : Nat} (left : json.drop pos = spaces ++ ']' :: rest)
    (blank : ∀ c ∈ spaces, isSpace c = true) (result : List Text) :
    parseElements json pos result = some (true, pos + spaces.length + 1, result) :=
  parseElements_stop (lt_of_drop_append left) (parseElement_bracket left blank) result

theorem drop_of_append {front rest : Text} {pos : Nat} (left : json.drop pos = front ++ rest) :
    json.drop (pos + front.length) = rest := by
  rw [← List.drop_drop, left, List.drop_left]

theorem parseElements_comma {spaces rest : Text} {pos : Nat} (left : json.drop pos = spaces ++ ',' :: rest)
    (blank : ∀ c ∈ spaces, isSpace c = true) (result : List Text) :
    parseElements json pos result = parseElements json (pos + spaces.length + 1) result := by
  rw [parseElements_next (lt_of_drop_append left) (parseElement_comma left blank), Option.toList_none, List.append_nil]

theorem parseElements_quote {spaces rest s : Text} {pos : Nat} (left : json.drop pos = spaces ++ (quote s ++ rest))
    (blank : ∀ c ∈ spaces, isSpace c = true) (result : List Text) :
    parseElements json pos result =
      parseElements json (pos + spaces.length + (quote s).length) (result ++ [s]) := by
  have inside : pos < json.length := lt_of_drop_append (by simpa only [quote, List.cons_append] using left)
  rw [parseElements_next inside (parseElement_quote left blank), Option.toList_some]

/-- The strings of a joined list are pushed one by one, up to the closing bracket. -/
theorem parseElements_joined {strings : List Text} {before joined behind rest : Text} {pos : Nat}
    (leading : ∀ c ∈ before, isSpace c = true) (join : Joined (isSpace ·) ',' (strings.map quote) joined)
    (trailing : ∀ c ∈ behind, isSpace c = true)
    (left : json.drop pos = before ++ (joined ++ (behind ++ ']' :: rest))) (result : List Text) :
    parseElements json pos result =
      some (true, pos + (before.length + joined.length + behind.length + 1), result ++ strings) := by
  induction strings generalizing before joined pos result with
  | nil => exact absurd rfl join.ne_nil
  | cons s strings ih =>
    rw [List.map_cons] at join
    generalize items : strings.map quote = quoted at join
    cases join with
    | one =>
      obtain rfl := List.map_eq_nil_iff.mp items
      rw [parseElements_quote left leading, parseElements_bracket (drop_of_append (drop_of_append left)) trailing]
      congr 3
      omega
    | more item blank after leading' trailing' later =>
      rw [List.append_assoc, List.append_assoc, List.cons_append] at left
      rw [← items] at later
      have comma := drop_of_append (drop_of_append left)
      obtain ⟨-, -, next⟩ := read_of_drop (drop_of_append comma)
      rw [List.append_assoc] at next
      rw [parseElements_quote left leading, parseElements_comma comma leading', ih trailing' later next,
        List.append_assoc, List.singleton_append]
      simp only [List.length_append, List.length_cons, Option.some.injEq, Prod.mk.injEq, true_and, and_true]
      omega

end

/-- The reader ends inside the text, wherever it starts, and reads an encoded list of strings back. -/
theorem parseStringArray_total_and_inverts :
    (∀ (json : Text) (pos : Nat) (result : List Text), pos ≤ json.length →
      ∃ closed pos' result', parseStringArray json pos result = some (closed, pos', result') ∧ pos ≤ pos' ∧
        pos' ≤ json.length) ∧
    ∀ (strings : List Text) (before spaces array after : Text) (result : List Text),
      (∀ c ∈ spaces, isSpace c = true) → ArrayOf strings array →
        parseStringArray (before ++ (spaces ++ (array ++ after))) before.length result =
          some (true, (before ++ spaces ++ array).length, result ++ strings) := by
  refine ⟨fun json pos result within => parseStringArray_within result within, ?_⟩
  rintro strings before spaces array after result blank ⟨body, rfl, content⟩
  have left : (before ++ (spaces ++ ('[' :: (body ++ [']']) ++ after))).drop before.length =
      spaces ++ '[' :: (body ++ ']' :: after) := by
    rw [List.drop_left, List.cons_append, List.append_assoc, List.singleton_append]
  obtain ⟨skipped, opening⟩ := skipSpaces_to left blank rfl
  obtain ⟨inside, bracket, elements⟩ := read_of_drop opening
  unfold parseStringArray
  simp only [skipped]
  rw [if_pos (List.getElem?_eq_some_iff.mpr ⟨inside, bracket⟩)]
  rcases content with ⟨rfl, blank⟩ | ⟨leading, joined, trailing, rfl, blankBefore, join, blankAfter⟩
  · rw [parseElements_bracket elements blank, List.append_nil]
    simp only [List.length_append, List.length_cons, List.length_nil, Option.some.injEq, Prod.mk.injEq, true_and, and_true]
    omega
  · have grouped : leading ++ joined ++ trailing ++ ']' :: after = leading ++ (joined ++ (trailing ++ ']' :: after)) := by
      simp only [List.append_assoc]
    rw [parseElements_joined blankBefore join blankAfter (elements.trans grouped)]
    simp only [List.length_append, List.length_cons, List.length_nil, Option.some.injEq, Prod.mk.injEq, true_and, and_true]
    omega

namespace Sample

/-- A quote, written with its backslash, and the empty string. -/
def array : Text := '[' :: ((quote ['"'] ++ [' '] ++ ',' :: ([] ++ quote [])) ++ [']'])

theorem arrayOf : ArrayOf [['"'], []] array := by
  refine ⟨_, rfl, .inr ⟨[], _, [], (List.append_nil _).symm, by simp, ?_, by simp⟩⟩
  exact .more _ _ [] (List.forall_mem_singleton.mpr rfl) (by simp) (.one _)

end Sample

theorem parseStringArray_total_and_inverts_sample :
    (∃ closed pos' result', parseStringArray ['[', '"', 'a', '\\'] 0 [] = some (closed, pos', result') ∧ 0 ≤ pos' ∧
        pos' ≤ 4) ∧
      parseStringArray (['x'] ++ ([' '] ++ (Sample.array ++ [']', 'y']))) 1 [] = some (true, 12, [['"'], []]) :=
  ⟨parseStringArray_total_and_inverts.1 ['[', '"', 'a', '\\'] 0 [] (Nat.zero_le 4),
    parseStringArray_total_and_inverts.2 [['"'], []] ['x'] [' '] Sample.array [']', 'y'] []
      (List.forall_mem_singleton.mpr rfl) Sample.arrayOf⟩

end Omniprobe.LibraryFilter.Cursor
