import Omniprobe.Lib.JsonValue
import Omniprobe.Lib.Run

/-!
# Scanning JSON texts for literals

A scanner that knows quotes and backslashes only. In a text that denotes a value it finds the keys
and strings of the value; in any other text that it gets through it finds literals between quotes.
-/

namespace Omniprobe.Lib.Json

/-! ### The scanner -/

inductive Mode where
  | outside
  /-- Inside a literal, with what is read of it. -/
  | inside (read : Text)
  /-- After a backslash. -/
  | escaped (read : Text)

/-- A scanner that collects the insides of the literals that are closed. -/
structure Scanner where
  closed : List Text
  mode : Mode

/-- No control character may stand in a literal. -/
def Scanner.step (scanner : Scanner) (c : Char) : Option Scanner :=
  match scanner.mode with
  | .outside => if c = '"' then some { scanner with mode := .inside [] } else some scanner
  | .inside read =>
    if c.toNat < 0x20 then none
    else if c = '"' then some ⟨scanner.closed ++ [read], .outside⟩
    else if c = '\\' then some { scanner with mode := .escaped (read ++ [c]) }
    else some { scanner with mode := .inside (read ++ [c]) }
  | .escaped read => if c.toNat < 0x20 then none else some { scanner with mode := .inside (read ++ [c]) }

/-- A text whose literals are all closed, with their insides. -/
def Scans (text : Text) (insides : List Text) : Prop :=
  ∀ closed, run Scanner.step ⟨closed, .outside⟩ text = some ⟨closed ++ insides, .outside⟩

theorem Scans.append {first second : Text} {insides insides' : List Text} (scans : Scans first insides)
    (later : Scans second insides') : Scans (first ++ second) (insides ++ insides') := by
  intro closed
  rw [run_append, scans closed, Option.bind_some, later, List.append_assoc]

theorem scans_of_no_quote {text : Text} (absent : '"' ∉ text) : Scans text [] := by
  intro closed
  rw [List.append_nil]
  induction text with
  | nil => rfl
  | cons c rest ih =>
    rw [List.mem_cons, not_or] at absent
    have kept : Scanner.step ⟨closed, .outside⟩ c = some ⟨closed, .outside⟩ := by
      simp [Scanner.step, Ne.symm absent.1]
    rw [run, kept, Option.bind_some, ih absent.2]

theorem scans_spaces {text : Text} (spaces : Spaces text) : Scans text [] := by
  refine scans_of_no_quote fun member => ?_
  exact absurd (spaces _ member) (by decide)

/-! ### Texts of values -/

theorem run_read {closed : List Text} {read text : Text}
    (plain : Plain text) :
    run Scanner.step ⟨closed, .inside read⟩ text = some ⟨closed, .inside (read ++ text)⟩ := by
  induction text generalizing read with
  | nil => simp [run]
  | cons c rest ih =>
    obtain ⟨⟨quote, backslash, visible⟩, later⟩ := List.forall_mem_cons.mp plain
    have taken : Scanner.step ⟨closed, .inside read⟩ c = some ⟨closed, .inside (read ++ [c])⟩ := by
      simp only [Scanner.step, quote, backslash, visible, if_false]
    rw [run, taken, Option.bind_some, ih later, List.append_assoc, List.singleton_append]

theorem run_escape {closed : List Text} {read rest : Text} {c : Char} (visible : ¬c.toNat < 0x20)
    (plain : Plain rest) :
    run Scanner.step ⟨closed, .inside read⟩ ('\\' :: c :: rest) =
      some ⟨closed, .inside (read ++ '\\' :: c :: rest)⟩ := by
  have first : Scanner.step ⟨closed, .inside read⟩ '\\' = some ⟨closed, .escaped (read ++ ['\\'])⟩ := rfl
  have second : Scanner.step ⟨closed, .escaped (read ++ ['\\'])⟩ c =
      some ⟨closed, .inside (read ++ ['\\'] ++ [c])⟩ := by
    simp only [Scanner.step, visible, if_false]
  rw [run, first, Option.bind_some, run, second, Option.bind_some, run_read plain]
  simp

theorem run_piece (closed : List Text) (read : Text) (piece : Piece) :
    run Scanner.step ⟨closed, .inside read⟩ piece.text = some ⟨closed, .inside (read ++ piece.text)⟩ := by
  cases piece with
  | plain c valid =>
    refine run_read (List.forall_mem_singleton.mpr ⟨valid.1, valid.2.1, ?_⟩)
    exact Nat.not_lt.mpr valid.2.2
  | escape code =>
    refine run_escape ?_ (List.forall_mem_nil _)
    cases code <;> decide
  | unicode unit valid => exact run_escape (by decide) (plain_digits unit)
  | pair high low valid =>
    rw [Piece.text, ← List.cons_append, ← List.cons_append, run_append, run_escape (by decide) (plain_digits high),
      Option.bind_some, run_escape (by decide) (plain_digits low)]
    simp

theorem scans_literal (pieces : List Piece) : Scans (literal pieces) [innerText pieces] := by
  have inner (closed : List Text) (read : Text) :
      run Scanner.step ⟨closed, .inside read⟩ (innerText pieces) = some ⟨closed, .inside (read ++ innerText pieces)⟩ := by
    induction pieces generalizing read with
    | nil => simp [innerText, run]
    | cons piece rest ih =>
      rw [innerText_cons, run_append, run_piece, Option.bind_some, ih, List.append_assoc]
  intro closed
  have opened : Scanner.step ⟨closed, .outside⟩ '"' = some ⟨closed, .inside []⟩ := rfl
  rw [literal, Text.delimited, run, opened, Option.bind_some, run_append, inner, Option.bind_some]
  rfl

theorem Joined.scans {texts : List Text} {text : Text} (joined : Joined isSpace ',' texts text)
    {insides : List (List Text)} (each : List.Forall₂ Scans texts insides) : Scans text insides.flatten := by
  have comma : Scans [','] [] := scans_of_no_quote (by decide)
  induction joined generalizing insides with
  | one item =>
    obtain ⟨found, none, scans, empty, rfl⟩ := List.forall₂_cons_left_iff.mp each
    obtain rfl := List.forall₂_nil_left_iff.mp empty
    rwa [List.flatten_singleton]
  | more item before after leading trailing joined ih =>
    obtain ⟨found, later, scans, rest, rfl⟩ := List.forall₂_cons_left_iff.mp each
    have blanks := (scans.append (scans_spaces leading)).append (comma.append (scans_spaces trailing))
    have whole := blanks.append (ih rest)
    simpa using whole

theorem Body.scans {texts : List Text} {body : Text} (shape : Body texts body) {insides : List (List Text)}
    (each : List.Forall₂ Scans texts insides) : Scans body insides.flatten := by
  rcases shape with ⟨rfl, spaces⟩ | ⟨before, text, behind, rfl, leading, joined, trailing⟩
  · obtain rfl := List.forall₂_nil_left_iff.mp each
    exact scans_spaces spaces
  · have whole := ((scans_spaces leading).append (Joined.scans joined each)).append (scans_spaces trailing)
    simpa using whole

theorem Scans.bracketed {body : Text} {insides : List Text} (scans : Scans body insides) {opening closing : Char}
    (first : opening ≠ '"') (last : closing ≠ '"') : Scans (opening :: (body ++ [closing])) insides := by
  have opens : Scans [opening] [] := scans_of_no_quote (by simpa using first.symm)
  have closes : Scans [closing] [] := scans_of_no_quote (by simpa using last.symm)
  have whole := (opens.append scans).append closes
  simpa using whole

namespace Value

mutual

/-- The literals in a text of a value are those of its keys and strings. -/
theorem Denotes.scans : ∀ {value : Value} {text : Text}, value.Denotes text →
    ∃ insides, Scans text insides ∧ List.Forall₂ Inner insides value.strings
  | .string s, text, denotes => by
    obtain ⟨pieces, stands, rfl⟩ := denotes
    exact ⟨_, scans_literal pieces, .cons ⟨pieces, rfl, stands⟩ .nil⟩
  | .number n, text, denotes => by
    obtain rfl : text = Nat.toDigits 10 n := denotes
    refine ⟨[], scans_of_no_quote fun member => ?_, .nil⟩
    exact not_mem_toDigits n (by decide) member
  | .array items, text, denotes => by
    obtain ⟨texts, body, each, shape, rfl⟩ := denotes
    obtain ⟨insides, scans, stand⟩ := DenotesItems.scans each
    exact ⟨_, (Body.scans shape scans).bracketed (by decide) (by decide), stand⟩
  | .object members, text, denotes => by
    obtain ⟨texts, body, each, shape, rfl⟩ := denotes
    obtain ⟨insides, scans, stand⟩ := DenotesMembers.scans each
    exact ⟨_, (Body.scans shape scans).bracketed (by decide) (by decide), stand⟩

theorem DenotesItems.scans : ∀ {items : List Value} {texts : List Text}, DenotesItems items texts →
    ∃ insides, List.Forall₂ Scans texts insides ∧ List.Forall₂ Inner insides.flatten (stringsItems items)
  | [], texts, denotes => by
    obtain rfl : texts = [] := denotes
    exact ⟨[], .nil, .nil⟩
  | item :: rest, texts, denotes => by
    obtain ⟨text, later, rfl, first, others⟩ := denotes
    obtain ⟨found, scans, stand⟩ := Denotes.scans first
    obtain ⟨insides, scansRest, standRest⟩ := DenotesItems.scans others
    exact ⟨found :: insides, .cons scans scansRest, List.rel_append stand standRest⟩

theorem DenotesMembers.scans : ∀ {members : List (Text × Value)} {texts : List Text}, DenotesMembers members texts →
    ∃ insides, List.Forall₂ Scans texts insides ∧ List.Forall₂ Inner insides.flatten (stringsMembers members)
  | [], texts, denotes => by
    obtain rfl : texts = [] := denotes
    exact ⟨[], .nil, .nil⟩
  | (key, value) :: rest, texts, denotes => by
    obtain ⟨pieces, before, behind, text, later, rfl, named, leading, trailing, first, others⟩ := denotes
    obtain ⟨found, scans, stand⟩ := Denotes.scans first
    obtain ⟨insides, scansRest, standRest⟩ := DenotesMembers.scans others
    have colon : Scans [':'] [] := scans_of_no_quote (by decide)
    have member := ((scans_literal pieces).append (scans_spaces leading)).append
      (colon.append ((scans_spaces trailing).append scans))
    refine ⟨(innerText pieces :: found) :: insides, .cons (by simpa using member) scansRest, ?_⟩
    exact .cons ⟨pieces, rfl, named⟩ (List.rel_append stand standRest)

end

end Value

/-! ### Texts that are not known to be JSON -/

/-- The literal that the scanner is in, as far as it is read. -/
def Mode.read? : Mode → Option Text
  | .outside => none
  | .inside read => some read
  | .escaped read => some read

/-- From inside a literal, the scanner reads all of a text or closes a literal. -/
theorem run_closed {text : Text} {closed last : List Text} {mode mode' : Mode}
    (ran : run Scanner.step ⟨closed, mode⟩ text = some ⟨last, mode'⟩) :
    ∃ insides, last = closed ++ insides ∧
      ∀ read, mode.read? = some read → insides = [] → mode'.read? = some (read ++ text) := by
  induction text generalizing closed mode with
  | nil =>
    cases ran
    exact ⟨[], by simp, by simp⟩
  | cons c rest ih =>
    rw [run] at ran
    obtain ⟨⟨closed', next⟩, taken, ran⟩ := Option.bind_eq_some_iff.mp ran
    obtain ⟨insides, rfl, kept⟩ := ih ran
    cases mode with
    | outside =>
      simp only [Scanner.step] at taken
      split at taken <;> cases taken <;> exact ⟨insides, rfl, by simp [Mode.read?]⟩
    | inside read =>
      simp only [Scanner.step] at taken
      split at taken
      · cases taken
      split at taken
      · cases taken
        exact ⟨read :: insides, by simp, by simp⟩
      split at taken <;> cases taken <;> refine ⟨insides, rfl, ?_⟩ <;> rintro _ ⟨⟩ none <;>
        simpa using kept _ rfl none
    | escaped read =>
      simp only [Scanner.step] at taken
      split at taken
      · cases taken
      cases taken
      refine ⟨insides, rfl, ?_⟩
      rintro _ ⟨⟩ none
      simpa using kept _ rfl none

/-- At least as many literals as strings, and the strings themselves if there are no more. -/
def AtLeast (strings insides : List Text) : Prop :=
  strings.length ≤ insides.length ∧ (insides.length = strings.length → insides = strings)

theorem AtLeast.append {strings strings' insides insides' : List Text} (first : AtLeast strings insides)
    (later : AtLeast strings' insides') : AtLeast (strings ++ strings') (insides ++ insides') := by
  obtain ⟨enough, exact₁⟩ := first
  obtain ⟨enough', exact₂⟩ := later
  refine ⟨by simp only [List.length_append]; omega, fun same => ?_⟩
  rw [List.length_append, List.length_append] at same
  rw [exact₁ (by omega), exact₂ (by omega)]

/-- When the scanner gets through the text, it closes at least as many literals as there are strings. -/
def Yields (text : Text) (strings : List Text) : Prop :=
  ∀ closed last, run Scanner.step ⟨closed, .outside⟩ text = some ⟨last, .outside⟩ →
    ∃ insides, last = closed ++ insides ∧ AtLeast strings insides

theorem Scans.yields {text : Text} {strings : List Text} (scans : Scans text strings) : Yields text strings := by
  intro closed last ran
  rw [scans closed] at ran
  cases ran
  exact ⟨strings, rfl, Nat.le_refl _, fun _ => rfl⟩

theorem yields_delimited (s : Text) : Yields (Text.delimited '"' s) [s] := by
  intro closed last ran
  have opened : Scanner.step ⟨closed, .outside⟩ '"' = some ⟨closed, .inside []⟩ := rfl
  rw [Text.delimited, run, opened, Option.bind_some, run_append] at ran
  obtain ⟨⟨closed', mode⟩, inner, closes⟩ := Option.bind_eq_some_iff.mp ran
  obtain ⟨insides, rfl, kept⟩ := run_closed inner
  cases mode with
  | outside => cases closes
  | escaped read => cases closes
  | inside read =>
    cases closes
    refine ⟨insides ++ [read], by simp, by simp, fun single => ?_⟩
    obtain rfl : insides = [] := by simpa using single
    obtain rfl := Option.some.inj (kept [] rfl rfl)
    rfl

theorem Yields.append {first second : Text} {strings strings' : List Text} (yields : Yields first strings)
    (later : Yields second strings')
    (between : ∀ scanner last, run Scanner.step scanner second = some ⟨last, .outside⟩ → scanner.mode = .outside) :
    Yields (first ++ second) (strings ++ strings') := by
  intro closed last ran
  rw [run_append] at ran
  obtain ⟨⟨closed', mode⟩, before, after⟩ := Option.bind_eq_some_iff.mp ran
  obtain rfl : mode = .outside := between _ _ after
  obtain ⟨insides, rfl, enough⟩ := yields _ _ before
  obtain ⟨insides', rfl, enough'⟩ := later _ _ after
  exact ⟨insides ++ insides', by simp, enough.append enough'⟩

theorem Scans.append_yields {first second : Text} {strings strings' : List Text} (scans : Scans first strings)
    (later : Yields second strings') : Yields (first ++ second) (strings ++ strings') := by
  intro closed last ran
  rw [run_append, scans closed, Option.bind_some] at ran
  obtain ⟨insides, rfl, enough⟩ := later _ _ ran
  exact ⟨strings ++ insides, by simp, AtLeast.append ⟨Nat.le_refl _, fun _ => rfl⟩ enough⟩

theorem outside_of_comma {scanner end' : Scanner} {rest : Text}
    (ran : run Scanner.step scanner (',' :: '\n' :: rest) = some end') : scanner.mode = .outside := by
  obtain ⟨closed, mode⟩ := scanner
  cases mode with
  | outside => rfl
  | inside read => cases ran
  | escaped read => cases ran

theorem outside_of_no_quote {text : Text} (absent : '"' ∉ text) {scanner : Scanner} {last : List Text}
    (ran : run Scanner.step scanner text = some ⟨last, .outside⟩) : scanner.mode = .outside := by
  induction text generalizing scanner with
  | nil =>
    cases ran
    rfl
  | cons c rest ih =>
    rw [List.mem_cons, not_or] at absent
    rw [run] at ran
    obtain ⟨next, taken, ran⟩ := Option.bind_eq_some_iff.mp ran
    have later := ih absent.2 ran
    obtain ⟨closed, mode⟩ := scanner
    cases mode with
    | outside => rfl
    | inside read =>
      simp only [Scanner.step, Ne.symm absent.1, if_false] at taken
      split at taken
      · cases taken
      split at taken <;> cases taken <;> cases later
    | escaped read =>
      simp only [Scanner.step] at taken
      split at taken <;> cases taken
      cases later

theorem Yields.before_no_quote {first : Text} {strings : List Text} (yields : Yields first strings) (text : Text)
    (absent : '"' ∉ text) : Yields (first ++ text) strings := by
  have whole := yields.append (scans_of_no_quote absent).yields fun _ _ => outside_of_no_quote absent
  rwa [List.append_nil] at whole

theorem Yields.after_no_quote {rest : Text} {strings : List Text} (text : Text) (absent : '"' ∉ text)
    (yields : Yields rest strings) : Yields (text ++ rest) strings := by
  have whole := (scans_of_no_quote absent).append_yields yields
  rwa [List.nil_append] at whole

theorem scans_plain {s : Text} (plain : Plain s) : Scans (Text.delimited '"' s) [s] := by
  intro closed
  have opened : Scanner.step ⟨closed, .outside⟩ '"' = some ⟨closed, .inside []⟩ := rfl
  rw [Text.delimited, run, opened, Option.bind_some, run_append, run_read plain, Option.bind_some]
  rfl

end Omniprobe.Lib.Json
