import Mathlib
import Omniprobe.Lib.Text

/-!
# Splitting, trimming and reading numbers

The routines of the C and C++ libraries that a hand-written parser is made of, and what they
give on a text that was put together from items, separators and blanks.
-/

namespace Omniprobe.Lib

/-! ### Trimming -/

section
variable {α : Type}

/-- The part between the first and the last element that is not blank. -/
def trim (blank : α → Bool) (s : List α) : List α := (s.dropWhile blank).rdropWhile blank

def Trimmed (blank : α → Bool) (s : List α) : Prop :=
  (∀ c ∈ s.head?, blank c = false) ∧ ∀ c ∈ s.getLast?, blank c = false

instance (blank : α → Bool) (s : List α) : Decidable (Trimmed blank s) := inferInstanceAs (Decidable (_ ∧ _))

theorem rdropWhile_append_of_pos {p : α → Bool} {s after : List α} (all : ∀ c ∈ after, p c) :
    (s ++ after).rdropWhile p = s.rdropWhile p := by
  unfold List.rdropWhile
  rw [List.reverse_append, List.dropWhile_append_of_pos fun c member => all c (List.mem_reverse.mp member)]

theorem trim_padded {blank : α → Bool} {s before after : List α} (trimmed : Trimmed blank s)
    (leading : ∀ c ∈ before, blank c) (trailing : ∀ c ∈ after, blank c) :
    trim blank (before ++ s ++ after) = s := by
  unfold trim
  rw [List.append_assoc, List.dropWhile_append_of_pos leading]
  cases s with
  | nil =>
    rw [List.nil_append, List.dropWhile_eq_nil_iff.mpr trailing]
    rfl
  | cons first rest =>
    have kept : ¬blank first := by simp [trimmed.1 first rfl]
    rw [List.cons_append, List.dropWhile_cons_of_neg kept, ← List.cons_append, rdropWhile_append_of_pos trailing,
      List.rdropWhile_eq_self_iff]
    intro long
    simp [trimmed.2 _ (List.getLast?_eq_some_getLast long)]

theorem trim_split (blank : α → Bool) (s : List α) :
    ∃ before after, s = before ++ trim blank s ++ after ∧ (∀ c ∈ before, blank c) ∧ (∀ c ∈ after, blank c) ∧
      Trimmed blank (trim blank s) := by
  refine ⟨s.takeWhile blank, (s.dropWhile blank).rtakeWhile blank, ?_, ?_, ?_, ?_, ?_⟩
  · rw [trim, List.append_assoc, List.rdropWhile_append_rtakeWhile, List.takeWhile_append_dropWhile]
  · exact fun c member => List.mem_takeWhile_imp member
  · exact fun c member => List.mem_rtakeWhile_imp member
  · intro c first
    rw [trim] at first
    obtain ⟨rest, whole⟩ := List.rdropWhile_prefix blank (l := s.dropWhile blank)
    have start : (s.dropWhile blank).head? = some c := by
      rw [← whole, List.head?_append_of_ne_nil _ (List.ne_nil_of_mem (List.mem_of_mem_head? first))]
      exact first
    have stops := List.head?_dropWhile_not blank s
    rw [start] at stops
    simpa using stops
  · intro c last
    have filled : (s.dropWhile blank).rdropWhile blank ≠ [] := List.ne_nil_of_mem (List.mem_of_mem_getLast? last)
    have stops := List.rdropWhile_last_not blank (s.dropWhile blank) filled
    rw [trim, List.getLast?_eq_some_getLast filled, Option.mem_some_iff] at last
    simpa [last] using stops

theorem trim_eq_rdropWhile {blank : α → Bool} {s : List α} (filled : s.rdropWhile blank ≠ [])
    (first : ∀ c ∈ (s.rdropWhile blank).head?, blank c = false) : trim blank s = s.rdropWhile blank := by
  obtain ⟨after, whole⟩ := List.rdropWhile_prefix blank (l := s)
  obtain ⟨c, rest, start⟩ := List.exists_cons_of_ne_nil filled
  have kept : ¬blank c := by simp [first c (by rw [start]; rfl)]
  have front : s.dropWhile blank = s := by
    rw [← whole, start, List.cons_append, List.dropWhile_cons_of_neg kept]
  rw [trim, front]

/-- Around an element that is not blank, the two sides are trimmed alone. -/
theorem trim_append_cons {blank : α → Bool} {c : α} (visible : blank c = false) (s t : List α) :
    trim blank (s ++ c :: t) = s.dropWhile blank ++ c :: t.rdropWhile blank := by
  have kept : ¬blank c := by simp [visible]
  have front : (s ++ c :: t).dropWhile blank = s.dropWhile blank ++ c :: t := by
    rw [List.dropWhile_append, List.dropWhile_cons_of_neg kept]
    split
    · rename_i blanks
      rw [List.isEmpty_iff.mp blanks, List.nil_append]
    · rfl
  have back : (s.dropWhile blank ++ c :: t).rdropWhile blank = s.dropWhile blank ++ c :: t.rdropWhile blank := by
    unfold List.rdropWhile
    rw [List.reverse_append, List.reverse_cons, List.append_assoc, List.dropWhile_append]
    split
    · rename_i blanks
      rw [List.isEmpty_iff.mp blanks]
      simp [kept]
    · simp
  rw [trim, front, back]

end

/-! ### Items between separators -/

section
variable {α : Type}

/-- The items in order, with a separator between two of them and blanks around each separator. -/
inductive Joined (blank : α → Bool) (sep : α) : List (List α) → List α → Prop where
  | one (item : List α) : Joined blank sep [item] item
  | more (item before after : List α) {rest : List (List α)} {text : List α}
      (leading : ∀ c ∈ before, blank c) (trailing : ∀ c ∈ after, blank c) (joined : Joined blank sep rest text) :
      Joined blank sep (item :: rest) (item ++ before ++ sep :: (after ++ text))

variable {blank : α → Bool} {sep : α}

theorem Joined.ne_nil {list : List (List α)} {text : List α} (joined : Joined blank sep list text) : list ≠ [] := by
  cases joined <;> simp

theorem Joined.head_of_items {list : List (List α)} {text : List α} (joined : Joined blank sep list text) {P : α → Prop}
    (first : ∀ item ∈ list, item ≠ [] ∧ ∀ c ∈ item.head?, P c) : text ≠ [] ∧ ∀ c ∈ text.head?, P c := by
  cases joined with
  | one item => exact first text List.mem_cons_self
  | more item before after leading trailing joined =>
    obtain ⟨filled, starts⟩ := first item List.mem_cons_self
    obtain ⟨c, rest, rfl⟩ := List.exists_cons_of_ne_nil filled
    exact ⟨by simp, fun d member => starts d (by simpa using member)⟩

theorem Joined.getLast_of_items {list : List (List α)} {text : List α} (joined : Joined blank sep list text)
    {P : α → Prop} (last : ∀ item ∈ list, item ≠ [] ∧ ∀ c ∈ item.getLast?, P c) :
    text ≠ [] ∧ ∀ c ∈ text.getLast?, P c := by
  induction joined with
  | one item => exact last item List.mem_cons_self
  | more item before after leading trailing joined ih =>
    obtain ⟨filled, ends⟩ := ih fun other member => last other (List.mem_cons_of_mem _ member)
    refine ⟨by simp, fun c member => ends c ?_⟩
    rwa [← List.cons_append, ← List.append_assoc, List.getLast?_append_of_ne_nil _ filled] at member

theorem Joined.last_suffix {list : List (List α)} {text : List α} (joined : Joined blank sep list text) :
    ∃ item ∈ list, item <:+ text := by
  induction joined with
  | one item => exact ⟨item, List.mem_singleton.mpr rfl, List.suffix_refl item⟩
  | more item before after leading trailing joined ih =>
    obtain ⟨last, member, suffix⟩ := ih
    refine ⟨last, List.mem_cons_of_mem _ member, suffix.trans ?_⟩
    exact (List.suffix_append _ _).trans ((List.suffix_cons _ _).trans (List.suffix_append _ _))

theorem Joined.not_mem {list : List (List α)} {text : List α} (joined : Joined blank sep list text) {c : α}
    (visible : blank c = false) (different : c ≠ sep) (absent : ∀ item ∈ list, c ∉ item) : c ∉ text := by
  have unblanked {blanks : List α} (all : ∀ c ∈ blanks, blank c) : c ∉ blanks := by
    intro member
    rw [all c member] at visible
    cases visible
  induction joined with
  | one item => exact absent item List.mem_cons_self
  | more item before after leading trailing joined ih =>
    have inside := absent item List.mem_cons_self
    have later := ih fun other member => absent other (List.mem_cons_of_mem _ member)
    simp [inside, unblanked leading, different, unblanked trailing, later]

variable [DecidableEq α]

/-- What a loop of `std::getline(stream, line, sep)` reads from a stream: the last line only when
there is something in it. -/
def getlines (sep : α) (s : List α) : List (List α) :=
  let lines := s.splitOn sep
  if lines.getLast? = some [] then lines.dropLast else lines

/-- The lines of a loop that trims each one and skips those with nothing left. -/
def items (blank : α → Bool) (sep : α) (s : List α) : List (List α) :=
  ((getlines sep s).map (trim blank)).filter (· ≠ [])

theorem items_eq_splitOn (s : List α) :
    items blank sep s = ((s.splitOn sep).map (trim blank)).filter (· ≠ []) := by
  unfold items getlines
  dsimp only
  split
  · rename_i ending
    obtain ⟨lines, whole⟩ := List.getLast?_eq_some_iff.mp ending
    rw [whole, List.dropLast_concat, List.map_append, List.filter_append]
    simp [trim]
  · rfl

theorem ne_nil_of_mem_items {s item : List α} (member : item ∈ items blank sep s) : item ≠ [] := by
  simpa using (List.mem_filter.mp member).2

theorem items_append (a b : List α) :
    items blank sep (a ++ sep :: b) = items blank sep a ++ items blank sep b := by
  rw [items_eq_splitOn, items_eq_splitOn, items_eq_splitOn, List.splitOn_append_cons_self, List.map_append,
    List.filter_append]

theorem items_of_not_mem {s : List α} (absent : sep ∉ s) :
    items blank sep s = if trim blank s = [] then [] else [trim blank s] := by
  rw [items_eq_splitOn, List.splitOn_eq_singleton absent, List.map_singleton, List.filter_singleton]
  simp

theorem items_cons_ne_nil {c : α} (visible : blank c = false) (other : c ≠ sep) (rest : List α) :
    items blank sep (c :: rest) ≠ [] := by
  obtain ⟨first, later, split⟩ := List.exists_cons_of_ne_nil (List.splitOn_ne_nil sep rest)
  have filled : trim blank (c :: first) ≠ [] := by
    have whole := trim_append_cons visible [] first
    rw [List.nil_append] at whole
    simp [whole]
  rw [items_eq_splitOn, List.splitOn_cons_eq_if_modifyHead, if_neg (by simpa using other), split, List.modifyHead_cons,
    List.map_cons, List.filter_cons_of_pos (by simpa using filled)]
  exact List.cons_ne_nil _ _

theorem Joined.splitOn_trim {list : List (List α)} {text : List α} (joined : Joined blank sep list text)
    (visible : blank sep = false) (clean : ∀ item ∈ list, sep ∉ item ∧ Trimmed blank item) {lead : List α}
    (leading : ∀ c ∈ lead, blank c) : ((lead ++ text).splitOn sep).map (trim blank) = list := by
  have unseparated {blanks : List α} (all : ∀ c ∈ blanks, blank c) : sep ∉ blanks := by
    intro member
    rw [all sep member] at visible
    cases visible
  -- The blanks after a separator are the leading ones of the next item.
  induction joined generalizing lead with
  | one item =>
    obtain ⟨inside, trimmed⟩ := clean item List.mem_cons_self
    have whole : sep ∉ lead ++ item := by simp [unseparated leading, inside]
    rw [List.splitOn_eq_singleton whole, List.map_singleton]
    simpa using trim_padded trimmed leading (List.forall_mem_nil _)
  | @more item before after rest text padding following joined ih =>
    obtain ⟨inside, trimmed⟩ := clean item List.mem_cons_self
    have whole : sep ∉ lead ++ item ++ before := by simp [unseparated leading, unseparated padding, inside]
    have regroup : lead ++ (item ++ before ++ sep :: (after ++ text)) =
        lead ++ item ++ before ++ sep :: (after ++ text) := by
      simp only [List.append_assoc]
    rw [regroup, List.splitOn_append_cons_self_of_not_mem whole, List.map_cons, trim_padded trimmed leading padding,
      ih (fun other member => clean other (List.mem_cons_of_mem _ member)) following]

/-- Reading back what was joined, when no item is empty or holds the separator. -/
theorem Joined.items_eq {list : List (List α)} {text : List α} (joined : Joined blank sep list text)
    (visible : blank sep = false) (clean : ∀ item ∈ list, sep ∉ item ∧ Trimmed blank item)
    (filled : ∀ item ∈ list, item ≠ []) : items blank sep text = list := by
  have lines := joined.splitOn_trim visible clean (List.forall_mem_nil _)
  rw [List.nil_append] at lines
  rw [items_eq_splitOn, lines, List.filter_eq_self]
  simpa using filled

end

/-! ### Numbers -/

def isSpace (c : Char) : Bool := c ∈ [' ', '\t', '\n', '\x0b', '\x0c', '\r']

def ulongMax : Nat := 2 ^ 64 - 1

/-- `strtoul(s.c_str(), &end, 10)`: the value and the C string at `end`. -/
def strtoul (s : Text) : UInt64 × Text :=
  let cString := s.takeWhile (· ≠ '\x00')
  let body := cString.dropWhile isSpace
  let negative := body.head? = some '-'
  let unsigned := if negative ∨ body.head? = some '+' then body.tail else body
  let digits := unsigned.takeWhile Char.isDigit
  -- Without digits nothing is converted and `end` is the start of the string.
  if digits = [] then (0, cString)
  else
    let magnitude := Nat.ofDigitChars 10 digits 0
    let value :=
      if ulongMax < magnitude then .ofNat ulongMax
      else if negative then -.ofNat magnitude
      else .ofNat magnitude
    (value, unsigned.dropWhile Char.isDigit)

end Omniprobe.Lib
