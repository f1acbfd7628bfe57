import Mathlib

/-!
# Interleaved sequences

A list whose items belong to different keys is an interleaving of the sequences of its keys. What is
added up over the steps of these sequences can be added up in the order of the list. A queue may also
merge an entry into an equal one before it.
-/

namespace Omniprobe.Lib

section
variable {α K : Type} [DecidableEq K] (key : α → K)

/-- The items of one key, in order. -/
def ofKey (k : K) (items : List α) : List α := items.filter fun item => key item = k

/-- Each item with the one after it. -/
def steps (items : List α) : List (α × α) := items.zip items.tail

theorem steps_cons_cons (first second : α) (rest : List α) :
    steps (first :: second :: rest) = (first, second) :: steps (second :: rest) := rfl

/-- Each item with the last earlier one of its key, if there is one. -/
def transitionsFrom (before : List α) : List α → List (α × α)
  | [] => []
  | item :: rest =>
    ((ofKey key (key item) before).getLast?.map fun earlier => (earlier, item)).toList ++
      transitionsFrom (before ++ [item]) rest

theorem ofKey_append_singleton (k : K) (before : List α) (item : α) :
    ofKey key k (before ++ [item]) = if key item = k then ofKey key k before ++ [item] else ofKey key k before := by
  rw [ofKey, List.filter_append]
  by_cases same : key item = k <;> simp [same, ofKey]

theorem ofKey_cons (k : K) (item : α) (rest : List α) :
    ofKey key k (item :: rest) = if key item = k then item :: ofKey key k rest else ofKey key k rest := by
  rw [ofKey, List.filter_cons]
  simp [ofKey]

theorem transitionsFrom_key {before items : List α} {step : α × α}
    (taken : step ∈ transitionsFrom key before items) : key step.1 = key step.2 ∧ step.2 ∈ items := by
  induction items generalizing before with
  | nil => cases taken
  | cons item rest ih =>
    rcases List.mem_append.mp taken with here | later
    · obtain ⟨earlier, last, rfl⟩ := Option.map_eq_some_iff.mp (Option.mem_toList.mp here)
      have member := List.mem_filter.mp (List.mem_of_getLast? last)
      exact ⟨by simpa using member.2, List.mem_cons_self⟩
    · exact ⟨(ih later).1, List.mem_cons_of_mem _ (ih later).2⟩

/-- The transitions of one key are the steps of its sequence. -/
theorem transitionsFrom_ofKey (k : K) (before items : List α) :
    (transitionsFrom key before items).filter (fun step => key step.2 = k) =
      steps ((ofKey key k before).getLast?.toList ++ ofKey key k items) := by
  induction items generalizing before with
  | nil =>
    cases (ofKey key k before).getLast? <;> rfl
  | cons item rest ih =>
    rw [transitionsFrom, List.filter_append, ih, ofKey_append_singleton, ofKey_cons]
    by_cases same : key item = k
    · subst same
      simp only [if_true, List.getLast?_append, List.getLast?_singleton, Option.some_or, Option.toList_some]
      cases (ofKey key (key item) before).getLast? with
      | none => simp
      | some earlier => simp [steps_cons_cons]
    · simp only [same, if_false]
      cases (ofKey key (key item) before).getLast? with
      | none => simp
      | some earlier => simp [same]

/-- Keys that tell the same items apart give the same transitions. -/
theorem transitionsFrom_congr {L : Type} [DecidableEq L] {key : α → K} {key' : α → L} {before items : List α}
    (same : ∀ first ∈ before ++ items, ∀ second ∈ before ++ items, key first = key second ↔ key' first = key' second) :
    transitionsFrom key before items = transitionsFrom key' before items := by
  induction items generalizing before with
  | nil => rfl
  | cons item rest ih =>
    have present : item ∈ before ++ item :: rest := List.mem_append_right _ List.mem_cons_self
    have earlier : ofKey key (key item) before = ofKey key' (key' item) before :=
      List.filter_congr fun other member => decide_eq_decide.mpr (same other (List.mem_append_left _ member) item present)
    rw [transitionsFrom, transitionsFrom, earlier, ih]
    rw [List.append_assoc, List.singleton_append]
    exact same

theorem sum_by_key {M : Type} [AddCommMonoid M] (f : α → M) (keys : Finset K) {items : List α}
    (all : ∀ item ∈ items, key item ∈ keys) :
    (items.map f).sum = ∑ k ∈ keys, ((ofKey key k items).map f).sum := by
  induction items with
  | nil => simp [ofKey]
  | cons item rest ih =>
    have first : key item ∈ keys := all item List.mem_cons_self
    have split : ∀ k, ((ofKey key k (item :: rest)).map f).sum =
        (if key item = k then f item else 0) + ((ofKey key k rest).map f).sum := by
      intro k
      rw [ofKey_cons]
      by_cases same : key item = k <;> simp [same]
    simp only [split]
    rw [List.map_cons, List.sum_cons, ih fun other member => all other (List.mem_cons_of_mem _ member),
      Finset.sum_add_distrib, Finset.sum_ite_eq, if_pos first]

end

section
variable {α : Type} (g : α → Nat)

theorem sum_steps_eq (first : α) {rest : List α}
    (ordered : (first :: rest).Pairwise fun a b => g a ≤ g b) :
    g first + ((steps (first :: rest)).map fun step => g step.2 - g step.1).sum =
      g ((first :: rest).getLast (List.cons_ne_nil first rest)) := by
  induction rest generalizing first with
  | nil => rfl
  | cons second rest ih =>
    obtain ⟨later, ordered⟩ := List.pairwise_cons.mp ordered
    have next := ih second ordered
    have up := later second List.mem_cons_self
    rw [steps_cons_cons, List.map_cons, List.sum_cons, List.getLast_cons (List.cons_ne_nil second rest), ← next]
    dsimp only
    omega

theorem steps_ordered {items : List α} (ordered : items.Pairwise fun a b => g a ≤ g b) {step : α × α}
    (taken : step ∈ steps items) : g step.1 ≤ g step.2 := by
  induction items with
  | nil => cases taken
  | cons first rest ih =>
    obtain ⟨later, ordered⟩ := List.pairwise_cons.mp ordered
    cases rest with
    | nil => cases taken
    | cons second rest =>
      rw [steps_cons_cons] at taken
      rcases List.mem_cons.mp taken with rfl | taken
      · exact later second List.mem_cons_self
      · exact ih ordered taken

end

/-! ### Merged repetitions -/

/-- The second list is the first with some of the entries left out that are equal to the one before. -/
inductive Merges {α : Type} : List α → List α → Prop where
  | nil : Merges [] []
  | keep {all kept : List α} (before : Merges all kept) (a : α) : Merges (all ++ [a]) (kept ++ [a])
  | merge {all kept : List α} {a : α} (before : Merges all kept) (last : kept.getLast? = some a) : Merges (all ++ [a]) kept

namespace Merges

theorem append {α : Type} {all kept : List α} (merges : Merges all kept) (more : List α) :
    Merges (all ++ more) (kept ++ more) := by
  induction more generalizing all kept with
  | nil =>
    rw [List.append_nil, List.append_nil]
    exact merges
  | cons a more ih =>
    have next := ih (merges.keep a)
    rw [List.append_assoc, List.append_assoc] at next
    exact next

theorem mem_iff {α : Type} {all kept : List α} (merges : Merges all kept) {a : α} : a ∈ kept ↔ a ∈ all := by
  induction merges generalizing a with
  | nil => rfl
  | keep _ b ih => rw [List.mem_append, List.mem_append, ih]
  | @merge all kept b _ last ih =>
    have inside : b ∈ all := ih.mp (List.mem_of_getLast? last)
    rw [ih, List.mem_append, List.mem_singleton]
    exact ⟨.inl, fun either => either.elim id fun same => same ▸ inside⟩

theorem filterMap {α β : Type} {all kept : List α} (merges : Merges all kept) (f : α → Option β) :
    Merges (all.filterMap f) (kept.filterMap f) := by
  induction merges with
  | nil => exact .nil
  | keep _ a ih =>
    rw [List.filterMap_append, List.filterMap_append]
    exact ih.append _
  | @merge all kept a _ last ih =>
    obtain ⟨before, rfl⟩ := List.getLast?_eq_some_iff.mp last
    rw [List.filterMap_append] at ih ⊢
    rw [List.filterMap_append]
    cases found : f a with
    | none =>
      rw [List.filterMap_cons_none found, List.filterMap_nil, List.append_nil] at ih ⊢
      rw [List.append_nil]
      exact ih
    | some b =>
      rw [List.filterMap_cons_some found, List.filterMap_nil] at ih ⊢
      exact ih.merge List.getLast?_concat

end Merges

end Omniprobe.Lib
