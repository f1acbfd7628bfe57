import Mathlib

/-!
# Ordered maps

`std::map` is `Std.ExtTreeMap` with the key type's `compare`. This module states its
lookup lemmas with key equality, and gives the two-level maps `map<A, map<B, V>>`.
-/

namespace Omniprobe.Lib
open Std

abbrev Map (K V : Type) [Ord K] := ExtTreeMap K V compare

/-- `m[k]` as a statement: the entry is made with a default value when there is none. -/
def touch {K V : Type} [Ord K] [TransOrd K] (m : Map K V) (k : K) (fallback : V) : Map K V :=
  if k ∈ m then m else m.insert k fallback

/-- Entries made one after the other, each unless its key has one already. -/
def touchAll {K V : Type} [Ord K] [TransOrd K] (m : Map K V) (entries : List (K × V)) : Map K V :=
  entries.foldl (fun m entry => touch m entry.1 entry.2) m

/-- The entry at `k`, made or changed by `f`. -/
def upsert {K V : Type} [Ord K] [TransOrd K] (m : Map K V) (k : K) (f : Option V → V) : Map K V :=
  m.insert k (f m[k]?)

section OneLevel
variable {K V : Type} [Ord K] [TransOrd K]

theorem find_insert_self (m : Map K V) (k : K) (v : V) : (m.insert k v)[k]? = some v :=
  ExtTreeMap.getElem?_insert_self

theorem find_erase_self (m : Map K V) (k : K) : (m.erase k)[k]? = none :=
  ExtTreeMap.getElem?_erase_self

theorem mem_iff_find (m : Map K V) (k : K) : k ∈ m ↔ ∃ v, m[k]? = some v := by
  rw [ExtTreeMap.mem_iff_isSome_getElem?, Option.isSome_iff_exists]

variable [LawfulEqOrd K]

theorem find_insert [DecidableEq K] (m : Map K V) (k k' : K) (v : V) :
    (m.insert k v)[k']? = if k = k' then some v else m[k']? := by
  rw [ExtTreeMap.getElem?_insert]
  simp only [LawfulEqCmp.compare_eq_iff_eq]

theorem find_insert_ne (m : Map K V) {k k' : K} (v : V) (different : k ≠ k') :
    (m.insert k v)[k']? = m[k']? := by
  rw [ExtTreeMap.getElem?_insert, if_neg]
  exact fun same => different (LawfulEqCmp.compare_eq_iff_eq.mp same)

theorem find_erase_ne (m : Map K V) {k k' : K} (different : k ≠ k') :
    (m.erase k)[k']? = m[k']? := by
  rw [ExtTreeMap.getElem?_erase, if_neg]
  exact fun same => different (LawfulEqCmp.compare_eq_iff_eq.mp same)

theorem mem_insert_iff (m : Map K V) (k k' : K) (v : V) :
    k' ∈ m.insert k v ↔ k = k' ∨ k' ∈ m := by
  rw [ExtTreeMap.mem_insert, LawfulEqCmp.compare_eq_iff_eq]

theorem mem_erase_iff (m : Map K V) (k k' : K) :
    k' ∈ m.erase k ↔ k ≠ k' ∧ k' ∈ m := by
  rw [ExtTreeMap.mem_erase, ne_eq, ne_eq, LawfulEqCmp.compare_eq_iff_eq]

/-- What is listed for different keys is different when it tells its key. -/
theorem nodup_flatMap_toList {E : Type} {m : Map K V} {f : K × V → List E} (key : E → K)
    (each : ∀ entry ∈ m.toList, (f entry).Nodup) (keyed : ∀ entry ∈ m.toList, ∀ x ∈ f entry, key x = entry.1) :
    (m.toList.flatMap f).Nodup := by
  refine List.nodup_flatMap.mpr ⟨each, ?_⟩
  refine ExtTreeMap.distinct_keys_toList.imp_of_mem fun {first second} memberFirst memberSecond different => ?_
  intro x inFirst inSecond
  have same : first.1 = second.1 := (keyed first memberFirst x inFirst).symm.trans (keyed second memberSecond x inSecond)
  exact different (LawfulEqCmp.compare_eq_iff_eq.mpr same)

variable [DecidableEq K]

theorem find_upsert (m : Map K V) (k k' : K) (f : Option V → V) :
    (upsert m k f)[k']? = if k = k' then some (f m[k]?) else m[k']? := find_insert m k k' (f m[k]?)

theorem upsert_comm (m : Map K V) (k k' : K) {f g : Option V → V}
    (commute : k = k' → ∀ entry, g (some (f entry)) = f (some (g entry))) :
    upsert (upsert m k f) k' g = upsert (upsert m k' g) k f := by
  refine ExtTreeMap.ext_getElem? fun other => ?_
  simp only [find_upsert]
  by_cases same : k = k'
  · subst same
    by_cases here : k = other
    · simp [here, commute rfl]
    · simp [here]
  · by_cases first : k = other <;> by_cases second : k' = other
    · exact (same (first.trans second.symm)).elim
    · simp [first, second]
    · simp [first, second]
    · simp [first, second]

theorem upsert_idem (m : Map K V) (k : K) {f : Option V → V} (idem : ∀ entry, f (some (f entry)) = f entry) :
    upsert (upsert m k f) k f = upsert m k f := by
  refine ExtTreeMap.ext_getElem? fun other => ?_
  simp only [find_upsert]
  by_cases here : k = other <;> simp [here, idem]

theorem find_inserts {E : Type} (entries : List E) (key : E → K) (value : E → V) (of : K → V)
    (agree : ∀ entry ∈ entries, value entry = of (key entry)) (m : Map K V) (k : K) :
    (entries.foldl (fun m entry => m.insert (key entry) (value entry)) m)[k]? =
      if k ∈ entries.map key then some (of k) else m[k]? := by
  induction entries generalizing m with
  | nil => rfl
  | cons entry rest ih =>
    rw [List.foldl_cons, ih fun other member => agree other (List.mem_cons_of_mem _ member), find_insert,
      agree entry List.mem_cons_self]
    by_cases same : key entry = k
    · simp [same]
    · simp [same, Ne.symm same]

theorem find_touch (m : Map K V) (k k' : K) (v : V) :
    (touch m k v)[k']? = m[k']?.or (if k = k' then some v else none) := by
  unfold touch
  split
  · rename_i member
    split
    · rename_i same
      obtain ⟨old, found⟩ := (mem_iff_find m k').mp (same ▸ member)
      rw [found, Option.some_or]
    · rw [Option.or_none]
  · rename_i missing
    rw [find_insert]
    split
    · rename_i same
      have absent : m[k']? = none := by
        rw [← same]
        by_contra present
        obtain ⟨old, found⟩ := Option.ne_none_iff_exists'.mp present
        exact missing ((mem_iff_find m k).mpr ⟨old, found⟩)
      rw [absent, Option.none_or]
    · rw [Option.or_none]

/-- The first entry for a key is the one that stays. -/
theorem find_touchAll (m : Map K V) (entries : List (K × V)) (k : K) :
    (touchAll m entries)[k]? = m[k]?.or ((entries.find? (·.1 = k)).map Prod.snd) := by
  induction entries generalizing m with
  | nil => simp [touchAll]
  | cons entry rest ih =>
    have next := ih (touch m entry.1 entry.2)
    rw [touchAll, List.foldl_cons]
    rw [touchAll] at next
    rw [next, find_touch, List.find?_cons, Option.or_assoc]
    by_cases same : entry.1 = k <;> simp [same]

end OneLevel

/-! ### Two levels -/

section TwoLevel
variable {A B V : Type} [Ord A] [TransOrd A] [Ord B] [TransOrd B]

abbrev Map₂ (A B V : Type) [Ord A] [Ord B] := Map A (Map B V)

/-- `m.find(a)` and then `find(b)` in what it points to. -/
def find₂ (m : Map₂ A B V) (a : A) (b : B) : Option V := m[a]?.bind (·[b]?)

def insert₂ (m : Map₂ A B V) (a : A) (b : B) (v : V) : Map₂ A B V :=
  m.insert a ((m[a]?.getD ∅).insert b v)

theorem find₂_insert₂_self (m : Map₂ A B V) (a : A) (b : B) (v : V) :
    find₂ (insert₂ m a b v) a b = some v := by
  simp only [find₂, insert₂, find_insert_self, Option.bind_some]

theorem find₂_empty (a : A) (b : B) : find₂ (∅ : Map₂ A B V) a b = none := by
  simp [find₂]

variable [LawfulEqOrd A]

theorem find₂_touch_empty (m : Map₂ A B V) (a a' : A) (b : B) : find₂ (touch m a ∅) a' b = find₂ m a' b := by
  unfold find₂ touch
  split
  · rfl
  · rename_i missing
    by_cases same : a = a'
    · subst same
      have absent : m[a]? = none := by
        by_contra present
        obtain ⟨row, found⟩ := Option.ne_none_iff_exists'.mp present
        exact missing ((mem_iff_find m a).mpr ⟨row, found⟩)
      rw [find_insert_self, absent]
      simp
    · rw [find_insert_ne _ _ same]

variable [LawfulEqOrd B]

theorem find₂_insert₂_ne (m : Map₂ A B V) {a a' : A} {b b' : B} (v : V)
    (different : ¬(a = a' ∧ b = b')) : find₂ (insert₂ m a b v) a' b' = find₂ m a' b' := by
  unfold find₂ insert₂
  by_cases outer : a = a'
  · subst outer
    have inner : b ≠ b' := fun same => different ⟨rfl, same⟩
    rw [find_insert_self, Option.bind_some, find_insert_ne _ _ inner]
    cases m[a]? with
    | none => simp
    | some row => rfl
  · rw [find_insert_ne _ _ outer]

theorem find₂_insert₂ [DecidableEq A] [DecidableEq B] (m : Map₂ A B V) (a a' : A) (b b' : B) (v : V) :
    find₂ (insert₂ m a b v) a' b' = if a = a' ∧ b = b' then some v else find₂ m a' b' := by
  split
  · rename_i same
    obtain ⟨rfl, rfl⟩ := same
    exact find₂_insert₂_self m a b v
  · rename_i different
    exact find₂_insert₂_ne m v different

end TwoLevel

end Omniprobe.Lib
