import Mathlib

/-!
# Sets closed under a relation

The least set that holds a start and every successor of what it holds, and when one round of
successors is already all of it.
-/

namespace Omniprobe.Lib

section
variable {α : Type} (R : α → α → Prop) (S : Set α)

def successors : Set α := {y | ∃ x ∈ S, R x y}

def Closed (T : Set α) : Prop := ∀ x ∈ T, ∀ y, R x y → y ∈ T

def reached : Set α := {y | ∃ x ∈ S, Relation.ReflTransGen R x y}

variable {R S}

theorem subset_reached : S ⊆ reached R S := fun x member => ⟨x, member, .refl⟩

theorem closed_reached : Closed R (reached R S) := by
  rintro x ⟨start, member, path⟩ y next
  exact ⟨start, member, path.tail next⟩

/-- It is the least closed set with the start in it. -/
theorem reached_subset {T : Set α} (starts : S ⊆ T) (closed : Closed R T) : reached R S ⊆ T := by
  rintro y ⟨start, member, path⟩
  induction path with
  | refl => exact starts member
  | tail before next ih => exact closed _ ih _ next

theorem successors_subset_reached : successors R S ⊆ reached R S := by
  rintro y ⟨x, member, next⟩
  exact closed_reached x (subset_reached member) y next

/-- A set between the start and everything reached is all of it exactly when it is closed. -/
theorem eq_reached_iff_closed {T : Set α} (starts : S ⊆ T) (within : T ⊆ reached R S) :
    T = reached R S ↔ Closed R T := by
  constructor
  · rintro rfl
    exact closed_reached
  · intro closed
    exact within.antisymm (reached_subset starts closed)

/-- One round of successors reaches everything exactly when a second one adds nothing. -/
theorem once_eq_reached_iff :
    S ∪ successors R S = reached R S ↔ successors R (successors R S) ⊆ S ∪ successors R S := by
  rw [eq_reached_iff_closed Set.subset_union_left (Set.union_subset subset_reached successors_subset_reached)]
  constructor
  · rintro closed z ⟨y, second, next⟩
    exact closed y (.inr second) z next
  · rintro adds x (first | second) y next
    · exact .inr ⟨x, first, next⟩
    · exact adds ⟨x, second, next⟩

end

end Omniprobe.Lib
