import Mathlib

/-!
# Lists of nodes

A linked list whose nodes are told apart by a key, and an iterator into it: the key of a node, or
`none` at the end. Nodes inserted before an iterator do not move it.
-/

namespace Omniprobe.Lib

section
variable {α : Type} (key : α → Nat)

/-- `list.begin()`. -/
def firstNode (nodes : List α) : Option Nat := nodes.head?.map key

/-- The iterator behind a node. -/
def nextNode (at' : Nat) : List α → Option Nat
  | [] => none
  | node :: rest => if key node = at' then firstNode key rest else nextNode at' rest

/-- The nodes with more of them before the one with the key. -/
def insertBefore (at' : Nat) (new : List α) : List α → List α
  | [] => []
  | node :: rest => if key node = at' then new ++ node :: rest else node :: insertBefore at' new rest

variable {key} {before rest : List α} {node : α}

theorem nextNode_split (absent : ∀ other ∈ before, key other ≠ key node) :
    nextNode key (key node) (before ++ node :: rest) = firstNode key rest := by
  induction before with
  | nil => exact if_pos rfl
  | cons other before ih =>
    obtain ⟨different, absent⟩ := List.forall_mem_cons.mp absent
    rw [List.cons_append, nextNode, if_neg different, ih absent]

theorem insertBefore_split (new : List α) (absent : ∀ other ∈ before, key other ≠ key node) :
    insertBefore key (key node) new (before ++ node :: rest) = (before ++ new) ++ node :: rest := by
  induction before with
  | nil => exact if_pos rfl
  | cons other before ih =>
    obtain ⟨different, absent⟩ := List.forall_mem_cons.mp absent
    rw [List.cons_append, insertBefore, if_neg different, ih absent]
    rfl

theorem find_split (absent : ∀ other ∈ before, key other ≠ key node) :
    (before ++ node :: rest).find? (fun other => key other = key node) = some node := by
  have none : before.find? (fun other => key other = key node) = none := by
    rw [List.find?_eq_none]
    exact fun other member => by simpa using absent other member
  rw [List.find?_append, none, Option.none_or, List.find?_cons_of_pos (by simp)]

end

end Omniprobe.Lib
