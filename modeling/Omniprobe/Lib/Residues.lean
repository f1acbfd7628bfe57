import Mathlib

/-!
# Residue classes of aligned blocks

A set of block starts, all multiples of the block length `w`, has in its fullest class modulo `n`
as many members as the set of everything in the blocks, when `w` divides `n`.
-/

namespace Omniprobe.Lib

def residueClass (n : Nat) (members : Finset Nat) (r : Nat) : Finset Nat := members.filter (· % n = r)

def fullestClass (n : Nat) (members : Finset Nat) : Nat :=
  (Finset.range n).sup fun r => (residueClass n members r).card

/-- The blocks of length `w` that start at the given numbers. -/
def blocks (w : Nat) (starts : Finset Nat) : Finset Nat :=
  starts.biUnion fun start => (Finset.range w).image (start + ·)

theorem mem_blocks {w : Nat} {starts : Finset Nat} {x : Nat} :
    x ∈ blocks w starts ↔ ∃ start ∈ starts, ∃ i < w, start + i = x := by
  simp only [blocks, Finset.mem_biUnion, Finset.mem_image, Finset.mem_range]

theorem block_start_eq {w start i : Nat} (aligned : w ∣ start) (inside : i < w) :
    start = (start + i) - (start + i) % w := by
  obtain ⟨k, rfl⟩ := aligned
  rw [Nat.mul_add_mod, Nat.mod_eq_of_lt inside]
  omega

theorem residueClass_blocks_card_le {w n : Nat} {starts : Finset Nat} (aligned : ∀ start ∈ starts, w ∣ start)
    (divides : w ∣ n) (r : Nat) :
    (residueClass n (blocks w starts) r).card ≤ (residueClass n starts (r - r % w)).card := by
  have inside : ∀ x ∈ residueClass n (blocks w starts) r, ∃ start ∈ starts, ∃ i < w, start + i = x ∧ x % n = r := by
    intro x member
    obtain ⟨block, residue⟩ := Finset.mem_filter.mp member
    obtain ⟨start, known, i, short, rfl⟩ := mem_blocks.mp block
    exact ⟨start, known, i, short, rfl, residue⟩
  -- Each member goes back to the start of its block; within one class the offset is the same.
  refine Finset.card_le_card_of_injOn (fun x => x - x % w) ?_ ?_
  · intro x member
    obtain ⟨start, known, i, short, rfl, residue⟩ := inside x member
    have back := block_start_eq (aligned start known) short
    rw [Finset.mem_coe, residueClass, Finset.mem_filter]
    dsimp only
    rw [← back]
    refine ⟨known, ?_⟩
    obtain ⟨k, rfl⟩ := aligned start known
    obtain ⟨m, rfl⟩ := divides
    have offset : r % w = i := by
      rw [← residue, Nat.mod_mul_right_mod, Nat.mul_add_mod, Nat.mod_eq_of_lt short]
    rw [offset, ← residue, Nat.mul_mod_mul_left]
    have split := Nat.mod_mul (x := w * k + i) (a := w) (b := m)
    rw [split, Nat.mul_add_mod, Nat.mod_eq_of_lt short, Nat.mul_add_div (by omega), Nat.div_eq_of_lt short]
    simp
  · intro x first y second same
    obtain ⟨start, known, i, short, rfl, residue⟩ := inside x first
    obtain ⟨start', known', i', short', rfl, residue'⟩ := inside y second
    have offsets : (start + i) % w = (start' + i') % w := by
      obtain ⟨m, rfl⟩ := divides
      have one := congrArg (· % w) (residue.trans residue'.symm)
      simpa only [Nat.mod_mul_right_mod] using one
    dsimp only at same
    have low := Nat.mod_le (start + i) w
    have low' := Nat.mod_le (start' + i') w
    omega

theorem subset_blocks {w : Nat} (positive : 0 < w) (starts : Finset Nat) : starts ⊆ blocks w starts := by
  intro start member
  exact mem_blocks.mpr ⟨start, member, 0, positive, rfl⟩

theorem fullestClass_blocks {w n : Nat} {starts : Finset Nat} (positive : 0 < w)
    (aligned : ∀ start ∈ starts, w ∣ start) (divides : w ∣ n) :
    fullestClass n (blocks w starts) = fullestClass n starts := by
  apply Nat.le_antisymm
  · refine Finset.sup_le fun r inside => ?_
    refine (residueClass_blocks_card_le aligned divides r).trans ?_
    refine Finset.le_sup (f := fun r => (residueClass n starts r).card) ?_
    have small := Finset.mem_range.mp inside
    exact Finset.mem_range.mpr (by omega)
  · refine Finset.sup_mono_fun fun r _ => ?_
    exact Finset.card_le_card (Finset.filter_subset_filter _ (subset_blocks positive starts))

end Omniprobe.Lib
