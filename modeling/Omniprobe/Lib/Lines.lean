import Mathlib

/-!
# Ranges of bytes and the lines they touch

Memory is cut into lines of `line` bytes, so byte `b` is on line `b / line`. A line has room for `line`
bytes, and bytes that follow each other from the start of a line on fill the lines they touch.
-/

namespace Omniprobe.Lib

def byteRange (first size : Nat) : Finset Nat := Finset.Ico first (first + size)

theorem byteRange_card (first size : Nat) : (byteRange first size).card = size := by
  rw [byteRange, Nat.card_Ico]
  omega

def linesTouched (line : Nat) (bytes : Finset Nat) : Finset Nat := bytes.image (· / line)

section
variable {line : Nat} (positive : 0 < line)
include positive

theorem linesTouched_byteRange {first size : Nat} (some : 0 < size) :
    linesTouched line (byteRange first size) = Finset.Icc (first / line) ((first + size - 1) / line) := by
  ext touched
  simp only [linesTouched, byteRange, Finset.mem_image, Finset.mem_Ico, Finset.mem_Icc]
  constructor
  · rintro ⟨byte, ⟨after, before⟩, rfl⟩
    exact ⟨Nat.div_le_div_right after, Nat.div_le_div_right (by omega)⟩
  · rintro ⟨low, high⟩
    -- The first byte of the line, or the first byte of the range when the line starts before it.
    refine ⟨max first (touched * line), ⟨le_max_left _ _, ?_⟩, ?_⟩
    · have inside := (Nat.le_div_iff_mul_le positive).mp high
      omega
    · refine Nat.div_eq_of_lt_le (le_max_right _ _) ?_
      have next : first < (touched + 1) * line := (Nat.div_lt_iff_lt_mul positive).mp (Nat.lt_succ_of_le low)
      have longer : touched * line < (touched + 1) * line := Nat.mul_lt_mul_of_pos_right (Nat.lt_succ_self _) positive
      exact max_lt next longer

theorem card_le_mul_linesTouched (bytes : Finset Nat) : bytes.card ≤ line * (linesTouched line bytes).card := by
  refine Finset.card_le_mul_card_image bytes line fun touched _ => ?_
  have within : {byte ∈ bytes | byte / line = touched} ⊆ byteRange (touched * line) line := by
    intro byte member
    obtain ⟨-, here⟩ := Finset.mem_filter.mp member
    have low := Nat.div_mul_le_self byte line
    have high := Nat.lt_div_mul_add positive (a := byte)
    rw [here] at low high
    exact Finset.mem_Ico.mpr ⟨low, high⟩
  exact (Finset.card_le_card within).trans_eq (byteRange_card _ _)

theorem ceilDiv_le_linesTouched (bytes : Finset Nat) : bytes.card ⌈/⌉ line ≤ (linesTouched line bytes).card :=
  (ceilDiv_le_iff_le_mul positive).mpr (card_le_mul_linesTouched positive bytes)

theorem linesTouched_aligned {first : Nat} (aligned : line ∣ first) (size : Nat) :
    (linesTouched line (byteRange first size)).card = size ⌈/⌉ line := by
  obtain ⟨start, rfl⟩ := aligned
  rcases Nat.eq_zero_or_pos size with rfl | some
  · simp [linesTouched, byteRange]
  · have last : (line * start + size - 1) / line = start + (size - 1) / line := by
      rw [Nat.add_sub_assoc some, Nat.mul_add_div positive]
    have filled : (size + line - 1) / line = (size - 1) / line + 1 := by
      rw [show size + line - 1 = size - 1 + line by omega, Nat.add_div_right _ positive]
    rw [linesTouched_byteRange positive some, last, Nat.mul_div_cancel_left _ positive, Nat.card_Icc,
      Nat.ceilDiv_eq_add_pred_div, filled, Nat.add_assoc, Nat.add_sub_cancel_left]

end

/-! ### Several accesses of one size -/

def accessedBytes (size : Nat) (addresses : List Nat) : Finset Nat :=
  addresses.toFinset.biUnion fun first => byteRange first size

/-- No byte is in two of the accesses. -/
def DisjointAccesses (size : Nat) (addresses : List Nat) : Prop :=
  addresses.Pairwise fun first second => Disjoint (byteRange first size) (byteRange second size)

/-- The accesses follow each other from `first` on, in some order. -/
def Consecutive (size first : Nat) (addresses : List Nat) : Prop :=
  addresses.Perm ((List.range addresses.length).map fun i => first + i * size)

theorem mem_accessedBytes {size byte : Nat} {addresses : List Nat} :
    byte ∈ accessedBytes size addresses ↔ ∃ first ∈ addresses, byte ∈ byteRange first size := by
  simp only [accessedBytes, Finset.mem_biUnion, List.mem_toFinset]

theorem DisjointAccesses.card {size : Nat} {addresses : List Nat} (disjoint : DisjointAccesses size addresses) :
    (accessedBytes size addresses).card = addresses.length * size := by
  induction addresses with
  | nil => simp [accessedBytes]
  | cons first rest ih =>
    obtain ⟨apart, others⟩ := List.pairwise_cons.mp disjoint
    have split : accessedBytes size (first :: rest) = byteRange first size ∪ accessedBytes size rest := by
      rw [accessedBytes, List.toFinset_cons, Finset.biUnion_insert, ← accessedBytes]
    have separate : Disjoint (byteRange first size) (accessedBytes size rest) := by
      rw [Finset.disjoint_left]
      intro byte here there
      obtain ⟨second, member, inside⟩ := mem_accessedBytes.mp there
      exact Finset.disjoint_left.mp (apart second member) here inside
    rw [split, Finset.card_union_of_disjoint separate, byteRange_card, ih others, List.length_cons, Nat.succ_mul,
      Nat.add_comm]

theorem Consecutive.accessedBytes {size first : Nat} {addresses : List Nat}
    (consecutive : Consecutive size first addresses) :
    accessedBytes size addresses = byteRange first (addresses.length * size) := by
  ext byte
  simp only [mem_accessedBytes, byteRange, Finset.mem_Ico]
  constructor
  · rintro ⟨start, member, low, high⟩
    obtain ⟨i, inside, rfl⟩ := List.mem_map.mp (consecutive.mem_iff.mp member)
    have before : (i + 1) * size ≤ addresses.length * size := Nat.mul_le_mul_right _ (List.mem_range.mp inside)
    rw [Nat.succ_mul] at before
    omega
  · rintro ⟨low, high⟩
    have some : 0 < size := by
      rcases Nat.eq_zero_or_pos size with rfl | some
      · omega
      · exact some
    have within : (byte - first) / size < addresses.length :=
      (Nat.div_lt_iff_lt_mul some).mpr (by omega)
    have split := Nat.div_add_mod' (byte - first) size
    have offset := Nat.mod_lt (byte - first) some
    refine ⟨first + (byte - first) / size * size, ?_, by omega, by omega⟩
    exact consecutive.mem_iff.mpr (List.mem_map.mpr ⟨_, List.mem_range.mpr within, rfl⟩)

end Omniprobe.Lib
