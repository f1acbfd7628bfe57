import Mathlib

/-!
# Words and byte buffers

Arithmetic of 64-bit words as arithmetic of the numbers they stand for, and the writes a function
makes into a buffer `dst` while it reads a second buffer `src`, as a list of C library calls and
pointer stores. `Write.apply` gives each its effect on the bytes of `dst`.
-/

namespace Omniprobe.Lib

/-! ### Words -/

def round8 (n : Nat) : Nat := (n + 7) / 8 * 8

theorem le_round8 (n : Nat) : n ≤ round8 n := by unfold round8; omega

theorem toNat_min (a b : UInt64) : (min a b).toNat = min a.toNat b.toNat := by
  show (if a ≤ b then a else b).toNat = _
  split <;> rename_i h <;> simp only [UInt64.le_iff_toNat_le] at h <;> omega

theorem toNat_sub_le {a b : UInt64} (h : b.toNat ≤ a.toNat) : (a - b).toNat = a.toNat - b.toNat := by
  rw [UInt64.toNat_sub]
  have := a.toNat_lt
  have := b.toNat_lt
  omega

theorem toNat_add_lt {a b : UInt64} (h : a.toNat + b.toNat < 2 ^ 64) :
    (a + b).toNat = a.toNat + b.toNat := by
  rw [UInt64.toNat_add]
  exact Nat.mod_eq_of_lt h

/-! ### Buffers -/

abbrev Bytes := Nat → UInt8

/-- Byte `i` of a 64-bit word in memory (little endian). -/
def wordByte (word : UInt64) (i : Nat) : UInt8 := UInt8.ofNat (word.toNat / 256 ^ i % 256)

inductive Write where
  /-- `memset(dst, 0, length)`. -/
  | memset (length : Nat)
  /-- `memcpy(dst + target, src + start, length)`. -/
  | memcpy (target start length : Nat)
  /-- `*(void **)(dst + target) = word`. -/
  | store (target : Nat) (word : UInt64)
  deriving DecidableEq, Repr

def Write.apply (src : Bytes) (dst : Bytes) : Write → Bytes
  | .memset length => fun i => if i < length then 0 else dst i
  | .memcpy target start length => fun i => if target ≤ i ∧ i < target + length then src (start + (i - target)) else dst i
  | .store target word => fun i => if target ≤ i ∧ i < target + 8 then wordByte word (i - target) else dst i

def applyWrites (src : Bytes) (dst : Bytes) (writes : List Write) : Bytes := writes.foldl (Write.apply src) dst

/-- The bytes of `src` that a write reads. -/
def Write.Reads (i : Nat) : Write → Prop
  | .memset _ => False
  | .memcpy _ start length => start ≤ i ∧ i < start + length
  | .store _ _ => False

/-- The bytes of `dst` that it writes. -/
def Write.Writes (i : Nat) : Write → Prop
  | .memset length => i < length
  | .memcpy target _ length => target ≤ i ∧ i < target + length
  | .store target _ => target ≤ i ∧ i < target + 8

/-! ### What each write leaves at an index -/

section
variable {src dst : Bytes} {target start length i : Nat} {word : UInt64}

theorem apply_memset_inside (inside : i < length) : Write.apply src dst (.memset length) i = 0 :=
  if_pos inside

theorem apply_memcpy_inside (low : target ≤ i) (high : i < target + length) :
    Write.apply src dst (.memcpy target start length) i = src (start + (i - target)) :=
  if_pos ⟨low, high⟩

theorem apply_memcpy_outside (outside : i < target ∨ target + length ≤ i) :
    Write.apply src dst (.memcpy target start length) i = dst i :=
  if_neg (by omega)

theorem apply_store_inside (low : target ≤ i) (high : i < target + 8) :
    Write.apply src dst (.store target word) i = wordByte word (i - target) :=
  if_pos ⟨low, high⟩

theorem apply_store_outside (outside : i < target ∨ target + 8 ≤ i) :
    Write.apply src dst (.store target word) i = dst i :=
  if_neg (by omega)

theorem apply_of_not_writes {write : Write} (outside : ¬write.Writes i) : write.apply src dst i = dst i := by
  cases write with
  | memset length => exact if_neg outside
  | memcpy target start length => exact if_neg outside
  | store target word => exact if_neg outside

theorem apply_congr_of_reads {src' : Bytes} {write : Write} (same : ∀ i, write.Reads i → src i = src' i) :
    write.apply src dst = write.apply src' dst := by
  funext i
  cases write with
  | memset length => rfl
  | memcpy target start length =>
    by_cases inside : target ≤ i ∧ i < target + length
    · rw [apply_memcpy_inside inside.1 inside.2, apply_memcpy_inside inside.1 inside.2]
      exact same _ ⟨Nat.le_add_right _ _, by omega⟩
    · rw [apply_memcpy_outside (by omega), apply_memcpy_outside (by omega)]
  | store target word => rfl

end

theorem applyWrites_of_not_writes {src : Bytes} {writes : List Write} {i : Nat}
    (outside : ∀ write ∈ writes, ¬write.Writes i) (dst : Bytes) : applyWrites src dst writes i = dst i := by
  induction writes generalizing dst with
  | nil => rfl
  | cons write rest ih =>
    obtain ⟨first, later⟩ := List.forall_mem_cons.mp outside
    exact (ih later (write.apply src dst)).trans (apply_of_not_writes first)

theorem applyWrites_congr_of_reads {src src' : Bytes} {writes : List Write}
    (same : ∀ write ∈ writes, ∀ i, write.Reads i → src i = src' i) (dst : Bytes) :
    applyWrites src dst writes = applyWrites src' dst writes := by
  induction writes generalizing dst with
  | nil => rfl
  | cons write rest ih =>
    obtain ⟨first, later⟩ := List.forall_mem_cons.mp same
    have step : write.apply src dst = write.apply src' dst := apply_congr_of_reads first
    show applyWrites src (write.apply src dst) rest = applyWrites src' (write.apply src' dst) rest
    rw [step]
    exact ih later _

end Omniprobe.Lib
