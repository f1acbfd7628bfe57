import Omniprobe.Lib.Lines
import Omniprobe.Memory.Handler

/-!
# Cache lines used and needed

The set that the loops over the lanes and their lines build has the lines of all bytes that the lanes
access. Lanes that share no byte cannot do with fewer lines than the computed minimum.
-/

namespace Omniprobe.Memory
open Lib

section
variable {dataSize : UInt16} {lineSize : UInt8}

theorem lastByte_toNat {address : UInt64} (size : 1 ≤ dataSize.toNat)
    (fits : address.toNat + dataSize.toNat - 1 < 2 ^ 64) :
    (address + dataSize.toUInt64 - 1).toNat = address.toNat + dataSize.toNat - 1 := by
  have one : (1 : UInt64).toNat = 1 := rfl
  rw [UInt64.toNat_sub, UInt64.toNat_add, UInt16.toNat_toUInt64, one]
  omega

theorem mem_cacheLinesOf {address : UInt64} (size : 1 ≤ dataSize.toNat)
    (fits : address.toNat + dataSize.toNat - 1 < 2 ^ 64) (cacheLine : Nat) :
    cacheLine ∈ cacheLinesOf dataSize lineSize address ↔
      address.toNat / lineSize.toNat ≤ cacheLine ∧
        cacheLine ≤ (address.toNat + dataSize.toNat - 1) / lineSize.toNat := by
  have ordered : address.toNat / lineSize.toNat ≤ (address.toNat + dataSize.toNat - 1) / lineSize.toNat :=
    Nat.div_le_div_right (by omega)
  simp only [cacheLinesOf, UInt64.toNat_div, UInt8.toNat_toUInt64, lastByte_toNat size fits, List.mem_range'_1]
  omega

theorem cacheLines_eq_linesTouched {addresses : List UInt64} (line : 0 < lineSize.toNat) (size : 1 ≤ dataSize.toNat)
    (fits : ∀ address ∈ addresses, address.toNat + dataSize.toNat - 1 < 2 ^ 64) :
    cacheLines dataSize lineSize addresses =
      linesTouched lineSize.toNat (accessedBytes dataSize.toNat (addresses.map UInt64.toNat)) := by
  ext cacheLine
  have each : ∀ address ∈ addresses, cacheLine ∈ cacheLinesOf dataSize lineSize address ↔
      cacheLine ∈ linesTouched lineSize.toNat (byteRange address.toNat dataSize.toNat) := by
    intro address member
    rw [mem_cacheLinesOf size (fits address member), linesTouched_byteRange line size, Finset.mem_Icc]
  simp only [cacheLines, List.mem_toFinset, List.mem_flatMap, linesTouched, Finset.mem_image, mem_accessedBytes,
    List.mem_map]
  constructor
  · rintro ⟨address, member, inside⟩
    obtain ⟨byte, accessed, rfl⟩ := Finset.mem_image.mp ((each address member).mp inside)
    exact ⟨byte, ⟨_, ⟨address, member, rfl⟩, accessed⟩, rfl⟩
  · rintro ⟨byte, ⟨_, ⟨address, member, rfl⟩, accessed⟩, rfl⟩
    exact ⟨address, member, (each address member).mpr (Finset.mem_image_of_mem _ accessed)⟩

theorem minCacheLines_eq_ceilDiv (count : Nat) :
    minCacheLines dataSize lineSize count = (count * dataSize.toNat) ⌈/⌉ lineSize.toNat := rfl

/-- The lines used are the lines of the bytes accessed. The minimum is a lower bound for lanes that share no
byte, and is met by lanes that follow each other from the start of a line on. -/
theorem cacheLines_exact {addresses : List UInt64} (line : 2 ≤ lineSize.toNat) (size : 1 ≤ dataSize.toNat)
    (fits : ∀ address ∈ addresses, address.toNat + dataSize.toNat - 1 < 2 ^ 64) :
    (cacheLines dataSize lineSize addresses).card =
        ((accessedBytes dataSize.toNat (addresses.map UInt64.toNat)).image (· / lineSize.toNat)).card ∧
      minCacheLines dataSize lineSize addresses.length = (addresses.length * dataSize.toNat) ⌈/⌉ lineSize.toNat ∧
      (DisjointAccesses dataSize.toNat (addresses.map UInt64.toNat) →
        minCacheLines dataSize lineSize addresses.length ≤ (cacheLines dataSize lineSize addresses).card) ∧
      ∀ first, lineSize.toNat ∣ first → Consecutive dataSize.toNat first (addresses.map UInt64.toNat) →
        (cacheLines dataSize lineSize addresses).card = minCacheLines dataSize lineSize addresses.length := by
  have positive : 0 < lineSize.toNat := by omega
  rw [cacheLines_eq_linesTouched positive size fits, minCacheLines_eq_ceilDiv]
  refine ⟨rfl, rfl, ?_, ?_⟩
  · intro disjoint
    have bound := ceilDiv_le_linesTouched positive (accessedBytes dataSize.toNat (addresses.map UInt64.toNat))
    rwa [disjoint.card, List.length_map] at bound
  · intro first aligned consecutive
    rw [consecutive.accessedBytes, linesTouched_aligned positive aligned, List.length_map]

end

/-- Three lanes of 12 bytes each, the second one across the border of two lines of 16 bytes. -/
theorem cacheLines_exact_sample : (cacheLines 12 16 [32, 44, 56]).card = 3 := by
  have fits : ∀ address ∈ ([32, 44, 56] : List UInt64), address.toNat + (12 : UInt16).toNat - 1 < 2 ^ 64 := by
    simp
  have consecutive : Consecutive (12 : UInt16).toNat 32 (([32, 44, 56] : List UInt64).map UInt64.toNat) := by
    unfold Consecutive
    decide
  have lines : 2 ≤ (16 : UInt8).toNat := by decide
  have size : 1 ≤ (12 : UInt16).toNat := by decide
  obtain ⟨-, -, -, met⟩ := cacheLines_exact lines size fits
  rw [met 32 (by decide) consecutive]
  decide

end Omniprobe.Memory
