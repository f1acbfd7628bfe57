import Omniprobe.Memory.CacheLines

/-!
# The rounds of the cache line loop

The handler inserts the lines of a lane's access one by one, from that of the first byte to that of
the last. The last byte is computed in 64 bits, so it can come before the first.
-/

namespace Omniprobe.Memory
open Lib

section
variable {dataSize : UInt16} {lineSize : UInt8} {address : UInt64}

/-! ### The loop -/

structure LineLoop where
  cacheLine : UInt64
  cacheLines : Finset Nat

def firstLine (lineSize : UInt8) (address : UInt64) : UInt64 := address / lineSize.toUInt64

def lastLine (dataSize : UInt16) (lineSize : UInt8) (address : UInt64) : UInt64 :=
  (address + dataSize.toUInt64 - 1) / lineSize.toUInt64

/-- `for (cache_line = first; cache_line <= last; ++cache_line) cache_lines.insert(cache_line)`. -/
def LineLoop.step (last : UInt64) (loop : LineLoop) : Option LineLoop :=
  if loop.cacheLine ≤ last then some ⟨loop.cacheLine + 1, insert loop.cacheLine.toNat loop.cacheLines⟩ else none

/-- The loop takes `rounds` rounds for the lane. -/
def TakesRounds (dataSize : UInt16) (lineSize : UInt8) (address : UInt64) (rounds : Nat) : Prop :=
  ∀ cacheLines, ∃ final, Ends (LineLoop.step (lastLine dataSize lineSize address)) rounds
    ⟨firstLine lineSize address, cacheLines⟩ final ∧
      final.cacheLines = cacheLines ∪ (cacheLinesOf dataSize lineSize address).toFinset

/-- The counter of the loop does not wrap around when the last line is not the last number. -/
theorem ends_count {last : UInt64} (room : last.toNat + 1 < 2 ^ 64) (rounds : Nat) (cacheLine : UInt64)
    (cacheLines : Finset Nat) (left : last.toNat + 1 - cacheLine.toNat = rounds) :
    ∃ final, Ends (LineLoop.step last) rounds ⟨cacheLine, cacheLines⟩ final ∧
      final.cacheLines = cacheLines ∪ (List.range' cacheLine.toNat rounds).toFinset := by
  induction rounds generalizing cacheLine cacheLines with
  | zero =>
    have behind : ¬cacheLine ≤ last := by
      rw [UInt64.le_iff_toNat_le]
      omega
    exact ⟨_, .stop (if_neg behind), by simp⟩
  | succ rounds ih =>
    have inside : cacheLine ≤ last := by
      rw [UInt64.le_iff_toNat_le]
      omega
    have one : (1 : UInt64).toNat = 1 := rfl
    have below := UInt64.le_iff_toNat_le.mp inside
    have next : (cacheLine + 1).toNat = cacheLine.toNat + 1 := by
      rw [UInt64.toNat_add, one]
      omega
    obtain ⟨final, ended, lines⟩ := ih (cacheLine + 1) (insert cacheLine.toNat cacheLines) (by omega)
    refine ⟨final, .round (if_pos inside) ended, ?_⟩
    rw [lines, next, List.range'_succ, List.toFinset_cons, Finset.insert_union, Finset.union_insert]

theorem takesRounds_length (line : 2 ≤ lineSize.toNat) :
    TakesRounds dataSize lineSize address (cacheLinesOf dataSize lineSize address).length := by
  intro cacheLines
  have room : (lastLine dataSize lineSize address).toNat + 1 < 2 ^ 64 := by
    have bound := (address + dataSize.toUInt64 - 1).toNat_lt
    have half : (address + dataSize.toUInt64 - 1).toNat / lineSize.toNat ≤ (address + dataSize.toUInt64 - 1).toNat / 2 :=
      Nat.div_le_div_left line (by decide)
    rw [lastLine, UInt64.toNat_div, UInt8.toNat_toUInt64]
    omega
  rw [cacheLinesOf, List.length_range']
  exact ends_count room _ _ cacheLines rfl

theorem TakesRounds.eq_length {rounds : Nat} (line : 2 ≤ lineSize.toNat)
    (takes : TakesRounds dataSize lineSize address rounds) :
    rounds = (cacheLinesOf dataSize lineSize address).length := by
  have counted : TakesRounds dataSize lineSize address (cacheLinesOf dataSize lineSize address).length :=
    takesRounds_length line
  obtain ⟨final, ended, -⟩ := takes ∅
  obtain ⟨final', ended', -⟩ := counted ∅
  exact (ended.unique ended').1

/-! ### The bound -/

/-- The computed last byte comes before the first one only for the sizes and addresses excluded here. -/
def Ordered (dataSize : UInt16) (lineSize : UInt8) (address : UInt64) : Prop :=
  if dataSize = 0 then ¬lineSize.toNat ∣ address.toNat else address.toNat + dataSize.toNat ≤ 2 ^ 64

theorem length_cacheLinesOf :
    (cacheLinesOf dataSize lineSize address).length =
      (address.toNat + dataSize.toNat + (2 ^ 64 - 1)) % 2 ^ 64 / lineSize.toNat + 1 - address.toNat / lineSize.toNat := by
  have one : (1 : UInt64).toNat = 1 := rfl
  have last : (address + dataSize.toUInt64 - 1).toNat = (address.toNat + dataSize.toNat + (2 ^ 64 - 1)) % 2 ^ 64 := by
    rw [UInt64.toNat_sub, UInt64.toNat_add, UInt16.toNat_toUInt64, one]
    omega
  rw [cacheLinesOf, List.length_range', UInt64.toNat_div, UInt64.toNat_div, UInt8.toNat_toUInt64, last]

theorem length_bounded_iff (line : lineSize = 64 ∨ lineSize = 128) :
    1 ≤ (cacheLinesOf dataSize lineSize address).length ∧
        (cacheLinesOf dataSize lineSize address).length ≤ dataSize.toNat / lineSize.toNat + 2 ↔
      Ordered dataSize lineSize address := by
  have small := dataSize.toNat_lt
  have below := address.toNat_lt
  rw [length_cacheLinesOf, Ordered]
  by_cases empty : dataSize = 0
  · have zero : dataSize.toNat = 0 := by rw [empty]; rfl
    rw [if_pos empty, zero]
    rcases line with rfl | rfl
    · rw [show (64 : UInt8).toNat = 64 from rfl]
      omega
    · rw [show (128 : UInt8).toNat = 128 from rfl]
      omega
  · have some : dataSize.toNat ≠ 0 := fun zero => empty (UInt16.toNat_inj.mp zero)
    rw [if_neg empty]
    rcases line with rfl | rfl
    · rw [show (64 : UInt8).toNat = 64 from rfl]
      omega
    · rw [show (128 : UInt8).toNat = 128 from rfl]
      omega

/-- For every lane, the loop takes a round at least, and no more than the size of the access allows. -/
def BoundedWork (env : Env) (message : Message) : Prop :=
  ∀ address ∈ message.dataItems, ∃ rounds,
    TakesRounds (message.measuredSize env) (env.l2CacheLineSize message.header.arch) address rounds ∧ 1 ≤ rounds ∧
      rounds ≤ (message.measuredSize env).toNat / (env.l2CacheLineSize message.header.arch).toNat + 2

theorem two_le_lineSize (line : lineSize = 64 ∨ lineSize = 128) : 2 ≤ lineSize.toNat := by
  rcases line with rfl | rfl
  · decide
  · decide

end

/-- The work is bounded exactly when no lane's last byte is computed before its first. -/
theorem boundedWork_iff (env : Env) (message : Message)
    (line : env.l2CacheLineSize message.header.arch = 64 ∨ env.l2CacheLineSize message.header.arch = 128) :
    BoundedWork env message ↔ ∀ address ∈ message.dataItems,
      Ordered (message.measuredSize env) (env.l2CacheLineSize message.header.arch) address := by
  refine forall₂_congr fun address member => ?_
  rw [← length_bounded_iff line]
  constructor
  · rintro ⟨rounds, takes, bounds⟩
    rwa [← takes.eq_length (two_le_lineSize line)]
  · intro bounds
    exact ⟨_, takesRounds_length (two_le_lineSize line), bounds⟩

/-- Two lanes with 4 bytes each, the second access across the border of two lines. -/
theorem boundedWork_sample : BoundedWork Handler.Sample.env ⟨⟨1, 0b100_0001_01, 0b11, 0, 7, 10, 4⟩, [0, 126]⟩ := by
  rw [boundedWork_iff _ _ (.inr rfl)]
  refine List.forall_mem_cons.mpr ⟨?_, List.forall_mem_singleton.mpr ?_⟩
  · unfold Ordered
    decide
  · unfold Ordered
    decide

/-- An access of size 0 to the null pointer. -/
def nullAccess : Message := ⟨⟨1, 0b0001_01, 0b1, 0, 7, 10, 4⟩, [0]⟩

/-- It reaches the loop, which runs through all lines of the address space. -/
theorem nullAccess_unbounded :
    nullAccess.isGlobal Handler.Sample.env ∧ ¬nullAccess.withoutInstruction Handler.Sample.env ∧
      TakesRounds (nullAccess.measuredSize Handler.Sample.env) 128 0 (2 ^ 57) ∧
        ¬BoundedWork Handler.Sample.env nullAccess := by
  have size : nullAccess.measuredSize Handler.Sample.env = 0 := by decide
  have rounds : (cacheLinesOf 0 128 0).length = 2 ^ 57 := by
    rw [length_cacheLinesOf]
    decide
  refine ⟨⟨rfl, rfl⟩, by decide, ?_, ?_⟩
  · rw [size, ← rounds]
    exact takesRounds_length (by decide)
  · intro bounded
    obtain ⟨taken, takes, -, few⟩ := bounded 0 (List.mem_singleton.mpr rfl)
    rw [size] at takes few
    have all : taken = 2 ^ 57 := (takes.eq_length (by decide)).trans rounds
    have none : (0 : UInt16).toNat = 0 := rfl
    rw [none, Nat.zero_div] at few
    omega

end Omniprobe.Memory
