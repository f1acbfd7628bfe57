import Omniprobe.Lib.Residues
import Omniprobe.Lib.Run
import Omniprobe.Memory.Handler

/-!
# Bank conflicts

The handler registers one dword for each lane, in conflict sets that it reuses from message to
message. The count it adds is the hardware's: in each phase, the number of requests that the fullest
bank needs beyond the first, over all dwords that any byte of an access touches.
-/

namespace Omniprobe.Memory
open Lib Std

/-! ### The hardware's count -/

/-- The lanes that access LDS together, for each access size. -/
def phases (size : Nat) : List (Finset Nat) :=
  if size = 8 then [.Icc 0 15, .Icc 16 31, .Icc 32 47, .Icc 48 63]
  else if size = 16 then
    [.Icc 0 3 ∪ .Icc 20 23, .Icc 4 7 ∪ .Icc 16 19, .Icc 8 11 ∪ .Icc 28 31, .Icc 12 15 ∪ .Icc 24 27,
      .Icc 32 35 ∪ .Icc 52 55, .Icc 36 39 ∪ .Icc 48 51, .Icc 40 43 ∪ .Icc 60 63, .Icc 44 47 ∪ .Icc 56 59]
  else [.Icc 0 31, .Icc 32 63]

/-- The dwords that some byte of an access by a lane of the phase touches. -/
def touchedDwords (size : Nat) (accesses : List (Nat × UInt64)) (phase : Finset Nat) : Finset Nat :=
  ((accesses.filter (·.1 ∈ phase)).flatMap fun access =>
    (List.range size).map fun i => (access.2.toNat + i) / 4).toFinset

/-- The requests that a phase needs beyond the first: its fullest bank has a dword for each. -/
def phaseConflicts (size : Nat) (accesses : List (Nat × UInt64)) (phase : Finset Nat) : Nat :=
  fullestClass noBanks (touchedDwords size accesses phase) - 1

def hardwareConflicts (size : Nat) (accesses : List (Nat × UInt64)) : Nat :=
  ((phases size).map (phaseConflicts size accesses)).sum

/-! ### One conflict set -/

/-- The dwords that the code registers: the first one of each access. -/
def firstDwords (accesses : List (Nat × UInt64)) (phase : Finset Nat) : Finset Nat :=
  ((accesses.filter (·.1 ∈ phase)).map fun access => access.2.toNat / 4).toFinset

namespace ConflictSet

/-- What an access leaves of a set, whether or not it is registered. -/
def offer (set : ConflictSet) (access : Nat × UInt64) : ConflictSet :=
  (set.registerAccess access.1 access.2).getD set

theorem offer_lanes (set : ConflictSet) (access : Nat × UInt64) : (set.offer access).lanes = set.lanes := by
  unfold offer registerAccess
  split <;> rfl

theorem offer_banks (set : ConflictSet) (access : Nat × UInt64) (bank : Nat) :
    (set.offer access).banks bank = residueClass noBanks (firstDwords [access] set.lanes) bank ∪ set.banks bank := by
  unfold offer registerAccess firstDwords residueClass
  split
  · rename_i inside
    dsimp only [Option.getD_some]
    split
    · rename_i same
      simp [inside, same, Finset.filter_singleton]
    · rename_i other
      simp [inside, Ne.symm other, Finset.filter_singleton]
  · rename_i outside
    simp [outside]

theorem offers_lanes (accesses : List (Nat × UInt64)) (set : ConflictSet) :
    (accesses.foldl offer set).lanes = set.lanes := by
  induction accesses generalizing set with
  | nil => rfl
  | cons access rest ih => rw [List.foldl_cons, ih, offer_lanes]

theorem offers_banks (accesses : List (Nat × UInt64)) (set : ConflictSet) (bank : Nat) :
    (accesses.foldl offer set).banks bank =
      residueClass noBanks (firstDwords accesses set.lanes) bank ∪ set.banks bank := by
  induction accesses generalizing set with
  | nil => simp [firstDwords, residueClass]
  | cons access rest ih =>
    have split : firstDwords (access :: rest) set.lanes = firstDwords [access] set.lanes ∪ firstDwords rest set.lanes := by
      unfold firstDwords
      by_cases inside : access.1 ∈ set.lanes <;> simp [inside]
    rw [List.foldl_cons, ih, offer_lanes, offer_banks, split]
    unfold residueClass
    rw [Finset.filter_union, Finset.union_left_comm, Finset.union_assoc]

theorem foldl_max_eq_sup (n most : Nat) (f : Nat → Nat) :
    (List.range n).foldl (fun most bank => max most (f bank)) most = max most ((Finset.range n).sup f) := by
  induction n with
  | zero => simp
  | succ n ih =>
    rw [List.range_succ, List.foldl_append, ih, Finset.range_add_one, Finset.sup_insert]
    simp only [List.foldl_cons, List.foldl_nil]
    rw [max_assoc, max_comm ((Finset.range n).sup f)]

theorem bankConflictCount_offers {set : ConflictSet} (empty : set.banks = fun _ => ∅)
    (accesses : List (Nat × UInt64)) :
    (accesses.foldl offer set).bankConflictCount = fullestClass noBanks (firstDwords accesses set.lanes) - 1 := by
  have banks : ∀ bank, (accesses.foldl offer set).banks bank =
      residueClass noBanks (firstDwords accesses set.lanes) bank := by
    intro bank
    rw [offers_banks, empty, Finset.union_empty]
  rw [bankConflictCount, foldl_max_eq_sup]
  simp only [banks]
  rw [← fullestClass]
  omega

theorem clear_offers {set : ConflictSet} (empty : set.banks = fun _ => ∅) (accesses : List (Nat × UInt64)) :
    (accesses.foldl offer set).clear = set := by
  rw [clear, offers_lanes, ← empty]

end ConflictSet

/-! ### All the sets of a size -/

/-- At most one of the sets has a given lane. -/
def Exclusive (sets : List ConflictSet) : Prop := (sets.map (·.lanes)).Pairwise Disjoint

theorem registerFirst_eq_map {sets : List ConflictSet} (exclusive : Exclusive sets) (lane : Nat) (address : UInt64) :
    registerFirst lane address sets = sets.map fun set => set.offer (lane, address) := by
  induction sets with
  | nil => rfl
  | cons set rest ih =>
    obtain ⟨apart, later⟩ := List.pairwise_cons.mp exclusive
    unfold registerFirst
    rw [List.map_cons]
    by_cases inside : lane ∈ set.lanes
    · -- No later set has the lane, so offering it the access changes nothing.
      have untouched : rest.map (fun set => set.offer (lane, address)) = rest := by
        refine (List.map_congr_left fun other member => ?_).trans (List.map_id rest)
        have outside : lane ∉ other.lanes :=
          Finset.disjoint_left.mp (apart _ (List.mem_map_of_mem member)) inside
        simp [ConflictSet.offer, ConflictSet.registerAccess, outside]
      rw [untouched]
      simp [ConflictSet.offer, ConflictSet.registerAccess, inside]
    · rw [← ih later]
      simp [ConflictSet.offer, ConflictSet.registerAccess, inside]

theorem exclusive_map_offer {sets : List ConflictSet} (exclusive : Exclusive sets) (access : Nat × UInt64) :
    Exclusive (sets.map fun set => set.offer access) := by
  unfold Exclusive at exclusive ⊢
  rw [List.map_map]
  simpa only [Function.comp_def, ConflictSet.offer_lanes] using exclusive

theorem registerAll_eq_map {sets : List ConflictSet} (exclusive : Exclusive sets) (size : Nat)
    (accesses : List (Nat × UInt64)) :
    registerAll size accesses sets =
      if ∀ access ∈ accesses, access.2.toNat % size = 0 then
        some (sets.map fun set => accesses.foldl ConflictSet.offer set)
      else none := by
  induction accesses generalizing sets with
  | nil => simp [registerAll]
  | cons access rest ih =>
    rw [registerAll, registerFirst_eq_map exclusive, ih (exclusive_map_offer exclusive access), List.map_map]
    simp only [List.forall_mem_cons]
    by_cases aligned : access.2.toNat % size = 0
    · simp only [aligned, if_true, true_and]
      rfl
    · simp only [aligned, if_false, false_and]

/-! ### The first dword of an access -/

def accessSizes : List Nat := [1, 2, 4, 8, 16]

theorem touches_iff {size address : Nat} (sized : size ∈ accessSizes) (aligned : address % size = 0) (x : Nat) :
    (∃ i < size, (address + i) / 4 = x) ↔ ∃ i < (size + 3) / 4, address / 4 + i = x := by
  simp only [accessSizes, List.mem_cons, List.not_mem_nil, or_false] at sized
  constructor
  · rintro ⟨i, short, rfl⟩
    refine ⟨(address + i) / 4 - address / 4, ?_, ?_⟩ <;> rcases sized with rfl | rfl | rfl | rfl | rfl <;> omega
  · rintro ⟨i, short, rfl⟩
    refine ⟨4 * i, ?_, ?_⟩ <;> rcases sized with rfl | rfl | rfl | rfl | rfl <;> omega

theorem touchedDwords_eq_blocks {size : Nat} {accesses : List (Nat × UInt64)} (sized : size ∈ accessSizes)
    (aligned : ∀ access ∈ accesses, access.2.toNat % size = 0) (phase : Finset Nat) :
    touchedDwords size accesses phase = blocks ((size + 3) / 4) (firstDwords accesses phase) := by
  ext x
  simp only [touchedDwords, firstDwords, mem_blocks, List.mem_toFinset, List.mem_flatMap, List.mem_map,
    List.mem_range]
  constructor
  · rintro ⟨access, active, touched⟩
    have near := (touches_iff sized (aligned access (List.mem_of_mem_filter active)) x).mp touched
    exact ⟨_, ⟨access, active, rfl⟩, near⟩
  · rintro ⟨_, ⟨access, active, rfl⟩, near⟩
    exact ⟨access, active, (touches_iff sized (aligned access (List.mem_of_mem_filter active)) x).mpr near⟩

theorem firstDwords_dvd {size : Nat} {accesses : List (Nat × UInt64)} (sized : size ∈ accessSizes)
    (aligned : ∀ access ∈ accesses, access.2.toNat % size = 0) (phase : Finset Nat) :
    ∀ dword ∈ firstDwords accesses phase, (size + 3) / 4 ∣ dword := by
  intro dword member
  obtain ⟨access, active, rfl⟩ := List.mem_map.mp (List.mem_toFinset.mp member)
  have whole := aligned access (List.mem_of_mem_filter active)
  simp only [accessSizes, List.mem_cons, List.not_mem_nil, or_false] at sized
  apply Nat.dvd_of_mod_eq_zero
  rcases sized with rfl | rfl | rfl | rfl | rfl <;> omega

theorem phaseConflicts_eq {size : Nat} {accesses : List (Nat × UInt64)} (sized : size ∈ accessSizes)
    (aligned : ∀ access ∈ accesses, access.2.toNat % size = 0) (phase : Finset Nat) :
    phaseConflicts size accesses phase = fullestClass noBanks (firstDwords accesses phase) - 1 := by
  have widths : ∀ size ∈ accessSizes, 0 < (size + 3) / 4 ∧ (size + 3) / 4 ∣ noBanks := by decide
  have width := widths size sized
  rw [phaseConflicts, touchedDwords_eq_blocks sized aligned,
    fullestClass_blocks width.1 (firstDwords_dvd sized aligned phase) width.2]

/-! ### The sets between messages -/

def idleSets (size : Nat) : List ConflictSet := (phases size).map fun phase => ⟨phase, fun _ => ∅⟩

theorem conflictPairs_idle : ∀ entry ∈ conflictPairs, entry.2.map ConflictSet.ofPairs = idleSets entry.1 := by
  have lanes : ∀ entry ∈ conflictPairs,
      (entry.2.map fun pairs => (pairs.flatMap fun pair => List.range' pair.1 (pair.2 - pair.1)).toFinset) =
        phases entry.1 := by
    decide
  intro entry member
  rw [idleSets, ← lanes entry member, List.map_map]
  rfl

theorem initialConflictSets_find (size : Nat) :
    initialConflictSets[size]? = if size ∈ accessSizes then some (idleSets size) else none := by
  rw [initialConflictSets, find_inserts conflictPairs Prod.fst _ idleSets conflictPairs_idle, ExtTreeMap.getElem?_empty]
  rfl

theorem phases_disjoint (size : Nat) : (phases size).Pairwise Disjoint := by
  unfold phases
  split
  · decide
  · split <;> decide

theorem phases_once (size : Nat) : ∀ lane < 64, (phases size).countP (lane ∈ ·) = 1 := by
  unfold phases
  split
  · decide
  · split <;> decide

theorem idleSets_exclusive (size : Nat) : Exclusive (idleSets size) := by
  have lanes : (idleSets size).map (·.lanes) = phases size := by
    rw [idleSets, List.map_map]
    exact List.map_id _
  rw [Exclusive, lanes]
  exact phases_disjoint size

theorem idleSets_count {size : Nat} {accesses : List (Nat × UInt64)} (sized : size ∈ accessSizes)
    (aligned : ∀ access ∈ accesses, access.2.toNat % size = 0) :
    (((idleSets size).map fun set => accesses.foldl ConflictSet.offer set).map ConflictSet.bankConflictCount).sum =
      hardwareConflicts size accesses := by
  rw [hardwareConflicts, idleSets, List.map_map, List.map_map]
  refine congrArg List.sum (List.map_congr_left fun phase _ => ?_)
  rw [phaseConflicts_eq sized aligned]
  exact ConflictSet.bankConflictCount_offers rfl accesses

theorem idleSets_clear (size : Nat) (accesses : List (Nat × UInt64)) :
    ((idleSets size).map fun set => accesses.foldl ConflictSet.offer set).map ConflictSet.clear = idleSets size := by
  rw [idleSets, List.map_map, List.map_map]
  refine List.map_congr_left fun phase _ => ?_
  exact ConflictSet.clear_offers rfl accesses

namespace Handler

def Idle (handler : Handler) : Prop :=
  ∀ size, handler.conflictSets[size]? = if size ∈ accessSizes then some (idleSets size) else none

theorem handleBankConflictAnalysis_eq {handler : Handler} (idle : handler.Idle) (env : Env) (message : Message) :
    handler.handleBankConflictAnalysis env message =
      let lanes := env.laneIdsOfActiveLanes message.header
      let size := message.dataSize.toNat
      if message.dataItems.length ≠ lanes.length then none
      else if size ∉ accessSizes then some (handler, false)
      else if ∀ access ∈ lanes.zip message.dataItems, access.2.toNat % size = 0 then
        some ({ handler.recordLdsAccess message (hardwareConflicts size (lanes.zip message.dataItems)) with
          conflictSets := handler.conflictSets.insert size (idleSets size) }, true)
      else none := by
  unfold handleBankConflictAnalysis
  dsimp only
  split
  · rfl
  · rw [idle]
    by_cases sized : message.dataSize.toNat ∈ accessSizes
    · rw [if_pos sized, if_neg (not_not_intro sized)]
      dsimp only
      rw [registerAll_eq_map (idleSets_exclusive _)]
      split
      · rename_i refused
        rw [if_neg]
        intro aligned
        rw [if_pos aligned] at refused
        cases refused
      · rename_i registered found
        split at found
        · rename_i aligned
          obtain rfl := Option.some.inj found
          rw [idleSets_count sized aligned, idleSets_clear, if_pos aligned]
        · cases found
    · rw [if_neg sized, if_pos sized]

/-! ### Runs -/

theorem handleCacheLineCountAnalysis_conflictSets (env : Env) (handler : Handler) (message : Message) :
    (handler.handleCacheLineCountAnalysis env message).1.conflictSets = handler.conflictSets := by
  unfold handleCacheLineCountAnalysis
  dsimp only
  split_ifs <;> rfl

inductive Event where
  | handle (env : Env) (message : Message)
  | clear

/-- `none` where an assertion ends the program. -/
def step (handler : Handler) : Event → Option Handler
  | .handle env message => (handler.handle env message).map Prod.fst
  | .clear => some handler.clear

theorem step_conflictSets {handler after : Handler} (idle : handler.Idle) {event : Event}
    (taken : handler.step event = some after) :
    after.conflictSets = handler.conflictSets ∨
      ∃ size ∈ accessSizes, after.conflictSets = handler.conflictSets.insert size (idleSets size) := by
  cases event with
  | clear =>
    obtain rfl := Option.some.inj taken
    exact .inl rfl
  | handle env message =>
    obtain ⟨⟨next, answer⟩, handled, rfl⟩ := Option.map_eq_some_iff.mp taken
    unfold handle at handled
    split at handled
    · split at handled
      · have sets := handleCacheLineCountAnalysis_conflictSets env handler message
        rw [Option.some.inj handled] at sets
        exact .inl sets
      · rw [handleBankConflictAnalysis_eq idle] at handled
        dsimp only at handled
        split at handled
        · cases handled
        · split at handled
          · cases handled
            exact .inl rfl
          · rename_i sized
            split at handled
            · cases handled
              exact .inr ⟨_, not_not.mp sized, rfl⟩
            · cases handled
      · cases handled
        exact .inl rfl
    · cases handled
      exact .inl rfl

theorem step_idle {handler after : Handler} (idle : handler.Idle) {event : Event}
    (taken : handler.step event = some after) : after.Idle := by
  intro size
  obtain same | ⟨used, sized, cleared⟩ := step_conflictSets idle taken
  · rw [same, idle]
  · rw [cleared, find_insert, idle]
    split
    · rename_i here
      rw [← here, if_pos sized]
    · rfl

theorem reachable_idle {handler : Handler} (reachable : Reachable step (fun _ _ => True) {} handler) :
    handler.Idle := by
  refine reachable.invariant ?_ fun s event t idle _ taken => step_idle idle taken
  exact initialConflictSets_find

end Handler

/-! ### What a message adds -/

/-- The sum over the entries with a property. -/
def totalWhere {α : Type} (amount : α → Nat) (p : α → Bool) (accesses : List α) : Nat :=
  ((accesses.filter p).map amount).sum

theorem totalWhere_cons {α : Type} (amount : α → Nat) (p : α → Bool) (access : α) (rest : List α) :
    totalWhere amount p (access :: rest) = (if p access then amount access else 0) + totalWhere amount p rest := by
  unfold totalWhere
  rw [List.filter_cons]
  split <;> simp

theorem totalWhere_record {α : Type} {amount : α → Nat} {p matching : α → Bool} {merge : α → α} {current : α}
    (merged : ∀ access, matching access → amount (merge access) = amount access + amount current ∧
      p (merge access) = p current ∧ p access = p current) (accesses : List α) :
    totalWhere amount p (record matching merge current accesses) =
      totalWhere amount p accesses + if p current then amount current else 0 := by
  induction accesses with
  | nil => rw [record, totalWhere_cons, Nat.add_comm]
  | cons access rest ih =>
    unfold record
    split
    · rename_i same
      obtain ⟨more, after, before⟩ := merged access same
      rw [totalWhere_cons, totalWhere_cons, more, after, before]
      split <;> omega
    · rw [totalWhere_cons, totalWhere_cons, ih, Nat.add_assoc]

/-- The sum over the entries of one size and kind. -/
def ldsTotal (amount : LdsAccesses → Nat) (accesses : List LdsAccesses) (size : UInt16) (rwKind : UInt8) : Nat :=
  totalWhere amount (fun access => access.irAccessSize = size ∧ access.rwKind = rwKind) accesses

theorem ldsTotal_record {amount : LdsAccesses → Nat} {current : LdsAccesses}
    (adds : ∀ access, amount (current.merge access) = amount access + amount current) (accesses : List LdsAccesses)
    (size : UInt16) (rwKind : UInt8) :
    ldsTotal amount (record current.sameKind current.merge current accesses) size rwKind =
      ldsTotal amount accesses size rwKind +
        if current.irAccessSize = size ∧ current.rwKind = rwKind then amount current else 0 := by
  unfold ldsTotal
  rw [totalWhere_record]
  · simp only [decide_eq_true_eq]
  · intro access same
    simp only [LdsAccesses.sameKind, Bool.and_eq_true, beq_iff_eq] at same
    refine ⟨adds access, ?_⟩
    simp only [LdsAccesses.merge, same.1.1, same.2, and_self]

theorem accessesAt_setAccessesAt {α : Type} (accesses : FileLineColAccess α) (fname fname' : Text)
    (line line' column column' : UInt16) (new : List α) :
    accessesAt (setAccessesAt accesses fname line column new) fname' line' column' =
      if fname = fname' ∧ line = line' ∧ column = column' then new else accessesAt accesses fname' line' column' := by
  unfold accessesAt setAccessesAt
  rw [find_insert]
  by_cases file : fname = fname'
  · subst file
    simp only [if_true, Option.getD_some, find₂_insert₂, true_and]
    split <;> rfl
  · simp [file]

namespace Handler

/-- The conflicts counted for accesses of one size and kind at a source location. -/
def bankConflicts (handler : Handler) (fname : Text) (line column : UInt16) (size : UInt16) (rwKind : UInt8) : Nat :=
  ldsTotal LdsAccesses.noBankConflicts (accessesAt handler.ldsAccesses fname line column) size rwKind

/-- What `recordLdsAccess` adds: the count, at the message's location, size and kind and nowhere else. -/
theorem bankConflicts_recordLdsAccess (handler : Handler) (message : Message) (count : Nat) (fname : Text)
    (line column : UInt16) (size : UInt16) (rwKind : UInt8) :
    (handler.recordLdsAccess message count).bankConflicts fname line column size rwKind =
      handler.bankConflicts fname line column size rwKind +
        if handler.ldsFname message = fname ∧ message.header.dwarfLine.toUInt16 = line ∧
            message.header.dwarfColumn.toUInt16 = column ∧ message.dataSize = size ∧ message.rwKind = rwKind then count
        else 0 := by
  unfold bankConflicts recordLdsAccess
  dsimp only
  rw [accessesAt_setAccessesAt]
  split
  · rename_i here
    obtain ⟨rfl, rfl, rfl⟩ := here
    rw [ldsTotal_record fun _ => rfl]
    simp only [true_and]
  · rename_i elsewhere
    rw [if_neg, Nat.add_zero]
    rintro ⟨file, line, column, -⟩
    exact elsewhere ⟨file, line, column⟩

theorem bankConflicts_grow_by_hardwareConflicts {handler : Handler} (env : Env) (message : Message)
    (reachable : Reachable step (fun _ _ => True) {} handler)
    (sized : message.dataSize.toNat ∈ accessSizes)
    (counted : message.dataItems.length = (env.laneIdsOfActiveLanes message.header).length)
    (aligned : ∀ address ∈ message.dataItems, address.toNat % message.dataSize.toNat = 0) :
    ∃ after, handler.handleBankConflictAnalysis env message = some (after, true) ∧
      (∀ fname line column size rwKind, after.bankConflicts fname line column size rwKind =
        handler.bankConflicts fname line column size rwKind +
          if handler.ldsFname message = fname ∧ message.header.dwarfLine.toUInt16 = line ∧
              message.header.dwarfColumn.toUInt16 = column ∧ message.dataSize = size ∧ message.rwKind = rwKind then
            hardwareConflicts message.dataSize.toNat
              ((env.laneIdsOfActiveLanes message.header).zip message.dataItems)
          else 0) ∧
      (∃ sets, handler.conflictSets[message.dataSize.toNat]? = some sets ∧
        (∀ set ∈ sets, ∀ bank, set.banks bank = ∅) ∧
        ∀ lane < 64, sets.countP (lane ∈ ·.lanes) = 1) := by
  have idle := reachable_idle reachable
  have whole : ∀ access ∈ (env.laneIdsOfActiveLanes message.header).zip message.dataItems,
      access.2.toNat % message.dataSize.toNat = 0 :=
    fun access member => aligned access.2 (List.of_mem_zip member).2
  have handled := handleBankConflictAnalysis_eq idle env message
  dsimp only at handled
  rw [if_neg (not_not_intro counted), if_neg (not_not_intro sized), if_pos whole] at handled
  refine ⟨_, handled, ?_, ⟨_, (idle _).trans (if_pos sized), ?_, ?_⟩⟩
  · intro fname line column size rwKind
    exact bankConflicts_recordLdsAccess ..
  · intro set member bank
    obtain ⟨phase, -, rfl⟩ := List.mem_map.mp member
    rfl
  · intro lane small
    rw [idleSets, List.countP_map]
    exact phases_once _ lane small

namespace Sample

def env : Env where
  isAddress userType := userType = 1
  addressSpace kind := if kind = 1 then .global else if kind = 3 then .shared else .other
  readKind := 1
  writeKind := 2
  laneIdsOfActiveLanes header := (List.range 64).filter header.exec.toNat.testBit
  l2CacheLineSize _ := 128
  hasKdb := false
  instructionsForLine _ := none
  hash _ := 0

/-- Lanes 0 and 1 read 16 bytes each; both accesses start in bank 0. -/
def message : Message := ⟨⟨1, 0b10000_0011_01, 0b11, 0, 7, 10, 4⟩, [0, 128]⟩

end Sample

theorem bankConflicts_grow_twice : ∃ first second,
    handleBankConflictAnalysis Sample.env {} Sample.message = some (first, true) ∧
      first.handleBankConflictAnalysis Sample.env Sample.message = some (second, true) ∧
        second.bankConflicts (first.ldsFname Sample.message) 10 4 16 1 =
          first.bankConflicts (first.ldsFname Sample.message) 10 4 16 1 + 1 := by
  have aligned : ∀ address ∈ Sample.message.dataItems, address.toNat % Sample.message.dataSize.toNat = 0 :=
    List.forall_mem_cons.mpr ⟨by decide, List.forall_mem_singleton.mpr (by decide)⟩
  obtain ⟨first, handled, -, -⟩ :=
    bankConflicts_grow_by_hardwareConflicts Sample.env Sample.message .start (by decide) (by decide) aligned
  have reached : Reachable step (fun _ _ => True) {} first := by
    refine Reachable.start.step (a := .handle Sample.env Sample.message) trivial ?_
    exact congrArg (Option.map Prod.fst) handled
  obtain ⟨second, again, grown, -⟩ :=
    bankConflicts_grow_by_hardwareConflicts Sample.env Sample.message reached (by decide) (by decide) aligned
  refine ⟨first, second, handled, again, (grown (first.ldsFname Sample.message) 10 4 16 1).trans ?_⟩
  have count : hardwareConflicts Sample.message.dataSize.toNat
      ((Sample.env.laneIdsOfActiveLanes Sample.message.header).zip Sample.message.dataItems) = 1 := by
    decide +kernel
  have here : Sample.message.header.dwarfLine.toUInt16 = 10 ∧ Sample.message.header.dwarfColumn.toUInt16 = 4 ∧
      Sample.message.dataSize = 16 ∧ Sample.message.rwKind = 1 := by
    decide
  rw [if_pos ⟨rfl, here⟩, count]

end Handler

end Omniprobe.Memory
