import Omniprobe.BasicBlocks.Clear

/-!
# Execution masks

A block is charged when the next message with its wave's key arrives, with the execution mask of that
message. The counts are those of the block's own entries when as many lanes enter the blocks that follow it.
-/

namespace Omniprobe.BasicBlocks
open Lib Std

/-! ### Counting bits -/

def activeLanes (mask : UInt64) : Nat := (List.range 64).countP fun lane => mask.toNat.testBit lane

theorem countSetBitsLoop_eq {fuel : Nat} {mask : UInt64} {count : UInt32} (covered : mask.toNat < 2 ^ fuel)
    (fits : count.toNat + fuel < 2 ^ 32) :
    (countSetBitsLoop fuel mask count).toNat =
      count.toNat + (List.range fuel).countP fun lane => mask.toNat.testBit lane := by
  induction fuel generalizing mask count with
  | zero => rfl
  | succ fuel ih =>
    rw [countSetBitsLoop]
    split
    · rename_i zero
      simp [zero]
    · have halved : (mask >>> 1).toNat = mask.toNat / 2 := by
        rw [UInt64.toNat_shiftRight]
        exact Nat.shiftRight_eq_div_pow mask.toNat 1
      have lowest : (mask &&& 1).toUInt32.toNat = mask.toNat % 2 := by
        rw [UInt64.toNat_toUInt32, UInt64.toNat_and]
        change (mask.toNat &&& 1) % 2 ^ 32 = mask.toNat % 2
        rw [Nat.and_one_is_mod]
        omega
      have counted : (count + (mask &&& 1).toUInt32).toNat = count.toNat + mask.toNat % 2 := by
        rw [UInt32.toNat_add, lowest]
        omega
      rw [ih (by omega) (by omega), counted, halved, List.range_succ_eq_map, List.countP_cons, List.countP_map]
      have first : mask.toNat % 2 = if mask.toNat.testBit 0 = true then 1 else 0 := by
        rw [Nat.testBit_zero]
        rcases Nat.mod_two_eq_zero_or_one mask.toNat with even | odd
        · simp [even]
        · simp [odd]
      have others : ((fun lane => mask.toNat.testBit lane) ∘ Nat.succ) = fun lane => (mask.toNat / 2).testBit lane :=
        funext fun lane => Nat.testBit_succ mask.toNat lane
      rw [others, first]
      omega

theorem countSetBits_eq (mask : UInt64) : (countSetBits mask).toNat = activeLanes mask := by
  have fits : (0 : UInt32).toNat + 64 < 2 ^ 32 := by decide
  have counted := countSetBitsLoop_eq mask.toNat_lt fits
  simpa [countSetBits, activeLanes] using counted

/-! ### Blocks without instructions -/

/-- The message starts a block of the kernel. -/
structure NamesBlock (env : Env) (hdr : Message) : Prop where
  kdb : env.hasKdb = true
  exists_block : ∃ blocks, env.basicBlocks = some blocks ∧ hdr.userData.toNat < blocks.length
  kind : env.isTimeInterval hdr.userType = false

/-- What one wave sends: a block that ends the program comes last. -/
structure BlockSequence (env : Env) (messages : List Message) : Prop where
  names : ∀ hdr ∈ messages, NamesBlock env hdr
  ends : ∀ hdr ∈ messages.dropLast, endsProgram (env.instructionsOf hdr) = false

/-- The messages that the analysis looks at. -/
def withInstructions (env : Env) (messages : List Message) : List Message :=
  messages.filter fun hdr => env.instructionsOf hdr ≠ []

theorem startsBlock_of_mem {env : Env} {messages : List Message} (names : ∀ hdr ∈ messages, NamesBlock env hdr) :
    ∀ hdr ∈ withInstructions env messages, StartsBlock env hdr := by
  intro hdr member
  obtain ⟨inside, instructions⟩ := List.mem_filter.mp member
  obtain ⟨kdb, known, kind⟩ := names hdr inside
  exact ⟨kdb, known, by simpa using instructions, kind⟩

theorem mem_dropLast_of_filter {α : Type} {p : α → Bool} {items : List α} {item : α}
    (member : item ∈ (items.filter p).dropLast) : item ∈ items.dropLast := by
  induction items using List.reverseRecOn with
  | nil => exact member
  | append_singleton items last _ =>
    rw [List.dropLast_concat]
    by_cases kept : p last = true
    · rw [List.filter_append, List.filter_cons_of_pos kept, List.filter_nil, List.dropLast_concat] at member
      exact List.mem_of_mem_filter member
    · rw [List.filter_append, List.filter_cons_of_neg kept, List.filter_nil, List.append_nil] at member
      exact List.mem_of_mem_filter (List.mem_of_mem_dropLast member)

theorem ofKey_withInstructions (env : Env) (wave : WaveFields) (messages : List Message) :
    ofKey Message.wave wave (withInstructions env messages) =
      withInstructions env (ofKey Message.wave wave messages) := by
  rw [ofKey, ofKey, withInstructions, withInstructions, List.filter_filter, List.filter_filter]
  exact List.filter_congr fun hdr _ => Bool.and_comm _ _

namespace Analysis

theorem step_of_noInstructions {env : Env} {hdr : Message} (names : NamesBlock env hdr)
    (empty : env.instructionsOf hdr = []) (analysis : Analysis) :
    ∃ after, analysis.step env hdr = some after ∧ SameVisits after analysis := by
  obtain ⟨kdb, ⟨blocks, known, inside⟩, -⟩ := names
  have found : blocks[hdr.userData.toNat]? = some [] := by
    have same : (blocks[hdr.userData.toNat]?).getD [] = [] := by simpa [Env.instructionsOf, known] using empty
    rw [List.getElem?_eq_getElem inside] at same ⊢
    exact congrArg some same
  obtain ⟨after, taken⟩ : ∃ after, analysis.step env hdr = some after := by
    simp [step, handle, kdb, known, found]
  exact ⟨after, taken, step_withoutInstructions kdb empty taken⟩

/-- A message for a block without instructions changes neither the blocks nor the waves. -/
theorem run_withInstructions {env : Env} {messages : List Message} (names : ∀ hdr ∈ messages, NamesBlock env hdr)
    {first second after : Analysis} (same : SameVisits first second)
    (ran : run (step env) second (withInstructions env messages) = some after) :
    ∃ after', run (step env) first messages = some after' ∧ SameVisits after' after := by
  induction messages generalizing first second with
  | nil =>
    obtain rfl := Option.some.inj ran
    exact ⟨first, rfl, same⟩
  | cons hdr rest ih =>
    obtain ⟨here, others⟩ := List.forall_mem_cons.mp names
    by_cases empty : env.instructionsOf hdr = []
    · rw [withInstructions, List.filter_cons_of_neg (by simp [empty])] at ran
      obtain ⟨next, taken, kept⟩ := step_of_noInstructions here empty first
      have skipped : SameVisits next second :=
        ⟨kept.waveStates.trans same.waveStates, kept.blockInfo.trans same.blockInfo⟩
      obtain ⟨after', ran', visits⟩ := ih others skipped ran
      exact ⟨after', by rw [run, taken, Option.bind_some, ran'], visits⟩
    · rw [withInstructions, List.filter_cons_of_pos (by simp [empty])] at ran
      obtain ⟨next, taken, ran⟩ := Option.bind_eq_some_iff.mp ran
      obtain ⟨next', taken', same'⟩ := step_sameVisits here.kdb same taken
      obtain ⟨after', ran', visits⟩ := ih others same' ran
      exact ⟨after', by rw [run, taken', Option.bind_some, ran'], visits⟩

end Analysis

/-! ### Whose mask is counted -/

section
variable {env : Env} {waves : Finset WaveFields} {history : WaveFields → List Message}
  {messages : List Message}

variable (waves history) in
/-- The lanes active at the entries of a block that a later message of the wave follows. -/
def lanesEntering (block : UInt32) : Nat :=
  ∑ wave ∈ waves, ((visitsOf block (history wave)).map fun visit => activeLanes visit.1.exec).sum

/-- The lanes active at the messages that charge a block: from blocks with instructions, with a key that was
used before and last for the block. -/
def lanesCharged (env : Env) (messages : List Message) (block : UInt32) : Nat :=
  ((charged block (withInstructions env messages)).map fun visit => activeLanes visit.2.exec).sum

variable (env waves history) in
/-- The lanes active when the waves go on from a block to their next one with instructions. -/
def lanesLeaving (block : UInt32) : Nat :=
  ∑ wave ∈ waves,
    ((visitsOf block (withInstructions env (history wave))).map fun visit => activeLanes visit.2.exec).sum

def threadCountOf (blockInfo : Map UInt32 BlockInfo) (block : UInt32) : UInt64 :=
  (blockInfo[block]?.map BlockInfo.threadCount).getD 0

theorem infoOf_threadCount {blockInfo : Map UInt32 BlockInfo} {block : UInt32} {threads count duration : Nat}
    (info : blockInfo[block]? = infoOf threads count duration) (idle : count = 0 → threads = 0) :
    threadCountOf blockInfo block = .ofNat threads := by
  rw [threadCountOf, info, infoOf]
  split
  · rename_i none
    rw [idle none]
    rfl
  · rfl

variable (env) in
theorem Interleaving.withInstructions (interleaved : Interleaving waves history messages) :
    Interleaving waves (fun wave => BasicBlocks.withInstructions env (history wave))
      (BasicBlocks.withInstructions env messages) where
  known hdr member := interleaved.known hdr (List.mem_of_mem_filter member)
  each wave member := by rw [ofKey_withInstructions, interleaved.each wave member]

theorem Interleaving.names (sequences : ∀ wave ∈ waves, BlockSequence env (history wave))
    (interleaved : Interleaving waves history messages) : ∀ hdr ∈ messages, NamesBlock env hdr := by
  intro hdr member
  have known := interleaved.known hdr member
  apply (sequences hdr.wave known).names
  rw [← interleaved.each hdr.wave known]
  exact List.mem_filter.mpr ⟨member, by simp⟩

theorem Interleaving.endsLast_withInstructions (sequences : ∀ wave ∈ waves, BlockSequence env (history wave))
    (interleaved : Interleaving waves history messages) :
    EndsLast env (BasicBlocks.withInstructions env messages) := by
  apply endsLast_of_histories
  intro wave hdr member
  have own : hdr ∈ ofKey Message.wave wave (BasicBlocks.withInstructions env messages) := List.mem_of_mem_dropLast member
  obtain ⟨inside, same⟩ := List.mem_filter.mp own
  have known : wave ∈ waves := by
    have listed := interleaved.known hdr (List.mem_of_mem_filter inside)
    rwa [decide_eq_true_iff.mp same] at listed
  rw [ofKey_withInstructions, interleaved.each wave known] at member
  exact (sequences wave known).ends hdr (mem_dropLast_of_filter member)

/-- From a new analysis, a block's thread count is that of the messages that charge it. -/
theorem run_threadCount (sequences : ∀ wave ∈ waves, BlockSequence env (history wave))
    (interleaved : Interleaving waves history messages) (strKernel : Text) (dispatchId : UInt64) :
    ∃ after, run (Analysis.step env) { strKernel, dispatchId } messages = some after ∧
      ∀ block, threadCountOf after.blockInfo block = .ofNat (lanesCharged env messages block) := by
  have names := interleaved.names sequences
  obtain ⟨counted, ranCounted, info⟩ :=
    run_charged (interleaved.endsLast_withInstructions sequences) (startsBlock_of_mem names) { strKernel, dispatchId }
      rfl rfl
  obtain ⟨after, ran, same⟩ := Analysis.run_withInstructions names ⟨rfl, rfl⟩ ranCounted
  have lanes : visitThreads = fun visit : Message × Message => activeLanes visit.2.exec :=
    funext fun visit => countSetBits_eq visit.2.exec
  refine ⟨after, ran, fun block => ?_⟩
  rw [same.blockInfo, infoOf_threadCount (info block), lanes, lanesCharged]
  intro uncharged
  rw [List.length_eq_zero_iff.mp uncharged]
  rfl

theorem OneKey.filter {messages : List Message} (one : OneKey messages) (p : Message → Bool) :
    OneKey (messages.filter p) :=
  fun first memberFirst second memberSecond =>
    one first (List.mem_of_mem_filter memberFirst) second (List.mem_of_mem_filter memberSecond)

/-- Where each wave has one key, a block is charged for the steps of the waves from it. -/
theorem lanesCharged_eq_lanesLeaving (interleaved : Interleaving waves history messages)
    (oneKey : ∀ wave ∈ waves, OneKey (history wave)) (block : UInt32) :
    lanesCharged env messages block = lanesLeaving env waves history block := by
  have kept := interleaved.withInstructions env
  rw [lanesCharged, kept.charged_eq fun wave member => (oneKey wave member).filter _, kept.sum_visits]
  rfl

theorem ofNat_eq_iff (first second : Nat) :
    UInt64.ofNat first = UInt64.ofNat second ↔ first ≡ second [MOD 2 ^ 64] := by
  rw [← UInt64.toNat_inj, UInt64.toNat_ofNat', UInt64.toNat_ofNat']
  rfl

/-- The thread counts are those of the blocks' own entries exactly when, for every block, as many lanes
are active at its entries as at the messages that charge it. Where each wave has one key, these are the
messages with which the waves go on. -/
theorem threadCount_of_entries_iff (strKernel : Text) (dispatchId : UInt64)
    (sequences : ∀ wave ∈ waves, BlockSequence env (history wave))
    (interleaved : Interleaving waves history messages) :
    (∃ after, run (Analysis.step env) { strKernel, dispatchId } messages = some after ∧
      ((∀ block, threadCountOf after.blockInfo block = .ofNat (lanesEntering waves history block)) ↔
        ∀ block, lanesEntering waves history block ≡ lanesCharged env messages block [MOD 2 ^ 64])) ∧
    ((∀ wave ∈ waves, OneKey (history wave)) →
      ∀ block, lanesCharged env messages block = lanesLeaving env waves history block) := by
  refine ⟨?_, fun oneKey block => lanesCharged_eq_lanesLeaving interleaved oneKey block⟩
  obtain ⟨after, ran, counts⟩ := run_threadCount sequences interleaved strKernel dispatchId
  refine ⟨after, ran, forall_congr' fun block => ?_⟩
  rw [counts, eq_comm, ofNat_eq_iff]

end

namespace Sample

theorem history_mask : ∀ id ∈ ({wave 0, wave 1} : Finset _), withInstructions env (history id) = history id ∧
    ∀ visit ∈ steps (history id), activeLanes visit.1.exec = activeLanes visit.2.exec := by
  decide

end Sample

theorem threadCount_of_entries_sample :
    ∃ after, run (Analysis.step Sample.env) {} Sample.messages = some after ∧
      threadCountOf after.blockInfo 0 = 6 := by
  have names : ∀ number block timestamp, block.toNat < 2 → NamesBlock Sample.env (Sample.start number block timestamp) :=
    fun _ _ _ inside => ⟨rfl, ⟨_, rfl, inside⟩, rfl⟩
  have sequences : ∀ wave ∈ ({Sample.wave 0, Sample.wave 1} : Finset _),
      BlockSequence Sample.env (Sample.history wave) := by
    have first : BlockSequence Sample.env (Sample.history (Sample.wave 0)) :=
      ⟨by simp [Sample.history, Sample.wave, names], by decide⟩
    have second : BlockSequence Sample.env (Sample.history (Sample.wave 1)) :=
      ⟨by simp [Sample.history, Sample.wave, names], by decide⟩
    simpa using ⟨first, second⟩
  have interleaved : Interleaving {Sample.wave 0, Sample.wave 1} Sample.history Sample.messages :=
    ⟨by decide, by decide⟩
  have oneKey : ∀ wave ∈ ({Sample.wave 0, Sample.wave 1} : Finset _), OneKey (Sample.history wave) := by
    unfold OneKey
    decide
  obtain ⟨⟨after, ran, own⟩, leaving⟩ := threadCount_of_entries_iff [] 0 sequences interleaved
  refine ⟨after, ran, (own.mpr fun block => ?_) 0⟩
  have same : lanesEntering {Sample.wave 0, Sample.wave 1} Sample.history block =
      lanesLeaving Sample.env {Sample.wave 0, Sample.wave 1} Sample.history block := by
    refine Finset.sum_congr rfl fun wave member => ?_
    obtain ⟨all, mask⟩ := Sample.history_mask wave member
    rw [all]
    exact congrArg List.sum (List.map_congr_left fun visit taken => mask visit (List.mem_filter.mp taken).1)
  rw [leaving oneKey, same]

namespace Sample

/-- Two lanes enter the loop block and one of them the block after it. -/
def diverging : List Message := [start 0 0 10, { start 0 1 20 with exec := 0b01 }]

end Sample

/-- A wave that leaves a block with fewer lanes than it entered it with. -/
theorem threadCount_of_next :
    ¬∀ (env : Env) (waves : Finset WaveFields) (history : WaveFields → List Message) (messages : List Message),
      (∀ wave ∈ waves, BlockSequence env (history wave)) → Interleaving waves history messages →
      ∃ after, run (Analysis.step env) {} messages = some after ∧
        ∀ block, threadCountOf after.blockInfo block = .ofNat (lanesEntering waves history block) := by
  intro claim
  have sequence : BlockSequence Sample.env Sample.diverging :=
    ⟨List.forall_mem_cons.mpr ⟨⟨rfl, ⟨_, rfl, by decide⟩, rfl⟩,
      List.forall_mem_singleton.mpr ⟨rfl, ⟨_, rfl, by decide⟩, rfl⟩⟩, by decide⟩
  have sequences : ∀ wave ∈ ({Sample.wave 0} : Finset _), BlockSequence Sample.env Sample.diverging :=
    fun _ _ => sequence
  have interleaved : Interleaving {Sample.wave 0} (fun _ => Sample.diverging) Sample.diverging :=
    ⟨by decide, by decide⟩
  obtain ⟨after, ran, own⟩ := claim _ _ _ _ sequences interleaved
  obtain ⟨after', ran', counts⟩ := run_threadCount sequences interleaved [] 0
  obtain rfl := Option.some.inj (ran.symm.trans ran')
  exact absurd ((own 0).symm.trans (counts 0)) (by decide)

end Omniprobe.BasicBlocks
