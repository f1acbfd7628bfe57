import Omniprobe.Lib.Interleavings
import Omniprobe.Lib.Run
import Omniprobe.BasicBlocks.Analysis

/-!
# Time spent in basic blocks

The messages of many waves arrive interleaved. What is counted for a block depends on the sequences
of the waves alone: one visit for each step of a wave from the block to its next message.
-/

namespace Omniprobe.BasicBlocks
open Lib Std

/-! ### Histories of waves -/

def Env.instructionsOf (env : Env) (hdr : Message) : List Instruction :=
  ((env.basicBlocks.getD [])[hdr.userData.toNat]?).getD []

/-- The message starts a block of the kernel that has at least one instruction. -/
structure StartsBlock (env : Env) (hdr : Message) : Prop where
  kdb : env.hasKdb = true
  exists_block : ∃ blocks, env.basicBlocks = some blocks ∧ hdr.userData.toNat < blocks.length
  instructions : env.instructionsOf hdr ≠ []
  kind : env.isTimeInterval hdr.userType = false

/-- What one wave sends: time does not go back, and a block that ends the program comes last. -/
structure History (env : Env) (messages : List Message) : Prop where
  starts : ∀ hdr ∈ messages, StartsBlock env hdr
  ordered : messages.Pairwise fun first second => first.timestamp.toNat ≤ second.timestamp.toNat
  ends : ∀ hdr ∈ messages.dropLast, endsProgram (env.instructionsOf hdr) = false

structure Interleaving (waves : Finset WaveFields) (history : WaveFields → List Message)
    (messages : List Message) : Prop where
  known : ∀ hdr ∈ messages, hdr.wave ∈ waves
  each : ∀ wave ∈ waves, ofKey Message.wave wave messages = history wave

/-! ### One message -/

namespace Analysis

/-- `none` where an assertion ends the program. -/
def step (env : Env) (analysis : Analysis) (hdr : Message) : Option Analysis :=
  (analysis.handle env hdr).map Prod.fst

def entered (hdr : Message) : WaveState := ⟨hdr.userData, hdr.timestamp, 1⟩

theorem step_startsBlock {env : Env} {hdr : Message} (starts : StartsBlock env hdr) (analysis : Analysis) :
    ∃ after, analysis.step env hdr = some after ∧
      after.blockInfo = (analysis.enterBlock (env.instructionsOf hdr) hdr).blockInfo ∧
      after.waveStates = (analysis.enterBlock (env.instructionsOf hdr) hdr).waveStates := by
  obtain ⟨kdb, ⟨blocks, known, inside⟩, instructions, kind⟩ := starts
  have found : blocks[hdr.userData.toNat]? = some (env.instructionsOf hdr) := by
    simp [Env.instructionsOf, known, inside]
  have nonempty : (env.instructionsOf hdr).isEmpty = false := by
    rw [List.isEmpty_eq_false_iff]
    exact instructions
  unfold step handle
  rw [if_pos kdb, known]
  dsimp only
  rw [found]
  simp only [nonempty, kind, Bool.false_eq_true, if_false, Option.map_some]
  refine ⟨_, rfl, ?_, ?_⟩
  · unfold enterBlock
    dsimp only
    split <;> rfl
  · unfold enterBlock
    dsimp only
    split <;> rfl

end Analysis

/-- The step of a wave from a block to its next message, counted for the block. -/
def countStep (info : Option BlockInfo) (visit : Message × Message) : Option BlockInfo :=
  some (addVisit info (Analysis.entered visit.1) visit.2)

/-- A block that ends the program is not followed by a message with the same key. -/
def EndsLast (env : Env) : List Message → Prop
  | [] => True
  | hdr :: rest =>
    ((∃ later ∈ rest, later.identifier = hdr.identifier) → endsProgram (env.instructionsOf hdr) = false) ∧ EndsLast env rest

theorem endsLast_of_histories {env : Env} {messages : List Message}
    (ends : ∀ wave, ∀ hdr ∈ (ofKey Message.wave wave messages).dropLast,
      endsProgram (env.instructionsOf hdr) = false) : EndsLast env messages := by
  induction messages with
  | nil => trivial
  | cons hdr rest ih =>
    refine ⟨?_, ih ?_⟩
    · rintro ⟨later, member, same⟩
      have nonempty : ofKey Message.wave hdr.wave rest ≠ [] :=
        List.ne_nil_of_mem (List.mem_filter.mpr ⟨member, by simpa using Message.wave_of_identifier same⟩)
      apply ends hdr.wave hdr
      rw [ofKey_cons, if_pos rfl, List.dropLast_cons_of_ne_nil nonempty]
      exact List.mem_cons_self
    · intro wave other member
      apply ends wave other
      rw [ofKey_cons]
      split
      · have nonempty : ofKey Message.wave wave rest ≠ [] := by
          rintro empty
          rw [empty] at member
          cases member
        rw [List.dropLast_cons_of_ne_nil nonempty]
        exact List.mem_cons_of_mem _ member
      · exact member

namespace Analysis

/-- The state of every key that still has messages to come is that of its last message. -/
def Tracks (analysis : Analysis) (before rest : List Message) : Prop :=
  ∀ key, (∃ hdr ∈ rest, hdr.identifier = key) →
    analysis.waveStates[key]? = (ofKey Message.identifier key before).getLast?.map entered

theorem step_tracks {env : Env} {analysis : Analysis} {before rest : List Message} {hdr : Message}
    (tracks : analysis.Tracks before (hdr :: rest)) (ends : EndsLast env (hdr :: rest))
    (starts : StartsBlock env hdr) :
    ∃ after, analysis.step env hdr = some after ∧ after.Tracks (before ++ [hdr]) rest ∧
      ∀ block, after.blockInfo[block]? =
        ((((ofKey Message.identifier hdr.identifier before).getLast?.map fun earlier => (earlier, hdr)).toList.filter
          fun visit => visit.1.userData = block).foldl countStep analysis.blockInfo[block]?) := by
  obtain ⟨after, taken, info, states⟩ := step_startsBlock starts analysis
  have state := tracks hdr.identifier ⟨hdr, List.mem_cons_self, rfl⟩
  refine ⟨after, taken, ?_, ?_⟩
  · intro key pending
    have old := tracks key (pending.imp fun _ found => ⟨List.mem_cons_of_mem _ found.1, found.2⟩)
    rw [states, ofKey_append_singleton]
    unfold enterBlock
    by_cases same : hdr.identifier = key
    · subst same
      -- The wave goes on, so its block does not end the program and its state is kept.
      have goesOn := ends.1 pending
      rw [state, goesOn]
      cases (ofKey Message.identifier hdr.identifier before).getLast? <;>
        simp [entered]
    · rw [if_neg same, ← old]
      split
      · dsimp only
        split
        · exact find_erase_ne _ same
        · exact find_insert_ne _ _ same
      · exact find_insert_ne _ _ same
  · intro block
    rw [info, enterBlock, state]
    cases (ofKey Message.identifier hdr.identifier before).getLast? with
    | none => rfl
    | some earlier =>
      simp only [Option.map_some, upsert, find_insert, Option.toList_some]
      by_cases same : earlier.userData = block
      · subst same
        simp [entered, countStep]
      · have other : (entered earlier).currentBlock ≠ block := same
        simp [same, other]

theorem run_blockInfo {env : Env} {analysis : Analysis} {before rest : List Message}
    (tracks : analysis.Tracks before rest) (ends : EndsLast env rest)
    (starts : ∀ hdr ∈ rest, StartsBlock env hdr) :
    ∃ after, run (step env) analysis rest = some after ∧
      ∀ block, after.blockInfo[block]? =
        ((transitionsFrom Message.identifier before rest).filter fun visit => visit.1.userData = block).foldl countStep
          analysis.blockInfo[block]? := by
  induction rest generalizing analysis before with
  | nil => exact ⟨analysis, rfl, fun _ => rfl⟩
  | cons hdr rest ih =>
    obtain ⟨next, taken, tracks', first⟩ := step_tracks tracks ends (starts hdr List.mem_cons_self)
    obtain ⟨after, ran, later⟩ := ih tracks' ends.2 fun other member => starts other (List.mem_cons_of_mem _ member)
    refine ⟨after, by rw [run, taken, Option.bind_some, ran], ?_⟩
    intro block
    rw [later, first, transitionsFrom, List.filter_append, List.foldl_append]

end Analysis

/-! ### Totals of visits -/

/-- The time between the two messages of a visit. -/
def visitTime (visit : Message × Message) : Nat := (visit.2.timestamp - visit.1.timestamp).toNat

def visitThreads (visit : Message × Message) : Nat := (countSetBits visit.2.exec).toNat

/-- The counters are 64 bits wide and wrap. -/
def infoOf (threads count duration : Nat) : Option BlockInfo :=
  if count = 0 then none else some ⟨.ofNat threads, .ofNat count, .ofNat duration, 0⟩

theorem infoOf_countStep (visits : List (Message × Message)) :
    visits.foldl countStep none =
      infoOf (visits.map visitThreads).sum visits.length (visits.map visitTime).sum := by
  induction visits using List.reverseRecOn with
  | nil => rfl
  | append_singleton visits visit ih =>
    rw [List.foldl_append, ih]
    have time : UInt64.ofNat (visitTime visit) = visit.2.timestamp - visit.1.timestamp := UInt64.ofNat_toNat
    have threads : UInt64.ofNat (visitThreads visit) = (countSetBits visit.2.exec).toUInt64 := by
      rw [visitThreads, ← UInt32.toNat_toUInt64, UInt64.ofNat_toNat]
    cases visits with
    | nil => simp [infoOf, countStep, addVisit, time, threads, Analysis.entered]
    | cons first rest =>
      simp only [infoOf, List.length_append, List.length_cons, List.length_nil, Nat.add_eq_zero_iff, one_ne_zero,
        and_false, if_false, List.foldl_cons, List.foldl_nil, countStep, addVisit, List.map_append, List.sum_append,
        List.map_cons, List.map_nil, List.sum_cons, List.sum_nil, Nat.add_zero, UInt64.ofNat_add, time, threads,
        Analysis.entered]
      rfl

section
variable {env : Env} {waves : Finset WaveFields} {history : WaveFields → List Message}
  {messages : List Message}

/-- The steps of a wave that leave the given block. -/
def visitsOf (block : UInt32) (messages : List Message) : List (Message × Message) :=
  (steps messages).filter fun visit => visit.1.userData = block

def elapsed (visit : Message × Message) : Nat := visit.2.timestamp.toNat - visit.1.timestamp.toNat

variable (waves history) in
/-- How often the waves leave the block. -/
def visitCount (block : UInt32) : Nat := ∑ wave ∈ waves, (visitsOf block (history wave)).length

variable (waves history) in
def timeIn (block : UInt32) : Nat := ∑ wave ∈ waves, ((visitsOf block (history wave)).map elapsed).sum

variable (waves history) in
def threadsIn (block : UInt32) : Nat := ∑ wave ∈ waves, ((visitsOf block (history wave)).map visitThreads).sum

theorem Interleaving.transitions (interleaved : Interleaving waves history messages) {wave : WaveFields}
    (member : wave ∈ waves) (block : UInt32) :
    ofKey (fun visit : Message × Message => visit.2.wave) wave
        ((transitionsFrom Message.wave [] messages).filter fun visit => visit.1.userData = block) =
      visitsOf block (history wave) := by
  have steps := transitionsFrom_ofKey Message.wave wave [] messages
  rw [interleaved.each wave member] at steps
  rw [visitsOf, ofKey, List.filter_filter]
  simp only [ofKey, List.filter_nil, List.getLast?_nil, Option.toList_none, List.nil_append] at steps
  rw [← steps, List.filter_filter]
  exact List.filter_congr fun visit _ => Bool.and_comm _ _

theorem Interleaving.sum_visits (interleaved : Interleaving waves history messages) (f : Message × Message → Nat)
    (block : UInt32) :
    (((transitionsFrom Message.wave [] messages).filter fun visit => visit.1.userData = block).map f).sum =
      ∑ wave ∈ waves, ((visitsOf block (history wave)).map f).sum := by
  rw [sum_by_key (fun visit : Message × Message => visit.2.wave) f waves]
  · exact Finset.sum_congr rfl fun wave member => by rw [interleaved.transitions member]
  · intro visit taken
    exact interleaved.known _ (transitionsFrom_key Message.wave (List.mem_filter.mp taken).1).2

theorem Interleaving.count_visits (interleaved : Interleaving waves history messages) (block : UInt32) :
    ((transitionsFrom Message.wave [] messages).filter fun visit => visit.1.userData = block).length =
      visitCount waves history block := by
  have ones := interleaved.sum_visits (fun _ => 1) block
  simpa [visitCount] using ones

theorem History.visitTime_eq (past : History env messages) {visit : Message × Message}
    (taken : visit ∈ steps messages) : visitTime visit = elapsed visit := by
  have ordered := steps_ordered (fun hdr : Message => hdr.timestamp.toNat) past.ordered taken
  exact UInt64.toNat_sub_of_le _ _ (UInt64.le_iff_toNat_le.mpr ordered)

/-- The steps of a wave take the time from its first to its last message. -/
def span (messages : List Message) : Nat :=
  ((messages.getLast?.map fun hdr => hdr.timestamp.toNat).getD 0) -
    ((messages.head?.map fun hdr => hdr.timestamp.toNat).getD 0)

theorem History.sum_elapsed (past : History env messages) : ((steps messages).map elapsed).sum = span messages := by
  cases messages with
  | nil => rfl
  | cons first rest =>
    have telescope := sum_steps_eq (fun hdr : Message => hdr.timestamp.toNat) first past.ordered
    have last : (first :: rest).getLast? = some ((first :: rest).getLast (List.cons_ne_nil first rest)) :=
      List.getLast?_eq_some_getLast _
    rw [span, last]
    simp only [Option.map_some, Option.getD_some, List.head?_cons, ← telescope]
    rw [Nat.add_sub_cancel_left]
    rfl

theorem Interleaving.endsLast (histories : ∀ wave ∈ waves, History env (history wave))
    (interleaved : Interleaving waves history messages) : EndsLast env messages := by
  apply endsLast_of_histories
  intro wave hdr member
  have inside : hdr ∈ messages := (List.mem_filter.mp (List.mem_of_mem_dropLast member)).1
  have same : hdr.wave = wave := by simpa using (List.mem_filter.mp (List.mem_of_mem_dropLast member)).2
  have known : wave ∈ waves := same ▸ interleaved.known hdr inside
  rw [interleaved.each wave known] at member
  exact (histories wave known).ends hdr member

theorem Interleaving.starts (histories : ∀ wave ∈ waves, History env (history wave))
    (interleaved : Interleaving waves history messages) : ∀ hdr ∈ messages, StartsBlock env hdr := by
  intro hdr member
  have known := interleaved.known hdr member
  apply (histories hdr.wave known).starts
  rw [← interleaved.each hdr.wave known]
  exact List.mem_filter.mpr ⟨member, by simp⟩

/-- The steps from a block to the next message with the same key: what `handle` charges the block for. -/
def charged (block : UInt32) (messages : List Message) : List (Message × Message) :=
  (transitionsFrom Message.identifier [] messages).filter fun visit => visit.1.userData = block

/-- From a new analysis, `block_info_` is given by what the blocks are charged for. -/
theorem run_charged (ends : EndsLast env messages) (starts : ∀ hdr ∈ messages, StartsBlock env hdr) (start : Analysis)
    (noStates : start.waveStates = ∅) (noInfo : start.blockInfo = ∅) :
    ∃ after, run (Analysis.step env) start messages = some after ∧
      ∀ block, after.blockInfo[block]? =
        infoOf ((charged block messages).map visitThreads).sum (charged block messages).length
          ((charged block messages).map visitTime).sum := by
  have tracks : start.Tracks [] messages := by
    intro key _
    simp [noStates, ofKey]
  obtain ⟨after, ran, info⟩ := Analysis.run_blockInfo tracks ends starts
  refine ⟨after, ran, fun block => ?_⟩
  rw [info, noInfo, ExtTreeMap.getElem?_empty, infoOf_countStep, charged]

/-- The messages have one key: the padding is the same in all of them. -/
def OneKey (messages : List Message) : Prop :=
  ∀ first ∈ messages, ∀ second ∈ messages, first.identifier = second.identifier

/-- Where each wave has one key, the keys compare like the fields. -/
theorem Interleaving.charged_eq (interleaved : Interleaving waves history messages)
    (oneKey : ∀ wave ∈ waves, OneKey (history wave)) (block : UInt32) :
    charged block messages = (transitionsFrom Message.wave [] messages).filter fun visit => visit.1.userData = block := by
  have listed : ∀ hdr ∈ messages, hdr ∈ history hdr.wave := by
    intro hdr member
    rw [← interleaved.each hdr.wave (interleaved.known hdr member)]
    exact List.mem_filter.mpr ⟨member, by simp⟩
  have same : transitionsFrom Message.identifier [] messages = transitionsFrom Message.wave [] messages := by
    refine transitionsFrom_congr fun first memberFirst second memberSecond => ⟨Message.wave_of_identifier, fun wave => ?_⟩
    refine oneKey first.wave (interleaved.known first memberFirst) first (listed first memberFirst) second ?_
    rw [wave]
    exact listed second memberSecond
  rw [charged, same]

/-- When time does not go back, the times are those between the messages. -/
theorem run_interleaving (histories : ∀ wave ∈ waves, History env (history wave))
    (oneKey : ∀ wave ∈ waves, OneKey (history wave)) (interleaved : Interleaving waves history messages)
    (start : Analysis) (noStates : start.waveStates = ∅) (noInfo : start.blockInfo = ∅) :
    ∃ after, run (Analysis.step env) start messages = some after ∧
      ∀ block, after.blockInfo[block]? =
        infoOf (threadsIn waves history block) (visitCount waves history block) (timeIn waves history block) := by
  obtain ⟨after, ran, info⟩ :=
    run_charged (interleaved.endsLast histories) (interleaved.starts histories) start noStates noInfo
  refine ⟨after, ran, fun block => ?_⟩
  have times : ∑ wave ∈ waves, ((visitsOf block (history wave)).map visitTime).sum = timeIn waves history block := by
    refine Finset.sum_congr rfl fun wave member => congrArg List.sum (List.map_congr_left fun visit taken => ?_)
    exact (histories wave member).visitTime_eq (List.mem_filter.mp taken).1
  rw [info, interleaved.charged_eq oneKey, interleaved.sum_visits, interleaved.sum_visits, interleaved.count_visits, times]
  rfl

/-! ### All blocks together -/

/-- The sum over `block_info_`, as `report` takes it. -/
def totalDuration (blockInfo : Map UInt32 BlockInfo) : UInt64 :=
  (blockInfo.toList.map fun entry => entry.2.duration).sum

theorem ofNat_sum {α : Type} (f : α → Nat) (items : List α) :
    (items.map fun item => UInt64.ofNat (f item)).sum = UInt64.ofNat (items.map f).sum := by
  induction items with
  | nil => rfl
  | cons item rest ih =>
    rw [List.map_cons, List.sum_cons, ih, List.map_cons, List.sum_cons, UInt64.ofNat_add]

theorem mem_of_step {blockInfo : Map UInt32 BlockInfo}
    (info : ∀ block, blockInfo[block]? =
      infoOf (threadsIn waves history block) (visitCount waves history block) (timeIn waves history block))
    {wave : WaveFields} (member : wave ∈ waves) {visit : Message × Message}
    (taken : visit ∈ steps (history wave)) : visit.1.userData ∈ blockInfo := by
  have visited : 0 < (visitsOf visit.1.userData (history wave)).length :=
    List.length_pos_of_mem (List.mem_filter.mpr ⟨taken, by simp⟩)
  have counted : visitCount waves history visit.1.userData ≠ 0 := by
    have part := Finset.single_le_sum (f := fun wave => (visitsOf visit.1.userData (history wave)).length)
      (fun _ _ => Nat.zero_le _) member
    unfold visitCount
    omega
  rw [mem_iff_find, info, infoOf, if_neg counted]
  exact ⟨_, rfl⟩

theorem totalDuration_eq {blockInfo : Map UInt32 BlockInfo}
    (histories : ∀ wave ∈ waves, History env (history wave))
    (info : ∀ block, blockInfo[block]? =
      infoOf (threadsIn waves history block) (visitCount waves history block) (timeIn waves history block)) :
    totalDuration blockInfo = .ofNat (∑ wave ∈ waves, span (history wave)) := by
  have durations : blockInfo.toList.map (fun entry => entry.2.duration) =
      blockInfo.keys.map fun block => UInt64.ofNat (timeIn waves history block) := by
    rw [← ExtTreeMap.map_fst_toList_eq_keys, List.map_map]
    refine List.map_congr_left fun entry member => ?_
    have found := ExtTreeMap.mem_toList_iff_getElem?_eq_some.mp (show (entry.1, entry.2) ∈ _ from member)
    rw [info, infoOf] at found
    split at found
    · cases found
    · exact (congrArg BlockInfo.duration (Option.some.inj found)).symm
  have swapped : ∑ block ∈ blockInfo.keys.toFinset, timeIn waves history block =
      ∑ wave ∈ waves, ((steps (history wave)).map elapsed).sum := by
    unfold timeIn
    rw [Finset.sum_comm]
    refine Finset.sum_congr rfl fun wave member => ?_
    rw [sum_by_key (fun visit : Message × Message => visit.1.userData) elapsed blockInfo.keys.toFinset]
    · rfl
    · intro visit taken
      rw [List.mem_toFinset, ExtTreeMap.mem_keys]
      exact mem_of_step info member taken
  rw [totalDuration, durations, ofNat_sum, ← List.sum_toFinset _ ExtTreeMap.nodup_keys, swapped]
  exact congrArg _ (Finset.sum_congr rfl fun wave member => (histories wave member).sum_elapsed)

/-- `block_info_` depends on each wave's own history: it counts the steps that leave a block and adds up
their times, the total is the time between the waves' first and last messages, and every interleaving
leaves the same table. The identifiers of a wave are taken to compare equal. -/
theorem blockInfo_of_histories (strKernel : Text) (dispatchId : UInt64)
    (histories : ∀ wave ∈ waves, History env (history wave)) (oneKey : ∀ wave ∈ waves, OneKey (history wave))
    (interleaved : Interleaving waves history messages) :
    ∃ after, run (Analysis.step env) { strKernel, dispatchId } messages = some after ∧
      (∀ block, after.blockInfo[block]? =
        if visitCount waves history block = 0 then none
        else some
          { threadCount := .ofNat (threadsIn waves history block)
            count := .ofNat (visitCount waves history block)
            duration := .ofNat (timeIn waves history block)
            dwarfLine := 0 }) ∧
      totalDuration after.blockInfo = .ofNat (∑ wave ∈ waves, span (history wave)) ∧
      ∀ messages', Interleaving waves history messages' →
        ∃ after', run (Analysis.step env) { strKernel, dispatchId } messages' = some after' ∧
          after'.blockInfo = after.blockInfo := by
  obtain ⟨after, ran, info⟩ := run_interleaving histories oneKey interleaved { strKernel, dispatchId } rfl rfl
  refine ⟨after, ran, info, totalDuration_eq histories info, ?_⟩
  intro messages' interleaved'
  obtain ⟨after', ran', info'⟩ := run_interleaving histories oneKey interleaved' { strKernel, dispatchId } rfl rfl
  refine ⟨after', ran', ExtTreeMap.ext_getElem? fun block => ?_⟩
  rw [info, info']

end

namespace Sample

/-- A loop block and a block that ends the program. -/
def env : Env where
  hasKdb := true
  basicBlocks := some [[⟨"v_add_f32".toList, 0⟩], [⟨"s_endpgm".toList, 1⟩]]
  isTimeInterval userType := userType = 2

def start (wave : UInt8) (block : UInt32) (timestamp : UInt64) : Message :=
  ⟨0, 0, 0, wave, 0, 0, 0, 3, block, 0b11, timestamp, (0, 0, 0)⟩

def wave (number : UInt8) : WaveFields := ⟨0, 0, 0, number⟩

def history (wave : WaveFields) : List Message :=
  if wave.waveId = 0 then [start 0 0 10, start 0 0 25, start 0 1 40] else [start 1 0 12, start 1 1 20]

def messages : List Message := [start 0 0 10, start 1 0 12, start 1 1 20, start 0 0 25, start 0 1 40]

end Sample

theorem blockInfo_of_histories_sample :
    ∃ after, run (Analysis.step Sample.env) {} Sample.messages = some after ∧
      after.blockInfo[(0 : UInt32)]? = some ⟨6, 3, 38, 0⟩ ∧ totalDuration after.blockInfo = 38 := by
  have loops : ∀ number timestamp, StartsBlock Sample.env (Sample.start number 0 timestamp) :=
    fun _ _ => ⟨rfl, ⟨_, rfl, show 0 < 2 by decide⟩, List.cons_ne_nil _ _, rfl⟩
  have leaves : ∀ number timestamp, StartsBlock Sample.env (Sample.start number 1 timestamp) :=
    fun _ _ => ⟨rfl, ⟨_, rfl, show 1 < 2 by decide⟩, List.cons_ne_nil _ _, rfl⟩
  have first : History Sample.env (Sample.history (Sample.wave 0)) :=
    ⟨by simp [Sample.history, Sample.wave, loops, leaves], by decide, by decide⟩
  have second : History Sample.env (Sample.history (Sample.wave 1)) :=
    ⟨by simp [Sample.history, Sample.wave, loops, leaves], by decide, by decide⟩
  have histories : ∀ wave ∈ ({Sample.wave 0, Sample.wave 1} : Finset _), History Sample.env (Sample.history wave) := by
    simpa using ⟨first, second⟩
  have interleaved : Interleaving {Sample.wave 0, Sample.wave 1} Sample.history Sample.messages :=
    ⟨by decide, by decide⟩
  have oneKey : ∀ wave ∈ ({Sample.wave 0, Sample.wave 1} : Finset _), OneKey (Sample.history wave) := by
    unfold OneKey
    decide
  obtain ⟨after, ran, info, total, -⟩ := blockInfo_of_histories [] 0 histories oneKey interleaved
  refine ⟨after, ran, (info 0).trans ?_, total.trans ?_⟩
  · decide
  · decide

end Omniprobe.BasicBlocks
