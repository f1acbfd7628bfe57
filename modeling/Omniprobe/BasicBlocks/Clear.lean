import Omniprobe.BasicBlocks.Accounting

/-!
# What `clear` leaves behind

`basic_block_analysis::clear` resets the kernel's name and the dispatch id. Everything the messages
have added up stays.
-/

namespace Omniprobe.BasicBlocks
open Lib Std

/-! ### Compute resources -/

/-- Where a message says that its wave runs. -/
structure Place where
  xccId : UInt16
  seId : UInt16
  cuId : UInt16
  workgroup : WorkgroupId
  waveNum : UInt8
  deriving DecidableEq, Repr

def Message.place (hdr : Message) : Place := ⟨hdr.xccId, hdr.seId, hdr.cuId, hdr.workgroup, hdr.waveNum⟩

theorem updateComputeResources_idem (resources : ComputeResources) {first second : Message}
    (same : first.place = second.place) :
    updateComputeResources (updateComputeResources resources first) second =
      updateComputeResources resources second := by
  simp only [Message.place, Place.mk.injEq] at same
  obtain ⟨xcc, se, cu, wg, wave⟩ := same
  simp only [updateComputeResources, xcc, se, cu, wg, wave]
  refine upsert_idem _ _ fun ses => ?_
  rw [Option.getD_some]
  refine upsert_idem _ _ fun cus => ?_
  rw [Option.getD_some]
  refine upsert_idem _ _ fun wgs => ?_
  rw [Option.getD_some]
  refine upsert_idem _ _ fun waves => ?_
  rw [Option.getD_some, Finset.insert_idem]

theorem updateComputeResources_comm (resources : ComputeResources) (first second : Message) :
    updateComputeResources (updateComputeResources resources first) second =
      updateComputeResources (updateComputeResources resources second) first := by
  refine upsert_comm _ _ _ fun _ ses => ?_
  rw [Option.getD_some, Option.getD_some]
  refine upsert_comm _ _ _ fun _ cus => ?_
  rw [Option.getD_some, Option.getD_some]
  refine upsert_comm _ _ _ fun _ wgs => ?_
  rw [Option.getD_some, Option.getD_some]
  refine upsert_comm _ _ _ fun _ waves => ?_
  rw [Option.getD_some, Option.getD_some, Finset.insert_comm]

/-- A wave that a later message reports again need not be there before. -/
theorem foldl_update_absorb (resources : ComputeResources) {earlier : Message} {later : List Message}
    (again : ∃ hdr ∈ later, hdr.place = earlier.place) :
    later.foldl updateComputeResources (updateComputeResources resources earlier) =
      later.foldl updateComputeResources resources := by
  induction later generalizing resources with
  | nil => obtain ⟨_, impossible, _⟩ := again; cases impossible
  | cons hdr rest ih =>
    rw [List.foldl_cons, List.foldl_cons]
    by_cases same : hdr.place = earlier.place
    · rw [updateComputeResources_idem _ same.symm]
    · rw [updateComputeResources_comm, ih]
      obtain ⟨other, member, found⟩ := again
      rcases List.mem_cons.mp member with rfl | later
      · exact (same found).elim
      · exact ⟨other, later, found⟩

theorem foldl_update_forget {earlier later : List Message}
    (again : ∀ hdr ∈ earlier, ∃ other ∈ later, other.place = hdr.place) (resources : ComputeResources) :
    later.foldl updateComputeResources (earlier.foldl updateComputeResources resources) =
      later.foldl updateComputeResources resources := by
  induction earlier generalizing resources with
  | nil => rfl
  | cons hdr rest ih =>
    obtain ⟨here, others⟩ := List.forall_mem_cons.mp again
    rw [List.foldl_cons, ih others, foldl_update_absorb _ here]

/-- A compute unit of the device. -/
structure ComputeUnit where
  xccId : UInt16
  seId : UInt16
  cuId : UInt16
  deriving DecidableEq, Repr

def Message.unit (hdr : Message) : ComputeUnit := ⟨hdr.xccId, hdr.seId, hdr.cuId⟩

def workgroupsAt (resources : ComputeResources) (unit : ComputeUnit) : Map WorkgroupId (Finset UInt16) :=
  ((((resources[unit.xccId]?).getD ∅)[unit.seId]?).getD ∅)[unit.cuId]?.getD ∅

/-- A message changes the workgroups of one compute unit. -/
theorem workgroupsAt_update (resources : ComputeResources) (hdr : Message) (unit : ComputeUnit) :
    workgroupsAt (updateComputeResources resources hdr) unit =
      if hdr.unit = unit then
        upsert (workgroupsAt resources unit) hdr.workgroup fun waves => insert hdr.waveNum.toUInt16 (waves.getD ∅)
      else workgroupsAt resources unit := by
  obtain ⟨xcc, se, cu⟩ := unit
  simp only [workgroupsAt, updateComputeResources, Message.unit, ComputeUnit.mk.injEq, find_upsert]
  by_cases sameXcc : hdr.xccId = xcc
  · subst sameXcc
    simp only [if_true, Option.getD_some, find_upsert]
    by_cases sameSe : hdr.seId = se
    · subst sameSe
      simp only [if_true, Option.getD_some, find_upsert]
      by_cases sameCu : hdr.cuId = cu
      · subst sameCu
        simp
      · simp [sameCu]
    · simp [sameSe]
  · simp [sameXcc]

/-- The wave is listed at its place. -/
def Lists (resources : ComputeResources) (place : Place) : Prop :=
  place.waveNum.toUInt16 ∈
    (((((resources[place.xccId]?).getD ∅)[place.seId]?).getD ∅)[place.cuId]?.getD ∅)[place.workgroup]?.getD ∅

theorem lists_update_iff (resources : ComputeResources) (hdr : Message) (place : Place) :
    Lists (updateComputeResources resources hdr) place ↔ hdr.place = place ∨ Lists resources place := by
  obtain ⟨xcc, se, cu, wg, wave⟩ := place
  have updated := workgroupsAt_update resources hdr ⟨xcc, se, cu⟩
  simp only [workgroupsAt] at updated
  simp only [Lists, updated, Message.place, Place.mk.injEq]
  by_cases sameUnit : hdr.unit = ⟨xcc, se, cu⟩
  · obtain ⟨rfl, rfl, rfl⟩ := ComputeUnit.mk.inj sameUnit
    rw [if_pos sameUnit, find_upsert]
    by_cases sameWg : hdr.workgroup = wg
    · have number : wave.toUInt16 = hdr.waveNum.toUInt16 ↔ hdr.waveNum = wave := by
        rw [← UInt16.toNat_inj, ← UInt8.toNat_inj, UInt8.toNat_toUInt16, UInt8.toNat_toUInt16, eq_comm]
      simp [sameWg, number]
    · simp [sameWg]
  · rw [if_neg sameUnit, or_iff_right]
    rintro ⟨rfl, rfl, rfl, -⟩
    exact sameUnit rfl

theorem lists_foldl_iff (messages : List Message) (resources : ComputeResources) (place : Place) :
    Lists (messages.foldl updateComputeResources resources) place ↔
      (∃ hdr ∈ messages, hdr.place = place) ∨ Lists resources place := by
  induction messages generalizing resources with
  | nil => simp
  | cons hdr rest ih =>
    rw [List.foldl_cons, ih, lists_update_iff]
    simp only [List.mem_cons, exists_eq_or_imp]
    rw [or_left_comm, or_assoc]

/-! ### Runs -/

namespace Analysis

structure SameVisits (first second : Analysis) : Prop where
  waveStates : first.waveStates = second.waveStates
  blockInfo : first.blockInfo = second.blockInfo

theorem enterBlock_sameVisits {first second : Analysis} (same : SameVisits first second)
    (instructions : List Instruction) (hdr : Message) :
    SameVisits (first.enterBlock instructions hdr) (second.enterBlock instructions hdr) := by
  obtain ⟨states, info⟩ := same
  unfold enterBlock
  rw [states, info]
  split <;> exact ⟨rfl, rfl⟩

theorem enterBlock_resources (analysis : Analysis) (instructions : List Instruction) (hdr : Message) :
    (analysis.enterBlock instructions hdr).computeResources = analysis.computeResources := by
  unfold enterBlock
  dsimp only
  split <;> rfl

theorem step_resources {env : Env} (kdb : env.hasKdb = true) {analysis after : Analysis} {hdr : Message}
    (taken : analysis.step env hdr = some after) :
    after.computeResources = updateComputeResources analysis.computeResources hdr := by
  unfold step handle at taken
  rw [if_pos kdb] at taken
  dsimp only at taken
  split at taken
  · obtain rfl := Option.some.inj taken
    rfl
  split at taken
  · cases taken
  split at taken
  · obtain rfl := Option.some.inj taken
    rfl
  split at taken
  · cases taken
  · obtain rfl := Option.some.inj taken
    exact enterBlock_resources _ _ hdr

/-- What a message does to the blocks and waves does not depend on the rest of the state. -/
theorem step_sameVisits {env : Env} (kdb : env.hasKdb = true) {first second after : Analysis} {hdr : Message}
    (same : SameVisits first second) (taken : second.step env hdr = some after) :
    ∃ after', first.step env hdr = some after' ∧ SameVisits after' after := by
  unfold step handle at taken ⊢
  rw [if_pos kdb] at taken ⊢
  dsimp only at taken ⊢
  split at taken
  · obtain rfl := Option.some.inj taken
    exact ⟨_, rfl, ⟨same.waveStates, same.blockInfo⟩⟩
  split at taken
  · cases taken
  split at taken
  · rename_i empty
    obtain rfl := Option.some.inj taken
    rw [if_pos empty]
    exact ⟨_, rfl, ⟨same.waveStates, same.blockInfo⟩⟩
  split at taken
  · cases taken
  · rename_i nonempty kind
    obtain rfl := Option.some.inj taken
    rw [if_neg nonempty, if_neg kind]
    refine ⟨_, rfl, ?_⟩
    apply enterBlock_sameVisits
    exact ⟨same.waveStates, same.blockInfo⟩

theorem step_withoutInstructions {env : Env} (kdb : env.hasKdb = true) {analysis after : Analysis} {hdr : Message}
    (empty : env.instructionsOf hdr = []) (taken : analysis.step env hdr = some after) :
    SameVisits after analysis := by
  unfold step handle at taken
  rw [if_pos kdb] at taken
  dsimp only at taken
  split at taken
  · obtain rfl := Option.some.inj taken
    exact ⟨rfl, rfl⟩
  rename_i blocks known
  split at taken
  · cases taken
  rename_i instructions found
  have none : instructions = [] := by simpa [Env.instructionsOf, known, found] using empty
  subst none
  obtain rfl := Option.some.inj taken
  exact ⟨rfl, rfl⟩

theorem clear_resources (analysis : Analysis) : analysis.clear.computeResources = analysis.computeResources := rfl

theorem run_resources {env : Env} (kdb : env.hasKdb = true) {analysis after : Analysis} {messages : List Message}
    (ran : run (step env) analysis messages = some after) :
    after.computeResources = messages.foldl updateComputeResources analysis.computeResources := by
  induction messages generalizing analysis with
  | nil =>
    obtain rfl := Option.some.inj ran
    rfl
  | cons hdr rest ih =>
    obtain ⟨next, taken, ran⟩ := Option.bind_eq_some_iff.mp ran
    rw [ih ran, step_resources kdb taken, List.foldl_cons]

theorem run_sameVisits {env : Env} (kdb : env.hasKdb = true) {first second after : Analysis} {messages : List Message}
    (same : SameVisits first second) (ran : run (step env) second messages = some after) :
    ∃ after', run (step env) first messages = some after' ∧ SameVisits after' after := by
  induction messages generalizing first second with
  | nil =>
    obtain rfl := Option.some.inj ran
    exact ⟨first, rfl, same⟩
  | cons hdr rest ih =>
    obtain ⟨next, taken, ran⟩ := Option.bind_eq_some_iff.mp ran
    obtain ⟨next', taken', same'⟩ := step_sameVisits kdb same taken
    obtain ⟨after', ran', visits⟩ := ih same' ran
    exact ⟨after', by rw [run, taken', Option.bind_some, ran'], visits⟩

theorem run_withoutInstructions {env : Env} (kdb : env.hasKdb = true) {analysis after : Analysis}
    {messages : List Message} (empty : ∀ hdr ∈ messages, env.instructionsOf hdr = [])
    (ran : run (step env) analysis messages = some after) : SameVisits after analysis := by
  induction messages generalizing analysis with
  | nil =>
    obtain rfl := Option.some.inj ran
    exact ⟨rfl, rfl⟩
  | cons hdr rest ih =>
    obtain ⟨here, others⟩ := List.forall_mem_cons.mp empty
    obtain ⟨next, taken, ran⟩ := Option.bind_eq_some_iff.mp ran
    obtain ⟨states, info⟩ := ih others ran
    obtain ⟨states', info'⟩ := step_withoutInstructions kdb here taken
    exact ⟨states.trans states', info.trans info'⟩

theorem run_withoutKdb {env : Env} (noKdb : env.hasKdb = false) (analysis : Analysis) (messages : List Message) :
    run (step env) analysis messages = some analysis := by
  induction messages with
  | nil => rfl
  | cons hdr rest ih =>
    have taken : analysis.step env hdr = some analysis := by simp [step, handle, noKdb]
    rw [run, taken, Option.bind_some, ih]

/-! ### After `clear` -/

structure SameStatistics (first second : Analysis) : Prop extends SameVisits first second where
  computeResources : first.computeResources = second.computeResources

/-- The earlier messages leave nothing that the later ones do not: there is no `kernelDB`, or they name
no block with instructions and only waves that the later messages name at the same place. -/
def LeavesNothing (env : Env) (earlier later : List Message) : Prop :=
  env.hasKdb = false ∨
    (∀ hdr ∈ earlier, env.instructionsOf hdr = []) ∧ ∀ hdr ∈ earlier, ∃ other ∈ later, other.place = hdr.place

theorem clear_reset {env : Env} {earlier later : List Message} {start old fresh : Analysis}
    (ranEarlier : run (step env) start earlier = some old) (ranLater : run (step env) start later = some fresh)
    (nothing : LeavesNothing env earlier later) :
    ∃ after, run (step env) old.clear later = some after ∧ SameStatistics after fresh := by
  rcases nothing with noKdb | ⟨empty, again⟩
  · rw [run_withoutKdb noKdb] at ranEarlier ranLater
    obtain rfl := Option.some.inj ranEarlier
    obtain rfl := Option.some.inj ranLater
    exact ⟨_, run_withoutKdb noKdb _ later, ⟨⟨rfl, rfl⟩, rfl⟩⟩
  · by_cases kdb : env.hasKdb = true
    · have visits : SameVisits old.clear start := by
        obtain ⟨states, info⟩ := run_withoutInstructions kdb empty ranEarlier
        exact ⟨states, info⟩
      obtain ⟨after, ran, same⟩ := run_sameVisits kdb visits ranLater
      refine ⟨after, ran, ⟨same, ?_⟩⟩
      rw [run_resources kdb ran, run_resources kdb ranLater, clear_resources, run_resources kdb ranEarlier,
        foldl_update_forget again]
    · rw [run_withoutKdb (Bool.eq_false_iff.mpr kdb)] at ranEarlier ranLater
      obtain rfl := Option.some.inj ranEarlier
      obtain rfl := Option.some.inj ranLater
      exact ⟨_, run_withoutKdb (Bool.eq_false_iff.mpr kdb) _ later, ⟨⟨rfl, rfl⟩, rfl⟩⟩

/-- The compute resources of the earlier messages stay, so equal statistics need them in the later ones. -/
theorem places_of_reset {env : Env} {earlier later : List Message} {start old fresh after : Analysis}
    (noResources : start.computeResources = ∅) (ranEarlier : run (step env) start earlier = some old)
    (ranLater : run (step env) start later = some fresh) (ran : run (step env) old.clear later = some after)
    (same : after.computeResources = fresh.computeResources) :
    env.hasKdb = false ∨ ∀ hdr ∈ earlier, ∃ other ∈ later, other.place = hdr.place := by
  by_cases kdb : env.hasKdb = true
  · refine .inr fun hdr member => ?_
    have listed : Lists after.computeResources hdr.place := by
      rw [run_resources kdb ran, clear_resources, run_resources kdb ranEarlier, lists_foldl_iff, lists_foldl_iff]
      exact .inr (.inl ⟨hdr, member, rfl⟩)
    rw [same, run_resources kdb ranLater, lists_foldl_iff, noResources] at listed
    rcases listed with again | nothing
    · exact again
    · simp [Lists] at nothing
  · exact .inl (Bool.eq_false_iff.mpr kdb)

end Analysis

end Omniprobe.BasicBlocks
