import Omniprobe.BasicBlocks.Resources

/-!
# What the compute resources report

After any messages, the entries of the resources are the compute units that the messages name, each
with its workgroups and the numbers of their waves.
-/

namespace Omniprobe.BasicBlocks
open Lib Lib.Json Std

/-! ### The entries of a compute unit -/

/-- The numbers of the waves of a workgroup on a compute unit. -/
def waveNumbers (messages : List Message) (unit : ComputeUnit) (wg : WorkgroupId) : Finset UInt16 :=
  {pair ∈ wavesOn messages unit | pair.1 = wg}.image fun pair => pair.2.toUInt16

theorem mem_wavesOn_iff {messages : List Message} {unit : ComputeUnit} {pair : WorkgroupId × UInt8} :
    pair ∈ wavesOn messages unit ↔ ∃ hdr ∈ messages, hdr.unit = unit ∧ (hdr.workgroup, hdr.waveNum) = pair := by
  simp only [wavesOn, List.mem_toFinset, List.mem_map, List.mem_filter, decide_eq_true_eq, and_assoc]

theorem mem_workgroupsOn_iff {messages : List Message} {unit : ComputeUnit} {wg : WorkgroupId} :
    wg ∈ workgroupsOn messages unit ↔ ∃ hdr ∈ messages, hdr.unit = unit ∧ hdr.workgroup = wg := by
  simp only [workgroupsOn, List.mem_toFinset, List.mem_map, List.mem_filter, decide_eq_true_eq, and_assoc]

theorem mem_waveNumbers_iff {messages : List Message} {unit : ComputeUnit} {wg : WorkgroupId} {number : UInt16} :
    number ∈ waveNumbers messages unit wg ↔
      ∃ hdr ∈ messages, hdr.unit = unit ∧ hdr.workgroup = wg ∧ hdr.waveNum.toUInt16 = number := by
  simp only [waveNumbers, Finset.mem_image, Finset.mem_filter, mem_wavesOn_iff]
  constructor
  · rintro ⟨_, ⟨⟨hdr, member, here, rfl⟩, same⟩, shown⟩
    exact ⟨hdr, member, here, same, shown⟩
  · rintro ⟨hdr, member, here, same, shown⟩
    exact ⟨_, ⟨⟨hdr, member, here, rfl⟩, same⟩, shown⟩

theorem waveNumbers_nonempty_iff {messages : List Message} {unit : ComputeUnit} {wg : WorkgroupId} :
    (waveNumbers messages unit wg).Nonempty ↔ wg ∈ workgroupsOn messages unit := by
  rw [mem_workgroupsOn_iff]
  constructor
  · rintro ⟨number, member⟩
    obtain ⟨hdr, present, here, same, -⟩ := mem_waveNumbers_iff.mp member
    exact ⟨hdr, present, here, same⟩
  · rintro ⟨hdr, present, here, same⟩
    exact ⟨_, mem_waveNumbers_iff.mpr ⟨hdr, present, here, same, rfl⟩⟩

theorem waveNumbers_concat (messages : List Message) (hdr : Message) (unit : ComputeUnit) (wg : WorkgroupId) :
    waveNumbers (messages ++ [hdr]) unit wg =
      if hdr.unit = unit ∧ hdr.workgroup = wg then insert hdr.waveNum.toUInt16 (waveNumbers messages unit wg)
      else waveNumbers messages unit wg := by
  ext number
  split
  · rename_i here
    simp only [mem_waveNumbers_iff, Finset.mem_insert, List.mem_append, List.mem_singleton]
    constructor
    · rintro ⟨other, member | rfl, found⟩
      · exact .inr ⟨other, member, found⟩
      · exact .inl found.2.2.symm
    · rintro (rfl | ⟨other, member, found⟩)
      · exact ⟨hdr, .inr rfl, here.1, here.2, rfl⟩
      · exact ⟨other, .inl member, found⟩
  · rename_i elsewhere
    simp only [mem_waveNumbers_iff, List.mem_append, List.mem_singleton]
    constructor
    · rintro ⟨other, member | rfl, found⟩
      · exact ⟨other, member, found⟩
      · exact absurd ⟨found.1, found.2.1⟩ elsewhere
    · rintro ⟨other, member, found⟩
      exact ⟨other, .inl member, found⟩

/-- A workgroup is listed with the numbers of its waves, if it has any. -/
theorem workgroupsAt_foldl (messages : List Message) (unit : ComputeUnit) (wg : WorkgroupId) :
    (workgroupsAt (messages.foldl updateComputeResources ∅) unit)[wg]? =
      if (waveNumbers messages unit wg).Nonempty then some (waveNumbers messages unit wg) else none := by
  induction messages using List.reverseRecOn with
  | nil => simp [workgroupsAt, waveNumbers, wavesOn]
  | append_singleton messages hdr ih =>
    have numbers := waveNumbers_concat messages hdr unit wg
    rw [List.foldl_concat, workgroupsAt_update]
    by_cases here : hdr.unit = unit
    · rw [if_pos here, find_upsert]
      by_cases same : hdr.workgroup = wg
      · rw [if_pos ⟨here, same⟩] at numbers
        rw [if_pos same, numbers, if_pos (Finset.insert_nonempty _ _), same, ih]
        split
        · rfl
        · rename_i none
          rw [Finset.not_nonempty_iff_eq_empty.mp none]
          rfl
      · rw [if_neg fun both => same both.2] at numbers
        rw [if_neg same, numbers, ih]
    · rw [if_neg fun both => here both.1] at numbers
      rw [if_neg here, numbers, ih]

theorem mem_toList_workgroupsAt {messages : List Message} {unit : ComputeUnit} {entry : WorkgroupId × Finset UInt16} :
    entry ∈ (workgroupsAt (messages.foldl updateComputeResources ∅) unit).toList ↔
      entry.1 ∈ workgroupsOn messages unit ∧ entry.2 = waveNumbers messages unit entry.1 := by
  obtain ⟨wg, numbers⟩ := entry
  rw [ExtTreeMap.mem_toList_iff_getElem?_eq_some, workgroupsAt_foldl, ← waveNumbers_nonempty_iff]
  split
  · rename_i some
    rw [Option.some.injEq, eq_comm, and_iff_right some]
  · rename_i none
    exact iff_of_false (by simp) fun both => none both.1

theorem toFinset_keys (messages : List Message) (unit : ComputeUnit) :
    ((workgroupsAt (messages.foldl updateComputeResources ∅) unit).toList.map Prod.fst).toFinset =
      workgroupsOn messages unit := by
  ext wg
  simp only [List.mem_toFinset, List.mem_map, mem_toList_workgroupsAt]
  constructor
  · rintro ⟨entry, ⟨member, -⟩, rfl⟩
    exact member
  · intro member
    exact ⟨(wg, waveNumbers messages unit wg), ⟨member, rfl⟩, rfl⟩

theorem card_waveNumbers (messages : List Message) (unit : ComputeUnit) (wg : WorkgroupId) :
    (waveNumbers messages unit wg).card = Finset.card {pair ∈ wavesOn messages unit | pair.1 = wg} := by
  refine Finset.card_image_of_injOn fun first memberFirst second memberSecond same => ?_
  have sameWg : first.1 = second.1 :=
    (Finset.mem_filter.mp memberFirst).2.trans (Finset.mem_filter.mp memberSecond).2.symm
  have number : first.2 = second.2 := by
    have same := congrArg UInt16.toNat same
    simpa [UInt8.toNat_toUInt16, UInt8.toNat_inj] using same
  exact Prod.ext sameWg number

/-- The sum of the loop over the workgroups counts the pairs of a workgroup and a wave. -/
theorem sum_waves (messages : List Message) (unit : ComputeUnit) :
    ((workgroupsAt (messages.foldl updateComputeResources ∅) unit).toList.map fun wg => wg.2.card).sum =
      (wavesOn messages unit).card := by
  have numbers : (workgroupsAt (messages.foldl updateComputeResources ∅) unit).toList.map (fun wg => wg.2.card) =
      ((workgroupsAt (messages.foldl updateComputeResources ∅) unit).toList.map Prod.fst).map
        fun wg => (waveNumbers messages unit wg).card := by
    rw [List.map_map]
    refine List.map_congr_left fun entry member => ?_
    rw [(mem_toList_workgroupsAt.mp member).2]
    rfl
  have inside : ∀ pair ∈ wavesOn messages unit, pair.1 ∈ workgroupsOn messages unit := by
    intro pair member
    obtain ⟨hdr, present, here, rfl⟩ := mem_wavesOn_iff.mp member
    exact mem_workgroupsOn_iff.mpr ⟨hdr, present, here, rfl⟩
  have distinct : ((workgroupsAt (messages.foldl updateComputeResources ∅) unit).toList.map Prod.fst).Nodup := by
    rw [ExtTreeMap.map_fst_toList_eq_keys]
    exact ExtTreeMap.nodup_keys
  rw [numbers, ← List.sum_toFinset _ distinct, toFinset_keys, Finset.card_eq_sum_card_fiberwise inside]
  exact Finset.sum_congr rfl fun wg _ => card_waveNumbers messages unit wg

theorem size_workgroupsAt (messages : List Message) (unit : ComputeUnit) :
    (workgroupsAt (messages.foldl updateComputeResources ∅) unit).size = (workgroupsOn messages unit).card := by
  have distinct : ((workgroupsAt (messages.foldl updateComputeResources ∅) unit).toList.map Prod.fst).Nodup := by
    rw [ExtTreeMap.map_fst_toList_eq_keys]
    exact ExtTreeMap.nodup_keys
  rw [← toFinset_keys, List.toFinset_card_of_nodup distinct, List.length_map, ExtTreeMap.length_toList]

/-! ### The report -/

theorem mem_reportedUnits {resources : ComputeResources} {entry : ComputeUnit × CuReport} :
    entry ∈ reportedUnits (resourcesReport resources) ↔
      ∃ xccs ∈ resources.toList, ∃ ses ∈ xccs.2.toList, ∃ cus ∈ ses.2.toList,
        (⟨xccs.1, ses.1, cus.1⟩, cuReport cus) = entry := by
  simp only [reportedUnits, resourcesReport, xccReport, seReport, cuReport, List.mem_flatMap, List.mem_map,
    exists_exists_and_eq_and]

theorem reported_iff {messages : List Message} {entry : ComputeUnit × CuReport} :
    entry ∈ reportedUnits (resourcesReport (messages.foldl updateComputeResources ∅)) ↔
      (∃ hdr ∈ messages, hdr.unit = entry.1) ∧
        entry.2 = cuReport (entry.1.cuId, workgroupsAt (messages.foldl updateComputeResources ∅) entry.1) := by
  have populated := populated_foldl messages
  have listed (unit : ComputeUnit) : (workgroupsAt (messages.foldl updateComputeResources ∅) unit).toList ≠ [] ↔
      ∃ hdr ∈ messages, hdr.unit = unit := by
    constructor
    · intro filled
      obtain ⟨wg, member⟩ := List.exists_mem_of_ne_nil _ filled
      obtain ⟨hdr, present, here, -⟩ := mem_workgroupsOn_iff.mp (mem_toList_workgroupsAt.mp member).1
      exact ⟨hdr, present, here⟩
    · rintro ⟨hdr, present, here⟩
      have member := mem_workgroupsOn_iff.mpr ⟨hdr, present, here, rfl⟩
      have stored : (hdr.workgroup, waveNumbers messages unit hdr.workgroup) ∈
          (workgroupsAt (messages.foldl updateComputeResources ∅) unit).toList :=
        mem_toList_workgroupsAt.mpr ⟨member, rfl⟩
      exact List.ne_nil_of_mem stored
  rw [mem_reportedUnits, ← listed]
  generalize messages.foldl updateComputeResources ∅ = resources at populated
  constructor
  · rintro ⟨⟨xcc, ses⟩, inResources, ⟨se, cus⟩, inSes, ⟨cu, wgs⟩, inCus, rfl⟩
    have filled := ((populated _ inResources).entries _ inSes).entries _ inCus
    rw [ExtTreeMap.mem_toList_iff_getElem?_eq_some] at inResources inSes inCus
    have found : workgroupsAt resources ⟨xcc, se, cu⟩ = wgs := by
      simp only [workgroupsAt, inResources, inSes, inCus, Option.getD_some]
    rw [found]
    exact ⟨filled.nonempty, rfl⟩
  · rintro ⟨filled, same⟩
    obtain ⟨⟨xcc, se, cu⟩, report⟩ := entry
    simp only [workgroupsAt] at filled same
    cases inResources : resources[xcc]? with
    | none => simp [inResources] at filled
    | some ses =>
      cases inSes : ses[se]? with
      | none => simp [inResources, inSes] at filled
      | some cus =>
        cases inCus : cus[cu]? with
        | none => simp [inResources, inSes, inCus] at filled
        | some wgs =>
          simp only [inResources, inSes, inCus, Option.getD_some] at same
          refine ⟨(xcc, ses), ?_, (se, cus), ?_, (cu, wgs), ?_, by rw [same]⟩
          · exact ExtTreeMap.mem_toList_iff_getElem?_eq_some.mpr inResources
          · exact ExtTreeMap.mem_toList_iff_getElem?_eq_some.mpr inSes
          · exact ExtTreeMap.mem_toList_iff_getElem?_eq_some.mpr inCus

theorem reportedUnits_once (resources : ComputeResources) :
    ((reportedUnits (resourcesReport resources)).map Prod.fst).Nodup := by
  have units : (reportedUnits (resourcesReport resources)).map Prod.fst =
      resources.toList.flatMap fun xccs => xccs.2.toList.flatMap fun ses => ses.2.toList.flatMap fun cus =>
        [(⟨xccs.1, ses.1, cus.1⟩ : ComputeUnit)] := by
    simp only [reportedUnits, resourcesReport, xccReport, seReport, List.flatMap_map, List.map_flatMap, List.map_map,
      ← List.map_eq_flatMap]
    rfl
  rw [units]
  refine nodup_flatMap_toList ComputeUnit.xccId (fun xccs _ => ?_) fun xccs _ unit member => ?_
  · refine nodup_flatMap_toList ComputeUnit.seId (fun ses _ => ?_) fun ses _ unit member => ?_
    · exact nodup_flatMap_toList ComputeUnit.cuId (fun cus _ => List.nodup_singleton _) (by simp)
    · obtain ⟨cus, -, same⟩ := List.mem_flatMap.mp member
      rw [List.mem_singleton.mp same]
  · obtain ⟨ses, -, later⟩ := List.mem_flatMap.mp member
    obtain ⟨cus, -, same⟩ := List.mem_flatMap.mp later
    rw [List.mem_singleton.mp same]

theorem covers_foldl (messages : List Message) :
    Covers messages (resourcesReport (messages.foldl updateComputeResources ∅)) := by
  refine ⟨reportedUnits_once _, fun unit => ?_, fun entry member => ?_, fun entry member => ?_⟩
  · rw [List.mem_map]
    constructor
    · rintro ⟨entry, member, rfl⟩
      exact (reported_iff.mp member).1
    · intro appeared
      let report := cuReport (unit.cuId, workgroupsAt (messages.foldl updateComputeResources ∅) unit)
      exact ⟨(unit, report), reported_iff.mpr ⟨appeared, rfl⟩, rfl⟩
  · have keys : entry.2.workgroups.Perm
        ((workgroupsAt (messages.foldl updateComputeResources ∅) entry.1).toList.map Prod.fst) := by
      rw [(reported_iff.mp member).2]
      exact (workgroupEntries_perm _).map Prod.fst
    refine ⟨keys.nodup_iff.mpr ?_, ?_⟩
    · rw [ExtTreeMap.map_fst_toList_eq_keys]
      exact ExtTreeMap.nodup_keys
    · rw [List.toFinset_eq_of_perm _ _ keys, toFinset_keys]
  · rw [(reported_iff.mp member).2, cuReport]
    simp only
    rw [((workgroupEntries_perm _).map _).sum_eq, sum_waves, size_workgroupsAt]

/-! ### Rendered histories -/

/-- Without resources, the bracket of the list is taken back instead of a comma. -/
theorem empty_denotes_nothing {analysis : Analysis} (empty : analysis.computeResources = ∅) {text : Text}
    (rendered : analysis.renderComputeResources = some (text ++ ['\n'])) (value : Value) : ¬value.Denotes text := by
  let front : Text := '\x7b' :: (keyText "kernel".toList ++ ' ' :: (Text.delimited '"' analysis.strKernel ++ ',' :: ' ' ::
    (keyText "dispatch".toList ++ ' ' :: (Nat.toDigits 10 analysis.dispatchId.toNat ++ ',' :: ' ' ::
      Text.delimited '"' "resources".toList))))
  have head : resourcesHead analysis.strKernel analysis.dispatchId = (front ++ [':']) ++ ['['] := by
    simp [resourcesHead, keyText, front]
  rw [renderComputeResources_empty empty, head, List.dropLast_concat] at rendered
  have same : text ++ ['\n'] = (front ++ [':', ']', '\x7d']) ++ ['\n'] := by
    rw [← Option.some.inj rendered]
    simp
  rw [List.append_cancel_right same]
  exact Value.not_denotes_colon_brackets value front

namespace Analysis

/-- The rendered text reports the messages exactly when there are any, and a `kernelDB` to handle them with. -/
theorem rendersReport_iff {env : Env} {start after : Analysis} {messages : List Message}
    (fresh : start.computeResources = ∅) (ran : run (step env) start messages = some after)
    (plain : Plain after.strKernel) : RendersReport messages after ↔ env.hasKdb = true ∧ messages ≠ [] := by
  constructor
  · rintro ⟨text, report, rendered, denotes, -⟩
    by_contra neither
    have empty : after.computeResources = ∅ := by
      rcases not_and_or.mp neither with noKdb | none
      · rw [run_withoutKdb (Bool.eq_false_iff.mpr noKdb)] at ran
        rw [← Option.some.inj ran, fresh]
      · rw [not_not.mp none] at ran
        rw [← Option.some.inj ran, fresh]
    exact empty_denotes_nothing empty rendered _ denotes
  · rintro ⟨kdb, handled⟩
    have resources : after.computeResources = messages.foldl updateComputeResources ∅ := by
      rw [run_resources kdb ran, fresh]
    have populated : Populated after.computeResources := by
      rw [resources]
      exact populated_foldl messages
    have filled : after.computeResources.toList ≠ [] := by
      rw [resources]
      exact nonempty_foldl handled
    refine ⟨_, resourcesReport after.computeResources, ?_, document_denotes plain after.dispatchId _, ?_⟩
    · rw [renderComputeResources_eq populated filled]
      simp
    · rw [resources]
      exact covers_foldl messages

theorem rendersReport_sample : ∃ after, run (step Sample.env) {} [Sample.start 0 0 1, Sample.start 1 0 2] = some after ∧
    RendersReport [Sample.start 0 0 1, Sample.start 1 0 2] after := by
  obtain ⟨after, ran, named⟩ : ∃ after, run (step Sample.env) {} [Sample.start 0 0 1, Sample.start 1 0 2] = some after ∧
      after.strKernel = [] := ⟨_, rfl, rfl⟩
  refine ⟨after, ran, (rendersReport_iff rfl ran ?_).mpr ⟨rfl, by simp⟩⟩
  rw [named]
  exact List.forall_mem_nil _

/-- Before any message, what is rendered is no JSON. -/
theorem rendersReport_nothing : ¬∀ (env : Env) (start after : Analysis) (messages : List Message),
    start.computeResources = ∅ → run (step env) start messages = some after → Plain after.strKernel →
      RendersReport messages after := by
  intro claim
  obtain ⟨text, report, rendered, denotes, -⟩ := claim Sample.env { strKernel := ['k'] } _ [] rfl rfl (by decide)
  exact empty_denotes_nothing rfl rendered _ denotes

end Analysis

end Omniprobe.BasicBlocks
