import Omniprobe.BasicBlocks.Clear
import Omniprobe.Lib.JsonCompact

/-!
# The compute resources as JSON

`renderComputeResources` writes each entry with a comma behind it and takes the last comma of a list
back. That gives JSON as long as no list is empty.
-/

namespace Omniprobe.BasicBlocks
open Lib Lib.Json Std

/-! ### The text -/

/-- A workgroup id in memory, little endian. -/
def WorkgroupId.bytes (wg : WorkgroupId) : List UInt8 :=
  wg.fields.flatMap fun (field : UInt16) => [field.toUInt8, (field >>> 8).toUInt8]

/-- The entries of a `std::map` whose keys are compared by `memcmp`, in order. -/
def workgroupEntries (wgs : Map WorkgroupId (Finset UInt16)) : List (WorkgroupId × Finset UInt16) :=
  wgs.toList.mergeSort fun first second => (compare first.1.bytes second.1.bytes).isLE

def WorkgroupId.text (wg : WorkgroupId) : Text :=
  '(' :: (Nat.toDigits 10 wg.x.toNat ++ ',' :: (Nat.toDigits 10 wg.y.toNat ++ ',' :: (Nat.toDigits 10 wg.z.toNat ++ [')'])))

/-- `pop_back` on a copy of the stream's text, which the stream goes on with. -/
def popBack (ss : Text) : Text := ss.dropLast

/-- A key in quotes, with its colon. -/
def keyText (key : Text) : Text := Text.delimited '"' key ++ [':']

def numbered (name : String) (number : UInt16) : Text := name.toList ++ Nat.toDigits 10 number.toNat

/-- The beginning of an object with a list under a numbered key. -/
def opening (name : String) (number : UInt16) : Text := '\x7b' :: (keyText (numbered name number) ++ [' ', '['])

/-- One round of the loop over the compute units; `none` where the division is by zero. -/
def renderCu (ss : Text) (cus : UInt16 × Map WorkgroupId (Finset UInt16)) : Option Text :=
  let wgs := workgroupEntries cus.2
  let ss := wgs.foldl (fun ss wg => ss ++ (Text.delimited '"' wg.1.text ++ [','])) (ss ++ opening "cu_" cus.1)
  let totalWaves := (wgs.map fun wg => wg.2.card).sum
  let ss := popBack ss ++ [']', ',']
  if cus.2.size = 0 then none
  else
    let avgWaveCount := Nat.toDigits 10 (totalWaves / cus.2.size)
    some (ss ++ (keyText "avg_wave_count".toList ++ ' ' :: (avgWaveCount ++ ['\x7d', ','])))

/-- One round of a loop around it: the entries of the map, and the comma behind the last one taken back. -/
def renderGroup {V : Type} (name : String) (render : Text → UInt16 × V → Option Text) (ss : Text)
    (group : UInt16 × Map UInt16 V) : Option Text := do
  let ss ← group.2.toList.foldlM render (ss ++ opening name group.1)
  return popBack ss ++ [']', '\x7d', ',']

def renderSe : Text → UInt16 × Map UInt16 (Map WorkgroupId (Finset UInt16)) → Option Text := renderGroup "se_" renderCu

def renderXcc : Text → UInt16 × Map UInt16 (Map UInt16 (Map WorkgroupId (Finset UInt16))) → Option Text :=
  renderGroup "xcc_" renderSe

/-- The text up to the resources. -/
def resourcesHead (strKernel : Text) (dispatchId : UInt64) : Text :=
  '\x7b' :: (keyText "kernel".toList ++ ' ' :: (Text.delimited '"' strKernel ++ ',' :: ' ' ::
    (keyText "dispatch".toList ++ ' ' :: (Nat.toDigits 10 dispatchId.toNat ++ ',' :: ' ' ::
      (keyText "resources".toList ++ ['['])))))

def Analysis.renderComputeResources (analysis : Analysis) : Option Text := do
  let ss ← analysis.computeResources.toList.foldlM renderXcc (resourcesHead analysis.strKernel analysis.dispatchId)
  return popBack ss ++ [']', '\x7d', '\n']

/-! ### What the text says -/

structure CuReport where
  cuId : UInt16
  workgroups : List WorkgroupId
  avgWaveCount : Nat

abbrev SeReport := UInt16 × List CuReport

abbrev XccReport := UInt16 × List SeReport

def CuReport.value (cu : CuReport) : Value :=
  .object [(numbered "cu_" cu.cuId, .array (cu.workgroups.map fun wg => .string wg.text)),
    ("avg_wave_count".toList, .number cu.avgWaveCount)]

def SeReport.value (se : SeReport) : Value := .object [(numbered "se_" se.1, .array (se.2.map CuReport.value))]

def XccReport.value (xcc : XccReport) : Value := .object [(numbered "xcc_" xcc.1, .array (xcc.2.map SeReport.value))]

def document (strKernel : Text) (dispatchId : UInt64) (report : List XccReport) : Value :=
  .object [("kernel".toList, .string strKernel), ("dispatch".toList, .number dispatchId.toNat),
    ("resources".toList, .array (report.map XccReport.value))]

/-- The compute units of a report with what it says of each. -/
def reportedUnits (report : List XccReport) : List (ComputeUnit × CuReport) :=
  report.flatMap fun xcc => xcc.2.flatMap fun se => se.2.map fun cu => (⟨xcc.1, se.1, cu.cuId⟩, cu)

def workgroupsOn (messages : List Message) (unit : ComputeUnit) : Finset WorkgroupId :=
  ((messages.filter (·.unit = unit)).map Message.workgroup).toFinset

def wavesOn (messages : List Message) (unit : ComputeUnit) : Finset (WorkgroupId × UInt8) :=
  ((messages.filter (·.unit = unit)).map fun hdr => (hdr.workgroup, hdr.waveNum)).toFinset

/-- Each compute unit of the messages is reported once, with its workgroups and its average. -/
structure Covers (messages : List Message) (report : List XccReport) : Prop where
  once : ((reportedUnits report).map Prod.fst).Nodup
  appeared : ∀ unit, unit ∈ (reportedUnits report).map Prod.fst ↔ ∃ hdr ∈ messages, hdr.unit = unit
  workgroups : ∀ entry ∈ reportedUnits report,
    entry.2.workgroups.Nodup ∧ entry.2.workgroups.toFinset = workgroupsOn messages entry.1
  average : ∀ entry ∈ reportedUnits report,
    entry.2.avgWaveCount = (wavesOn messages entry.1).card / (workgroupsOn messages entry.1).card

/-- The text is one object and a line end, and reports the compute units of the messages. -/
def RendersReport (messages : List Message) (analysis : Analysis) : Prop :=
  ∃ text report, analysis.renderComputeResources = some (text ++ ['\n']) ∧
    (document analysis.strKernel analysis.dispatchId report).Denotes text ∧ Covers messages report

/-! ### From the maps to the text -/

section
variable {α : Type}

theorem foldlM_append {render : Text → α → Option Text} (text : α → Text) {list : List α}
    (each : ∀ x ∈ list, ∀ ss, render ss x = some (ss ++ (text x ++ [',']))) (ss : Text) :
    list.foldlM render ss = some (ss ++ list.flatMap fun x => text x ++ [',']) := by
  induction list generalizing ss with
  | nil => rw [List.foldlM_nil, List.flatMap_nil, List.append_nil]; rfl
  | cons x rest ih =>
    obtain ⟨first, later⟩ := List.forall_mem_cons.mp each
    rw [List.foldlM_cons, first, Option.bind_eq_bind, Option.bind_some, ih later, List.flatMap_cons]
    simp only [List.append_assoc]

theorem popBack_flatMap {list : List α} (filled : list ≠ []) (text : α → Text) (ss : Text) :
    popBack (ss ++ list.flatMap fun x => text x ++ [',']) = ss ++ [','].intercalate (list.map text) := by
  have nonempty : list.map text ≠ [] := by simpa using filled
  have dropped := dropLast_flatMap_concat ',' nonempty ss
  rwa [List.flatMap_map] at dropped

end

/-- An object with a list under a numbered key, and perhaps more behind it. -/
def groupText (name : String) (number : UInt16) (items : List Text) (more : Text) : Text :=
  opening name number ++ ([','].intercalate items ++ ']' :: (more ++ ['\x7d']))

theorem renderGroup_eq {V : Type} (name : String) {render : Text → UInt16 × V → Option Text} (text : UInt16 × V → Text)
    {group : UInt16 × Map UInt16 V} (filled : group.2.toList ≠ [])
    (each : ∀ x ∈ group.2.toList, ∀ ss, render ss x = some (ss ++ (text x ++ [',']))) (ss : Text) :
    renderGroup name render ss group =
      some (ss ++ (groupText name group.1 (group.2.toList.map text) [] ++ [','])) := by
  rw [renderGroup, foldlM_append text each, Option.bind_eq_bind, Option.bind_some, popBack_flatMap filled, groupText]
  simp

/-- What is behind the list of workgroups of a compute unit. -/
def averageText (avgWaveCount : Nat) : Text :=
  keyText "avg_wave_count".toList ++ ' ' :: Nat.toDigits 10 avgWaveCount

def CuReport.text (cu : CuReport) : Text :=
  groupText "cu_" cu.cuId (cu.workgroups.map fun wg => Text.delimited '"' wg.text) (',' :: averageText cu.avgWaveCount)

def cuReport (cus : UInt16 × Map WorkgroupId (Finset UInt16)) : CuReport where
  cuId := cus.1
  workgroups := (workgroupEntries cus.2).map Prod.fst
  avgWaveCount := ((workgroupEntries cus.2).map fun wg => wg.2.card).sum / cus.2.size

theorem workgroupEntries_perm (wgs : Map WorkgroupId (Finset UInt16)) : (workgroupEntries wgs).Perm wgs.toList :=
  List.mergeSort_perm _ _

theorem renderCu_eq {cus : UInt16 × Map WorkgroupId (Finset UInt16)} (filled : cus.2.toList ≠ []) (ss : Text) :
    renderCu ss cus = some (ss ++ ((cuReport cus).text ++ [','])) := by
  have listed : workgroupEntries cus.2 ≠ [] := fun none =>
    filled ((none ▸ workgroupEntries_perm cus.2).nil_eq.symm)
  have size : cus.2.size ≠ 0 := by
    rw [← ExtTreeMap.length_toList]
    exact fun none => filled (List.length_eq_zero_iff.mp none)
  unfold renderCu
  simp only
  rw [if_neg size, List.foldl_append_eq_append, ← List.flatMap_def, popBack_flatMap listed, CuReport.text, groupText,
    averageText]
  simp [cuReport, Function.comp_def]

def SeReport.text (se : SeReport) : Text := groupText "se_" se.1 (se.2.map CuReport.text) []

def XccReport.text (xcc : XccReport) : Text := groupText "xcc_" xcc.1 (xcc.2.map SeReport.text) []

def seReport (ses : UInt16 × Map UInt16 (Map WorkgroupId (Finset UInt16))) : SeReport :=
  (ses.1, ses.2.toList.map cuReport)

def xccReport (xccs : UInt16 × Map UInt16 (Map UInt16 (Map WorkgroupId (Finset UInt16)))) : XccReport :=
  (xccs.1, xccs.2.toList.map seReport)

def resourcesReport (resources : ComputeResources) : List XccReport := resources.toList.map xccReport

/-! ### No map is empty -/

section
variable {K V : Type} [Ord K] [TransOrd K] [LawfulEqOrd K]

/-- A map with entries, all of which satisfy the predicate. -/
structure Filled (P : V → Prop) (m : Map K V) : Prop where
  nonempty : m.toList ≠ []
  entries : ∀ entry ∈ m.toList, P entry.2

theorem filled_upsert [DecidableEq K] {P : V → Prop} {m : Map K V} {k : K} {f : Option V → V}
    (entries : ∀ entry ∈ m.toList, P entry.2) (changed : P (f m[k]?)) : Filled P (upsert m k f) := by
  refine ⟨?_, fun entry member => ?_⟩
  · have member : (k, f m[k]?) ∈ (upsert m k f).toList := by
      rw [ExtTreeMap.mem_toList_iff_getElem?_eq_some, find_upsert, if_pos rfl]
    exact List.ne_nil_of_mem member
  · obtain ⟨key, value⟩ := entry
    rw [ExtTreeMap.mem_toList_iff_getElem?_eq_some, find_upsert] at member
    split at member
    · obtain rfl := Option.some.inj member
      exact changed
    · exact entries (key, value) (ExtTreeMap.mem_toList_iff_getElem?_eq_some.mpr member)

theorem entries_getD {A : Type} [Ord A] [TransOrd A] [LawfulEqOrd A] {P : V → Prop} {m : Map A (Map K V)}
    (each : ∀ entry ∈ m.toList, Filled P entry.2) (a : A) : ∀ entry ∈ (m[a]?.getD ∅).toList, P entry.2 := by
  cases found : m[a]? with
  | none => simp
  | some inner => exact (each (a, inner) (ExtTreeMap.mem_toList_iff_getElem?_eq_some.mpr found)).entries

end

/-- No map of the resources is empty, and no set of waves. -/
def Populated (resources : ComputeResources) : Prop :=
  ∀ xccs ∈ resources.toList, Filled (Filled (Filled Finset.Nonempty)) xccs.2

theorem populated_update {resources : ComputeResources} (populated : Populated resources) (hdr : Message) :
    Filled (Filled (Filled (Filled Finset.Nonempty))) (updateComputeResources resources hdr) := by
  have ses := entries_getD populated hdr.xccId
  have cus := entries_getD ses hdr.seId
  have wgs := entries_getD cus hdr.cuId
  exact filled_upsert populated (filled_upsert ses (filled_upsert cus (filled_upsert wgs (Finset.insert_nonempty _ _))))

theorem populated_foldl (messages : List Message) : Populated (messages.foldl updateComputeResources ∅) := by
  induction messages using List.reverseRecOn with
  | nil => simp [Populated]
  | append_singleton messages hdr ih =>
    rw [List.foldl_concat]
    exact (populated_update ih hdr).entries

theorem nonempty_foldl {messages : List Message} (handled : messages ≠ []) :
    (messages.foldl updateComputeResources ∅).toList ≠ [] := by
  obtain ⟨before, hdr, rfl⟩ := (List.eq_nil_or_concat' messages).resolve_left handled
  rw [List.foldl_concat]
  exact (populated_update (populated_foldl before) hdr).nonempty

theorem renderSe_eq {ses : UInt16 × Map UInt16 (Map WorkgroupId (Finset UInt16))}
    (filled : Filled (Filled Finset.Nonempty) ses.2) (ss : Text) :
    renderSe ss ses = some (ss ++ (SeReport.text (seReport ses) ++ [','])) := by
  have each := renderGroup_eq "se_" (fun cus => (cuReport cus).text) filled.nonempty
    (fun cus member => renderCu_eq (filled.entries cus member).nonempty) ss
  rw [renderSe, each, SeReport.text, seReport, List.map_map]
  rfl

theorem renderXcc_eq {xccs : UInt16 × Map UInt16 (Map UInt16 (Map WorkgroupId (Finset UInt16)))}
    (filled : Filled (Filled (Filled Finset.Nonempty)) xccs.2) (ss : Text) :
    renderXcc ss xccs = some (ss ++ (XccReport.text (xccReport xccs) ++ [','])) := by
  have each := renderGroup_eq "xcc_" (fun ses => SeReport.text (seReport ses)) filled.nonempty
    (fun ses member => renderSe_eq (filled.entries ses member)) ss
  rw [renderXcc, each, XccReport.text, xccReport, List.map_map]
  rfl

theorem renderComputeResources_eq {analysis : Analysis} (populated : Populated analysis.computeResources)
    (filled : analysis.computeResources.toList ≠ []) :
    analysis.renderComputeResources = some (resourcesHead analysis.strKernel analysis.dispatchId ++
      ([','].intercalate ((resourcesReport analysis.computeResources).map XccReport.text) ++ [']', '\x7d', '\n'])) := by
  have each := foldlM_append (fun xccs => XccReport.text (xccReport xccs))
    (fun xccs member => renderXcc_eq (populated xccs member)) (resourcesHead analysis.strKernel analysis.dispatchId)
  rw [Analysis.renderComputeResources, each, Option.bind_eq_bind, Option.bind_some, popBack_flatMap filled,
    resourcesReport, List.map_map, List.append_assoc]
  rfl

theorem renderComputeResources_empty {analysis : Analysis} (empty : analysis.computeResources = ∅) :
    analysis.renderComputeResources =
      some ((resourcesHead analysis.strKernel analysis.dispatchId).dropLast ++ [']', '\x7d', '\n']) := by
  rw [Analysis.renderComputeResources, empty, ExtTreeMap.toList_eq_nil_iff.mpr rfl, List.foldlM_nil]
  rfl

/-! ### The text denotes the report -/

theorem WorkgroupId.plain_text (wg : WorkgroupId) : Plain wg.text := by
  have sign (c : Char) (visible : c ≠ '"' ∧ c ≠ '\\' ∧ ¬c.toNat < 0x20) {rest : Text} (plain : Plain rest) :
      Plain (c :: rest) := List.forall_mem_cons.mpr ⟨visible, plain⟩
  refine sign '(' (by decide) (plain_append_iff.mpr ⟨plain_toDigits _, ?_⟩)
  refine sign ',' (by decide) (plain_append_iff.mpr ⟨plain_toDigits _, ?_⟩)
  refine sign ',' (by decide) (plain_append_iff.mpr ⟨plain_toDigits _, ?_⟩)
  exact sign ')' (by decide) (List.forall_mem_nil _)

theorem blank_spaces : Spaces [' '] := List.forall_mem_singleton.mpr rfl

theorem denotesMembers_keyText {key text : Text} {value : Value} {rest : List (Text × Value)} {later : List Text}
    (plain : Plain key) (denotes : value.Denotes text) (members : Value.DenotesMembers rest later) :
    Value.DenotesMembers ((key, value) :: rest) ((keyText key ++ ' ' :: text) :: later) := by
  have member := Value.denotesMembers_cons plain blank_spaces denotes members
  rwa [keyText, List.append_assoc, List.singleton_append]

theorem denotes_group (name : String) (plain : Plain name.toList) (number : UInt16) {values : List Value}
    {texts : List Text} (items : Value.DenotesItems values texts) {members : List (Text × Value)} {later : List Text}
    (rest : Value.DenotesMembers members later) :
    (Value.object ((numbered name number, .array values) :: members)).Denotes
      (groupText name number texts (later.flatMap fun text => ',' :: text)) := by
  have key : Plain (numbered name number) := plain_append_iff.mpr ⟨plain, plain_toDigits _⟩
  have array : (Value.array values).Denotes ('[' :: ([','].intercalate texts ++ [']'])) :=
    ⟨texts, _, items, body_intercalate texts, rfl⟩
  refine ⟨_, _, denotesMembers_keyText key array rest, body_intercalate _, ?_⟩
  rw [intercalate_cons_eq, groupText, opening]
  simp

theorem CuReport.denotes (cu : CuReport) : cu.value.Denotes cu.text := by
  have items : Value.DenotesItems (cu.workgroups.map fun wg => .string wg.text)
      (cu.workgroups.map fun wg => Text.delimited '"' wg.text) :=
    Value.denotesItems_map fun wg _ => Value.denotes_string wg.plain_text
  have average : Value.DenotesMembers [("avg_wave_count".toList, .number cu.avgWaveCount)] [averageText cu.avgWaveCount] :=
    denotesMembers_keyText (by decide) rfl rfl
  have whole := denotes_group "cu_" (by decide) cu.cuId items average
  rwa [List.flatMap_singleton] at whole

theorem SeReport.denotes (se : SeReport) : (SeReport.value se).Denotes (SeReport.text se) :=
  denotes_group "se_" (by decide) se.1 (Value.denotesItems_map fun cu _ => cu.denotes) Value.denotesMembers_nil

theorem XccReport.denotes (xcc : XccReport) : (XccReport.value xcc).Denotes (XccReport.text xcc) :=
  denotes_group "xcc_" (by decide) xcc.1 (Value.denotesItems_map fun se _ => SeReport.denotes se) Value.denotesMembers_nil

theorem body_of_three (first second third : Text) :
    Body [first, second, third] (first ++ ',' :: ' ' :: (second ++ ',' :: ' ' :: third)) := by
  have none : ∀ c ∈ ([] : Text), Json.isSpace c = true := List.forall_mem_nil _
  have joined : Joined Json.isSpace ',' [first, second, third]
      (first ++ [] ++ ',' :: ([' '] ++ (second ++ [] ++ ',' :: ([' '] ++ third)))) :=
    .more first [] [' '] none blank_spaces (.more second [] [' '] none blank_spaces (.one third))
  refine .inr ⟨[], _, [], ?_, none, joined, none⟩
  simp

/-- The head, the resources and the closing brackets are one object. -/
theorem document_denotes {strKernel : Text} (plain : Plain strKernel) (dispatchId : UInt64) (report : List XccReport) :
    (document strKernel dispatchId report).Denotes
      (resourcesHead strKernel dispatchId ++ ([','].intercalate (report.map XccReport.text) ++ [']', '\x7d'])) := by
  have array : (Value.array (report.map XccReport.value)).Denotes
      ('[' :: ([','].intercalate (report.map XccReport.text) ++ [']'])) :=
    Value.denotes_array_map fun xcc _ => XccReport.denotes xcc
  have resourcesKey : Plain "resources".toList := by decide
  have dispatchKey : Plain "dispatch".toList := by decide
  have kernelKey : Plain "kernel".toList := by decide
  have number : (Value.number dispatchId.toNat).Denotes (Nat.toDigits 10 dispatchId.toNat) := rfl
  have resources := Value.denotesMembers_cons resourcesKey (List.forall_mem_nil _) array Value.denotesMembers_nil
  have dispatch := denotesMembers_keyText dispatchKey number resources
  have kernel := denotesMembers_keyText kernelKey (Value.denotes_string plain) dispatch
  refine ⟨_, _, kernel, body_of_three _ _ _, ?_⟩
  simp [resourcesHead, keyText]

end Omniprobe.BasicBlocks
