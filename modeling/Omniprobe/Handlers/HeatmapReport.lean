import Omniprobe.Handlers.Counters
import Omniprobe.Handlers.JsonHelper

/-!
# The report of the heat map

`memory_heatmap_t::report` lists the pages with the number of accesses to each, in ascending order, as text or as
a line of JSON.
-/

namespace Omniprobe.Handlers
open Lib Json Std

/-! ### The report -/

/-- The members of `memory_heatmap_t` that only the report reads. -/
structure HeatmapLog where
  kernel : Text
  dispatchId : UInt64
  format : Text

namespace Heatmap

def lastAddress (heatmap : Heatmap) (start : UInt64) : UInt64 := start + heatmap.pageSize - 1

def reportText (log : HeatmapLog) (heatmap : Heatmap) : Text :=
  let pages := heatmap.pageCounts.toList
  (if pages = [] then []
    else "memory heatmap report(".toList ++ log.kernel ++ ['['] ++ Nat.toDigits 10 log.dispatchId.toNat ++
      "])\n\tpage size = ".toList ++ Nat.toDigits 10 heatmap.pageSize.toNat ++ ['\n']) ++
    pages.flatMap fun (start, count) => "\tpage[0x".toList ++ Nat.toDigits 16 start.toNat ++ [':'] ++
      Nat.toDigits 16 (heatmap.lastAddress start).toNat ++ "] ".toList ++ Nat.toDigits 10 count.toNat ++ " accesses\n".toList

def pageJSON (heatmap : Heatmap) (page : UInt64 × UInt64) : Text :=
  let thisRange := JSONHelper.addField {} "start_address".toList (.number page.1.toNat)
  let thisRange := thisRange.addField "end_address".toList (.number (heatmap.lastAddress page.1).toNat)
  let thisRange := thisRange.addField "accesses".toList (.number page.2.toNat)
  thisRange.getJSON

def report (log : HeatmapLog) (heatmap : Heatmap) : Option Text :=
  if log.format ≠ "json".toList then some (heatmap.reportText log)
  else if heatmap.pageCounts.toList = [] then some []
  else
    let json := JSONHelper.addField {} "kernel".toList (.text log.kernel) true
    let json := json.addField "dispatch_id".toList (.number log.dispatchId.toNat)
    let pages := heatmap.pageCounts.toList.map fun page => Item.text (heatmap.pageJSON page)
    (json.addVector "pages".toList pages).map fun json => json.getJSON ++ ['\n']

/-! ### What is counted -/

/-- The addresses that messages carry to the heat map. -/
def addresses (isAddress : UInt32 → Bool) (messages : List Memory.Message) : List UInt64 :=
  messages.flatMap fun message => if isAddress message.header.userType then message.dataItems else []

def onPage (pageSize start address : UInt64) : Bool := address / pageSize * pageSize = start

def within (pageSize start address : UInt64) : Bool :=
  start.toNat ≤ address.toNat ∧ address.toNat < start.toNat + pageSize.toNat

/-- Each page that an address is within, once and in ascending order, with the number of the addresses within it. -/
structure Histogram (pageSize : UInt64) (addresses : List UInt64) (pages : List (UInt64 × UInt64)) : Prop where
  ascending : pages.Pairwise fun first second => first.1 < second.1
  mem_iff : ∀ start count, (start, count) ∈ pages ↔ pageSize.toNat ∣ start.toNat ∧
    0 < addresses.countP (within pageSize start) ∧ count = .ofNat (addresses.countP (within pageSize start))

theorem onPage_iff {pageSize : UInt64} (some : pageSize ≠ 0) (start address : UInt64) :
    onPage pageSize start address = true ↔ pageSize.toNat ∣ start.toNat ∧ within pageSize start address = true := by
  have positive : 0 < pageSize.toNat := by
    rw [Nat.pos_iff_ne_zero, ← UInt64.toNat_zero, ne_eq, UInt64.toNat_inj]
    exact some
  have below := Nat.div_mul_le_self address.toNat pageSize.toNat
  have bounded := address.toNat_lt
  rw [onPage, within, decide_eq_true_iff, decide_eq_true_iff, ← UInt64.toNat_inj, UInt64.toNat_mul, UInt64.toNat_div,
    Nat.mod_eq_of_lt (by omega)]
  constructor
  · intro same
    have inside := Nat.lt_div_mul_add positive (a := address.toNat)
    exact ⟨⟨_, by rw [← same, Nat.mul_comm]⟩, by omega, by omega⟩
  · rintro ⟨⟨page, whole⟩, atLeast, less⟩
    rw [Nat.mul_comm] at whole
    rw [whole] at atLeast less ⊢
    rw [Nat.div_eq_of_lt_le atLeast (by rw [Nat.succ_mul]; exact less)]

theorem foldl_addAddress_find (addresses : List UInt64) (heatmap : Heatmap) (start : UInt64) :
    (addresses.foldl addAddress heatmap).pageCounts[start]? =
      if addresses.countP (onPage heatmap.pageSize start) = 0 then heatmap.pageCounts[start]?
      else some (heatmap.pageCounts[start]?.getD 0 + .ofNat (addresses.countP (onPage heatmap.pageSize start))) := by
  induction addresses generalizing heatmap with
  | nil => rfl
  | cons address rest ih =>
    have size : (heatmap.addAddress address).pageSize = heatmap.pageSize := rfl
    rw [List.foldl_cons, ih, size, List.countP_cons, addAddress, find_upsert]
    by_cases here : onPage heatmap.pageSize start address = true
    · have page := of_decide_eq_true here
      rw [if_pos here, if_pos page, page, if_neg (Nat.succ_ne_zero _), Option.getD_some]
      split
      · rename_i none
        rw [none]
        rfl
      · rw [UInt64.ofNat_add, UInt64.add_assoc, UInt64.add_comm 1]
        rfl
    · have page : ¬address / heatmap.pageSize * heatmap.pageSize = start := fun same => here (decide_eq_true same)
      rw [if_neg here, if_neg page]
      rfl

theorem run_eq_foldl {isAddress : UInt32 → Bool} {messages : List Memory.Message} {heatmap after : Heatmap}
    (ran : run (step isAddress) heatmap messages = some after) :
    after = (addresses isAddress messages).foldl addAddress heatmap ∧
      (heatmap.pageSize = 0 → addresses isAddress messages = []) := by
  induction messages generalizing heatmap with
  | nil =>
    obtain rfl := Option.some.inj ran
    exact ⟨rfl, fun _ => rfl⟩
  | cons message rest ih =>
    obtain ⟨next, taken, ran⟩ := Option.bind_eq_some_iff.mp ran
    obtain ⟨later, none⟩ := ih ran
    have size := step_pageSize taken
    rw [addresses, List.flatMap_cons, List.foldl_append, later]
    unfold step handle at taken
    split at taken
    · split at taken
      · cases taken
      · rename_i isAddress divisible
        obtain rfl := Option.some.inj taken
        rw [if_pos isAddress]
        refine ⟨rfl, fun zero => List.append_eq_nil_iff.mpr ⟨?_, none (size.trans zero)⟩⟩
        by_contra some
        exact divisible ⟨zero, some⟩
    · rename_i other
      obtain rfl := Option.some.inj taken
      rw [if_neg other]
      exact ⟨rfl, fun zero => none zero⟩

theorem run_histogram {isAddress : UInt32 → Bool} {messages : List Memory.Message} {pageSize : UInt64} {heatmap : Heatmap}
    (ran : run (step isAddress) { pageSize } messages = some heatmap) :
    Histogram pageSize (addresses isAddress messages) heatmap.pageCounts.toList := by
  obtain ⟨rfl, empty⟩ := run_eq_foldl ran
  refine ⟨?_, fun start count => ?_⟩
  · refine ExtTreeMap.ordered_keys_toList.imp fun {first second} less => ?_
    exact compareOfLessAndEq_eq_lt.mp less
  rw [ExtTreeMap.mem_toList_iff_getElem?_eq_some, foldl_addAddress_find]
  dsimp only
  rw [ExtTreeMap.getElem?_empty, Option.getD_none, UInt64.zero_add]
  by_cases zero : pageSize = 0
  · rw [empty zero]
    simp
  have same : pageSize.toNat ∣ start.toNat → onPage pageSize start = within pageSize start := fun aligned =>
    funext fun address => Bool.eq_iff_iff.mpr ((onPage_iff zero start address).trans (and_iff_right aligned))
  by_cases aligned : pageSize.toNat ∣ start.toNat
  · rw [same aligned]
    split
    · rename_i none
      simp [none]
    · rename_i some
      rw [Option.some.injEq, eq_comm]
      exact ⟨fun total => ⟨aligned, Nat.pos_of_ne_zero some, total⟩, fun facts => facts.2.2⟩
  · have none : (addresses isAddress messages).countP (onPage pageSize start) = 0 := by
      rw [List.countP_eq_zero]
      exact fun address _ here => aligned ((onPage_iff zero start address).mp here).1
    rw [if_pos none]
    exact ⟨nofun, fun facts => (aligned facts.1).elim⟩

theorem Histogram.eq_nil_iff {pageSize : UInt64} {addresses : List UInt64} {pages : List (UInt64 × UInt64)}
    (histogram : Histogram pageSize addresses pages) (some : pageSize ≠ 0) : pages = [] ↔ addresses = [] := by
  constructor
  · rintro rfl
    by_contra nonempty
    obtain ⟨address, rest, rfl⟩ := List.exists_cons_of_ne_nil nonempty
    have here : onPage pageSize (address / pageSize * pageSize) address = true := decide_eq_true rfl
    obtain ⟨aligned, inside⟩ := (onPage_iff some _ address).mp here
    have counted := (histogram.mem_iff _ _).mpr ⟨aligned, List.countP_pos_iff.mpr ⟨address, List.mem_cons_self, inside⟩, rfl⟩
    cases counted
  · rintro rfl
    refine List.eq_nil_iff_forall_not_mem.mpr fun page member => ?_
    have counted := ((histogram.mem_iff page.1 page.2).mp member).2.1
    exact Nat.lt_irrefl _ counted

/-! ### What the report denotes -/

def pageValue (pageSize : UInt64) (page : UInt64 × UInt64) : Value :=
  .object [("start_address".toList, .number page.1.toNat), ("end_address".toList, .number (page.1 + pageSize - 1).toNat),
    ("accesses".toList, .number page.2.toNat)]

def reportValue (log : HeatmapLog) (pageSize : UInt64) (pages : List (UInt64 × UInt64)) : Value :=
  .object [("kernel".toList, .string log.kernel), ("dispatch_id".toList, .number log.dispatchId.toNat),
    ("pages".toList, .array (pages.map (pageValue pageSize)))]

theorem pageJSON_eq (heatmap : Heatmap) (page : UInt64 × UInt64) :
    heatmap.pageJSON page = (pageValue heatmap.pageSize page).compact := by
  have holds := JSONHelper.holds_new.numbers
    [("start_address".toList, page.1.toNat), ("end_address".toList, (heatmap.lastAddress page.1).toNat),
      ("accesses".toList, page.2.toNat)]
  exact holds.getJSON

theorem report_json_eq {log : HeatmapLog} (json : log.format = "json".toList) {heatmap : Heatmap}
    (some : heatmap.pageCounts.toList ≠ []) :
    heatmap.report log =
      Option.some ((reportValue log heatmap.pageSize heatmap.pageCounts.toList).compact ++ ['\n']) := by
  have holds := (JSONHelper.holds_new.string "kernel".toList log.kernel).number "dispatch_id".toList log.dispatchId.toNat
  have shown : (heatmap.pageCounts.toList.map fun page => Item.text (heatmap.pageJSON page)).map (Item.shown false) =
      Value.compactItems (heatmap.pageCounts.toList.map (pageValue heatmap.pageSize)) := by
    rw [List.map_map, Value.compactItems_map]
    exact List.map_congr_left fun page _ => pageJSON_eq heatmap page
  have nonempty : heatmap.pageCounts.toList.map (pageValue heatmap.pageSize) ≠ [] := by simpa using some
  obtain ⟨after, added, holds⟩ := holds.vector "pages".toList shown nonempty
  rw [report, if_neg (not_not.mpr json), if_neg some]
  dsimp only
  rw [added, Option.map_some, holds.getJSON]
  rfl

theorem strings_reportValue_iff {P : Text → Prop} (simple : ∀ {s}, Simple s → P s) (log : HeatmapLog) (pageSize : UInt64)
    (pages : List (UInt64 × UInt64)) :
    (∀ s ∈ (reportValue log pageSize pages).strings, P s) ↔ P log.kernel := by
  have inside : ∀ s ∈ Value.stringsItems (pages.map (pageValue pageSize)), Simple s := by
    induction pages with
    | nil => exact List.forall_mem_nil _
    | cons page rest ih =>
      refine List.forall_mem_append.mpr ⟨?_, ih⟩
      simp only [pageValue, Value.strings, Value.stringsMembers, List.nil_append]
      decide
  have names : ∀ s ∈ ["kernel".toList, "dispatch_id".toList, "pages".toList], Simple s := by decide
  simp only [List.forall_mem_cons] at names
  obtain ⟨kernelName, dispatchName, pagesName, -⟩ := names
  simp only [reportValue, Value.strings, Value.stringsMembers, List.nil_append, List.append_nil, List.forall_mem_cons,
    List.singleton_append]
  refine ⟨fun all => all.2.1, fun kernel => ⟨simple kernelName, kernel, simple dispatchName, simple pagesName, ?_⟩⟩
  exact fun s member => simple (inside s member)

/-- A report in JSON lists the pages of the received addresses with their accesses, if there are any. -/
theorem report_denotes {isAddress : UInt32 → Bool} {messages : List Memory.Message} {pageSize : UInt64} {heatmap : Heatmap}
    (ran : run (step isAddress) { pageSize } messages = some heatmap) (log : HeatmapLog) (json : log.format = "json".toList) :
    ∃ pages, Histogram pageSize (addresses isAddress messages) pages ∧
      (addresses isAddress messages = [] → heatmap.report log = some []) ∧
      (addresses isAddress messages ≠ [] → ∃ line, heatmap.report log = some (line ++ ['\n']) ∧
        ((reportValue log pageSize pages).Denotes line ↔ Plain log.kernel)) := by
  have histogram := run_histogram ran
  have size : heatmap.pageSize = pageSize := run_pageSize ran
  refine ⟨_, histogram, fun none => ?_, fun received => ?_⟩
  · have empty : heatmap.pageCounts.toList = [] := by
      obtain ⟨rfl, -⟩ := run_eq_foldl ran
      rw [none]
      exact ExtTreeMap.toList_eq_nil_iff.mpr rfl
    rw [report, if_neg (not_not.mpr json), if_pos empty]
  · have positive : pageSize ≠ 0 := fun zero => received ((run_eq_foldl ran).2 zero)
    have nonempty : heatmap.pageCounts.toList ≠ [] := fun none => received ((histogram.eq_nil_iff positive).mp none)
    refine ⟨_, report_json_eq json nonempty, ?_⟩
    rw [size, Value.denotes_compact_iff, strings_reportValue_iff Simple.plain]

/-- As JSON has to be, the report of some pages is UTF-8, if the name of the kernel is, and only then. -/
theorem report_utf8_iff {log : HeatmapLog} (json : log.format = "json".toList) {heatmap : Heatmap}
    (some : heatmap.pageCounts.toList ≠ []) :
    ∃ text, heatmap.report log = Option.some text ∧ (Utf8 text ↔ Utf8 log.kernel) := by
  refine ⟨_, report_json_eq json some, ?_⟩
  rw [utf8_concat_iff (by decide), Value.utf8_compact_iff, strings_reportValue_iff Simple.utf8]

namespace Sample

def isAddress (userType : UInt32) : Bool := userType = 0

def messages : List Memory.Message :=
  [⟨⟨0, 0, 3, 0, 0, 0, 0⟩, [8192, 4100]⟩, ⟨⟨2, 0, 3, 0, 0, 0, 0⟩, [0]⟩, ⟨⟨0, 0, 1, 0, 0, 0, 0⟩, [8200]⟩]

def log : HeatmapLog := ⟨"copy(int*)".toList, 3, "json".toList⟩

end Sample

theorem report_denotes_sample :
    ∃ heatmap line, run (step Sample.isAddress) { pageSize := 4096 } Sample.messages = some heatmap ∧
      heatmap.report Sample.log = some (line ++ ['\n']) ∧
      ∃ pages, (reportValue Sample.log 4096 pages).Denotes line ∧ (8192, 2) ∈ pages := by
  obtain ⟨heatmap, ran⟩ : ∃ heatmap, run (step Sample.isAddress) { pageSize := 4096 } Sample.messages = some heatmap := ⟨_, rfl⟩
  obtain ⟨pages, histogram, -, listed⟩ := report_denotes ran Sample.log rfl
  obtain ⟨line, written, denotes⟩ := listed (by decide)
  refine ⟨heatmap, line, ran, written, pages, denotes.mpr (by decide), (histogram.mem_iff _ _).mpr ?_⟩
  decide

end Heatmap

end Omniprobe.Handlers
