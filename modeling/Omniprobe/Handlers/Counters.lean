import Omniprobe.Lib.Run
import Omniprobe.Memory.Handler

/-!
# The heat map and the time interval handler

Two handlers that add up the data items of their messages: `memory_heatmap_t` counts addresses by
page, `time_interval_handler_t` keeps the extent, the sum and the number of the intervals.
-/

namespace Omniprobe.Handlers
open Lib

/-! ### The heat map -/

structure Heatmap where
  pageSize : UInt64
  pageCounts : Map UInt64 UInt64 := ∅

namespace Heatmap

def addAddress (heatmap : Heatmap) (address : UInt64) : Heatmap :=
  { heatmap with
    pageCounts := upsert heatmap.pageCounts (address / heatmap.pageSize * heatmap.pageSize)
      fun count => count.getD 0 + 1 }

/-- `none` where an address is divided by a page size of 0. -/
def handle (isAddress : UInt32 → Bool) (heatmap : Heatmap) (message : Memory.Message) : Option (Heatmap × Bool) :=
  if isAddress message.header.userType then
    if heatmap.pageSize = 0 ∧ message.dataItems ≠ [] then none
    else some (message.dataItems.foldl addAddress heatmap, true)
  else some (heatmap, false)

def clear (heatmap : Heatmap) : Heatmap := { heatmap with pageCounts := ∅ }

def step (isAddress : UInt32 → Bool) (heatmap : Heatmap) (message : Memory.Message) : Option Heatmap :=
  (heatmap.handle isAddress message).map Prod.fst

theorem foldl_addAddress_pageSize (addresses : List UInt64) (heatmap : Heatmap) :
    (addresses.foldl addAddress heatmap).pageSize = heatmap.pageSize := by
  induction addresses generalizing heatmap with
  | nil => rfl
  | cons address rest ih =>
    rw [List.foldl_cons, ih]
    rfl

theorem step_pageSize {isAddress : UInt32 → Bool} {heatmap after : Heatmap} {message : Memory.Message}
    (taken : heatmap.step isAddress message = some after) : after.pageSize = heatmap.pageSize := by
  unfold step handle at taken
  split at taken
  · split at taken
    · cases taken
    · obtain rfl := Option.some.inj taken
      exact foldl_addAddress_pageSize message.dataItems heatmap
  · obtain rfl := Option.some.inj taken
    rfl

theorem run_pageSize {isAddress : UInt32 → Bool} {heatmap after : Heatmap} {messages : List Memory.Message}
    (ran : run (step isAddress) heatmap messages = some after) : after.pageSize = heatmap.pageSize := by
  induction messages generalizing heatmap with
  | nil =>
    obtain rfl := Option.some.inj ran
    rfl
  | cons message rest ih =>
    obtain ⟨next, taken, ran⟩ := Option.bind_eq_some_iff.mp ran
    rw [ih ran, step_pageSize taken]

theorem clear_eq_new {isAddress : UInt32 → Bool} {pageSize : UInt64} {heatmap : Heatmap}
    {messages : List Memory.Message} (ran : run (step isAddress) { pageSize } messages = some heatmap) :
    heatmap.clear = { pageSize } := by
  rw [clear, run_pageSize ran]

end Heatmap

/-! ### Time intervals -/

structure TimeInterval where
  start : UInt64
  stop : UInt64
  deriving DecidableEq, Repr

/-- A message whose data items are read as `time_interval`. -/
structure IntervalMessage where
  userType : UInt32
  dataItems : List TimeInterval
  deriving DecidableEq, Repr

structure TimeIntervalHandler where
  firstStart : UInt64 := 0xffffffffffffffff
  lastStop : UInt64 := 0
  totalTime : UInt64 := 0
  noIntervals : UInt64 := 0
  deriving DecidableEq, Repr

namespace TimeIntervalHandler

def addInterval (handler : TimeIntervalHandler) (ti : TimeInterval) : TimeIntervalHandler where
  firstStart := if ti.start < handler.firstStart then ti.start else handler.firstStart
  lastStop := if ti.stop > handler.lastStop then ti.stop else handler.lastStop
  totalTime := handler.totalTime + (ti.stop - ti.start)
  noIntervals := handler.noIntervals + 1

/-- The loop over the data items; `none` where an interval ends before it starts. -/
def addIntervals (handler : TimeIntervalHandler) : List TimeInterval → Option TimeIntervalHandler
  | [] => some handler
  | ti :: rest => if ti.start ≤ ti.stop then addIntervals (handler.addInterval ti) rest else none

def handle (isTimeInterval : UInt32 → Bool) (handler : TimeIntervalHandler) (message : IntervalMessage) :
    Option (TimeIntervalHandler × Bool) :=
  if isTimeInterval message.userType then
    (handler.addIntervals message.dataItems).map fun handler => (handler, true)
  else some (handler, false)

/-- `first_start_` is set to 0, not to the largest value that the constructor gives it. -/
def clear (_handler : TimeIntervalHandler) : TimeIntervalHandler where
  firstStart := 0
  lastStop := 0
  totalTime := 0
  noIntervals := 0

def step (isTimeInterval : UInt32 → Bool) (handler : TimeIntervalHandler) (message : IntervalMessage) :
    Option TimeIntervalHandler :=
  (handler.handle isTimeInterval message).map Prod.fst

/-- The intervals that the messages carry to the handler. -/
def intervals (isTimeInterval : UInt32 → Bool) (messages : List IntervalMessage) : List TimeInterval :=
  messages.flatMap fun message => if isTimeInterval message.userType then message.dataItems else []

theorem addIntervals_append (handler : TimeIntervalHandler) (first second : List TimeInterval) :
    handler.addIntervals (first ++ second) = (handler.addIntervals first).bind (addIntervals · second) := by
  induction first generalizing handler with
  | nil => rfl
  | cons ti rest ih =>
    rw [List.cons_append, addIntervals, addIntervals]
    split
    · exact ih (handler.addInterval ti)
    · rfl

theorem run_eq_addIntervals (isTimeInterval : UInt32 → Bool) (handler : TimeIntervalHandler)
    (messages : List IntervalMessage) :
    run (step isTimeInterval) handler messages = handler.addIntervals (intervals isTimeInterval messages) := by
  induction messages generalizing handler with
  | nil => rfl
  | cons message rest ih =>
    rw [intervals, List.flatMap_cons, addIntervals_append, run, step, handle]
    split
    · rw [Option.map_map]
      cases handler.addIntervals message.dataItems with
      | none => rfl
      | some next => exact ih next
    · exact ih handler

def earliest (start : UInt64) (list : List TimeInterval) : UInt64 :=
  list.foldl (fun first ti => if ti.start < first then ti.start else first) start

theorem addIntervals_withStart (handler : TimeIntervalHandler) (start : UInt64) (list : List TimeInterval) :
    { handler with firstStart := start }.addIntervals list =
      (handler.addIntervals list).map fun after =>
        { after with firstStart := earliest start list } := by
  induction list generalizing handler start with
  | nil => rfl
  | cons ti rest ih =>
    rw [addIntervals, addIntervals]
    split
    · exact ih (handler.addInterval ti) _
    · rfl

theorem earliest_eq_zero_iff (start : UInt64) (list : List TimeInterval) :
    earliest start list = 0 ↔ start = 0 ∨ ∃ ti ∈ list, ti.start = 0 := by
  induction list generalizing start with
  | nil => simp [earliest]
  | cons ti rest ih =>
    rw [earliest, List.foldl_cons, ← earliest, ih]
    simp only [List.mem_cons, exists_eq_or_imp, ← or_assoc]
    refine or_congr_left ?_
    simp only [← UInt64.toNat_inj, UInt64.lt_iff_toNat_lt, UInt64.toNat_zero]
    split <;> omega

/-- After `clear` the intervals give what a new handler gives exactly when one of them starts at 0. -/
theorem clear_reset_iff {isTimeInterval : UInt32 → Bool} {messages : List IntervalMessage}
    {fresh : TimeIntervalHandler} (old : TimeIntervalHandler)
    (ran : run (step isTimeInterval) {} messages = some fresh) :
    run (step isTimeInterval) old.clear messages = some fresh ↔
      ∃ ti ∈ intervals isTimeInterval messages, ti.start = 0 := by
  rw [run_eq_addIntervals] at ran ⊢
  have cleared := addIntervals_withStart {} 0 (intervals isTimeInterval messages)
  have new := addIntervals_withStart {} 0xffffffffffffffff (intervals isTimeInterval messages)
  have first := earliest_eq_zero_iff 0xffffffffffffffff (intervals isTimeInterval messages)
  have zero := (earliest_eq_zero_iff 0 (intervals isTimeInterval messages)).mpr (.inl rfl)
  rw [zero] at cleared
  have start : old.clear.addIntervals (intervals isTimeInterval messages) = some { fresh with firstStart := 0 } := by
    rw [ran] at cleared
    exact cleared
  have own : fresh.firstStart = earliest 0xffffffffffffffff (intervals isTimeInterval messages) := by
    have same := new.symm.trans ran
    rw [ran] at same
    exact congrArg firstStart (Option.some.inj same).symm
  rw [start, Option.some.injEq]
  constructor
  · intro same
    have zeroStart : fresh.firstStart = 0 := by rw [← same]
    rw [own] at zeroStart
    rcases first.mp zeroStart with impossible | found
    · cases impossible
    · exact found
  · intro found
    rw [← first.mpr (.inr found), ← own]

/-! ### What the handler adds up -/

def duration (ti : TimeInterval) : Nat := ti.stop.toNat - ti.start.toNat

/-- The handler's fields for the intervals that it has got; the counters are of 64 bits. -/
structure Totals (handler : TimeIntervalHandler) (list : List TimeInterval) : Prop where
  noIntervals : handler.noIntervals.toNat = list.length % 2 ^ 64
  totalTime : handler.totalTime.toNat = (list.map duration).sum % 2 ^ 64
  starts : ∀ ti ∈ list, handler.firstStart ≤ ti.start
  stops : ∀ ti ∈ list, ti.stop ≤ handler.lastStop
  first : handler.firstStart = 0xffffffffffffffff ∨ ∃ ti ∈ list, ti.start = handler.firstStart
  last : handler.lastStop = 0 ∨ ∃ ti ∈ list, ti.stop = handler.lastStop

theorem new_totals : Totals {} [] where
  noIntervals := rfl
  totalTime := rfl
  starts := List.forall_mem_nil _
  stops := List.forall_mem_nil _
  first := .inl rfl
  last := .inl rfl

theorem addInterval_firstStart (handler : TimeIntervalHandler) (ti : TimeInterval) :
    (handler.addInterval ti).firstStart ≤ handler.firstStart ∧ (handler.addInterval ti).firstStart ≤ ti.start ∧
      ((handler.addInterval ti).firstStart = handler.firstStart ∨ ti.start = (handler.addInterval ti).firstStart) := by
  unfold addInterval
  by_cases below : ti.start < handler.firstStart
  · simp [below, UInt64.le_of_lt below]
  · simp [below, UInt64.not_lt.mp below]

theorem addInterval_lastStop (handler : TimeIntervalHandler) (ti : TimeInterval) :
    handler.lastStop ≤ (handler.addInterval ti).lastStop ∧ ti.stop ≤ (handler.addInterval ti).lastStop ∧
      ((handler.addInterval ti).lastStop = handler.lastStop ∨ ti.stop = (handler.addInterval ti).lastStop) := by
  unfold addInterval
  by_cases above : ti.stop > handler.lastStop
  · simp [above, UInt64.le_of_lt above]
  · simp [above, UInt64.not_lt.mp above]

theorem Totals.addInterval {handler : TimeIntervalHandler} {list : List TimeInterval} (totals : handler.Totals list)
    {ti : TimeInterval} (ordered : ti.start ≤ ti.stop) : (handler.addInterval ti).Totals (list ++ [ti]) := by
  obtain ⟨first, own, firstIs⟩ := addInterval_firstStart handler ti
  obtain ⟨last, own', lastIs⟩ := addInterval_lastStop handler ti
  have number : (handler.addInterval ti).noIntervals.toNat = (handler.noIntervals.toNat + 1) % 2 ^ 64 :=
    UInt64.toNat_add _ _
  have time : (handler.addInterval ti).totalTime.toNat = (handler.totalTime.toNat + (ti.stop - ti.start).toNat) % 2 ^ 64 :=
    UInt64.toNat_add _ _
  refine ⟨?_, ?_, ?_, ?_, ?_, ?_⟩
  · rw [number, totals.noIntervals, List.length_append, List.length_singleton, Nat.mod_add_mod]
  · rw [time, totals.totalTime, UInt64.toNat_sub_of_le _ _ ordered, List.map_append, List.sum_append, Nat.mod_add_mod]
    rfl
  · refine List.forall_mem_append.mpr ⟨fun other member => ?_, List.forall_mem_singleton.mpr own⟩
    exact UInt64.le_trans first (totals.starts other member)
  · refine List.forall_mem_append.mpr ⟨fun other member => ?_, List.forall_mem_singleton.mpr own'⟩
    exact UInt64.le_trans (totals.stops other member) last
  · rcases firstIs with kept | taken
    · rw [kept]
      refine totals.first.imp id fun ⟨other, member, same⟩ => ⟨other, List.mem_append_left _ member, same⟩
    · exact .inr ⟨ti, by simp, taken⟩
  · rcases lastIs with kept | taken
    · rw [kept]
      refine totals.last.imp id fun ⟨other, member, same⟩ => ⟨other, List.mem_append_left _ member, same⟩
    · exact .inr ⟨ti, by simp, taken⟩

/-- No assertion fails while intervals stop behind their start. -/
theorem addIntervals_totals {handler : TimeIntervalHandler} {list : List TimeInterval} (totals : handler.Totals list)
    {more : List TimeInterval} (ordered : ∀ ti ∈ more, ti.start ≤ ti.stop) :
    ∃ after, handler.addIntervals more = some after ∧ after.Totals (list ++ more) := by
  induction more generalizing handler list with
  | nil =>
    rw [List.append_nil]
    exact ⟨handler, rfl, totals⟩
  | cons ti rest ih =>
    obtain ⟨here, ordered⟩ := List.forall_mem_cons.mp ordered
    obtain ⟨after, added, totals⟩ := ih (totals.addInterval here) ordered
    rw [List.append_assoc] at totals
    exact ⟨after, by rw [addIntervals, if_pos here, added], totals⟩

theorem intervals_append (isTimeInterval : UInt32 → Bool) (first rest : List IntervalMessage) :
    intervals isTimeInterval (first ++ rest) = intervals isTimeInterval first ++ intervals isTimeInterval rest :=
  List.flatMap_append

end TimeIntervalHandler

end Omniprobe.Handlers
