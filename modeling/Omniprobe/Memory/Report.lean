import Omniprobe.Memory.CacheLines

/-!
# The text report of the cache lines

What `report_cache_line_use` prints of its table. A printed entry is the values its lines are made
from; the excerpt of the source file is left out.
-/

namespace Omniprobe.Memory
open Lib Std

/-! ### The reports -/

inductive ReportLine (α : Type) where
  | header
  | entry (location : Location) (access : α)
  | nothingFound
  | footer

/-- The loops over files, lines, columns and accesses. -/
def shownEntries {α : Type} (shows : α → Bool) (accesses : FileLineColAccess α) : List (Location × α) :=
  accesses.toList.flatMap fun (fname, lines) =>
    lines.toList.flatMap fun (line, columns) =>
      columns.toList.flatMap fun (column, accesses) =>
        (accesses.filter shows).map fun access => (⟨fname, line, column⟩, access)

def reportLines {α : Type} (shows : α → Bool) (accesses : FileLineColAccess α) : List (ReportLine α) :=
  let shown := shownEntries shows accesses
  [.header] ++ shown.map (fun entry => .entry entry.1 entry.2) ++ (if shown.isEmpty then [.nothingFound] else []) ++
    [.footer]

namespace Handler

def reportCacheLineUse (verbose : Bool) (handler : Handler) : List (ReportLine GlobalAccesses) :=
  reportLines (fun access => !(!verbose && access.noCacheLinesUsed == access.minCacheLinesNeeded))
    handler.globalAccesses

end Handler

theorem mem_shownEntries_iff {α : Type} (shows : α → Bool) (accesses : FileLineColAccess α) (location : Location)
    (access : α) :
    (location, access) ∈ shownEntries shows accesses ↔
      access ∈ accessesAt accesses location.fname location.line location.column ∧ shows access = true := by
  obtain ⟨fname, line, column⟩ := location
  simp only [shownEntries, List.mem_flatMap, List.mem_map, List.mem_filter, Prod.exists, Prod.mk.injEq,
    Location.mk.injEq, ExtTreeMap.mem_toList_iff_getElem?_eq_some]
  constructor
  · rintro ⟨_, lines, atFile, _, columns, atLine, _, found, atColumn, _, ⟨member, shown⟩, ⟨rfl, rfl, rfl⟩, rfl⟩
    refine ⟨?_, shown⟩
    rwa [accessesAt, atFile, Option.getD_some, find₂, atLine, Option.bind_some, atColumn, Option.getD_some]
  · rintro ⟨member, shown⟩
    unfold accessesAt at member
    cases atFile : accesses[fname]? with
    | none => simp [atFile, find₂_empty] at member
    | some lines =>
      rw [atFile, Option.getD_some, find₂] at member
      cases atLine : lines[line]? with
      | none => simp [atLine] at member
      | some columns =>
        rw [atLine, Option.bind_some] at member
        cases atColumn : columns[column]? with
        | none => simp [atColumn] at member
        | some found =>
          rw [atColumn, Option.getD_some] at member
          exact ⟨_, lines, atFile, _, columns, atLine, _, found, atColumn, access, ⟨member, shown⟩, ⟨rfl, rfl, rfl⟩, rfl⟩

theorem mem_reportLines_iff {α : Type} (shows : α → Bool) (accesses : FileLineColAccess α) (location : Location)
    (access : α) :
    .entry location access ∈ reportLines shows accesses ↔
      access ∈ accessesAt accesses location.fname location.line location.column ∧ shows access = true := by
  rw [← mem_shownEntries_iff, reportLines]
  split <;> simp

/-! ### Wasteful accesses -/

section
variable (env : Env)

def excess (messages : List Message) : Nat :=
  (messages.map fun message => message.linesUsed env - message.linesNeeded env).sum

def deficit (messages : List Message) : Nat :=
  (messages.map fun message => message.linesNeeded env - message.linesUsed env).sum

theorem used_add_deficit (messages : List Message) :
    (messages.map (·.linesUsed env)).sum + deficit env messages =
      (messages.map (·.linesNeeded env)).sum + excess env messages := by
  unfold excess deficit
  induction messages with
  | nil => rfl
  | cons message rest ih =>
    simp only [List.map_cons, List.sum_cons]
    omega

theorem excess_pos_iff (messages : List Message) :
    0 < excess env messages ↔ ∃ message ∈ messages, message.linesNeeded env < message.linesUsed env := by
  unfold excess
  induction messages with
  | nil => simp
  | cons message rest ih =>
    simp only [List.map_cons, List.sum_cons, List.mem_cons, exists_eq_or_imp]
    rw [← ih]
    omega

namespace Handler

/-- The report with verbose off has an entry of this kind for the location. -/
def Printed (handler : Handler) (location : Location) (kind : AccessKind) : Prop :=
  ∃ access, access.kind = kind ∧ .entry location access ∈ handler.reportCacheLineUse false

theorem printed_iff (handler : Handler) (location : Location) (kind : AccessKind)
    (one : OnePerKind (handler.globalAccessesAt location)) :
    handler.Printed location kind ↔ ∃ access, entryOf kind (handler.globalAccessesAt location) = some access ∧
      access.noCacheLinesUsed ≠ access.minCacheLinesNeeded := by
  have shown : ∀ access, .entry location access ∈ handler.reportCacheLineUse false ↔
      access ∈ handler.globalAccessesAt location ∧ access.noCacheLinesUsed ≠ access.minCacheLinesNeeded := by
    intro access
    rw [reportCacheLineUse, mem_reportLines_iff]
    simp [globalAccessesAt]
  unfold Printed
  constructor
  · rintro ⟨access, rfl, printed⟩
    obtain ⟨member, differ⟩ := (shown access).mp printed
    exact ⟨access, (one.mem_iff access).mp member, differ⟩
  · rintro ⟨access, found, differ⟩
    have kind' : access.kind = kind := by simpa using List.find?_some found
    exact ⟨access, kind', (shown access).mpr ⟨List.mem_of_find?_eq_some found, differ⟩⟩

/-- The decision is made on the sums: an entry is printed when excess and deficit do not cancel. -/
theorem countCacheLines_printed_iff (messages : List Message) (location : Location) (kind : AccessKind) :
    (countCacheLines env {} messages).Printed location kind ↔
      excess env (accumulated env messages location kind) ≠ deficit env (accumulated env messages location kind) := by
  rw [printed_iff _ _ _ (countCacheLines_onePerKind env messages location), countCacheLines_entryOf]
  generalize accumulated env messages location kind = group
  have sums := used_add_deficit env group
  cases group with
  | nil => simp [total, excess, deficit]
  | cons first rest =>
    simp only [total, List.head?_cons, Option.map_some, Option.some.injEq, exists_eq_left']
    omega

/-- The report shows an entry exactly when one of its messages is wasteful, if and only if the entry
has no deficit or an excess that its deficit does not cancel. -/
theorem printed_iff_wasteful_iff {messages : List Message} (global : ∀ message ∈ messages, message.isGlobal env) :
    ∃ handler, run step {} (messages.map (Event.handle env)) = some handler ∧
      ∀ location kind,
        (handler.Printed location kind ↔
          ∃ message ∈ accumulated env messages location kind, message.linesNeeded env < message.linesUsed env) ↔
        deficit env (accumulated env messages location kind) = 0 ∨
          0 < excess env (accumulated env messages location kind) ∧
          excess env (accumulated env messages location kind) ≠ deficit env (accumulated env messages location kind) := by
  refine ⟨_, run_eq_countCacheLines env global _, ?_⟩
  intro location kind
  rw [countCacheLines_printed_iff, ← excess_pos_iff]
  omega

end Handler

end

theorem Handler.printed_strided_sample :
    ∃ handler, run step {} ([Sample.dense, Sample.strided].map (Event.handle Sample.env)) = some handler ∧
      (handler.Printed ⟨[], 10, 4⟩ ⟨4, 0, 1⟩ ↔
        ∃ message ∈ accumulated Sample.env [Sample.dense, Sample.strided] ⟨[], 10, 4⟩ ⟨4, 0, 1⟩,
          message.linesNeeded Sample.env < message.linesUsed Sample.env) := by
  obtain ⟨handler, ran, exact⟩ := printed_iff_wasteful_iff Sample.env Sample.global
  refine ⟨handler, ran, (exact ⟨[], 10, 4⟩ ⟨4, 0, 1⟩).mpr (.inl ?_)⟩
  decide +kernel

/-- All 64 lanes read the same dword. -/
def Handler.Sample.broadcast : Message :=
  ⟨⟨1, 0b100_0001_01, 0xffffffffffffffff, 0, 7, 10, 4⟩, List.replicate 64 4096⟩

/-- A broadcast read uses one line where two are computed as the minimum, and is printed. -/
theorem Handler.broadcast_printed :
    ¬∀ (env : Env) (messages : List Message) (handler : Handler), (∀ message ∈ messages, message.isGlobal env) →
      run step {} (messages.map (Event.handle env)) = some handler →
      ∀ location kind, handler.Printed location kind ↔
        ∃ message ∈ accumulated env messages location kind, message.linesNeeded env < message.linesUsed env := by
  intro claim
  have global : ∀ message ∈ [Sample.broadcast], message.isGlobal Sample.env :=
    List.forall_mem_singleton.mpr ⟨by decide, by decide⟩
  have exact := claim Sample.env [Sample.broadcast] _ global (run_eq_countCacheLines Sample.env global _)
    ⟨[], 10, 4⟩ ⟨4, 0, 1⟩
  rw [countCacheLines_printed_iff, ← excess_pos_iff] at exact
  exact absurd exact (by decide +kernel)

end Omniprobe.Memory
