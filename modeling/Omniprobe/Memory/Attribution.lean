import Omniprobe.Memory.Clear

/-!
# Which entry an access is counted in

An access is counted under the file, the line and the column that its message names. The tables have 16
bits for lines and columns, and the file of an LDS access is the one that the last counted global access
with the same hash was matched to.
-/

namespace Omniprobe.Memory
open Lib Std

/-! ### Entries -/

inductive Table where
  | global | lds
  deriving DecidableEq, Repr

/-- What tells the entries of the two tables apart. -/
@[ext]
structure EntryKey where
  table : Table
  location : Location
  kind : AccessKind
  deriving DecidableEq, Repr

def LdsAccesses.kind (access : LdsAccesses) : AccessKind :=
  ⟨access.irAccessSize, access.isaAccessSize, access.rwKind⟩

theorem LdsAccesses.sameKind_iff (current access : LdsAccesses) :
    current.sameKind access = true ↔ access.kind = current.kind := by
  simp [LdsAccesses.sameKind, LdsAccesses.kind, and_assoc]

theorem LdsAccesses.merge_kind (current access : LdsAccesses) : (current.merge access).kind = access.kind := rfl

namespace Handler

def ldsAccessesAt (handler : Handler) (location : Location) : List LdsAccesses :=
  accessesAt handler.ldsAccesses location.fname location.line location.column

def noAccesses (handler : Handler) (key : EntryKey) : Nat :=
  match key.table with
  | .global =>
    totalWhere GlobalAccesses.noAccesses (fun access => access.kind = key.kind) (handler.globalAccessesAt key.location)
  | .lds => totalWhere LdsAccesses.noAccesses (fun access => access.kind = key.kind) (handler.ldsAccessesAt key.location)

end Handler

theorem totalWhere_kind {α : Type} {noAccesses : α → Nat} {kindOf : α → AccessKind} {matching : α → Bool}
    {merge : α → α} {current : α} (single : noAccesses current = 1)
    (same : ∀ access, matching access = true ↔ kindOf access = kindOf current)
    (keeps : ∀ access, kindOf (merge access) = kindOf access)
    (more : ∀ access, noAccesses (merge access) = noAccesses access + 1) (accesses : List α) (kind : AccessKind) :
    totalWhere noAccesses (fun access => kindOf access = kind) (record matching merge current accesses) =
      totalWhere noAccesses (fun access => kindOf access = kind) accesses +
        if kindOf current = kind then 1 else 0 := by
  rw [totalWhere_record]
  · simp only [decide_eq_true_eq, single]
  · intro access matched
    rw [keeps, (same access).mp matched, single]
    exact ⟨more access, rfl, rfl⟩

section
variable (env : Env)

/-- Where an LDS access is counted. -/
def Handler.ldsLocation (handler : Handler) (message : Message) : Location :=
  ⟨handler.ldsFname message, message.header.dwarfLine.toUInt16, message.header.dwarfColumn.toUInt16⟩

def Handler.entryFor (handler : Handler) (message : Message) : Option EntryKey :=
  if message.namesFile env then some ⟨.global, message.location env, message.kind env⟩
  else if message.recordsLds env then
    some ⟨.lds, handler.ldsLocation message, ⟨message.dataSize, 0, message.rwKind⟩⟩
  else none

theorem recordGlobalAccess_noAccesses (handler : Handler) (message : Message) (key : EntryKey) :
    (handler.recordGlobalAccess env message).noAccesses key = handler.noAccesses key +
      if EntryKey.mk .global (message.location env) (message.kind env) = key then 1 else 0 := by
  obtain ⟨table, location, kind⟩ := key
  cases table with
  | lds => simp [Handler.noAccesses, Handler.recordGlobalAccess, Handler.ldsAccessesAt]
  | global =>
    have own : (message.access env).kind = message.kind env := rfl
    have single : (message.access env).noAccesses = 1 := rfl
    simp only [Handler.noAccesses, Handler.recordGlobalAccess_at, EntryKey.mk.injEq, true_and]
    by_cases here : message.location env = location
    · rw [if_pos here, totalWhere_kind single (GlobalAccesses.sameKind_iff _) (GlobalAccesses.merge_kind _) fun _ => rfl, own]
      simp [here]
    · simp [here]

def Message.ldsAccess (message : Message) (conflicts : Nat) : LdsAccesses :=
  ⟨1, message.dataSize, 0, message.rwKind, [], conflicts⟩

theorem recordLdsAccess_at (handler : Handler) (message : Message) (conflicts : Nat) (location : Location) :
    (handler.recordLdsAccess message conflicts).ldsAccessesAt location =
      if handler.ldsLocation message = location then
        record (message.ldsAccess conflicts).sameKind (message.ldsAccess conflicts).merge (message.ldsAccess conflicts)
          (handler.ldsAccessesAt location)
      else handler.ldsAccessesAt location := by
  unfold Handler.recordLdsAccess
  rw [Handler.ldsAccessesAt, accessesAt_setAccessesAt]
  by_cases here : handler.ldsLocation message = location
  · subst here
    rw [if_pos ⟨rfl, rfl, rfl⟩, if_pos rfl]
    rfl
  · rw [if_neg, if_neg here]
    · rfl
    · rintro ⟨file, line, column⟩
      exact here (Location.ext file line column)

theorem recordLdsAccess_noAccesses (handler : Handler) (message : Message) (conflicts : Nat) (key : EntryKey) :
    (handler.recordLdsAccess message conflicts).noAccesses key = handler.noAccesses key +
      if EntryKey.mk .lds (handler.ldsLocation message) ⟨message.dataSize, 0, message.rwKind⟩ = key then 1
      else 0 := by
  obtain ⟨table, location, kind⟩ := key
  cases table with
  | global => simp [Handler.noAccesses, Handler.recordLdsAccess, Handler.globalAccessesAt]
  | lds =>
    simp only [Handler.noAccesses, recordLdsAccess_at, EntryKey.mk.injEq, true_and]
    have own : (message.ldsAccess conflicts).kind = ⟨message.dataSize, 0, message.rwKind⟩ := rfl
    have single : (message.ldsAccess conflicts).noAccesses = 1 := rfl
    by_cases here : handler.ldsLocation message = location
    · rw [if_pos here, totalWhere_kind single (LdsAccesses.sameKind_iff _) (LdsAccesses.merge_kind _) fun _ => rfl, own]
      simp [here]
    · simp [here]

theorem next_noAccesses (handler : Handler) (message : Message) (key : EntryKey) :
    (handler.next env message).noAccesses key =
      handler.noAccesses key + if handler.entryFor env message = some key then 1 else 0 := by
  unfold Handler.next Handler.entryFor
  split
  · rw [recordGlobalAccess_noAccesses]
    simp only [Option.some.injEq]
  · split
    · rw [recordLdsAccess_noAccesses]
      simp only [Option.some.injEq]
    · simp

/-! ### Contributions -/

/-- The message after the messages `before` is counted in an entry. -/
def Contributes (before : List Message) (message : Message) (key : EntryKey) : Prop :=
  ∃ handler after : Handler, run Handler.step {} (before.map (Handler.Event.handle env)) = some handler ∧
    handler.step (.handle env message) = some after ∧ handler.noAccesses key < after.noAccesses key

/-- The sequence is handled to its end. -/
def Handled (messages : List Message) : Prop :=
  ∃ handler, run Handler.step {} (messages.map (Handler.Event.handle env)) = some handler

theorem Handled.contributes_iff {before : List Message} {message : Message} {after : List Message}
    (handled : Handled env (before ++ message :: after)) (key : EntryKey) :
    Contributes env before message key ↔
      (before.foldl (Handler.next env) {}).entryFor env message = some key := by
  obtain ⟨last, ran⟩ := handled
  rw [List.map_append, List.map_cons, run_append] at ran
  obtain ⟨middle, ranBefore, ran⟩ := Option.bind_eq_some_iff.mp ran
  obtain ⟨next, taken, -⟩ := Option.bind_eq_some_iff.mp ran
  obtain ⟨-, rfl⟩ := Handler.run_eq_foldl_next env Handler.new_idle ranBefore
  obtain ⟨-, rfl⟩ := Handler.step_eq_next env (Handler.foldl_next_idle env Handler.new_idle before) taken
  unfold Contributes
  rw [ranBefore]
  constructor
  · rintro ⟨handler, after, same, taken', more⟩
    obtain rfl := Option.some.inj same
    obtain rfl := Option.some.inj (taken.symm.trans taken')
    by_contra other
    rw [next_noAccesses, if_neg other] at more
    omega
  · intro counted
    refine ⟨_, _, rfl, taken, ?_⟩
    rw [next_noAccesses, if_pos counted]
    omega

/-! ### Lines and columns -/

/-- The message is counted in one of the tables. -/
def Message.recorded (message : Message) : Prop := message.namesFile env ∨ message.recordsLds env

/-- Entries are reported at the line and column of their messages, so no two messages of different lines or
columns are counted in the same entry. -/
def KeepsLocations (messages : List Message) : Prop :=
  (∀ before message after, messages = before ++ message :: after → ∀ key, Contributes env before message key →
    key.location.line.toNat = message.header.dwarfLine.toNat ∧
      key.location.column.toNat = message.header.dwarfColumn.toNat) ∧
  ∀ before message after before' message' after', messages = before ++ message :: after →
    messages = before' ++ message' :: after' →
    ∀ key, Contributes env before message key → Contributes env before' message' key →
      message.header.dwarfLine = message'.header.dwarfLine ∧ message.header.dwarfColumn = message'.header.dwarfColumn

theorem entryFor_place {handler : Handler} {message : Message} {key : EntryKey}
    (counted : handler.entryFor env message = some key) :
    key.location.line = message.header.dwarfLine.toUInt16 ∧
      key.location.column = message.header.dwarfColumn.toUInt16 := by
  unfold Handler.entryFor at counted
  split at counted
  · obtain rfl := Option.some.inj counted
    exact ⟨rfl, rfl⟩
  · split at counted
    · obtain rfl := Option.some.inj counted
      exact ⟨rfl, rfl⟩
    · cases counted

theorem entryFor_of_recorded {message : Message} (recorded : message.recorded env) (handler : Handler) :
    ∃ key, handler.entryFor env message = some key := by
  unfold Handler.entryFor
  split
  · exact ⟨_, rfl⟩
  · rename_i unnamed
    rw [if_pos (recorded.resolve_left unnamed)]
    exact ⟨_, rfl⟩

theorem recorded_of_entryFor {handler : Handler} {message : Message} {key : EntryKey}
    (counted : handler.entryFor env message = some key) : message.recorded env := by
  unfold Handler.entryFor at counted
  split at counted
  · rename_i names
    exact .inl names
  · split at counted
    · rename_i records
      exact .inr records
    · cases counted

theorem toNat_toUInt16_iff (number : UInt32) : number.toUInt16.toNat = number.toNat ↔ number.toNat < 65536 := by
  rw [UInt32.toNat_toUInt16]
  omega

/-- The tables keep the locations apart exactly when every message that is counted has a line and a column
of 16 bits. -/
theorem keepsLocations_iff {messages : List Message} (handled : Handled env messages) :
    KeepsLocations env messages ↔ ∀ message ∈ messages, message.recorded env → InRange message := by
  constructor
  · rintro ⟨placed, -⟩ message member recorded
    obtain ⟨before, after, rfl⟩ := List.append_of_mem member
    obtain ⟨key, counted⟩ := entryFor_of_recorded env recorded (before.foldl (Handler.next env) {})
    obtain ⟨line, column⟩ := placed before message after rfl key ((handled.contributes_iff env key).mpr counted)
    obtain ⟨atLine, atColumn⟩ := entryFor_place env counted
    rw [atLine, toNat_toUInt16_iff] at line
    rw [atColumn, toNat_toUInt16_iff] at column
    exact ⟨line, column⟩
  · intro small
    have placed : ∀ before message after, messages = before ++ message :: after → ∀ key,
        Contributes env before message key → key.location.line.toNat = message.header.dwarfLine.toNat ∧
          key.location.column.toNat = message.header.dwarfColumn.toNat := by
      rintro before message after rfl key contributes
      have counted := (handled.contributes_iff env key).mp contributes
      obtain ⟨line, column⟩ := small message (by simp) (recorded_of_entryFor env counted)
      obtain ⟨atLine, atColumn⟩ := entryFor_place env counted
      rw [atLine, atColumn]
      exact ⟨(toNat_toUInt16_iff _).mpr line, (toNat_toUInt16_iff _).mpr column⟩
    refine ⟨placed, ?_⟩
    intro before message after before' message' after' split split' key contributes contributes'
    obtain ⟨line, column⟩ := placed before message after split key contributes
    obtain ⟨line', column'⟩ := placed before' message' after' split' key contributes'
    exact ⟨UInt32.toNat_inj.mp (line.symm.trans line'), UInt32.toNat_inj.mp (column.symm.trans column')⟩

/-! ### Files -/

/-- `kernelDB` knows the file of the global access. -/
def Message.matched (message : Message) : Prop :=
  message.isGlobal env ∧ ¬message.unsupported env ∧ (message.location env).fname ≠ []

/-- An LDS access after a matched global access with its hash is counted under the file of that access. -/
def KeepsAttribution (messages : List Message) : Prop :=
  ∀ before first between later after, messages = before ++ first :: between ++ later :: after →
    first.matched env → later.isShared env → later.header.dwarfFnameHash = first.header.dwarfFnameHash →
    ∀ key, Contributes env (before ++ first :: between) later key →
      key.location.fname = (first.location env).fname ∧ key.location.fname ≠ Handler.unknownSourceFile

/-- The last counted global access before it, with its hash, was matched to the same file. -/
def LastFileStands (messages : List Message) : Prop :=
  ∀ before first between later after, messages = before ++ first :: between ++ later :: after →
    first.matched env → later.recordsLds env → later.header.dwarfFnameHash = first.header.dwarfFnameHash →
    lastFile env (before ++ first :: between) later.header.dwarfFnameHash = some (first.location env).fname ∧
      (first.location env).fname ≠ Handler.unknownSourceFile

theorem ldsFname_foldl (messages : List Message) (message : Message) :
    (messages.foldl (Handler.next env) {}).ldsFname message =
      if (lastFile env messages message.header.dwarfFnameHash).getD [] = [] then Handler.unknownSourceFile
      else (lastFile env messages message.header.dwarfFnameHash).getD [] := by
  have nothing : Handler.fileOf {} message.header.dwarfFnameHash = [] := by simp [Handler.fileOf]
  rw [Handler.ldsFname_eq, foldl_next_fileOf, nothing]

theorem ldsFname_foldl_iff {messages : List Message} {message : Message} {fname : Text} (known : fname ≠ []) :
    ((messages.foldl (Handler.next env) {}).ldsFname message = fname ∧
        (messages.foldl (Handler.next env) {}).ldsFname message ≠ Handler.unknownSourceFile) ↔
      lastFile env messages message.header.dwarfFnameHash = some fname ∧ fname ≠ Handler.unknownSourceFile := by
  rw [ldsFname_foldl]
  cases lastFile env messages message.header.dwarfFnameHash with
  | none => simp
  | some last =>
    rw [Option.getD_some, Option.some.injEq]
    split
    · rename_i empty
      simp [empty, Ne.symm known]
    · refine and_congr_right fun same => ?_
      rw [same]

theorem entryFor_of_shared {handler : Handler} {message : Message} (shared : message.isShared env) :
    handler.entryFor env message =
      if message.recordsLds env then some ⟨.lds, handler.ldsLocation message, ⟨message.dataSize, 0, message.rwKind⟩⟩
      else none := by
  have unnamed : ¬message.namesFile env := by
    rintro ⟨global, -⟩
    cases shared.2.symm.trans global.2
  rw [Handler.entryFor, if_neg unnamed]

/-- LDS accesses stay with the file of a matched global access exactly as long as the last counted global
access with the hash was matched to that file. -/
theorem keepsAttribution_iff {messages : List Message} (handled : Handled env messages) :
    KeepsAttribution env messages ↔ LastFileStands env messages := by
  constructor
  · rintro kept before first between later after rfl isMatched records sameHash
    have counted : ((before ++ first :: between).foldl (Handler.next env) {}).entryFor env later =
        some ⟨.lds, ((before ++ first :: between).foldl (Handler.next env) {}).ldsLocation later,
          ⟨later.dataSize, 0, later.rwKind⟩⟩ := by
      rw [entryFor_of_shared env records.1, if_pos records]
    have contributes := (handled.contributes_iff env _).mpr counted
    exact (ldsFname_foldl_iff env isMatched.2.2).mp
      (kept before first between later after rfl isMatched records.1 sameHash _ contributes)
  · rintro stands before first between later after rfl isMatched shared sameHash key contributes
    have counted := (handled.contributes_iff env key).mp contributes
    rw [entryFor_of_shared env shared] at counted
    split at counted
    · rename_i records
      obtain rfl := Option.some.inj counted
      exact (ldsFname_foldl_iff env isMatched.2.2).mpr
        (stands before first between later after rfl isMatched records sameHash)
    · cases counted

end

namespace Handler.Sample

/-- As `dense`, at a line that differs in the bits that the tables do not keep. -/
def far : Message := { dense with header := { dense.header with dwarfLine := 65546 } }

theorem handled_of_global {messages : List Message} (all : ∀ message ∈ messages, message.isGlobal env) :
    Handled env messages := by
  refine ⟨_, run_of_accepted env new_idle fun message member shared => ?_⟩
  cases shared.2.symm.trans (all message member).2

end Handler.Sample

theorem keepsLocations_sample : KeepsLocations Handler.Sample.env [Handler.Sample.dense, Handler.Sample.strided] :=
  (keepsLocations_iff Handler.Sample.env (Handler.Sample.handled_of_global Handler.Sample.global)).mpr
    fun message member _ => Handler.Sample.inRange message member

/-- Two accesses of the same file at lines 10 and 65546 are counted in one entry. -/
theorem keepsLocations_narrow :
    ¬∀ (env : Env) (messages : List Message), (∀ message ∈ messages, message.isGlobal env ∨ message.isShared env) →
      Handled env messages → KeepsLocations env messages := by
  intro claim
  have global : ∀ message ∈ [Handler.Sample.dense, Handler.Sample.far], message.isGlobal Handler.Sample.env :=
    List.forall_mem_cons.mpr ⟨⟨by decide, by decide⟩, List.forall_mem_singleton.mpr ⟨by decide, by decide⟩⟩
  have handled := Handler.Sample.handled_of_global global
  obtain ⟨-, separate⟩ := claim _ _ (fun message member => .inl (global message member)) handled
  have counted : ∀ message ∈ [Handler.Sample.dense, Handler.Sample.far], ∀ handler : Handler,
      handler.entryFor Handler.Sample.env message = some ⟨.global, ⟨[], 10, 4⟩, ⟨4, 0, 1⟩⟩ := by
    refine List.forall_mem_cons.mpr ⟨fun handler => ?_, List.forall_mem_singleton.mpr fun handler => ?_⟩
    · rw [Handler.entryFor, if_pos (by decide)]
      rfl
    · rw [Handler.entryFor, if_pos (by decide)]
      rfl
  have whole : Handled Handler.Sample.env ([] ++ Handler.Sample.dense :: [Handler.Sample.far]) := handled
  have split : Handled Handler.Sample.env ([Handler.Sample.dense] ++ Handler.Sample.far :: []) := handled
  have first := (whole.contributes_iff _ _).mpr (counted Handler.Sample.dense (by simp) _)
  have second := (split.contributes_iff _ _).mpr (counted Handler.Sample.far (by simp) _)
  exact absurd (separate [] _ _ [Handler.Sample.dense] _ [] rfl rfl _ first second).1 (by decide)

namespace Handler.Sample

def source : Text := "a.hip".toList

/-- `kernelDB` knows the load of line 10 and no instruction of another line. -/
def known : Env :=
  { env with
    hasKdb := true
    instructionsForLine := fun line => some (if line = 10 then [⟨"global_load_dword".toList, source, 10, 4⟩] else [])
    hash := fun _ => 7 }

def unmatched : Message := { dense with header := { dense.header with dwarfLine := 11 } }

theorem dense_matched : dense.matched known :=
  ⟨⟨by decide, by decide⟩, by unfold Message.unsupported; decide, by decide +kernel⟩

theorem lds_records : message.recordsLds known := by decide +kernel

theorem accepted_lds : message.accepted known := fun _ => ⟨by decide, fun _ => by decide⟩

theorem accepted_global {other : Message} (global : known.addressSpace other.mspace = .global) :
    other.accepted known := by
  intro shared
  cases shared.2.symm.trans global

theorem handled_of_accepted {messages : List Message} (all : ∀ message ∈ messages, message.accepted known) :
    Handled known messages := ⟨_, run_of_accepted known new_idle all⟩

end Handler.Sample

theorem keepsAttribution_sample :
    KeepsAttribution Handler.Sample.known [Handler.Sample.dense, Handler.Sample.message] := by
  have handled : Handled Handler.Sample.known [Handler.Sample.dense, Handler.Sample.message] :=
    Handler.Sample.handled_of_accepted (List.forall_mem_cons.mpr
      ⟨Handler.Sample.accepted_global (by decide), List.forall_mem_singleton.mpr Handler.Sample.accepted_lds⟩)
  refine (keepsAttribution_iff Handler.Sample.known handled).mpr ?_
  intro before first between later after split _ _ _
  have lengths := congrArg List.length split
  simp only [List.length_cons, List.length_nil, List.length_append] at lengths
  obtain rfl : before = [] := List.length_eq_zero_iff.mp (by omega)
  obtain rfl : between = [] := List.length_eq_zero_iff.mp (by omega)
  simp only [List.nil_append, List.cons_append, List.cons.injEq] at split
  obtain ⟨rfl, rfl, -⟩ := split
  decide +kernel

/-- A global access that `kernelDB` does not know takes the file name away again. -/
theorem keepsAttribution_lost :
    ¬∀ (env : Env) (messages : List Message), (∀ message ∈ messages, message.isGlobal env ∨ message.isShared env) →
      Handled env messages → KeepsAttribution env messages := by
  intro claim
  have addresses : ∀ message ∈ [] ++ Handler.Sample.dense :: [Handler.Sample.unmatched] ++ Handler.Sample.message :: [],
      message.isGlobal Handler.Sample.known ∨ message.isShared Handler.Sample.known :=
    List.forall_mem_cons.mpr ⟨.inl ⟨by decide, by decide⟩, List.forall_mem_cons.mpr
      ⟨.inl ⟨by decide, by decide⟩, List.forall_mem_singleton.mpr (.inr Handler.Sample.lds_records.1)⟩⟩
  have handled : Handled Handler.Sample.known
      ([] ++ Handler.Sample.dense :: [Handler.Sample.unmatched] ++ Handler.Sample.message :: []) :=
    Handler.Sample.handled_of_accepted (List.forall_mem_cons.mpr
      ⟨Handler.Sample.accepted_global (by decide), List.forall_mem_cons.mpr
        ⟨Handler.Sample.accepted_global (by decide), List.forall_mem_singleton.mpr Handler.Sample.accepted_lds⟩⟩)
  have counted := (handled.contributes_iff _ _).mpr
    ((entryFor_of_shared _ Handler.Sample.lds_records.1).trans (if_pos Handler.Sample.lds_records))
  have kept := claim _ _ addresses handled [] _ [_] _ [] rfl Handler.Sample.dense_matched Handler.Sample.lds_records.1 rfl
    _ counted
  have name : (([] ++ Handler.Sample.dense :: [Handler.Sample.unmatched]).foldl (Handler.next Handler.Sample.known)
      {}).ldsFname Handler.Sample.message = Handler.unknownSourceFile := by
    have last : lastFile Handler.Sample.known ([] ++ Handler.Sample.dense :: [Handler.Sample.unmatched])
        Handler.Sample.message.header.dwarfFnameHash = some [] := by
      decide +kernel
    rw [ldsFname_foldl, last]
    rfl
  exact kept.2 name

end Omniprobe.Memory
