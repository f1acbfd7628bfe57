import Omniprobe.Memory.CacheLines

/-!
# What `clear` leaves behind

`clear` empties the two tables but not the file names that global accesses were matched to. LDS
accesses are attributed with these names, so a later run can find those of an earlier one.
-/

namespace Omniprobe.Memory
open Lib Std

/-! ### One message -/

section
variable (env : Env)

namespace Message

def isShared (message : Message) : Prop :=
  env.isAddress message.header.userType = true ∧ env.addressSpace message.mspace = .shared

instance (message : Message) : Decidable (message.isShared env) := inferInstanceAs (Decidable (_ ∧ _))

instance (message : Message) : Decidable (message.isGlobal env) := inferInstanceAs (Decidable (_ ∧ _))

def laneAccesses (message : Message) : List (Nat × UInt64) :=
  (env.laneIdsOfActiveLanes message.header).zip message.dataItems

/-- A global access that is counted, and whose file name is remembered. -/
def namesFile (message : Message) : Prop := message.isGlobal env ∧ ¬message.dropped env

instance (message : Message) : Decidable (message.namesFile env) := inferInstanceAs (Decidable (_ ∧ _))

/-- An LDS access of a size that is counted. -/
def recordsLds (message : Message) : Prop := message.isShared env ∧ message.dataSize.toNat ∈ accessSizes

instance (message : Message) : Decidable (message.recordsLds env) := inferInstanceAs (Decidable (_ ∧ _))

def accepted (message : Message) : Prop :=
  message.isShared env →
    message.dataItems.length = (env.laneIdsOfActiveLanes message.header).length ∧
      (message.dataSize.toNat ∈ accessSizes →
        ∀ access ∈ message.laneAccesses env, access.2.toNat % message.dataSize.toNat = 0)

end Message

namespace Handler

/-- The handler after a message that is accepted. -/
def next (handler : Handler) (message : Message) : Handler :=
  if message.namesFile env then handler.recordGlobalAccess env message
  else if message.recordsLds env then
    handler.recordLdsAccess message (hardwareConflicts message.dataSize.toNat (message.laneAccesses env))
  else handler

theorem next_conflictSets (handler : Handler) (message : Message) :
    (handler.next env message).conflictSets = handler.conflictSets := by
  unfold next
  split
  · rfl
  · split <;> rfl

theorem Idle.insert_idleSets {handler : Handler} (idle : handler.Idle) {size : Nat} (sized : size ∈ accessSizes) :
    handler.conflictSets.insert size (idleSets size) = handler.conflictSets := by
  refine ExtTreeMap.ext_getElem? fun other => ?_
  rw [find_insert]
  split
  · rename_i same
    rw [← same, idle, if_pos sized]
  · rfl

theorem step_eq_next {handler after : Handler} (idle : handler.Idle) {message : Message}
    (taken : handler.step (.handle env message) = some after) :
    message.accepted env ∧ after = handler.next env message := by
  obtain ⟨⟨after, answer⟩, handled, rfl⟩ := Option.map_eq_some_iff.mp taken
  unfold handle at handled
  dsimp only
  by_cases isAddress : env.isAddress message.header.userType = true
  · rw [if_pos isAddress] at handled
    by_cases global : env.addressSpace message.mspace = .global
    · rw [global] at handled
      have apart : ¬message.isShared env := fun shared => by cases shared.2.symm.trans global
      have eq := congrArg Prod.fst (Option.some.inj handled)
      refine ⟨fun shared => (apart shared).elim, ?_⟩
      rw [handleCacheLineCountAnalysis_eq] at eq
      dsimp only at eq
      rw [← eq, next]
      by_cases dropped : message.dropped env
      · rw [if_pos dropped, if_neg fun names => names.2 dropped, if_neg fun records => apart records.1]
      · rw [if_neg dropped, if_pos ⟨⟨isAddress, global⟩, dropped⟩]
    · have notGlobal : ¬message.namesFile env := fun names => global names.1.2
      by_cases shared : env.addressSpace message.mspace = .shared
      · rw [shared] at handled
        dsimp only at handled
        rw [handleBankConflictAnalysis_eq idle] at handled
        dsimp only at handled
        split at handled
        · cases handled
        rename_i counted
        split at handled
        · rename_i unsized
          obtain ⟨rfl, -⟩ := Prod.mk.inj (Option.some.inj handled)
          refine ⟨fun _ => ⟨not_not.mp counted, fun sized => (unsized sized).elim⟩, ?_⟩
          rw [next, if_neg notGlobal, if_neg fun records => unsized records.2]
        · rename_i sized
          split at handled
          · rename_i aligned
            obtain ⟨rfl, -⟩ := Prod.mk.inj (Option.some.inj handled)
            refine ⟨fun _ => ⟨not_not.mp counted, fun _ => aligned⟩, ?_⟩
            rw [next, if_neg notGlobal, if_pos ⟨⟨isAddress, shared⟩, not_not.mp sized⟩,
              idle.insert_idleSets (not_not.mp sized)]
            rfl
          · cases handled
      · have apart : ¬message.isShared env := fun both => shared both.2
        have same : handler = after := by
          cases space : env.addressSpace message.mspace with
          | global => exact (global space).elim
          | shared => exact (shared space).elim
          | _ =>
            rw [space] at handled
            exact (Prod.mk.inj (Option.some.inj handled)).1
        refine ⟨fun both => (apart both).elim, ?_⟩
        rw [next, if_neg notGlobal, if_neg fun records => apart records.1, same]
  · rw [if_neg isAddress] at handled
    obtain ⟨rfl, -⟩ := Prod.mk.inj (Option.some.inj handled)
    refine ⟨fun shared => (isAddress shared.1).elim, ?_⟩
    rw [next, if_neg fun names => isAddress names.1.1, if_neg fun records => isAddress records.1.1]

theorem step_of_accepted {handler : Handler} (idle : handler.Idle) {message : Message}
    (accepted : message.accepted env) : ∃ after, handler.step (.handle env message) = some after := by
  suffices returns : ∃ result, handler.handle env message = some result by
    obtain ⟨result, handled⟩ := returns
    exact ⟨result.1, by rw [step, handled, Option.map_some]⟩
  unfold handle
  split
  · rename_i isAddress
    split
    · exact ⟨_, rfl⟩
    · rename_i shared
      obtain ⟨counted, aligned⟩ := accepted ⟨isAddress, shared⟩
      rw [handleBankConflictAnalysis_eq idle]
      dsimp only
      rw [if_neg (not_not_intro counted)]
      split
      · exact ⟨_, rfl⟩
      · rename_i sized
        have whole := aligned (not_not.mp sized)
        unfold Message.laneAccesses at whole
        rw [if_pos whole]
        exact ⟨_, rfl⟩
    · exact ⟨_, rfl⟩
  · exact ⟨_, rfl⟩

theorem next_idle {handler : Handler} (idle : handler.Idle) (message : Message) : (handler.next env message).Idle := by
  intro size
  rw [next_conflictSets, idle]

/-! ### Runs -/

/-- A run from an idle handler is accepted message by message, whatever the tables hold. -/
theorem run_eq_foldl_next {handler after : Handler} (idle : handler.Idle) {messages : List Message}
    (ran : run step handler (messages.map (Event.handle env)) = some after) :
    (∀ message ∈ messages, message.accepted env) ∧ after = messages.foldl (next env) handler := by
  induction messages generalizing handler with
  | nil => exact ⟨by simp, (Option.some.inj ran).symm⟩
  | cons message rest ih =>
    rw [List.map_cons, run] at ran
    obtain ⟨middle, taken, ran⟩ := Option.bind_eq_some_iff.mp ran
    obtain ⟨accepted, rfl⟩ := step_eq_next env idle taken
    obtain ⟨others, rfl⟩ := ih (next_idle env idle message) ran
    exact ⟨List.forall_mem_cons.mpr ⟨accepted, others⟩, rfl⟩

theorem run_of_accepted {handler : Handler} (idle : handler.Idle) {messages : List Message}
    (accepted : ∀ message ∈ messages, message.accepted env) :
    run step handler (messages.map (Event.handle env)) = some (messages.foldl (next env) handler) := by
  induction messages generalizing handler with
  | nil => rfl
  | cons message rest ih =>
    obtain ⟨first, others⟩ := List.forall_mem_cons.mp accepted
    obtain ⟨after, taken⟩ := step_of_accepted env idle first
    obtain ⟨-, rfl⟩ := step_eq_next env idle taken
    rw [List.map_cons, run, taken, Option.bind_some, ih (next_idle env idle message) others]
    rfl

theorem new_idle : Idle {} := initialConflictSets_find

theorem clear_idle {handler : Handler} (idle : handler.Idle) : handler.clear.Idle := idle

theorem foldl_next_idle {handler : Handler} (idle : handler.Idle) (messages : List Message) :
    (messages.foldl (next env) handler).Idle := by
  induction messages generalizing handler with
  | nil => exact idle
  | cons message rest ih => exact ih (next_idle env idle message)

/-! ### Attribution -/

/-- The file name remembered for a hash; empty when there is none. -/
def fileOf (handler : Handler) (hash : UInt64) : Text := handler.fnameHashToFname[hash]?.getD []

theorem ldsFname_eq (handler : Handler) (message : Message) :
    handler.ldsFname message = if handler.fileOf message.header.dwarfFnameHash = [] then unknownSourceFile
      else handler.fileOf message.header.dwarfFnameHash := rfl

theorem next_fileOf (handler : Handler) (message : Message) (hash : UInt64) :
    (handler.next env message).fileOf hash =
      if message.namesFile env ∧ message.header.dwarfFnameHash = hash then (message.location env).fname
      else handler.fileOf hash := by
  unfold next fileOf
  by_cases names : message.namesFile env
  · rw [if_pos names, recordGlobalAccess]
    dsimp only
    rw [find_insert]
    by_cases same : message.header.dwarfFnameHash = hash
    · rw [if_pos same, if_pos ⟨names, same⟩, Option.getD_some]
    · rw [if_neg same, if_neg fun both => same both.2]
  · have unnamed : ¬(message.namesFile env ∧ message.header.dwarfFnameHash = hash) := fun both => names both.1
    rw [if_neg names, if_neg unnamed]
    split
    · unfold recordLdsAccess
      dsimp only
      rw [find_touch]
      cases handler.fnameHashToFname[hash]? with
      | some fname => rfl
      | none => split <;> rfl
    · rfl

end Handler

/-- The file that the last counted global access with the hash was matched to. -/
def lastFile (messages : List Message) (hash : UInt64) : Option Text :=
  ((messages.filter fun message => message.namesFile env ∧ message.header.dwarfFnameHash = hash).getLast?).map
    fun message => (message.location env).fname

theorem foldl_next_fileOf (messages : List Message) (handler : Handler) (hash : UInt64) :
    (messages.foldl (Handler.next env) handler).fileOf hash =
      (lastFile env messages hash).getD (handler.fileOf hash) := by
  induction messages using List.reverseRecOn with
  | nil => rfl
  | append_singleton messages message ih =>
    rw [List.foldl_append, List.foldl_cons, List.foldl_nil, Handler.next_fileOf, ih, lastFile, lastFile,
      List.filter_append]
    by_cases here : message.namesFile env ∧ message.header.dwarfFnameHash = hash
    · simp [here]
    · rw [if_neg here]
      simp [here]

/-! ### The tables of two handlers -/

namespace Handler

structure SameTables (first second : Handler) : Prop where
  globalAccesses : first.globalAccesses = second.globalAccesses
  ldsAccesses : first.ldsAccesses = second.ldsAccesses

theorem next_sameTables {first second : Handler} {message : Message} (same : SameTables first second)
    (attributed : message.recordsLds env → first.ldsFname message = second.ldsFname message) :
    SameTables (first.next env message) (second.next env message) := by
  obtain ⟨global, lds⟩ := same
  unfold next
  by_cases names : message.namesFile env
  · rw [if_pos names, if_pos names]
    refine ⟨?_, lds⟩
    simp only [recordGlobalAccess, globalAccessesAt, global]
  · rw [if_neg names, if_neg names]
    by_cases records : message.recordsLds env
    · rw [if_pos records, if_pos records]
      refine ⟨global, ?_⟩
      simp only [recordLdsAccess, lds, attributed records]
    · rw [if_neg records, if_neg records]
      exact ⟨global, lds⟩

/-- Every LDS access recorded on the way is attributed alike. -/
def AttributesAlike (first second : Handler) (messages : List Message) : Prop :=
  ∀ before message after, messages = before ++ message :: after → message.recordsLds env →
    (before.foldl (next env) first).ldsFname message = (before.foldl (next env) second).ldsFname message

theorem AttributesAlike.tail {first second : Handler} {message : Message} {rest : List Message}
    (alike : AttributesAlike env first second (message :: rest)) :
    AttributesAlike env (first.next env message) (second.next env message) rest := by
  rintro before other after rfl
  exact alike (message :: before) other after rfl

theorem sameTables_of_alike {first second : Handler} {messages : List Message} (same : SameTables first second)
    (alike : AttributesAlike env first second messages) :
    SameTables (messages.foldl (next env) first) (messages.foldl (next env) second) := by
  induction messages generalizing first second with
  | nil => exact same
  | cons message rest ih => exact ih (next_sameTables env same (alike [] message rest rfl)) (alike.tail env)

end Handler

/-! ### Accesses of unknown files -/

namespace Handler

/-- The accesses of unknown files that are counted at the message's line, column, size and kind. -/
def unknownLike (handler : Handler) (message : Message) : Nat :=
  ldsTotal LdsAccesses.noAccesses (accessesAt handler.ldsAccesses unknownSourceFile message.header.dwarfLine.toUInt16
    message.header.dwarfColumn.toUInt16) message.dataSize message.rwKind

structure SamePlace (first second : Message) : Prop where
  line : first.header.dwarfLine.toUInt16 = second.header.dwarfLine.toUInt16
  column : first.header.dwarfColumn.toUInt16 = second.header.dwarfColumn.toUInt16
  size : first.dataSize = second.dataSize
  rwKind : first.rwKind = second.rwKind

instance (first second : Message) : Decidable (SamePlace first second) :=
  decidable_of_iff (first.header.dwarfLine.toUInt16 = second.header.dwarfLine.toUInt16 ∧
      first.header.dwarfColumn.toUInt16 = second.header.dwarfColumn.toUInt16 ∧
      first.dataSize = second.dataSize ∧ first.rwKind = second.rwKind)
    ⟨fun same => ⟨same.1, same.2.1, same.2.2.1, same.2.2.2⟩,
      fun same => ⟨same.line, same.column, same.size, same.rwKind⟩⟩

theorem next_unknownLike (handler : Handler) (message place : Message) :
    (handler.next env message).unknownLike place = handler.unknownLike place +
      if message.recordsLds env ∧ handler.ldsFname message = unknownSourceFile ∧ SamePlace message place then 1
      else 0 := by
  unfold next
  by_cases names : message.namesFile env
  · have apart : ¬message.recordsLds env := by
      rintro ⟨shared, -⟩
      cases shared.2.symm.trans names.1.2
    rw [if_pos names, if_neg fun all => apart all.1]
    rfl
  · rw [if_neg names]
    by_cases records : message.recordsLds env
    · rw [if_pos records]
      unfold unknownLike recordLdsAccess
      dsimp only
      rw [accessesAt_setAccessesAt]
      by_cases here : handler.ldsFname message = unknownSourceFile ∧
          message.header.dwarfLine.toUInt16 = place.header.dwarfLine.toUInt16 ∧
          message.header.dwarfColumn.toUInt16 = place.header.dwarfColumn.toUInt16
      · obtain ⟨unknown, line, column⟩ := here
        rw [if_pos ⟨unknown, line, column⟩, ldsTotal_record fun _ => rfl, unknown, line, column]
        refine congrArg _ (if_congr ?_ rfl rfl)
        exact ⟨fun kind => ⟨records, rfl, line, column, kind.1, kind.2⟩, fun all => ⟨all.2.2.size, all.2.2.rwKind⟩⟩
      · rw [if_neg here, if_neg, Nat.add_zero]
        rintro ⟨-, unknown, same⟩
        exact here ⟨unknown, same.line, same.column⟩
    · rw [if_neg records, if_neg fun all => records all.1, Nat.add_zero]

/-- Where the two handlers remember different files, the second remembers none. -/
def RemembersMore (first second : Handler) : Prop :=
  ∀ hash, first.fileOf hash = second.fileOf hash ∨ second.fileOf hash = []

theorem RemembersMore.next {first second : Handler} (more : RemembersMore first second) (message : Message) :
    RemembersMore (first.next env message) (second.next env message) := by
  intro hash
  rw [next_fileOf, next_fileOf]
  split
  · exact .inl rfl
  · exact more hash

theorem RemembersMore.unknown {first second : Handler} (more : RemembersMore first second) {message : Message}
    (unknown : first.ldsFname message = unknownSourceFile) : second.ldsFname message = unknownSourceFile := by
  rw [ldsFname_eq] at unknown ⊢
  rcases more message.header.dwarfFnameHash with same | nothing
  · rwa [← same]
  · rw [if_pos nothing]

/-- An access that is attributed differently is attributed to no file by the second handler. -/
theorem RemembersMore.different {first second : Handler} (more : RemembersMore first second) {message : Message}
    (different : first.ldsFname message ≠ second.ldsFname message) :
    second.ldsFname message = unknownSourceFile := by
  rw [ldsFname_eq, ldsFname_eq] at different
  rcases more message.header.dwarfFnameHash with same | nothing
  · exact (different (by rw [same])).elim
  · rw [ldsFname_eq, if_pos nothing]

theorem next_unknownLike_le {first second : Handler} (more : RemembersMore first second) (message place : Message) :
    (first.next env message).unknownLike place + second.unknownLike place ≤
      (second.next env message).unknownLike place + first.unknownLike place := by
  rw [next_unknownLike, next_unknownLike]
  have implies : (message.recordsLds env ∧ first.ldsFname message = unknownSourceFile ∧ SamePlace message place) →
      message.recordsLds env ∧ second.ldsFname message = unknownSourceFile ∧ SamePlace message place :=
    fun all => ⟨all.1, more.unknown all.2.1, all.2.2⟩
  split
  · rename_i all
    rw [if_pos (implies all)]
    omega
  · omega

/-- The first handler never catches up on accesses of unknown files. -/
theorem foldl_unknownLike_le {first second : Handler} (more : RemembersMore first second) (messages : List Message)
    (place : Message) :
    (messages.foldl (Handler.next env) first).unknownLike place + second.unknownLike place ≤
      (messages.foldl (Handler.next env) second).unknownLike place + first.unknownLike place := by
  induction messages generalizing first second with
  | nil => exact (Nat.add_comm _ _).le
  | cons message rest ih =>
    have one := next_unknownLike_le env more message place
    have others := ih (more.next env message)
    simp only [List.foldl_cons]
    omega

theorem foldl_next_remembersMore {first second : Handler} (more : RemembersMore first second)
    (messages : List Message) :
    RemembersMore (messages.foldl (Handler.next env) first) (messages.foldl (Handler.next env) second) := by
  induction messages generalizing first second with
  | nil => exact more
  | cons message rest ih => exact ih (more.next env message)

theorem alike_of_sameTables {first second : Handler} {messages : List Message} (more : RemembersMore first second)
    (start : SameTables first second)
    (same : SameTables (messages.foldl (next env) first) (messages.foldl (next env) second)) :
    AttributesAlike env first second messages := by
  rintro before message after rfl records
  by_contra different
  have moreBefore := foldl_next_remembersMore env more before
  have unknown := moreBefore.different different
  have known : (before.foldl (next env) first).ldsFname message ≠ unknownSourceFile :=
    fun unknown' => different (unknown'.trans unknown.symm)
  have upTo := foldl_unknownLike_le env more before message
  have here : ((before.foldl (next env) first).next env message).unknownLike message + 1 +
      (before.foldl (next env) second).unknownLike message =
      ((before.foldl (next env) second).next env message).unknownLike message +
        (before.foldl (next env) first).unknownLike message := by
    rw [next_unknownLike, next_unknownLike, if_neg fun all => known all.2.1,
      if_pos ⟨records, unknown, ⟨rfl, rfl, rfl, rfl⟩⟩]
    omega
  have onwards := foldl_unknownLike_le env (moreBefore.next env message) after message
  rw [List.foldl_append, List.foldl_append, List.foldl_cons, List.foldl_cons] at same
  have equal : ((after.foldl (next env) ((before.foldl (next env) first).next env message)).unknownLike message) =
      (after.foldl (next env) ((before.foldl (next env) second).next env message)).unknownLike message := by
    unfold unknownLike
    rw [same.ldsAccesses]
  have initially : first.unknownLike message = second.unknownLike message := by
    unfold unknownLike
    rw [start.ldsAccesses]
  omega

end Handler

/-! ### After `clear` -/

/-- No LDS access of `later` depends on `earlier` for its file: a counted global access with its hash
comes before it in `later`, or those in `earlier` left no file name for the hash. -/
def AttributedAlone (earlier later : List Message) : Prop :=
  ∀ before message after, later = before ++ message :: after → message.recordsLds env →
    lastFile env before message.header.dwarfFnameHash = none →
    lastFile env earlier message.header.dwarfFnameHash ∈ [none, some [], some Handler.unknownSourceFile]

namespace Handler

theorem attributesAlike_iff (earlier later : List Message) :
    AttributesAlike env (earlier.foldl (next env) {}).clear {} later ↔ AttributedAlone env earlier later := by
  have attributed : ∀ before message,
      (before.foldl (next env) (earlier.foldl (next env) {}).clear).ldsFname message =
          (before.foldl (next env) {}).ldsFname message ↔
        (lastFile env before message.header.dwarfFnameHash = none →
          lastFile env earlier message.header.dwarfFnameHash ∈ [none, some [], some unknownSourceFile]) := by
    intro before message
    have kept : (earlier.foldl (next env) {}).clear.fileOf message.header.dwarfFnameHash =
        (lastFile env earlier message.header.dwarfFnameHash).getD [] := foldl_next_fileOf env earlier {} _
    have none : fileOf {} message.header.dwarfFnameHash = [] := by simp [fileOf]
    rw [ldsFname_eq, ldsFname_eq, foldl_next_fileOf, foldl_next_fileOf, kept, none]
    cases lastFile env before message.header.dwarfFnameHash with
    | some fname => simp
    | none =>
      cases lastFile env earlier message.header.dwarfFnameHash with
      | none => simp
      | some fname =>
        by_cases empty : fname = [] <;> simp [empty]
  constructor
  · intro alike before message after split records
    exact (attributed before message).mp (alike before message after split records)
  · intro alone before message after split records
    exact (attributed before message).mpr (alone before message after split records)

/-- After `clear` the tables are those of a new handler exactly when no LDS access depends on the
earlier messages for its file. -/
theorem clear_reset_iff {earlier later : List Message} {old fresh : Handler}
    (ranEarlier : run step {} (earlier.map (Event.handle env)) = some old)
    (ranLater : run step {} (later.map (Event.handle env)) = some fresh) :
    (∃ after, run step old.clear (later.map (Event.handle env)) = some after ∧ SameTables after fresh) ↔
      AttributedAlone env earlier later := by
  obtain ⟨-, rfl⟩ := run_eq_foldl_next env new_idle ranEarlier
  obtain ⟨accepted, rfl⟩ := run_eq_foldl_next env new_idle ranLater
  have idle : (earlier.foldl (next env) {}).clear.Idle := clear_idle (foldl_next_idle env new_idle earlier)
  have start : SameTables (earlier.foldl (next env) {}).clear {} := ⟨rfl, rfl⟩
  have more : RemembersMore (earlier.foldl (next env) {}).clear {} := fun hash => .inr (by simp [fileOf])
  rw [run_of_accepted env idle accepted, ← attributesAlike_iff]
  constructor
  · rintro ⟨after, same, tables⟩
    obtain rfl := Option.some.inj same
    exact alike_of_sameTables env more start tables
  · intro alike
    exact ⟨_, rfl, sameTables_of_alike env start alike⟩

end Handler

end

end Omniprobe.Memory
