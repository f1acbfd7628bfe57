import Omniprobe.Memory.BankConflicts

/-!
# Cache line counts

Each global-memory message that is not dropped adds to one entry: that of its source location, its
sizes and its kind. The entries are the totals of these groups of messages, in whatever order the
messages came.
-/

namespace Omniprobe.Memory
open Lib Std

/-! ### What a message contributes -/

@[ext]
structure Location where
  fname : Text
  line : UInt16
  column : UInt16
  deriving DecidableEq, Repr

structure AccessKind where
  irAccessSize : UInt16
  isaAccessSize : UInt16
  rwKind : UInt8
  deriving DecidableEq, Repr

def GlobalAccesses.kind (access : GlobalAccesses) : AccessKind :=
  ⟨access.irAccessSize, access.isaAccessSize, access.rwKind⟩

section
variable (env : Env)

namespace Message

def isGlobal (message : Message) : Prop :=
  env.isAddress message.header.userType = true ∧ env.addressSpace message.mspace = .global

/-- The size of the ISA access replaces that of the IR access. -/
def corrected (message : Message) : Prop :=
  (getDwarfInfo env message).accessSize ≠ 0 ∧ (getDwarfInfo env message).accessSize ≠ message.dataSize

instance (message : Message) : Decidable (message.corrected env) := inferInstanceAs (Decidable (_ ∧ _))

def measuredSize (message : Message) : UInt16 :=
  if message.corrected env then (getDwarfInfo env message).accessSize else message.dataSize

def linesNeeded (message : Message) : Nat :=
  minCacheLines (message.measuredSize env) (env.l2CacheLineSize message.header.arch) message.dataItems.length

def linesUsed (message : Message) : Nat :=
  (cacheLines (message.measuredSize env) (env.l2CacheLineSize message.header.arch) message.dataItems).card

def unsupported (message : Message) : Prop := env.l2CacheLineSize message.header.arch = 0

def withoutInstruction (message : Message) : Prop := (getDwarfInfo env message).accessSize = 0xffff

def combined (message : Message) : Prop :=
  message.corrected env ∧ message.linesUsed env = message.linesNeeded env + 1

/-- Unsupported architecture, no ISA instruction for the line, or the size-correction heuristic. -/
def dropped (message : Message) : Prop :=
  message.unsupported env ∨ message.withoutInstruction env ∨ message.combined env

instance (message : Message) : Decidable (message.combined env) := inferInstanceAs (Decidable (_ ∧ _))

instance (message : Message) : Decidable (message.withoutInstruction env) := inferInstanceAs (Decidable (_ = _))

instance (message : Message) : Decidable (message.dropped env) :=
  inferInstanceAs (Decidable (env.l2CacheLineSize message.header.arch = 0 ∨ _ ∨ _))

def location (message : Message) : Location :=
  ⟨(getDwarfInfo env message).fname, message.header.dwarfLine.toUInt16, message.header.dwarfColumn.toUInt16⟩

def kind (message : Message) : AccessKind :=
  ⟨message.dataSize, (getDwarfInfo env message).accessSize, message.rwKind⟩

def access (message : Message) : GlobalAccesses :=
  ⟨1, message.dataSize, (getDwarfInfo env message).accessSize, message.rwKind,
    (getDwarfInfo env message).isaInstruction, message.linesNeeded env, message.linesUsed env⟩

end Message

end

namespace Handler

def globalAccessesAt (handler : Handler) (location : Location) : List GlobalAccesses :=
  accessesAt handler.globalAccesses location.fname location.line location.column

/-- The entry of a message that is not dropped, and the file name remembered for its hash. -/
def recordGlobalAccess (env : Env) (handler : Handler) (message : Message) : Handler :=
  { handler with
    globalAccesses := setAccessesAt handler.globalAccesses (message.location env).fname (message.location env).line
      (message.location env).column
      (record (message.access env).sameKind (message.access env).merge (message.access env)
        (handler.globalAccessesAt (message.location env)))
    fnameHashToFname :=
      handler.fnameHashToFname.insert message.header.dwarfFnameHash (message.location env).fname }

theorem handleCacheLineCountAnalysis_eq (env : Env) (handler : Handler) (message : Message) :
    (handler.handleCacheLineCountAnalysis env message).1 =
      if message.dropped env then handler else handler.recordGlobalAccess env message := by
  have branches : handler.handleCacheLineCountAnalysis env message =
      if env.l2CacheLineSize message.header.arch = 0 then (handler, false)
      else if message.withoutInstruction env then (handler, true)
      else if message.combined env then (handler, true)
      else (handler.recordGlobalAccess env message, true) := rfl
  rw [branches]
  split
  · rename_i unsupported
    rw [if_pos (.inl unsupported)]
  split
  · rename_i missing
    rw [if_pos (.inr (.inl missing))]
  split
  · rename_i combined
    rw [if_pos (.inr (.inr combined))]
  · rename_i supported found separate
    rw [if_neg]
    rintro (unsupported | missing | combined)
    · exact supported unsupported
    · exact found missing
    · exact separate combined

theorem recordGlobalAccess_at (env : Env) (handler : Handler) (message : Message) (location : Location) :
    (handler.recordGlobalAccess env message).globalAccessesAt location =
      if message.location env = location then
        record (message.access env).sameKind (message.access env).merge (message.access env)
          (handler.globalAccessesAt location)
      else handler.globalAccessesAt location := by
  unfold recordGlobalAccess
  rw [globalAccessesAt, accessesAt_setAccessesAt]
  by_cases here : message.location env = location
  · subst here
    rw [if_pos ⟨rfl, rfl, rfl⟩, if_pos rfl]
  · rw [if_neg, if_neg here]
    · rfl
    · rintro ⟨file, line, column⟩
      exact here (Location.ext file line column)

end Handler

/-! ### Entries by kind -/

theorem GlobalAccesses.sameKind_iff (current access : GlobalAccesses) :
    current.sameKind access = true ↔ access.kind = current.kind := by
  simp [GlobalAccesses.sameKind, GlobalAccesses.kind, and_assoc]

theorem GlobalAccesses.merge_kind (current access : GlobalAccesses) : (current.merge access).kind = access.kind :=
  rfl

/-- The entry of one kind among those of a location. -/
def entryOf (kind : AccessKind) (accesses : List GlobalAccesses) : Option GlobalAccesses :=
  accesses.find? fun access => access.kind = kind

theorem entryOf_record (current : GlobalAccesses) (accesses : List GlobalAccesses) (kind : AccessKind) :
    entryOf kind (record current.sameKind current.merge current accesses) =
      if current.kind = kind then some ((entryOf kind accesses).elim current current.merge)
      else entryOf kind accesses := by
  unfold entryOf
  induction accesses with
  | nil =>
    rw [record, List.find?_cons]
    by_cases same : current.kind = kind <;> simp [same]
  | cons access rest ih =>
    unfold record
    split
    · rename_i matching
      have same := (current.sameKind_iff access).mp matching
      rw [List.find?_cons, List.find?_cons, GlobalAccesses.merge_kind, same]
      by_cases here : current.kind = kind <;> simp [here]
    · rename_i differs
      have other : access.kind ≠ current.kind := fun same => differs ((current.sameKind_iff access).mpr same)
      rw [List.find?_cons, List.find?_cons, ih]
      by_cases here : access.kind = kind
      · have elsewhere : current.kind ≠ kind := fun same => other (here.trans same.symm)
        simp [here, elsewhere]
      · simp [here]

theorem record_kinds (current : GlobalAccesses) (accesses : List GlobalAccesses) :
    (record current.sameKind current.merge current accesses).map GlobalAccesses.kind =
      if current.kind ∈ accesses.map GlobalAccesses.kind then accesses.map GlobalAccesses.kind
      else accesses.map GlobalAccesses.kind ++ [current.kind] := by
  induction accesses with
  | nil => simp [record]
  | cons access rest ih =>
    unfold record
    split
    · rename_i matching
      have same := (current.sameKind_iff access).mp matching
      simp [GlobalAccesses.merge_kind, same]
    · rename_i differs
      have other : current.kind ≠ access.kind := fun same => differs ((current.sameKind_iff access).mpr same.symm)
      rw [List.map_cons, ih, List.map_cons]
      by_cases later : current.kind ∈ rest.map GlobalAccesses.kind
      · rw [if_pos later, if_pos (List.mem_cons_of_mem _ later)]
      · rw [if_neg later, if_neg (List.not_mem_cons_of_ne_of_not_mem other later), List.cons_append]

/-- At most one entry of a kind. -/
def OnePerKind (accesses : List GlobalAccesses) : Prop := (accesses.map GlobalAccesses.kind).Nodup

theorem OnePerKind.record {accesses : List GlobalAccesses} (one : OnePerKind accesses) (current : GlobalAccesses) :
    OnePerKind (Memory.record current.sameKind current.merge current accesses) := by
  unfold OnePerKind at one ⊢
  rw [record_kinds]
  split
  · exact one
  · rename_i new
    rw [List.nodup_append]
    refine ⟨one, List.nodup_singleton _, ?_⟩
    intro kind member other single same
    rw [List.mem_singleton] at single
    exact new (single ▸ same ▸ member)

theorem OnePerKind.mem_iff {accesses : List GlobalAccesses} (one : OnePerKind accesses) (access : GlobalAccesses) :
    access ∈ accesses ↔ entryOf access.kind accesses = some access := by
  unfold entryOf
  constructor
  · intro member
    induction accesses with
    | nil => cases member
    | cons first rest ih =>
      obtain ⟨apart, one⟩ := List.nodup_cons.mp one
      rcases List.mem_cons.mp member with rfl | later
      · simp
      · have different : first.kind ≠ access.kind := fun same => apart (same ▸ List.mem_map_of_mem later)
        rw [List.find?_cons]
        simp only [different, decide_false]
        exact ih one later
  · exact List.mem_of_find?_eq_some

/-! ### Totals -/

section
variable (env : Env)

/-- The messages of a sequence that an entry accumulates. -/
def accumulated (messages : List Message) (location : Location) (kind : AccessKind) : List Message :=
  messages.filter fun message =>
    ¬message.dropped env ∧ message.location env = location ∧ message.kind env = kind

def total (messages : List Message) : Option GlobalAccesses :=
  messages.head?.map fun first =>
    { first.access env with
      noAccesses := messages.length
      minCacheLinesNeeded := (messages.map (·.linesNeeded env)).sum
      noCacheLinesUsed := (messages.map (·.linesUsed env)).sum }

theorem total_append_singleton (messages : List Message) (message : Message) :
    total env (messages ++ [message]) =
      some ((total env messages).elim (message.access env) (message.access env).merge) := by
  cases messages with
  | nil => simp [total, Message.access]
  | cons first rest =>
    simp [total, Message.access, GlobalAccesses.merge, Nat.add_assoc]

namespace Handler

/-- The messages of a sequence through the cache line analysis, one after the other. -/
def countCacheLines (handler : Handler) (messages : List Message) : Handler :=
  messages.foldl (fun handler message => (handler.handleCacheLineCountAnalysis env message).1) handler

theorem run_eq_countCacheLines {messages : List Message} (global : ∀ message ∈ messages, message.isGlobal env)
    (handler : Handler) :
    run step handler (messages.map (Event.handle env)) = some (handler.countCacheLines env messages) := by
  induction messages generalizing handler with
  | nil => rfl
  | cons message rest ih =>
    obtain ⟨isAddress, space⟩ := global message List.mem_cons_self
    have taken : step handler (.handle env message) =
        some (handler.handleCacheLineCountAnalysis env message).1 := by
      rw [step, handle, if_pos isAddress, space, Option.map_some]
    rw [List.map_cons, run, taken, Option.bind_some,
      ih fun other member => global other (List.mem_cons_of_mem _ member)]
    rfl

theorem countCacheLines_append_singleton (handler : Handler) (messages : List Message) (message : Message) :
    handler.countCacheLines env (messages ++ [message]) =
      ((handler.countCacheLines env messages).handleCacheLineCountAnalysis env message).1 := by
  rw [countCacheLines, List.foldl_append, List.foldl_cons, List.foldl_nil]
  rfl

theorem empty_globalAccessesAt (location : Location) : globalAccessesAt {} location = [] := by
  simp [globalAccessesAt, accessesAt, find₂_empty]

theorem countCacheLines_onePerKind (messages : List Message) (location : Location) :
    OnePerKind ((countCacheLines env {} messages).globalAccessesAt location) := by
  induction messages using List.reverseRecOn with
  | nil =>
    rw [countCacheLines, List.foldl_nil, empty_globalAccessesAt]
    exact List.nodup_nil
  | append_singleton messages message ih =>
    rw [countCacheLines_append_singleton, handleCacheLineCountAnalysis_eq]
    split
    · exact ih
    · rw [recordGlobalAccess_at]
      split
      · exact ih.record _
      · exact ih

theorem countCacheLines_entryOf (messages : List Message) (location : Location) (kind : AccessKind) :
    entryOf kind ((countCacheLines env {} messages).globalAccessesAt location) =
      total env (accumulated env messages location kind) := by
  induction messages using List.reverseRecOn with
  | nil =>
    rw [countCacheLines, List.foldl_nil, empty_globalAccessesAt]
    rfl
  | append_singleton messages message ih =>
    rw [countCacheLines_append_singleton, handleCacheLineCountAnalysis_eq, accumulated, List.filter_append,
      ← accumulated]
    by_cases dropped : message.dropped env
    · rw [if_pos dropped, ih]
      simp [dropped]
    · rw [if_neg dropped, recordGlobalAccess_at]
      by_cases here : message.location env = location
      · rw [if_pos here, entryOf_record, ih]
        by_cases same : message.kind env = kind
        · have accessKind : (message.access env).kind = kind := same
          rw [if_pos accessKind, ← total_append_singleton]
          simp [dropped, here, same]
        · have accessKind : (message.access env).kind ≠ kind := same
          rw [if_neg accessKind]
          simp [same]
      · rw [if_neg here, ih]
        simp [here]

end Handler

/-! ### The ISA instruction of an entry -/

theorem instrSizeMap_sizes {name : Text} {size : UInt16} {access : AccessType} {text : Text}
    (found : instrSizeMap.find? (·.1 = text) = some (name, size, access)) : size ≠ 0 := by
  have nonzero : instrSizeMap.all (fun entry => entry.2.1 != 0) = true := by decide
  have entry := List.all_eq_true.mp nonzero _ (List.mem_of_find?_eq_some found)
  simpa using entry

theorem matchInstruction_cases {message : Message} {instructions : List Instruction} {info : DwarfInfo}
    (matched : matchInstruction env message instructions = some info) :
    info = {} ∨ (info.accessSize ≠ 0 ∧ env.hash info.fname = message.header.dwarfFnameHash) := by
  induction instructions with
  | nil => exact .inl (Option.some.inj matched).symm
  | cons instruction rest ih =>
    rw [matchInstruction] at matched
    split at matched
    · cases matched
    split at matched
    · rename_i here
      split at matched
      · rename_i found
        split at matched
        · obtain rfl := Option.some.inj matched
          exact .inr ⟨instrSizeMap_sizes found, here.1⟩
        · exact ih matched
      · exact ih matched
    · exact ih matched

theorem getDwarfInfo_cases (message : Message) :
    getDwarfInfo env message = {} ∨ (getDwarfInfo env message).accessSize = 0xffff ∨
      ((getDwarfInfo env message).accessSize ≠ 0 ∧
        env.hash (getDwarfInfo env message).fname = message.header.dwarfFnameHash) := by
  unfold getDwarfInfo
  split
  · cases matched : (env.instructionsForLine message.header.dwarfLine).bind (matchInstruction env message) with
    | none => exact .inr (.inl rfl)
    | some info =>
      obtain ⟨instructions, -, matched⟩ := Option.bind_eq_some_iff.mp matched
      rcases matchInstruction_cases env matched with nothing | found
      · exact .inl nothing
      · exact .inr (.inr found)
  · exact .inl rfl

/-- Messages of the same source position and kind are looked up alike. -/
structure SamePosition (first second : Message) : Prop where
  hash : first.header.dwarfFnameHash = second.header.dwarfFnameHash
  line : first.header.dwarfLine = second.header.dwarfLine
  column : first.header.dwarfColumn = second.header.dwarfColumn
  rwKind : first.rwKind = second.rwKind

theorem SamePosition.matchInstruction {first second : Message} (same : SamePosition first second)
    (instructions : List Instruction) :
    Memory.matchInstruction env first instructions = Memory.matchInstruction env second instructions := by
  induction instructions with
  | nil => rfl
  | cons instruction rest ih =>
    simp only [Memory.matchInstruction, same.hash, same.line, same.column, same.rwKind, ih]

theorem SamePosition.getDwarfInfo {first second : Message} (same : SamePosition first second) :
    Memory.getDwarfInfo env first = Memory.getDwarfInfo env second := by
  have matching : Memory.matchInstruction env first = Memory.matchInstruction env second :=
    funext fun instructions => same.matchInstruction env instructions
  simp only [Memory.getDwarfInfo, same.line, matching]

theorem isaInstruction_eq {first second : Message} (kept : ¬first.dropped env) (kept' : ¬second.dropped env)
    (file : (getDwarfInfo env first).fname = (getDwarfInfo env second).fname)
    (line : first.header.dwarfLine = second.header.dwarfLine)
    (column : first.header.dwarfColumn = second.header.dwarfColumn) (kind : first.kind env = second.kind env) :
    (getDwarfInfo env first).isaInstruction = (getDwarfInfo env second).isaInstruction := by
  have size : (getDwarfInfo env first).accessSize = (getDwarfInfo env second).accessSize :=
    congrArg AccessKind.isaAccessSize kind
  rcases getDwarfInfo_cases env first with none | missing | ⟨found, hash⟩ <;>
    rcases getDwarfInfo_cases env second with none' | missing' | ⟨found', hash'⟩
  · rw [none, none']
  · exact (kept' (.inr (.inl missing'))).elim
  · rw [none] at size
    exact (found' size.symm).elim
  · exact (kept (.inr (.inl missing))).elim
  · exact (kept (.inr (.inl missing))).elim
  · exact (kept (.inr (.inl missing))).elim
  · rw [none'] at size
    exact (found size).elim
  · exact (kept' (.inr (.inl missing'))).elim
  · have same : SamePosition first second :=
      ⟨by rw [← hash, ← hash', file], line, column, congrArg AccessKind.rwKind kind⟩
    rw [same.getDwarfInfo]

/-! ### The entries as totals -/

/-- The lines and columns of a message fit the keys of the table. -/
def InRange (message : Message) : Prop :=
  message.header.dwarfLine.toNat < 65536 ∧ message.header.dwarfColumn.toNat < 65536

theorem toUInt16_eq_iff {number : UInt32} (small : number.toNat < 65536) (key : UInt16) :
    number.toUInt16 = key ↔ number.toNat = key.toNat := by
  rw [← UInt16.toNat_inj, UInt32.toNat_toUInt16, Nat.mod_eq_of_lt small]

/-- The messages of a sequence with the given source position, sizes and kind that were not dropped. -/
def keptAt (messages : List Message) (fname : Text) (line column : Nat) (kind : AccessKind) : List Message :=
  messages.filter fun message =>
    ¬message.dropped env ∧ (getDwarfInfo env message).fname = fname ∧ message.header.dwarfLine.toNat = line ∧
      message.header.dwarfColumn.toNat = column ∧ message.kind env = kind

theorem accumulated_eq_keptAt {messages : List Message} (small : ∀ message ∈ messages, InRange message)
    (location : Location) (kind : AccessKind) :
    accumulated env messages location kind =
      keptAt env messages location.fname location.line.toNat location.column.toNat kind := by
  refine List.filter_congr fun message member => ?_
  obtain ⟨line, column⟩ := small message member
  have place : message.location env = location ↔ (getDwarfInfo env message).fname = location.fname ∧
      message.header.dwarfLine.toNat = location.line.toNat ∧
      message.header.dwarfColumn.toNat = location.column.toNat := by
    rw [Location.ext_iff, ← toUInt16_eq_iff line, ← toUInt16_eq_iff column]
    rfl
  simp only [place, and_assoc]

/-- `access` counts and sums over exactly the given messages, of which there is at least one. -/
structure TotalOf (messages : List Message) (access : GlobalAccesses) : Prop where
  nonempty : messages ≠ []
  noAccesses : access.noAccesses = messages.length
  minCacheLinesNeeded : access.minCacheLinesNeeded = (messages.map (·.linesNeeded env)).sum
  noCacheLinesUsed : access.noCacheLinesUsed = (messages.map (·.linesUsed env)).sum
  isaInstruction : ∀ message ∈ messages, access.isaInstruction = (getDwarfInfo env message).isaInstruction

theorem total_keptAt_iff (messages : List Message) (fname : Text) (line column : Nat) (access : GlobalAccesses) :
    total env (keptAt env messages fname line column access.kind) = some access ↔
      TotalOf env (keptAt env messages fname line column access.kind) access := by
  have inGroup : ∀ message ∈ keptAt env messages fname line column access.kind, ¬message.dropped env ∧
      (getDwarfInfo env message).fname = fname ∧ message.header.dwarfLine.toNat = line ∧
      message.header.dwarfColumn.toNat = column ∧ message.kind env = access.kind := by
    intro message member
    simpa using (List.mem_filter.mp member).2
  generalize keptAt env messages fname line column access.kind = group at inGroup ⊢
  constructor
  · intro found
    cases group with
    | nil => cases found
    | cons first rest =>
      obtain rfl := Option.some.inj found
      refine ⟨List.cons_ne_nil _ _, rfl, rfl, rfl, ?_⟩
      intro message member
      obtain ⟨kept, file, atLine, atColumn, kind⟩ := inGroup first List.mem_cons_self
      obtain ⟨kept', file', atLine', atColumn', kind'⟩ := inGroup message member
      exact isaInstruction_eq env kept kept' (file.trans file'.symm)
        (UInt32.toNat_inj.mp (atLine.trans atLine'.symm)) (UInt32.toNat_inj.mp (atColumn.trans atColumn'.symm))
        (kind.trans kind'.symm)
  · rintro ⟨nonempty, noAccesses, needed, used, instruction⟩
    cases group with
    | nil => exact (nonempty rfl).elim
    | cons first rest =>
      obtain ⟨-, -, -, -, kind⟩ := inGroup first List.mem_cons_self
      have text := instruction first List.mem_cons_self
      obtain ⟨count, ir, isa, rw', inst, min, lines⟩ := access
      simp only [Message.kind, GlobalAccesses.kind, AccessKind.mk.injEq] at kind
      obtain ⟨rfl, rfl, rfl⟩ := kind
      simp only at noAccesses needed used text
      rw [noAccesses, needed, used, text]
      rfl

theorem TotalOf.perm {group group' : List Message} {access : GlobalAccesses} (same : group.Perm group')
    (totals : TotalOf env group access) : TotalOf env group' access where
  nonempty := fun empty => totals.nonempty (List.Perm.eq_nil (empty ▸ same))
  noAccesses := totals.noAccesses.trans same.length_eq
  minCacheLinesNeeded := totals.minCacheLinesNeeded.trans (same.map _).sum_eq
  noCacheLinesUsed := totals.noCacheLinesUsed.trans (same.map _).sum_eq
  isaInstruction := fun message member => totals.isaInstruction message (same.mem_iff.mpr member)

namespace Handler

theorem mem_globalAccessesAt_iff {messages : List Message} (small : ∀ message ∈ messages, InRange message)
    (location : Location) (access : GlobalAccesses) :
    access ∈ (countCacheLines env {} messages).globalAccessesAt location ↔
      TotalOf env (keptAt env messages location.fname location.line.toNat location.column.toNat access.kind) access := by
  rw [(countCacheLines_onePerKind env messages location).mem_iff, countCacheLines_entryOf,
    accumulated_eq_keptAt env small, total_keptAt_iff]

theorem countCacheLines_perm {messages messages' : List Message} (small : ∀ message ∈ messages, InRange message)
    (same : messages.Perm messages') (location : Location) :
    ((countCacheLines env {} messages).globalAccessesAt location).Perm
      ((countCacheLines env {} messages').globalAccessesAt location) := by
  have small' : ∀ message ∈ messages', InRange message :=
    fun message member => small message (same.mem_iff.mpr member)
  have one := List.Nodup.of_map _ (countCacheLines_onePerKind env messages location)
  have one' := List.Nodup.of_map _ (countCacheLines_onePerKind env messages' location)
  rw [List.perm_ext_iff_of_nodup one one']
  intro access
  rw [mem_globalAccessesAt_iff env small, mem_globalAccessesAt_iff env small']
  have groups : ∀ fname line column kind,
      (keptAt env messages fname line column kind).Perm (keptAt env messages' fname line column kind) :=
    fun fname line column kind => same.filter _
  exact ⟨TotalOf.perm env (groups ..), TotalOf.perm env (groups ..).symm⟩

/-- The entries are an exact fold of the messages that does not depend on their order. -/
theorem globalAccesses_exact_fold {messages : List Message} (global : ∀ message ∈ messages, message.isGlobal env)
    (small : ∀ message ∈ messages, InRange message) :
    ∃ handler, run step {} (messages.map (Event.handle env)) = some handler ∧
      (∀ location, ((handler.globalAccessesAt location).map GlobalAccesses.kind).Nodup) ∧
      (∀ location access, access ∈ handler.globalAccessesAt location ↔
        TotalOf env (keptAt env messages location.fname location.line.toNat location.column.toNat access.kind)
          access) ∧
      ∀ messages', messages.Perm messages' →
        ∃ handler', run step {} (messages'.map (Event.handle env)) = some handler' ∧
          ∀ location, (handler.globalAccessesAt location).Perm (handler'.globalAccessesAt location) := by
  refine ⟨_, run_eq_countCacheLines env global _, countCacheLines_onePerKind env messages,
    mem_globalAccessesAt_iff env small, ?_⟩
  intro messages' same
  have global' : ∀ message ∈ messages', message.isGlobal env :=
    fun message member => global message (same.mem_iff.mpr member)
  exact ⟨_, run_eq_countCacheLines env global' _, countCacheLines_perm env small same⟩

end Handler

end

namespace Handler.Sample

/-- Two lanes read a dword each, both on one line. -/
def dense : Message := ⟨⟨1, 0b100_0001_01, 0b11, 0, 7, 10, 4⟩, [0, 4]⟩

/-- Two lanes read a dword each, on lines of their own. -/
def strided : Message := ⟨⟨1, 0b100_0001_01, 0b11, 0, 7, 10, 4⟩, [0, 128]⟩

theorem global : ∀ message ∈ [dense, strided], message.isGlobal env :=
  List.forall_mem_cons.mpr ⟨⟨by decide, by decide⟩, List.forall_mem_singleton.mpr ⟨by decide, by decide⟩⟩

theorem inRange : ∀ message ∈ [dense, strided], InRange message :=
  List.forall_mem_cons.mpr ⟨⟨by decide, by decide⟩, List.forall_mem_singleton.mpr ⟨by decide, by decide⟩⟩

/-- A load of line 10 is all that `kernelDB` has, and it throws for other lines. -/
def located : Env :=
  { env with
    hasKdb := true
    instructionsForLine := fun line =>
      if line = 10 then some [⟨"global_load_dword".toList, "a.hip".toList, 10, 4⟩] else none
    hash := fun _ => 7 }

/-- Two lanes read a byte each, for which the instruction loads a dword. -/
def narrow : Message := ⟨⟨1, 0b1_0001_01, 0b11, 0, 7, 10, 4⟩, [0, 4]⟩

/-- As `narrow`, but on one line more than needed. -/
def torn : Message := { narrow with dataItems := [0, 128] }

def missing : Message := { dense with header := { dense.header with dwarfLine := 11 } }

def mixed : List Message := [dense, torn, missing, narrow, strided]

theorem mixed_global : ∀ message ∈ mixed, message.isGlobal located := by
  unfold Message.isGlobal
  decide

theorem mixed_inRange : ∀ message ∈ mixed, InRange message := by
  unfold InRange
  decide

end Handler.Sample

/-- Of five messages two are counted in one entry, one in an entry with a corrected size, and two are dropped. -/
theorem Handler.globalAccesses_exact_sample :
    ∃ handler, run step {} (Sample.mixed.map (Event.handle Sample.located)) = some handler ∧
      ⟨2, 4, 4, 1, "global_load_dword".toList, 2, 3⟩ ∈ handler.globalAccessesAt ⟨"a.hip".toList, 10, 4⟩ ∧
      ⟨1, 1, 4, 1, "global_load_dword".toList, 1, 1⟩ ∈ handler.globalAccessesAt ⟨"a.hip".toList, 10, 4⟩ := by
  obtain ⟨handler, ran, -, entries, -⟩ :=
    globalAccesses_exact_fold Sample.located Sample.mixed_global Sample.mixed_inRange
  have same : keptAt Sample.located Sample.mixed "a.hip".toList 10 4 ⟨4, 4, 1⟩ = [Sample.dense, Sample.strided] := by
    decide +kernel
  have corrected : keptAt Sample.located Sample.mixed "a.hip".toList 10 4 ⟨1, 4, 1⟩ = [Sample.narrow] := by
    decide +kernel
  have two : TotalOf Sample.located [Sample.dense, Sample.strided] ⟨2, 4, 4, 1, "global_load_dword".toList, 2, 3⟩ :=
    ⟨List.cons_ne_nil _ _, rfl, by decide +kernel, by decide +kernel, by decide +kernel⟩
  have one : TotalOf Sample.located [Sample.narrow] ⟨1, 1, 4, 1, "global_load_dword".toList, 1, 1⟩ :=
    ⟨List.cons_ne_nil _ _, rfl, by decide +kernel, by decide +kernel, by decide +kernel⟩
  rw [← same] at two
  rw [← corrected] at one
  exact ⟨handler, ran, (entries ..).mpr two, (entries ..).mpr one⟩

end Omniprobe.Memory
