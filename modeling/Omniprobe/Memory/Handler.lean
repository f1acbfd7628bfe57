import Omniprobe.Lib.Maps
import Omniprobe.Lib.Text

/-!
# The memory analysis handler

`memory_analysis_handler_t`: address messages from the instrumented kernel are counted per source
location, cache lines for global memory and bank conflicts for LDS. The texts it prints when it is
verbose are left out.
-/

namespace Omniprobe.Memory
open Lib

/-! ### Messages -/

inductive AddressSpace where
  | flat | global | gds | shared | constant | scratch | undefined | other
  deriving DecidableEq, Repr

structure WaveHeader where
  userType : UInt32
  userData : UInt32
  exec : UInt64
  arch : UInt32
  dwarfFnameHash : UInt64
  dwarfLine : UInt32
  dwarfColumn : UInt32
  deriving DecidableEq, Repr

/-- `message_t` with data items of eight bytes, the lanes' addresses. -/
structure Message where
  header : WaveHeader
  dataItems : List UInt64
  deriving DecidableEq, Repr

def Message.rwKind (message : Message) : UInt8 := (message.header.userData &&& 0b11).toUInt8

def Message.mspace (message : Message) : UInt8 := ((message.header.userData >>> 2) &&& 0xf).toUInt8

def Message.dataSize (message : Message) : UInt16 := ((message.header.userData >>> 6) &&& 0xffff).toUInt16

/-- An ISA instruction that `kernelDB` lists for a source line. `fileName` is `getFileName` of its
path; `none` where that throws. -/
structure Instruction where
  inst : Text
  fileName : Option Text
  line : UInt32
  column : UInt32
  deriving DecidableEq, Repr

/-- What `dh_comms`, `kernelDB` and the standard library answer. -/
structure Env where
  isAddress : UInt32 → Bool
  addressSpace : UInt8 → AddressSpace
  readKind : UInt8
  writeKind : UInt8
  laneIdsOfActiveLanes : WaveHeader → List Nat
  l2CacheLineSize : UInt32 → UInt8
  hasKdb : Bool
  /-- `getInstructionsForLine(kernel, line)`; `none` where it throws. -/
  instructionsForLine : UInt32 → Option (List Instruction)
  hash : Text → UInt64

/-! ### Conflict sets -/

def noBanks : Nat := 32

/-- `conflict_set`. A `std::set` whose order is not used is a `Finset`. -/
structure ConflictSet where
  lanes : Finset Nat
  banks : Nat → Finset Nat

/-- The constructor, from pairs of a first lane and the lane after the last. -/
def ConflictSet.ofPairs (pairs : List (Nat × Nat)) : ConflictSet where
  lanes := (pairs.flatMap fun pair => List.range' pair.1 (pair.2 - pair.1)).toFinset
  banks _ := ∅

namespace ConflictSet

/-- `register_access`; `none` where it returns false. -/
def registerAccess (set : ConflictSet) (lane : Nat) (address : UInt64) : Option ConflictSet :=
  if lane ∈ set.lanes then
    let dword := address.toNat / 4
    let bank := dword % noBanks
    some { set with banks := fun b => if b = bank then insert dword (set.banks b) else set.banks b }
  else none

def bankConflictCount (set : ConflictSet) : Nat :=
  (List.range noBanks).foldl (fun most bank => max most (set.banks bank).card) 1 - 1

def clear (set : ConflictSet) : ConflictSet := { set with banks := fun _ => ∅ }

end ConflictSet

def conflictPairs : List (Nat × List (List (Nat × Nat))) :=
  [(1, [[(0, 32)], [(32, 64)]]),
    (2, [[(0, 32)], [(32, 64)]]),
    (4, [[(0, 32)], [(32, 64)]]),
    (8, [[(0, 16)], [(16, 32)], [(32, 48)], [(48, 64)]]),
    (16, [[(0, 4), (20, 24)], [(4, 8), (16, 20)], [(8, 12), (28, 32)], [(12, 16), (24, 28)],
      [(32, 36), (52, 56)], [(36, 40), (48, 52)], [(40, 44), (60, 64)], [(44, 48), (56, 60)]])]

def initialConflictSets : Map Nat (List ConflictSet) :=
  conflictPairs.foldl (fun sets entry => sets.insert entry.1 (entry.2.map ConflictSet.ofPairs)) ∅

/-- The inner loop of the analysis: the first set that has the lane registers the access. -/
def registerFirst (lane : Nat) (address : UInt64) : List ConflictSet → List ConflictSet
  | [] => []
  | set :: rest =>
    match set.registerAccess lane address with
    | some registered => registered :: rest
    | none => set :: registerFirst lane address rest

/-- Both loops over the lanes and their addresses; `none` where an address is not aligned. -/
def registerAll (dataSize : Nat) : List (Nat × UInt64) → List ConflictSet → Option (List ConflictSet)
  | [], sets => some sets
  | (lane, address) :: rest, sets =>
    if address.toNat % dataSize = 0 then registerAll dataSize rest (registerFirst lane address sets) else none

/-! ### Accesses -/

structure LdsAccesses where
  noAccesses : Nat
  irAccessSize : UInt16
  isaAccessSize : UInt16
  rwKind : UInt8
  isaInstruction : Text
  noBankConflicts : Nat
  deriving DecidableEq, Repr

structure GlobalAccesses where
  noAccesses : Nat
  irAccessSize : UInt16
  isaAccessSize : UInt16
  rwKind : UInt8
  isaInstruction : Text
  minCacheLinesNeeded : Nat
  noCacheLinesUsed : Nat
  deriving DecidableEq, Repr

def LdsAccesses.sameKind (current access : LdsAccesses) : Bool :=
  access.irAccessSize == current.irAccessSize && access.isaAccessSize == current.isaAccessSize &&
    access.rwKind == current.rwKind

def GlobalAccesses.sameKind (current access : GlobalAccesses) : Bool :=
  access.irAccessSize == current.irAccessSize && access.isaAccessSize == current.isaAccessSize &&
    access.rwKind == current.rwKind

def LdsAccesses.merge (current access : LdsAccesses) : LdsAccesses :=
  { access with
    noAccesses := access.noAccesses + 1
    noBankConflicts := access.noBankConflicts + current.noBankConflicts }

def GlobalAccesses.merge (current access : GlobalAccesses) : GlobalAccesses :=
  { access with
    noAccesses := access.noAccesses + 1
    minCacheLinesNeeded := access.minCacheLinesNeeded + current.minCacheLinesNeeded
    noCacheLinesUsed := access.noCacheLinesUsed + current.noCacheLinesUsed }

/-- The first entry that `matching` accepts is merged with the new one, or the new one is appended. -/
def record {α : Type} (matching : α → Bool) (merge : α → α) (current : α) : List α → List α
  | [] => [current]
  | access :: rest =>
    if matching access then merge access :: rest else access :: record matching merge current rest

/-- `file_line_col_access_t`: accesses by file, line and column. The keys for lines and columns have
16 bits. -/
abbrev FileLineColAccess (α : Type) := Map Text (Map₂ UInt16 UInt16 (List α))

def accessesAt {α : Type} (accesses : FileLineColAccess α) (fname : Text) (line column : UInt16) : List α :=
  (find₂ (accesses[fname]?.getD ∅) line column).getD []

def setAccessesAt {α : Type} (accesses : FileLineColAccess α) (fname : Text) (line column : UInt16) (new : List α) :
    FileLineColAccess α :=
  accesses.insert fname (insert₂ (accesses[fname]?.getD ∅) line column new)

/-! ### The handler -/

structure Handler where
  conflictSets : Map Nat (List ConflictSet) := initialConflictSets
  globalAccesses : FileLineColAccess GlobalAccesses := ∅
  ldsAccesses : FileLineColAccess LdsAccesses := ∅
  fnameHashToFname : Map UInt64 Text := ∅

structure DwarfInfo where
  fname : Text := []
  isaInstruction : Text := []
  accessSize : UInt16 := 0
  deriving DecidableEq, Repr

inductive AccessType where
  | read | write
  deriving DecidableEq, Repr

def AccessType.kind (env : Env) : AccessType → UInt8
  | .read => env.readKind
  | .write => env.writeKind

def instrSizeMap : List (Text × UInt16 × AccessType) :=
  [("global_load_ubyte", 1, AccessType.read), ("global_load_sbyte", 1, .read),
    ("global_load_ubyte_d16", 1, .read), ("global_load_ubyte_d16_hi", 1, .read),
    ("global_load_sbyte_d16", 1, .read), ("global_load_sbyte_d16_hi", 1, .read),
    ("global_load_ushort", 2, .read), ("global_load_sshort", 2, .read),
    ("global_load_short_d16", 2, .read), ("global_load_short_d16_hi", 2, .read),
    ("global_load_dword", 4, .read), ("global_load_dwordx2", 8, .read),
    ("global_load_dwordx3", 12, .read), ("global_load_dwordx4", 16, .read),
    ("global_store_byte", 1, .write), ("global_store_byte_d16_hi", 1, .write),
    ("global_store_short", 2, .write), ("global_store_short_d16_hi", 2, .write),
    ("global_store_dword", 4, .write), ("global_store_dwordx2", 8, .write),
    ("global_store_dwordx3", 12, .write), ("global_store_dwordx4", 16, .write),
    ("global_load_lds_ubyte", 1, .read), ("global_load_lds_sbyte", 1, .read),
    ("global_load_lds_ushort", 2, .read), ("global_load_lds_sshort", 2, .read),
    ("global_load_lds_dword", 4, .read),
    ("buffer_load_ubyte", 1, .read), ("buffer_load_sbyte", 1, .read),
    ("buffer_load_ubyte_d16", 1, .read), ("buffer_load_ubyte_d16_hi", 1, .read),
    ("buffer_load_sbyte_d16", 1, .read), ("buffer_load_sbyte_d16_hi", 1, .read),
    ("buffer_load_ushort", 2, .read), ("buffer_load_sshort", 2, .read),
    ("buffer_load_short_d16", 2, .read), ("buffer_load_short_d16_hi", 2, .read),
    ("buffer_load_dword", 4, .read), ("buffer_load_dwordx2", 8, .read),
    ("buffer_load_dwordx3", 12, .read), ("buffer_load_dwordx4", 16, .read),
    ("buffer_store_byte", 1, .write), ("buffer_store_byte_d16_hi", 1, .write),
    ("buffer_store_short", 2, .write), ("buffer_store_short_d16_hi", 2, .write),
    ("buffer_store_dword", 4, .write), ("buffer_store_dwordx2", 8, .write),
    ("buffer_store_dwordx3", 12, .write), ("buffer_store_dwordx4", 16, .write)].map
    fun (name, size, access) => (name.toList, size, access)

/-- The loop of `get_dwarf_info` over the instructions; `none` where it is left by an exception. -/
def matchInstruction (env : Env) (message : Message) : List Instruction → Option DwarfInfo
  | [] => some {}
  | inst :: rest =>
    match inst.fileName with
    | none => none
    | some fname =>
      if env.hash fname = message.header.dwarfFnameHash ∧ inst.line = message.header.dwarfLine ∧
          inst.column = message.header.dwarfColumn then
        match instrSizeMap.find? (·.1 = inst.inst) with
        | some (_, size, access) =>
          if access.kind env = message.rwKind then some ⟨fname, inst.inst, size⟩
          else matchInstruction env message rest
        | none => matchInstruction env message rest
      else matchInstruction env message rest

def getDwarfInfo (env : Env) (message : Message) : DwarfInfo :=
  if env.hasKdb then
    ((env.instructionsForLine message.header.dwarfLine).bind (matchInstruction env message)).getD
      { accessSize := 0xffff }
  else {}

def cacheLinesOf (dataSize : UInt16) (lineSize : UInt8) (address : UInt64) : List Nat :=
  let first := address / lineSize.toUInt64
  let last := (address + dataSize.toUInt64 - 1) / lineSize.toUInt64
  List.range' first.toNat (last.toNat + 1 - first.toNat)

def cacheLines (dataSize : UInt16) (lineSize : UInt8) (addresses : List UInt64) : Finset Nat :=
  (addresses.flatMap (cacheLinesOf dataSize lineSize)).toFinset

def minCacheLines (dataSize : UInt16) (lineSize : UInt8) (count : Nat) : Nat :=
  (count * dataSize.toNat + lineSize.toNat - 1) / lineSize.toNat

namespace Handler

def handleCacheLineCountAnalysis (env : Env) (handler : Handler) (message : Message) : Handler × Bool :=
  let lineSize := env.l2CacheLineSize message.header.arch
  if lineSize = 0 then (handler, false)
  else
    let irDataSize := message.dataSize
    let dwarfInfo := getDwarfInfo env message
    if dwarfInfo.accessSize = 0xffff then (handler, true)
    else
      let corrected := dwarfInfo.accessSize ≠ 0 ∧ dwarfInfo.accessSize ≠ irDataSize
      let dataSize := if corrected then dwarfInfo.accessSize else irDataSize
      let needed := minCacheLines dataSize lineSize message.dataItems.length
      let used := (cacheLines dataSize lineSize message.dataItems).card
      if corrected ∧ used = needed + 1 then (handler, true)
      else
        let line := message.header.dwarfLine.toUInt16
        let column := message.header.dwarfColumn.toUInt16
        let accesses := accessesAt handler.globalAccesses dwarfInfo.fname line column
        let current : GlobalAccesses :=
          ⟨1, irDataSize, dwarfInfo.accessSize, message.rwKind, dwarfInfo.isaInstruction, needed, used⟩
        ({ handler with
            globalAccesses := setAccessesAt handler.globalAccesses dwarfInfo.fname line column
              (record current.sameKind current.merge current accesses)
            fnameHashToFname := handler.fnameHashToFname.insert message.header.dwarfFnameHash dwarfInfo.fname },
          true)

def unknownSourceFile : Text := "<unknown source file>".toList

/-- The source file of an LDS access: the one a global access with the same hash was matched to. -/
def ldsFname (handler : Handler) (message : Message) : Text :=
  let fname := handler.fnameHashToFname[message.header.dwarfFnameHash]?.getD []
  if fname = [] then unknownSourceFile else fname

/-- The part of the bank conflict analysis after the count: the message's entry of `lds_accesses`. -/
def recordLdsAccess (handler : Handler) (message : Message) (bankConflictCount : Nat) : Handler :=
  let line := message.header.dwarfLine.toUInt16
  let column := message.header.dwarfColumn.toUInt16
  let fname := handler.ldsFname message
  let accesses := accessesAt handler.ldsAccesses fname line column
  -- `kernelDB` has no LDS instructions, so the ISA size is 0 and the instruction empty.
  let current : LdsAccesses := ⟨1, message.dataSize, 0, message.rwKind, [], bankConflictCount⟩
  { handler with
    fnameHashToFname := touch handler.fnameHashToFname message.header.dwarfFnameHash []
    ldsAccesses := setAccessesAt handler.ldsAccesses fname line column
      (record current.sameKind current.merge current accesses) }

/-- `none` where an assertion fails. -/
def handleBankConflictAnalysis (env : Env) (handler : Handler) (message : Message) : Option (Handler × Bool) :=
  let lanes := env.laneIdsOfActiveLanes message.header
  if message.dataItems.length ≠ lanes.length then none
  else
    let dataSize := message.dataSize.toNat
    match handler.conflictSets[dataSize]? with
    | none => some (handler, false)
    | some sets =>
      match registerAll dataSize (lanes.zip message.dataItems) sets with
      | none => none
      | some registered =>
        let bankConflictCount := (registered.map ConflictSet.bankConflictCount).sum
        let cleared := handler.conflictSets.insert dataSize (registered.map ConflictSet.clear)
        some ({ handler.recordLdsAccess message bankConflictCount with conflictSets := cleared }, true)

def handle (env : Env) (handler : Handler) (message : Message) : Option (Handler × Bool) :=
  if env.isAddress message.header.userType then
    match env.addressSpace message.mspace with
    | .global => some (handler.handleCacheLineCountAnalysis env message)
    | .shared => handler.handleBankConflictAnalysis env message
    | _ => some (handler, false)
  else some (handler, false)

def clear (handler : Handler) : Handler := { handler with globalAccesses := ∅, ldsAccesses := ∅ }

end Handler

end Omniprobe.Memory
