import Omniprobe.Handlers.JsonHelper

/-!
# The message log

`message_logger_t` writes the messages of a kernel as JSON, one object a line, and those with addresses as
comma-separated rows too unless `LOGDUR_LOG_FORMAT` asks for JSON.
-/

namespace Omniprobe.Handlers
open Lib Json

/-! ### The logger -/

/-- The fields of `wave_header_t` that are logged. -/
structure WaveHeader where
  exec : UInt64
  timestamp : UInt64
  dwarfLine : UInt32
  dwarfColumn : UInt32
  blockIdxX : UInt32
  blockIdxY : UInt32
  blockIdxZ : UInt32
  waveNum : UInt32
  xccId : UInt32
  seId : UInt32
  cuId : UInt32
  activeLaneCount : UInt32
  userType : UInt32
  userData : UInt32

/-- `message_t` with the lanes' addresses as its data items. -/
structure LoggedMessage where
  header : WaveHeader
  dataItems : List UInt64

/-- What `dh_comms` defines. -/
structure DhComms where
  isAddress : UInt32 → Bool
  isTimeInterval : UInt32 → Bool
  undefined : UInt32
  read : UInt32
  write : UInt32
  readWrite : UInt32
  /-- How a stream shows the ids of a wave's place, which depends on their type. -/
  showId : UInt32 → Text

structure MessageLogger where
  strKernel : Text
  dispatchId : UInt64
  formatCsv : Bool

def decimal (n : Nat) : Text := Nat.toDigits 10 n

/-- `0x` and a number with `setw(sizeof(void*) * 2)` and `setfill('0')`. -/
def pointerText (n : UInt64) : Text :=
  let digits := Nat.toDigits 16 n.toNat
  "0x".toList ++ List.replicate (16 - digits.length) '0' ++ digits

def Item.ofUInt32 (n : UInt32) : Item := .number n.toNat

/-- A number that is cast to `uint16_t`. -/
def Item.ofShort (n : UInt32) : Item := .number n.toUInt16.toNat

namespace MessageLogger

section
variable (dh : DhComms) (logger : MessageLogger)

/-- The branch of the `switch` for a kind of access. -/
def opType (kind : UInt32) : Option Text :=
  if kind = dh.undefined then some "undefined".toList
  else if kind = dh.read then some "read".toList
  else if kind = dh.write then some "write".toList
  else if kind = dh.readWrite then some "readwrite".toList
  else none

def handleHeader (message : LoggedMessage) (json : JSONHelper) : JSONHelper :=
  let hdr := message.header
  let json := json.addField "kernel_name".toList (.text logger.strKernel) true
  let json := json.addField "dispatch_id".toList (.number logger.dispatchId.toNat)
  let json := json.addField "exec".toList (.number hdr.exec.toNat)
  let json := json.addField "timestamp".toList (.number hdr.timestamp.toNat)
  let json := json.addField "dwarf_line".toList (.ofUInt32 hdr.dwarfLine)
  let json := json.addField "dwarf_column".toList (.ofUInt32 hdr.dwarfColumn)
  let json := json.addField "block_idx_x".toList (.ofUInt32 hdr.blockIdxX)
  let json := json.addField "block_idx_y".toList (.ofUInt32 hdr.blockIdxY)
  let json := json.addField "block_idx_z".toList (.ofUInt32 hdr.blockIdxZ)
  let json := json.addField "wave_num".toList (.ofShort hdr.waveNum)
  let json := json.addField "xcc_id".toList (.ofShort hdr.xccId)
  let json := json.addField "se_id".toList (.ofShort hdr.seId)
  let json := json.addField "cu_id".toList (.ofShort hdr.cuId)
  let json := json.addField "active_lane_count".toList (.ofShort hdr.activeLaneCount)
  let json := json.addField "user_type".toList (.ofShort hdr.userType)
  if dh.isAddress hdr.userType then
    match opType dh (hdr.userData &&& 0b11) with
    | some op => json.addField "op_type".toList (.text (Text.delimited '"' op))
    | none => json
  else json.addField "user_data".toList (.ofShort hdr.userData)

/-- The addresses of a row. Without any, the row is not ended. -/
def addressColumns : List UInt64 → Text
  | [] => []
  | [address] => pointerText address ++ ['\n']
  | address :: rest => pointerText address ++ ',' :: addressColumns rest

def csvRow (message : LoggedMessage) : Text :=
  let hdr := message.header
  "ADDRESS_MESSAGE,".toList ++ decimal hdr.timestamp.toNat ++ [','] ++ Text.delimited '"' logger.strKernel ++ [','] ++
    decimal hdr.dwarfLine.toNat ++ [','] ++ decimal logger.dispatchId.toNat ++ [','] ++ pointerText hdr.exec ++ [','] ++
    dh.showId hdr.xccId ++ [','] ++ dh.showId hdr.seId ++ [','] ++ dh.showId hdr.cuId ++ [','] ++
    decimal (hdr.userData &&& 0b11).toNat ++ [','] ++ addressColumns message.dataItems

/-- What is written at once, and the object with what is added to it. -/
def handleAddressMessage (message : LoggedMessage) (json : JSONHelper) : Option (Text × JSONHelper) :=
  if logger.formatCsv then some (csvRow dh logger message, json)
  else if message.dataItems = [] then some ([], json)
  else
    (json.addVector "addresses".toList (message.dataItems.map fun address => .number address.toNat)).map
      fun json => ([], json)

/-- What is written for a message. -/
def handle (message : LoggedMessage) : Option Text :=
  if dh.isAddress message.header.userType then
    (handleAddressMessage dh logger message (handleHeader dh logger message {})).map
      fun (row, json) => row ++ json.getJSON ++ ['\n']
  else if dh.isTimeInterval message.header.userType then some []
  else some ((handleHeader dh logger message {}).getJSON ++ ['\n'])

def title : Text := "ADDRESS_MESSAGE,timestamp,kernel,src_line,dispatch,exec_mask,xcc_id,se_id,cu_id,kind,address\n".toList

/-- The log of a new logger after some messages. -/
def log (messages : List LoggedMessage) : Option Text :=
  (messages.mapM (handle dh logger)).map fun texts => (if logger.formatCsv then title else []) ++ texts.flatten

/-! ### The objects of a log -/

/-- Messages of time intervals are left out. -/
def logged (message : LoggedMessage) : Bool :=
  dh.isAddress message.header.userType || !dh.isTimeInterval message.header.userType

def headerNumbers (message : LoggedMessage) : List (Text × Nat) :=
  let hdr := message.header
  [("dispatch_id".toList, logger.dispatchId.toNat), ("exec".toList, hdr.exec.toNat), ("timestamp".toList, hdr.timestamp.toNat),
    ("dwarf_line".toList, hdr.dwarfLine.toNat), ("dwarf_column".toList, hdr.dwarfColumn.toNat),
    ("block_idx_x".toList, hdr.blockIdxX.toNat), ("block_idx_y".toList, hdr.blockIdxY.toNat),
    ("block_idx_z".toList, hdr.blockIdxZ.toNat), ("wave_num".toList, hdr.waveNum.toUInt16.toNat),
    ("xcc_id".toList, hdr.xccId.toUInt16.toNat), ("se_id".toList, hdr.seId.toUInt16.toNat),
    ("cu_id".toList, hdr.cuId.toUInt16.toNat), ("active_lane_count".toList, hdr.activeLaneCount.toUInt16.toNat),
    ("user_type".toList, hdr.userType.toUInt16.toNat)]

def headerMembers (message : LoggedMessage) : List (Text × Value) :=
  ("kernel_name".toList, .string logger.strKernel) ::
    (headerNumbers logger message).map fun field => (field.1, .number field.2)

def kindMembers (message : LoggedMessage) : List (Text × Value) :=
  if dh.isAddress message.header.userType then
    ((opType dh (message.header.userData &&& 0b11)).map fun op => ("op_type".toList, Value.string op)).toList
  else [("user_data".toList, .number message.header.userData.toUInt16.toNat)]

def addressMembers (message : LoggedMessage) : List (Text × Value) :=
  if dh.isAddress message.header.userType = true ∧ message.dataItems ≠ [] then
    [("addresses".toList, .array (message.dataItems.map fun address => .number address.toNat))]
  else []

/-- The object of a message in a log without rows. -/
def value (message : LoggedMessage) : Value :=
  .object (headerMembers logger message ++ kindMembers dh message ++ addressMembers dh message)

theorem handleHeader_holds (message : LoggedMessage) :
    (handleHeader dh logger message {}).Holds (headerMembers logger message ++ kindMembers dh message) := by
  have fields := (JSONHelper.holds_new.string "kernel_name".toList logger.strKernel).numbers (headerNumbers logger message)
  unfold handleHeader kindMembers
  dsimp only
  by_cases isAddress : dh.isAddress message.header.userType = true
  · rw [if_pos isAddress, if_pos isAddress]
    cases opType dh (message.header.userData &&& 0b11) with
    | none =>
      rw [Option.map_none, Option.toList_none, List.append_nil]
      exact fields
    | some op => exact fields.quoted "op_type".toList op
  · rw [if_neg isAddress, if_neg isAddress]
    exact fields.number "user_data".toList message.header.userData.toUInt16.toNat

/-! ### The lines of a log -/

/-- The object of a message in a log with rows. -/
def headerValue (message : LoggedMessage) : Value := .object (headerMembers logger message ++ kindMembers dh message)

/-- What is written for a message, by the format. -/
def written (message : LoggedMessage) : Text :=
  if logged dh message then
    if logger.formatCsv then
      (if dh.isAddress message.header.userType then csvRow dh logger message else []) ++
        printedLines [headerValue dh logger message]
    else printedLines [value dh logger message]
  else []

theorem handle_eq (message : LoggedMessage) : handle dh logger message = some (written dh logger message) := by
  have holds := handleHeader_holds dh logger message
  have printed (value : Value) : printedLines [value] = value.compact ++ ['\n'] := List.append_nil _
  unfold handle written logged
  by_cases isAddress : dh.isAddress message.header.userType = true
  · rw [if_pos isAddress, isAddress, Bool.true_or, if_pos rfl, if_pos rfl, handleAddressMessage, printed, printed]
    by_cases csv : logger.formatCsv = true
    · rw [if_pos csv, if_pos csv, Option.map_some]
      dsimp only
      rw [holds.getJSON, List.append_assoc]
      rfl
    rw [if_neg csv, if_neg csv]
    by_cases none : message.dataItems = []
    · have members : addressMembers dh message = [] := if_neg fun both => both.2 none
      rw [if_pos none, Option.map_some]
      dsimp only
      rw [holds.getJSON, value, members, List.append_nil]
      rfl
    · have shown : (message.dataItems.map fun address => Item.number address.toNat).map (Item.shown false) =
          Value.compactItems (message.dataItems.map fun address => .number address.toNat) := by
        rw [List.map_map, Value.compactItems_map]
        rfl
      have nonempty : (message.dataItems.map fun address => Value.number address.toNat) ≠ [] := by simpa using none
      obtain ⟨after, added, holds⟩ := holds.vector "addresses".toList shown nonempty
      have members : addressMembers dh message = _ := if_pos ⟨isAddress, none⟩
      rw [if_neg none, added, Option.map_some, Option.map_some]
      dsimp only
      rw [holds.getJSON, value, members]
      rfl
  · have members : addressMembers dh message = [] := if_neg fun both => isAddress both.1
    rw [if_neg isAddress, Bool.eq_false_iff.mpr isAddress, Bool.false_or]
    by_cases interval : dh.isTimeInterval message.header.userType = true
    · rw [if_pos interval, interval]
      rfl
    · rw [if_neg interval, Bool.eq_false_iff.mpr interval, holds.getJSON, printed, printed, value, members, List.append_nil]
      simp [headerValue]

theorem log_eq (messages : List LoggedMessage) :
    log dh logger messages =
      some ((if logger.formatCsv then title else []) ++ (messages.map (written dh logger)).flatten) := by
  have each : handle dh logger = fun message => pure (written dh logger message) := funext (handle_eq dh logger)
  rw [log, each, List.mapM_pure]
  rfl

theorem log_json_eq (json : logger.formatCsv = false) (messages : List LoggedMessage) :
    log dh logger messages = some (printedLines ((messages.filter (logged dh)).map (value dh logger))) := by
  rw [log_eq, json]
  have joined : (messages.map (written dh logger)).flatten =
      printedLines ((messages.filter (logged dh)).map (value dh logger)) := by
    induction messages with
    | nil => rfl
    | cons message rest ih =>
      rw [List.map_cons, List.flatten_cons, ih, List.filter_cons, written, json]
      by_cases inLog : logged dh message = true
      · rw [if_pos inLog, if_pos inLog]
        exact (printedLines_append [value dh logger message] _).symm
      · rw [if_neg inLog, if_neg inLog, List.nil_append]
  rw [joined]
  rfl

theorem strings_value_iff {P : Text → Prop} (simple : ∀ {s}, Simple s → P s) (message : LoggedMessage) :
    (∀ s ∈ (value dh logger message).strings, P s) ↔ P logger.strKernel := by
  have names : ∀ s ∈ (headerNumbers logger message).map Prod.fst, Simple s := by
    simp only [headerNumbers, List.map_cons, List.map_nil]
    decide
  have ops : ∀ op ∈ opType dh (message.header.userData &&& 0b11), Simple op := by
    unfold opType
    intro op found
    split at found
    · cases found
      decide
    split at found
    · cases found
      decide
    split at found
    · cases found
      decide
    split at found
    · cases found
      decide
    · cases found
  have kinds : ∀ s ∈ Value.stringsMembers (kindMembers dh message), Simple s := by
    unfold kindMembers
    split
    · cases found : opType dh (message.header.userData &&& 0b11) with
      | none => exact List.forall_mem_nil _
      | some op => exact List.forall_mem_cons.mpr ⟨by decide, List.forall_mem_singleton.mpr (ops op found)⟩
    · exact List.forall_mem_singleton.mpr (by decide)
  have addresses : ∀ s ∈ Value.stringsMembers (addressMembers dh message), Simple s := by
    unfold addressMembers
    split
    · simp only [Value.stringsMembers, Value.strings, Value.stringsItems_numbers, List.append_nil]
      exact List.forall_mem_singleton.mpr (by decide)
    · exact List.forall_mem_nil _
  have name : Simple "kernel_name".toList := by decide
  rw [value, Value.strings, Value.stringsMembers_append, Value.stringsMembers_append, headerMembers, Value.stringsMembers,
    Value.stringsMembers_numbers]
  simp only [List.forall_mem_append, List.forall_mem_cons, Value.strings]
  refine ⟨fun all => all.1.1.2.1.1, fun kernel => ⟨⟨⟨simple name, ⟨kernel, List.forall_mem_nil _⟩, ?_⟩, ?_⟩, ?_⟩⟩
  · exact fun s member => simple (names s member)
  · exact fun s member => simple (kinds s member)
  · exact fun s member => simple (addresses s member)

/-- A log in JSON has the object of each message on a line of its own, if the name of the kernel may stand between quotes as
it is, and only then. -/
theorem log_json_iff (json : logger.formatCsv = false) (messages : List LoggedMessage)
    (some : ∃ message ∈ messages, logged dh message = true) :
    ∃ text, log dh logger messages = Option.some text ∧
      (List.Forall₂ (fun message line => (value dh logger message).Denotes line) (messages.filter (logged dh)) (linesOf text) ↔
        Plain logger.strKernel) := by
  refine ⟨_, log_json_eq dh logger json messages, ?_⟩
  rw [← List.forall₂_map_left_iff, denotes_linesOf_iff, List.forall_mem_map]
  simp only [strings_value_iff dh logger Simple.plain]
  obtain ⟨message, member, inLog⟩ := some
  exact ⟨fun each => each message (List.mem_filter.mpr ⟨member, inLog⟩), fun plain _ _ => plain⟩

/-- As JSON has to be, the log is UTF-8, if the name of the kernel is, and only then. -/
theorem log_utf8_iff (json : logger.formatCsv = false) (messages : List LoggedMessage)
    (some : ∃ message ∈ messages, logged dh message = true) :
    ∃ text, log dh logger messages = Option.some text ∧ (Utf8 text ↔ Utf8 logger.strKernel) := by
  refine ⟨_, log_json_eq dh logger json messages, ?_⟩
  rw [utf8_printedLines_iff, List.forall_mem_map]
  simp only [strings_value_iff dh logger Simple.utf8]
  obtain ⟨message, member, inLog⟩ := some
  exact ⟨fun each => each message (List.mem_filter.mpr ⟨member, inLog⟩), fun utf8 _ _ => utf8⟩

end

end MessageLogger

namespace MessageLogger.Sample

def dh : DhComms where
  isAddress userType := userType = 0
  isTimeInterval userType := userType = 1
  undefined := 0
  read := 1
  write := 2
  readWrite := 3
  showId n := decimal n.toNat

def logger : MessageLogger := ⟨"copy(int*) [clone .kd]".toList, 7, false⟩

def message (userType : UInt32) : LoggedMessage := ⟨⟨3, 100, 12, 5, 0, 0, 0, 1, 0, 2, 4, 2, userType, 1⟩, [4096, 4100]⟩

end MessageLogger.Sample

theorem MessageLogger.log_json_iff_sample :
    ∃ text, log Sample.dh Sample.logger [Sample.message 0, Sample.message 1, Sample.message 2] = some text ∧
      ∃ first second, linesOf text = [first, second] ∧ (value Sample.dh Sample.logger (Sample.message 0)).Denotes first ∧
        (value Sample.dh Sample.logger (Sample.message 2)).Denotes second := by
  obtain ⟨text, written, lines⟩ := log_json_iff Sample.dh Sample.logger rfl
    [Sample.message 0, Sample.message 1, Sample.message 2] ⟨Sample.message 0, List.mem_cons_self, by decide⟩
  have plain : Plain Sample.logger.strKernel := by decide
  have each := lines.mpr plain
  have kept : [Sample.message 0, Sample.message 1, Sample.message 2].filter (logged Sample.dh) =
      [Sample.message 0, Sample.message 2] := rfl
  rw [kept] at each
  obtain ⟨first, rest, here, later, split⟩ := List.forall₂_cons_left_iff.mp each
  obtain ⟨second, none, there, ended, rfl⟩ := List.forall₂_cons_left_iff.mp later
  obtain rfl := List.forall₂_nil_left_iff.mp ended
  exact ⟨text, written, first, second, split, here, there⟩

end Omniprobe.Handlers
