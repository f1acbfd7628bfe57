import Omniprobe.Instrumentation.Semantics
import Omniprobe.Lib.Executions

/-!
# Executions of instrumented kernels

A wave runs the instructions of a kernel. What the device does is a parameter, but for instructions that
compute an address. A pass inserts such instructions, and calls of a function that sends a message: what it
relies on is that the function returns and that the kernel sees nothing of it.
-/

namespace Omniprobe.Instrumentation
open Lib

/-! ### Waves -/

structure Wave (W : Type) where
  frame : Frame
  /-- Memory and everything else that instructions can change. -/
  world : W

def Frame.setResult (frame : Frame) (id n : Nat) : Frame :=
  { frame with result := fun other => if other = id then n else frame.result other }

structure Device (W : Type) where
  /-- What constants such as addresses of globals stand for. -/
  constant : Nat → Nat
  /-- The casts that the target defines. -/
  targetCast : CastOp → Ty → Ty → Nat → Nat
  /-- The other instructions of a block, calls of the device library among them. -/
  perform : Nat → Instruction → Wave W → Wave W → Next → Prop
  /-- The worlds differ in what no kernel reads, such as the buffer of the messages. -/
  alike : W → W → Prop
  equivalence : Equivalence alike

section
variable {W : Type}

/-- The result of a cast or an addition. -/
def Device.computed (device : Device W) (frame : Frame) (ty : Ty) : Op → Option Nat
  | .cast op value =>
    some ((op.apply value.ty ty (value.eval frame)).getD (device.targetCast op value.ty ty (value.eval frame)))
  | .add left right => some (ty.wrap (left.eval frame + right.eval frame))
  | _ => none

def Op.calls (op : Op) (function : Text) : Bool :=
  match op with
  | .call (some name) _ => name = function
  | _ => false

def Device.machine (device : Device W) : Machine Instruction (Wave W) := fun block inst wave after next =>
  match device.computed wave.frame inst.ty inst.op with
  | some n => after = { wave with frame := wave.frame.setResult inst.id n } ∧ next = .proceed
  | none => device.perform block inst wave after next

/-- The arguments of the call, where the event is one of the function's. -/
def sent (submit : Text) (event : Instruction × Wave W) : Option (List Nat) :=
  match event.1.op with
  | .call (some name) args => if name = submit then some (args.map (Value.eval event.2.frame)) else none
  | _ => none

/-- The arguments of the new calls in a part of an execution, in order. -/
def messages (submit : Text) (firstNew : Nat) (events : List (Instruction × Wave W)) : List (List Nat) :=
  (events.filter fun event => firstNew ≤ event.1.id).filterMap (sent submit)

/-- The kernel's own instructions in a part of an execution. -/
def own (firstNew : Nat) (events : List (Instruction × Wave W)) : List Instruction :=
  (events.map Prod.fst).filter fun inst => inst.id < firstNew

/-- For each of the events what is expected is sent, in order. -/
def Expected (expects : Instruction → Wave W → List (List Nat) → Prop) (events : List (Instruction × Wave W))
    (sent : List (List Nat)) : Prop :=
  ∃ groups, List.Forall₂ (fun event group => expects event.1 event.2 group) events groups ∧ sent = groups.flatten

end

/-- The hash of the source file, line and column that a call gets for a location. -/
def location (llvm : LLVM) (loc : Option DebugLoc) : UInt64 × UInt32 × UInt32 :=
  let dbgFile :=
    match loc with
    | some loc => getFullPath loc
    | none => "<unknown source file>".toList
  (llvm.hash dbgFile, (loc.map DebugLoc.line).getD 0, (loc.map DebugLoc.column).getD 0)

section
variable {W : Type}

/-! ### What the kernel sees -/

/-- The frames differ at most in results that the kernel does not have. -/
structure Frame.Agrees (constant : Nat → Nat) (firstNew : Nat) (frame other : Frame) : Prop where
  argument : other.argument = frame.argument
  here : frame.constant = constant
  there : other.constant = constant
  result : ∀ id < firstNew, other.result id = frame.result id

/-- The kernel cannot tell the waves apart. -/
structure Wave.Same (device : Device W) (firstNew : Nat) (wave other : Wave W) : Prop where
  frame : wave.frame.Agrees device.constant firstNew other.frame
  world : device.alike wave.world other.world

/-- The kernel's instructions do not depend on what it does not see, and keep the constants. -/
def Device.Confined (device : Device W) (firstNew : Nat) : Prop :=
  ∀ inst : Instruction, inst.id < firstNew → ∀ (block : Nat) (wave other after : Wave W) (next : Next),
    Wave.Same device firstNew wave other → device.perform block inst wave after next →
      ∃ after', device.perform block inst other after' next ∧ Wave.Same device firstNew after after'

/-- What a pass relies on of the function that it inserts calls of: they return, and the kernel sees nothing of them. -/
structure Device.Submits (device : Device W) (firstNew : Nat) (submit : Text) : Prop where
  returns : ∀ {inst : Instruction}, firstNew ≤ inst.id → inst.op.calls submit = true →
    ∀ (block : Nat) {wave : Wave W}, wave.frame.constant = device.constant →
      ∃ after, device.perform block inst wave after .proceed
  unseen : ∀ {inst : Instruction}, firstNew ≤ inst.id → inst.op.calls submit = true →
    ∀ {block : Nat} {wave after : Wave W} {next : Next}, wave.frame.constant = device.constant →
      device.perform block inst wave after next → next = .proceed ∧ Wave.Same device firstNew wave after

def Op.operands : Op → List Value
  | .load pointer => [pointer]
  | .store value pointer => [value, pointer]
  | .call _ args => args
  | .cast _ value => [value]
  | .add left right => [left, right]
  | .other _ => []

def Op.ReadsBelow (firstNew : Nat) (op : Op) : Prop := ∀ value ∈ op.operands, value.Before firstNew

section
variable {device : Device W} {firstNew : Nat}

theorem Wave.Same.refl (firstNew : Nat) {wave : Wave W} (known : wave.frame.constant = device.constant) :
    Wave.Same device firstNew wave wave :=
  ⟨⟨rfl, known, known, fun _ _ => rfl⟩, device.equivalence.refl _⟩

theorem Wave.Same.symm {wave other : Wave W} (same : Wave.Same device firstNew wave other) :
    Wave.Same device firstNew other wave := by
  obtain ⟨⟨argument, here, there, result⟩, world⟩ := same
  exact ⟨⟨argument.symm, there, here, fun id old => (result id old).symm⟩, device.equivalence.symm world⟩

theorem Wave.Same.trans {wave other third : Wave W} (same : Wave.Same device firstNew wave other)
    (more : Wave.Same device firstNew other third) : Wave.Same device firstNew wave third := by
  refine ⟨⟨more.frame.argument.trans same.frame.argument, same.frame.here, more.frame.there, fun id old => ?_⟩, ?_⟩
  · rw [more.frame.result id old, same.frame.result id old]
  · exact device.equivalence.trans same.world more.world

theorem Value.Before.eval_agrees {constant : Nat → Nat} {value : Value} (before : value.Before firstNew)
    {frame other : Frame} (agrees : frame.Agrees constant firstNew other) : value.eval other = value.eval frame := by
  cases value with
  | argument index ty => rw [Value.eval, Value.eval, agrees.argument]
  | constant index ty => rw [Value.eval, Value.eval, agrees.here, agrees.there]
  | result id ty => rw [Value.eval, Value.eval, agrees.result id before]
  | _ => rfl

theorem Op.ReadsBelow.computed {constant : Nat → Nat} {op : Op} (reads : op.ReadsBelow firstNew) (device : Device W)
    {frame other : Frame} (agrees : frame.Agrees constant firstNew other) (ty : Ty) :
    device.computed other ty op = device.computed frame ty op := by
  cases op with
  | cast op value =>
    have known : value.Before firstNew := reads value List.mem_cons_self
    rw [Device.computed, Device.computed, known.eval_agrees agrees]
  | add left right =>
    have first : left.Before firstNew := reads left List.mem_cons_self
    have second : right.Before firstNew := reads right (by simp [Op.operands])
    rw [Device.computed, Device.computed, first.eval_agrees agrees, second.eval_agrees agrees]
  | _ => rfl

theorem Wave.Same.setResult {wave other : Wave W} (same : Wave.Same device firstNew wave other) (id n : Nat) :
    Wave.Same device firstNew { wave with frame := wave.frame.setResult id n }
      { other with frame := other.frame.setResult id n } := by
  refine ⟨⟨same.frame.argument, same.frame.here, same.frame.there, fun old below => ?_⟩, same.world⟩
  show (if old = id then n else other.frame.result old) = if old = id then n else wave.frame.result old
  rw [same.frame.result old below]

theorem Wave.Same.setNew {wave other : Wave W} (same : Wave.Same device firstNew wave other) {id : Nat}
    (new : firstNew ≤ id) (n : Nat) :
    Wave.Same device firstNew wave { other with frame := other.frame.setResult id n } := by
  refine ⟨⟨same.frame.argument, same.frame.here, same.frame.there, fun old below => ?_⟩, same.world⟩
  have different : old ≠ id := by omega
  exact (if_neg different).trans (same.frame.result old below)

end

/-! ### Passes that are not seen -/

/-- A pass puts address computations and calls of one function before instructions of the kernel. -/
structure Harmless (submit : Text) (firstNew : Nat) (group : Instruction → List Instruction → Prop) : Prop where
  new : ∀ {inst : Instruction} {new : List Instruction}, group inst new → ∀ other ∈ new,
    firstNew ≤ other.id ∧ (Builder.IsHelper other.op ∨ other.op.calls submit)
  old : ∀ {inst : Instruction} {new : List Instruction}, group inst new →
    inst.id < firstNew ∧ inst.op.ReadsBelow firstNew

theorem Device.computed_of_helper (device : Device W) (frame : Frame) (ty : Ty) {op : Op} (helper : Builder.IsHelper op) :
    ∃ n, device.computed frame ty op = some n := by
  cases op with
  | cast => exact ⟨_, rfl⟩
  | add => exact ⟨_, rfl⟩
  | _ => exact helper.elim

theorem Device.computed_of_calls (device : Device W) (frame : Frame) (ty : Ty) {op : Op} {function : Text}
    (calls : op.calls function = true) : device.computed frame ty op = none := by
  cases op with
  | call => rfl
  | _ => cases calls

section
variable {device : Device W} {submit : Text} {firstNew : Nat} {group : Instruction → List Instruction → Prop}

/-- An instruction of the kernel does the same to waves that it cannot tell apart. -/
theorem machine_same (confined : device.Confined firstNew) {inst : Instruction} (old : inst.id < firstNew)
    (reads : inst.op.ReadsBelow firstNew) {block : Nat} {wave other after : Wave W} {next : Next}
    (same : Wave.Same device firstNew wave other) (performed : device.machine block inst wave after next) :
    ∃ after', device.machine block inst other after' next ∧ Wave.Same device firstNew after after' := by
  unfold Device.machine at performed ⊢
  rw [reads.computed device same.frame]
  cases computes : device.computed wave.frame inst.ty inst.op with
  | some n =>
    rw [computes] at performed
    obtain ⟨rfl, rfl⟩ := performed
    exact ⟨_, ⟨rfl, rfl⟩, same.setResult inst.id n⟩
  | none =>
    rw [computes] at performed
    exact confined inst old block wave other after next same performed

section
variable (submits : device.Submits firstNew submit)
include submits

/-- A new instruction goes on, in a wave that the kernel cannot tell from the one before. -/
theorem machine_new {inst : Instruction} (new : firstNew ≤ inst.id) (kind : Builder.IsHelper inst.op ∨ inst.op.calls submit)
    (block : Nat) {wave other : Wave W} (same : Wave.Same device firstNew wave other) :
    (∃ after, device.machine block inst other after .proceed) ∧
      ∀ {after next}, device.machine block inst other after next → next = .proceed ∧ Wave.Same device firstNew wave after := by
  unfold Device.machine
  rcases kind with helper | calls
  · obtain ⟨n, computes⟩ := device.computed_of_helper other.frame inst.ty helper
    rw [computes]
    refine ⟨⟨_, rfl, rfl⟩, fun performed => ?_⟩
    obtain ⟨rfl, rfl⟩ := performed
    exact ⟨rfl, same.setNew new n⟩
  · rw [device.computed_of_calls other.frame inst.ty calls]
    refine ⟨submits.returns new calls block same.frame.there, fun performed => ?_⟩
    obtain ⟨rfl, unseen⟩ := submits.unseen new calls same.frame.there performed
    exact ⟨rfl, same.trans unseen⟩

theorem straight_same {insts : List Instruction}
    (new : ∀ inst ∈ insts, firstNew ≤ inst.id ∧ (Builder.IsHelper inst.op ∨ inst.op.calls submit)) {block : Nat}
    {wave other last : Wave W} {events : List (Instruction × Wave W)} (same : Wave.Same device firstNew wave other)
    (ran : Straight device.machine block insts other events last) :
    Wave.Same device firstNew wave last := by
  induction ran with
  | nil => exact same
  | cons performed _ ih =>
    obtain ⟨⟨older, kind⟩, new⟩ := List.forall_mem_cons.mp new
    exact ih new ((machine_new submits older kind block same).2 performed).2

theorem Harmless.unseen (harmless : Harmless submit firstNew group) (confined : device.Confined firstNew)
    {shows : Instruction → Wave W → List (Instruction × Wave W) → Prop}
    (shown : ∀ {inst : Instruction} {new : List Instruction}, group inst new → ∀ {block : Nat}
      {wave wave' last : Wave W} {events : List (Instruction × Wave W)}, Wave.Same device firstNew wave wave' →
        Straight device.machine block new wave' events last → shows inst wave events) :
    Unseen device.machine group (Wave.Same device firstNew) shows where
  goesOn given other member block wave wave' same :=
    (machine_new submits (harmless.new given other member).1 (harmless.new given other member).2 block same).1
  kept given other member block wave wave' after next same performed :=
    (machine_new submits (harmless.new given other member).1 (harmless.new given other member).2 block same).2 performed
  shown := shown
  forth given block wave wave' after next same performed :=
    machine_same confined (harmless.old given).1 (harmless.old given).2 same performed
  back given block wave wave' after' next same performed := by
    obtain ⟨after, here, related⟩ :=
      machine_same confined (harmless.old given).1 (harmless.old given).2 same.symm performed
    exact ⟨after, here, related.symm⟩

end

end

/-- A kernel's blocks as a pass gets them: the instructions are different objects, and the operands of those that
compute are values of the kernel. -/
structure KernelBody where
  blocks : List (List Instruction)
  nextId : Nat
  distinct : (blocks.flatten.map Instruction.id).Nodup
  below : ∀ inst ∈ blocks.flatten, inst.id < nextId
  reads : ∀ inst ∈ blocks.flatten, inst.op.ReadsBelow nextId

/-! ### Reports -/

section
variable {submit : Text} {firstNew : Nat}

theorem messages_append (events more : List (Instruction × Wave W)) :
    messages submit firstNew (events ++ more) = messages submit firstNew events ++ messages submit firstNew more := by
  rw [messages, List.filter_append, List.filterMap_append]
  rfl

theorem messages_cons_own {inst : Instruction} (old : inst.id < firstNew) (wave : Wave W)
    (events : List (Instruction × Wave W)) : messages submit firstNew ((inst, wave) :: events) = messages submit firstNew events := by
  rw [messages, List.filter_cons_of_neg (by simpa using old)]
  rfl

theorem own_append (events more : List (Instruction × Wave W)) :
    own firstNew (events ++ more) = own firstNew events ++ own firstNew more := by
  rw [own, List.map_append, List.filter_append]
  rfl

theorem own_cons {inst : Instruction} (old : inst.id < firstNew) (wave : Wave W) (events : List (Instruction × Wave W)) :
    own firstNew ((inst, wave) :: events) = inst :: own firstNew events := by
  rw [own, List.map_cons, List.filter_cons_of_pos (by simpa using old)]
  rfl

theorem own_of_new {events : List (Instruction × Wave W)} (new : ∀ event ∈ events, firstNew ≤ event.1.id) :
    own firstNew events = [] := by
  rw [own, List.filter_eq_nil_iff]
  intro inst member
  obtain ⟨event, happened, rfl⟩ := List.mem_map.mp member
  simpa using new event happened

end

/-- The instrumented program is for a wave what the program is, and sends what is expected of each instruction before
the instruction is performed. An execution may end within what is sent. -/
structure Reports (device : Device W) (submit : Text) (firstNew : Nat) (program program' : List (List Instruction))
    (expects : Instruction → Wave W → List (List Nat) → Prop) : Prop where
  forth : ∀ {wave : Wave W} {events : List (Instruction × Wave W)} {last : Position Instruction (Wave W)},
    wave.frame.constant = device.constant → Executes device.machine program (.enter program 0 wave) events last →
      ∃ events' last', Executes device.machine program' (.enter program' 0 wave) events' last' ∧
        last'.block = last.block ∧ Wave.Same device firstNew last.state last'.state ∧ (last.todo = [] → last'.todo = []) ∧
        own firstNew events' = events.map Prod.fst ∧ Expected expects events (messages submit firstNew events')
  back : ∀ {wave : Wave W} {events' : List (Instruction × Wave W)} {last' : Position Instruction (Wave W)},
    wave.frame.constant = device.constant → Executes device.machine program' (.enter program' 0 wave) events' last' →
      ∃ events last sent pending, Executes device.machine program (.enter program 0 wave) events last ∧
        last'.block = last.block ∧ Wave.Same device firstNew last.state last'.state ∧ (last'.todo = [] → last.todo = []) ∧
        own firstNew events' = events.map Prod.fst ∧ messages submit firstNew events' = sent ++ pending ∧
        Expected expects events sent ∧ (last'.todo = [] → pending = []) ∧
        (pending = [] ∨ ∃ inst rest group, last.todo = inst :: rest ∧ expects inst last.state group ∧ pending <+: group)

section
variable {device : Device W} {submit : Text} {firstNew : Nat} {group : Instruction → List Instruction → Prop}
  {expects : Instruction → Wave W → List (List Nat) → Prop} {program program' : List (List Instruction)}

/-- What a group shows: its own events, with the messages that are expected. -/
def Shows (submit : Text) (firstNew : Nat) (expects : Instruction → Wave W → List (List Nat) → Prop)
    (inst : Instruction) (wave : Wave W) (events : List (Instruction × Wave W)) : Prop :=
  inst.id < firstNew ∧ own firstNew events = [] ∧ expects inst wave (messages submit firstNew events)

theorem interwoven_reports {events whole : List (Instruction × Wave W)}
    (interwoven : Interwoven (Wave.Same device firstNew) (Shows submit firstNew expects) events whole) :
    own firstNew whole = events.map Prod.fst ∧ Expected expects events (messages submit firstNew whole) := by
  induction interwoven with
  | nil => exact ⟨rfl, [], .nil, rfl⟩
  | @cons inst wave wave' new rest rest' shown _ _ ih =>
    obtain ⟨old, hidden, expected⟩ := shown
    obtain ⟨kept, groups, each, sent⟩ := ih
    refine ⟨?_, messages submit firstNew new :: groups, .cons expected each, ?_⟩
    · rw [own_append, hidden, own_cons old, kept]
      rfl
    · rw [messages_append, messages_cons_own old, sent]
      rfl

theorem Harmless.own_straight (harmless : Harmless submit firstNew group) {inst : Instruction} {new part : List Instruction}
    (given : group inst new) (within : ∀ other ∈ part, other ∈ new) {block : Nat} {wave last : Wave W}
    {events : List (Instruction × Wave W)} (ran : Straight device.machine block part wave events last) :
    own firstNew events = [] := by
  refine own_of_new fun event happened => ?_
  have member : event.1 ∈ part := by
    rw [← ran.insts]
    exact List.mem_map_of_mem happened
  exact (harmless.new given _ (within _ member)).1

/-- A harmless pass whose groups send what is expected reports the executions of the program. -/
theorem Harmless.reports (harmless : Harmless submit firstNew group) (submits : device.Submits firstNew submit)
    (confined : device.Confined firstNew)
    (expected : ∀ {inst : Instruction} {new : List Instruction}, group inst new → ∀ {block : Nat}
      {wave wave' last : Wave W} {events : List (Instruction × Wave W)}, Wave.Same device firstNew wave wave' →
        Straight device.machine block new wave' events last →
          expects inst wave (messages submit firstNew events))
    (woven : List.Forall₂ (Woven group) program program') : Reports device submit firstNew program program' expects := by
  have unseen : Unseen device.machine group (Wave.Same device firstNew) (Shows submit firstNew expects) := by
    apply harmless.unseen submits confined
    intro inst new given block wave wave' last events same ran
    exact ⟨(harmless.old given).1, harmless.own_straight given (fun _ member => member) ran, expected given same ran⟩
  have start {wave : Wave W} (known : wave.frame.constant = device.constant) :
      Matches group (Wave.Same device firstNew) (.enter program 0 wave) (.enter program' 0 wave) :=
    ⟨rfl, woven_block woven 0, .refl firstNew known⟩
  refine ⟨fun {wave events last} known ran => ?_, fun {wave events' last'} known ran => ?_⟩
  · obtain ⟨events', last', ran', matched, interwoven⟩ := ran.weave unseen woven (start known)
    obtain ⟨kept, sent⟩ := interwoven_reports interwoven
    refine ⟨events', last', ran', matched.block, matched.state, fun ended => ?_, kept, sent⟩
    have todo := matched.todo
    rw [ended] at todo
    generalize last'.todo = todo' at todo
    cases todo
    rfl
  · obtain ⟨events, last, whole, part, ran', split, interwoven, partway⟩ := ran.unweave unseen woven (start known).partway
    obtain ⟨kept, sent⟩ := interwoven_reports interwoven
    rw [List.nil_append] at split
    refine ⟨events, last, messages submit firstNew whole, messages submit firstNew part, ran', ?_⟩
    rw [split, own_append, messages_append, kept]
    cases partway with
    | finished related => exact ⟨rfl, related, fun _ => rfl, List.append_nil _, rfl, sent, fun _ => rfl, .inl rfl⟩
    | @within block inst _ _ doneGroup todoGroup wave first _ _ given later entry before related =>
      have hidden := harmless.own_straight given (fun _ member => List.mem_append_left todoGroup member) before
      obtain ⟨more, final, rest, -⟩ :=
        unseen.straight given (fun _ member => List.mem_append_right doneGroup member) block related
      refine ⟨rfl, related, fun ended => by simp at ended, by rw [hidden, List.append_nil], rfl, sent,
        fun ended => by simp at ended, .inr ⟨inst, _, _, rfl, expected given entry (before.append rest), ?_⟩⟩
      rw [messages_append]
      exact List.prefix_append _ _

end

end

/-! ### A device that counts messages -/

namespace Sample

/-- The world is the number of messages, and where control goes depends on the operation only. -/
def counting (submit : Text) (cast : Nat → Nat) (goes : Op → Next → Prop) : Device Nat where
  constant _ := 0
  targetCast _ _ _ := cast
  perform _ inst wave after next :=
    after = (if inst.op.calls submit then { wave with world := wave.world + 1 } else wave) ∧ goes inst.op next
  alike _ _ := True
  equivalence := ⟨fun _ => trivial, fun _ => trivial, fun _ _ => trivial⟩

/-- A wave when so many messages are sent. -/
def sending (messages : Nat) : Wave Nat := ⟨⟨fun _ => 0, fun _ => 0, fun _ => 0⟩, messages⟩

variable {submit : Text} {cast : Nat → Nat} {goes : Op → Next → Prop}

theorem counting_submits (proceeds : ∀ {op : Op} {next : Next}, op.calls submit = true → (goes op next ↔ next = .proceed))
    (firstNew : Nat) : (counting submit cast goes).Submits firstNew submit where
  returns _ calls _ wave _ := ⟨{ wave with world := wave.world + 1 }, (if_pos calls).symm, (proceeds calls).mpr rfl⟩
  unseen := by
    rintro inst - calls block wave after next known ⟨rfl, went⟩
    rw [if_pos calls]
    exact ⟨(proceeds calls).mp went, ⟨rfl, known, known, fun _ _ => rfl⟩, trivial⟩

theorem counting_confined (firstNew : Nat) : (counting submit cast goes).Confined firstNew := by
  rintro inst - block wave other after next same ⟨rfl, went⟩
  refine ⟨_, ⟨rfl, went⟩, ?_, trivial⟩
  split
  · exact same.frame
  · exact same.frame

end Sample

end Omniprobe.Instrumentation
