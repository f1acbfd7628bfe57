import Omniprobe.BasicBlocks.Accounting
import Omniprobe.Instrumentation.BasicBlockStart

/-!
# Blocks counted from executions

From kernel to table: waves run an instrumented kernel, their messages arrive interleaved, and the basic
block analysis counts how often the waves of the kernel itself leave each block.
-/

namespace Omniprobe.Instrumentation.BBStart
open Lib BasicBlocks

/-! ### Blocks that a wave starts -/

/-- The block whose first instruction behind the phi nodes this is. -/
def blockStarting (blocks : List (List Instruction)) (inst : Instruction) : Option Nat :=
  blocks.findIdx? fun block => firstNonPHI block = some inst

/-- The blocks that are started in an execution, in order. -/
def startedBlocks {W : Type} (blocks : List (List Instruction)) (events : List (Instruction × Wave W)) : List Nat :=
  events.filterMap fun event => blockStarting blocks event.1

/-- As blocks end with a terminator, none has phi nodes only. -/
def Terminated (blocks : List (List Instruction)) : Prop := ∀ block ∈ blocks, ∃ inst, firstNonPHI block = some inst

theorem label_eq_blockStarting {blocks : List (List Instruction)} (terminated : Terminated blocks) (inst : Instruction) :
    label blocks inst = blockStarting blocks inst := by
  induction blocks with
  | nil => rfl
  | cons block rest ih =>
    obtain ⟨⟨first, found⟩, terminated⟩ := List.forall_mem_cons.mp terminated
    have split : starts (block :: rest) = first :: starts rest := List.filterMap_cons_some found
    have later := ih terminated
    unfold label blockStarting at later ⊢
    rw [split, List.idxOf?_cons, List.findIdx?_cons, found, later]
    by_cases same : first = inst
    · simp [same]
    · simp [same]

theorem blockStarting_lt {blocks : List (List Instruction)} {inst : Instruction} {k : Nat}
    (found : blockStarting blocks inst = some k) : k < blocks.length :=
  (List.findIdx?_eq_some_iff_getElem.mp found).1

/-! ### Messages -/

/-- What the host receives for a call: the two last arguments, and what the device adds. -/
def Delivers (args : List Nat) (hdr : Message) : Prop :=
  ∃ ptr hash line column, args = [ptr, hash, line, column, hdr.userType.toNat, hdr.userData.toNat]

/-- What a wave that has run to its end sends: a message for each block that it has started. -/
theorem delivered_startedBlocks {W : Type} {llvm : LLVM} {index : Nat} {kernel : KernelBody}
    (terminated : Terminated kernel.blocks) (few : kernel.blocks.length ≤ 2 ^ 32) {events : List (Instruction × Wave W)}
    {sent : List (List Nat)}
    (expected : Expected (fun inst wave sent => sent = (announced llvm index kernel.blocks inst wave).toList) events sent)
    {history : List Message} (delivered : List.Forall₂ Delivers sent history) :
    history.map (fun hdr => hdr.userData.toNat) = startedBlocks kernel.blocks events ∧
      ∀ hdr ∈ history, hdr.userType.toNat = basicBlockStartType ∧ hdr.userData.toNat < kernel.blocks.length := by
  obtain ⟨groups, each, rfl⟩ := expected
  induction each generalizing history with
  | nil =>
    cases delivered
    exact ⟨rfl, List.forall_mem_nil _⟩
  | @cons event group events groups same _ ih =>
    obtain ⟨inst, wave⟩ := event
    rw [announced, label_eq_blockStarting terminated] at same
    rw [startedBlocks, List.filterMap_cons]
    dsimp only
    cases found : blockStarting kernel.blocks inst with
    | none =>
      rw [found] at same
      obtain rfl : group = [] := same
      exact ih delivered
    | some k =>
      rw [found] at same
      obtain rfl : group = [header llvm index inst wave.frame k] := same
      rw [List.flatten_cons, List.singleton_append] at delivered
      cases delivered with
      | @cons _ hdr _ rest here later =>
        obtain ⟨ptr, hash, line, column, args⟩ := here
        simp only [header, List.cons.injEq, and_true] at args
        obtain ⟨-, -, -, -, type, data⟩ := args
        have inside := blockStarting_lt found
        rw [Nat.mod_eq_of_lt (by omega)] at data
        obtain ⟨started, kinds⟩ := ih later
        refine ⟨?_, List.forall_mem_cons.mpr ⟨⟨type.symm, by omega⟩, kinds⟩⟩
        rw [List.map_cons, started, ← data]
        rfl

/-! ### The table -/

/-- A wave has run the instrumented kernel to its end, and the host has got what it sent, in order. -/
structure Ran {W : Type} (device : Device W) (llvm : LLVM) (index : Nat) (kernel : KernelBody) (first : Wave W)
    (events : List (Instruction × Wave W)) (history : List Message) : Prop where
  known : first.frame.constant = device.constant
  ended : ∃ last, Executes device.machine (runOnFunction llvm index kernel.blocks kernel.nextId)
    (.enter (runOnFunction llvm index kernel.blocks kernel.nextId) 0 first) events last ∧ last.todo = []
  delivered : List.Forall₂ Delivers (messages submitWaveHeader kernel.nextId events) history
  ordered : history.Pairwise fun earlier later => earlier.timestamp.toNat ≤ later.timestamp.toNat

/-- The wave has run the kernel itself to its end, with the same instructions of the kernel. -/
structure RanItself {W : Type} (device : Device W) (kernel : KernelBody) (first : Wave W)
    (events original : List (Instruction × Wave W)) : Prop where
  ended : ∃ last, Executes device.machine kernel.blocks (.enter kernel.blocks 0 first) original last ∧
    last.todo = []
  same : own kernel.nextId events = original.map Prod.fst

section
variable {W : Type} {llvm : LLVM} {index : Nat} {kernel : KernelBody} {device : Device W} {env : Env}

theorem Ran.itself (submits : device.Submits kernel.nextId submitWaveHeader) (confined : device.Confined kernel.nextId)
    (terminated : Terminated kernel.blocks)
    (few : kernel.blocks.length ≤ 2 ^ 32) {first : Wave W} {events : List (Instruction × Wave W)} {history : List Message}
    (ran : Ran device llvm index kernel first events history) :
    ∃ original, RanItself device kernel first events original ∧
      history.map (fun hdr => hdr.userData.toNat) = startedBlocks kernel.blocks original ∧
      ∀ hdr ∈ history, hdr.userType.toNat = basicBlockStartType ∧ hdr.userData.toNat < kernel.blocks.length := by
  obtain ⟨last, executes, ended⟩ := ran.ended
  obtain ⟨original, last', sent, pending, itself, -, -, stopped, same, split, expected, nothing, -⟩ :=
    (announced_reports llvm index kernel device submits confined).back ran.known executes
  have delivered := ran.delivered
  rw [split, nothing ended, List.append_nil] at delivered
  exact ⟨original, ⟨⟨last', itself, stopped ended⟩, same⟩, delivered_startedBlocks terminated few expected delivered⟩

end

namespace Sample
open Instrumentation.Sample

def call (id label : Nat) : Instruction := headerCall foldsNothing 0 (inst 0 1) id label

def program : List (List Instruction) := runOnFunction foldsNothing 0 kernel.blocks kernel.nextId

/-- A run of the second block. -/
def turn (messages : Nat) : List (Instruction × Wave Nat) :=
  [(inst 1 0, sending messages), (call 5 1, sending messages), (inst 2 2, sending (messages + 1))]

/-- The second block is run twice. -/
def events : List (Instruction × Wave Nat) :=
  (call 4 0, sending 0) :: (inst 0 1, sending 1) ::
    (turn 1 ++ (turn 2 ++ [(call 6 2, sending 3), (inst 3 3, sending 4)]))

def wave : WaveFields := ⟨0, 0, 0, 0⟩

def hdr (label : UInt32) (timestamp : UInt64) : Message := ⟨0, 0, 0, 0, 0, 0, 0, 2, label, 1, timestamp, (0, 0, 0)⟩

def history : List Message := [hdr 0 10, hdr 1 20, hdr 1 35, hdr 2 40]

def env : Env where
  hasKdb := true
  basicBlocks := some [[⟨"s_branch".toList, 0⟩], [⟨"s_cbranch".toList, 1⟩], [⟨"s_endpgm".toList, 2⟩]]
  isTimeInterval userType := userType = 1

theorem executes_turn (messages : Nat) {next : Next} (goes : next = .jump 1 ∨ next = .jump 2)
    {rest : List (Instruction × Wave Nat)} {last : Position Instruction (Wave Nat)}
    (later : Executes device.machine program (.after program 1 [] (sending (messages + 1)) next) rest last) :
    Executes device.machine program ⟨1, [inst 1 0, call 5 1, inst 2 2], sending messages⟩ (turn messages ++ rest) last := by
  have straight : Straight device.machine 1 [inst 1 0, call 5 1] (sending messages)
      [(inst 1 0, sending messages), (call 5 1, sending messages)] (sending (messages + 1)) :=
    .cons ⟨rfl, rfl⟩ (.cons ⟨rfl, rfl⟩ (.nil _))
  have jumps : device.machine 1 (inst 2 2) (sending (messages + 1)) (sending (messages + 1)) next := ⟨rfl, goes⟩
  exact straight.executes.trans (.step jumps later)

theorem executes : ∃ last, Executes device.machine program (.enter program 0 (sending 0)) events last ∧ last.todo = [] := by
  refine ⟨⟨2, [], sending 4⟩, ?_, rfl⟩
  refine .step ⟨rfl, rfl⟩ (.step ⟨rfl, rfl⟩ ?_)
  refine executes_turn 1 (.inl rfl) (executes_turn 2 (.inr rfl) ?_)
  exact .step ⟨rfl, rfl⟩ (.step ⟨rfl, rfl⟩ (.stop _))

theorem delivered : List.Forall₂ Delivers (messages submitWaveHeader kernel.nextId events) history := by
  have sends : messages submitWaveHeader kernel.nextId events =
      [[0, 0, 0, 0, 2, 0], [0, 0, 0, 0, 2, 1], [0, 0, 0, 0, 2, 1], [0, 0, 0, 0, 2, 2]] := by decide
  rw [sends]
  have each (label : UInt32) (timestamp : UInt64) : Delivers [0, 0, 0, 0, 2, label.toNat] (hdr label timestamp) :=
    ⟨0, 0, 0, 0, rfl⟩
  exact .cons (each 0 10) (.cons (each 1 20) (.cons (each 1 35) (.cons (each 2 40) .nil)))

theorem ran : Ran device foldsNothing 0 kernel (sending 0) events history := ⟨rfl, executes, delivered, by decide⟩

end Sample

end Omniprobe.Instrumentation.BBStart
