import Mathlib

/-!
# Executions of control flow graphs

A program is a list of blocks, and a machine says what an instruction may do in a state. New instructions
are woven into a program, each group of them before an instruction of it; when the program does not see
what they do, it runs as before, and its executions are those of the woven program without them.
-/

namespace Omniprobe.Lib

/-- Where an instruction leaves the control. -/
inductive Next where
  | proceed
  | jump (block : Nat)
  | leave
  deriving DecidableEq, Repr

/-- What an instruction of a block may do: the state after it, and where control goes. -/
abbrev Machine (I S : Type) := Nat → I → S → S → Next → Prop

/-- A block, the instructions of it that are still to come, and a state. -/
structure Position (I S : Type) where
  block : Nat
  todo : List I
  state : S

section
variable {I S : Type}

def Position.enter (program : List (List I)) (block : Nat) (state : S) : Position I S :=
  ⟨block, program[block]?.getD [], state⟩

def Position.after (program : List (List I)) (block : Nat) (rest : List I) (state : S) : Next → Position I S
  | .proceed => ⟨block, rest, state⟩
  | .jump target => .enter program target state
  | .leave => ⟨block, [], state⟩

/-- A part of an execution, with the instructions performed and the states they were performed in. -/
inductive Executes (machine : Machine I S) (program : List (List I)) :
    Position I S → List (I × S) → Position I S → Prop where
  | stop (position : Position I S) : Executes machine program position [] position
  | step {block : Nat} {inst : I} {rest : List I} {state after : S} {next : Next} {events : List (I × S)}
      {last : Position I S} (performed : machine block inst state after next)
      (later : Executes machine program (.after program block rest after next) events last) :
      Executes machine program ⟨block, inst :: rest, state⟩ ((inst, state) :: events) last

/-- Instructions performed one behind the other. -/
inductive Straight (machine : Machine I S) (block : Nat) : List I → S → List (I × S) → S → Prop where
  | nil (state : S) : Straight machine block [] state [] state
  | cons {inst : I} {rest : List I} {state after last : S} {events : List (I × S)}
      (performed : machine block inst state after .proceed) (later : Straight machine block rest after events last) :
      Straight machine block (inst :: rest) state ((inst, state) :: events) last

/-- The instructions of the first list, each behind its group of new ones. -/
inductive Woven (group : I → List I → Prop) : List I → List I → Prop where
  | nil : Woven group [] []
  | cons {inst : I} {new rest rest' : List I} (given : group inst new) (later : Woven group rest rest') :
      Woven group (inst :: rest) (new ++ inst :: rest')

/-- The events of the first list, each behind what its group shows. -/
inductive Interwoven (same : S → S → Prop) (shows : I → S → List (I × S) → Prop) :
    List (I × S) → List (I × S) → Prop where
  | nil : Interwoven same shows [] []
  | cons {inst : I} {state state' : S} {new rest rest' : List (I × S)} (shown : shows inst state new)
      (related : same state state') (later : Interwoven same shows rest rest') :
      Interwoven same shows ((inst, state) :: rest) (new ++ (inst, state') :: rest')

/-- The program cannot tell states that are the same, and new instructions lead from a state to the same one. -/
structure Unseen (machine : Machine I S) (group : I → List I → Prop) (same : S → S → Prop)
    (shows : I → S → List (I × S) → Prop) : Prop where
  goesOn : ∀ {inst : I} {new : List I}, group inst new → ∀ other ∈ new, ∀ {block : Nat} {state state' : S},
    same state state' → ∃ after, machine block other state' after .proceed
  kept : ∀ {inst : I} {new : List I}, group inst new → ∀ other ∈ new,
    ∀ {block : Nat} {state state' after : S} {next : Next},
      same state state' → machine block other state' after next → next = .proceed ∧ same state after
  shown : ∀ {inst : I} {new : List I}, group inst new → ∀ {block : Nat} {state state' last : S} {events : List (I × S)},
    same state state' → Straight machine block new state' events last → shows inst state events
  forth : ∀ {inst : I} {new : List I}, group inst new → ∀ {block : Nat} {state state' after : S} {next : Next},
    same state state' → machine block inst state after next →
      ∃ after', machine block inst state' after' next ∧ same after after'
  back : ∀ {inst : I} {new : List I}, group inst new → ∀ {block : Nat} {state state' after' : S} {next : Next},
    same state state' → machine block inst state' after' next →
      ∃ after, machine block inst state after next ∧ same after after'

/-- The same position in the program and in the woven program. -/
structure Matches (group : I → List I → Prop) (same : S → S → Prop) (position position' : Position I S) : Prop where
  block : position'.block = position.block
  todo : Woven group position.todo position'.todo
  state : same position.state position'.state

variable {machine : Machine I S} {program program' : List (List I)} {group : I → List I → Prop}
  {same : S → S → Prop} {shows : I → S → List (I × S) → Prop}

/-! ### Parts of executions -/

theorem Executes.trans {first second third : Position I S} {events more : List (I × S)}
    (left : Executes machine program first events second) (right : Executes machine program second more third) :
    Executes machine program first (events ++ more) third := by
  induction left with
  | stop => exact right
  | step performed _ ih => exact .step performed (ih right)

theorem Straight.executes {block : Nat} {insts rest : List I} {state last : S} {events : List (I × S)}
    (ran : Straight machine block insts state events last) :
    Executes machine program ⟨block, insts ++ rest, state⟩ events ⟨block, rest, last⟩ := by
  induction ran with
  | nil => exact .stop _
  | cons performed _ ih => exact .step performed ih

theorem Straight.insts {block : Nat} {insts : List I} {state last : S} {events : List (I × S)}
    (ran : Straight machine block insts state events last) : events.map Prod.fst = insts := by
  induction ran with
  | nil => rfl
  | cons _ _ ih => exact congrArg _ ih

theorem Straight.append {block : Nat} {insts more : List I} {state middle last : S} {events after : List (I × S)}
    (ran : Straight machine block insts state events middle) (later : Straight machine block more middle after last) :
    Straight machine block (insts ++ more) state (events ++ after) last := by
  induction ran with
  | nil => exact later
  | cons performed _ ih => exact .cons performed (ih later)

theorem Straight.split {block : Nat} (insts : List I) {more : List I} {state last : S} {events : List (I × S)}
    (ran : Straight machine block (insts ++ more) state events last) :
    ∃ before after middle, events = before ++ after ∧ Straight machine block insts state before middle ∧
      Straight machine block more middle after last := by
  induction insts generalizing state events with
  | nil => exact ⟨[], events, state, rfl, .nil state, ran⟩
  | cons inst insts ih =>
    cases ran with
    | cons performed later =>
      obtain ⟨before, after, middle, rfl, first, second⟩ := ih later
      exact ⟨_, after, middle, rfl, .cons performed first, second⟩

theorem Woven.unchanged {insts : List I} (none : ∀ inst ∈ insts, group inst []) : Woven group insts insts := by
  induction insts with
  | nil => exact .nil
  | cons inst rest ih =>
    obtain ⟨here, none⟩ := List.forall_mem_cons.mp none
    have kept : Woven group (inst :: rest) ([] ++ inst :: rest) := .cons here (ih none)
    exact kept

theorem Woven.append {first first' rest rest' : List I} (left : Woven group first first') (right : Woven group rest rest') :
    Woven group (first ++ rest) (first' ++ rest') := by
  induction left with
  | nil => exact right
  | @cons inst new _ _ given _ ih =>
    rw [List.append_assoc]
    exact .cons given ih

theorem Woven.weaken {other : I → List I → Prop} {todo todo' : List I} (woven : Woven group todo todo')
    (weaker : ∀ inst ∈ todo, ∀ new, group inst new → other inst new) : Woven other todo todo' := by
  induction woven with
  | nil => exact .nil
  | cons given _ ih =>
    obtain ⟨here, later⟩ := List.forall_mem_cons.mp weaker
    exact .cons (here _ given) (ih later)

theorem woven_weaken {other : I → List I → Prop} (woven : List.Forall₂ (Woven group) program program')
    (weaker : ∀ inst ∈ program.flatten, ∀ new, group inst new → other inst new) :
    List.Forall₂ (Woven other) program program' := by
  induction woven with
  | nil => exact .nil
  | cons here _ ih =>
    rw [List.flatten_cons] at weaker
    obtain ⟨first, later⟩ := List.forall_mem_append.mp weaker
    exact .cons (here.weaken first) (ih later)

theorem woven_block (woven : List.Forall₂ (Woven group) program program') (block : Nat) :
    Woven group (program[block]?.getD []) (program'[block]?.getD []) := by
  induction woven generalizing block with
  | nil => exact .nil
  | cons here _ ih =>
    cases block with
    | zero => exact here
    | succ block => exact ih block

theorem matches_after (woven : List.Forall₂ (Woven group) program program') {block : Nat} {rest rest' : List I}
    {state state' : S} (later : Woven group rest rest') (related : same state state') (next : Next) :
    Matches group same (.after program block rest state next) (.after program' block rest' state' next) := by
  cases next with
  | proceed => exact ⟨rfl, later, related⟩
  | jump target => exact ⟨rfl, woven_block woven target, related⟩
  | leave => exact ⟨rfl, .nil, related⟩

/-! ### The program in the woven program -/

/-- A group runs to its end, and the program does not see it. -/
theorem Unseen.straight (unseen : Unseen machine group same shows) {inst : I} {new : List I} (given : group inst new)
    {part : List I} (within : ∀ other ∈ part, other ∈ new) (block : Nat) {state state' : S} (related : same state state') :
    ∃ events last, Straight machine block part state' events last ∧ same state last := by
  induction part generalizing state' with
  | nil => exact ⟨[], state', .nil state', related⟩
  | cons other part ih =>
    obtain ⟨here, within⟩ := List.forall_mem_cons.mp within
    obtain ⟨after, performed⟩ : ∃ after, machine block other state' after .proceed := unseen.goesOn given other here related
    obtain ⟨-, related⟩ := unseen.kept given other here related performed
    obtain ⟨events, last, ran, related⟩ := ih within related
    exact ⟨_, last, .cons performed ran, related⟩

/-- What the program does, the woven program does as well, with the groups in between. -/
theorem Executes.weave (unseen : Unseen machine group same shows)
    (woven : List.Forall₂ (Woven group) program program') {position last : Position I S} {events : List (I × S)}
    (executes : Executes machine program position events last) {position' : Position I S}
    (matched : Matches group same position position') :
    ∃ events' last', Executes machine program' position' events' last' ∧ Matches group same last last' ∧
      Interwoven same shows events events' := by
  induction executes generalizing position' with
  | stop => exact ⟨[], position', .stop position', matched, .nil⟩
  | @step block inst rest state after next events last performed _ ih =>
    obtain ⟨block', todo', state'⟩ := position'
    obtain ⟨sameBlock, todo, related⟩ := matched
    obtain rfl : block' = block := sameBlock
    cases todo with
    | @cons _ new _ rest' given later =>
      obtain ⟨shown, middle, ran, kept⟩ := unseen.straight given (fun _ member => member) block' related
      obtain ⟨after', performed', related'⟩ := unseen.forth given kept performed
      obtain ⟨events', last', executes', matched, interwoven⟩ := ih (matches_after woven later related' next)
      refine ⟨shown ++ (inst, middle) :: events', last', ?_, matched, ?_⟩
      · exact ran.executes.trans (.step performed' executes')
      · exact .cons (unseen.shown given related ran) kept interwoven

/-! ### The woven program without the groups -/

/-- The woven program is where the program is, or within the next group. `part` is what the group has done. -/
inductive Partway (machine : Machine I S) (group : I → List I → Prop) (same : S → S → Prop) :
    Position I S → List (I × S) → Position I S → Prop where
  | finished {block : Nat} {state state' : S} (related : same state state') :
      Partway machine group same ⟨block, [], state⟩ [] ⟨block, [], state'⟩
  | within {block : Nat} {inst : I} {rest rest' doneGroup todoGroup : List I} {state first state' : S}
      {part : List (I × S)} (given : group inst (doneGroup ++ todoGroup)) (later : Woven group rest rest')
      (entry : same state first) (ran : Straight machine block doneGroup first part state') (related : same state state') :
      Partway machine group same ⟨block, inst :: rest, state⟩ part ⟨block, todoGroup ++ inst :: rest', state'⟩

theorem Matches.partway {position position' : Position I S} (matched : Matches group same position position') :
    Partway machine group same position [] position' := by
  obtain ⟨block, todo, state⟩ := position
  obtain ⟨block', todo', state'⟩ := position'
  obtain ⟨sameBlock, woven, related⟩ := matched
  obtain rfl : block' = block := sameBlock
  cases woven with
  | nil => exact .finished related
  | @cons inst new _ _ given later =>
    have all : group inst ([] ++ new) := given
    exact .within all later related (.nil _) related

/-- What the woven program does is what the program does, with the groups in between, the last of them perhaps
only in part. -/
theorem Executes.unweave (unseen : Unseen machine group same shows)
    (woven : List.Forall₂ (Woven group) program program') {position' last' : Position I S} {events' : List (I × S)}
    (executes : Executes machine program' position' events' last') {position : Position I S} {part : List (I × S)}
    (partway : Partway machine group same position part position') :
    ∃ events last whole part', Executes machine program position events last ∧ part ++ events' = whole ++ part' ∧
      Interwoven same shows events whole ∧ Partway machine group same last part' last' := by
  induction executes generalizing position part with
  | stop position' => exact ⟨[], position, [], part, .stop position, List.append_nil _, .nil, partway⟩
  | @step block other rest state' after next events' last' performed _ ih =>
    generalize entry : (⟨block, other :: rest, state'⟩ : Position I S) = position' at partway
    cases partway with
    | finished => cases entry
    | @within _ inst todo todo' doneGroup todoGroup state first _ part given later start ran related =>
      cases todoGroup with
      | nil =>
        -- the instruction of the program itself
        cases entry
        rw [List.append_nil] at given
        obtain ⟨afterHere, performedHere, related'⟩ := unseen.back given related performed
        obtain ⟨events, last, whole, part', executes, split, interwoven, partway⟩ :=
          ih (matches_after woven later related' next).partway
        refine ⟨_, last, part ++ (other, state') :: whole, part', .step performedHere executes, ?_, ?_, partway⟩
        · rw [List.nil_append] at split
          rw [split, List.append_assoc, List.cons_append]
        · exact .cons (unseen.shown given start ran) related interwoven
      | cons new todoGroup =>
        cases entry
        obtain ⟨rfl, kept⟩ := unseen.kept given other (by simp) related performed
        have given' : group inst ((doneGroup ++ [other]) ++ todoGroup) := by simpa using given
        obtain ⟨events, last, whole, part', executes, split, interwoven, partway⟩ :=
          ih (.within given' later start (ran.append (.cons performed (.nil _))) kept)
        refine ⟨events, last, whole, part', executes, ?_, interwoven, partway⟩
        rw [← split, List.append_assoc]
        rfl

end

end Omniprobe.Lib
