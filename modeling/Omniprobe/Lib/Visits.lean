import Omniprobe.Lib.Executions

/-!
# Visits of blocks

Where control leaves a block at its last instruction, an execution is a list of whole runs of blocks and
perhaps a part of one more.
-/

namespace Omniprobe.Lib

section
variable {I S : Type}

/-- A run of a block from its first instruction to its last. -/
structure Visit (I S : Type) where
  block : Nat
  events : List (I × S)

/-- Only the last instruction of a block jumps, and it does not go on; any other may end the execution. -/
def Structured (machine : Machine I S) (program : List (List I)) : Prop :=
  ∀ (block : Nat) (insts rest : List I) (inst : I), program[block]?.getD [] = insts ++ inst :: rest →
    ∀ (state after : S) (next : Next), machine block inst state after next →
      (rest = [] → next ≠ .proceed) ∧ (rest ≠ [] → ∀ target, next ≠ .jump target)

/-- The blocks visited from the start of a block on, and the part of a block behind them. -/
inductive Tour (machine : Machine I S) (program : List (List I)) :
    Nat → S → List (Visit I S) → List (I × S) → Position I S → Prop where
  | within {block : Nat} {insts rest : List I} {state middle : S} {part : List (I × S)}
      (split : program[block]?.getD [] = insts ++ rest) (ran : Straight machine block insts state part middle)
      (ahead : rest = [] → insts = []) : Tour machine program block state [] part ⟨block, rest, middle⟩
  | quit {block : Nat} {insts rest : List I} {inst : I} {state middle after : S} {part : List (I × S)}
      (split : program[block]?.getD [] = insts ++ inst :: rest) (ahead : rest ≠ [])
      (ran : Straight machine block insts state part middle) (left : machine block inst middle after .leave) :
      Tour machine program block state [] (part ++ [(inst, middle)]) ⟨block, [], after⟩
  | finish {block : Nat} {insts : List I} {inst : I} {state middle after : S} {events : List (I × S)}
      (split : program[block]?.getD [] = insts ++ [inst]) (ran : Straight machine block insts state events middle)
      (left : machine block inst middle after .leave) :
      Tour machine program block state [⟨block, events ++ [(inst, middle)]⟩] [] ⟨block, [], after⟩
  | jump {block target : Nat} {insts : List I} {inst : I} {state middle after : S} {events part : List (I × S)}
      {visits : List (Visit I S)} {last : Position I S} (split : program[block]?.getD [] = insts ++ [inst])
      (ran : Straight machine block insts state events middle) (jumped : machine block inst middle after (.jump target))
      (later : Tour machine program target after visits part last) :
      Tour machine program block state (⟨block, events ++ [(inst, middle)]⟩ :: visits) part last

variable {machine : Machine I S} {program program' : List (List I)}

theorem Executes.of_finished {block : Nat} {state : S} {events : List (I × S)} {last : Position I S}
    (executes : Executes machine program ⟨block, [], state⟩ events last) : events = [] ∧ last = ⟨block, [], state⟩ := by
  cases executes
  exact ⟨rfl, rfl⟩

/-- `insts` are the instructions of the block that are behind. -/
theorem Executes.tour_from (structured : Structured machine program) {position last : Position I S} {events : List (I × S)}
    (executes : Executes machine program position events last) {insts : List I} {state : S} {behind : List (I × S)}
    (split : program[position.block]?.getD [] = insts ++ position.todo)
    (ran : Straight machine position.block insts state behind position.state) (ahead : position.todo = [] → insts = []) :
    ∃ visits part, behind ++ events = visits.flatMap Visit.events ++ part ∧
      Tour machine program position.block state visits part last := by
  induction executes generalizing insts state behind with
  | stop position => exact ⟨[], behind, List.append_nil _, .within split ran ahead⟩
  | @step block inst rest here after next events last performed later ih =>
    obtain ⟨ends, stays⟩ := structured block insts rest inst split here after next performed
    cases next with
    | proceed =>
      have more : Straight machine block (insts ++ [inst]) state (behind ++ [(inst, here)]) after :=
        ran.append (.cons performed (.nil _))
      have split' : program[block]?.getD [] = (insts ++ [inst]) ++ rest := by simpa using split
      obtain ⟨visits, part, same, tour⟩ := ih split' more fun nothing => (ends nothing rfl).elim
      exact ⟨visits, part, by simpa using same, tour⟩
    | jump target =>
      have nothing : rest = [] := by
        by_contra more
        exact stays more target rfl
      subst nothing
      obtain ⟨visits, part, same, tour⟩ := ih rfl (.nil after) fun _ => rfl
      refine ⟨⟨block, behind ++ [(inst, here)]⟩ :: visits, part, ?_, .jump split ran performed tour⟩
      rw [List.nil_append] at same
      simp [same]
    | leave =>
      obtain ⟨rfl, rfl⟩ := later.of_finished
      by_cases nothing : rest = []
      · subst nothing
        exact ⟨[⟨block, behind ++ [(inst, here)]⟩], [], by simp, .finish split ran performed⟩
      · exact ⟨[], behind ++ [(inst, here)], rfl, .quit split nothing ran performed⟩

theorem Executes.tour (structured : Structured machine program) {block : Nat} {state : S} {events : List (I × S)}
    {last : Position I S} (executes : Executes machine program (.enter program block state) events last) :
    ∃ visits part, events = visits.flatMap Visit.events ++ part ∧ Tour machine program block state visits part last :=
  executes.tour_from structured rfl (.nil state) fun _ => rfl

/-! ### Woven programs -/

variable {group : I → List I → Prop}

theorem Woven.of_nil {todo : List I} (woven : Woven group todo []) : todo = [] := by
  generalize empty : ([] : List I) = todo' at woven
  cases woven with
  | nil => rfl
  | cons => simp at empty

/-- An instruction of a woven list is new, or it is of the list and as far from the end. -/
theorem Woven.split {todo todo' insts' rest' : List I} {inst : I} (woven : Woven group todo todo')
    (split : todo' = insts' ++ inst :: rest') :
    (rest' ≠ [] ∧ ∃ before new, group before new ∧ inst ∈ new) ∨
      ∃ insts rest, todo = insts ++ inst :: rest ∧ Woven group rest rest' := by
  induction woven generalizing insts' with
  | nil => simp at split
  | @cons before new rest rest'' given later ih =>
    rcases List.append_eq_append_iff.mp split with ⟨more, here, there⟩ | ⟨more, here, there⟩
    · cases more with
      | nil =>
        obtain ⟨rfl, rfl⟩ := List.cons.inj there
        exact .inr ⟨[], rest, rfl, later⟩
      | cons first more =>
        obtain ⟨rfl, behind⟩ := List.cons.inj there
        rcases ih behind with ⟨nonempty, inside⟩ | ⟨insts, rest, rfl, ahead⟩
        · exact .inl ⟨nonempty, inside⟩
        · exact .inr ⟨_ :: insts, rest, rfl, ahead⟩
    · cases more with
      | nil =>
        obtain ⟨rfl, rfl⟩ := List.cons.inj there
        exact .inr ⟨[], rest, rfl, later⟩
      | cons first more =>
        obtain ⟨rfl, rfl⟩ := List.cons.inj there
        exact .inl ⟨by simp, before, new, given, by simp [here]⟩

/-- New instructions that go on leave a program structured. -/
theorem Structured.weave (structured : Structured machine program)
    (woven : List.Forall₂ (Woven group) program program')
    (goesOn : ∀ {before : I} {new : List I}, group before new → ∀ inst ∈ new, ∀ {block : Nat} {state after : S} {next : Next},
      machine block inst state after next → next = .proceed) : Structured machine program' := by
  intro block insts' rest' inst split state after next performed
  rcases (woven_block woven block).split split with ⟨nonempty, before, new, given, member⟩ | ⟨insts, rest, same, later⟩
  · obtain rfl := goesOn given inst member performed
    exact ⟨fun nothing => (nonempty nothing).elim, fun _ target => by simp⟩
  · obtain ⟨ends, stays⟩ := structured block insts rest inst same state after next performed
    refine ⟨fun nothing => ?_, fun more => stays ?_⟩
    · subst nothing
      exact ends later.of_nil
    · rintro rfl
      cases later
      exact more rfl

end

end Omniprobe.Lib
