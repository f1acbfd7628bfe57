import Omniprobe.Cache.Descriptor

/-!
# Names of instrumented kernels

The runtime guesses the name of a kernel's clone with `getInstrumentedName`; the compiler pass
names it in `cloneKernelWithExtraArg`.
-/

namespace Omniprobe
open Lib

/-! ### The clone the pass makes -/

/-- The parts of an `llvm::Function` that `cloneKernelWithExtraArg` reads and copies. -/
structure KernelFunction (Ty Body : Type) where
  name : Text
  returnType : Ty
  args : List (Ty × Text)
  isVarArg : Bool
  linkage : Nat
  addressSpace : Nat
  body : Body

/-- The clone takes one more pointer, which has no name. It is assumed that the module has no symbol of its name, which
LLVM would tell apart by a number. -/
def cloneKernelWithExtraArg {Ty Body : Type} (pointer : Ty) (origKernel : KernelFunction Ty Body) :
    KernelFunction Ty Body :=
  { origKernel with
    name := "__amd_crk_".toList ++ origKernel.name ++ "Pv".toList
    args := origKernel.args ++ [(pointer, [])] }

/-! ### The two branches of `getInstrumentedName` -/

def kdSuffix : Text := ".kd".toList

def insertPv (name : Text) : Text :=
  match Text.rfind kdSuffix name with
  | some pos => Text.insertAt name pos "Pv".toList
  | none => name ++ "Pv".toList

theorem getInstrumentedName_plain {name : Text} (plain : ')' ∉ name) :
    getInstrumentedName name = omniprobePrefix ++ insertPv name := by
  rw [getInstrumentedName, Text.findLast_eq_none plain]
  rfl

/-- The declaration with `void*` as a further parameter. -/
def withPointer (before after : Text) : Text := before ++ ", void*)".toList ++ after

/-- Where the marker goes: after the return type, when the first space comes before the first bracket. -/
def markDeclaration (decl : Text) : Text :=
  Text.insertAt decl
    (if Text.positionAfter (Text.findFirst ' ' decl) (Text.findFirst '(' decl) then 0
      else ((Text.findFirst ' ' decl).map (· + 1)).getD 0) omniprobePrefix

theorem getInstrumentedName_declaration (before : Text) {after : Text} (last : ')' ∉ after) :
    getInstrumentedName (before ++ ')' :: after) = markDeclaration (withPointer before after) := by
  rw [getInstrumentedName, Text.findLast_append_cons before last]
  have replaced : Text.replaceAt (before ++ ')' :: after) before.length 1 ", void*)".toList =
      withPointer before after := by
    rw [Text.replaceAt, withPointer, List.take_left, ← List.drop_drop, List.drop_left]
    rfl
  simp only [replaced, markDeclaration]

/-! ### Names without a signature -/

theorem insertPv_of_rfind_zero (before : Text) {after : Text}
    (last : Text.rfind kdSuffix (kdSuffix ++ after) = some 0) :
    insertPv (before ++ (kdSuffix ++ after)) = (before ++ "Pv".toList) ++ (kdSuffix ++ after) := by
  rw [insertPv, Text.rfind_append last]
  simp only [Text.insertAt, Nat.add_zero, List.take_left, List.drop_left]

theorem insertPv_of_absent {name : Text} (absent : Text.rfind kdSuffix name = none) :
    insertPv name = name ++ "Pv".toList := by
  rw [insertPv, absent]

theorem rfind_append_pv {name : Text} (absent : Text.rfind kdSuffix name = none) :
    Text.rfind kdSuffix (name ++ "Pv".toList) = none :=
  Text.rfind_append_eq_none absent (by simp [kdSuffix]) (by decide)

/-- The last `.kd` of a name is still the last one after the edit, two characters later. -/
theorem rfind_insertPv (name : Text) :
    Text.rfind kdSuffix (insertPv name) = (Text.rfind kdSuffix name).map (· + 2) := by
  cases found : Text.rfind kdSuffix name with
  | none =>
    rw [insertPv_of_absent found, rfind_append_pv found]
    rfl
  | some pos =>
    obtain ⟨before, after, rfl, length, last⟩ := Text.rfind_split found
    rw [insertPv_of_rfind_zero before last, Text.rfind_append last, List.length_append, length]
    rfl

theorem insertPv_injective : Function.Injective insertPv := by
  intro first second same
  have positions := congrArg (Text.rfind kdSuffix) same
  rw [rfind_insertPv, rfind_insertPv] at positions
  cases found : Text.rfind kdSuffix first with
  | none =>
    have found' : Text.rfind kdSuffix second = none := by simpa [found] using positions.symm
    rw [insertPv_of_absent found, insertPv_of_absent found'] at same
    exact List.append_cancel_right same
  | some pos =>
    have found' : Text.rfind kdSuffix second = some pos := by simpa [found, eq_comm] using positions
    obtain ⟨before, after, rfl, length, last⟩ := Text.rfind_split found
    obtain ⟨before', after', rfl, length', last'⟩ := Text.rfind_split found'
    rw [insertPv_of_rfind_zero before last, insertPv_of_rfind_zero before' last'] at same
    have lengths : (before ++ "Pv".toList).length = (before' ++ "Pv".toList).length := by
      rw [List.length_append, List.length_append, length, length']
    obtain ⟨front, back⟩ := List.append_inj same lengths
    rw [List.append_cancel_right front, back]

theorem mem_insertPv {c : Char} {name : Text} (inside : c ∈ insertPv name) : c ∈ name ∨ c ∈ "Pv".toList := by
  rw [insertPv] at inside
  cases found : Text.rfind kdSuffix name with
  | none =>
    rw [found] at inside
    exact List.mem_append.mp inside
  | some pos =>
    rw [found] at inside
    exact Text.mem_insertAt.mp inside

/-! ### Names with a signature -/

theorem withPointer_injective {before before' after after' : Text} (last : ')' ∉ after) (last' : ')' ∉ after')
    (same : withPointer before after = withPointer before' after') : before = before' ∧ after = after' := by
  have split : ∀ before after : Text,
      withPointer before after = (before ++ ", void*".toList) ++ ')' :: after := by
    intro before after
    simp [withPointer]
  rw [split, split] at same
  obtain ⟨front, back⟩ := Text.last_split_unique last last' same
  exact ⟨List.append_cancel_right front, back⟩

theorem withPointer_space (before after : Text) :
    ∃ head tail, withPointer before after = head ++ ' ' :: tail ∧ ' ' ∉ head := by
  have present : ' ' ∈ withPointer before after := by simp [withPointer]
  obtain ⟨head, tail, split, absent⟩ := List.eq_append_cons_of_mem present
  exact ⟨head, tail, split, absent⟩

/-- With a bracket before the first space there is no return type. -/
theorem markDeclaration_of_bracket {head : Text} (tail : Text) (absent : ' ' ∉ head) (bracket : '(' ∈ head) :
    markDeclaration (head ++ ' ' :: tail) = (omniprobePrefix ++ head) ++ ' ' :: tail := by
  obtain ⟨front, back, rfl, first⟩ := List.eq_append_cons_of_mem bracket
  have space := Text.findFirst_append_cons absent tail
  have opened : Text.findFirst '(' ((front ++ '(' :: back) ++ ' ' :: tail) = some front.length := by
    rw [List.append_assoc, List.cons_append]
    exact Text.findFirst_append_cons first _
  have later : Text.positionAfter (some (front ++ '(' :: back).length) (some front.length) = true := by
    rw [Text.positionAfter, decide_eq_true_iff, List.length_append, List.length_cons]
    omega
  rw [markDeclaration, space, opened, if_pos later]
  simp [Text.insertAt]

theorem markDeclaration_of_returnType {head : Text} (tail : Text) (absent : ' ' ∉ head) (bracket : '(' ∉ head) :
    markDeclaration (head ++ ' ' :: tail) = head ++ ' ' :: (omniprobePrefix ++ tail) := by
  have space := Text.findFirst_append_cons absent tail
  have before : Text.positionAfter (some head.length) (Text.findFirst '(' (head ++ ' ' :: tail)) = false := by
    have none := Text.findFirst_eq_none bracket
    unfold Text.findFirst at none ⊢
    rw [List.findIdx?_append, none, Option.none_or]
    cases List.findIdx? (· == '(') (' ' :: tail) with
    | none => rfl
    | some pos =>
      rw [Option.map_some, Text.positionAfter, decide_eq_false_iff_not]
      omega
  rw [markDeclaration, space, before, if_neg Bool.false_ne_true, Option.map_some, Option.getD_some, Text.insertAt,
    ← List.drop_drop, List.take_append, List.drop_left]
  simp

theorem omniprobePrefix_no_space : ' ' ∉ omniprobePrefix := by decide

/-- A marked declaration has a bracket before its first space exactly when the unmarked one has. -/
theorem markDeclaration_injective {head head' tail tail' : Text} (absent : ' ' ∉ head) (absent' : ' ' ∉ head')
    (same : markDeclaration (head ++ ' ' :: tail) = markDeclaration (head' ++ ' ' :: tail')) :
    head ++ ' ' :: tail = head' ++ ' ' :: tail' := by
  have marked : ∀ {head : Text}, ' ' ∉ head → ' ' ∉ omniprobePrefix ++ head := by
    intro head absent
    simpa using ⟨omniprobePrefix_no_space, absent⟩
  by_cases bracket : '(' ∈ head <;> by_cases bracket' : '(' ∈ head'
  · rw [markDeclaration_of_bracket tail absent bracket, markDeclaration_of_bracket tail' absent' bracket'] at same
    obtain ⟨front, back⟩ := Text.first_split_unique (marked absent) (marked absent') same
    rw [List.append_cancel_left front, back]
  · rw [markDeclaration_of_bracket tail absent bracket,
      markDeclaration_of_returnType tail' absent' bracket'] at same
    obtain ⟨front, -⟩ := Text.first_split_unique (marked absent) absent' same
    exact absurd (front ▸ List.mem_append_right _ bracket) bracket'
  · rw [markDeclaration_of_returnType tail absent bracket,
      markDeclaration_of_bracket tail' absent' bracket'] at same
    obtain ⟨front, -⟩ := Text.first_split_unique absent (marked absent') same
    exact absurd (front ▸ List.mem_append_right _ bracket') bracket
  · rw [markDeclaration_of_returnType tail absent bracket,
      markDeclaration_of_returnType tail' absent' bracket'] at same
    obtain ⟨front, back⟩ := Text.first_split_unique absent absent' same
    rw [front, List.append_cancel_left back]

theorem mem_markDeclaration {c : Char} {decl : Text} (inside : c ∈ decl) : c ∈ markDeclaration decl := by
  rw [markDeclaration, Text.mem_insertAt]
  exact .inl inside

/-! ### Collision freedom -/

theorem bracket_mem_getInstrumentedName (name : Text) : ')' ∈ getInstrumentedName name ↔ ')' ∈ name := by
  constructor
  · intro inside
    by_contra plain
    rw [getInstrumentedName_plain plain] at inside
    rcases List.mem_append.mp inside with marker | edited
    · exact absurd marker (by decide)
    · rcases mem_insertPv edited with original | added
      · exact plain original
      · exact absurd added (by decide)
  · intro inside
    obtain ⟨before, after, rfl, last⟩ := Text.exists_last_split inside
    rw [getInstrumentedName_declaration before last]
    exact mem_markDeclaration (by simp [withPointer])

theorem getInstrumentedName_injective : Function.Injective getInstrumentedName := by
  intro first second same
  by_cases signed : ')' ∈ first
  · have signed' : ')' ∈ second := by
      rwa [← bracket_mem_getInstrumentedName, ← same, bracket_mem_getInstrumentedName]
    obtain ⟨before, after, rfl, last⟩ := Text.exists_last_split signed
    obtain ⟨before', after', rfl, last'⟩ := Text.exists_last_split signed'
    rw [getInstrumentedName_declaration before last, getInstrumentedName_declaration before' last'] at same
    obtain ⟨head, tail, split, absent⟩ := withPointer_space before after
    obtain ⟨head', tail', split', absent'⟩ := withPointer_space before' after'
    rw [split, split'] at same
    have declarations := markDeclaration_injective absent absent' same
    rw [← split, ← split'] at declarations
    obtain ⟨front, back⟩ := withPointer_injective last last' declarations
    rw [front, back]
  · have signed' : ')' ∉ second := by
      rwa [← bracket_mem_getInstrumentedName, ← same, bracket_mem_getInstrumentedName]
    rw [getInstrumentedName_plain signed, getInstrumentedName_plain signed'] at same
    exact insertPv_injective (List.append_cancel_left same)

theorem getInstrumentedName_symbol {symbol : Text} (plain : ')' ∉ symbol) :
    getInstrumentedName (symbol ++ kdSuffix) = omniprobePrefix ++ symbol ++ "Pv".toList ++ kdSuffix := by
  have plain' : ')' ∉ symbol ++ kdSuffix := by simpa [kdSuffix] using plain
  have last : Text.rfind kdSuffix (kdSuffix ++ []) = some 0 := by decide
  have edited := insertPv_of_rfind_zero symbol last
  rw [List.append_nil] at edited
  rw [getInstrumentedName_plain plain', edited]
  simp only [List.append_assoc]

/-- No two names share an instrumented name, and the runtime's guess for a kernel symbol is the
symbol its clone is given at compile time. -/
theorem instrumentedNames_distinct_and_agree {Ty Body : Type} (pointer : Ty) :
    (∀ first second : Text, getInstrumentedName first = getInstrumentedName second → first = second) ∧
    ∀ kernel : KernelFunction Ty Body, ')' ∉ kernel.name →
      getInstrumentedName (kernel.name ++ ".kd".toList) =
        (cloneKernelWithExtraArg pointer kernel).name ++ ".kd".toList :=
  ⟨fun _ _ same => getInstrumentedName_injective same, fun _ plain => getInstrumentedName_symbol plain⟩

theorem instrumentedNames_agree_sample :
    getInstrumentedName "_Z3addPfS_i.kd".toList = "__amd_crk__Z3addPfS_iPv.kd".toList := by
  obtain ⟨-, agree⟩ := @instrumentedNames_distinct_and_agree Text Unit []
  exact agree ⟨"_Z3addPfS_i".toList, [], [], false, 0, 0, ()⟩ (by decide)

end Omniprobe
