import Omniprobe.Hsa

/-!
# Argument descriptors

`KernelArgHelper`: the part of a code object's metadata that is needed to rewrite a kernarg
segment, and the naming convention of instrumented kernels.
-/

namespace Omniprobe
open Lib

def argAlign : UInt64 := 8

def roundArgsLength (number : UInt64) : UInt64 := ((number + (argAlign - 1)) / argAlign) * argAlign

structure ArgDescriptor where
  explicitArgsLength : UInt64 := 0
  explicitArgsCount : UInt64 := 0
  hiddenArgsLength : UInt64 := 0
  kernargLength : UInt64 := 0
  privateSegmentSize : UInt32 := 0
  groupSegmentSize : UInt32 := 0
  cloneHiddenArgsLength : UInt64 := 0
  deriving DecidableEq, Repr

def hiddenKind : Text := "hidden_".toList

def ArgMetadata.isHidden (arg : ArgMetadata) : Bool := hiddenKind.isPrefixOf arg.valueKind

def addArg (desc : ArgDescriptor) (arg : ArgMetadata) : ArgDescriptor :=
  if arg.isHidden then { desc with hiddenArgsLength := arg.offset + arg.size }
  else
    { desc with
      explicitArgsCount := desc.explicitArgsCount + 1
      explicitArgsLength := arg.offset + arg.size }

/-- The descriptor `computeKernargData` makes for one kernel. -/
def kernargDescriptor (kernel : KernelMetadata) : ArgDescriptor :=
  let desc := kernel.args.foldl addArg
    { privateSegmentSize := kernel.privateSegmentFixedSize.toUInt32
      groupSegmentSize := kernel.groupSegmentFixedSize.toUInt32
      kernargLength := kernel.kernargSegmentSize }
  let explicit := min (roundArgsLength desc.explicitArgsLength) desc.kernargLength
  { desc with explicitArgsLength := explicit, hiddenArgsLength := desc.kernargLength - explicit }

/-- `KernelArgHelper::kernels_` after `computeKernargData`. A later kernel of the same
demangled name replaces an earlier one. -/
def computeKernargData (rt : Runtime) (kernels : List KernelMetadata) : Map Text ArgDescriptor :=
  kernels.foldl (fun map kernel => map.insert (rt.demangleName kernel.symbol) (kernargDescriptor kernel)) ∅

/-! ### The descriptor of a kernel -/

/-- The last kernel of the given demangled name: the one whose descriptor is kept. -/
def lastNamed (rt : Runtime) (name : Text) (kernels : List KernelMetadata) : Option KernelMetadata :=
  (kernels.filter fun kernel => rt.demangleName kernel.symbol = name).getLast?

theorem computeKernargData_find (rt : Runtime) (kernels : List KernelMetadata) (name : Text) :
    (computeKernargData rt kernels)[name]? = (lastNamed rt name kernels).map kernargDescriptor := by
  unfold computeKernargData lastNamed
  induction kernels using List.reverseRecOn with
  | nil => simp
  | append_singleton kernels kernel ih =>
    rw [List.foldl_append, List.foldl_cons, List.foldl_nil, find_insert, List.filter_append]
    by_cases same : rt.demangleName kernel.symbol = name
    · simp [same]
    · simp [same, ih]

/-- The kernels have one of the name. -/
def Lists (rt : Runtime) (name : Text) (kernels : List KernelMetadata) : Prop :=
  ∃ kernel ∈ kernels, rt.demangleName kernel.symbol = name

theorem lastNamed_eq_none_iff {rt : Runtime} {name : Text} {kernels : List KernelMetadata} :
    lastNamed rt name kernels = none ↔ ¬Lists rt name kernels := by
  simp [lastNamed, Lists]

theorem foldl_addArg (args : List ArgMetadata) (desc : ArgDescriptor) :
    (args.foldl addArg desc).kernargLength = desc.kernargLength ∧
    (args.foldl addArg desc).explicitArgsLength =
      ((args.filter fun arg => !arg.isHidden).getLast?.map fun arg => arg.offset + arg.size).getD
        desc.explicitArgsLength := by
  induction args using List.reverseRecOn with
  | nil => simp
  | append_singleton args arg ih =>
    obtain ⟨length, explicit⟩ := ih
    rw [List.foldl_append, List.foldl_cons, List.foldl_nil, List.filter_append]
    cases hidden : arg.isHidden with
    | true => simp [addArg, hidden, length, explicit]
    | false => simp [addArg, hidden, length]

theorem foldl_addArg_cloneHidden (args : List ArgMetadata) (desc : ArgDescriptor) :
    (args.foldl addArg desc).cloneHiddenArgsLength = desc.cloneHiddenArgsLength := by
  induction args generalizing desc with
  | nil => rfl
  | cons arg rest ih =>
    rw [List.foldl_cons, ih, addArg]
    split <;> rfl

/-- The length of the original's hidden arguments is not part of what is extracted. -/
theorem computeKernargData_cloneHidden {rt : Runtime} {kernels : List KernelMetadata} {name : Text}
    {desc : ArgDescriptor} (found : (computeKernargData rt kernels)[name]? = some desc) :
    desc.cloneHiddenArgsLength = 0 := by
  rw [computeKernargData_find] at found
  obtain ⟨kernel, -, rfl⟩ := Option.map_eq_some_iff.mp found
  exact foldl_addArg_cloneHidden kernel.args _

/-- Where the explicit arguments end, in the code's arithmetic. -/
def explicitEnd (args : List ArgMetadata) : UInt64 :=
  ((args.filter fun arg => !arg.isHidden).getLast?.map fun arg => arg.offset + arg.size).getD 0

theorem kernargDescriptor_lengths (kernel : KernelMetadata) :
    (kernargDescriptor kernel).kernargLength = kernel.kernargSegmentSize ∧
    (kernargDescriptor kernel).explicitArgsLength =
      min (roundArgsLength (explicitEnd kernel.args)) kernel.kernargSegmentSize ∧
    (kernargDescriptor kernel).hiddenArgsLength = kernel.kernargSegmentSize -
      min (roundArgsLength (explicitEnd kernel.args)) kernel.kernargSegmentSize := by
  simp only [kernargDescriptor, foldl_addArg, explicitEnd, and_self]

/-! ### Instrumented names -/

def omniprobePrefix : Text := "__amd_crk_".toList

def getInstrumentedName (funcDecl : Text) : Text :=
  match Text.findLast ')' funcDecl with
  | some pos =>
    let result := Text.replaceAt funcDecl pos 1 ", void*)".toList
    let space := Text.findFirst ' ' result
    let retType := Text.findFirst '(' result
    -- `pos = -1` and `npos` both make the insert position `pos + 1` wrap to 0.
    let start := if Text.positionAfter space retType then 0 else (space.map (· + 1)).getD 0
    Text.insertAt result start omniprobePrefix
  | none =>
    let result := match Text.rfind ".kd".toList funcDecl with
      | some pos => Text.insertAt funcDecl pos "Pv".toList
      | none => funcDecl ++ "Pv".toList
    "__amd_crk_".toList ++ result

theorem getInstrumentedName_ne_nil (funcDecl : Text) : getInstrumentedName funcDecl ≠ [] := by
  unfold getInstrumentedName
  cases Text.findLast ')' funcDecl with
  | some pos => exact Text.insertAt_ne_nil _ _ (by decide)
  | none => exact List.append_ne_nil_of_left_ne_nil (by decide) _

example : getInstrumentedName "foo(int)".toList = "__amd_crk_foo(int, void*)".toList := by decide
example : getInstrumentedName "void foo<a b>(int)".toList = "void __amd_crk_foo<a b>(int, void*)".toList := by
  decide
example : getInstrumentedName "foo.kd".toList = "__amd_crk_fooPv.kd".toList := by decide

end Omniprobe
