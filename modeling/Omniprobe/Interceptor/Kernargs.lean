import Omniprobe.Cache.CoCache
import Omniprobe.Lib.Buffer

/-!
# Rewriting a kernarg segment

`fixupKernArgs` copies the application's kernarg segment into one laid out for the instrumented
clone, which takes one more pointer between the explicit and the hidden arguments. This module
gives the AMDGPU layout of a kernel and of its clone, computes the descriptors that
`computeKernargData` extracts for them, and shows that every argument arrives at its place.
-/

namespace Omniprobe
open Lib

def pointerSize : UInt64 := 8

/-- The writes of `fixupKernArgs` into `dst`; `none` where one of its assertions fails. -/
def fixupKernArgs (dst src comms : Address) (desc : ArgDescriptor) : Option (List Write) :=
  if dst = 0 ∨ src = 0 then none
  else
    let commsLoc := desc.explicitArgsLength - pointerSize
    let front := [.memset desc.kernargLength.toNat, .memcpy 0 0 commsLoc.toNat]
    let back := [.store commsLoc.toNat comms]
    if desc.cloneHiddenArgsLength ≠ 0 then
      if desc.cloneHiddenArgsLength ≤ desc.kernargLength - desc.explicitArgsLength then
        some (front ++ [.memcpy desc.explicitArgsLength.toNat commsLoc.toNat desc.cloneHiddenArgsLength.toNat]
          ++ back)
      else none
    else some (front ++ back)

theorem toNat_roundArgsLength {n : UInt64} (h : n.toNat + 7 < 2 ^ 64) :
    (roundArgsLength n).toNat = round8 n.toNat := by
  have seven : (argAlign - 1).toNat = 7 := rfl
  have eight : argAlign.toNat = 8 := rfl
  have sum := toNat_add_lt (a := n) (b := argAlign - 1) (by rw [seven]; exact h)
  unfold roundArgsLength round8
  rw [UInt64.toNat_mul, UInt64.toNat_div, sum, seven, eight]
  omega

/-! ### Layouts -/

def ArgMetadata.stop (arg : ArgMetadata) : Nat := arg.offset.toNat + arg.size.toNat

def lastStop (args : List ArgMetadata) : Nat := (args.getLast?.map ArgMetadata.stop).getD 0

/-- A kernel's kernarg segment as the AMDGPU ABI lays it out: explicit arguments, then hidden
ones from the next multiple of 8, all inside the segment. -/
structure KernargLayout where
  explicit : List ArgMetadata
  hidden : List ArgMetadata
  size : UInt64
  explicitKind : ∀ arg ∈ explicit, arg.isHidden = false
  hiddenKind : ∀ arg ∈ hidden, arg.isHidden = true
  increasing : (explicit ++ hidden).Pairwise fun arg next => arg.stop ≤ next.offset.toNat
  hiddenAligned : ∀ arg ∈ hidden, round8 (lastStop explicit) ≤ arg.offset.toNat
  fits : ∀ arg ∈ explicit ++ hidden, arg.stop ≤ size.toNat

namespace KernargLayout

/-- The byte where the explicit arguments end, rounded up: where the clone's extra pointer goes. -/
def pointerOffset (layout : KernargLayout) : Nat := round8 (lastStop layout.explicit)

def Original (layout : KernargLayout) (kernel : KernelMetadata) : Prop :=
  kernel.args = layout.explicit ++ layout.hidden ∧ kernel.kernargSegmentSize = layout.size

def shifted (arg : ArgMetadata) : ArgMetadata := { arg with offset := arg.offset + 8 }

/-- The instrumented clone: one more pointer after the explicit arguments, the hidden ones
moved up by its size. -/
structure Clone (layout : KernargLayout) (pointer : ArgMetadata) (kernel : KernelMetadata) : Prop where
  args : kernel.args = layout.explicit ++ [pointer] ++ layout.hidden.map shifted
  pointerKind : pointer.isHidden = false
  pointerOffset : pointer.offset.toNat = layout.pointerOffset
  pointerSize : pointer.size = 8
  room : 8 + max layout.size.toNat layout.pointerOffset ≤ kernel.kernargSegmentSize.toNat

theorem stop_le_lastStop {args : List ArgMetadata}
    (increasing : args.Pairwise fun arg next => arg.stop ≤ next.offset.toNat) {arg : ArgMetadata}
    (member : arg ∈ args) : arg.stop ≤ lastStop args := by
  induction args using List.reverseRecOn with
  | nil => simp at member
  | append_singleton args last ih =>
    have final : lastStop (args ++ [last]) = last.stop := by simp [lastStop]
    rw [final]
    rcases List.mem_append.mp member with earlier | same
    · have before := (List.pairwise_append.mp increasing).2.2 arg earlier last (by simp)
      exact Nat.le_trans before (Nat.le_add_right _ _)
    · obtain rfl := List.mem_singleton.mp same
      exact Nat.le_refl _

variable (layout : KernargLayout)

theorem explicit_stop {arg : ArgMetadata} (member : arg ∈ layout.explicit) :
    arg.stop ≤ layout.pointerOffset := by
  have ordered := (List.pairwise_append.mp layout.increasing).1
  exact Nat.le_trans (stop_le_lastStop ordered member) (le_round8 _)

theorem filter_explicit : layout.explicit.filter (fun arg => !arg.isHidden) = layout.explicit := by
  apply List.filter_eq_self.mpr
  intro arg member
  simp [layout.explicitKind arg member]

theorem filter_hidden : layout.hidden.filter (fun arg => !arg.isHidden) = [] := by
  apply List.filter_eq_nil_iff.mpr
  intro arg member
  simp [layout.hiddenKind arg member]

theorem filter_shifted : (layout.hidden.map shifted).filter (fun arg => !arg.isHidden) = [] := by
  apply List.filter_eq_nil_iff.mpr
  intro arg member
  obtain ⟨source, present, rfl⟩ := List.mem_map.mp member
  simpa [shifted, ArgMetadata.isHidden] using layout.hiddenKind source present

theorem explicitEnd_original :
    (explicitEnd (layout.explicit ++ layout.hidden)).toNat = lastStop layout.explicit := by
  unfold explicitEnd lastStop
  rw [List.filter_append, layout.filter_explicit, layout.filter_hidden, List.append_nil]
  cases last : layout.explicit.getLast? with
  | none => rfl
  | some arg =>
    have fits := layout.fits arg (List.mem_append_left _ (List.mem_of_getLast? last))
    have bound := layout.size.toNat_lt
    exact toNat_add_lt (Nat.lt_of_le_of_lt fits bound)

/-! ### The two descriptors -/

section
variable {layout} {original clone : KernelMetadata} {pointer : ArgMetadata}

theorem original_lengths (isOriginal : layout.Original original) (fits : layout.pointerOffset < 2 ^ 64) :
    (kernargDescriptor original).kernargLength = layout.size ∧
    (kernargDescriptor original).explicitArgsLength.toNat = min layout.pointerOffset layout.size.toNat ∧
    (kernargDescriptor original).hiddenArgsLength.toNat = layout.size.toNat - layout.pointerOffset := by
  obtain ⟨args, size⟩ := isOriginal
  obtain ⟨length, explicit, hidden⟩ := kernargDescriptor_lengths original
  rw [args, size] at explicit hidden
  have stop := layout.explicitEnd_original
  have rounded : (roundArgsLength (explicitEnd (layout.explicit ++ layout.hidden))).toNat =
      layout.pointerOffset := by
    unfold pointerOffset at fits ⊢
    rw [← stop] at fits ⊢
    exact toNat_roundArgsLength (by unfold round8 at fits; omega)
  have smaller : (min (roundArgsLength (explicitEnd (layout.explicit ++ layout.hidden))) layout.size).toNat =
      min layout.pointerOffset layout.size.toNat := by
    rw [toNat_min, rounded]
  refine ⟨length.trans size, by rw [explicit, smaller], ?_⟩
  rw [hidden, toNat_sub_le (by rw [smaller]; exact Nat.min_le_right _ _), smaller]
  omega

theorem clone_lengths (isClone : layout.Clone pointer clone) :
    (kernargDescriptor clone).kernargLength = clone.kernargSegmentSize ∧
    (kernargDescriptor clone).explicitArgsLength.toNat = layout.pointerOffset + 8 := by
  obtain ⟨length, explicit, -⟩ := kernargDescriptor_lengths clone
  refine ⟨length, ?_⟩
  have room := isClone.room
  have bound := clone.kernargSegmentSize.toNat_lt
  have last : explicitEnd clone.args = pointer.offset + pointer.size := by
    unfold explicitEnd
    rw [isClone.args, List.filter_append, List.filter_append, layout.filter_explicit, layout.filter_shifted]
    simp [isClone.pointerKind]
  have size : pointer.size.toNat = 8 := by rw [isClone.pointerSize]; rfl
  have stop : (explicitEnd clone.args).toNat = layout.pointerOffset + 8 := by
    rw [last, toNat_add_lt (by rw [isClone.pointerOffset, size]; omega), isClone.pointerOffset, size]
  have rounded : (roundArgsLength (explicitEnd clone.args)).toNat = layout.pointerOffset + 8 := by
    have multiple : round8 (layout.pointerOffset + 8) = layout.pointerOffset + 8 := by
      unfold pointerOffset round8
      omega
    -- The pointer ends on a multiple of 8 below `2 ^ 64`, so rounding it up cannot wrap.
    have below : layout.pointerOffset + 8 + 7 < 2 ^ 64 := by
      unfold pointerOffset round8 at room ⊢
      omega
    rw [toNat_roundArgsLength (by rw [stop]; exact below), stop, multiple]
  rw [explicit, toNat_min, rounded]
  omega

end

/-- The descriptor that the dispatch of an instrumented kernel gets: that of the clone, with the hidden length of the
original. -/
theorem getArgDescriptor_clone (rt : Runtime) (cache : CoCache) (agent : Agent) (name : Text)
    {layout : KernargLayout} {original clone : KernelMetadata} {pointer : ArgMetadata}
    (isOriginal : layout.Original original) (isClone : layout.Clone pointer clone)
    {originalKernels cloneKernels : List KernelMetadata}
    (originalListed : lastNamed rt name originalKernels = some original)
    (cloneListed : lastNamed rt (getInstrumentedName name) cloneKernels = some clone)
    (originalKnown : find₂ cache.argMap agent name = (computeKernargData rt originalKernels)[name]?)
    (cloneKnown : find₂ cache.argMap agent (getInstrumentedName name) =
      (computeKernargData rt cloneKernels)[getInstrumentedName name]?) :
    ∃ desc, (cache.getArgDescriptor rt agent name true).2 = some desc ∧
      desc.kernargLength = clone.kernargSegmentSize ∧
      desc.explicitArgsLength.toNat = layout.pointerOffset + 8 ∧
      desc.cloneHiddenArgsLength.toNat = layout.size.toNat - layout.pointerOffset := by
  have room := isClone.room
  have bound := clone.kernargSegmentSize.toNat_lt
  rw [computeKernargData_find, originalListed, Option.map_some] at originalKnown
  rw [computeKernargData_find, cloneListed, Option.map_some] at cloneKnown
  obtain ⟨originalLength, originalExplicit, originalHidden⟩ := original_lengths isOriginal (by omega)
  obtain ⟨cloneLength, cloneExplicit⟩ := clone_lengths isClone
  let hidden : UInt64 :=
    if (kernargDescriptor original).hiddenArgsLength ≠ 0 then
      (kernargDescriptor original).kernargLength - (kernargDescriptor original).explicitArgsLength else 0
  have hiddenLength : hidden.toNat = layout.size.toNat - layout.pointerOffset := by
    by_cases some : (kernargDescriptor original).hiddenArgsLength ≠ 0
    · simp only [hidden, if_pos some]
      rw [toNat_sub_le (by rw [originalExplicit, originalLength]; omega), originalExplicit, originalLength]
      omega
    · have zero : (kernargDescriptor original).hiddenArgsLength.toNat = 0 := by
        rw [not_not.mp some]
        rfl
      simp only [hidden, if_neg some]
      rw [← originalHidden, zero]
      rfl
  refine ⟨{ kernargDescriptor clone with cloneHiddenArgsLength := hidden }, ?_, cloneLength, cloneExplicit, hiddenLength⟩
  simp [CoCache.getArgDescriptor, CoCache.lookupDescriptor, originalKnown, cloneKnown, hidden]

/-! ### The rewritten segment -/

/-- The bytes of a segment rewritten for a clone whose extra pointer is at `offset`, when the
original's segment is `length` bytes long. -/
def rewritten (content : Bytes) (comms : Address) (offset length : Nat) (i : Nat) : UInt8 :=
  if i < offset then content i
  else if i < offset + 8 then wordByte comms (i - offset)
  else if i < 8 + length then content (i - 8)
  else 0

theorem fixupKernArgs_bytes {dst src : Address} (comms : Address) (desc : ArgDescriptor)
    (content before : Bytes) {offset length : Nat} (dstValid : dst ≠ 0) (srcValid : src ≠ 0)
    (explicit : desc.explicitArgsLength.toNat = offset + 8)
    (hidden : desc.cloneHiddenArgsLength.toNat = length - offset)
    (room : 8 + max length offset ≤ desc.kernargLength.toNat) :
    ∃ writes, fixupKernArgs dst src comms desc = some writes ∧
      ∀ i < desc.kernargLength.toNat,
        applyWrites content before writes i = rewritten content comms offset length i := by
  have commsLoc : (desc.explicitArgsLength - pointerSize).toNat = offset := by
    have eight : pointerSize.toNat = 8 := rfl
    rw [toNat_sub_le (by omega), explicit, eight]
    omega
  unfold fixupKernArgs
  rw [if_neg (by simp [dstValid, srcValid])]
  simp only [commsLoc, explicit]
  by_cases none : desc.cloneHiddenArgsLength = 0
  · have short : length ≤ offset := by
      have zero : desc.cloneHiddenArgsLength.toNat = 0 := by rw [none]; rfl
      omega
    refine ⟨_, by rw [if_neg (by simpa using none)], ?_⟩
    intro i inside
    simp only [applyWrites, List.cons_append, List.nil_append, List.foldl_cons, List.foldl_nil, rewritten]
    by_cases front : i < offset
    · rw [if_pos front, apply_store_outside (by omega), apply_memcpy_inside (by omega) (by omega)]
      simp
    rw [if_neg front]
    by_cases pointer : i < offset + 8
    · rw [if_pos pointer, apply_store_inside (by omega) (by omega)]
    · rw [if_neg pointer, if_neg (by omega), apply_store_outside (by omega),
        apply_memcpy_outside (by omega), apply_memset_inside inside]
  · have fits : desc.cloneHiddenArgsLength ≤ desc.kernargLength - desc.explicitArgsLength := by
      rw [UInt64.le_iff_toNat_le, toNat_sub_le (by omega), hidden, explicit]
      omega
    refine ⟨_, by rw [if_pos none, if_pos fits], ?_⟩
    intro i inside
    simp only [applyWrites, List.cons_append, List.nil_append, List.foldl_cons, List.foldl_nil, rewritten, hidden]
    by_cases front : i < offset
    · rw [if_pos front, apply_store_outside (by omega), apply_memcpy_outside (by omega),
        apply_memcpy_inside (by omega) (by omega)]
      simp
    rw [if_neg front]
    by_cases pointer : i < offset + 8
    · rw [if_pos pointer, apply_store_inside (by omega) (by omega)]
    rw [if_neg pointer, apply_store_outside (by omega)]
    by_cases tail : i < 8 + length
    · rw [if_pos tail, apply_memcpy_inside (by omega) (by omega)]
      congr 1
      omega
    · rw [if_neg tail, apply_memcpy_outside (by omega), apply_memcpy_outside (by omega),
        apply_memset_inside inside]

/-- Every argument of the original is found where the clone expects it, the extra pointer holds
the comms address, and the rest of the clone's segment is zero. -/
theorem fixupKernArgs_preserves_arguments (rt : Runtime) (cache : CoCache) (agent : Agent) (name : Text)
    (layout : KernargLayout) (original clone : KernelMetadata) (pointer : ArgMetadata)
    (isOriginal : layout.Original original) (isClone : layout.Clone pointer clone)
    (originalKernels cloneKernels : List KernelMetadata)
    (originalListed : lastNamed rt name originalKernels = some original)
    (cloneListed : lastNamed rt (getInstrumentedName name) cloneKernels = some clone)
    (originalKnown : find₂ cache.argMap agent name = (computeKernargData rt originalKernels)[name]?)
    (cloneKnown : find₂ cache.argMap agent (getInstrumentedName name) =
      (computeKernargData rt cloneKernels)[getInstrumentedName name]?)
    {dst src : Address} (dstValid : dst ≠ 0) (srcValid : src ≠ 0) (comms : Address)
    (content before : Bytes) :
    ∃ desc writes, (cache.getArgDescriptor rt agent name true).2 = some desc ∧
      fixupKernArgs dst src comms desc = some writes ∧
      (∀ arg ∈ layout.explicit, ∀ i < arg.size.toNat,
        applyWrites content before writes (arg.offset.toNat + i) = content (arg.offset.toNat + i)) ∧
      (∀ i < 8, applyWrites content before writes (pointer.offset.toNat + i) = wordByte comms i) ∧
      (∀ arg ∈ layout.hidden, ∀ i < arg.size.toNat,
        applyWrites content before writes ((shifted arg).offset.toNat + i) = content (arg.offset.toNat + i)) ∧
      (∀ i, 8 + max layout.size.toNat layout.pointerOffset ≤ i → i < clone.kernargSegmentSize.toNat →
        applyWrites content before writes i = 0) := by
  have room := isClone.room
  have bound := clone.kernargSegmentSize.toNat_lt
  obtain ⟨desc, found, length, explicit, hidden⟩ := getArgDescriptor_clone rt cache agent name isOriginal isClone
    originalListed cloneListed originalKnown cloneKnown
  obtain ⟨writes, fixed, bytes⟩ := fixupKernArgs_bytes comms desc content before
    dstValid srcValid explicit hidden (by rw [length]; exact room)
  rw [length] at bytes
  refine ⟨desc, writes, found, fixed, ?_, ?_, ?_, ?_⟩
  · intro arg member i inside
    have stop := layout.explicit_stop member
    unfold ArgMetadata.stop at stop
    rw [bytes _ (by omega), rewritten, if_pos (by omega)]
  · intro i inside
    rw [isClone.pointerOffset, bytes _ (by omega), rewritten, if_neg (by omega), if_pos (by omega)]
    congr 1
    omega
  · intro arg member i inside
    have start : layout.pointerOffset ≤ arg.offset.toNat := layout.hiddenAligned arg member
    have stop := layout.fits arg (List.mem_append_right _ member)
    unfold ArgMetadata.stop at stop
    have moved : (shifted arg).offset.toNat = arg.offset.toNat + 8 := toNat_add_lt (by
      show arg.offset.toNat + 8 < _
      omega)
    rw [moved, bytes _ (by omega), rewritten, if_neg (by omega), if_neg (by omega), if_pos (by omega)]
    congr 1
    omega
  · intro i past inside
    rw [bytes i inside, rewritten, if_neg (by omega), if_neg (by omega), if_neg (by omega)]

def sample : KernargLayout where
  explicit := [⟨0, 4, "by_value".toList⟩]
  hidden := [⟨8, 4, "hidden_block_count_x".toList⟩]
  size := 16
  explicitKind := by decide
  hiddenKind := by decide
  increasing := by decide
  hiddenAligned := by decide
  fits := by decide

def samplePointer : ArgMetadata := ⟨8, 8, "global_buffer".toList⟩

def sampleOriginal : KernelMetadata := ⟨"f(int)".toList, sample.explicit ++ sample.hidden, 16, 8, 32⟩

def sampleClone : KernelMetadata :=
  ⟨"__amd_crk_f(int, void*)".toList, sample.explicit ++ [samplePointer] ++ sample.hidden.map shifted, 24, 24, 48⟩

def sampleCache : CoCache where
  argMap := insert₂ (insert₂ ∅ 1 "f(int)".toList (kernargDescriptor sampleOriginal)) 1
    "__amd_crk_f(int, void*)".toList (kernargDescriptor sampleClone)

theorem fixupKernArgs_preserves_sample :
    ∃ desc writes, (sampleCache.getArgDescriptor .idle 1 "f(int)".toList true).2 = some desc ∧
      fixupKernArgs 4096 8192 77 desc = some writes ∧
      (∀ arg ∈ sample.explicit, ∀ i < arg.size.toNat,
        applyWrites (fun i => i.toUInt8) (fun _ => 9) writes (arg.offset.toNat + i) =
          (arg.offset.toNat + i).toUInt8) ∧
      (∀ i < 8, applyWrites (fun i => i.toUInt8) (fun _ => 9) writes (samplePointer.offset.toNat + i) =
        wordByte 77 i) ∧
      (∀ arg ∈ sample.hidden, ∀ i < arg.size.toNat,
        applyWrites (fun i => i.toUInt8) (fun _ => 9) writes ((shifted arg).offset.toNat + i) =
          (arg.offset.toNat + i).toUInt8) ∧
      (∀ i, 8 + max sample.size.toNat sample.pointerOffset ≤ i → i < sampleClone.kernargSegmentSize.toNat →
        applyWrites (fun i => i.toUInt8) (fun _ => 9) writes i = 0) :=
  fixupKernArgs_preserves_arguments .idle sampleCache 1 "f(int)".toList sample
    sampleOriginal sampleClone samplePointer ⟨rfl, rfl⟩ ⟨rfl, by decide, by decide, rfl, by decide⟩
    [sampleOriginal] [sampleClone] (by decide) (by decide) (by decide) (by decide) (by decide) (by decide) 77 _ _

end KernargLayout

end Omniprobe
