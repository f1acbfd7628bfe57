import Omniprobe.Interceptor.Kernargs

/-!
# The bounds of the kernarg copies

`fixupKernArgs` takes the length of its first copy from the clone's descriptor, where the explicit
arguments are rounded up to a multiple of 8. The application's segment may end before that.
-/

namespace Omniprobe.KernargLayout
open Lib

variable {layout : KernargLayout} {clone : KernelMetadata} {desc : ArgDescriptor}

/-- No length wraps around, and the copies stay inside the two segments. -/
structure StaysInside (layout : KernargLayout) (clone : KernelMetadata) (desc : ArgDescriptor) (writes : List Write) :
    Prop where
  explicitLength : pointerSize ≤ desc.explicitArgsLength
  hiddenLength : desc.explicitArgsLength ≤ desc.kernargLength
  reads : ∀ write ∈ writes, ∀ i, write.Reads i → i < layout.size.toNat
  writes : ∀ write ∈ writes, ∀ i, write.Writes i → i < clone.kernargSegmentSize.toNat

/-- The calls of `fixupKernArgs`, by the layout. -/
def copies (layout : KernargLayout) (length : Nat) (comms : Address) : List Write :=
  let front : List Write := [.memset length, .memcpy 0 0 layout.pointerOffset]
  let back : List Write :=
    if layout.pointerOffset < layout.size.toNat then
      [.memcpy (layout.pointerOffset + 8) layout.pointerOffset (layout.size.toNat - layout.pointerOffset)]
    else []
  front ++ back ++ [.store layout.pointerOffset comms]

theorem fixupKernArgs_writes {dst src : Address} (comms : Address) (dstValid : dst ≠ 0) (srcValid : src ≠ 0)
    (explicit : desc.explicitArgsLength.toNat = layout.pointerOffset + 8)
    (hidden : desc.cloneHiddenArgsLength.toNat = layout.size.toNat - layout.pointerOffset)
    (room : 8 + max layout.size.toNat layout.pointerOffset ≤ desc.kernargLength.toNat) :
    fixupKernArgs dst src comms desc = some (layout.copies desc.kernargLength.toNat comms) := by
  have commsLoc : (desc.explicitArgsLength - pointerSize).toNat = layout.pointerOffset := by
    have eight : pointerSize.toNat = 8 := rfl
    rw [toNat_sub_le (by omega), explicit, eight]
    omega
  unfold fixupKernArgs copies
  rw [if_neg (by simp [dstValid, srcValid])]
  simp only [commsLoc, explicit, hidden]
  by_cases none : desc.cloneHiddenArgsLength = 0
  · have short : ¬layout.pointerOffset < layout.size.toNat := by
      have zero : desc.cloneHiddenArgsLength.toNat = 0 := by rw [none]; rfl
      omega
    rw [if_neg (not_not.mpr none), if_neg short, List.append_nil]
  · have long : layout.pointerOffset < layout.size.toNat := by
      have positive : desc.cloneHiddenArgsLength.toNat ≠ 0 := fun zero => none (UInt64.toNat_inj.mp zero)
      omega
    have fits : desc.cloneHiddenArgsLength ≤ desc.kernargLength - desc.explicitArgsLength := by
      rw [UInt64.le_iff_toNat_le, toNat_sub_le (by omega), hidden, explicit]
      omega
    rw [if_pos none, if_pos fits, if_pos long]

theorem forall_mem_copies {P : Write → Prop} {length : Nat} {comms : Address}
    (clears : P (.memset length)) (front : P (.memcpy 0 0 layout.pointerOffset))
    (back : layout.pointerOffset < layout.size.toNat →
      P (.memcpy (layout.pointerOffset + 8) layout.pointerOffset (layout.size.toNat - layout.pointerOffset)))
    (pointer : P (.store layout.pointerOffset comms)) :
    ∀ write ∈ layout.copies length comms, P write := by
  refine List.forall_mem_append.mpr ⟨List.forall_mem_append.mpr ⟨?_, ?_⟩, List.forall_mem_singleton.mpr pointer⟩
  · exact List.forall_mem_cons.mpr ⟨clears, List.forall_mem_singleton.mpr front⟩
  · split
    · rename_i long
      exact List.forall_mem_singleton.mpr (back long)
    · exact List.forall_mem_nil _

theorem staysInside_iff {dst src : Address} {comms : Address} {writes : List Write}
    (calls : fixupKernArgs dst src comms desc = some writes) (dstValid : dst ≠ 0) (srcValid : src ≠ 0)
    (length : desc.kernargLength = clone.kernargSegmentSize)
    (explicit : desc.explicitArgsLength.toNat = layout.pointerOffset + 8)
    (hidden : desc.cloneHiddenArgsLength.toNat = layout.size.toNat - layout.pointerOffset)
    (room : 8 + max layout.size.toNat layout.pointerOffset ≤ clone.kernargSegmentSize.toNat) :
    layout.StaysInside clone desc writes ↔ layout.pointerOffset ≤ layout.size.toNat := by
  have eight : pointerSize.toNat = 8 := rfl
  rw [fixupKernArgs_writes comms dstValid srcValid explicit hidden (by rw [length]; exact room)] at calls
  obtain rfl := Option.some.inj calls
  constructor
  · intro inside
    by_contra beyond
    -- The last byte of the first copy lies behind the application's segment.
    have read := inside.reads (.memcpy 0 0 layout.pointerOffset) (by simp [copies]) (layout.pointerOffset - 1)
      ⟨Nat.zero_le _, by omega⟩
    omega
  · intro rounded
    refine ⟨?_, ?_, forall_mem_copies ?_ ?_ ?_ ?_, forall_mem_copies ?_ ?_ ?_ ?_⟩
    · rw [UInt64.le_iff_toNat_le, explicit, eight]
      omega
    · rw [UInt64.le_iff_toNat_le, explicit, length]
      omega
    -- what is read
    · exact fun i read => absurd read id
    · exact fun i read => Nat.lt_of_lt_of_le (by simpa using read.2) rounded
    · intro long i read
      have below := read.2
      omega
    · exact fun i read => absurd read id
    -- what is written
    · intro i written
      rw [← length]
      exact written
    · intro i written
      have below := written.2
      omega
    · intro long i written
      have below := written.2
      omega
    · intro i written
      have below := written.2
      omega

/-- With hidden arguments, the rounded explicit ones end inside the segment. -/
theorem rounded_of_hidden (layout : KernargLayout) (hidden : layout.hidden ≠ []) :
    layout.pointerOffset ≤ layout.size.toNat := by
  obtain ⟨arg, member⟩ := List.exists_mem_of_ne_nil _ hidden
  have start : layout.pointerOffset ≤ arg.offset.toNat := layout.hiddenAligned arg member
  have stop := layout.fits arg (List.mem_append_right _ member)
  unfold ArgMetadata.stop at stop
  omega

/-- Inside, nothing else of the two buffers matters: what lies behind the clone's segment stays, and what lies behind
the application's has no influence. -/
theorem StaysInside.frame {writes : List Write} (inside : layout.StaysInside clone desc writes) (content before : Bytes) :
    (∀ i, clone.kernargSegmentSize.toNat ≤ i → applyWrites content before writes i = before i) ∧
      ∀ content', (∀ i < layout.size.toNat, content i = content' i) →
        applyWrites content before writes = applyWrites content' before writes := by
  refine ⟨fun i behind => ?_, fun content' same => ?_⟩
  · exact applyWrites_of_not_writes
      (fun write member written => absurd (inside.writes write member i written) (Nat.not_lt.mpr behind)) before
  · exact applyWrites_congr_of_reads (fun write member i read => same i (inside.reads write member i read)) before

/-- The dispatch of the clone finds its descriptor and copies inside the two segments. -/
def CopiesInside (rt : Runtime) (cache : CoCache) (agent : Agent) (name : Text) (layout : KernargLayout)
    (clone : KernelMetadata) (dst src comms : Address) : Prop :=
  ∃ desc writes, (cache.getArgDescriptor rt agent name true).2 = some desc ∧
    fixupKernArgs dst src comms desc = some writes ∧ layout.StaysInside clone desc writes

/-- The copies stay inside exactly when the application's segment holds the rounded explicit arguments. -/
theorem copiesInside_iff (rt : Runtime) (cache : CoCache) (agent : Agent) (name : Text)
    (layout : KernargLayout) (original clone : KernelMetadata) (pointer : ArgMetadata)
    (isOriginal : layout.Original original) (isClone : layout.Clone pointer clone)
    (originalKernels cloneKernels : List KernelMetadata)
    (originalListed : lastNamed rt name originalKernels = some original)
    (cloneListed : lastNamed rt (getInstrumentedName name) cloneKernels = some clone)
    (originalKnown : find₂ cache.argMap agent name = (computeKernargData rt originalKernels)[name]?)
    (cloneKnown : find₂ cache.argMap agent (getInstrumentedName name) =
      (computeKernargData rt cloneKernels)[getInstrumentedName name]?)
    {dst src : Address} (dstValid : dst ≠ 0) (srcValid : src ≠ 0) (comms : Address) :
    CopiesInside rt cache agent name layout clone dst src comms ↔ layout.pointerOffset ≤ layout.size.toNat := by
  have room := isClone.room
  obtain ⟨desc, found, length, explicit, hidden⟩ := getArgDescriptor_clone rt cache agent name isOriginal isClone
    originalListed cloneListed originalKnown cloneKnown
  have calls := fixupKernArgs_writes comms dstValid srcValid explicit hidden (by rw [length]; exact room)
  rw [← staysInside_iff calls dstValid srcValid length explicit hidden room]
  constructor
  · rintro ⟨desc', writes, found', calls', inside⟩
    cases found.symm.trans found'
    cases calls.symm.trans calls'
    exact inside
  · intro inside
    exact ⟨desc, _, found, calls, inside⟩

theorem copiesInside_sample :
    CopiesInside .idle sampleCache 1 "f(int)".toList sample sampleClone 4096 8192 77 ↔
      sample.pointerOffset ≤ sample.size.toNat :=
  copiesInside_iff .idle sampleCache 1 "f(int)".toList sample sampleOriginal sampleClone samplePointer ⟨rfl, rfl⟩
    ⟨rfl, by decide, by decide, rfl, by decide⟩ [sampleOriginal] [sampleClone] (by decide) (by decide) (by decide)
    (by decide) (by decide) (by decide) 77

/-! ### A single 4-byte argument -/

def single : KernargLayout where
  explicit := sample.explicit
  hidden := []
  size := 4
  explicitKind := sample.explicitKind
  hiddenKind := by decide
  increasing := by decide
  hiddenAligned := by decide
  fits := by decide

def singleOriginal : KernelMetadata := ⟨"f(int)".toList, single.explicit, 4, 0, 0⟩

def singleClone : KernelMetadata := ⟨"__amd_crk_f(int, void*)".toList, single.explicit ++ [samplePointer], 16, 0, 0⟩

def singleCache : CoCache where
  argMap := insert₂ (insert₂ ∅ 1 "f(int)".toList (kernargDescriptor singleOriginal)) 1
    "__amd_crk_f(int, void*)".toList (kernargDescriptor singleClone)

/-- Eight bytes are read of a segment of four. -/
theorem single_read_beyond :
    single.Original singleOriginal ∧ single.Clone samplePointer singleClone ∧
      ¬CopiesInside .idle singleCache 1 "f(int)".toList single singleClone 4096 8192 77 := by
  have isClone : single.Clone samplePointer singleClone := ⟨rfl, by decide, by decide, rfl, by decide⟩
  have isOriginal : single.Original singleOriginal := ⟨rfl, rfl⟩
  have originalListed : lastNamed .idle "f(int)".toList [singleOriginal] = some singleOriginal := by decide
  have cloneListed : lastNamed .idle (getInstrumentedName "f(int)".toList) [singleClone] = some singleClone := by decide
  refine ⟨isOriginal, isClone, ?_⟩
  rintro ⟨desc, writes, found, calls, inside⟩
  obtain ⟨desc', found', length, explicit, hidden⟩ := getArgDescriptor_clone .idle singleCache 1 "f(int)".toList
    isOriginal isClone originalListed cloneListed (by decide) (by decide)
  cases found.symm.trans found'
  have fits := (staysInside_iff calls (by decide) (by decide) length explicit hidden isClone.room).mp inside
  exact absurd fits (by decide)

end Omniprobe.KernargLayout
