import Omniprobe.Filter.Config
import Omniprobe.Lib.Closure

/-!
# Included files

What the include patterns add to the files that are scanned: the files they match, and for
`include_with_deps` what these depend on.
-/

namespace Omniprobe.LibraryFilter
open Lib Std

/-! ### Files -/

def SHT_DYNAMIC : Nat := 6

def DT_NULL : Int := 0

def DT_NEEDED : Int := 1

structure Dyn where
  tag : Int
  val : Nat

structure SectionHeader where
  type : Nat
  link : Nat
  size : Nat
  entsize : Nat

/-- A section as libelf gives it; `none` stands for a null pointer. -/
structure ElfSection where
  header : Option SectionHeader
  data : Option Text
  getDyn : Nat → Option Dyn

structure FileSystem where
  /-- The bytes of a file that can be opened. -/
  content : Text → Option Text
  stat : Text → Bool
  realpath : Text → Option Text
  /-- `glob` with `GLOB_TILDE | GLOB_NOCHECK`; `none` where it fails. -/
  glob : Text → Option (List Text)
  /-- The sections of a file by their index; `none` where `elf_version`, `open` or `elf_begin` fails. -/
  sections : Text → Option (List ElfSection)
  ldLibraryPath : Option Text

variable (fs : FileSystem)

def isValidElf (path : Text) : Bool :=
  match fs.content path with
  | none => false
  | some bytes => bytes.take 4 = ['\x7f', 'E', 'L', 'F']

def expandGlob (pattern : Text) : List Text := (fs.glob pattern).getD []

def getIncludedFiles (includePatterns : List Text) : List Text :=
  includePatterns.flatMap fun pattern => (expandGlob fs pattern).filter (isValidElf fs)

/-! ### Dependencies -/

def searchPaths (parentDir : Text) : List Text :=
  [parentDir, "/lib64".toList, "/usr/lib64".toList, "/lib".toList, "/usr/lib".toList, "/usr/local/lib64".toList,
    "/usr/local/lib".toList] ++ ((fs.ldLibraryPath.getD []).splitOn ':').filter (· ≠ [])

/-- The empty text stands for a library that is not found. -/
def resolveLibraryPath (libName parentDir : Text) : Text :=
  if libName.head? = some '/' then if fs.stat libName then libName else []
  else
    match (searchPaths fs parentDir).find? fun dir => fs.stat (dir ++ '/' :: libName) with
    | none => []
    | some dir => (fs.realpath (dir ++ '/' :: libName)).getD (dir ++ '/' :: libName)

/-- The number of dynamic entries and the string table, where the section is a dynamic one that can be read. It is assumed
that the size of its entries, by which the source divides, is not 0. -/
def dynamicTable (sections : List ElfSection) (scn : ElfSection) : Option (Nat × Text) := do
  let shdr ← scn.header
  guard (shdr.type = SHT_DYNAMIC)
  let _ ← scn.data
  let strScn ← sections[shdr.link]?
  let strData ← strScn.data
  return (shdr.size / shdr.entsize, strData)

/-- The names of the `DT_NEEDED` entries among those at the given positions, up to `DT_NULL`. -/
def neededNames (scn : ElfSection) (strData : Text) : List Nat → List Text
  | [] => []
  | i :: rest =>
    match scn.getDyn i with
    | none => neededNames scn strData rest
    | some dyn =>
      if dyn.tag = DT_NEEDED then (strData.drop dyn.val).takeWhile (· ≠ '\x00') :: neededNames scn strData rest
      else if dyn.tag = DT_NULL then []
      else neededNames scn strData rest

def parentDir (path : Text) : Text :=
  match Text.findLast '/' path with
  | none => []
  | some lastSlash => path.take lastSlash

/-- The first dynamic section alone is read. -/
def getElfDependencies (path : Text) : List Text :=
  match fs.sections path with
  | none => []
  | some sections =>
    let needed := (sections.drop 1).findSome? fun scn =>
      (dynamicTable sections scn).map fun table => neededNames scn table.2 (List.range table.1)
    (((needed.getD []).filter (· ≠ [])).map fun name => resolveLibraryPath fs name (parentDir path)).filter
      fun resolved => resolved ≠ [] ∧ isValidElf fs resolved

/-! ### The set with dependencies -/

abbrev PathSet := ExtTreeSet Text compare

/-- What one matched path adds to the set. -/
def includeWithDeps (result : PathSet) (path : Text) : PathSet :=
  if isValidElf fs path then (result.insert path).insertMany (getElfDependencies fs path) else result

def getIncludedFilesWithDeps (includeWithDepsPatterns : List Text) : List Text :=
  (includeWithDepsPatterns.foldl
    (fun result pattern => (expandGlob fs pattern).foldl (includeWithDeps fs) result) ∅).toList

variable {fs}

theorem mem_includeWithDeps (result : PathSet) (file path : Text) :
    path ∈ includeWithDeps fs result file ↔
      path ∈ result ∨ isValidElf fs file = true ∧ (path = file ∨ path ∈ getElfDependencies fs file) := by
  unfold includeWithDeps
  split
  · rename_i valid
    rw [ExtTreeSet.mem_insertMany_list, ExtTreeSet.mem_insert, LawfulEqCmp.compare_eq_iff_eq, List.contains_iff_mem]
    tauto
  · rename_i invalid
    simp [invalid]

theorem mem_foldl_includeWithDeps (files : List Text) (result : PathSet) (path : Text) :
    path ∈ files.foldl (includeWithDeps fs) result ↔
      path ∈ result ∨ ∃ file ∈ files.filter (isValidElf fs), path = file ∨ path ∈ getElfDependencies fs file := by
  induction files generalizing result with
  | nil => simp
  | cons file rest ih =>
    rw [List.foldl_cons, ih, mem_includeWithDeps, or_assoc]
    refine or_congr_right ?_
    by_cases valid : isValidElf fs file = true
    · simp [valid, List.filter_cons_of_pos]
    · simp [valid, List.filter_cons_of_neg]

/-- The set holds the matched files and what these depend on directly. -/
theorem mem_getIncludedFilesWithDeps (patterns : List Text) (path : Text) :
    path ∈ getIncludedFilesWithDeps fs patterns ↔
      ∃ file ∈ getIncludedFiles fs patterns, path = file ∨ path ∈ getElfDependencies fs file := by
  have fold (result : PathSet) :
      path ∈ patterns.foldl (fun result pattern => (expandGlob fs pattern).foldl (includeWithDeps fs) result) result ↔
        path ∈ result ∨ ∃ file ∈ getIncludedFiles fs patterns, path = file ∨ path ∈ getElfDependencies fs file := by
    induction patterns generalizing result with
    | nil => simp [getIncludedFiles]
    | cons pattern rest ih =>
      have files : getIncludedFiles fs (pattern :: rest) =
          (expandGlob fs pattern).filter (isValidElf fs) ++ getIncludedFiles fs rest := rfl
      rw [List.foldl_cons, ih, mem_foldl_includeWithDeps, or_assoc, files]
      simp only [List.mem_append, or_and_right, exists_or]
  rw [getIncludedFilesWithDeps, ExtTreeSet.mem_toList, fold]
  simp

theorem getIncludedFilesWithDeps_nodup (patterns : List Text) : (getIncludedFilesWithDeps fs patterns).Nodup := by
  refine (ExtTreeSet.distinct_toList).imp fun different same => different ?_
  rw [same]
  exact LawfulEqCmp.compare_eq_iff_eq.mpr rfl

/-! ### The set and its closure -/

def DependsOn (fs : FileSystem) (file dep : Text) : Prop := dep ∈ getElfDependencies fs file

theorem setOf_getIncludedFilesWithDeps (patterns : List Text) :
    {path | path ∈ getIncludedFilesWithDeps fs patterns} =
      {path | path ∈ getIncludedFiles fs patterns} ∪
        successors (DependsOn fs) {path | path ∈ getIncludedFiles fs patterns} := by
  ext path
  simp only [Set.mem_ofPred_eq, mem_getIncludedFilesWithDeps, Set.mem_union, successors, DependsOn]
  constructor
  · rintro ⟨file, member, rfl | dep⟩
    · exact .inl member
    · exact .inr ⟨file, member, dep⟩
  · rintro (member | ⟨file, member, dep⟩)
    · exact ⟨path, member, .inl rfl⟩
    · exact ⟨file, member, .inr dep⟩

/-- Dependencies are followed to the end exactly when those of the direct dependencies are in the set anyway. -/
theorem includedWithDeps_closed_iff (fs : FileSystem) (patterns : List Text) :
    (∀ path, path ∈ getIncludedFilesWithDeps fs patterns ↔
      ∃ file ∈ getIncludedFiles fs patterns, Relation.ReflTransGen (DependsOn fs) file path) ↔
    ∀ file ∈ getIncludedFiles fs patterns, ∀ dep ∈ getElfDependencies fs file, ∀ next ∈ getElfDependencies fs dep,
      next ∈ getIncludedFiles fs patterns ∨ ∃ other ∈ getIncludedFiles fs patterns, next ∈ getElfDependencies fs other := by
  have once := once_eq_reached_iff (R := DependsOn fs) (S := {path | path ∈ getIncludedFiles fs patterns})
  rw [← setOf_getIncludedFilesWithDeps, Set.ext_iff] at once
  refine once.trans ?_
  rw [setOf_getIncludedFilesWithDeps]
  constructor
  · exact fun adds file member dep first next second => adds ⟨dep, ⟨file, member, first⟩, second⟩
  · rintro adds next ⟨dep, ⟨file, member, first⟩, second⟩
    exact adds file member dep first next second

namespace Sample

/-- `/a` needs `b`, which needs `c`. -/
def chain : FileSystem where
  content _ := some ['\x7f', 'E', 'L', 'F']
  stat path := path ∈ [['/', 'a'], ['/', 'b'], ['/', 'c']]
  realpath path := some path
  glob pattern := some [pattern]
  sections path :=
    let dynamic (name : Text) : List ElfSection :=
      [⟨none, none, fun _ => none⟩, ⟨some ⟨SHT_DYNAMIC, 2, 32, 16⟩, some [], fun i => [⟨DT_NEEDED, 1⟩, ⟨DT_NULL, 0⟩][i]?⟩,
        ⟨some ⟨3, 0, 3, 0⟩, some ('\x00' :: name ++ ['\x00']), fun _ => none⟩]
    if path = ['/', 'a'] then some (dynamic ['b'])
    else if path = ['/', 'b'] then some (dynamic ['c'])
    else none
  ldLibraryPath := none

end Sample

/-- The last library of a chain is left out. -/
theorem includedWithDeps_chain :
    (∃ file ∈ getIncludedFiles Sample.chain [['/', 'a']],
      Relation.ReflTransGen (DependsOn Sample.chain) file ['/', 'c']) ∧
    ['/', 'c'] ∉ getIncludedFilesWithDeps Sample.chain [['/', 'a']] := by
  have included : getIncludedFiles Sample.chain [['/', 'a']] = [['/', 'a']] := by decide
  have first : getElfDependencies Sample.chain ['/', 'a'] = [['/', 'b']] := by decide
  have second : getElfDependencies Sample.chain ['/', 'b'] = [['/', 'c']] := by decide
  constructor
  · refine ⟨['/', 'a'], by simp [included], .tail (.single (b := ['/', 'b']) ?_) ?_⟩
    · simp [DependsOn, first]
    · simp [DependsOn, second]
  · rw [mem_getIncludedFilesWithDeps, included]
    simp [first]

end Omniprobe.LibraryFilter
