import Omniprobe.Filter.Includes
import Omniprobe.Interceptor.Exclusion

/-!
# The startup scan

Which files the constructor passes to the kernel cache, and when it passes one of them twice.
-/

namespace Omniprobe
open Lib LibraryFilter

/-! ### The files -/

/-- The process as the constructor sees it: the files that are named and what is in them. -/
def Process.discover (gpus : List Agent) (executable : Text) (sharedLibraries : List Text) (fs : FileSystem)
    (config : Config) (codeObjects : Text → List CodeObjectFile) : Process :=
  let file (path : Text) : BinaryFile := ⟨path, codeObjects path⟩
  { gpus
    executable := file executable
    sharedLibraries := sharedLibraries.map file
    includedFiles := (getIncludedFiles fs config.includePatterns).map file
    includedFilesWithDeps := (getIncludedFilesWithDeps fs config.includeWithDepsPatterns).map file }

/-- The files that are passed to `addFile` for an agent, in order. -/
def passedFiles (filter : LibraryFilter) (process : Process) : List BinaryFile :=
  (startupFiles filter process).filter fun file => !skipsFile filter file

/-- The constructor adds the passed files, and no others, once for each agent. -/
theorem startup_eq_addScanned (rt : Runtime) (process : Process) (icpt : Interceptor) :
    startup rt process icpt =
      process.gpus.foldlM
        (fun icpt agent => (passedFiles icpt.libraryFilter process).foldlM (addScanned rt agent) icpt) icpt := by
  unfold startup passedFiles
  simp only [foldlM_scanFile]

/-! ### Files that are passed twice -/

section
variable (gpus : List Agent) (executable : Text) (sharedLibraries : List Text) (fs : FileSystem) (config : Config)
  (codeObjects : Text → List CodeObjectFile)

theorem passedFiles_names (active : config.filter.active = true) :
    (passedFiles config.filter (.discover gpus executable sharedLibraries fs config codeObjects)).map BinaryFile.name =
      (executable :: sharedLibraries ++ (getIncludedFiles fs config.includePatterns ++
        getIncludedFilesWithDeps fs config.includeWithDepsPatterns)).filter fun path => !config.filter.isExcluded path := by
  have names (paths : List Text) :
      (paths.map fun path => (⟨path, codeObjects path⟩ : BinaryFile)).map BinaryFile.name = paths := by
    rw [List.map_map]
    exact List.map_id _
  have skips : (fun file : BinaryFile => !skipsFile config.filter file) =
      (fun path => !config.filter.isExcluded path) ∘ BinaryFile.name := by
    funext file
    simp [skipsFile, active]
  rw [passedFiles, skips, ← List.filter_map, startupFiles, if_pos active]
  simp only [Process.discover, List.map_append, List.map_cons, names]

/-- Every file of the four sources that is not excluded is passed exactly once when no such file is in two of the
sources, twice among the shared libraries or twice among the included files. -/
theorem passed_once_iff (active : config.filter.active = true) :
    (∀ path,
      ((passedFiles config.filter (.discover gpus executable sharedLibraries fs config codeObjects)).map
        BinaryFile.name).count path =
          if (path = executable ∨ path ∈ sharedLibraries ∨ path ∈ getIncludedFiles fs config.includePatterns ∨
            path ∈ getIncludedFilesWithDeps fs config.includeWithDepsPatterns) ∧
            config.filter.isExcluded path = false then 1 else 0) ↔
      ∀ path, config.filter.isExcluded path = false →
        sharedLibraries.count path ≤ 1 ∧ (getIncludedFiles fs config.includePatterns).count path ≤ 1 ∧
        (path = executable → path ∉ sharedLibraries ∧ path ∉ getIncludedFiles fs config.includePatterns ∧
          path ∉ getIncludedFilesWithDeps fs config.includeWithDepsPatterns) ∧
        (path ∈ sharedLibraries → path ∉ getIncludedFiles fs config.includePatterns ∧
          path ∉ getIncludedFilesWithDeps fs config.includeWithDepsPatterns) ∧
        (path ∈ getIncludedFiles fs config.includePatterns →
          path ∉ getIncludedFilesWithDeps fs config.includeWithDepsPatterns) := by
  rw [passedFiles_names gpus executable sharedLibraries fs config codeObjects active]
  refine forall_congr' fun path => ?_
  by_cases allowed : config.filter.isExcluded path = false
  · have deps : (getIncludedFilesWithDeps fs config.includeWithDepsPatterns).count path ≤ 1 :=
      List.nodup_iff_count_le_one.mp (getIncludedFilesWithDeps_nodup _) path
    rw [List.count_filter (by simp [allowed]), List.count_append, List.count_append, List.count_cons]
    simp only [allowed, and_true, forall_const, ← List.count_pos_iff, beq_iff_eq]
    by_cases same : path = executable
    · subst same
      simp only [true_or, if_true, forall_const]
      omega
    · simp only [same, Ne.symm same, false_or, if_false, false_imp_iff, true_and]
      split <;> omega
  · have absent : ((executable :: sharedLibraries ++ (getIncludedFiles fs config.includePatterns ++
        getIncludedFilesWithDeps fs config.includeWithDepsPatterns)).filter
          fun path => !config.filter.isExcluded path).count path = 0 := by
      refine List.count_eq_zero.mpr fun member => ?_
      exact allowed (by simpa using (List.mem_filter.mp member).2)
    rw [absent]
    simp [allowed]

end

namespace Sample

/-- The application with a library that the configuration includes as well. -/
def included : Config := { includePatterns := [['/', 'a']], filter := ⟨true, []⟩ }

end Sample

theorem passed_once_sample :
    ((passedFiles Sample.included.filter
      (.discover [1] ['/', 'x'] [['/', 'b']] LibraryFilter.Sample.chain Sample.included fun _ => [])).map
        BinaryFile.name).count ['/', 'a'] = 1 := by
  have included : getIncludedFiles LibraryFilter.Sample.chain Sample.included.includePatterns = [['/', 'a']] := by decide
  have withDeps : getIncludedFilesWithDeps LibraryFilter.Sample.chain Sample.included.includeWithDepsPatterns = [] := rfl
  have once := (passed_once_iff [1] ['/', 'x'] [['/', 'b']] LibraryFilter.Sample.chain Sample.included (fun _ => [])
    rfl).mpr
  rw [included, withDeps] at once
  rw [once ?_ ['/', 'a']]
  · rfl
  · intro path allowed
    refine ⟨List.count_le_length, List.count_le_length, ?_, ?_, ?_⟩
    · rintro rfl
      decide
    · intro shared
      obtain rfl := List.mem_singleton.mp shared
      decide
    · exact fun _ => List.not_mem_nil

/-- A library that is loaded already and included is passed twice. -/
theorem passed_twice :
    ((passedFiles Sample.included.filter
      (.discover [1] ['/', 'x'] [['/', 'a']] LibraryFilter.Sample.chain Sample.included fun _ => [])).map
        BinaryFile.name).count ['/', 'a'] = 2 := by
  have included : getIncludedFiles LibraryFilter.Sample.chain Sample.included.includePatterns = [['/', 'a']] := by decide
  have withDeps : getIncludedFilesWithDeps LibraryFilter.Sample.chain Sample.included.includeWithDepsPatterns = [] := rfl
  rw [passedFiles_names _ _ _ _ _ _ rfl, included, withDeps]
  rfl

end Omniprobe
