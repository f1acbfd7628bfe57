import Omniprobe.Filter.ArrayText

/-!
# Loads that fail

`loadConfig` fills the pattern lists of the filter in place, one array after the other. A load that
fails keeps what it has pushed by then.
-/

namespace Omniprobe.LibraryFilter
open Lib

/-! ### Loads into a filter that is in use -/

/-- `loadConfig` on a filter that may have been loaded before. -/
def loadConfigInto (before : Config) : Option Text → Config × Bool
  | none => (before, false)
  | some json =>
    let (included, parsed) := findAndParseArray json Key.included.name
    let config := { before with includePatterns := before.includePatterns ++ included }
    if !parsed then (config, false)
    else
      let (withDeps, parsed) := findAndParseArray json Key.includedWithDeps.name
      let config := { config with includeWithDepsPatterns := config.includeWithDepsPatterns ++ withDeps }
      if !parsed then (config, false)
      else
        let (excludePatterns, parsed) := findAndParseArray json Key.excluded.name
        let config := { config with excludePatterns }
        if !parsed then (config, false)
        else
          let (regexes, compiled) := compileExcludes excludePatterns
          let excludeRegexes := config.filter.excludeRegexes ++ regexes
          if compiled then ({ config with filter := ⟨true, excludeRegexes⟩ }, true)
          else ({ config with filter := ⟨config.filter.active, excludeRegexes⟩ }, false)

theorem loadConfigInto_new (file : Option Text) : loadConfigInto {} file = loadConfig file := by
  cases file with
  | none => rfl
  | some json =>
    unfold loadConfigInto loadConfig Key.name
    simp only [compileExcludes_eq]
    generalize findAndParseArray json "include".toList = first
    generalize findAndParseArray json "include_with_deps".toList = second
    generalize findAndParseArray json "exclude".toList = third
    rcases first with ⟨included, _ | _⟩
    · rfl
    rcases second with ⟨withDeps, _ | _⟩
    · rfl
    rcases third with ⟨excluded, _ | _⟩
    · rfl
    · rfl

/-! ### What a failed load leaves -/

/-- Nothing that the filter is asked has another answer. -/
structure Unchanged (before after : Config) : Prop where
  active : after.filter.active = before.filter.active
  excluded : ∀ path, after.filter.isExcluded path = before.filter.isExcluded path
  included : after.includePatterns = before.includePatterns
  includedWithDeps : after.includeWithDepsPatterns = before.includeWithDepsPatterns

/-- A load fails exactly when an array cannot be read: no exclude pattern is refused. Until then it has pushed the
include patterns. -/
theorem loadConfigInto_cases (before : Config) (json : Text) :
    (∀ key, Readable key json) ∧ (loadConfigInto before (some json)).2 = true ∨
      (¬∀ key, Readable key json) ∧ (loadConfigInto before (some json)).2 = false ∧
        (loadConfigInto before (some json)).1.filter = before.filter ∧
        (loadConfigInto before (some json)).1.includePatterns =
          before.includePatterns ++ (findAndParseArray json Key.included.name).1 ∧
        (loadConfigInto before (some json)).1.includeWithDepsPatterns = before.includeWithDepsPatterns ++
          if (findAndParseArray json Key.included.name).2 then (findAndParseArray json Key.includedWithDeps.name).1
          else [] := by
  have unreadable {key : Key} (stops : (findAndParseArray json key.name).2 = false) : ¬∀ key, Readable key json := by
    intro readable
    have closed := (findAndParseArray_readable_iff key json).mpr (readable key)
    rw [stops] at closed
    cases closed
  simp only [loadConfigInto, compileExcludes_eq]
  rcases first : findAndParseArray json Key.included.name with ⟨included, _ | _⟩
  · exact .inr ⟨unreadable (congrArg Prod.snd first), rfl, rfl, rfl, (List.append_nil _).symm⟩
  rcases second : findAndParseArray json Key.includedWithDeps.name with ⟨withDeps, _ | _⟩
  · exact .inr ⟨unreadable (congrArg Prod.snd second), rfl, rfl, rfl, rfl⟩
  rcases third : findAndParseArray json Key.excluded.name with ⟨excluded, _ | _⟩
  · exact .inr ⟨unreadable (congrArg Prod.snd third), rfl, rfl, rfl, rfl⟩
  · refine .inl ⟨fun key => (findAndParseArray_readable_iff key json).mp ?_, rfl⟩
    cases key with
    | included => exact congrArg Prod.snd first
    | includedWithDeps => exact congrArg Prod.snd second
    | excluded => exact congrArg Prod.snd third

/-- A failed load leaves the filter as it was exactly when the text has no string for it: the array of
`include` does not begin with one, nor does the one of `include_with_deps` where `include` can be read. -/
theorem failedLoad_unchanged_iff (before : Config) (file : Option Text) :
    ((loadConfigInto before file).2 = false → Unchanged before (loadConfigInto before file).1) ↔
      ∀ json, file = some json → (∀ key, Readable key json) ∨
        ¬HasString .included json ∧ (Readable .included json → ¬HasString .includedWithDeps json) := by
  cases file with
  | none => exact iff_of_true (fun _ => ⟨rfl, fun _ => rfl, rfl, rfl⟩) (fun json opened => by cases opened)
  | some json =>
    simp only [Option.some.injEq, forall_eq']
    rcases loadConfigInto_cases before json with ⟨readable, loaded⟩ | ⟨unreadable, failed, filter, included, withDeps⟩
    · rw [loaded]
      exact iff_of_true (fun impossible => by cases impossible) (.inl readable)
    · rw [or_iff_right unreadable, imp_iff_right failed, ← findAndParseArray_nil_iff, ← findAndParseArray_nil_iff,
        ← findAndParseArray_readable_iff]
      constructor
      · intro unchanged
        rw [unchanged.included, List.self_eq_append_right] at included
        rw [unchanged.includedWithDeps, List.self_eq_append_right] at withDeps
        exact ⟨included, fun parsed => by rwa [if_pos parsed] at withDeps⟩
      · rintro ⟨nothing, later⟩
        refine ⟨by rw [filter], fun path => by rw [filter], ?_, ?_⟩
        · rw [included, nothing, List.append_nil]
        · rw [withDeps]
          split
          · rename_i parsed
            rw [later parsed, List.append_nil]
          · rw [List.append_nil]

namespace Sample

/-- A configuration that breaks off inside of its first array. -/
def truncated : Text := '\x7b' :: (Text.delimited '"' Key.included.name ++ ":[\"/a\"".toList)

theorem findAndParseArray_truncated : findAndParseArray truncated Key.included.name = ([['/', 'a']], false) := by
  have absent : ¬Text.delimited '"' Key.included.name <+: truncated := by
    rintro ⟨rest, same⟩
    exact absurd (List.cons.inj same).1 (by decide)
  have found : Text.after (Text.delimited '"' Key.included.name) truncated = some ":[\"/a\"".toList := by
    rw [truncated, Text.after_skip absent, Text.after_append]
  rw [findAndParseArray, found]
  decide +kernel

end Sample

/-- The array is not closed, but its pattern stays. -/
theorem failedLoad_keeps_pattern :
    ¬∀ (before : Config) (file : Option Text),
      (loadConfigInto before file).2 = false → Unchanged before (loadConfigInto before file).1 := by
  intro claim
  rcases loadConfigInto_cases {} Sample.truncated with ⟨readable, -⟩ | ⟨-, failed, -, included, -⟩
  · have parsed := (findAndParseArray_readable_iff .included Sample.truncated).mpr (readable .included)
    rw [Sample.findAndParseArray_truncated] at parsed
    cases parsed
  · rw [(claim {} (some Sample.truncated) failed).included, Sample.findAndParseArray_truncated] at included
    cases included

end Omniprobe.LibraryFilter
