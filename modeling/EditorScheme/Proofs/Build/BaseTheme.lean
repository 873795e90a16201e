import EditorScheme.Proofs.Build.Failure

/-!
The theme file that the others are derived from is kept by hand. No run writes to it, whether it succeeds or stops
somewhere: all that a run ever writes are products, and none of them is named like that file.
-/
namespace EditorScheme

theorem Config.product_of_mem_artifacts {config : Config} (plain : ∀ palette ∈ config.palettes, '/' ∉ palette.toList)
    {a : Artifact} (member : a ∈ config.artifacts) : config.Product (a.path config) := by
  rcases List.mem_append.mp member with scheme | theme
  · obtain ⟨v, listed, rfl⟩ := List.mem_map.mp scheme
    exact .scheme v (plain _ (Variant.mem_matrix.mp listed))
  · split at theme
    · obtain ⟨v, inside, rfl⟩ := List.mem_map.mp theme
      exact Config.product_of_derived (fun v listed => plain _ (Variant.mem_matrix.mp listed)) inside
    · cases theme

namespace Build

variable {config : Config} {start after : RecordedFiles} {variants : List Variant}

theorem exists_products_of_deriveThemes {answer : Except BuildError (List Path)}
    (plain : ∀ v ∈ variants, '/' ∉ v.palette.toList)
    (ran : outcome (deriveThemes config variants) start = (answer, after)) : ∃ writes,
      start.files.writeAll writes = .ok after.files ∧ ∀ w ∈ writes, config.Product w.1 := by
  cases answer with
  | ok paths =>
    obtain ⟨base, -, -, written⟩ := files_of_outcome_deriveThemes ran
    exact ⟨_, written, List.forall_mem_map.mpr fun v member => Config.product_of_derived plain member⟩
  | error e =>
    rcases outcome_bind_eq_error_iff.mp ran with load | ⟨base, loaded, load, write⟩
    · rw [outcome_loadThemeJson] at load
      obtain ⟨-, rfl⟩ := Prod.mk.inj load
      exact ⟨[], rfl, by simp⟩
    · rw [outcome_loadThemeJson] at load
      obtain ⟨-, rfl⟩ := Prod.mk.inj load
      obtain ⟨count, v, cause, -, written, -, -⟩ := until_of_outcome_writeThemeJson write
      refine ⟨_, written, List.forall_mem_map.mpr fun w taken => ?_⟩
      exact Config.product_of_derived plain (List.mem_of_mem_take taken)

/-- Whatever a build answers, it has written products and nothing else once the output directory was seen to. -/
theorem exists_products_of_run {answer : Except BuildError BuildReport}
    (plain : ∀ palette ∈ config.palettes, '/' ∉ palette.toList)
    (ran : outcome (run config) start = (answer, after)) : ∃ writes,
      (start.files.ensureDirectory config.output).2.writeAll writes = .ok after.files ∧
      ∀ w ∈ writes, config.Product w.1 := by
  cases answer with
  | ok report =>
    obtain ⟨schemes, themes, makes, -⟩ := makes_of_outcome_run plain ran
    exact ⟨_, makes.written, makes.products plain⟩
  | error e =>
    obtain ⟨count, files, progress, -⟩ := exists_progress plain ran
    refine ⟨files, progress.written, fun w member => ?_⟩
    have path : w.1 ∈ (config.artifacts.take count).map (Artifact.path config) :=
      progress.paths ▸ List.mem_map_of_mem member
    obtain ⟨a, taken, same⟩ := List.mem_map.mp path
    exact same ▸ Config.product_of_mem_artifacts plain (List.mem_of_mem_take taken)

/-- A file that a path leads to goes on standing there, and no file is new or changed where the path leads to. -/
structure FileKept (path : Path) (before after : FileTree) : Prop where
  kept : ∀ location content, before.find path = .ok (location, .file content) →
    after.find path = .ok (location, .file content)
  noneNew : ∀ location content, after.find path = .ok (location, .file content) →
    before.entry? location = some (.file content)

theorem fileKept_of_adds {places : Location → Prop} {before after : FileTree} (adds : FileTree.Adds places before after)
    (path : Path) : FileKept path before after where
  kept location content found := by
    obtain ⟨start, origin, walked, here, plain⟩ := FileTree.find_eq_ok_iff.mp found
    have still : after.entry? location = some (.file content) := by
      rcases adds.entries location with same | ⟨missing, -, -⟩
      · exact same.trans here
      · simp [missing] at here
    exact FileTree.find_eq_ok_iff.mpr
      ⟨start, (adds.grows.origin path).trans origin, adds.grows.walk walked, still, plain⟩
  noneNew location content found := by
    obtain ⟨start, -, -, here, -⟩ := FileTree.find_eq_ok_iff.mp found
    rcases adds.entries location with same | ⟨-, made, -⟩
    · exact same.symm.trans here
    · simp [made] at here

/-- Deriving theme files changes nothing at the path of the base theme, for any variants and wherever it stops, and a
whole build neither changes nor removes the base theme, nor makes one. -/
theorem base_theme_untouched (config : Config) (start : RecordedFiles) :
    (∀ variants : List Variant, (∀ v ∈ variants, '/' ∉ v.palette.toList) → ∀ location entry,
      (outcome (deriveThemes config variants) start).2.files.find (config.themeJsonPath Variant.base) =
          .ok (location, entry) ↔
        start.files.find (config.themeJsonPath Variant.base) = .ok (location, entry)) ∧
    ((∀ palette ∈ config.palettes, '/' ∉ palette.toList) →
      FileKept (config.themeJsonPath Variant.base) start.files (outcome (run config) start).2.files) := by
  constructor
  · intro variants plain location entry
    obtain ⟨writes, written, products⟩ := exists_products_of_deriveThemes plain
      (rfl : outcome (deriveThemes config variants) start = _)
    exact Config.find_baseTheme_iff_of_writeAll written products
  · intro plain
    obtain ⟨writes, written, products⟩ := exists_products_of_run plain (rfl : outcome (run config) start = _)
    have standing := fileKept_of_adds (FileTree.ensureDirectory_adds start.files config.output)
      (config.themeJsonPath Variant.base)
    refine ⟨fun location content found => ?_, fun location content found => ?_⟩
    · exact (Config.find_baseTheme_iff_of_writeAll written products).mpr (standing.kept location content found)
    · exact standing.noneNew location content ((Config.find_baseTheme_iff_of_writeAll written products).mp found)

/-- The base variant is among the variants here, and the path of its theme file leads through the directory that the
build has to make. -/
theorem base_theme_untouched_italicConfig :
    (∀ v ∈ italicConfig.variants, '/' ∉ v.palette.toList) ∧ Variant.base ∈ italicConfig.variants ∧
    (∀ location entry,
      (outcome (deriveThemes italicConfig italicConfig.variants) ⟨sampleTree, []⟩).2.files.find
          ⟨"new/../themes/x.theme.json"⟩ = .ok (location, entry) ↔
        sampleTree.find ⟨"new/../themes/x.theme.json"⟩ = .ok (location, entry)) ∧
    (∀ palette ∈ italicConfig.palettes, '/' ∉ palette.toList) ∧
    FileKept ⟨"new/../themes/x.theme.json"⟩ sampleTree (outcome (run italicConfig) ⟨sampleTree, []⟩).2.files := by
  have path : italicConfig.themeJsonPath Variant.base = ⟨"new/../themes/x.theme.json"⟩ := by decide
  have plainVariants : ∀ v ∈ italicConfig.variants, '/' ∉ v.palette.toList := by decide
  have plain : ∀ palette ∈ italicConfig.palettes, '/' ∉ palette.toList := by decide
  have untouched := base_theme_untouched italicConfig ⟨sampleTree, []⟩
  rw [path] at untouched
  exact ⟨plainVariants, by decide, untouched.1 italicConfig.variants plainVariants, plain, untouched.2 plain⟩

end Build

end EditorScheme
