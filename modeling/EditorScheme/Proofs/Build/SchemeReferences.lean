import EditorScheme.Proofs.Build.Repetition
import EditorScheme.Proofs.Build.ThemeFiles
import EditorScheme.Proofs.Json.Floats
import EditorScheme.Proofs.OptionNames
import Mathlib.Data.List.DropRight

/-!
Theme files and schemes belong together. The two are written one after the other, and where variants share the name
of their files, the last of them is the one that both are left of.
-/
namespace EditorScheme

theorem Variant.eq_base_of_isBase {v : Variant} (base : v.isBase = true) : v = Variant.base := by
  obtain ⟨palette, italic⟩ := v
  simp only [isBase, Bool.and_eq_true, beq_iff_eq, Bool.not_eq_true'] at base
  obtain ⟨rfl, rfl⟩ := base
  rfl

namespace Config

variable {config : Config} {v : Variant}

theorem exists_trimSlashes (text : String) : ∃ slashes : List Char,
    text = trimSlashes text ++ String.ofList slashes ∧ (∀ c ∈ slashes, c = '/') ∧
      (trimSlashes text).toList.getLast? ≠ some '/' := by
  have kept : (trimSlashes text).toList = text.toList.rdropWhile (· == '/') := String.toList_ofList
  refine ⟨text.toList.rtakeWhile (· == '/'), ?_, fun c member => ?_, fun last => ?_⟩
  · rw [← String.toList_inj, String.toList_append, kept, String.toList_ofList, List.rdropWhile_append_rtakeWhile]
  · simpa using List.mem_rtakeWhile_imp member
  · rw [kept] at last
    obtain ⟨nonempty, same⟩ := List.mem_getLast?_eq_getLast last
    exact List.rdropWhile_last_not _ _ nonempty (by simp [← same])

theorem name_of_schemeIn {tree : FileTree} {scheme : Scheme} (made : config.schemeIn tree v = .ok scheme) :
    scheme.name = v.displayName config.displayName := by
  obtain ⟨styles, theme, palette, -, -, -, assembled⟩ := schemeIn_eq_ok_iff.mp made
  obtain ⟨blocks, -, rfl⟩ := Theme.assemble_eq_ok_iff.mp assembled
  rfl

/-- Each variant shares its file names with one behind which no other does. -/
theorem exists_last_of_stem (member : v ∈ config.variants) : ∃ earlier last later,
    config.variants = earlier ++ last :: later ∧ last.fileStem config.fileName = v.fileStem config.fileName ∧
      ∀ w ∈ later, w.fileStem config.fileName ≠ last.fileStem config.fileName := by
  obtain ⟨last, later, earlier, behind, same, split, -⟩ :=
    List.exists_of_eraseP (p := fun w => w.fileStem config.fileName == v.fileStem config.fileName)
      (List.mem_reverse.mpr member) (by simp)
  have stem : last.fileStem config.fileName = v.fileStem config.fileName := by simpa using same
  refine ⟨earlier.reverse, last, later.reverse, ?_, stem, fun w inside => ?_⟩
  · simpa using congrArg List.reverse split
  · simpa [stem] using behind w (List.mem_reverse.mp inside)

end Config

namespace Build

open Json

variable {config : Config} {before after : FileTree} {schemes themes : List (Path × String)} {v : Variant}
  {earlier later : List Variant}

theorem Makes.readTheme (makes : Makes config before after schemes themes)
    (plain : ∀ palette ∈ config.palettes, '/' ∉ palette.toList) (derive : config.deriveThemes = true)
    (split : config.variants = earlier ++ v :: later) (other : v.isBase = false)
    (last : ∀ w ∈ later, w.fileStem config.fileName ≠ v.fileStem config.fileName) : ∃ base,
      config.baseThemeIn (before.ensureDirectory config.output).2 = .ok base ∧
      after.readText (config.themeJsonPath v) = .ok (themeJson config base v) := by
  have plainVariant : ∀ w ∈ config.variants, '/' ∉ w.palette.toList :=
    fun w member => plain _ (Variant.mem_matrix.mp member)
  rcases makes.derived with ⟨skip, -⟩ | ⟨-, base, read, rfl⟩
  · simp [skip] at derive
  refine ⟨base, read, ?_⟩
  have written := makes.written
  rw [split, List.filter_append, List.filter_cons_of_pos (by simp [other]), List.map_append, List.map_cons,
    ← List.append_assoc] at written
  refine FileTree.readText_of_writeAll written fun w member => ?_
  obtain ⟨u, inside, rfl⟩ := List.mem_map.mp member
  have listed : u ∈ later := (List.mem_filter.mp inside).1
  change (config.themeJsonPath u).names.getLast? ≠ (config.themeJsonPath v).names.getLast?
  rw [Config.themeJsonPath_eq, Ne, Config.outputPath_last_inj Config.extension_themeJson
    (plainVariant u (by simp [split, listed])) (plainVariant v (by simp [split]))]
  exact last u listed

/-- The theme file of a variant refers to a scheme below a root. The scheme is reported, and is named like the theme. -/
structure Refers (config : Config) (root : String) (report : BuildReport) (tree : FileTree) (v : Variant) : Prop where
  reported : config.output.join (v.fileStem config.fileName ++ ".xml") ∈ report.schemes
  agree : ∃ (scheme : Scheme) (text : String) (theme : Object),
    tree.readText (config.output.join (v.fileStem config.fileName ++ ".xml")) = .ok scheme.toXml ∧
    tree.readText (config.themeJsonPath v) = .ok text ∧
    (Value.ofText? text).bind Value.toObject? = some theme ∧
    theme.get? ThemeJson.schemeField = some (.string (root ++ "/" ++ v.fileStem config.fileName ++ ".xml")) ∧
    theme.get? ThemeJson.nameField = some (.string scheme.name)

/-- After a build, the theme file of every variant but the base one refers to the scheme of the variant, and the two
have one name, whichever variant they were written for. -/
theorem themes_refer_to_schemes {start last : RecordedFiles} {report : BuildReport}
    (derive : config.deriveThemes = true) (plain : ∀ palette ∈ config.palettes, '/' ∉ palette.toList)
    (ran : outcome (run config) start = (.ok report, last)) :
    (∃ slashes, config.resourceRoot = Config.trimSlashes config.resourceRoot ++ String.ofList slashes ∧
      (∀ c ∈ slashes, c = '/') ∧ (Config.trimSlashes config.resourceRoot).toList.getLast? ≠ some '/') ∧
    ∀ v ∈ config.variants, v.isBase = false →
      Refers config (Config.trimSlashes config.resourceRoot) report last.files v := by
  refine ⟨Config.exists_trimSlashes config.resourceRoot, fun v member other => ?_⟩
  obtain ⟨_, themes, makes, rfl⟩ := makes_of_outcome_run plain ran
  obtain ⟨earlier, u, later, listed, stem, behind⟩ := Config.exists_last_of_stem member
  -- The variant that wrote both files last is not the base one either, as its files are named like those of `v`.
  have derived : u.isBase = false := by
    by_contra base
    have same : u = Variant.base := Variant.eq_base_of_isBase (by simpa using base)
    exact Config.fileStem_ne_base other config.fileName (by rw [← stem, same])
  have schemePath : config.schemePath u = config.schemePath v := by rw [Config.schemePath, stem, Config.schemePath]
  have themePath : config.themeJsonPath u = config.themeJsonPath v := by
    rw [Config.themeJsonPath, stem, Config.themeJsonPath]
  obtain ⟨scheme, made, heldScheme⟩ := makes.readText plain listed behind
  obtain ⟨base, loaded, heldTheme⟩ := makes.readTheme plain derive listed derived behind
  rw [schemePath] at heldScheme
  rw [themePath] at heldTheme
  obtain ⟨text, -, parsed⟩ := exists_text_of_baseThemeIn loaded
  obtain ⟨nested, numbers⟩ := nested_of_ofText? parsed
  obtain ⟨theme, read, name, reference⟩ := ThemeJson.exists_object_rename
    (u.displayName config.displayName) (config.schemeResource u) nested
    fun n number => exists_readsAs (numbers n number)
  refine ⟨List.mem_map_of_mem member, scheme, _, theme, heldScheme, heldTheme, read, ?_, ?_⟩
  · rw [reference, Config.schemeResource, stem]
  · rw [name, Config.name_of_schemeIn made]

/-- The italic variant of one palette shares its files with another palette, but not its display name. -/
def clashingConfig : Config := { sampleConfig ["normal", "vivid", "vivid_italic"] with resourceRoot := "/themes//" }

def clashingTree : FileTree :=
  { sampleTree with entries := sampleTree.entries.insertAll [
      (["vivid_italic.yaml", "colors", "sources", "w"], .file (.text "purple: dd78c6\n")),
      (["x.theme.json", "themes", "w"], .file (.text "\x7b\"name\": null, \"opacity\": 0.85\x7d"))] }

theorem themes_refer_to_schemes_clashingConfig :
    clashingConfig.deriveThemes = true ∧ (∀ palette ∈ clashingConfig.palettes, '/' ∉ palette.toList) ∧
    ⟨"vivid", true⟩ ∈ clashingConfig.variants ∧ ∃ report last,
      outcome (run clashingConfig) ⟨clashingTree, []⟩ = (.ok report, last) ∧
      Refers clashingConfig "/themes" report last.files ⟨"vivid", true⟩ := by
  have derive : clashingConfig.deriveThemes = true := rfl
  have plain : ∀ palette ∈ clashingConfig.palettes, '/' ∉ palette.toList := by decide
  have member : ⟨"vivid", true⟩ ∈ clashingConfig.variants := by decide
  have answers : (outcome (run clashingConfig) ⟨clashingTree, []⟩).1.toOption.isSome := by decide +kernel
  obtain ⟨report, answer⟩ := Option.isSome_iff_exists.mp answers
  have ran := outcome_of_toOption answer
  have root : Config.trimSlashes clashingConfig.resourceRoot = "/themes" := by decide
  obtain ⟨-, refers⟩ := themes_refer_to_schemes derive plain ran
  exact ⟨derive, plain, member, report, _, ran, root ▸ refers _ member rfl⟩

end Build

end EditorScheme
