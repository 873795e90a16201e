import EditorScheme.Proofs.Build.Success

/-!
What a successful build leaves. Its report lists the outputs of all variants, a scheme stands in the file
of each variant unless a later variant of the same name was written over it, and nothing else changed but
for directories that were missing on the way to the outputs. With palettes that are all different, one thing alone
makes outputs meet: a palette that is spelled like the italic variant of another.
-/
namespace EditorScheme.Build

variable {config : Config} {before after : FileTree} {schemes themes : List (Path × String)} {v : Variant}
  {earlier later : List Variant} {location : Location}

namespace Makes

theorem themePaths (makes : Makes config before after schemes themes) : themes.map (·.1) =
    if config.deriveThemes then (config.variants.filter fun v => !v.isBase).map config.themeJsonPath else [] := by
  rcases makes.derived with ⟨derive, rfl⟩ | ⟨derive, base, -, rfl⟩
  · simp [derive]
  · simp [derive, Config.themeFile]

theorem exists_of_mem_themes (makes : Makes config before after schemes themes) {file : Path × String}
    (member : file ∈ themes) : ∃ v ∈ config.variants, file.1 = config.themeJsonPath v := by
  rcases makes.derived with ⟨-, rfl⟩ | ⟨-, base, -, rfl⟩
  · cases member
  · obtain ⟨v, inside, rfl⟩ := List.mem_map.mp member
    exact ⟨v, (List.mem_filter.mp inside).1, rfl⟩

theorem readText (makes : Makes config before after schemes themes)
    (plain : ∀ palette ∈ config.palettes, '/' ∉ palette.toList) (split : config.variants = earlier ++ v :: later)
    (last : ∀ w ∈ later, w.fileStem config.fileName ≠ v.fileStem config.fileName) :
    ∃ scheme, config.schemeIn (before.ensureDirectory config.output).2 v = .ok scheme ∧
      after.readText (config.schemePath v) = .ok scheme.toXml := by
  have plainVariant : ∀ w ∈ config.variants, '/' ∉ w.palette.toList :=
    fun w member => plain _ (Variant.mem_matrix.mp member)
  have plainSplit : ∀ w ∈ earlier ++ v :: later, '/' ∉ w.palette.toList := split ▸ plainVariant
  have assembled := makes.assembled
  rw [split] at assembled
  obtain ⟨first, others, -, madeOthers, rfl⟩ := mapM_append_eq_ok_iff.mp assembled
  obtain ⟨file, rest, made, madeRest, rfl⟩ := mapM_cons_eq_ok_iff.mp madeOthers
  obtain ⟨scheme, schemeMade, rfl⟩ := Config.schemeFile_eq_ok_iff.mp made
  refine ⟨scheme, schemeMade, ?_⟩
  have written := makes.written
  rw [List.append_assoc, List.cons_append] at written
  refine FileTree.readText_of_writeAll written fun w member => ?_
  rcases List.mem_append.mp member with inRest | inThemes
  · obtain ⟨u, inside, path⟩ := Config.exists_of_mem_schemeFiles madeRest inRest
    rw [path, Config.schemePath_eq, Ne,
      Config.outputPath_last_inj Config.extension_xml (plainSplit u (by simp [inside])) (plainSplit v (by simp))]
    exact last u inside
  · obtain ⟨u, inside, path⟩ := makes.exists_of_mem_themes inThemes
    rw [path, Config.themeJsonPath_eq, Config.schemePath_eq]
    exact Config.outputPath_last_ne Config.extension_themeJson Config.extension_xml (by decide)
      (plainVariant u inside) (plainSplit v (by simp))

theorem grows (makes : Makes config before after schemes themes) : FileTree.Grows before after :=
  (FileTree.ensureDirectory_adds before config.output).grows.trans (FileTree.rewrites_writeAll makes.written).grows

/-- Where no output stands, nothing changed but for a directory on the way to the outputs. -/
theorem elsewhere (makes : Makes config before after schemes themes)
    (other : ∀ file ∈ schemes ++ themes, ∀ content, after.find file.1 ≠ .ok (location, .file content)) :
    after.entry? location = before.entry? location ∨
      before.entry? location = none ∧ after.entry? location = some .directory ∧
        FileTree.OnTheWay config.output.chain after location :=
  FileTree.elsewhere_of_writeAll makes.written other

end Makes

/-- What a build reports and leaves, given the tree before it. -/
structure Result (config : Config) (before after : FileTree) (report : BuildReport) : Prop where
  schemes : report.schemes = config.variants.map config.schemePath
  themes : report.themes =
    if config.deriveThemes then (config.variants.filter fun v => !v.isBase).map config.themeJsonPath else []
  /-- The sources are those of the tree in which the output directory has just been made. -/
  contents : ∀ earlier v later, config.variants = earlier ++ v :: later →
    (∀ w ∈ later, w.fileStem config.fileName ≠ v.fileStem config.fileName) →
    ∃ scheme, config.schemeIn (before.ensureDirectory config.output).2 v = .ok scheme ∧
      after.readText (config.schemePath v) = .ok scheme.toXml
  workingDirectory : after.workingDirectory = before.workingDirectory
  directories : ∀ location, before.entry? location = some .directory → after.entry? location = some .directory
  elsewhere : ∀ location,
    (∀ path ∈ report.schemes ++ report.themes, ∀ content, after.find path ≠ .ok (location, .file content)) →
    after.entry? location = before.entry? location ∨
      before.entry? location = none ∧ after.entry? location = some .directory ∧
        FileTree.OnTheWay config.output.chain after location

/-- A successful build leaves what it reports, whatever the tree was and however the outputs are spelled. -/
theorem result_of_run {start after : RecordedFiles} {report : BuildReport}
    (plain : ∀ palette ∈ config.palettes, '/' ∉ palette.toList)
    (ran : outcome (run config) start = (.ok report, after)) : Result config start.files after.files report := by
  obtain ⟨schemes, themes, makes, rfl⟩ := makes_of_outcome_run plain ran
  have paths : (schemes ++ themes).map (·.1) = config.variants.map config.schemePath ++ themes.map (·.1) := by
    rw [List.map_append, Config.paths_of_schemeFiles makes.assembled]
  refine ⟨rfl, makes.themePaths, fun earlier v later split last => makes.readText plain split last,
    makes.grows.workingDirectory, makes.grows.directories, fun location other => makes.elsewhere ?_⟩
  intro file member
  exact other file.1 (paths ▸ List.mem_map_of_mem member)

def sampleConfig (palettes : List String) : Config where
  source := ⟨"sources"⟩
  output := ⟨"new"⟩
  fileName := "../themes/x"
  displayName := "X"
  palettes := palettes
  resourceRoot := "/themes"
  deriveThemes := true

def italicConfig : Config := sampleConfig ["normal", "italic"]

/-- Sources with three palettes, and a theme file, but no output directory. -/
def sampleTree : FileTree where
  entries := .ofList [
    (["w"], .directory),
    (["sources", "w"], .directory),
    (["colors", "sources", "w"], .directory),
    (["themes", "w"], .directory),
    (["ide.yaml", "sources", "w"], .file (.text "font-type: \x7b\x7d\n")),
    (["theme.yaml", "sources", "w"], .file (.text ("parent-scheme: Darcula\ncolors: \x7b\x7d\n" ++
      "inheriting-attributes: \x7b\x7d\nattributes:\n  KEYWORD: purple\n"))),
    (["normal.yaml", "colors", "sources", "w"], .file (.text "purple: c678dd\n")),
    (["vivid.yaml", "colors", "sources", "w"], .file (.text "purple: d55fde\n")),
    (["italic.yaml", "colors", "sources", "w"], .file (.text "purple: dd78c6\n")),
    (["x.theme.json", "themes", "w"], .file (.text "\x7b\x7d"))]
  workingDirectory := ["w"]

def italicReport : BuildReport where
  schemes := [⟨"new/../themes/x.xml"⟩, ⟨"new/../themes/x_italic.xml"⟩, ⟨"new/../themes/x_italic.xml"⟩,
    ⟨"new/../themes/x_italic_italic.xml"⟩]
  themes := [⟨"new/../themes/x_italic.theme.json"⟩, ⟨"new/../themes/x_italic.theme.json"⟩,
    ⟨"new/../themes/x_italic_italic.theme.json"⟩]

theorem outcome_italicConfig : outcome (run italicConfig) ⟨sampleTree, []⟩ =
    (.ok italicReport, (outcome (run italicConfig) ⟨sampleTree, []⟩).2) :=
  outcome_of_toOption (by decide +kernel)

theorem result_of_run_italicConfig : (∀ palette ∈ italicConfig.palettes, '/' ∉ palette.toList) ∧
    ∃ after, outcome (run italicConfig) ⟨sampleTree, []⟩ = (.ok italicReport, after) ∧
      Result italicConfig sampleTree after.files italicReport := by
  have plain : ∀ palette ∈ italicConfig.palettes, '/' ∉ palette.toList := by decide
  exact ⟨plain, _, outcome_italicConfig, result_of_run plain outcome_italicConfig⟩

/-- Each variant of palettes that are all different keeps its own files exactly if no palette is spelled like
the italic variant of another. -/
theorem outputs_apart_iff {start after : RecordedFiles} {report : BuildReport}
    (plain : ∀ palette ∈ config.palettes, '/' ∉ palette.toList) (distinct : config.palettes.Nodup)
    (ran : outcome (run config) start = (.ok report, after)) :
    (report.schemes.Pairwise (fun a b => a.same b = false) ↔
      ∀ palette ∈ config.palettes, Variant.italicPalette palette "_" ∉ config.palettes) ∧
    ((∀ palette ∈ config.palettes, Variant.italicPalette palette "_" ∉ config.palettes) →
      report.themes.Pairwise (fun a b => a.same b = false) ∧
      ∀ v ∈ config.variants, ∃ scheme,
        config.schemeIn (start.files.ensureDirectory config.output).2 v = .ok scheme ∧
        after.files.readText (config.schemePath v) = .ok scheme.toXml) := by
  obtain ⟨schemes, themes, makes, rfl⟩ := makes_of_outcome_run plain ran
  have plainVariant : ∀ v ∈ config.variants, '/' ∉ v.palette.toList :=
    fun v member => plain _ (Variant.mem_matrix.mp member)
  have stems : (config.variants.map (·.fileStem config.fileName)).Nodup ↔
      ∀ palette ∈ config.palettes, Variant.italicPalette palette "_" ∉ config.palettes :=
    Variant.nodup_labels_iff (by decide) distinct
  refine ⟨(Config.pairwise_outputPaths_iff Config.extension_xml plainVariant).trans stems, fun apart => ?_⟩
  refine ⟨?_, fun v member => ?_⟩
  · have differ := (Config.pairwise_outputPaths_iff Config.extension_themeJson plainVariant).mpr (stems.mpr apart)
    rw [makes.themePaths]
    split
    · exact differ.sublist (List.filter_sublist.map _)
    · exact .nil
  · obtain ⟨earlier, later, split⟩ := List.append_of_mem member
    refine makes.readText plain split fun w inside same => ?_
    have differ := stems.mpr apart
    rw [split, List.map_append, List.map_cons] at differ
    have fresh := (List.nodup_cons.mp (List.nodup_append.mp differ).2.1).1
    exact fresh (List.mem_map.mpr ⟨w, inside, same⟩)

/-- No palette is spelled like the italic variant of another, since the default one is missing. -/
def vividConfig : Config := sampleConfig ["italic", "vivid"]

theorem outputs_apart_vividConfig :
    (∀ palette ∈ vividConfig.palettes, '/' ∉ palette.toList) ∧ vividConfig.palettes.Nodup ∧
    ∃ report after, outcome (run vividConfig) ⟨sampleTree, []⟩ = (.ok report, after) ∧
      report.schemes.Pairwise (fun a b => a.same b = false) ∧
      report.themes.Pairwise (fun a b => a.same b = false) ∧
      ∀ v ∈ vividConfig.variants, ∃ scheme,
        vividConfig.schemeIn (sampleTree.ensureDirectory vividConfig.output).2 v = .ok scheme ∧
        after.files.readText (vividConfig.schemePath v) = .ok scheme.toXml := by
  have plain : ∀ palette ∈ vividConfig.palettes, '/' ∉ palette.toList := by decide
  have distinct : vividConfig.palettes.Nodup := by decide
  have apart : ∀ palette ∈ vividConfig.palettes, Variant.italicPalette palette "_" ∉ vividConfig.palettes := by
    decide
  have answers : (outcome (run vividConfig) ⟨sampleTree, []⟩).1.toOption.isSome := by decide +kernel
  obtain ⟨report, answer⟩ := Option.isSome_iff_exists.mp answers
  have ran := outcome_of_toOption answer
  obtain ⟨schemes, others⟩ := outputs_apart_iff plain distinct ran
  exact ⟨plain, distinct, report, _, ran, schemes.mpr apart, others apart⟩

/-- Palettes that are all different are not enough: here the plain scheme of the second stands in the file of
the italic scheme of the first. -/
theorem italic_scheme_lost :
    (∀ palette ∈ italicConfig.palettes, '/' ∉ palette.toList) ∧ italicConfig.palettes.Nodup ∧
    ∃ after, outcome (run italicConfig) ⟨sampleTree, []⟩ = (.ok italicReport, after) ∧
      ¬ italicReport.schemes.Nodup ∧ ¬ italicReport.themes.Nodup ∧
      ∃ v ∈ italicConfig.variants, ∃ scheme,
        italicConfig.schemeIn (sampleTree.ensureDirectory italicConfig.output).2 v = .ok scheme ∧
        after.files.readText (italicConfig.schemePath v) ≠ .ok scheme.toXml := by
  have plain : ∀ palette ∈ italicConfig.palettes, '/' ∉ palette.toList := by decide
  have member : ⟨"normal", true⟩ ∈ italicConfig.variants := by decide
  have split : italicConfig.variants =
      [⟨"normal", false⟩, ⟨"normal", true⟩] ++ ⟨"italic", false⟩ :: [⟨"italic", true⟩] := rfl
  have path : italicConfig.schemePath ⟨"normal", true⟩ = italicConfig.schemePath ⟨"italic", false⟩ := by decide
  obtain ⟨schemes, themes, makes, -⟩ := makes_of_outcome_run plain outcome_italicConfig
  obtain ⟨file, made⟩ := exists_of_mapM_eq_ok makes.assembled member
  obtain ⟨lost, madeLost, -⟩ := Config.schemeFile_eq_ok_iff.mp made
  obtain ⟨kept, madeKept, held⟩ := makes.readText plain split (by decide)
  refine ⟨plain, by decide, _, outcome_italicConfig, by decide, by decide, _, member, lost, madeLost, ?_⟩
  rw [path, held]
  intro same
  have differ : (italicConfig.schemeIn (sampleTree.ensureDirectory italicConfig.output).2
        ⟨"normal", true⟩).toOption.map Scheme.toXml ≠
      (italicConfig.schemeIn (sampleTree.ensureDirectory italicConfig.output).2
        ⟨"italic", false⟩).toOption.map Scheme.toXml := by decide +kernel
  apply differ
  rw [madeLost, madeKept]
  exact congrArg some (Except.ok.inj same).symm

end EditorScheme.Build
