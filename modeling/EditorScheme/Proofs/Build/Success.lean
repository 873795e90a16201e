import EditorScheme.Proofs.Build.Contents

/-!
What a successful build does, said without its steps. It writes the schemes that the tree gives the variants
once the output directory is there, and then the theme files.
-/
namespace EditorScheme.Build

variable {config : Config} {start middle after : RecordedFiles} {styles : StyleMap} {theme : Theme}
  {palette : Palette} {v : Variant}

theorem outcome_loadPalette (config : Config) (name : String) (start : RecordedFiles) :
    outcome (loadPalette config name) start =
      (documentIn start.files (config.palettePath name) (Palette.ofYaml name),
        { start with events := start.events ++ [.readingDocument (config.palettePath name)] }) :=
  outcome_document _ _ _

theorem outcome_loadStyleMap (config : Config) (start : RecordedFiles) :
    outcome (loadStyleMap config) start =
      (documentIn start.files config.styleMapPath StyleMap.ofYaml,
        { start with events := start.events ++ [.readingDocument config.styleMapPath] }) :=
  outcome_document _ _ _

theorem outcome_loadTheme (config : Config) (start : RecordedFiles) :
    outcome (loadTheme config) start =
      (documentIn start.files config.themePath Theme.ofYaml,
        { start with events := start.events ++ [.readingDocument config.themePath] }) :=
  outcome_document _ _ _

theorem outcome_loadThemeJson (config : Config) (start : RecordedFiles) :
    outcome (loadThemeJson config) start =
      (config.baseThemeIn start.files,
        { start with events := start.events ++ [.readingDocument (config.themeJsonPath Variant.base)] }) := by
  unfold loadThemeJson Config.baseThemeIn
  rw [outcome_bind, outcome_readDocument]
  cases start.files.readText (config.themeJsonPath Variant.base) with
  | error cause => rfl
  | ok text =>
    simp only [mapError_ok, bind, Except.bind]
    cases Json.Value.ofText? text with
    | none => rfl
    | some value =>
      dsimp only
      cases value.toObject? <;> rfl

theorem outcome_buildVariant_eq_ok_iff {path : Path} :
    outcome (buildVariant config v palette styles theme) start = (.ok path, after) ↔
      path = config.schemePath v ∧ ∃ scheme,
        theme.assemble palette styles v.italic (v.displayName config.displayName) = .ok scheme ∧
        start.files.writeText (config.schemePath v) scheme.toXml = .ok after.files ∧
        after.events = start.events ++ [.buildingScheme v (v.displayName config.displayName),
          .assembled (v.displayName config.displayName) palette.name v.italic theme.colors.length
            theme.attributes.length,
          .wroteFile (config.schemePath v) scheme.toXml.utf8ByteSize] := by
  unfold buildVariant
  rw [outcome_bind, outcome_report]
  simp only
  rw [outcome_bind, outcome_checked]
  cases made : theme.assemble palette styles v.italic (v.displayName config.displayName) with
  | error cause => simp
  | ok scheme =>
    simp only [mapError_ok]
    rw [outcome_bind, outcome_report]
    simp only
    rw [outcome_bind_eq_ok_iff]
    constructor
    · rintro ⟨⟨⟩, middle, write, done⟩
      obtain ⟨written, events⟩ := outcome_writeFile_eq_ok_iff.mp write
      cases done
      exact ⟨rfl, scheme, rfl, written, by simp [events]⟩
    · rintro ⟨rfl, _, same, written, events⟩
      cases same
      exact ⟨(), after, outcome_writeFile_eq_ok_iff.mpr ⟨written, by simp [events]⟩, rfl⟩

/-- A palette is read once, for two schemes. -/
theorem files_of_outcome_buildPalette {name : String} {paths : List Path}
    (hasStyles : documentIn start.files config.styleMapPath StyleMap.ofYaml = .ok styles)
    (hasTheme : documentIn start.files config.themePath Theme.ofYaml = .ok theme)
    (ran : outcome (buildPalette config styles theme name) start = (.ok paths, after)) :
    paths = [config.schemePath ⟨name, false⟩, config.schemePath ⟨name, true⟩] ∧ ∃ files,
      List.mapM (config.schemeFile start.files) [⟨name, false⟩, ⟨name, true⟩] = .ok files ∧
      start.files.writeAll files = .ok after.files := by
  unfold buildPalette at ran
  obtain ⟨palette, loaded, load, ran⟩ := outcome_bind_eq_ok_iff.mp ran
  obtain ⟨path, between, first, ran⟩ := outcome_bind_eq_ok_iff.mp ran
  obtain ⟨path', last, second, done⟩ := outcome_bind_eq_ok_iff.mp ran
  rw [outcome_loadPalette] at load
  obtain ⟨read, rfl⟩ := Prod.mk.inj load
  obtain ⟨rfl, plain, madePlain, writtenPlain, -⟩ := outcome_buildVariant_eq_ok_iff.mp first
  obtain ⟨rfl, italic, madeItalic, writtenItalic, -⟩ := outcome_buildVariant_eq_ok_iff.mp second
  cases done
  have file {v : Variant} {scheme : Scheme} (same : v.palette = name)
      (made : theme.assemble palette styles v.italic (v.displayName config.displayName) = .ok scheme) :
      config.schemeFile start.files v = .ok (config.schemePath v, scheme.toXml) := by
    subst same
    exact Config.schemeFile_eq_ok_iff.mpr ⟨scheme,
      Config.schemeIn_eq_ok_iff.mpr ⟨styles, theme, palette, hasStyles, hasTheme, read, made⟩, rfl⟩
  refine ⟨rfl, [(config.schemePath ⟨name, false⟩, plain.toXml),
    (config.schemePath ⟨name, true⟩, italic.toXml)], ?_, ?_⟩
  · exact mapM_cons_eq_ok_iff.mpr ⟨_, _, file rfl madePlain,
      mapM_cons_eq_ok_iff.mpr ⟨_, _, file rfl madeItalic, rfl, rfl⟩, rfl⟩
  · exact FileTree.writeAll_cons_eq_ok_iff.mpr ⟨between.files, writtenPlain,
      FileTree.writeAll_cons_eq_ok_iff.mpr ⟨_, writtenItalic, rfl⟩⟩

/-- The palettes are read from files that earlier schemes leave alone, so reading each of them when its turn
comes makes the same schemes as reading all of them at first. -/
theorem files_of_outcome_buildPalettes {names : List String} {paths : List (List Path)}
    (ran : outcome (names.mapM (buildPalette config styles theme)) start = (.ok paths, after))
    (plain : ∀ name ∈ names, '/' ∉ name.toList)
    (hasStyles : documentIn start.files config.styleMapPath StyleMap.ofYaml = .ok styles)
    (hasTheme : documentIn start.files config.themePath Theme.ofYaml = .ok theme) :
    paths.flatten = (Variant.matrix names).map config.schemePath ∧ ∃ files,
      (Variant.matrix names).mapM (config.schemeFile start.files) = .ok files ∧
      start.files.writeAll files = .ok after.files := by
  induction names generalizing start paths with
  | nil =>
    cases ran
    exact ⟨rfl, [], rfl, rfl⟩
  | cons name names ih =>
    obtain ⟨both, middle, rest, head, tail, rfl⟩ := outcome_mapM_cons_eq_ok_iff.mp ran
    obtain ⟨rfl, first, madeFirst, writtenFirst⟩ := files_of_outcome_buildPalette hasStyles hasTheme head
    have outputs : ∀ file ∈ first, config.Output file.1 :=
      Config.outputs_of_schemeFiles (by simp [plain name (by simp)]) madeFirst
    obtain ⟨paths, later, madeLater, writtenLater⟩ := ih tail
      (fun other member => plain other (by simp [member]))
      ((Config.documentIn_iff_of_writeAll .styles writtenFirst outputs).mpr hasStyles)
      ((Config.documentIn_iff_of_writeAll .theme writtenFirst outputs).mpr hasTheme)
    -- The later schemes were made from the tree that the first two left, and are the same for this one.
    have madeAtFirst : (Variant.matrix names).mapM (config.schemeFile start.files) = .ok later := by
      refine mapM_eq_ok_of_imp madeLater fun v member file made => ?_
      have inside : v.palette ∈ names := Variant.mem_matrix.mp member
      exact (Config.schemeFile_iff_of_writeAll (plain _ (by simp [inside])) writtenFirst outputs).mp made
    refine ⟨by simp [Variant.matrix_cons, paths], first ++ later, ?_, ?_⟩
    · exact mapM_append_eq_ok_iff.mpr ⟨first, later, madeFirst, madeAtFirst, rfl⟩
    · exact FileTree.writeAll_append_eq_ok_iff.mpr ⟨middle.files, writtenFirst, writtenLater⟩

theorem files_of_outcome_writeThemeJson {base : Json.Object} {variants : List Variant} {paths : List Path}
    (ran : outcome (variants.mapM (writeThemeJson config base)) start = (.ok paths, after)) :
    paths = variants.map config.themeJsonPath ∧
      start.files.writeAll (variants.map (config.themeFile base)) = .ok after.files := by
  induction variants generalizing start paths with
  | nil =>
    cases ran
    exact ⟨rfl, rfl⟩
  | cons v variants ih =>
    obtain ⟨path, middle, rest, head, tail, rfl⟩ := outcome_mapM_cons_eq_ok_iff.mp ran
    obtain ⟨⟨⟩, last, write, done⟩ := outcome_bind_eq_ok_iff.mp head
    obtain ⟨written, -⟩ := outcome_writeFile_eq_ok_iff.mp write
    cases done
    obtain ⟨rfl, writtenRest⟩ := ih tail
    exact ⟨rfl, FileTree.writeAll_cons_eq_ok_iff.mpr ⟨_, written, writtenRest⟩⟩

theorem files_of_outcome_deriveThemes {variants : List Variant} {paths : List Path}
    (ran : outcome (deriveThemes config variants) start = (.ok paths, after)) : ∃ base,
      config.baseThemeIn start.files = .ok base ∧
      paths = (variants.filter fun v => !v.isBase).map config.themeJsonPath ∧
      start.files.writeAll ((variants.filter fun v => !v.isBase).map (config.themeFile base)) = .ok after.files := by
  unfold deriveThemes at ran
  obtain ⟨base, loaded, load, ran⟩ := outcome_bind_eq_ok_iff.mp ran
  rw [outcome_loadThemeJson] at load
  obtain ⟨read, rfl⟩ := Prod.mk.inj load
  have files := files_of_outcome_writeThemeJson ran
  exact ⟨base, read, files⟩

/-- What a successful build makes of a tree: the directory of its outputs, then the schemes that the sources
give the variants, then the theme files. -/
structure Makes (config : Config) (before after : FileTree) (schemes themes : List (Path × String)) : Prop where
  directory : (before.ensureDirectory config.output).1 = .ok ()
  assembled : config.variants.mapM (config.schemeFile (before.ensureDirectory config.output).2) = .ok schemes
  derived : config.deriveThemes = false ∧ themes = [] ∨ config.deriveThemes = true ∧ ∃ base,
    config.baseThemeIn (before.ensureDirectory config.output).2 = .ok base ∧
      themes = (config.variants.filter fun v => !v.isBase).map (config.themeFile base)
  written : (before.ensureDirectory config.output).2.writeAll (schemes ++ themes) = .ok after

theorem makes_of_outcome_run {report : BuildReport} (plain : ∀ palette ∈ config.palettes, '/' ∉ palette.toList)
    (ran : outcome (run config) start = (.ok report, after)) : ∃ schemes themes,
      Makes config start.files after.files schemes themes ∧
      report = ⟨config.variants.map config.schemePath, themes.map (·.1)⟩ := by
  unfold run at ran
  obtain ⟨⟨⟩, ensured, ensure, ran⟩ := outcome_bind_eq_ok_iff.mp ran
  rw [outcome_ensureDirectory] at ensure
  obtain ⟨directory, rfl⟩ := Prod.mk.inj ensure
  obtain ⟨styles, styled, loadStyles, ran⟩ := outcome_bind_eq_ok_iff.mp ran
  rw [outcome_loadStyleMap] at loadStyles
  obtain ⟨hasStyles, rfl⟩ := Prod.mk.inj loadStyles
  obtain ⟨theme, themed, loadTheme, ran⟩ := outcome_bind_eq_ok_iff.mp ran
  rw [outcome_loadTheme] at loadTheme
  obtain ⟨hasTheme, rfl⟩ := Prod.mk.inj loadTheme
  obtain ⟨paths, built, build, ran⟩ := outcome_bind_eq_ok_iff.mp ran
  obtain ⟨schemePaths, schemes, assembled, written⟩ :=
    files_of_outcome_buildPalettes build plain hasStyles hasTheme
  have made : (start.files.ensureDirectory config.output).1 = .ok () := by
    cases result : (start.files.ensureDirectory config.output).1 with
    | error cause => simp [result] at directory
    | ok => rfl
  cases derive : config.deriveThemes with
  | false =>
    simp only [derive, Bool.false_eq_true, ↓reduceIte] at ran
    obtain ⟨themePaths, derived, derivation, ran⟩ := outcome_bind_eq_ok_iff.mp ran
    rw [outcome_pure] at derivation
    obtain ⟨none, rfl⟩ := Prod.mk.inj derivation
    cases none
    obtain ⟨⟨⟩, finished, finish, done⟩ := outcome_bind_eq_ok_iff.mp ran
    rw [outcome_report] at finish
    obtain ⟨-, rfl⟩ := Prod.mk.inj finish
    rw [outcome_pure] at done
    obtain ⟨same, rfl⟩ := Prod.mk.inj done
    cases same
    refine ⟨schemes, [], ⟨made, assembled, .inl ⟨derive, rfl⟩, by simpa using written⟩, ?_⟩
    simp [schemePaths, Config.variants]
  | true =>
    simp only [derive, ↓reduceIte] at ran
    obtain ⟨themePaths, derived, derivation, ran⟩ := outcome_bind_eq_ok_iff.mp ran
    obtain ⟨⟨⟩, finished, finish, done⟩ := outcome_bind_eq_ok_iff.mp ran
    rw [outcome_report] at finish
    obtain ⟨-, rfl⟩ := Prod.mk.inj finish
    rw [outcome_pure] at done
    obtain ⟨same, rfl⟩ := Prod.mk.inj done
    cases same
    obtain ⟨base, read, rfl, writtenThemes⟩ := files_of_outcome_deriveThemes derivation
    refine ⟨schemes, _, ⟨made, assembled, .inr ⟨derive, base, ?_, rfl⟩,
      FileTree.writeAll_append_eq_ok_iff.mpr ⟨built.files, written, writtenThemes⟩⟩, ?_⟩
    · obtain ⟨text, value, read, parsed, object⟩ := Config.baseThemeIn_eq_ok_iff.mp read
      refine Config.baseThemeIn_eq_ok_iff.mpr ⟨text, value, ?_, parsed, object⟩
      refine (Config.readText_themeJsonPath_iff (by decide) written fun file member => ?_).mp read
      obtain ⟨v, inside, path⟩ := Config.exists_of_mem_schemeFiles assembled member
      exact ⟨v, plain _ (Variant.mem_matrix.mp inside), path⟩
    · simp [schemePaths, Config.variants, Config.themeFile]

end EditorScheme.Build
