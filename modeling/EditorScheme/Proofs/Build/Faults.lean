import EditorScheme.Proofs.Build.Success

/-!
Where a build stops. Each step that can fail is taken apart at its failure: what it tried, what it left, and which
document it blames.
-/
namespace EditorScheme.Build

variable {α β : Type} {config : Config} {start middle after : RecordedFiles} {e : BuildError} {styles : StyleMap}
  {theme : Theme} {palette : Palette} {v : Variant}

theorem outcome_bind_eq_error_iff {first : Step Recorded α} {next : α → Step Recorded β} :
    outcome (first >>= next) start = (.error e, after) ↔ outcome first start = (.error e, after) ∨
      ∃ a middle, outcome first start = (.ok a, middle) ∧ outcome (next a) middle = (.error e, after) := by
  rw [outcome_bind]
  rcases outcome first start with ⟨_ | a, middle⟩
  · simp
  · simp only [Prod.mk.injEq, Except.ok.injEq, reduceCtorEq, false_and, false_or]
    constructor
    · exact fun rest => ⟨a, middle, ⟨rfl, rfl⟩, rest⟩
    · rintro ⟨_, _, ⟨rfl, rfl⟩, rest⟩
      exact rest

theorem outcome_mapM_cons_eq_error_iff {step : α → Step Recorded β} {a : α} {list : List α} :
    outcome ((a :: list).mapM step) start = (.error e, after) ↔ outcome (step a) start = (.error e, after) ∨
      ∃ b middle, outcome (step a) start = (.ok b, middle) ∧ outcome (list.mapM step) middle = (.error e, after) := by
  rw [List.mapM_cons, outcome_bind_eq_error_iff]
  refine or_congr_right (exists₂_congr fun b middle => and_congr_right fun _ => ?_)
  rw [outcome_bind_eq_error_iff]
  simp [outcome_pure]

theorem outcome_of_error {step : Step Recorded α} (answer : (outcome step start).1 = .error e) :
    outcome step start = (.error e, (outcome step start).2) :=
  Prod.ext answer rfl

theorem documentIn_eq_error_iff {tree : FileTree} {path : Path} {parse : String → Except SchemaError α} :
    documentIn tree path parse = .error e ↔
      (∃ cause, tree.readText path = .error cause ∧ e = ⟨path, readFault cause⟩) ∨
        ∃ text cause, tree.readText path = .ok text ∧ parse text = .error cause ∧ e = ⟨path, .schema cause⟩ := by
  unfold documentIn
  cases tree.readText path with
  | error cause => simp [bind, Except.bind, eq_comm]
  | ok text => cases parsed : parse text <;> simp [bind, Except.bind, parsed, eq_comm]

theorem baseThemeIn_eq_error_iff {tree : FileTree} : config.baseThemeIn tree = .error e ↔
    (∃ cause, tree.readText (config.themeJsonPath Variant.base) = .error cause ∧
      e = ⟨config.themeJsonPath Variant.base, readFault cause⟩) ∨
    ∃ text, tree.readText (config.themeJsonPath Variant.base) = .ok text ∧
      (Json.Value.ofText? text = none ∧ e = ⟨config.themeJsonPath Variant.base, .notJson⟩ ∨
        ∃ value, Json.Value.ofText? text = some value ∧ value.toObject? = none ∧
          e = ⟨config.themeJsonPath Variant.base, .notAnObject⟩) := by
  unfold Config.baseThemeIn
  cases tree.readText (config.themeJsonPath Variant.base) with
  | error cause => simp [bind, Except.bind, eq_comm]
  | ok text =>
    cases parsed : Json.Value.ofText? text with
    | none => simp [bind, Except.bind, parsed, eq_comm]
    | some value => cases object : value.toObject? <;> simp [bind, Except.bind, parsed, object, eq_comm]

theorem exists_fault_of_documentIn {tree : FileTree} {path : Path} {parse : String → Except SchemaError α}
    (refused : documentIn tree path parse = .error e) : ∃ fault, e = ⟨path, fault⟩ := by
  rcases documentIn_eq_error_iff.mp refused with ⟨cause, -, blamed⟩ | ⟨text, cause, -, -, blamed⟩
  · exact ⟨_, blamed⟩
  · exact ⟨_, blamed⟩

theorem exists_fault_of_baseThemeIn {tree : FileTree} (refused : config.baseThemeIn tree = .error e) :
    ∃ fault, e = ⟨config.themeJsonPath Variant.base, fault⟩ := by
  rcases baseThemeIn_eq_error_iff.mp refused with
    ⟨cause, -, blamed⟩ | ⟨text, -, ⟨-, blamed⟩ | ⟨value, -, -, blamed⟩⟩
  · exact ⟨_, blamed⟩
  · exact ⟨_, blamed⟩
  · exact ⟨_, blamed⟩

theorem outcome_writeFile_eq_error_iff {path : Path} {text : String} :
    outcome (writeFile path text) start = (.error e, after) ↔
      ∃ cause, start.files.writeText path text = .error cause ∧ e = ⟨path, .unwritable cause⟩ ∧ after = start := by
  rw [outcome_writeFile]
  cases start.files.writeText path text with
  | error cause => simp [eq_comm]
  | ok files => simp

/-- A variant fails when its scheme cannot be assembled, or cannot be written. -/
theorem outcome_buildVariant_eq_error_iff :
    outcome (buildVariant config v palette styles theme) start = (.error e, after) ↔
    (∃ cause, theme.assemble palette styles v.italic (v.displayName config.displayName) = .error cause ∧
      e = ⟨config.schemePath v, .schema cause⟩ ∧
      after = ⟨start.files, start.events ++ [.buildingScheme v (v.displayName config.displayName)]⟩) ∨
    ∃ scheme cause, theme.assemble palette styles v.italic (v.displayName config.displayName) = .ok scheme ∧
      start.files.writeText (config.schemePath v) scheme.toXml = .error cause ∧
      e = ⟨config.schemePath v, .unwritable cause⟩ ∧
      after = ⟨start.files, start.events ++ [.buildingScheme v (v.displayName config.displayName),
        .assembled (v.displayName config.displayName) palette.name v.italic theme.colors.length
          theme.attributes.length]⟩ := by
  unfold buildVariant
  rw [outcome_bind, outcome_report]
  simp only
  rw [outcome_bind, outcome_checked]
  cases theme.assemble palette styles v.italic (v.displayName config.displayName) with
  | error cause => simp [eq_comm]
  | ok scheme =>
    simp only [mapError_ok]
    rw [outcome_bind, outcome_report]
    simp only
    rw [outcome_bind_eq_error_iff]
    simp only [outcome_writeFile_eq_error_iff, outcome_pure, Prod.mk.injEq, reduceCtorEq, false_and, and_false,
      exists_false, or_false, false_or, Except.ok.injEq, exists_and_left, exists_eq_left', List.append_assoc,
      List.cons_append, List.nil_append]

theorem outcome_buildPalette_eq_error_iff {name : String} :
    outcome (buildPalette config styles theme name) start = (.error e, after) ↔
    (documentIn start.files (config.palettePath name) (Palette.ofYaml name) = .error e ∧
      after = ⟨start.files, start.events ++ [.readingDocument (config.palettePath name)]⟩) ∨
    ∃ palette, documentIn start.files (config.palettePath name) (Palette.ofYaml name) = .ok palette ∧
      (outcome (buildVariant config ⟨name, false⟩ palette styles theme)
          ⟨start.files, start.events ++ [.readingDocument (config.palettePath name)]⟩ = (.error e, after) ∨
        ∃ path middle, outcome (buildVariant config ⟨name, false⟩ palette styles theme)
            ⟨start.files, start.events ++ [.readingDocument (config.palettePath name)]⟩ = (.ok path, middle) ∧
          outcome (buildVariant config ⟨name, true⟩ palette styles theme) middle = (.error e, after)) := by
  unfold buildPalette
  simp only [outcome_bind_eq_error_iff, outcome_loadPalette, outcome_pure, Prod.mk.injEq, reduceCtorEq, false_and,
    and_false, exists_false, or_false]
  constructor
  · rintro (⟨refused, rfl⟩ | ⟨palette, _, ⟨read, rfl⟩, rest⟩)
    · exact .inl ⟨refused, rfl⟩
    · exact .inr ⟨palette, read, rest⟩
  · rintro (⟨refused, rfl⟩ | ⟨palette, read, rest⟩)
    · exact .inl ⟨refused, rfl⟩
    · exact .inr ⟨palette, _, ⟨read, rfl⟩, rest⟩

/-- The stage of a build at which it failed, with what had been read until then. -/
inductive Stops (config : Config) (start after : RecordedFiles) (e : BuildError) : Prop
  | directory {cause : FileError} (refused : (start.files.ensureDirectory config.output).1 = .error cause)
      (blamed : e = ⟨config.output, .unwritable cause⟩)
      (files : after.files = (start.files.ensureDirectory config.output).2)
  | styles
      (refused : documentIn (start.files.ensureDirectory config.output).2 config.styleMapPath StyleMap.ofYaml =
        .error e)
      (files : after.files = (start.files.ensureDirectory config.output).2)
  | theme
      (refused : documentIn (start.files.ensureDirectory config.output).2 config.themePath Theme.ofYaml = .error e)
      (files : after.files = (start.files.ensureDirectory config.output).2)
  | palettes {styles : StyleMap} {theme : Theme} {loaded : RecordedFiles}
      (files : loaded.files = (start.files.ensureDirectory config.output).2)
      (events : loaded.events =
        start.events ++ [.readingDocument config.styleMapPath, .readingDocument config.themePath])
      (hasStyles : documentIn loaded.files config.styleMapPath StyleMap.ofYaml = .ok styles)
      (hasTheme : documentIn loaded.files config.themePath Theme.ofYaml = .ok theme)
      (ran : outcome (config.palettes.mapM (buildPalette config styles theme)) loaded = (.error e, after))
  | themes {styles : StyleMap} {theme : Theme} {loaded middle : RecordedFiles} {paths : List (List Path)}
      (files : loaded.files = (start.files.ensureDirectory config.output).2)
      (hasStyles : documentIn loaded.files config.styleMapPath StyleMap.ofYaml = .ok styles)
      (hasTheme : documentIn loaded.files config.themePath Theme.ofYaml = .ok theme)
      (built : outcome (config.palettes.mapM (buildPalette config styles theme)) loaded = (.ok paths, middle))
      (derive : config.deriveThemes = true)
      (ran : outcome (deriveThemes config config.variants) middle = (.error e, after))

theorem stops_of_outcome_run (ran : outcome (run config) start = (.error e, after)) : Stops config start after e := by
  unfold run at ran
  rcases outcome_bind_eq_error_iff.mp ran with ensure | ⟨⟨⟩, ensured, ensure, ran⟩
  · rw [outcome_ensureDirectory] at ensure
    obtain ⟨refused, rfl⟩ := Prod.mk.inj ensure
    cases made : (start.files.ensureDirectory config.output).1 with
    | ok => simp [made] at refused
    | error cause =>
      rw [made] at refused
      cases refused
      exact .directory made rfl rfl
  rw [outcome_ensureDirectory] at ensure
  obtain ⟨-, rfl⟩ := Prod.mk.inj ensure
  rcases outcome_bind_eq_error_iff.mp ran with load | ⟨styles, styled, load, ran⟩
  · rw [outcome_loadStyleMap] at load
    obtain ⟨refused, rfl⟩ := Prod.mk.inj load
    exact .styles refused rfl
  rw [outcome_loadStyleMap] at load
  obtain ⟨hasStyles, rfl⟩ := Prod.mk.inj load
  rcases outcome_bind_eq_error_iff.mp ran with load | ⟨theme, loaded, load, ran⟩
  · rw [outcome_loadTheme] at load
    obtain ⟨refused, rfl⟩ := Prod.mk.inj load
    exact .theme refused rfl
  rw [outcome_loadTheme] at load
  obtain ⟨hasTheme, left⟩ := Prod.mk.inj load
  have files : loaded.files = (start.files.ensureDirectory config.output).2 := by rw [← left]
  have events : loaded.events =
      start.events ++ [.readingDocument config.styleMapPath, .readingDocument config.themePath] := by simp [← left]
  have readStyles : documentIn loaded.files config.styleMapPath StyleMap.ofYaml = .ok styles := files ▸ hasStyles
  have readTheme : documentIn loaded.files config.themePath Theme.ofYaml = .ok theme := files ▸ hasTheme
  rcases outcome_bind_eq_error_iff.mp ran with build | ⟨paths, built, build, ran⟩
  · exact .palettes files events readStyles readTheme build
  -- Nothing fails once everything is written, so the theme files are left.
  have finish {themes : List Path} {last : RecordedFiles} : outcome (do
      report (.buildFinished paths.flatten.length themes.length)
      return (⟨paths.flatten, themes⟩ : BuildReport)) last ≠ (.error e, after) := by
    rw [outcome_bind, outcome_report]
    simp [outcome_pure]
  cases derive : config.deriveThemes with
  | false =>
    simp only [derive, Bool.false_eq_true, ↓reduceIte] at ran
    rcases outcome_bind_eq_error_iff.mp ran with derivation | ⟨themes, last, -, done⟩
    · simp [outcome_pure] at derivation
    · exact absurd done finish
  | true =>
    simp only [derive, ↓reduceIte] at ran
    rcases outcome_bind_eq_error_iff.mp ran with derivation | ⟨themes, last, -, done⟩
    · exact .themes files readStyles readTheme build derive derivation
    · exact absurd done finish

end EditorScheme.Build
