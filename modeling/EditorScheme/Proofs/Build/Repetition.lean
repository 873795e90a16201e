import EditorScheme.Proofs.Build.Result
import EditorScheme.Proofs.Files.Repetition

/-!
Building again. What a successful build makes of a tree is also enough for it to succeed, and the tree that it
leaves gives the same schemes and theme files. So a second build succeeds, and changes nothing.
-/
namespace EditorScheme

namespace Config

variable {config : Config} {before after : FileTree} {v : Variant}

theorem fileStem_ne_base (other : v.isBase = false) (start : String) :
    v.fileStem start ≠ Variant.base.fileStem start := by
  intro same
  rcases (Variant.label_eq_label_iff (by decide)).mp same with rfl | ⟨-, base⟩ | ⟨italic, -⟩
  · exact absurd other (by decide)
  · exact Variant.italicPalette_ne_default v.palette (congrArg Variant.palette base).symm
  · exact absurd italic (by decide)

/-- The path of a file that a build does write; the theme file of the base variant is none. -/
inductive Product (config : Config) : Path → Prop
  | scheme (v : Variant) (plain : '/' ∉ v.palette.toList) : config.Product (config.schemePath v)
  | theme (v : Variant) (plain : '/' ∉ v.palette.toList) (derived : v.isBase = false) :
    config.Product (config.themeJsonPath v)

theorem Product.output {path : Path} (product : config.Product path) : config.Output path := by
  cases product with
  | scheme v plain => exact .scheme v plain
  | theme v plain derived => exact .theme v plain

theorem Product.last_ne {path : Path} (product : config.Product path) :
    path.names.getLast? ≠ (config.themeJsonPath Variant.base).names.getLast? := by
  have plainBase : '/' ∉ Variant.base.palette.toList := by decide
  rw [themeJsonPath_eq]
  cases product with
  | scheme v plain => exact outputPath_last_ne extension_xml extension_themeJson (by decide) plain plainBase
  | theme v plain derived =>
    rw [themeJsonPath_eq, Ne, outputPath_last_inj extension_themeJson plain plainBase]
    exact fileStem_ne_base derived config.fileName

theorem product_of_derived {variants : List Variant} (plain : ∀ v ∈ variants, '/' ∉ v.palette.toList)
    (member : v ∈ variants.filter fun v => !v.isBase) : config.Product (config.themeJsonPath v) := by
  obtain ⟨listed, derived⟩ := List.mem_filter.mp member
  exact .theme v (plain v listed) (by simpa using derived)

theorem find_baseTheme_iff_of_writeAll {location : Location} {entry : FileTree.Entry} {writes : List (Path × String)}
    (written : before.writeAll writes = .ok after) (products : ∀ x ∈ writes, config.Product x.1) :
    after.find (config.themeJsonPath Variant.base) = .ok (location, entry) ↔
      before.find (config.themeJsonPath Variant.base) = .ok (location, entry) := by
  obtain ⟨name, named⟩ := exists_named_outputPath config extension_themeJson (v := Variant.base) (by decide)
  have apart : ∀ x ∈ writes, x.1.names.getLast? ≠ some name := by
    intro x member
    rw [← named.last, ← themeJsonPath_eq]
    exact (products x member).last_ne
  exact FileTree.find_iff_of_writeAll written named apart

theorem baseThemeIn_iff_of_writeAll {object : Json.Object} {writes : List (Path × String)}
    (written : before.writeAll writes = .ok after) (products : ∀ x ∈ writes, config.Product x.1) :
    config.baseThemeIn after = .ok object ↔ config.baseThemeIn before = .ok object := by
  simp only [baseThemeIn_eq_ok_iff, FileTree.readText_eq_ok_iff, find_baseTheme_iff_of_writeAll written products]

end Config

namespace Build

variable {config : Config} {before middle after : FileTree} {styles : StyleMap} {theme : Theme}
  {schemes themes : List (Path × String)}

/-- The step answers and leaves the files of `after`, whatever was reported before it. -/
def Leaves {α : Type} (step : Step Recorded α) (before : FileTree) (answer : α) (after : FileTree) : Prop :=
  ∀ events, ∃ events', outcome step ⟨before, events⟩ = (.ok answer, ⟨after, events'⟩)

namespace Leaves

variable {α β : Type} {step : Step Recorded α} {next : α → Step Recorded β} {a : α} {b : β}

theorem pure (a : α) (before : FileTree) : Leaves (pure a) before a before := fun events => ⟨events, rfl⟩

theorem bind (first : Leaves step before a middle) (second : Leaves (next a) middle b after) :
    Leaves (step >>= next) before b after := by
  intro events
  obtain ⟨between, ran⟩ := first events
  obtain ⟨last, rest⟩ := second between
  exact ⟨last, outcome_bind_eq_ok_iff.mpr ⟨a, _, ran, rest⟩⟩

theorem mapM_cons {each : α → Step Recorded β} {list : List α} {rest : List β}
    (first : Leaves (each a) before b middle) (others : Leaves (list.mapM each) middle rest after) :
    Leaves ((a :: list).mapM each) before (b :: rest) after := by
  intro events
  obtain ⟨between, ran⟩ := first events
  obtain ⟨last, tail⟩ := others between
  exact ⟨last, outcome_mapM_cons_eq_ok_iff.mpr ⟨b, _, rest, ran, tail, rfl⟩⟩

end Leaves

theorem leaves_report (event : Event) (before : FileTree) : Leaves (report event) before () before :=
  fun events => ⟨_, outcome_report event ⟨before, events⟩⟩

theorem leaves_writeFile {path : Path} {text : String} (written : before.writeText path text = .ok after) :
    Leaves (writeFile path text) before () after :=
  fun _ => ⟨_, outcome_writeFile_eq_ok_iff.mpr ⟨written, rfl⟩⟩

theorem leaves_reading {α : Type} {step : Step Recorded α} {event : Event} {a : α}
    (answer : FileTree → Except BuildError α) (read : answer before = .ok a)
    (ran : ∀ start, outcome step start = (answer start.files, { start with events := start.events ++ [event] })) :
    Leaves step before a before := by
  intro events
  refine ⟨events ++ [event], ?_⟩
  rw [ran, read]

theorem leaves_buildVariant {palette : Palette} {v : Variant} {scheme : Scheme}
    (made : theme.assemble palette styles v.italic (v.displayName config.displayName) = .ok scheme)
    (written : before.writeText (config.schemePath v) scheme.toXml = .ok after) :
    Leaves (buildVariant config v palette styles theme) before (config.schemePath v) after :=
  fun _ => ⟨_, outcome_buildVariant_eq_ok_iff.mpr ⟨rfl, scheme, made, written, rfl⟩⟩

theorem leaves_buildPalette {name : String} {files : List (Path × String)}
    (hasStyles : documentIn before config.styleMapPath StyleMap.ofYaml = .ok styles)
    (hasTheme : documentIn before config.themePath Theme.ofYaml = .ok theme)
    (made : List.mapM (config.schemeFile before) [⟨name, false⟩, ⟨name, true⟩] = .ok files)
    (written : before.writeAll files = .ok after) :
    Leaves (buildPalette config styles theme name) before
      [config.schemePath ⟨name, false⟩, config.schemePath ⟨name, true⟩] after := by
  obtain ⟨_, _, madePlain, others, rfl⟩ := mapM_cons_eq_ok_iff.mp made
  obtain ⟨_, _, madeItalic, done, rfl⟩ := mapM_cons_eq_ok_iff.mp others
  cases done
  obtain ⟨plain, inPlain, rfl⟩ := Config.schemeFile_eq_ok_iff.mp madePlain
  obtain ⟨italic, inItalic, rfl⟩ := Config.schemeFile_eq_ok_iff.mp madeItalic
  obtain ⟨_, _, palette, styles', theme', read, assembledPlain⟩ := Config.schemeIn_eq_ok_iff.mp inPlain
  obtain ⟨_, _, palette', styles'', theme'', read', assembledItalic⟩ := Config.schemeIn_eq_ok_iff.mp inItalic
  -- Both variants were assembled from the same three documents.
  cases hasStyles.symm.trans styles'
  cases hasStyles.symm.trans styles''
  cases hasTheme.symm.trans theme'
  cases hasTheme.symm.trans theme''
  cases read.symm.trans read'
  obtain ⟨middle, writtenPlain, rest⟩ := FileTree.writeAll_cons_eq_ok_iff.mp written
  obtain ⟨_, writtenItalic, rest⟩ := FileTree.writeAll_cons_eq_ok_iff.mp rest
  cases rest
  unfold buildPalette
  apply (leaves_reading (documentIn · _ _) read (outcome_loadPalette config name)).bind
  apply (leaves_buildVariant assembledPlain writtenPlain).bind
  apply (leaves_buildVariant assembledItalic writtenItalic).bind
  exact .pure _ _

theorem leaves_buildPalettes {names : List String} {files : List (Path × String)}
    (plain : ∀ name ∈ names, '/' ∉ name.toList)
    (hasStyles : documentIn before config.styleMapPath StyleMap.ofYaml = .ok styles)
    (hasTheme : documentIn before config.themePath Theme.ofYaml = .ok theme)
    (made : (Variant.matrix names).mapM (config.schemeFile before) = .ok files)
    (written : before.writeAll files = .ok after) : ∃ paths,
      Leaves (names.mapM (buildPalette config styles theme)) before paths after ∧
      paths.flatten = (Variant.matrix names).map config.schemePath := by
  induction names generalizing before files with
  | nil =>
    cases made
    cases written
    exact ⟨[], .pure [] _, rfl⟩
  | cons name names ih =>
    have split : Variant.matrix (name :: names) = [⟨name, false⟩, ⟨name, true⟩] ++ Variant.matrix names := rfl
    rw [split] at made
    obtain ⟨first, later, madeFirst, madeLater, rfl⟩ := mapM_append_eq_ok_iff.mp made
    obtain ⟨middle, writtenFirst, writtenLater⟩ := FileTree.writeAll_append_eq_ok_iff.mp written
    have outputs : ∀ file ∈ first, config.Output file.1 :=
      Config.outputs_of_schemeFiles (by simp [plain name (by simp)]) madeFirst
    -- The first two schemes leave the sources of the others alone.
    have madeNext : (Variant.matrix names).mapM (config.schemeFile middle) = .ok later := by
      refine mapM_eq_ok_of_imp madeLater fun v member file one => ?_
      have inside : v.palette ∈ names := Variant.mem_matrix.mp member
      exact (Config.schemeFile_iff_of_writeAll (plain _ (by simp [inside])) writtenFirst outputs).mpr one
    obtain ⟨paths, others, flat⟩ := ih (fun other member => plain other (by simp [member]))
      ((Config.documentIn_iff_of_writeAll .styles writtenFirst outputs).mpr hasStyles)
      ((Config.documentIn_iff_of_writeAll .theme writtenFirst outputs).mpr hasTheme) madeNext writtenLater
    refine ⟨_, (leaves_buildPalette hasStyles hasTheme madeFirst writtenFirst).mapM_cons others, ?_⟩
    rw [split, List.flatten_cons, flat, List.map_append, List.map_cons, List.map_cons, List.map_nil]

theorem leaves_writeThemeJson {base : Json.Object} {variants : List Variant}
    (written : before.writeAll (variants.map (config.themeFile base)) = .ok after) :
    Leaves (variants.mapM (writeThemeJson config base)) before (variants.map config.themeJsonPath) after := by
  induction variants generalizing before with
  | nil =>
    cases written
    exact .pure [] _
  | cons v variants ih =>
    rw [List.map_cons] at written
    obtain ⟨middle, first, rest⟩ := FileTree.writeAll_cons_eq_ok_iff.mp written
    have one : Leaves (writeThemeJson config base v) before (config.themeJsonPath v) middle :=
      (leaves_writeFile first).bind (.pure _ _)
    exact one.mapM_cons (ih rest)

/-- A build reads the styles and the theme once the output directory is there, even without any palette. -/
theorem documents_of_outcome_run {start last : RecordedFiles} {report : BuildReport}
    (ran : outcome (run config) start = (.ok report, last)) : ∃ styles theme,
      documentIn (start.files.ensureDirectory config.output).2 config.styleMapPath StyleMap.ofYaml = .ok styles ∧
      documentIn (start.files.ensureDirectory config.output).2 config.themePath Theme.ofYaml = .ok theme := by
  unfold run at ran
  obtain ⟨⟨⟩, ensured, ensure, ran⟩ := outcome_bind_eq_ok_iff.mp ran
  rw [outcome_ensureDirectory] at ensure
  obtain ⟨-, rfl⟩ := Prod.mk.inj ensure
  obtain ⟨styles, styled, loadStyles, ran⟩ := outcome_bind_eq_ok_iff.mp ran
  rw [outcome_loadStyleMap] at loadStyles
  obtain ⟨hasStyles, rfl⟩ := Prod.mk.inj loadStyles
  obtain ⟨theme, themed, loadTheme, -⟩ := outcome_bind_eq_ok_iff.mp ran
  rw [outcome_loadTheme] at loadTheme
  exact ⟨styles, theme, hasStyles, (Prod.mk.inj loadTheme).1⟩

theorem leaves_ensureDirectory {path : Path} (made : (before.ensureDirectory path).1 = .ok ()) :
    Leaves (ensureDirectory path) before () (before.ensureDirectory path).2 := by
  intro events
  refine ⟨events, ?_⟩
  rw [outcome_ensureDirectory, made]
  rfl

theorem leaves_deriveThemes {base : Json.Object} {variants : List Variant}
    (read : config.baseThemeIn before = .ok base)
    (written : before.writeAll ((variants.filter fun v => !v.isBase).map (config.themeFile base)) = .ok after) :
    Leaves (deriveThemes config variants) before
      ((variants.filter fun v => !v.isBase).map config.themeJsonPath) after := by
  unfold deriveThemes
  exact (leaves_reading config.baseThemeIn read (outcome_loadThemeJson config)).bind (leaves_writeThemeJson written)

namespace Makes

theorem products (plain : ∀ palette ∈ config.palettes, '/' ∉ palette.toList)
    (makes : Makes config before after schemes themes) : ∀ file ∈ schemes ++ themes, config.Product file.1 := by
  intro file member
  rcases List.mem_append.mp member with scheme | theme
  · obtain ⟨w, inside, path⟩ := Config.exists_of_mem_schemeFiles makes.assembled scheme
    exact path ▸ .scheme w (plain _ (Variant.mem_matrix.mp inside))
  · rcases makes.derived with ⟨-, rfl⟩ | ⟨-, base, -, rfl⟩
    · cases theme
    · obtain ⟨w, inside, rfl⟩ := List.mem_map.mp theme
      exact Config.product_of_derived (fun v listed => plain _ (Variant.mem_matrix.mp listed)) inside

theorem documentIn_iff {α : Type} {path : Path} {parse : String → Except SchemaError α} {a : α}
    (plain : ∀ palette ∈ config.palettes, '/' ∉ palette.toList) (makes : Makes config before after schemes themes)
    (source : config.Source path) :
    documentIn after path parse = .ok a ↔ documentIn (before.ensureDirectory config.output).2 path parse = .ok a :=
  Config.documentIn_iff_of_writeAll source makes.written fun file member =>
    (makes.products plain file member).output

theorem ensureDirectory_again (makes : Makes config before after schemes themes) :
    after.ensureDirectory config.output = (.ok (), after) :=
  FileTree.ensureDirectory_again makes.directory (FileTree.rewrites_writeAll makes.written).grows

/-- What a build left gives the same build. -/
theorem again (plain : ∀ palette ∈ config.palettes, '/' ∉ palette.toList)
    (makes : Makes config before after schemes themes) : Makes config after after schemes themes := by
  have plainVariant : ∀ v ∈ config.variants, '/' ∉ v.palette.toList :=
    fun v member => plain _ (Variant.mem_matrix.mp member)
  have standing := makes.ensureDirectory_again
  refine ⟨by rw [standing], ?_, ?_, ?_⟩
  · rw [standing]
    refine mapM_eq_ok_of_imp makes.assembled fun v member file made => ?_
    refine (Config.schemeFile_iff_of_writeAll (plainVariant v member) makes.written ?_).mpr made
    exact fun file member => (makes.products plain file member).output
  · refine makes.derived.imp_right fun ⟨derive, base, read, same⟩ => ⟨derive, base, ?_, same⟩
    rw [standing]
    exact (Config.baseThemeIn_iff_of_writeAll makes.written (makes.products plain)).mpr read
  · rw [standing]
    exact FileTree.writeAll_again makes.written

end Makes

theorem leaves_run (plain : ∀ palette ∈ config.palettes, '/' ∉ palette.toList)
    (makes : Makes config before after schemes themes)
    (hasStyles : documentIn (before.ensureDirectory config.output).2 config.styleMapPath StyleMap.ofYaml = .ok styles)
    (hasTheme : documentIn (before.ensureDirectory config.output).2 config.themePath Theme.ofYaml = .ok theme) :
    Leaves (run config) before ⟨config.variants.map config.schemePath, themes.map (·.1)⟩ after := by
  obtain ⟨middle, writtenSchemes, writtenThemes⟩ := FileTree.writeAll_append_eq_ok_iff.mp makes.written
  obtain ⟨paths, palettes, flat⟩ :=
    leaves_buildPalettes plain hasStyles hasTheme makes.assembled writtenSchemes
  unfold run
  apply (leaves_ensureDirectory makes.directory).bind
  apply (leaves_reading (documentIn · _ _) hasStyles (outcome_loadStyleMap config)).bind
  apply (leaves_reading (documentIn · _ _) hasTheme (outcome_loadTheme config)).bind
  apply palettes.bind
  have finish (themePaths : List Path) (same : themePaths = themes.map (·.1)) :
      Leaves (do report (.buildFinished paths.flatten.length themePaths.length)
                 return (⟨paths.flatten, themePaths⟩ : BuildReport)) after
        ⟨config.variants.map config.schemePath, themes.map (·.1)⟩ after := by
    rw [flat, same]
    exact (leaves_report _ _).bind (.pure _ _)
  rcases makes.derived with ⟨skip, rfl⟩ | ⟨derive, base, read, rfl⟩
  · cases writtenThemes
    rw [if_neg (by simp [skip])]
    exact (Leaves.pure [] _).bind (finish [] rfl)
  · rw [if_pos derive]
    have readLater : config.baseThemeIn middle = .ok base := by
      refine (Config.baseThemeIn_iff_of_writeAll writtenSchemes fun file member => ?_).mpr read
      exact makes.products plain file (by simp [member])
    exact (leaves_deriveThemes readLater writtenThemes).bind (finish _ (by simp [Config.themeFile]))

/-- A build that succeeded succeeds again on the tree that it left, with the same report, and leaves that very
tree, however the directories lie and whichever outputs meet. -/
theorem run_again {start last : RecordedFiles} {report : BuildReport}
    (plain : ∀ palette ∈ config.palettes, '/' ∉ palette.toList)
    (ran : outcome (run config) start = (.ok report, last)) :
    ∀ again : RecordedFiles, again.files = last.files →
      ∃ events, outcome (run config) again = (.ok report, ⟨last.files, events⟩) := by
  obtain ⟨schemes, themes, makes, rfl⟩ := makes_of_outcome_run plain ran
  obtain ⟨styles, theme, hasStyles, hasTheme⟩ := documents_of_outcome_run ran
  have standing := makes.ensureDirectory_again
  have styled : documentIn (last.files.ensureDirectory config.output).2 config.styleMapPath StyleMap.ofYaml =
      .ok styles := by
    rw [standing]
    exact (makes.documentIn_iff plain .styles).mpr hasStyles
  have themed : documentIn (last.files.ensureDirectory config.output).2 config.themePath Theme.ofYaml =
      .ok theme := by
    rw [standing]
    exact (makes.documentIn_iff plain .theme).mpr hasTheme
  rintro ⟨_, events⟩ rfl
  exact leaves_run plain (makes.again plain) styled themed events

/-- Two of the four outputs meet here, and lie beside an output directory that the first build has to make. -/
theorem run_again_italicConfig : (∀ palette ∈ italicConfig.palettes, '/' ∉ palette.toList) ∧
    ∃ last, outcome (run italicConfig) ⟨sampleTree, []⟩ = (.ok italicReport, last) ∧
      ∃ events, outcome (run italicConfig) ⟨last.files, []⟩ = (.ok italicReport, ⟨last.files, events⟩) := by
  have plain : ∀ palette ∈ italicConfig.palettes, '/' ∉ palette.toList := by decide
  obtain ⟨last, ran⟩ : ∃ last, outcome (run italicConfig) ⟨sampleTree, []⟩ = (.ok italicReport, last) :=
    ⟨_, outcome_italicConfig⟩
  exact ⟨plain, last, ran, run_again plain ran ⟨last.files, []⟩ rfl⟩

end Build

end EditorScheme
