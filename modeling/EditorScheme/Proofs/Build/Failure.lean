import EditorScheme.Proofs.Build.Faults
import EditorScheme.Proofs.Build.Repetition

/-!
What a failed build leaves. The files of a build have an order, all schemes before the first theme file, and a
failure leaves a first part of them whole and the rest untouched. The failure names the document that kept the
next file from being written.
-/
namespace EditorScheme

inductive Artifact
  | scheme (v : Variant)
  | theme (v : Variant)
deriving DecidableEq, Repr

namespace Artifact

def variant : Artifact → Variant
  | scheme v | theme v => v

def path (config : Config) : Artifact → Path
  | scheme v => config.schemePath v
  | theme v => config.themeJsonPath v

/-- The file with the text that the sources in a tree give it. -/
def file (config : Config) (tree : FileTree) : Artifact → Except BuildError (Path × String)
  | scheme v => config.schemeFile tree v
  | theme v => (config.baseThemeIn tree).map fun base => config.themeFile base v

variable {config : Config} {tree : FileTree} {a b : Artifact} {files : List (Path × String)}

theorem path_of_file {file : Path × String} (made : a.file config tree = .ok file) : file.1 = a.path config := by
  cases a with
  | scheme v =>
    obtain ⟨scheme, -, rfl⟩ := Config.schemeFile_eq_ok_iff.mp made
    rfl
  | theme v =>
    obtain ⟨base, -, rfl⟩ := map_eq_ok_iff.mp made
    rfl

theorem paths_of_files {artifacts : List Artifact} (made : artifacts.mapM (Artifact.file config tree) = .ok files) :
    files.map (·.1) = artifacts.map (Artifact.path config) :=
  map_eq_of_mapM_eq_ok made fun _ _ => path_of_file

theorem last_ne (plainA : '/' ∉ a.variant.palette.toList) (plainB : '/' ∉ b.variant.palette.toList)
    (different : a.path config ≠ b.path config) :
    (a.path config).names.getLast? ≠ (b.path config).names.getLast? := by
  cases a with
  | scheme v =>
    cases b with
    | scheme w => exact mt (Config.outputPath_eq_of_last Config.extension_xml plainA plainB) different
    | theme w =>
      exact Config.outputPath_last_ne Config.extension_xml Config.extension_themeJson (by decide) plainA plainB
  | theme v =>
    cases b with
    | scheme w =>
      exact Config.outputPath_last_ne Config.extension_themeJson Config.extension_xml (by decide) plainA plainB
    | theme w => exact mt (Config.outputPath_eq_of_last Config.extension_themeJson plainA plainB) different

end Artifact

def Config.artifacts (config : Config) : List Artifact :=
  config.variants.map .scheme ++
    if config.deriveThemes then (config.variants.filter fun v => !v.isBase).map .theme else []

theorem Config.plain_of_mem_artifacts {config : Config} (plain : ∀ palette ∈ config.palettes, '/' ∉ palette.toList)
    {a : Artifact} (member : a ∈ config.artifacts) : '/' ∉ a.variant.palette.toList := by
  have listed : a.variant ∈ config.variants := by
    rcases List.mem_append.mp member with scheme | theme
    · obtain ⟨v, inside, rfl⟩ := List.mem_map.mp scheme
      exact inside
    · split at theme
      · obtain ⟨v, inside, rfl⟩ := List.mem_map.mp theme
        exact (List.mem_filter.mp inside).1
      · cases theme
  exact plain _ (Variant.mem_matrix.mp listed)

namespace Build

variable {config : Config} {start middle after : RecordedFiles} {e : BuildError} {styles : StyleMap}
  {theme : Theme} {palette : Palette} {v : Variant} {variants others : List Variant}

/-- Why the scheme of a variant could not be written, on the tree in which that was tried. -/
inductive SchemeFault (config : Config) (tree : FileTree) (v : Variant) : BuildError → Prop
  | palette {fault : BuildFault} (plain : v.italic = false)
      (refused : documentIn tree (config.palettePath v.palette) (Palette.ofYaml v.palette) =
        .error ⟨config.palettePath v.palette, fault⟩) : SchemeFault config tree v ⟨config.palettePath v.palette, fault⟩
  | scheme {cause : SchemaError} (refused : config.schemeIn tree v = .error ⟨config.schemePath v, .schema cause⟩) :
      SchemeFault config tree v ⟨config.schemePath v, .schema cause⟩
  | file {text : String} {cause : FileError} (made : config.schemeFile tree v = .ok (config.schemePath v, text))
      (refused : tree.writeText (config.schemePath v) text = .error cause) :
      SchemeFault config tree v ⟨config.schemePath v, .unwritable cause⟩

theorem fault_of_outcome_buildVariant
    (ran : outcome (buildVariant config v palette styles theme) start = (.error e, after))
    (hasStyles : documentIn start.files config.styleMapPath StyleMap.ofYaml = .ok styles)
    (hasTheme : documentIn start.files config.themePath Theme.ofYaml = .ok theme)
    (hasPalette : documentIn start.files (config.palettePath v.palette) (Palette.ofYaml v.palette) = .ok palette) :
    after.files = start.files ∧ SchemeFault config start.files v e := by
  rcases outcome_buildVariant_eq_error_iff.mp ran with
    ⟨cause, failed, rfl, rfl⟩ | ⟨scheme, cause, made, refused, rfl, rfl⟩
  · refine ⟨rfl, .scheme ?_⟩
    simp only [Config.schemeIn, hasStyles, hasTheme, hasPalette, bind, Except.bind, failed, mapError_error]
  · refine ⟨rfl, .file (Config.schemeFile_eq_ok_iff.mpr ⟨scheme, ?_, rfl⟩) refused⟩
    exact Config.schemeIn_eq_ok_iff.mpr ⟨styles, theme, palette, hasStyles, hasTheme, hasPalette, made⟩

/-- The first variants of a list have their schemes, and the next one is at fault. -/
structure SchemesUntil (config : Config) (variants : List Variant) (before after : FileTree) (e : BuildError)
    (count : Nat) (files : List (Path × String)) : Prop where
  made : (variants.take count).mapM (config.schemeFile before) = .ok files
  written : before.writeAll files = .ok after
  fault : ∃ v, variants[count]? = some v ∧ SchemeFault config after v e

namespace SchemesUntil

variable {before between last : FileTree} {count : Nat} {files first : List (Path × String)}

theorem lt (until_ : SchemesUntil config variants before last e count files) : count < variants.length := by
  obtain ⟨v, next, -⟩ := until_.fault
  exact (List.getElem?_eq_some_iff.mp next).1

/-- A failure does not look at what would follow it. -/
theorem append (until_ : SchemesUntil config variants before last e count files) (others : List Variant) :
    SchemesUntil config (variants ++ others) before last e count files := by
  obtain ⟨v, next, fault⟩ := until_.fault
  refine ⟨?_, until_.written, v, ?_, fault⟩
  · rw [List.take_append_of_le_length (Nat.le_of_lt until_.lt)]
    exact until_.made
  · rw [List.getElem?_append_left until_.lt]
    exact next

theorem behind (until_ : SchemesUntil config others between last e count files)
    (plain : ∀ v ∈ variants ++ others, '/' ∉ v.palette.toList)
    (made : variants.mapM (config.schemeFile before) = .ok first) (written : before.writeAll first = .ok between) :
    SchemesUntil config (variants ++ others) before last e (variants.length + count) (first ++ files) := by
  have outputs : ∀ file ∈ first, config.Output file.1 :=
    Config.outputs_of_schemeFiles (fun v member => plain v (by simp [member])) made
  obtain ⟨v, next, fault⟩ := until_.fault
  refine ⟨?_, FileTree.writeAll_append_eq_ok_iff.mpr ⟨between, written, until_.written⟩, v, ?_, fault⟩
  · rw [List.take_length_add_append]
    refine mapM_append_eq_ok_iff.mpr ⟨first, files, made, ?_, rfl⟩
    -- The later schemes were made from the tree with the first ones in it, and are the same without them.
    refine mapM_eq_ok_of_imp until_.made fun w member file one => ?_
    have inside : w ∈ others := List.mem_of_mem_take member
    exact (Config.schemeFile_iff_of_writeAll (plain w (by simp [inside])) written outputs).mp one
  · rw [List.getElem?_append_right (Nat.le_add_right ..), Nat.add_sub_cancel_left]
    exact next

end SchemesUntil

theorem until_of_outcome_buildPalette {name : String} (plain : '/' ∉ name.toList)
    (hasStyles : documentIn start.files config.styleMapPath StyleMap.ofYaml = .ok styles)
    (hasTheme : documentIn start.files config.themePath Theme.ofYaml = .ok theme)
    (ran : outcome (buildPalette config styles theme name) start = (.error e, after)) : ∃ count files,
      SchemesUntil config [⟨name, false⟩, ⟨name, true⟩] start.files after.files e count files := by
  rcases outcome_buildPalette_eq_error_iff.mp ran with
    ⟨refused, rfl⟩ | ⟨palette, hasPalette, first | ⟨path, middle, first, second⟩⟩
  · obtain ⟨fault, rfl⟩ := exists_fault_of_documentIn refused
    exact ⟨0, [], rfl, rfl, ⟨name, false⟩, rfl, .palette rfl refused⟩
  · obtain ⟨same, fault⟩ := fault_of_outcome_buildVariant first hasStyles hasTheme hasPalette
    rw [same]
    exact ⟨0, [], rfl, rfl, ⟨name, false⟩, rfl, fault⟩
  · obtain ⟨rfl, scheme, assembled, write, -⟩ := outcome_buildVariant_eq_ok_iff.mp first
    have made : List.mapM (config.schemeFile start.files) [⟨name, false⟩] =
        .ok [(config.schemePath ⟨name, false⟩, scheme.toXml)] := by
      refine mapM_cons_eq_ok_iff.mpr ⟨_, [], Config.schemeFile_eq_ok_iff.mpr ⟨scheme, ?_, rfl⟩, rfl, rfl⟩
      exact Config.schemeIn_eq_ok_iff.mpr ⟨styles, theme, palette, hasStyles, hasTheme, hasPalette, assembled⟩
    have written : start.files.writeAll [(config.schemePath ⟨name, false⟩, scheme.toXml)] = .ok middle.files :=
      FileTree.writeAll_cons_eq_ok_iff.mpr ⟨_, write, rfl⟩
    have outputs : ∀ file ∈ [(config.schemePath ⟨name, false⟩, scheme.toXml)], config.Output file.1 := by
      simpa using Config.Output.scheme ⟨name, false⟩ plain
    -- The plain scheme leaves the sources of the italic one alone.
    obtain ⟨same, fault⟩ := fault_of_outcome_buildVariant second
      ((Config.documentIn_iff_of_writeAll .styles written outputs).mpr hasStyles)
      ((Config.documentIn_iff_of_writeAll .theme written outputs).mpr hasTheme)
      ((Config.documentIn_iff_of_writeAll (.palette name plain) written outputs).mpr hasPalette)
    rw [same]
    exact ⟨1, _, made, written, ⟨name, true⟩, rfl, fault⟩

theorem until_of_outcome_buildPalettes {names : List String} (plain : ∀ name ∈ names, '/' ∉ name.toList)
    (hasStyles : documentIn start.files config.styleMapPath StyleMap.ofYaml = .ok styles)
    (hasTheme : documentIn start.files config.themePath Theme.ofYaml = .ok theme)
    (ran : outcome (names.mapM (buildPalette config styles theme)) start = (.error e, after)) : ∃ count files,
      SchemesUntil config (Variant.matrix names) start.files after.files e count files := by
  induction names generalizing start with
  | nil => simp [outcome_pure] at ran
  | cons name names ih =>
    have split : Variant.matrix (name :: names) = [⟨name, false⟩, ⟨name, true⟩] ++ Variant.matrix names := rfl
    rw [split]
    rcases outcome_mapM_cons_eq_error_iff.mp ran with head | ⟨paths, middle, head, tail⟩
    · obtain ⟨count, files, until_⟩ := until_of_outcome_buildPalette (plain name (by simp)) hasStyles hasTheme head
      exact ⟨count, files, until_.append _⟩
    · obtain ⟨-, first, made, written⟩ := files_of_outcome_buildPalette hasStyles hasTheme head
      have plainFirst : ∀ v ∈ [(⟨name, false⟩ : Variant), ⟨name, true⟩], '/' ∉ v.palette.toList := by
        simp [plain name (by simp)]
      have outputs := Config.outputs_of_schemeFiles plainFirst made
      obtain ⟨count, files, until_⟩ := ih (fun other member => plain other (by simp [member]))
        ((Config.documentIn_iff_of_writeAll .styles written outputs).mpr hasStyles)
        ((Config.documentIn_iff_of_writeAll .theme written outputs).mpr hasTheme) tail
      refine ⟨_, _, until_.behind (fun v member => ?_) made written⟩
      rcases List.mem_append.mp member with inFirst | inOthers
      · exact plainFirst v inFirst
      · exact plain _ (by simp [Variant.mem_matrix.mp inOthers])

theorem until_of_outcome_writeThemeJson {base : Json.Object}
    (ran : outcome (variants.mapM (writeThemeJson config base)) start = (.error e, after)) : ∃ count v cause,
      variants[count]? = some v ∧
      start.files.writeAll ((variants.take count).map (config.themeFile base)) = .ok after.files ∧
      after.files.writeText (config.themeJsonPath v) (themeJson config base v) = .error cause ∧
      e = ⟨config.themeJsonPath v, .unwritable cause⟩ := by
  induction variants generalizing start with
  | nil => simp [outcome_pure] at ran
  | cons v variants ih =>
    rcases outcome_mapM_cons_eq_error_iff.mp ran with head | ⟨path, middle, head, tail⟩
    · rcases outcome_bind_eq_error_iff.mp head with write | ⟨⟨⟩, last, -, done⟩
      · obtain ⟨cause, refused, rfl, rfl⟩ := outcome_writeFile_eq_error_iff.mp write
        exact ⟨0, v, cause, rfl, rfl, refused, rfl⟩
      · simp [outcome_pure] at done
    · obtain ⟨⟨⟩, last, write, done⟩ := outcome_bind_eq_ok_iff.mp head
      obtain ⟨written, -⟩ := outcome_writeFile_eq_ok_iff.mp write
      cases done
      obtain ⟨count, w, cause, next, writtenRest, refused, rfl⟩ := ih tail
      exact ⟨count + 1, w, cause, next, FileTree.writeAll_cons_eq_ok_iff.mpr ⟨_, written, writtenRest⟩, refused, rfl⟩

/-- A first part of the files of a build is written, with the texts that the sources give once the output directory
is there. -/
structure Progress (config : Config) (before after : FileTree) (count : Nat) (files : List (Path × String)) : Prop where
  made : (config.artifacts.take count).mapM (Artifact.file config (before.ensureDirectory config.output).2) = .ok files
  written : (before.ensureDirectory config.output).2.writeAll files = .ok after

/-- What kept the file after the first `count` ones from being written, and the document that is blamed for it. -/
inductive Fault (config : Config) (before after : FileTree) : Nat → BuildError → Prop
  | directory {cause : FileError} (refused : (before.ensureDirectory config.output).1 = .error cause) :
      Fault config before after 0 ⟨config.output, .unwritable cause⟩
  | styles {fault : BuildFault}
      (refused : documentIn after config.styleMapPath StyleMap.ofYaml = .error ⟨config.styleMapPath, fault⟩) :
      Fault config before after 0 ⟨config.styleMapPath, fault⟩
  | theme {fault : BuildFault}
      (refused : documentIn after config.themePath Theme.ofYaml = .error ⟨config.themePath, fault⟩) :
      Fault config before after 0 ⟨config.themePath, fault⟩
  | scheme {count : Nat} {v : Variant} {e : BuildError} (next : config.variants[count]? = some v)
      (fault : SchemeFault config after v e) : Fault config before after count e
  | baseTheme {fault : BuildFault} (derive : config.deriveThemes = true)
      (refused : config.baseThemeIn after = .error ⟨config.themeJsonPath Variant.base, fault⟩) :
      Fault config before after config.variants.length ⟨config.themeJsonPath Variant.base, fault⟩
  | themeFile {count : Nat} {v : Variant} {base : Json.Object} {cause : FileError} (derive : config.deriveThemes = true)
      (next : (config.variants.filter fun v => !v.isBase)[count]? = some v) (read : config.baseThemeIn after = .ok base)
      (refused : after.writeText (config.themeJsonPath v) (themeJson config base v) = .error cause) :
      Fault config before after (config.variants.length + count) ⟨config.themeJsonPath v, .unwritable cause⟩

theorem progress_zero (config : Config) (before : FileTree) :
    Progress config before (before.ensureDirectory config.output).2 0 [] := ⟨rfl, rfl⟩

theorem progress_of_schemes {before last : FileTree} {count : Nat} {files : List (Path × String)}
    (inside : count ≤ config.variants.length)
    (made : (config.variants.take count).mapM (config.schemeFile (before.ensureDirectory config.output).2) = .ok files)
    (written : (before.ensureDirectory config.output).2.writeAll files = .ok last) :
    Progress config before last count files := by
  refine ⟨?_, written⟩
  rw [Config.artifacts, List.take_append_of_le_length (by simpa using inside), ← List.map_take, List.mapM_map]
  exact made

theorem progress_of_themes {before between last : FileTree} {count : Nat} {schemes : List (Path × String)}
    {base : Json.Object} (derive : config.deriveThemes = true)
    (made : config.variants.mapM (config.schemeFile (before.ensureDirectory config.output).2) = .ok schemes)
    (written : (before.ensureDirectory config.output).2.writeAll schemes = .ok between)
    (read : config.baseThemeIn (before.ensureDirectory config.output).2 = .ok base)
    (writtenThemes : between.writeAll
      (((config.variants.filter fun v => !v.isBase).take count).map (config.themeFile base)) = .ok last) :
    Progress config before last (config.variants.length + count)
      (schemes ++ ((config.variants.filter fun v => !v.isBase).take count).map (config.themeFile base)) := by
  refine ⟨?_, FileTree.writeAll_append_eq_ok_iff.mpr ⟨between, written, writtenThemes⟩⟩
  have length : config.variants.length = (config.variants.map Artifact.scheme).length := by simp
  rw [Config.artifacts, if_pos derive, length, List.take_length_add_append, ← List.map_take]
  refine mapM_append_eq_ok_iff.mpr ⟨schemes, _, ?_, ?_, rfl⟩
  · rw [List.mapM_map]
    exact made
  · rw [List.mapM_map]
    refine mapM_eq_ok_map fun v _ => ?_
    rw [Function.comp_apply, Artifact.file, read]
    rfl

theorem exists_progress_of_deriveThemes {before : FileTree} {schemes : List (Path × String)}
    (plain : ∀ palette ∈ config.palettes, '/' ∉ palette.toList) (derive : config.deriveThemes = true)
    (made : config.variants.mapM (config.schemeFile (before.ensureDirectory config.output).2) = .ok schemes)
    (written : (before.ensureDirectory config.output).2.writeAll schemes = .ok start.files)
    (ran : outcome (deriveThemes config config.variants) start = (.error e, after)) : ∃ count files,
      Progress config before after.files count files ∧ Fault config before after.files count e := by
  rcases outcome_bind_eq_error_iff.mp ran with load | ⟨base, loaded, load, ran⟩
  · rw [outcome_loadThemeJson] at load
    obtain ⟨refused, rfl⟩ := Prod.mk.inj load
    obtain ⟨fault, rfl⟩ := exists_fault_of_baseThemeIn refused
    refine ⟨config.variants.length, schemes, progress_of_schemes (Nat.le_refl _) ?_ written, .baseTheme derive refused⟩
    rw [List.take_length]
    exact made
  · rw [outcome_loadThemeJson] at load
    obtain ⟨read, rfl⟩ := Prod.mk.inj load
    obtain ⟨count, v, cause, next, writtenThemes, refused, rfl⟩ := until_of_outcome_writeThemeJson ran
    -- Neither the schemes nor the theme files of other variants touch the base theme.
    have schemeProducts : ∀ file ∈ schemes, config.Product file.1 := by
      intro file member
      obtain ⟨w, inside, path⟩ := Config.exists_of_mem_schemeFiles made member
      exact path ▸ .scheme w (plain _ (Variant.mem_matrix.mp inside))
    have themeProducts : ∀ file ∈ ((config.variants.filter fun v => !v.isBase).take count).map (config.themeFile base),
        config.Product file.1 := by
      intro file member
      obtain ⟨w, inside, rfl⟩ := List.mem_map.mp member
      exact Config.product_of_derived (fun v listed => plain _ (Variant.mem_matrix.mp listed))
        (List.mem_of_mem_take inside)
    have readFirst := (Config.baseThemeIn_iff_of_writeAll written schemeProducts).mp read
    have readLast := (Config.baseThemeIn_iff_of_writeAll writtenThemes themeProducts).mpr read
    exact ⟨_, _, progress_of_themes derive made written readFirst writtenThemes,
      .themeFile derive next readLast refused⟩

theorem exists_progress (plain : ∀ palette ∈ config.palettes, '/' ∉ palette.toList)
    (ran : outcome (run config) start = (.error e, after)) : ∃ count files,
      Progress config start.files after.files count files ∧ Fault config start.files after.files count e := by
  cases stops_of_outcome_run ran with
  | directory refused blamed files =>
    subst blamed
    exact ⟨0, [], files ▸ progress_zero config start.files, .directory refused⟩
  | styles refused files =>
    obtain ⟨fault, rfl⟩ := exists_fault_of_documentIn refused
    exact ⟨0, [], files ▸ progress_zero config start.files, .styles (files ▸ refused)⟩
  | theme refused files =>
    obtain ⟨fault, rfl⟩ := exists_fault_of_documentIn refused
    exact ⟨0, [], files ▸ progress_zero config start.files, .theme (files ▸ refused)⟩
  | palettes files events hasStyles hasTheme ran =>
    obtain ⟨count, schemes, until_⟩ := until_of_outcome_buildPalettes plain hasStyles hasTheme ran
    obtain ⟨v, next, fault⟩ := until_.fault
    rw [files] at until_
    exact ⟨count, schemes, progress_of_schemes (Nat.le_of_lt until_.lt) until_.made until_.written, .scheme next fault⟩
  | themes files hasStyles hasTheme built derive ran =>
    obtain ⟨-, schemes, made, written⟩ := files_of_outcome_buildPalettes built plain hasStyles hasTheme
    rw [files] at made written
    exact exists_progress_of_deriveThemes plain derive made written ran

namespace Progress

variable {before last : FileTree} {count : Nat} {files : List (Path × String)} {a : Artifact}
  {earlier later : List Artifact} {location : Location}

theorem paths (progress : Progress config before last count files) :
    files.map (·.1) = (config.artifacts.take count).map (Artifact.path config) :=
  Artifact.paths_of_files progress.made

/-- Each written file holds its text unless a later one was written over it. -/
theorem readText (progress : Progress config before last count files)
    (plain : ∀ palette ∈ config.palettes, '/' ∉ palette.toList)
    (split : config.artifacts.take count = earlier ++ a :: later)
    (others : ∀ b ∈ later, b.path config ≠ a.path config) : ∃ text,
      a.file config (before.ensureDirectory config.output).2 = .ok (a.path config, text) ∧
        last.readText (a.path config) = .ok text := by
  have plainTaken : ∀ b ∈ earlier ++ a :: later, '/' ∉ b.variant.palette.toList := by
    intro b member
    rw [← split] at member
    exact Config.plain_of_mem_artifacts plain (List.mem_of_mem_take member)
  have made := progress.made
  rw [split] at made
  obtain ⟨first, rest, -, madeRest, rfl⟩ := mapM_append_eq_ok_iff.mp made
  obtain ⟨⟨path, text⟩, behind, one, madeBehind, rfl⟩ := mapM_cons_eq_ok_iff.mp madeRest
  obtain rfl : path = a.path config := Artifact.path_of_file one
  refine ⟨text, one, FileTree.readText_of_writeAll progress.written fun w member => ?_⟩
  obtain ⟨b, inside, file⟩ := exists_of_mem_results madeBehind member
  rw [Artifact.path_of_file file]
  exact Artifact.last_ne (plainTaken b (by simp [inside])) (plainTaken a (by simp)) (others b inside)

theorem unwritten (progress : Progress config before last count files)
    (plain : ∀ palette ∈ config.palettes, '/' ∉ palette.toList) (member : a ∈ config.artifacts.drop count)
    (others : ∀ b ∈ config.artifacts.take count, b.path config ≠ a.path config)
    (led : last.target (a.path config) = .ok (.named location)) (content : Content) :
    last.entry? location = some (.file content) ↔ before.entry? location = some (.file content) := by
  have untouched : ¬ FileTree.Written files last location := by
    rintro ⟨w, written, led'⟩
    have path : w.1 ∈ (config.artifacts.take count).map (Artifact.path config) :=
      progress.paths ▸ List.mem_map_of_mem written
    obtain ⟨b, taken, same⟩ := List.mem_map.mp path
    have different := Artifact.last_ne (Config.plain_of_mem_artifacts plain (List.mem_of_mem_take taken))
      (Config.plain_of_mem_artifacts plain (List.mem_of_mem_drop member)) (others b taken)
    rw [same] at different
    exact different ((FileTree.head?_of_target led').symm.trans (FileTree.head?_of_target led))
  rw [(FileTree.rewrites_writeAll progress.written).elsewhere location untouched]
  rcases (FileTree.ensureDirectory_adds before config.output).entries location with same | ⟨missing, made, -⟩
  · rw [same]
  · simp [missing, made]

theorem grows (progress : Progress config before last count files) : FileTree.Grows before last :=
  (FileTree.ensureDirectory_adds before config.output).grows.trans
    (FileTree.rewrites_writeAll progress.written).grows

end Progress

/-- What a failed build leaves, after it has written the first `count` of its files. -/
structure Abandoned (config : Config) (before after : FileTree) (e : BuildError) (count : Nat) : Prop where
  progress : ∃ files, Progress config before after count files
  contents : ∀ earlier a later, config.artifacts.take count = earlier ++ a :: later →
    (∀ b ∈ later, b.path config ≠ a.path config) →
    ∃ text, a.file config (before.ensureDirectory config.output).2 = .ok (a.path config, text) ∧
      after.readText (a.path config) = .ok text
  unwritten : ∀ a ∈ config.artifacts.drop count, (∀ b ∈ config.artifacts.take count, b.path config ≠ a.path config) →
    ∀ location, after.target (a.path config) = .ok (.named location) → ∀ content,
      (after.entry? location = some (.file content) ↔ before.entry? location = some (.file content))
  workingDirectory : after.workingDirectory = before.workingDirectory
  directories : ∀ location, before.entry? location = some .directory → after.entry? location = some .directory
  elsewhere : ∀ location,
    (∀ a ∈ config.artifacts.take count, ∀ content, after.find (a.path config) ≠ .ok (location, .file content)) →
    after.entry? location = before.entry? location ∨
      before.entry? location = none ∧ after.entry? location = some .directory ∧
        FileTree.OnTheWay config.output.chain after location
  fault : Fault config before after count e

/-- A build that fails has written a first part of its files whole, schemes before theme files, and has changed
nothing else but directories on the way to the outputs. It blames the document that kept the next file from being
written. -/
theorem abandoned_of_run (plain : ∀ palette ∈ config.palettes, '/' ∉ palette.toList)
    (ran : outcome (run config) start = (.error e, after)) :
    ∃ count, Abandoned config start.files after.files e count := by
  obtain ⟨count, files, progress, fault⟩ := exists_progress plain ran
  refine ⟨count, ⟨files, progress⟩, fun earlier a later split others => progress.readText plain split others,
    fun a member others location led content => progress.unwritten plain member others led content,
    progress.grows.workingDirectory, progress.grows.directories, fun location other => ?_, fault⟩
  refine FileTree.elsewhere_of_writeAll progress.written fun w member content => ?_
  have path : w.1 ∈ (config.artifacts.take count).map (Artifact.path config) :=
    progress.paths ▸ List.mem_map_of_mem member
  obtain ⟨a, taken, same⟩ := List.mem_map.mp path
  rw [← same]
  exact other a taken content

/-- The second palette has no document, so the schemes of the first one are left and no theme file. -/
theorem outcome_missingPalette : outcome (run (sampleConfig ["normal", "blue"])) ⟨sampleTree, []⟩ =
    (.error ⟨⟨"sources/colors/blue.yaml"⟩, .missingInput .notFound⟩,
      (outcome (run (sampleConfig ["normal", "blue"])) ⟨sampleTree, []⟩).2) :=
  outcome_of_error (by decide +kernel)

theorem abandoned_of_run_missingPalette :
    (∀ palette ∈ (sampleConfig ["normal", "blue"]).palettes, '/' ∉ palette.toList) ∧
    ∃ after, outcome (run (sampleConfig ["normal", "blue"])) ⟨sampleTree, []⟩ =
        (.error ⟨⟨"sources/colors/blue.yaml"⟩, .missingInput .notFound⟩, after) ∧
      ∃ count, Abandoned (sampleConfig ["normal", "blue"]) sampleTree after.files
        ⟨⟨"sources/colors/blue.yaml"⟩, .missingInput .notFound⟩ count := by
  have plain : ∀ palette ∈ (sampleConfig ["normal", "blue"]).palettes, '/' ∉ palette.toList := by decide
  exact ⟨plain, _, outcome_missingPalette, abandoned_of_run plain outcome_missingPalette⟩

end Build

end EditorScheme
