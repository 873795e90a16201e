import EditorScheme.Proofs.Build.Failure
import EditorScheme.Proofs.Origins
import EditorScheme.Proofs.Schema.Reading

/-!
Builds that stop because a style has no encoding. Whether a theme can be assembled does not depend on the palette, so
that can only happen to the first one, before or after its plain scheme is written.
-/
namespace EditorScheme

namespace BuildError

def MissesEncoding (e : BuildError) : Prop :=
  ∃ category option, e.fault = .schema (.missingEncoding category option)

theorem not_missesEncoding_unwritable (path : Path) (cause : FileError) :
    ¬ MissesEncoding ⟨path, .unwritable cause⟩ := by
  rintro ⟨category, option, ⟨⟩⟩

end BuildError

namespace Event

def read? : Event → Option Path
  | readingDocument path => some path
  | _ => none

def written? : Event → Option Path
  | wroteFile path _ => some path
  | _ => none

end Event

namespace Build

variable {α : Type} {config : Config} {start middle after : RecordedFiles} {e : BuildError} {styles : StyleMap}
  {theme : Theme} {palette : Palette} {v : Variant}

theorem not_missesEncoding_readFault (path : Path) (cause : FileError) :
    ¬ BuildError.MissesEncoding ⟨path, readFault cause⟩ := by
  rintro ⟨category, option, missing⟩
  cases cause <;> simp [readFault] at missing

/-- No document misses an encoding by itself. -/
theorem not_missesEncoding_of_documentIn {tree : FileTree} {path : Path} {parse : String → Except SchemaError α}
    (reads : ∀ text, ReadsDocument (parse text)) (refused : documentIn tree path parse = .error e) :
    ¬ e.MissesEncoding := by
  rcases documentIn_eq_error_iff.mp refused with ⟨cause, -, rfl⟩ | ⟨text, cause, -, parsed, rfl⟩
  · exact not_missesEncoding_readFault _ _
  · rintro ⟨category, option, missing⟩
    cases missing
    cases reads text _ parsed

theorem not_missesEncoding_of_baseThemeIn {tree : FileTree} (refused : config.baseThemeIn tree = .error e) :
    ¬ e.MissesEncoding := by
  rcases baseThemeIn_eq_error_iff.mp refused with
    ⟨cause, -, rfl⟩ | ⟨text, -, ⟨-, rfl⟩ | ⟨value, -, -, rfl⟩⟩
  · exact not_missesEncoding_readFault _ _
  · simp [BuildError.MissesEncoding]
  · simp [BuildError.MissesEncoding]

/-- The style map gives the theme everything that it needs, in both kinds of variants. -/
def Encodes (styles : StyleMap) (theme : Theme) : Prop :=
  ∀ italic, ∃ outline, theme.outline styles italic = .ok outline

theorem encodes_of_outcome_buildPalette {name : String} {paths : List Path}
    (ran : outcome (buildPalette config styles theme name) start = (.ok paths, after)) : Encodes styles theme := by
  have outlined {palette : Palette} {v : Variant} {path : Path} {first last : RecordedFiles}
      (built : outcome (buildVariant config v palette styles theme) first = (.ok path, last)) :
      ∃ outline, theme.outline styles v.italic = .ok outline := by
    obtain ⟨-, scheme, assembled, -⟩ := outcome_buildVariant_eq_ok_iff.mp built
    rw [Theme.assemble_eq_outline] at assembled
    obtain ⟨outline, made, -⟩ := map_eq_ok_iff.mp assembled
    exact ⟨outline, made⟩
  unfold buildPalette at ran
  obtain ⟨palette, loaded, -, ran⟩ := outcome_bind_eq_ok_iff.mp ran
  obtain ⟨plain, between, first, ran⟩ := outcome_bind_eq_ok_iff.mp ran
  obtain ⟨italic, last, second, -⟩ := outcome_bind_eq_ok_iff.mp ran
  rintro (_ | _)
  · exact outlined (v := ⟨name, false⟩) first
  · exact outlined (v := ⟨name, true⟩) second

theorem not_missesEncoding_of_buildVariant (encodes : Encodes styles theme)
    (ran : outcome (buildVariant config v palette styles theme) start = (.error e, after)) : ¬ e.MissesEncoding := by
  rcases outcome_buildVariant_eq_error_iff.mp ran with ⟨cause, failed, -, -⟩ | ⟨scheme, cause, -, -, rfl, -⟩
  · obtain ⟨outline, made⟩ := encodes v.italic
    rw [Theme.assemble_eq_outline, made] at failed
    cases failed
  · exact BuildError.not_missesEncoding_unwritable _ _

/-- A theme that one palette could be built with misses no encoding for any other. -/
theorem not_missesEncoding_of_buildPalettes {names : List String} (encodes : Encodes styles theme)
    (ran : outcome (names.mapM (buildPalette config styles theme)) start = (.error e, after)) : ¬ e.MissesEncoding := by
  induction names generalizing start with
  | nil => simp [outcome_pure] at ran
  | cons name names ih =>
    rcases outcome_mapM_cons_eq_error_iff.mp ran with head | ⟨paths, middle, -, tail⟩
    · rcases outcome_buildPalette_eq_error_iff.mp head with
        ⟨refused, -⟩ | ⟨palette, -, first | ⟨path, middle, -, second⟩⟩
      · exact not_missesEncoding_of_documentIn (Palette.reads_ofYaml name) refused
      · exact not_missesEncoding_of_buildVariant encodes first
      · exact not_missesEncoding_of_buildVariant encodes second
    · exact ih tail

theorem not_missesEncoding_of_deriveThemes {variants : List Variant}
    (ran : outcome (deriveThemes config variants) start = (.error e, after)) : ¬ e.MissesEncoding := by
  rcases outcome_bind_eq_error_iff.mp ran with load | ⟨base, loaded, -, write⟩
  · rw [outcome_loadThemeJson] at load
    exact not_missesEncoding_of_baseThemeIn (Prod.mk.inj load).1
  · obtain ⟨count, v, cause, -, -, -, rfl⟩ := until_of_outcome_writeThemeJson write
    exact BuildError.not_missesEncoding_unwritable _ _

theorem missing_of_outcome_buildVariant {path : Path} {category option : String}
    (ran : outcome (buildVariant config v palette styles theme) start =
      (.error ⟨path, .schema (.missingEncoding category option)⟩, after)) :
    path = config.schemePath v ∧ category = "font-type" ∧ option = "bold-italic" ∧
      after = ⟨start.files, start.events ++ [.buildingScheme v (v.displayName config.displayName)]⟩ := by
  rcases outcome_buildVariant_eq_error_iff.mp ran with ⟨cause, failed, blamed, left⟩ | ⟨scheme, cause, -, -, blamed, -⟩
  · cases blamed
    cases Theme.eq_of_assemble_eq_error failed
    exact ⟨rfl, rfl, rfl, left⟩
  · cases blamed

/-- Where a build stands when it stops for a missing encoding: at the plain scheme of the first palette, or at the
italic one with the plain scheme written. `written` are the files that the build reports as written. -/
inductive Missed (config : Config) (first : String) (before after : FileTree) : List Path → Path → Prop
  | plain (files : after = (before.ensureDirectory config.output).2) :
      Missed config first before after [] (config.schemePath ⟨first, false⟩)
  | italic {scheme : Scheme}
      (made : config.schemeIn (before.ensureDirectory config.output).2 ⟨first, false⟩ = .ok scheme)
      (files : (before.ensureDirectory config.output).2.writeText (config.schemePath ⟨first, false⟩) scheme.toXml =
        .ok after) :
      Missed config first before after [config.schemePath ⟨first, false⟩] (config.schemePath ⟨first, true⟩)

theorem missed_of_outcome_buildPalette {before : FileTree} {first category option : String} {path : Path}
    (files : start.files = (before.ensureDirectory config.output).2)
    (hasStyles : documentIn start.files config.styleMapPath StyleMap.ofYaml = .ok styles)
    (hasTheme : documentIn start.files config.themePath Theme.ofYaml = .ok theme)
    (ran : outcome (buildPalette config styles theme first) start =
      (.error ⟨path, .schema (.missingEncoding category option)⟩, after)) :
    category = "font-type" ∧ option = "bold-italic" ∧ ∃ log, after.events = start.events ++ log ∧
      log.filterMap Event.read? = [config.palettePath first] ∧
      Missed config first before after.files (log.filterMap Event.written?) path := by
  rcases outcome_buildPalette_eq_error_iff.mp ran with
    ⟨refused, -⟩ | ⟨palette, hasPalette, plain | ⟨written, middle, plain, italic⟩⟩
  · exact absurd ⟨category, option, rfl⟩ (not_missesEncoding_of_documentIn (Palette.reads_ofYaml first) refused)
  · obtain ⟨rfl, rfl, rfl, rfl⟩ := missing_of_outcome_buildVariant plain
    exact ⟨rfl, rfl, _, List.append_assoc .., rfl, .plain files⟩
  · obtain ⟨-, scheme, assembled, wrote, events⟩ := outcome_buildVariant_eq_ok_iff.mp plain
    obtain ⟨rfl, rfl, rfl, rfl⟩ := missing_of_outcome_buildVariant italic
    have made : config.schemeIn start.files ⟨first, false⟩ = .ok scheme :=
      Config.schemeIn_eq_ok_iff.mpr ⟨styles, theme, palette, hasStyles, hasTheme, hasPalette, assembled⟩
    rw [files] at made wrote
    rw [events, List.append_assoc, List.append_assoc]
    exact ⟨rfl, rfl, _, rfl, rfl, .italic made wrote⟩

/-- A build that stops for a missing encoding lacks the one for bold and italic together, and stops at the first
palette: no other is read, and nothing is written but the plain scheme of that palette if the italic one is at fault. -/
theorem missing_encoding_at_first_palette {path : Path} {category option : String}
    (ran : outcome (run config) start = (.error ⟨path, .schema (.missingEncoding category option)⟩, after)) :
    category = "font-type" ∧ option = "bold-italic" ∧ ∃ first others log, config.palettes = first :: others ∧
      after.events = start.events ++ log ∧
      log.filterMap Event.read? = [config.styleMapPath, config.themePath, config.palettePath first] ∧
      Missed config first start.files after.files (log.filterMap Event.written?) path := by
  have misses : BuildError.MissesEncoding ⟨path, .schema (.missingEncoding category option)⟩ := ⟨category, option, rfl⟩
  cases stops_of_outcome_run ran with
  | directory refused blamed files =>
    rw [blamed] at misses
    exact absurd misses (BuildError.not_missesEncoding_unwritable _ _)
  | styles refused files => exact absurd misses (not_missesEncoding_of_documentIn StyleMap.reads_ofYaml refused)
  | theme refused files => exact absurd misses (not_missesEncoding_of_documentIn Theme.reads_ofYaml refused)
  | themes files hasStyles hasTheme built derive ran => exact absurd misses (not_missesEncoding_of_deriveThemes ran)
  | palettes files events hasStyles hasTheme ran =>
    cases palettes : config.palettes with
    | nil => simp [palettes, outcome_pure] at ran
    | cons first others =>
      rw [palettes] at ran
      rcases outcome_mapM_cons_eq_error_iff.mp ran with head | ⟨paths, middle, head, tail⟩
      · obtain ⟨rfl, rfl, log, left, reads, missed⟩ := missed_of_outcome_buildPalette files hasStyles hasTheme head
        rw [events, List.append_assoc] at left
        refine ⟨rfl, rfl, first, others, _, rfl, left, ?_, missed⟩
        rw [List.filterMap_append, reads]
        rfl
      · exact absurd misses (not_missesEncoding_of_buildPalettes (encodes_of_outcome_buildPalette head) tail)

/-- Sources with an attribute that is bold, and italic in the italic variants, but no encoding for both. -/
def boldTree : FileTree where
  entries := .ofList [
    (["w"], .directory),
    (["sources", "w"], .directory),
    (["colors", "sources", "w"], .directory),
    (["themes", "w"], .directory),
    (["ide.yaml", "sources", "w"], .file (.text "font-type:\n  bold: 1\n  italic: 2\n")),
    (["theme.yaml", "sources", "w"], .file (.text ("parent-scheme: Darcula\ncolors: \x7b\x7d\n" ++
      "inheriting-attributes: \x7b\x7d\nattributes:\n  KEYWORD:\n    bold: always\n    italic: theme\n"))),
    (["normal.yaml", "colors", "sources", "w"], .file (.text "purple: c678dd\n"))]
  workingDirectory := ["w"]

theorem outcome_boldTree : outcome (run (sampleConfig ["normal", "vivid"])) ⟨boldTree, []⟩ =
    (.error ⟨⟨"new/../themes/x_italic.xml"⟩, .schema (.missingEncoding "font-type" "bold-italic")⟩,
      (outcome (run (sampleConfig ["normal", "vivid"])) ⟨boldTree, []⟩).2) :=
  outcome_of_error (by decide +kernel)

theorem missing_encoding_in_boldTree : ∃ after, outcome (run (sampleConfig ["normal", "vivid"])) ⟨boldTree, []⟩ =
      (.error ⟨⟨"new/../themes/x_italic.xml"⟩, .schema (.missingEncoding "font-type" "bold-italic")⟩, after) ∧
    ∃ first others log,
      (sampleConfig ["normal", "vivid"]).palettes = first :: others ∧ after.events = [] ++ log ∧
      log.filterMap Event.read? = [(sampleConfig ["normal", "vivid"]).styleMapPath,
        (sampleConfig ["normal", "vivid"]).themePath, (sampleConfig ["normal", "vivid"]).palettePath first] ∧
      Missed (sampleConfig ["normal", "vivid"]) first boldTree after.files (log.filterMap Event.written?)
        ⟨"new/../themes/x_italic.xml"⟩ := by
  exact ⟨_, outcome_boldTree, (missing_encoding_at_first_palette outcome_boldTree).2.2⟩

end Build

end EditorScheme
