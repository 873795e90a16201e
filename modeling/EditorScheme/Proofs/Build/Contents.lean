import EditorScheme.Proofs.Build.Outcome
import EditorScheme.Proofs.Build.Outputs

/-!
What the files of a build hold: the scheme that the sources in a tree give a variant, and the theme file
that is made from the base one. Writing any outputs leaves these schemes what they are.
-/
namespace EditorScheme

namespace Config

variable {config : Config} {tree before after : FileTree} {v : Variant}

/-- The scheme that the sources in a tree give a variant. -/
def schemeIn (config : Config) (tree : FileTree) (v : Variant) : Except BuildError Scheme := do
  let styles ← Build.documentIn tree config.styleMapPath StyleMap.ofYaml
  let theme ← Build.documentIn tree config.themePath Theme.ofYaml
  let palette ← Build.documentIn tree (config.palettePath v.palette) (Palette.ofYaml v.palette)
  (theme.assemble palette styles v.italic (v.displayName config.displayName)).mapError
    fun cause => ⟨config.schemePath v, .schema cause⟩

theorem schemeIn_eq_ok_iff {scheme : Scheme} : config.schemeIn tree v = .ok scheme ↔ ∃ styles theme palette,
    Build.documentIn tree config.styleMapPath StyleMap.ofYaml = .ok styles ∧
      Build.documentIn tree config.themePath Theme.ofYaml = .ok theme ∧
      Build.documentIn tree (config.palettePath v.palette) (Palette.ofYaml v.palette) = .ok palette ∧
      theme.assemble palette styles v.italic (v.displayName config.displayName) = .ok scheme := by
  unfold schemeIn
  cases Build.documentIn tree config.styleMapPath StyleMap.ofYaml with
  | error e => simp [bind, Except.bind]
  | ok styles =>
    cases Build.documentIn tree config.themePath Theme.ofYaml with
    | error e => simp [bind, Except.bind]
    | ok theme =>
      cases Build.documentIn tree (config.palettePath v.palette) (Palette.ofYaml v.palette) with
      | error e => simp [bind, Except.bind]
      | ok palette =>
        cases made : theme.assemble palette styles v.italic (v.displayName config.displayName) <;>
          simp [bind, Except.bind, made]

def schemeFile (config : Config) (tree : FileTree) (v : Variant) : Except BuildError (Path × String) := do
  let scheme ← config.schemeIn tree v
  .ok (config.schemePath v, scheme.toXml)

theorem schemeFile_eq_ok_iff {file : Path × String} : config.schemeFile tree v = .ok file ↔
    ∃ scheme, config.schemeIn tree v = .ok scheme ∧ file = (config.schemePath v, scheme.toXml) := by
  unfold schemeFile
  cases config.schemeIn tree v <;> simp [bind, Except.bind, eq_comm]

theorem documentIn_iff_of_writeAll {α : Type} {path : Path} {parse : String → Except SchemaError α} {a : α}
    {writes : List (Path × String)} (source : config.Source path) (written : before.writeAll writes = .ok after)
    (outputs : ∀ w ∈ writes, config.Output w.1) :
    Build.documentIn after path parse = .ok a ↔ Build.documentIn before path parse = .ok a := by
  simp only [Build.documentIn_eq_ok_iff, source.readText_iff written outputs]

theorem schemeFile_iff_of_writeAll {file : Path × String} {writes : List (Path × String)}
    (plain : '/' ∉ v.palette.toList) (written : before.writeAll writes = .ok after)
    (outputs : ∀ w ∈ writes, config.Output w.1) :
    config.schemeFile after v = .ok file ↔ config.schemeFile before v = .ok file := by
  simp only [schemeFile_eq_ok_iff, schemeIn_eq_ok_iff, documentIn_iff_of_writeAll .styles written outputs,
    documentIn_iff_of_writeAll .theme written outputs,
    documentIn_iff_of_writeAll (.palette v.palette plain) written outputs]

theorem paths_of_schemeFiles {variants : List Variant} {files : List (Path × String)}
    (made : variants.mapM (config.schemeFile tree) = .ok files) :
    files.map (·.1) = variants.map config.schemePath := by
  refine map_eq_of_mapM_eq_ok made fun v file one => ?_
  obtain ⟨scheme, -, rfl⟩ := schemeFile_eq_ok_iff.mp one
  rfl

theorem exists_of_mem_schemeFiles {variants : List Variant} {files : List (Path × String)} {file : Path × String}
    (made : variants.mapM (config.schemeFile tree) = .ok files) (member : file ∈ files) :
    ∃ v ∈ variants, file.1 = config.schemePath v := by
  have path : file.1 ∈ variants.map config.schemePath :=
    paths_of_schemeFiles made ▸ List.mem_map_of_mem member
  obtain ⟨v, inside, same⟩ := List.mem_map.mp path
  exact ⟨v, inside, same.symm⟩

theorem outputs_of_schemeFiles {variants : List Variant} {files : List (Path × String)}
    (plain : ∀ v ∈ variants, '/' ∉ v.palette.toList) (made : variants.mapM (config.schemeFile tree) = .ok files) :
    ∀ file ∈ files, config.Output file.1 := by
  intro file member
  obtain ⟨v, inside, path⟩ := exists_of_mem_schemeFiles made member
  rw [path]
  exact .scheme v (plain v inside)

def baseThemeIn (config : Config) (tree : FileTree) : Except BuildError Json.Object := do
  let text ← (tree.readText (config.themeJsonPath Variant.base)).mapError
    fun cause => ⟨config.themeJsonPath Variant.base, Build.readFault cause⟩
  match Json.Value.ofText? text with
  | none => .error ⟨config.themeJsonPath Variant.base, .notJson⟩
  | some value =>
    match value.toObject? with
    | none => .error ⟨config.themeJsonPath Variant.base, .notAnObject⟩
    | some object => .ok object

theorem baseThemeIn_eq_ok_iff {object : Json.Object} : config.baseThemeIn tree = .ok object ↔ ∃ text value,
    tree.readText (config.themeJsonPath Variant.base) = .ok text ∧ Json.Value.ofText? text = some value ∧
      value.toObject? = some object := by
  unfold baseThemeIn
  cases tree.readText (config.themeJsonPath Variant.base) with
  | error cause => simp [bind, Except.bind]
  | ok text =>
    cases parsed : Json.Value.ofText? text with
    | none => simp [bind, Except.bind, parsed]
    | some value => cases object : value.toObject? <;> simp [bind, Except.bind, parsed, object]

def themeFile (config : Config) (base : Json.Object) (v : Variant) : Path × String :=
  (config.themeJsonPath v, Build.themeJson config base v)

end Config

end EditorScheme
