import EditorScheme.Scheme.Xml
import EditorScheme.ThemeJson

/-!
Building all schemes of a configuration. The first failure ends a build; what was written before stays.
-/
namespace EditorScheme

/-- What a build wrote, in the order of the variants. -/
structure BuildReport where
  schemes : List Path
  themes : List Path
deriving DecidableEq, Repr

namespace Build

variable {m : Type → Type} [Monad m] [Workspace m]

def loadPalette (config : Config) (name : String) : Step m Palette := do
  let text ← readDocument (config.palettePath name)
  checked (config.palettePath name) (Palette.ofYaml name text)

def loadStyleMap (config : Config) : Step m StyleMap := do
  let text ← readDocument config.styleMapPath
  checked config.styleMapPath (StyleMap.ofYaml text)

def loadTheme (config : Config) : Step m Theme := do
  let text ← readDocument config.themePath
  checked config.themePath (Theme.ofYaml text)

def buildVariant (config : Config) (variant : Variant) (palette : Palette) (styles : StyleMap)
    (theme : Theme) : Step m Path := do
  let path := config.schemePath variant
  let name := variant.displayName config.displayName
  report (.buildingScheme variant name)
  let scheme ← checked path (theme.assemble palette styles variant.italic name)
  report (.assembled name palette.name variant.italic theme.colors.length theme.attributes.length)
  writeFile path scheme.toXml
  return path

def buildPalette (config : Config) (styles : StyleMap) (theme : Theme) (name : String) :
    Step m (List Path) := do
  let palette ← loadPalette config name
  let plain ← buildVariant config ⟨name, false⟩ palette styles theme
  let italic ← buildVariant config ⟨name, true⟩ palette styles theme
  return [plain, italic]

def run (config : Config) : Step m BuildReport := do
  ensureDirectory config.output
  let styles ← loadStyleMap config
  let theme ← loadTheme config
  let schemes ← config.palettes.mapM (buildPalette config styles theme)
  let themes ← if config.deriveThemes then deriveThemes config config.variants else pure []
  report (.buildFinished schemes.flatten.length themes.length)
  return ⟨schemes.flatten, themes⟩

end Build

end EditorScheme
