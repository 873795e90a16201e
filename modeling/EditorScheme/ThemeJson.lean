import EditorScheme.Build.Basic
import EditorScheme.Json.Text

/-!
Theme files, which are JSON objects with a display name and a reference to a scheme. A build derives those of the other
variants from the one of the base variant.
-/
namespace EditorScheme

namespace ThemeJson

def nameField : String := "name"

def schemeField : String := "editorScheme"

/-- A theme with another name and scheme. The order of its fields stays. -/
def rename (theme : Json.Object) (name scheme : String) : Json.Object :=
  (theme.insert nameField (.string name)).insert schemeField (.string scheme)

end ThemeJson

namespace Config

def trimSlashes (text : String) : String :=
  String.ofList (text.toList.reverse.dropWhile (· == '/')).reverse

def schemeResource (config : Config) (variant : Variant) : String :=
  trimSlashes config.resourceRoot ++ "/" ++ variant.fileStem config.fileName ++ ".xml"

end Config

namespace Build

variable {m : Type → Type} [Monad m] [Workspace m]

/-- Reads the theme file of the base variant, which has to hold a JSON object. -/
def loadThemeJson (config : Config) : Step m Json.Object := do
  let path := config.themeJsonPath Variant.base
  let text ← readDocument path
  match Json.Value.ofText? text with
  | none => throw ⟨path, .notJson⟩
  | some value =>
    match value.toObject? with
    | none => throw ⟨path, .notAnObject⟩
    | some object => return object

def themeJson (config : Config) (base : Json.Object) (variant : Variant) : String :=
  (ThemeJson.rename base (variant.displayName config.displayName)
    (config.schemeResource variant)).text ++ "\n"

def writeThemeJson (config : Config) (base : Json.Object) (variant : Variant) : Step m Path := do
  let path := config.themeJsonPath variant
  writeFile path (themeJson config base variant)
  return path

/-- Writes the theme files of all variants but the base one. -/
def deriveThemes (config : Config) (variants : List Variant) : Step m (List Path) := do
  let base ← loadThemeJson config
  (variants.filter (fun variant => !variant.isBase)).mapM (writeThemeJson config base)

end Build

end EditorScheme
