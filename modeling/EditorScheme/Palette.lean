import EditorScheme.Schema.Entries
import EditorScheme.Table

/-!
Palettes give values to color names; a name without a value stands for itself. A scheme has two variants for each
palette, a plain and an italic one.
-/
namespace EditorScheme

structure Palette where
  name : String
  colors : Table String String

namespace Palette

/-- The palette that file and display names do not mention. -/
def defaultName : String := "normal"

def empty (name : String) : Palette := ⟨name, .empty⟩

def add (palette : Palette) (color value : String) : Palette :=
  { palette with colors := palette.colors.insert color value }

def ofValue (name : String) (document : Yaml.Value) : Except SchemaError Palette := do
  let root ← rootEntries (.palette name) document
  let pairs ← scalarPairs (.palette name) root
  .ok ⟨name, .ofList pairs⟩

def ofYaml (name text : String) : Except SchemaError Palette := do
  ofValue name (← readValue text)

def resolve (palette : Palette) (token : String) : String := (palette.colors.get? token).getD token

def contains (palette : Palette) (token : String) : Bool := palette.colors.contains token

def size (palette : Palette) : Nat := palette.colors.size

def isEmpty (palette : Palette) : Bool := palette.colors.isEmpty

/-- The order in which colors were added does not matter. -/
instance : BEq Palette where
  beq a b := a.name == b.name && a.colors.agrees b.colors

end Palette

structure Variant where
  palette : String
  italic : Bool
deriving DecidableEq, Repr

namespace Variant

/-- The plain and the italic variant of each palette, in order. -/
def matrix (palettes : List String) : List Variant :=
  palettes.flatMap fun palette => [⟨palette, false⟩, ⟨palette, true⟩]

def standardPalettes : List String := [Palette.defaultName, "vivid"]

def standard : List Variant := matrix standardPalettes

def base : Variant := ⟨Palette.defaultName, false⟩

def isBase (v : Variant) : Bool := v.palette == Palette.defaultName && !v.italic

/-- Appends the palette, unless it is the default one, and the word for italic. -/
def label (v : Variant) (start separator : String) : String :=
  start ++ (if v.palette = Palette.defaultName then "" else separator ++ v.palette) ++
    (if v.italic then separator ++ "italic" else "")

def fileStem (v : Variant) (start : String) : String := v.label start "_"

def displayName (v : Variant) (start : String) : String := v.label start " "

def text (v : Variant) : String := if v.italic then v.palette ++ " (italic)" else v.palette

end Variant

end EditorScheme
