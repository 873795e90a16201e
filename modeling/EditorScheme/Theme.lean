import EditorScheme.Schema.Entries

/-!
Themes as they are written: colors by name, attributes with options and the conditions on them.
-/
namespace EditorScheme

structure SubOption where
  name : String
  condition : String
deriving DecidableEq, Repr

/-- An attribute is given by its foreground color alone or by a list of options. -/
inductive Attribute
  | foreground (token : String)
  | options (list : List SubOption)
deriving DecidableEq, Repr

namespace Attribute

def bold : String := "bold"

def italic : String := "italic"

def ofValue (name : String) (value : Yaml.Value) : Except SchemaError Attribute :=
  match value with
  | .mapping entries => do
    let pairs ← scalarPairs (.attributeNamed name) entries
    .ok (.options (pairs.map fun pair => ⟨pair.1, pair.2⟩))
  | value =>
    match value.scalarText? with
    | some token => .ok (.foreground token)
    | none => .error (.malformed (.attributeNamed name) (.noAttribute value.kind))

def subOption? (definition : Attribute) (name : String) : Option SubOption :=
  match definition with
  | .foreground _ => none
  | .options list => list.find? (fun option => option.name == name)

end Attribute

structure Theme where
  parentScheme : String
  colors : List (String × String)
  inheriting : List (String × String)
  attributes : List (String × Attribute)
deriving DecidableEq, Repr

namespace Theme

def attributeEntry (entry : Yaml.Value × Yaml.Value) : Except SchemaError (String × Attribute) := do
  let name ← scalarText .attributes entry.1
  let definition ← Attribute.ofValue name entry.2
  .ok (name, definition)

def ofValue (document : Yaml.Value) : Except SchemaError Theme := do
  let root ← rootEntries .theme document
  let parentScheme ← match Yaml.Value.lookup "parent-scheme" root with
    | some value => scalarText .parentScheme value
    | none => .error (.malformed .theme (.missingKey "parent-scheme"))
  let colors ← scalarPairs .colorTable (← sectionEntries root "colors")
  let inheriting ← scalarPairs .inheritingAttributes (← sectionEntries root "inheriting-attributes")
  let attributes ← (← sectionEntries root "attributes").mapM attributeEntry
  .ok ⟨parentScheme, colors, inheriting, attributes⟩

def ofYaml (text : String) : Except SchemaError Theme := do
  ofValue (← readValue text)

end Theme

end EditorScheme
