import EditorScheme.Yaml.Document

/-!
Mappings and scalars in the source documents of a scheme, and what can be wrong with them. A scalar is a string, a
number or a boolean, and counts by its text.
-/
namespace EditorScheme

/-- The part of a document in which something was expected. -/
inductive Context
  | palette (name : String)
  | styleMap
  | styleCategory (name : String)
  | theme
  | parentScheme
  | colorTable
  | inheritingAttributes
  | attributes
  | attributeNamed (name : String)
  | entry (around : Context) (key : String)
deriving DecidableEq, Repr

def Context.text : Context → String
  | .palette name => "palette '" ++ name ++ "'"
  | .styleMap => "style map"
  | .styleCategory name => "style category '" ++ name ++ "'"
  | .theme => "theme definition"
  | .parentScheme => "parent-scheme"
  | .colorTable => "color table"
  | .inheritingAttributes => "inheriting attributes"
  | .attributes => "attributes"
  | .attributeNamed name => "attribute '" ++ name ++ "'"
  | .entry around key => around.text ++ " '" ++ key ++ "'"

inductive Problem
  | noMappingAtTop (got : Yaml.Kind)
  | noScalar (got : Yaml.Kind)
  | missingKey (key : String)
  | noMappingUnder (key : String) (got : Yaml.Kind)
  | noEncodings
  | noAttribute (got : Yaml.Kind)
deriving DecidableEq, Repr

def Problem.text : Problem → String
  | .noMappingAtTop got => "expected a mapping at the top level, got " ++ got.words
  | .noScalar got => "expected a scalar, got " ++ got.words
  | .missingKey key => "missing key '" ++ key ++ "'"
  | .noMappingUnder key got => "'" ++ key ++ "' must be a mapping, got " ++ got.words
  | .noEncodings => "expected a mapping of option to encoding"
  | .noAttribute got => "expected a color token or a mapping, got " ++ got.words

inductive SchemaError
  | missingEncoding (category option : String)
  | malformed (context : Context) (problem : Problem)
  | notYaml (cause : Yaml.Error)
deriving DecidableEq, Repr

def SchemaError.message : SchemaError → String
  | .missingEncoding category option =>
    "no encoding for option '" ++ option ++ "' in style category '" ++ category ++ "'"
  | .malformed context problem => "malformed " ++ context.text ++ ": " ++ problem.text
  | .notYaml cause => "YAML parse failed: " ++ cause.message

abbrev Entries := List (Yaml.Value × Yaml.Value)

def readValue (text : String) : Except SchemaError Yaml.Value :=
  (Yaml.Value.ofText text).mapError .notYaml

/-- The entries of a whole document, which has to be a mapping without a tag. -/
def rootEntries (context : Context) : Yaml.Value → Except SchemaError Entries
  | .mapping entries => .ok entries
  | other => .error (.malformed context (.noMappingAtTop other.kind))

def scalarText (context : Context) (value : Yaml.Value) : Except SchemaError String :=
  match value.scalarText? with
  | some text => .ok text
  | none => .error (.malformed context (.noScalar value.kind))

def sectionEntries (root : Entries) (key : String) : Except SchemaError Entries :=
  match Yaml.Value.lookup key root with
  | none => .error (.malformed .theme (.missingKey key))
  | some value =>
    match value.entries? with
    | some entries => .ok entries
    | none => .error (.malformed .theme (.noMappingUnder key value.kind))

def scalarPair (context : Context) (entry : Yaml.Value × Yaml.Value) :
    Except SchemaError (String × String) := do
  let key ← scalarText context entry.1
  let value ← scalarText (.entry context key) entry.2
  .ok (key, value)

def scalarPairs (context : Context) (entries : Entries) :
    Except SchemaError (List (String × String)) :=
  entries.mapM (scalarPair context)

end EditorScheme
