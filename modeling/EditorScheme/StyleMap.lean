import EditorScheme.Schema.Entries
import EditorScheme.Table

/-!
Style maps tell which options switch a style on, and how the scheme encodes them. Every such option
belongs to one category, the one it was last listed under, and has an encoding there.
-/
namespace EditorScheme

inductive OptionKind
  | styleFlag (category : String)
  | literalColor
deriving DecidableEq, Repr

structure StyleMap where
  categories : Table String (Table String String)
  owners : Table String String
  encoded : ∀ option category, owners.get? option = some category →
    ∃ options, categories.get? category = some options ∧ (options.get? option).isSome

namespace StyleMap

def fontType : String := "font-type"

def boldItalicOption : String := "bold-italic"

def empty : StyleMap := ⟨.empty, .empty, by simp⟩

/-- The encodings of a category, none at all if it is unknown. -/
def options (styles : StyleMap) (category : String) : Table String String :=
  (styles.categories.get? category).getD .empty

def add (styles : StyleMap) (category option encoding : String) : StyleMap where
  categories := styles.categories.insert category ((styles.options category).insert option encoding)
  owners := styles.owners.insert option category
  encoded := by
    intro o c owned
    rw [Table.get?_insert] at owned ⊢
    by_cases same : o = option
    · simp only [same, ↓reduceIte, Option.some.injEq] at owned
      exact ⟨(styles.options category).insert option encoding, by simp [owned], by simp [same]⟩
    · simp only [same, ↓reduceIte] at owned
      obtain ⟨options, found, encoded⟩ := styles.encoded o c owned
      by_cases hc : c = category
      · refine ⟨(styles.options category).insert option encoding, by simp [hc], ?_⟩
        subst hc
        simpa [same, StyleMap.options, found] using encoded
      · exact ⟨options, by simp [hc, found], encoded⟩

def addAll (styles : StyleMap) (entries : List (String × String × String)) : StyleMap :=
  entries.foldl (fun styles entry => styles.add entry.1 entry.2.1 entry.2.2) styles

def categoryEntries (entry : Yaml.Value × Yaml.Value) :
    Except SchemaError (List (String × String × String)) := do
  let category ← scalarText .styleMap entry.1
  match entry.2.entries? with
  | none => .error (.malformed (.styleCategory category) .noEncodings)
  | some options => do
    let pairs ← scalarPairs (.styleCategory category) options
    .ok (pairs.map fun pair => (category, pair.1, pair.2))

def ofValue (document : Yaml.Value) : Except SchemaError StyleMap := do
  let root ← rootEntries .styleMap document
  let entries ← root.mapM categoryEntries
  .ok (empty.addAll entries.flatten)

def ofYaml (text : String) : Except SchemaError StyleMap := do
  ofValue (← readValue text)

def classify (styles : StyleMap) (option : String) : OptionKind :=
  match styles.owners.get? option with
  | some category => .styleFlag category
  | none => .literalColor

def encoding (styles : StyleMap) (category option : String) : Except SchemaError String :=
  match (styles.options category).get? option with
  | some encoding => .ok encoding
  | none => .error (.missingEncoding category option)

def boldItalic (styles : StyleMap) : Except SchemaError String :=
  styles.encoding fontType boldItalicOption

def categoryNames (styles : StyleMap) : List String := styles.categories.keys

instance : BEq (Table String String) := ⟨Table.agrees⟩

/-- The order of categories and options does not matter. -/
instance : BEq StyleMap where
  beq a b := a.categories.agrees b.categories && a.owners.agrees b.owners

end StyleMap

end EditorScheme
