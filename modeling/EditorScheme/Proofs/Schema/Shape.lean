import EditorScheme.Proofs.Schema.Reading

/-!
The shape of a theme document, and what it gives. A scalar is a string, a number or a boolean without a tag. The
sections of a theme may have tags, the document itself and the definitions of attributes may not.
-/
namespace EditorScheme

theorem exists_forall₂_iff {α β : Type} {related : α → β → Prop} {list : List α} :
    (∃ others, List.Forall₂ related list others) ↔ ∀ item ∈ list, ∃ other, related item other := by
  induction list with
  | nil => simp
  | cons item list ih =>
    rw [List.forall_mem_cons, ← ih]
    constructor
    · rintro ⟨_, _ | ⟨first, rest⟩⟩
      exact ⟨⟨_, first⟩, _, rest⟩
    · rintro ⟨⟨other, first⟩, others, rest⟩
      exact ⟨other :: others, .cons first rest⟩

namespace Yaml.Value

inductive IsScalar : Value → Prop
  | string (s : String) : IsScalar (.string s)
  | number (n : Number) : IsScalar (.number n)
  | bool (b : Bool) : IsScalar (.bool b)

/-- A mapping with these entries, whatever tags it has. -/
inductive IsMapping (entries : List (Value × Value)) : Value → Prop
  | plain : IsMapping entries (.mapping entries)
  | tagged (tag : String) {value : Value} (inner : IsMapping entries value) : IsMapping entries (.tagged tag value)

variable {value : Value} {entries : List (Value × Value)}

theorem exists_scalarText?_iff : (∃ text, value.scalarText? = some text) ↔ value.IsScalar := by
  constructor
  · rintro ⟨text, found⟩
    cases value with
    | string s => exact .string s
    | number n => exact .number n
    | bool b => exact .bool b
    | _ => cases found
  · rintro ⟨⟩
    all_goals exact ⟨_, rfl⟩

theorem entries?_eq_some_iff : value.entries? = some entries ↔ value.IsMapping entries := by
  constructor
  · intro found
    fun_induction Value.entries? value with
    | case1 =>
      cases found
      exact .plain
    | case2 tag value ih => exact .tagged tag (ih found)
    | case3 => cases found
  · intro mapping
    induction mapping with
    | plain => rfl
    | tagged tag _ ih => exact ih

end Yaml.Value

def ScalarEntries (entries : Entries) : Prop := ∀ entry ∈ entries, entry.1.IsScalar ∧ entry.2.IsScalar

theorem exists_texts_iff {entries : Entries} : (∃ pairs, Texts entries pairs) ↔ ScalarEntries entries := by
  unfold Texts ScalarEntries
  rw [exists_forall₂_iff]
  refine forall₂_congr fun entry _ => ?_
  rw [Prod.exists, ← Yaml.Value.exists_scalarText?_iff, ← Yaml.Value.exists_scalarText?_iff]
  simp

def HasSection (root : Entries) (key : String) (kind : Entries → Prop) : Prop :=
  ∃ value entries, Yaml.Value.lookup key root = some value ∧ value.IsMapping entries ∧ kind entries

namespace HasSection

variable {root : Entries} {key : String}

theorem imp {kind other : Entries → Prop} (holds : HasSection root key kind)
    (change : ∀ entries, kind entries → other entries) : HasSection root key other := by
  obtain ⟨value, entries, found, mapping, kind⟩ := holds
  exact ⟨value, entries, found, mapping, change entries kind⟩

theorem exists_of {α : Type} {kind : α → Entries → Prop}
    (holds : HasSection root key fun entries => ∃ a, kind a entries) : ∃ a, HasSection root key (kind a) := by
  obtain ⟨value, entries, found, mapping, a, kind⟩ := holds
  exact ⟨a, value, entries, found, mapping, kind⟩

end HasSection

theorem exists_sectionEntries_iff {root : Entries} {key : String} {kind : Entries → Prop} :
    (∃ entries, sectionEntries root key = .ok entries ∧ kind entries) ↔ HasSection root key kind := by
  simp only [sectionEntries_eq_ok_iff, Yaml.Value.entries?_eq_some_iff]
  constructor
  · rintro ⟨entries, ⟨value, found, mapping⟩, kind⟩
    exact ⟨value, entries, found, mapping, kind⟩
  · rintro ⟨value, entries, found, mapping, kind⟩
    exact ⟨entries, ⟨value, found, mapping⟩, kind⟩

namespace Attribute

/-- An attribute is written as a scalar, or as a mapping of scalars without a tag. -/
inductive Shaped : Yaml.Value → Prop
  | foreground {value : Yaml.Value} (scalar : value.IsScalar) : Shaped value
  | options {entries : Entries} (scalars : ScalarEntries entries) : Shaped (.mapping entries)

inductive Given : Yaml.Value → Attribute → Prop
  | foreground {value : Yaml.Value} {token : String} (text : value.scalarText? = some token) :
      Given value (.foreground token)
  | options {entries : Entries} {list : List SubOption}
      (texts : Texts entries (list.map fun option => (option.name, option.condition))) :
      Given (.mapping entries) (.options list)

theorem ofValue_eq_ok_iff {name : String} {value : Yaml.Value} {definition : Attribute} :
    ofValue name value = .ok definition ↔ Given value definition := by
  constructor
  · intro ok
    unfold Attribute.ofValue at ok
    split at ok
    case h_1 entries =>
      obtain ⟨pairs, read, made⟩ := bind_eq_ok_iff.mp ok
      cases made
      exact .options (by simpa [Function.comp_def] using scalarPairs_eq_ok_iff.mp read)
    case h_2 =>
      split at ok
      case h_1 token text =>
        cases ok
        exact .foreground text
      case h_2 => cases ok
  · intro given
    cases given with
    | @foreground value token text =>
      cases value with
      | mapping => cases text
      | _ => simp [Attribute.ofValue, text]
    | options texts =>
      refine bind_eq_ok_iff.mpr ⟨_, scalarPairs_eq_ok_iff.mpr texts, ?_⟩
      simp [Function.comp_def]

theorem exists_given_iff {value : Yaml.Value} : (∃ definition, Given value definition) ↔ Shaped value := by
  constructor
  · rintro ⟨_, text | texts⟩
    · exact .foreground (Yaml.Value.exists_scalarText?_iff.mp ⟨_, text⟩)
    · exact .options (exists_texts_iff.mp ⟨_, texts⟩)
  · rintro (scalar | scalars)
    · obtain ⟨token, text⟩ := Yaml.Value.exists_scalarText?_iff.mpr scalar
      exact ⟨.foreground token, .foreground text⟩
    · obtain ⟨pairs, texts⟩ := exists_texts_iff.mpr scalars
      exact ⟨.options (pairs.map fun pair => ⟨pair.1, pair.2⟩), .options (by simpa [Function.comp_def] using texts)⟩

end Attribute

namespace Theme

def GivenEntry (entry : Yaml.Value × Yaml.Value) (named : String × Attribute) : Prop :=
  entry.1.scalarText? = some named.1 ∧ Attribute.Given entry.2 named.2

theorem attributeEntry_eq_ok_iff {entry : Yaml.Value × Yaml.Value} {named : String × Attribute} :
    attributeEntry entry = .ok named ↔ GivenEntry entry named := by
  simp only [attributeEntry, bind_eq_ok_iff, scalarText_eq_ok_iff, Attribute.ofValue_eq_ok_iff, Except.ok.injEq]
  constructor
  · rintro ⟨name, text, definition, given, rfl⟩
    exact ⟨text, given⟩
  · rintro ⟨text, given⟩
    exact ⟨named.1, text, named.2, given, rfl⟩

theorem exists_givenEntries_iff {entries : Entries} : (∃ list, List.Forall₂ GivenEntry entries list) ↔
    ∀ entry ∈ entries, entry.1.IsScalar ∧ Attribute.Shaped entry.2 := by
  rw [exists_forall₂_iff]
  refine forall₂_congr fun entry _ => ?_
  rw [Prod.exists, ← Yaml.Value.exists_scalarText?_iff, ← Attribute.exists_given_iff]
  simp [GivenEntry]

/-- The entries of a document have the shape of a theme. -/
structure Shaped (root : Entries) : Prop where
  parentScheme : ∃ value, Yaml.Value.lookup "parent-scheme" root = some value ∧ value.IsScalar
  colors : HasSection root "colors" ScalarEntries
  inheriting : HasSection root "inheriting-attributes" ScalarEntries
  attributes : HasSection root "attributes" fun entries =>
    ∀ entry ∈ entries, entry.1.IsScalar ∧ Attribute.Shaped entry.2

/-- The theme is what the sections hold, entry by entry. -/
structure Given (root : Entries) (theme : Theme) : Prop where
  parentScheme : ∃ value, Yaml.Value.lookup "parent-scheme" root = some value ∧
    value.scalarText? = some theme.parentScheme
  colors : HasSection root "colors" fun entries => Texts entries theme.colors
  inheriting : HasSection root "inheriting-attributes" fun entries => Texts entries theme.inheriting
  attributes : HasSection root "attributes" fun entries => List.Forall₂ GivenEntry entries theme.attributes

theorem ofValue_eq_ok_iff {document : Yaml.Value} {theme : Theme} :
    ofValue document = .ok theme ↔ ∃ root, document = .mapping root ∧ Given root theme := by
  cases document with
  | mapping root =>
    simp only [ofValue_mapping_eq_ok_iff, exists_sectionEntries_iff, scalarText_eq_ok_iff,
      scalarPairs_eq_ok_iff, mapM_eq_ok_iff_forall₂, attributeEntry_eq_ok_iff]
    constructor
    · rintro ⟨parentScheme, colors, inheriting, attributes⟩
      exact ⟨root, rfl, parentScheme, colors, inheriting, attributes⟩
    · rintro ⟨_, ⟨⟩, parentScheme, colors, inheriting, attributes⟩
      exact ⟨parentScheme, colors, inheriting, attributes⟩
  | _ => exact ⟨nofun, nofun⟩

theorem exists_given_iff {root : Entries} : (∃ theme, Given root theme) ↔ Shaped root := by
  constructor
  · rintro ⟨theme, ⟨parent, found, text⟩, colors, inheriting, attributes⟩
    refine ⟨⟨parent, found, Yaml.Value.exists_scalarText?_iff.mp ⟨_, text⟩⟩, ?_, ?_, ?_⟩
    · exact colors.imp fun _ texts => exists_texts_iff.mp ⟨_, texts⟩
    · exact inheriting.imp fun _ texts => exists_texts_iff.mp ⟨_, texts⟩
    · exact attributes.imp fun _ given => exists_givenEntries_iff.mp ⟨_, given⟩
  · rintro ⟨⟨parent, found, scalar⟩, colors, inheriting, attributes⟩
    obtain ⟨parentScheme, text⟩ := Yaml.Value.exists_scalarText?_iff.mpr scalar
    obtain ⟨colors, colorTexts⟩ := HasSection.exists_of (colors.imp fun _ => exists_texts_iff.mpr)
    obtain ⟨inheriting, inheritingTexts⟩ := HasSection.exists_of (inheriting.imp fun _ => exists_texts_iff.mpr)
    obtain ⟨attributes, given⟩ := HasSection.exists_of (attributes.imp fun _ => exists_givenEntries_iff.mpr)
    exact ⟨⟨parentScheme, colors, inheriting, attributes⟩, ⟨parent, found, text⟩, colorTexts, inheritingTexts, given⟩

end Theme

end EditorScheme
