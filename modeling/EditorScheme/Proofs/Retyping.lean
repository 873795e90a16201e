import EditorScheme.Proofs.Palette
import EditorScheme.Proofs.StyleMap
import EditorScheme.Proofs.Yaml.Retyping
import EditorScheme.Scheme.Xml

/-!
How a scalar is typed does not matter. Palettes, style maps and themes are read from the texts of scalars alone, so
documents in which scalars have other types are accepted or refused alike, and give the same schemes.
-/
namespace EditorScheme

open Yaml (Value)
open Yaml.Value (Retyped RetypedEntry)

/-- Items that are changed into others keep their results, if each of them does. -/
theorem forall₂_of_changed {α β : Type} {changed : α → α → Prop} {result : α → β → Prop} {as bs : List α}
    {results : List β} (kept : ∀ a b r, changed a b → result a r → result b r)
    (changes : List.Forall₂ changed as bs) (given : List.Forall₂ result as results) :
    List.Forall₂ result bs results := by
  induction changes generalizing results with
  | nil => exact given
  | cons change _ ih =>
    obtain _ | ⟨first, rest⟩ := given
    exact .cons (kept _ _ _ change first) (ih rest)

variable {as bs : Entries} {a b : Value} {entry other : Value × Value}

theorem Texts.retyped {pairs : List (String × String)} (texts : Texts as pairs)
    (entries : List.Forall₂ RetypedEntry as bs) : Texts bs pairs := by
  refine forall₂_of_changed (fun entry other pair retyped => ?_) entries texts
  obtain ⟨key, value⟩ := retyped
  rw [key.scalarText?_eq, value.scalarText?_eq]
  exact id

theorem HasSection.retyped {key : String} {kind : Entries → Prop} (holds : HasSection as key kind)
    (kept : ∀ es fs, List.Forall₂ RetypedEntry es fs → kind es → kind fs)
    (entries : List.Forall₂ RetypedEntry as bs) : HasSection bs key kind := by
  obtain ⟨value, within, found, mapping, given⟩ := holds
  obtain ⟨other, foundOther, retyped⟩ := RetypedEntry.exists_lookup entries found
  obtain ⟨others, mappingOther, changes⟩ := retyped.exists_isMapping mapping
  exact ⟨other, others, foundOther, mappingOther, kept within others changes given⟩

theorem Attribute.Given.retyped {definition : Attribute} (given : Attribute.Given a definition)
    (retyped : Retyped .value a b) : Attribute.Given b definition := by
  cases given with
  | foreground text => exact .foreground (retyped.scalarText?_eq ▸ text)
  | options texts =>
    obtain ⟨others, rfl, entries⟩ := retyped.exists_mapping
    exact .options (texts.retyped entries)

theorem Theme.GivenEntry.retyped {named : String × Attribute} (given : Theme.GivenEntry entry named)
    (retyped : RetypedEntry entry other) : Theme.GivenEntry other named := by
  obtain ⟨key, value⟩ := retyped
  obtain ⟨name, definition⟩ := given
  exact ⟨key.scalarText?_eq ▸ name, definition.retyped value⟩

theorem Theme.Given.retyped {theme : Theme} (given : Theme.Given as theme)
    (entries : List.Forall₂ RetypedEntry as bs) : Theme.Given bs theme := by
  obtain ⟨⟨parent, found, text⟩, colors, inheriting, attributes⟩ := given
  refine ⟨?_, ?_, ?_, ?_⟩
  · obtain ⟨other, foundOther, retyped⟩ := RetypedEntry.exists_lookup entries found
    exact ⟨other, foundOther, retyped.scalarText?_eq ▸ text⟩
  · exact colors.retyped (fun _ _ changes texts => Texts.retyped texts changes) entries
  · exact inheriting.retyped (fun _ _ changes texts => Texts.retyped texts changes) entries
  · exact attributes.retyped
      (fun _ _ => forall₂_of_changed fun _ _ _ change given => Theme.GivenEntry.retyped given change) entries

theorem StyleMap.CategoryLists.retyped {listed : List (String × String × String)}
    (lists : StyleMap.CategoryLists entry listed) (retyped : RetypedEntry entry other) :
    StyleMap.CategoryLists other listed := by
  obtain ⟨category, options, pairs, name, found, texts, rfl⟩ := lists
  obtain ⟨key, value⟩ := retyped
  obtain ⟨others, mapping, entries⟩ := value.exists_isMapping (Yaml.Value.entries?_eq_some_iff.mp found)
  exact ⟨category, others, pairs, key.scalarText?_eq ▸ name, Yaml.Value.entries?_eq_some_iff.mpr mapping,
    Texts.retyped texts entries, rfl⟩

theorem StyleMap.Lists.retyped {listed : List (String × String × String)} (lists : StyleMap.Lists as listed)
    (entries : List.Forall₂ RetypedEntry as bs) : StyleMap.Lists bs listed := by
  obtain ⟨parts, each, rfl⟩ := lists
  exact ⟨parts, forall₂_of_changed (fun _ _ _ change lists => lists.retyped change) entries each, rfl⟩

section Documents

variable {name : String} {palette : Palette} {styles : StyleMap} {theme : Theme}

theorem Palette.ofValue_retyped (read : ofValue name a = .ok palette) (retyped : Retyped .value a b) :
    ofValue name b = .ok palette := by
  obtain ⟨root, pairs, rfl, texts, made⟩ := ofValue_eq_ok_iff.mp read
  obtain ⟨other, rfl, entries⟩ := retyped.exists_mapping
  exact ofValue_eq_ok_iff.mpr ⟨other, pairs, rfl, texts.retyped entries, made⟩

theorem StyleMap.ofValue_retyped (read : ofValue a = .ok styles) (retyped : Retyped .value a b) :
    ofValue b = .ok styles := by
  obtain ⟨root, listed, rfl, lists, made⟩ := ofValue_eq_ok_iff.mp read
  obtain ⟨other, rfl, entries⟩ := retyped.exists_mapping
  exact ofValue_eq_ok_iff.mpr ⟨other, listed, rfl, lists.retyped entries, made⟩

theorem Theme.ofValue_retyped (read : ofValue a = .ok theme) (retyped : Retyped .value a b) :
    ofValue b = .ok theme := by
  obtain ⟨root, rfl, given⟩ := ofValue_eq_ok_iff.mp read
  obtain ⟨other, rfl, entries⟩ := retyped.exists_mapping
  exact ofValue_eq_ok_iff.mpr ⟨other, rfl, given.retyped entries⟩

end Documents

/-- The texts stand for the same document, but for the types of scalars. -/
def RetypedText (text other : String) : Prop :=
  ∃ a b, readValue text = .ok a ∧ readValue other = .ok b ∧ Retyped .value a b

/-- Whether both texts are documents that are seen to be retyped. -/
def retypesText (text other : String) : Bool :=
  match readValue text, readValue other with
  | .ok a, .ok b => Yaml.Value.retypes .value a b
  | _, _ => false

theorem RetypedText.of_retypesText {text other : String} (seen : retypesText text other = true) :
    RetypedText text other := by
  unfold retypesText at seen
  split at seen
  case h_1 a b first second => exact ⟨a, b, first, second, Yaml.Value.retyped_of_retypes.1 .value a b seen⟩
  case h_2 => cases seen

structure Sources where
  palette : String
  styles : String
  theme : String

namespace Sources

def scheme (sources : Sources) (paletteName : String) (italic : Bool) (name : String) : Except SchemaError String := do
  let palette ← Palette.ofYaml paletteName sources.palette
  let styles ← StyleMap.ofYaml sources.styles
  let theme ← Theme.ofYaml sources.theme
  let scheme ← theme.assemble palette styles italic name
  .ok scheme.toXml

structure Retyped (sources others : Sources) : Prop where
  palette : RetypedText sources.palette others.palette
  styles : RetypedText sources.styles others.styles
  theme : RetypedText sources.theme others.theme

end Sources

/-- What a scalar may be typed as, it may be typed back from, so one direction is enough. -/
theorem ok_iff_of_retyped {α : Type} {parse : Value → Except SchemaError α} {made : α}
    (kept : ∀ a b, parse a = .ok made → Retyped .value a b → parse b = .ok made) (retyped : Retyped .value a b) :
    parse a = .ok made ↔ parse b = .ok made :=
  ⟨fun read => kept a b read retyped, fun read => kept b a read retyped.symm⟩

theorem ofValue_iff_of_retyped (retyped : Retyped .value a b) :
    (∀ name palette, Palette.ofValue name a = .ok palette ↔ Palette.ofValue name b = .ok palette) ∧
    (∀ styles, StyleMap.ofValue a = .ok styles ↔ StyleMap.ofValue b = .ok styles) ∧
    ∀ theme, Theme.ofValue a = .ok theme ↔ Theme.ofValue b = .ok theme := by
  refine ⟨fun name palette => ?_, fun styles => ?_, fun theme => ?_⟩
  · exact ok_iff_of_retyped (fun _ _ => Palette.ofValue_retyped) retyped
  · exact ok_iff_of_retyped (fun _ _ => StyleMap.ofValue_retyped) retyped
  · exact ok_iff_of_retyped (fun _ _ => Theme.ofValue_retyped) retyped

theorem ofYaml_iff_of_retyped {text other : String} (retyped : RetypedText text other) :
    (∀ name palette, Palette.ofYaml name text = .ok palette ↔ Palette.ofYaml name other = .ok palette) ∧
    (∀ styles, StyleMap.ofYaml text = .ok styles ↔ StyleMap.ofYaml other = .ok styles) ∧
    ∀ theme, Theme.ofYaml text = .ok theme ↔ Theme.ofYaml other = .ok theme := by
  obtain ⟨a, b, first, second, retyped⟩ := retyped
  obtain ⟨palettes, styleMaps, themes⟩ := ofValue_iff_of_retyped retyped
  simp only [Palette.ofYaml, StyleMap.ofYaml, Theme.ofYaml, first, second]
  exact ⟨palettes, styleMaps, themes⟩

theorem Sources.scheme_iff_of_retyped {sources others : Sources} (retyped : Retyped sources others)
    (paletteName : String) (italic : Bool) (name text : String) :
    sources.scheme paletteName italic name = .ok text ↔ others.scheme paletteName italic name = .ok text := by
  have palettes := (ofYaml_iff_of_retyped retyped.palette).1
  have styleMaps := (ofYaml_iff_of_retyped retyped.styles).2.1
  have themes := (ofYaml_iff_of_retyped retyped.theme).2.2
  simp only [scheme, bind_eq_ok_iff, palettes, styleMaps, themes]

/-- Documents that differ in the types of scalars alone are accepted alike and are read as the same palette, the same
style map and the same theme. Schemes that are made from them have the same text. -/
theorem read_alike_of_retyped :
    (∀ a b, Retyped .value a b →
      (∀ name palette, Palette.ofValue name a = .ok palette ↔ Palette.ofValue name b = .ok palette) ∧
      (∀ styles, StyleMap.ofValue a = .ok styles ↔ StyleMap.ofValue b = .ok styles) ∧
      ∀ theme, Theme.ofValue a = .ok theme ↔ Theme.ofValue b = .ok theme) ∧
    (∀ text other, RetypedText text other →
      (∀ name palette, Palette.ofYaml name text = .ok palette ↔ Palette.ofYaml name other = .ok palette) ∧
      (∀ styles, StyleMap.ofYaml text = .ok styles ↔ StyleMap.ofYaml other = .ok styles) ∧
      ∀ theme, Theme.ofYaml text = .ok theme ↔ Theme.ofYaml other = .ok theme) ∧
    ∀ sources others, Sources.Retyped sources others → ∀ paletteName italic name text,
      sources.scheme paletteName italic name = .ok text ↔ others.scheme paletteName italic name = .ok text :=
  ⟨fun _ _ => ofValue_iff_of_retyped, fun _ _ => ofYaml_iff_of_retyped,
    fun _ _ => Sources.scheme_iff_of_retyped⟩

def typedSources : Sources where
  palette := "accent: 10\n"
  styles := "font-type:\n  bold: 1\n"
  theme := "parent-scheme: 3\ncolors: \x7b\x7d\ninheriting-attributes:\n  A: 2\nattributes:\n  B:\n    bold: true\n  C: 7\n"

def quotedSources : Sources where
  palette := "accent: '10'\n"
  styles := "font-type:\n  bold: '1'\n"
  theme := "parent-scheme: '3'\ncolors: \x7b\x7d\ninheriting-attributes:\n  A: '2'\n" ++
    "attributes:\n  B:\n    bold: 'true'\n  C: '7'\n"

theorem read_alike_quotedSources : Sources.Retyped typedSources quotedSources ∧
    ∃ text, typedSources.scheme "normal" false "Sample" = .ok text ∧
      quotedSources.scheme "normal" false "Sample" = .ok text := by
  have retyped : Sources.Retyped typedSources quotedSources :=
    ⟨.of_retypesText (by decide +kernel), .of_retypesText (by decide +kernel), .of_retypesText (by decide +kernel)⟩
  have made : (typedSources.scheme "normal" false "Sample").toOption.isSome = true := by decide +kernel
  obtain ⟨text, answer⟩ := Option.isSome_iff_exists.mp made
  have typed := eq_ok_of_toOption answer
  have alike := read_alike_of_retyped.2.2 typedSources quotedSources retyped
  exact ⟨retyped, text, typed, (alike "normal" false "Sample" text).mp typed⟩

end EditorScheme
