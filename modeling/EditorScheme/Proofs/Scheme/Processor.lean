import EditorScheme.Proofs.Scheme.Reader
import EditorScheme.Proofs.Xml.Processor

/-!
Schemes in the eyes of an XML processor. What is outside its character set makes the whole document unreadable, and
white space other than blanks comes back as blanks; all else in a scheme is reported as it is.
-/
namespace EditorScheme.Scheme

open Xml

def Entry.strings (entry : Entry) : List String := [entry.name, entry.value]

def Inherited.strings (inherited : Inherited) : List String := [inherited.name, inherited.base]

def Block.strings (block : Block) : List String := block.name :: block.options.flatMap Entry.strings

def strings (scheme : Scheme) : List String :=
  [scheme.name, scheme.parentScheme, scheme.version] ++ scheme.colors.flatMap Entry.strings ++
    scheme.inherited.flatMap Inherited.strings ++ scheme.attributes.flatMap Block.strings

def Entry.mapStrings (change : String → String) (entry : Entry) : Entry := ⟨change entry.name, change entry.value⟩

def Inherited.mapStrings (change : String → String) (inherited : Inherited) : Inherited :=
  ⟨change inherited.name, change inherited.base⟩

def Block.mapStrings (change : String → String) (block : Block) : Block :=
  ⟨change block.name, block.options.map (Entry.mapStrings change)⟩

def mapStrings (change : String → String) (scheme : Scheme) : Scheme where
  name := change scheme.name
  parentScheme := change scheme.parentScheme
  version := change scheme.version
  colors := scheme.colors.map (Entry.mapStrings change)
  inherited := scheme.inherited.map (Inherited.mapStrings change)
  attributes := scheme.attributes.map (Block.mapStrings change)

theorem Entry.tag_mapStrings (change : String → String) (entry : Entry) :
    (entry.mapStrings change).tag = entry.tag.mapValues change := rfl

theorem Inherited.tag_mapStrings (change : String → String) (inherited : Inherited) :
    (inherited.mapStrings change).tag = inherited.tag.mapValues change := rfl

theorem Block.tags_mapStrings (change : String → String) (block : Block) :
    (block.mapStrings change).tags = block.tags.map (Tag.mapValues · change) := by
  unfold tags
  cases empty : block.options.isEmpty <;>
    simp [mapStrings, empty, Element.mapValues, Function.comp_def, Entry.tag_mapStrings]

theorem tags_mapStrings (change : String → String) (scheme : Scheme) :
    (scheme.mapStrings change).tags = scheme.tags.map (Tag.mapValues · change) := by
  simp [tags, mapStrings, Element.mapValues, Function.comp_def, List.flatMap_map, List.map_flatMap,
    Entry.tag_mapStrings, Inherited.tag_mapStrings, Block.tags_mapStrings]

theorem Entry.values_tag (entry : Entry) : entry.tag.values = entry.strings := rfl

theorem Inherited.values_tag (inherited : Inherited) : inherited.tag.values = inherited.strings := rfl

theorem Block.values_tags (block : Block) : block.tags.flatMap Tag.values = block.strings := by
  unfold tags
  split
  case isTrue empty => simp [strings, List.isEmpty_iff.mp empty]
  case isFalse => simp [strings, List.flatMap_map, Entry.values_tag]

theorem values_tags (scheme : Scheme) : scheme.tags.flatMap Tag.values = scheme.strings := by
  simp [tags, strings, List.flatMap_map, List.flatMap_assoc, Entry.values_tag, Inherited.values_tag,
    Block.values_tags]

theorem strings_mapStrings (change : String → String) (scheme : Scheme) :
    (scheme.mapStrings change).strings = scheme.strings.map change := by
  rw [← values_tags, ← values_tags, tags_mapStrings, List.flatMap_map, List.map_flatMap]
  simp only [Tag.values_mapValues]

theorem values_node (scheme : Scheme) : scheme.node.values = scheme.strings := by
  rw [Node.values, tags_node, values_tags]

theorem formed_tags (scheme : Scheme) : ∀ tag ∈ scheme.tags, tag.WellFormed := by
  have formed : ∀ names ∈ tagNames, (∀ name ∈ names, isXmlName name = true) ∧ names.tail.Nodup := by decide
  exact fun tag member => formed tag.names (names_tags scheme tag member)

/-- A processor refuses a scheme with a character outside its character set, and reports any other one with
its texts normalized. -/
theorem process?_toXml (scheme : Scheme)
    [Decidable (∀ text ∈ scheme.strings, ∀ c ∈ text.toList, isXmlChar c = true)] : process? scheme.toXml =
      if ∀ text ∈ scheme.strings, ∀ c ∈ text.toList, isXmlChar c = true
      then some (scheme.mapStrings reported).node else none := by
  have nested : (scheme.mapStrings reported).node.tags = scheme.tags.map (Tag.mapValues · reported) := by
    rw [tags_node, tags_mapStrings]
  rw [toXml, process?_putAll (formed_tags scheme) nested, values_tags]
  congr

theorem strings_mapStrings_eq_iff (change : String → String) (scheme : Scheme) :
    (scheme.mapStrings change).strings = scheme.strings ↔ ∀ text ∈ scheme.strings, change text = text := by
  rw [strings_mapStrings]
  constructor
  · intro same
    exact List.map_inj_left.mp (same.trans (List.map_id _).symm)
  · intro fixed
    rw [List.map_congr_left fixed, List.map_id']

theorem node_mapStrings_of_fixed {change : String → String} {scheme : Scheme}
    (fixed : ∀ text ∈ scheme.strings, change text = text) : (scheme.mapStrings change).node = scheme.node := by
  apply Node.eq_of_tags_eq
  have tagFixed : ∀ tag ∈ scheme.tags, tag.mapValues change = tag := by
    intro tag member
    apply Tag.mapValues_eq_self
    intro value valueMember
    exact fixed value (values_tags scheme ▸ List.mem_flatMap.mpr ⟨tag, member, valueMember⟩)
  rw [tags_node, tags_node, tags_mapStrings, List.map_congr_left tagFixed, List.map_id']

/-- Every character is in the character set of XML, and a blank is the only white space. -/
def Portable (scheme : Scheme) : Prop :=
  ∀ text ∈ scheme.strings, ∀ c ∈ text.toList, isXmlChar c = true ∧ c ∉ ['\t', '\n', '\r']

theorem portable_iff (scheme : Scheme) :
    scheme.Portable ↔ (∀ text ∈ scheme.strings, ∀ c ∈ text.toList, isXmlChar c = true) ∧
      ∀ text ∈ scheme.strings, reported text = text := by
  simp only [Portable, reported_eq_self_iff, forall_and]

/-- A processor reports the tree of a scheme, and even only a tree with its texts, if and only if the scheme is
portable. -/
theorem reported_unchanged_iff (scheme : Scheme) :
    (process? scheme.toXml = some scheme.node ↔ scheme.Portable) ∧
      ((∃ root, process? scheme.toXml = some root ∧ root.values = scheme.strings) ↔ scheme.Portable) := by
  have unchanged : scheme.Portable → process? scheme.toXml = some scheme.node := by
    intro portable
    obtain ⟨admitted, fixed⟩ := (portable_iff scheme).mp portable
    rw [process?_toXml, if_pos admitted, node_mapStrings_of_fixed fixed]
  have lost : ∀ root, process? scheme.toXml = some root → root.values = scheme.strings → scheme.Portable := by
    intro root read same
    rw [process?_toXml] at read
    split at read
    case isFalse => simp at read
    case isTrue admitted =>
      obtain rfl := Option.some.inj read
      rw [values_node] at same
      exact (portable_iff scheme).mpr ⟨admitted, (strings_mapStrings_eq_iff reported scheme).mp same⟩
  constructor
  · exact ⟨fun read => lost scheme.node read (values_node scheme), unchanged⟩
  · constructor
    · rintro ⟨root, read, same⟩
      exact lost root read same
    · intro portable
      exact ⟨scheme.node, unchanged portable, values_node scheme⟩

end EditorScheme.Scheme
