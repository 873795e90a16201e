import EditorScheme.Proofs.Xml.Reader
import EditorScheme.Proofs.Xml.Tree
import EditorScheme.Scheme.Xml

/-!
Schemes read back from their XML. A scheme is a tree of elements, its text names every part of that tree,
and so no two schemes have the same text.
-/
namespace EditorScheme.Scheme

open Xml

def Entry.node (entry : Entry) : Node :=
  .leaf ⟨"option", [("name", entry.name), ("value", entry.value)]⟩

def Inherited.node (inherited : Inherited) : Node :=
  .leaf ⟨"option", [("name", inherited.name), ("baseAttributes", inherited.base)]⟩

def Block.valueNode (block : Block) : Node :=
  if block.options.isEmpty then .leaf ⟨"value", []⟩
  else .branch ⟨"value", []⟩ (block.options.map Entry.node)

def Block.node (block : Block) : Node := .branch ⟨"option", [("name", block.name)]⟩ [block.valueNode]

def node (scheme : Scheme) : Node :=
  .branch ⟨"scheme", [("name", scheme.name), ("parent_scheme", scheme.parentScheme),
      ("version", scheme.version)]⟩ [
    .branch ⟨"colors", []⟩ (scheme.colors.map Entry.node),
    .branch ⟨"attributes", []⟩
      (scheme.inherited.map Inherited.node ++ scheme.attributes.map Block.node)]

theorem Entry.flatMap_tags_node (list : List Entry) :
    (list.map Entry.node).flatMap Node.tags = list.map Entry.tag := by
  simp [List.flatMap_map, Entry.node, Node.tags, Entry.tag, ← List.map_eq_flatMap]

theorem Inherited.flatMap_tags_node (list : List Inherited) :
    (list.map Inherited.node).flatMap Node.tags = list.map Inherited.tag := by
  simp [List.flatMap_map, Inherited.node, Node.tags, Inherited.tag, ← List.map_eq_flatMap]

theorem Block.tags_node (block : Block) : block.node.tags = block.tags := by
  unfold node valueNode Block.tags
  cases empty : block.options.isEmpty with
  | true => simp [Node.tags, Node.listTags_eq_flatMap]
  | false => simp [Node.tags, Node.listTags_eq_flatMap, Entry.flatMap_tags_node]

/-- The writer goes through the tree of a scheme. -/
theorem tags_node (scheme : Scheme) : scheme.node.tags = scheme.tags := by
  have blocks (list : List Block) : (list.map Block.node).flatMap Node.tags = list.flatMap Block.tags := by
    simp [List.flatMap_map, Block.tags_node]
  simp [node, tags, Node.tags, Node.listTags_eq_flatMap, Entry.flatMap_tags_node,
    Inherited.flatMap_tags_node, blocks]

def Entry.ofNode? : Node → Option Entry
  | .leaf ⟨"option", [("name", name), ("value", value)]⟩ => some ⟨name, value⟩
  | _ => none

def Inherited.ofNode? : Node → Option Inherited
  | .leaf ⟨"option", [("name", name), ("baseAttributes", base)]⟩ => some ⟨name, base⟩
  | _ => none

def Block.optionsOf? : Node → Option (List Entry)
  | .leaf ⟨"value", []⟩ => some []
  | .branch ⟨"value", []⟩ children => children.mapM Entry.ofNode?
  | _ => none

def Block.ofNode? : Node → Option Block
  | .branch ⟨"option", [("name", name)]⟩ [value] => (optionsOf? value).map fun options => ⟨name, options⟩
  | _ => none

/-- Options that are leaves inherit, those with children are blocks. -/
def ofNode? : Node → Option Scheme
  | .branch ⟨"scheme", [("name", name), ("parent_scheme", parentScheme), ("version", version)]⟩
      [.branch ⟨"colors", []⟩ colors, .branch ⟨"attributes", []⟩ attributes] => do
    let colors ← colors.mapM Entry.ofNode?
    let inherited ← (attributes.takeWhile Node.isLeaf).mapM Inherited.ofNode?
    let blocks ← (attributes.dropWhile Node.isLeaf).mapM Block.ofNode?
    return ⟨name, parentScheme, version, colors, inherited, blocks⟩
  | _ => none

def ofXml? (text : String) : Option Scheme := do
  match ← readNodes (← readTags text) with
  | [node] => ofNode? node
  | _ => none

theorem mapM_map_eq_some {α β : Type} {write : α → β} {read? : β → Option α}
    (inverse : ∀ a, read? (write a) = some a) (list : List α) :
    (list.map write).mapM read? = some list := by
  induction list with
  | nil => rfl
  | cons a list ih => simp [inverse, ih]

theorem Entry.ofNode?_node (entry : Entry) : Entry.ofNode? entry.node = some entry := rfl

theorem Inherited.ofNode?_node (inherited : Inherited) :
    Inherited.ofNode? inherited.node = some inherited := rfl

theorem Block.ofNode?_node (block : Block) : Block.ofNode? block.node = some block := by
  have options : optionsOf? block.valueNode = some block.options := by
    unfold valueNode
    cases empty : block.options.isEmpty with
    | true => simp [optionsOf?, List.isEmpty_iff.mp empty]
    | false => simp [optionsOf?, mapM_map_eq_some Entry.ofNode?_node]
  simp [node, ofNode?, options]

theorem ofNode?_node (scheme : Scheme) : ofNode? scheme.node = some scheme := by
  have leaf : ∀ node ∈ scheme.inherited.map Inherited.node, node.isLeaf = true := by
    intro node member
    obtain ⟨inherited, -, rfl⟩ := List.mem_map.mp member
    rfl
  -- The blocks start where the leaves end.
  have branches : (scheme.attributes.map Block.node).takeWhile Node.isLeaf = [] ∧
      (scheme.attributes.map Block.node).dropWhile Node.isLeaf = scheme.attributes.map Block.node := by
    cases scheme.attributes <;> simp [Block.node, Node.isLeaf]
  have inherited := mapM_map_eq_some Inherited.ofNode?_node scheme.inherited
  have blocks := mapM_map_eq_some Block.ofNode?_node scheme.attributes
  have colors := mapM_map_eq_some Entry.ofNode?_node scheme.colors
  simp [node, ofNode?, List.takeWhile_append_of_pos leaf, List.dropWhile_append_of_pos leaf,
    branches.1, branches.2, inherited, blocks, colors]

/-- The names in the tags of schemes, those of elements before those of their attributes. -/
def tagNames : List (List String) :=
  [["scheme", "name", "parent_scheme", "version"], ["scheme"], ["colors"], ["attributes"],
    ["option", "name", "value"], ["option", "name", "baseAttributes"], ["option", "name"], ["option"], ["value"]]

/-- Only the values of attributes are free; all names are fixed. -/
theorem names_tags (scheme : Scheme) : ∀ tag ∈ scheme.tags, tag.names ∈ tagNames := by
  have entries (list : List Entry) : ∀ entry ∈ list, entry.tag.names ∈ tagNames := by
    intro entry _
    simp [Entry.tag, Tag.names, tagNames]
  have inherited : ∀ inherited ∈ scheme.inherited, inherited.tag.names ∈ tagNames := by
    intro inherited _
    simp [Inherited.tag, Tag.names, tagNames]
  have blocks : ∀ block ∈ scheme.attributes, ∀ tag ∈ block.tags, tag.names ∈ tagNames := by
    intro block _
    have option : (Tag.start ⟨"option", [("name", block.name)]⟩).names ∈ tagNames := by simp [Tag.names, tagNames]
    unfold Block.tags
    split
    · simp only [List.cons_append, List.nil_append, List.forall_mem_cons]
      exact ⟨option, by decide, by decide⟩
    · simp only [List.cons_append, List.forall_mem_cons, List.forall_mem_append, List.forall_mem_map]
      exact ⟨option, by decide, ⟨entries block.options, by decide⟩, by decide⟩
  have root : (Tag.start ⟨"scheme", [("name", scheme.name), ("parent_scheme", scheme.parentScheme),
      ("version", scheme.version)]⟩).names ∈ tagNames := by
    simp [Tag.names, tagNames]
  simp only [tags, List.cons_append, List.forall_mem_cons, List.forall_mem_append, List.forall_mem_map,
    List.forall_mem_flatMap]
  exact ⟨root, by decide, ⟨⟨⟨entries scheme.colors, by decide⟩, by decide, inherited⟩, blocks⟩, by decide⟩

theorem wellNamed_tags (scheme : Scheme) : ∀ tag ∈ scheme.tags, tag.WellNamed := by
  have plain : ∀ names ∈ tagNames, names.all isPlainName = true := by decide
  exact fun tag member => plain tag.names (names_tags scheme tag member)

/-- Reading the text of a scheme finds its tags and no others, so no value breaks out of its quotes; it
finds the whole scheme, so different schemes have different texts. -/
theorem ofXml?_toXml :
    (∀ scheme : Scheme, readTags scheme.toXml = some scheme.tags ∧ ofXml? scheme.toXml = some scheme) ∧
      Function.Injective toXml := by
  have readBack (scheme : Scheme) :
      readTags scheme.toXml = some scheme.tags ∧ ofXml? scheme.toXml = some scheme := by
    have tags := readTags_putAll scheme.tags scheme.wellNamed_tags
    refine ⟨tags, ?_⟩
    unfold ofXml? toXml
    rw [tags, ← tags_node]
    simp [readNodes_tags, ofNode?_node]
  refine ⟨readBack, fun a b same => ?_⟩
  have both := (readBack a).2
  rw [same, (readBack b).2] at both
  exact (Option.some.inj both).symm

end EditorScheme.Scheme
