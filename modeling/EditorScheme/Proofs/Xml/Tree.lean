import EditorScheme.Scheme.Xml

/-!
Trees of XML elements. The tags of a tree are nested, and a stack of open elements finds the tree again.
-/
namespace EditorScheme.Xml

/-- A leaf is written as a single tag, a branch as start and end even without children. -/
inductive Node
  | leaf (element : Element)
  | branch (element : Element) (children : List Node)

namespace Node

mutual

def tags : Node → List Tag
  | leaf element => [.single element]
  | branch element children => .start element :: listTags children ++ [.finish element.name]

def listTags : List Node → List Tag
  | [] => []
  | node :: nodes => node.tags ++ listTags nodes

end

theorem listTags_eq_flatMap (nodes : List Node) : listTags nodes = nodes.flatMap tags := by
  induction nodes with
  | nil => rfl
  | cons node nodes ih => rw [listTags, ih, List.flatMap_cons]

def isLeaf : Node → Bool
  | leaf _ => true
  | branch _ _ => false

end Node

/-- The nodes read so far inside the innermost open element, and the open elements around them, innermost
first, each with the nodes before it. -/
structure Nesting where
  nodes : List Node
  around : List (Element × List Node)

namespace Nesting

def put (s : Nesting) : Tag → Option Nesting
  | .single element => some { s with nodes := s.nodes ++ [.leaf element] }
  | .start element => some ⟨[], (element, s.nodes) :: s.around⟩
  | .finish name =>
    match s.around with
    | [] => none
    | (element, before) :: around =>
      if element.name = name then some ⟨before ++ [.branch element s.nodes], around⟩ else none

def putAll (s : Nesting) (tags : List Tag) : Option Nesting := tags.foldlM put s

theorem putAll_append (s : Nesting) (a b : List Tag) :
    s.putAll (a ++ b) = (s.putAll a).bind fun s => s.putAll b := List.foldlM_append

theorem putAll_cons (s : Nesting) (tag : Tag) (tags : List Tag) :
    s.putAll (tag :: tags) = (s.put tag).bind fun s => s.putAll tags := List.foldlM_cons

mutual

/-- The tags of a tree add the tree, and leave all that is open as it was. -/
theorem putAll_tags (node : Node) (s : Nesting) :
    s.putAll node.tags = some { s with nodes := s.nodes ++ [node] } := by
  cases node with
  | leaf element => rfl
  | branch element children =>
    rw [Node.tags, List.cons_append, putAll_cons, put, Option.bind_some, putAll_append,
      putAll_listTags children, Option.bind_some]
    simp [putAll, put]

theorem putAll_listTags (nodes : List Node) (s : Nesting) :
    s.putAll (Node.listTags nodes) = some { s with nodes := s.nodes ++ nodes } := by
  cases nodes with
  | nil => simp [Node.listTags, putAll]
  | cons node nodes =>
    rw [Node.listTags, putAll_append, putAll_tags node, Option.bind_some, putAll_listTags nodes]
    simp

end

end Nesting

def readNodes (tags : List Tag) : Option (List Node) :=
  match Nesting.putAll ⟨[], []⟩ tags with
  | some ⟨nodes, []⟩ => some nodes
  | _ => none

theorem readNodes_tags (node : Node) : readNodes node.tags = some [node] := by
  rw [readNodes, Nesting.putAll_tags]
  rfl

theorem Node.eq_of_tags_eq {a b : Node} (same : a.tags = b.tags) : a = b := by
  have read := readNodes_tags a
  rw [same, readNodes_tags b] at read
  simpa using read.symm

end EditorScheme.Xml
