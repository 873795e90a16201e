import EditorScheme.Proofs.Scheme.Reader

/-!
XML laid out by the depth of its elements. A tree is printed recursively, each tag on a line of its own that is
indented by the depth of its element. A writer sees the tags one after the other and no tree; it knows only how many
elements are open, and whether it has begun. For the tags of a tree, and so for a scheme, it writes what is printed.
-/
namespace EditorScheme

namespace Xml

def printTag (depth : Nat) (tag : Tag) : String :=
  String.join (List.replicate depth "  ") ++ tag.text ++ "\n"

namespace Node

mutual

/-- A branch has its end below its start, and everything inside it one level deeper between them. -/
def print (depth : Nat) : Node → String
  | leaf element => printTag depth (.single element)
  | branch element children =>
    printTag depth (.start element) ++ printAll (depth + 1) children ++ printTag depth (.finish element.name)

def printAll (depth : Nat) : List Node → String
  | [] => ""
  | node :: nodes => node.print depth ++ printAll depth nodes

end

end Node

theorem toList_join_replicate (depth : Nat) :
    (String.join (List.replicate depth "  ")).toList = List.replicate (2 * depth) ' ' := by
  induction depth with
  | zero => rfl
  | succ depth ih =>
    rw [List.replicate_succ, String.join_cons, String.toList_append, ih, Nat.mul_succ]
    rfl

theorem indentation_eq (depth : Nat) : Writer.indentation depth = String.join (List.replicate depth "  ") := by
  rw [Writer.indentation, ← toList_join_replicate, String.ofList_toList]

namespace Writer

variable {w : Writer} {tag : Tag} {nesting after : Nesting}

/-- What has been written, with the last line ended. -/
def ended (w : Writer) : String := if w.begun then w.text ++ "\n" else w.text

/-- The depth at which a tag is written: an end stands where its start stood. -/
def depthOf (w : Writer) : Tag → Nat
  | .finish _ => w.depth - 1
  | _ => w.depth

def Outermost (w : Writer) : Prop := w.begun = false → w.depth = 0

theorem outermost_of_begun (begun : w.begun = true) : w.Outermost := fun fresh => by simp [begun] at fresh

theorem begun_put (w : Writer) (tag : Tag) : (w.put tag).begun = true := by
  cases tag <;> rfl

theorem ended_put (outermost : w.Outermost) (tag : Tag) :
    (w.put tag).ended = w.ended ++ printTag (w.depthOf tag) tag := by
  have gap : w.text ++ w.gap tag = w.ended ++ String.join (List.replicate (w.depthOf tag) "  ") := by
    cases begun : w.begun with
    | true => cases tag <;> simp [Writer.gap, depthOf, ended, begun, indentation_eq, String.append_assoc]
    | false =>
      have level : w.depthOf tag = 0 := by cases tag <;> simp [depthOf, outermost begun]
      simp [Writer.gap, ended, begun, level]
  rw [ended, if_pos (begun_put w tag), text_put, gap, printTag]
  simp only [String.append_assoc]

theorem depth_finish (w : Writer) (name : String) : (w.put (.finish name)).depth = w.depth - 1 := rfl

@[simp] theorem putAll_nil (w : Writer) : w.putAll [] = w := rfl

theorem putAll_cons (w : Writer) (tag : Tag) (tags : List Tag) : w.putAll (tag :: tags) = (w.put tag).putAll tags := rfl

theorem putAll_append (w : Writer) (first second : List Tag) :
    w.putAll (first ++ second) = (w.putAll first).putAll second := List.foldl_append

/-- The writer has added lines, and stands at the depth at which it stood before. -/
structure Adds (w after : Writer) (lines : String) : Prop where
  ended : after.ended = w.ended ++ lines
  depth : after.depth = w.depth
  outermost : after.Outermost

mutual

/-- The writer follows the tree without seeing it: one case for each kind of element. -/
theorem adds_tags (node : Node) {w : Writer} (outermost : w.Outermost) :
    w.Adds (w.putAll node.tags) (node.print w.depth) := by
  cases node with
  | leaf element => exact ⟨ended_put outermost (.single element), rfl, outermost_of_begun rfl⟩
  | branch element children =>
    have start : (w.put (.start element)).ended = w.ended ++ printTag w.depth (.start element) :=
      ended_put outermost (.start element)
    have inside : (w.put (.start element)).Adds ((w.put (.start element)).putAll (Node.listTags children))
        (Node.printAll (w.depth + 1) children) :=
      adds_listTags children (outermost_of_begun (begun_put w (.start element)))
    have finish := ended_put inside.outermost (.finish element.name)
    -- The end goes back to the depth of the start because everything inside did.
    have level : ((w.put (.start element)).putAll (Node.listTags children)).depth = w.depth + 1 := inside.depth
    rw [depthOf, level, Nat.add_sub_cancel] at finish
    rw [Node.tags, List.cons_append, putAll_cons, putAll_append, putAll_cons, putAll_nil]
    refine ⟨?_, ?_, outermost_of_begun (begun_put _ _)⟩
    · rw [finish, inside.ended, start, Node.print]
      simp only [String.append_assoc]
    · rw [depth_finish, level, Nat.add_sub_cancel]

theorem adds_listTags (nodes : List Node) {w : Writer} (outermost : w.Outermost) :
    w.Adds (w.putAll (Node.listTags nodes)) (Node.printAll w.depth nodes) := by
  cases nodes with
  | nil => exact ⟨by simp [Node.listTags, Node.printAll], rfl, outermost⟩
  | cons node nodes =>
    have first := adds_tags node outermost
    have others := adds_listTags nodes first.outermost
    rw [Node.listTags, putAll_append]
    refine ⟨?_, others.depth.trans first.depth, others.outermost⟩
    rw [others.ended, first.ended, first.depth, Node.printAll, String.append_assoc]

end

theorem text_putAll_tags (node : Node) : (empty.putAll node.tags).text ++ "\n" = node.print 0 := by
  have adds := adds_tags node (w := empty) fun _ => rfl
  have begun : (empty.putAll node.tags).begun = true := by
    cases node with
    | leaf element => rfl
    | branch element children =>
      rw [Node.tags, putAll_append, putAll_cons, putAll_nil]
      exact begun_put _ _
  have ended := adds.ended
  rw [Writer.ended, if_pos begun] at ended
  simpa [Writer.ended, empty] using ended

/-- The depth of a writer is the number of open elements. -/
theorem depth_put (level : w.depth = nesting.around.length) (nests : nesting.put tag = some after) :
    (w.put tag).depth = after.around.length := by
  cases tag with
  | single element =>
    cases nests
    exact level
  | start element =>
    cases nests
    exact congrArg (· + 1) level
  | finish name =>
    cases open_ : nesting.around with
    | nil => simp [Nesting.put, open_] at nests
    | cons innermost around =>
      simp only [Nesting.put, open_, Option.ite_none_right_eq_some] at nests
      cases nests.2
      rw [depth_finish, level, open_, List.length_cons, Nat.add_sub_cancel]

theorem depth_putAll {tags : List Tag} (level : w.depth = nesting.around.length)
    (nests : nesting.putAll tags = some after) : (w.putAll tags).depth = after.around.length := by
  induction tags generalizing w nesting with
  | nil =>
    cases nests
    exact level
  | cons tag tags ih =>
    rw [Nesting.putAll_cons] at nests
    obtain ⟨middle, first, others⟩ := Option.bind_eq_some_iff.mp nests
    exact ih (depth_put level first) others

/-- After each tag of a tree the depth is the number of elements that are open there. -/
theorem exists_nesting {node : Node} {before rest : List Tag} (split : node.tags = before ++ rest) :
    ∃ nesting, Nesting.putAll ⟨[], []⟩ before = some nesting ∧
      (empty.putAll before).depth = nesting.around.length := by
  have whole := Nesting.putAll_tags node ⟨[], []⟩
  rw [split, Nesting.putAll_append] at whole
  obtain ⟨nesting, nests, -⟩ := Option.bind_eq_some_iff.mp whole
  exact ⟨nesting, nests, depth_putAll rfl nests⟩

end Writer

end Xml

namespace Scheme

open Xml

/-- The text of a scheme is its tree printed recursively. It starts with the tag of the scheme, without a declaration
before it, and ends with a single line break behind the end of the scheme. Wherever the writer is, it stands as deep as
there are open elements. -/
theorem toXml_eq_print (scheme : Scheme) :
    scheme.toXml = scheme.node.print 0 ∧
    (∃ inside, scheme.toXml = "<scheme name=\"" ++ inside ++ "</scheme>\n") ∧
    ∀ before rest, scheme.tags = before ++ rest → ∃ nesting, Nesting.putAll ⟨[], []⟩ before = some nesting ∧
      (Writer.empty.putAll before).depth = nesting.around.length := by
  have printed : scheme.toXml = scheme.node.print 0 := by
    rw [toXml, ← tags_node, Writer.text_putAll_tags]
  refine ⟨printed, ?_, fun before rest split => Writer.exists_nesting (tags_node scheme ▸ split)⟩
  obtain ⟨children, tree⟩ : ∃ children, scheme.node = .branch ⟨"scheme", [("name", scheme.name),
      ("parent_scheme", scheme.parentScheme), ("version", scheme.version)]⟩ children := ⟨_, rfl⟩
  have start : printTag 0 (.start ⟨"scheme", [("name", scheme.name), ("parent_scheme", scheme.parentScheme),
      ("version", scheme.version)]⟩) = "<scheme name=\"" ++ (escape scheme.name ++ "\"" ++
        Element.attributeText ("parent_scheme", scheme.parentScheme) ++
        Element.attributeText ("version", scheme.version) ++ ">\n") := by
    simp [printTag, Tag.text, Element.text, Element.attributeText, ← String.toList_inj]
  have finish : printTag 0 (.finish "scheme") = "</scheme>\n" := by decide
  rw [printed, tree, Node.print, finish, start]
  exact ⟨_, congrArg (· ++ "</scheme>\n") String.append_assoc⟩

/-- Sections are printed on two lines when there is nothing in them, and the value of a block without options on one. -/
example : toXml ⟨"X", "Darcula", "142", [], [⟨"TEXT", "KEYWORD"⟩],
      [⟨"EMPTY", []⟩, ⟨"KEYWORD", [⟨"FOREGROUND", "c678dd"⟩]⟩]⟩ =
    "<scheme name=\"X\" parent_scheme=\"Darcula\" version=\"142\">\n" ++
    "  <colors>\n" ++
    "  </colors>\n" ++
    "  <attributes>\n" ++
    "    <option name=\"TEXT\" baseAttributes=\"KEYWORD\"/>\n" ++
    "    <option name=\"EMPTY\">\n" ++
    "      <value/>\n" ++
    "    </option>\n" ++
    "    <option name=\"KEYWORD\">\n" ++
    "      <value>\n" ++
    "        <option name=\"FOREGROUND\" value=\"c678dd\"/>\n" ++
    "      </value>\n" ++
    "    </option>\n" ++
    "  </attributes>\n" ++
    "</scheme>\n" := by decide +kernel

end Scheme

end EditorScheme
