import EditorScheme.Scheme

/-!
Schemes as XML. A document is written tag by tag, every tag on a line of its own, indented by two spaces for each element
that is open around it. An attribute that has its value from another one is a single tag, a block of options encloses
its value.
-/
namespace EditorScheme

namespace Xml

/-- The entity that stands for a character with a meaning in XML, or the character itself. -/
def escapeChar : Char → List Char
  | '<' => "&lt;".toList
  | '>' => "&gt;".toList
  | '&' => "&amp;".toList
  | '\'' => "&apos;".toList
  | '"' => "&quot;".toList
  | c => [c]

def escape (text : String) : String := String.ofList (text.toList.flatMap escapeChar)

structure Element where
  name : String
  attributes : List (String × String)
deriving DecidableEq, Repr

namespace Element

def attributeText (pair : String × String) : String :=
  " " ++ pair.1 ++ "=\"" ++ escape pair.2 ++ "\""

/-- The name and the attributes, without the brackets of the tag. -/
def text (element : Element) : String :=
  element.attributes.foldl (fun text pair => text ++ attributeText pair) element.name

end Element

inductive Tag
  | start (element : Element)
  | finish (name : String)
  /-- A start and an end in one tag. -/
  | single (element : Element)
deriving DecidableEq, Repr

structure Writer where
  text : String
  depth : Nat
  /-- Whether a tag has been written, after which the next one starts a new line. -/
  begun : Bool

namespace Writer

def empty : Writer := ⟨"", 0, false⟩

def indentation (depth : Nat) : String := String.ofList (List.replicate (2 * depth) ' ')

def line (w : Writer) (text : String) : Writer :=
  { w with
    text := w.text ++ (if w.begun then "\n" ++ indentation w.depth else "") ++ text
    begun := true }

def put (w : Writer) : Tag → Writer
  | .start element =>
    let w := w.line ("<" ++ element.text ++ ">")
    { w with depth := w.depth + 1 }
  | .finish name => { w with depth := w.depth - 1 }.line ("</" ++ name ++ ">")
  | .single element => w.line ("<" ++ element.text ++ "/>")

def putAll (w : Writer) (tags : List Tag) : Writer := tags.foldl put w

end Writer

end Xml

namespace Scheme

open Xml

def Entry.tag (entry : Entry) : Tag :=
  .single ⟨"option", [("name", entry.name), ("value", entry.value)]⟩

def Inherited.tag (inherited : Inherited) : Tag :=
  .single ⟨"option", [("name", inherited.name), ("baseAttributes", inherited.base)]⟩

/-- Without options the value is a single tag. -/
def Block.tags (block : Block) : List Tag :=
  .start ⟨"option", [("name", block.name)]⟩ ::
    (if block.options.isEmpty then [.single ⟨"value", []⟩]
      else .start ⟨"value", []⟩ :: block.options.map Entry.tag ++ [.finish "value"]) ++
    [.finish "option"]

def tags (scheme : Scheme) : List Tag :=
  .start ⟨"scheme", [("name", scheme.name), ("parent_scheme", scheme.parentScheme),
      ("version", scheme.version)]⟩ ::
    .start ⟨"colors", []⟩ :: scheme.colors.map Entry.tag ++ [.finish "colors"] ++
    .start ⟨"attributes", []⟩ :: scheme.inherited.map Inherited.tag ++
    scheme.attributes.flatMap Block.tags ++
    [.finish "attributes", .finish "scheme"]

def toXml (scheme : Scheme) : String := (Writer.empty.putAll scheme.tags).text ++ "\n"

end Scheme

end EditorScheme
