/-!
The tokens of YAML text, and the nodes of a document as they are written: scalars are still texts, and an alias is a
reference to the node with its number. What is wrong with a text that is no document.
-/
namespace EditorScheme.Yaml

inductive Token
  | version (major minor : Nat)
  | tagHandle (handle : String) (expansion : List UInt8)
  | documentStart
  | documentEnd
  | blockSequenceStart
  | blockMappingStart
  | blockEnd
  | flowSequenceStart
  | flowSequenceEnd
  | flowMappingStart
  | flowMappingEnd
  | blockEntry
  | flowEntry
  | key
  | value
  | alias (name : String)
  | anchor (name : String)
  /-- A tag as a handle and the rest of it; without a handle the rest is the whole tag. -/
  | tag (handle : String) (rest : List UInt8)
  | scalar (text : String) (plain : Bool)
deriving DecidableEq, Repr

/-- What may stand before a node. The tag is written out in full. -/
structure Properties where
  anchor : Option Nat
  tag : Option (List UInt8)
deriving DecidableEq, Repr

def Properties.none : Properties := ⟨.none, .none⟩

def Properties.isNone (p : Properties) : Bool := p.anchor.isNone && p.tag.isNone

inductive Node
  | alias (number : Nat)
  | scalar (properties : Properties) (text : String) (plain : Bool)
  | sequence (properties : Properties) (items : List Node)
  | mapping (properties : Properties) (entries : List (Node × Node))

namespace Node

def absent : Node := .scalar .none "" true

mutual

/-- The number of scalars, aliases, and starts and ends of collections. -/
def eventCount : Node → Nat
  | .alias _ => 1
  | .scalar .. => 1
  | .sequence _ items => 2 + eventCountItems items
  | .mapping _ entries => 2 + eventCountEntries entries

def eventCountItems : List Node → Nat
  | [] => 0
  | item :: rest => item.eventCount + eventCountItems rest

def eventCountEntries : List (Node × Node) → Nat
  | [] => 0
  | (key, value) :: rest => key.eventCount + value.eventCount + eventCountEntries rest

end

def withAnchor (properties : Properties) (node : Node) : List (Nat × Node) :=
  match properties.anchor with
  | some number => [(number, node)]
  | none => []

mutual

/-- The nodes that have an anchor, in the order in which they start. -/
def anchored : Node → List (Nat × Node)
  | .alias _ => []
  | .scalar p text plain => withAnchor p (.scalar p text plain)
  | .sequence p items => withAnchor p (.sequence p items) ++ anchoredItems items
  | .mapping p entries => withAnchor p (.mapping p entries) ++ anchoredEntries entries

def anchoredItems : List Node → List (Nat × Node)
  | [] => []
  | item :: rest => item.anchored ++ anchoredItems rest

def anchoredEntries : List (Node × Node) → List (Nat × Node)
  | [] => []
  | (key, value) :: rest => key.anchored ++ value.anchored ++ anchoredEntries rest

end

end Node

inductive Error
  | forbiddenCharacter
  | unexpectedCharacter
  | misplacedTab
  | misplacedIndicator
  | unfinishedKey
  | malformedDirective
  | repeatedDirective
  | unsupportedVersion
  | malformedAnchor
  | malformedTag
  | undefinedTagHandle
  | malformedBlockHeader
  | malformedEscape
  | unclosedQuote
  | unexpectedToken
  | severalDocuments
  | unknownAlias
  | tooManyRepetitions
  | nestedTooDeeply
  | duplicateKey
  | integerOutOfRange
  | contradictsTag
  /-- The bound on the number of steps was reached; it exceeds what any text needs. -/
  | stepBound
deriving DecidableEq, Repr

namespace Error

def message : Error → String
  | forbiddenCharacter => "control characters are not allowed"
  | unexpectedCharacter => "found character that cannot start any token"
  | misplacedTab => "found a tab character where indentation is expected"
  | misplacedIndicator => "entries, keys and values are not allowed in this context"
  | unfinishedKey => "could not find expected ':'"
  | malformedDirective => "malformed directive"
  | repeatedDirective => "found duplicate directive"
  | unsupportedVersion => "found incompatible YAML document"
  | malformedAnchor => "malformed anchor or alias"
  | malformedTag => "malformed tag"
  | undefinedTagHandle => "found undefined tag handle"
  | malformedBlockHeader => "malformed block scalar header"
  | malformedEscape => "found unknown escape character"
  | unclosedQuote => "quoted scalar does not end"
  | unexpectedToken => "found an entry that cannot stand here"
  | severalDocuments => "expected a single document"
  | unknownAlias => "unknown anchor"
  | tooManyRepetitions => "repetition limit exceeded"
  | nestedTooDeeply => "recursion limit exceeded"
  | duplicateKey => "duplicate entry"
  | integerOutOfRange => "integer out of range"
  | contradictsTag => "scalar does not have the type of its tag"
  | stepBound => "text too long"

end Error

end EditorScheme.Yaml
