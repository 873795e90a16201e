import EditorScheme.Yaml.Grammar
import EditorScheme.Yaml.Lexer
import EditorScheme.Yaml.Scalar

/-!
The value of a YAML text: aliases are replaced by what they refer to, scalars get their types, and keys
are checked to be distinct.
-/
namespace EditorScheme.Yaml

/-- The nodes that aliases refer to, and how often aliases may be followed in all. -/
structure Composition where
  targets : List (Nat × Node)
  limit : Nat

namespace Composition

/-- Of the nodes with one number the last counts. -/
def ofNode (root : Node) : Composition := ⟨root.anchored.reverse, 100 * root.eventCount⟩

/-- Follows an alias. The count of aliases followed so far goes up by one. -/
def follow (c : Composition) (node : Node) (count : Nat) : Except Error (Node × Nat) :=
  match node with
  | .alias number =>
    if c.limit < count + 1 then .error .tooManyRepetitions
    else match c.targets.lookup number with
      | some target => .ok (target, count + 1)
      | none => .error .unknownAlias
  | node => .ok (node, count)

def eachItem (f : Node → Nat → Except Error (Value × Nat)) :
    List Node → Nat → Except Error (List Value × Nat)
  | [], count => .ok ([], count)
  | item :: rest, count => do
    let (value, count) ← f item count
    let (values, count) ← eachItem f rest count
    .ok (value :: values, count)

/-- Applies a function to each key and value behind the entries `done`; no key may occur twice. -/
def eachEntry (f : Node → Nat → Except Error (Value × Nat)) :
    List (Node × Node) → List (Value × Value) → Nat → Except Error (List (Value × Value) × Nat)
  | [], done, count => .ok (done, count)
  | (key, value) :: rest, done, count => do
    let (key, count) ← f key count
    if done.any (fun entry => entry.1.same key) then .error .duplicateKey
    else
      let (value, count) ← f value count
      eachEntry f rest (done ++ [(key, value)]) count

def value (c : Composition) : (depth : Nat) → Node → Nat → Except Error (Value × Nat)
  | depth, node, count => do
    let (node, count) ← c.follow node count
    match node with
    | .alias _ => .error .unknownAlias
    | .scalar properties text plain => do
      let value ← Value.ofScalar properties.tag text plain
      .ok (value, count)
    | .sequence properties items =>
      match depth with
      | 0 => .error .nestedTooDeeply
      | depth + 1 => do
        let (values, count) ← eachItem (c.value depth) items count
        .ok (Value.withTag properties.tag (.sequence values), count)
    | .mapping properties entries =>
      match depth with
      | 0 => .error .nestedTooDeeply
      | depth + 1 => do
        let (values, count) ← eachEntry (c.value depth) entries [] count
        .ok (Value.withTag properties.tag (.mapping values), count)

end Composition

def maximalDepth : Nat := 128

/-- The value of a text with one document. A text without a document is null. -/
def Value.ofText (text : String) : Except Error Value := do
  let tokens ← Token.ofText text.toList
  match ← Node.ofTokens? tokens with
  | none => .ok .null
  | some root => do
    let (value, _) ← (Composition.ofNode root).value maximalDepth root 0
    .ok value

end EditorScheme.Yaml
