import EditorScheme.Number

/-!
The values that YAML documents stand for.
-/
namespace EditorScheme.Yaml

/-- Orders of magnitude from 10⁻⁵ to 10¹⁵ are written without an exponent. -/
def numberLayout : DecimalLayout := ⟨-5, 15, false, ".inf", "-.inf", ".nan"⟩

inductive Value
  | null
  | bool (b : Bool)
  | number (n : Number)
  | string (s : String)
  | sequence (items : List Value)
  | mapping (entries : List (Value × Value))
  | tagged (tag : String) (value : Value)

inductive Kind
  | null
  | boolean
  | number
  | string
  | sequence
  | mapping
  | tagged
deriving DecidableEq, Repr

def Kind.words : Kind → String
  | .null => "null"
  | .boolean => "a boolean"
  | .number => "a number"
  | .string => "a string"
  | .sequence => "a sequence"
  | .mapping => "a mapping"
  | .tagged => "a tagged value"

/-- A tag without the exclamation mark at its start, unless it is nothing else. -/
def bareTag (tag : String) : List Char :=
  match tag.toList with
  | '!' :: c :: rest => c :: rest
  | chars => chars

namespace Value

mutual

/-- Whether two values are equal as keys. The order of the entries of a mapping does not count. -/
def same : Value → Value → Bool
  | .null, .null => true
  | .bool a, .bool b => a == b
  | .number a, .number b => a.same b
  | .string a, .string b => a == b
  | .sequence a, .sequence b => sameItems a b
  | .mapping a, .mapping b => a.length == b.length && entriesWithin a b
  | .tagged t a, .tagged u b => bareTag t == bareTag u && a.same b
  | _, _ => false

def sameItems : List Value → List Value → Bool
  | [], [] => true
  | a :: as, b :: bs => a.same b && sameItems as bs
  | _, _ => false

def entriesWithin : List (Value × Value) → List (Value × Value) → Bool
  | [], _ => true
  | (key, value) :: rest, entries =>
    entries.any (fun entry => key.same entry.1 && value.same entry.2) && entriesWithin rest entries

end

def kind : Value → Kind
  | .null => .null
  | .bool _ => .boolean
  | .number _ => .number
  | .string _ => .string
  | .sequence _ => .sequence
  | .mapping _ => .mapping
  | .tagged _ _ => .tagged

def scalarText? : Value → Option String
  | .string s => some s
  | .number n => some (n.text numberLayout)
  | .bool b => some (if b then "true" else "false")
  | _ => none

/-- The entries of a mapping, whatever tags it has. -/
def entries? : Value → Option (List (Value × Value))
  | .mapping entries => some entries
  | .tagged _ value => value.entries?
  | _ => none

def lookup (name : String) : List (Value × Value) → Option Value
  | [] => none
  | (.string s, value) :: rest => if s = name then some value else lookup name rest
  | _ :: rest => lookup name rest

end Value

end EditorScheme.Yaml
