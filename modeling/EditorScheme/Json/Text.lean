import EditorScheme.Json.Value

/-!
JSON texts. They are written with one item or field a line, indented by two spaces for each level. When they are read,
the last value of several fields with one name counts, at the place of the first.
-/
namespace EditorScheme.Json

def newLine (depth : Nat) : List Char := '\n' :: List.replicate (2 * depth) ' '

mutual

/-- The text of a value inside `depth` levels. -/
def Value.chars (depth : Nat) : Value → List Char
  | .null => ['n', 'u', 'l', 'l']
  | .bool true => ['t', 'r', 'u', 'e']
  | .bool false => ['f', 'a', 'l', 's', 'e']
  | .number n => (n.text numberLayout).toList
  | .string s => quote s
  | .array [] => ['[', ']']
  | .array (item :: rest) =>
    '[' :: newLine (depth + 1) ++ item.chars (depth + 1) ++ moreItems (depth + 1) rest ++
      newLine depth ++ [']']
  | .object [] => ['\x7b', '\x7d']
  | .object ((name, value) :: rest) =>
    '\x7b' :: newLine (depth + 1) ++ quote name ++ ':' :: ' ' :: value.chars (depth + 1) ++
      moreFields (depth + 1) rest ++ newLine depth ++ ['\x7d']

def moreItems (depth : Nat) : List Value → List Char
  | [] => []
  | item :: rest => ',' :: newLine depth ++ item.chars depth ++ moreItems depth rest

def moreFields (depth : Nat) : List (String × Value) → List Char
  | [] => []
  | (name, value) :: rest =>
    ',' :: newLine depth ++ quote name ++ ':' :: ' ' :: value.chars depth ++ moreFields depth rest

end

def Value.text (value : Value) : String := String.ofList (value.chars 0)

def Object.text (object : Object) : String := (Value.object object.entries).text

def isSpace (c : Char) : Bool := c == ' ' || c == '\n' || c == '\t' || c == '\r'

def skipSpace (text : List Char) : List Char := text.dropWhile isSpace

/-- A reader takes a value from the start of a text. -/
abbrev Reader (α : Type) := List Char → Option (α × List Char)

/-- Reads the items behind the first one, each after a comma, up to the closing bracket. -/
def readMoreItems (item : Reader Value) : (bound : Nat) → List Value → Reader (List Value)
  | 0, _, _ => none
  | bound + 1, done, text =>
    match skipSpace text with
    | ',' :: rest => do
      let (value, rest) ← item rest
      readMoreItems item bound (value :: done) rest
    | ']' :: rest => some (done.reverse, rest)
    | _ => none

def readItems (item : Reader Value) (text : List Char) : Option (List Value × List Char) :=
  match skipSpace text with
  | ']' :: rest => some ([], rest)
  | _ => do
    let (value, rest) ← item text
    readMoreItems item rest.length [value] rest

def readField (item : Reader Value) (text : List Char) : Option ((String × Value) × List Char) :=
  match skipSpace text with
  | '"' :: rest => do
    let (name, rest) ← unquoteFrom rest []
    match skipSpace rest with
    | ':' :: rest => do
      let (value, rest) ← item rest
      return ((name, value), rest)
    | _ => none
  | _ => none

def readMoreFields (item : Reader Value) :
    (bound : Nat) → List (String × Value) → Reader (List (String × Value))
  | 0, _, _ => none
  | bound + 1, done, text =>
    match skipSpace text with
    | ',' :: rest => do
      let (field, rest) ← readField item rest
      readMoreFields item bound (putEntry field.1 field.2 done) rest
    | '\x7d' :: rest => some (done, rest)
    | _ => none

def readFields (item : Reader Value) (text : List Char) :
    Option (List (String × Value) × List Char) :=
  match skipSpace text with
  | '\x7d' :: rest => some ([], rest)
  | _ => do
    let (field, rest) ← readField item text
    readMoreFields item rest.length [field] rest

/-- Reads a value in which arrays and objects are nested at most `depth` deep. -/
def readValue : (depth : Nat) → Reader Value
  | depth, text =>
    match skipSpace text with
    | 'n' :: 'u' :: 'l' :: 'l' :: rest => some (.null, rest)
    | 't' :: 'r' :: 'u' :: 'e' :: rest => some (.bool true, rest)
    | 'f' :: 'a' :: 'l' :: 's' :: 'e' :: rest => some (.bool false, rest)
    | '"' :: rest => do
      let (s, rest) ← unquoteFrom rest []
      return (.string s, rest)
    | '[' :: rest =>
      match depth with
      | 0 => none
      | depth + 1 => do
        let (items, rest) ← readItems (readValue depth) rest
        return (.array items, rest)
    | '\x7b' :: rest =>
      match depth with
      | 0 => none
      | depth + 1 => do
        let (fields, rest) ← readFields (readValue depth) rest
        return (.object fields, rest)
    | text => do
      let (number, rest) ← NumberText.read? text
      return (.number (← number.value?), rest)

def maximalDepth : Nat := 127

namespace Value

def ofText? (text : String) : Option Value := do
  let (value, rest) ← readValue maximalDepth text.toList
  if (skipSpace rest).isEmpty then some value else none

def toObject? : Value → Option Object
  | .object fields => some (Table.ofList fields)
  | _ => none

end Value

end EditorScheme.Json
