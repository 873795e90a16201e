import EditorScheme.Number
import EditorScheme.Yaml.Syntax
import EditorScheme.Yaml.Value

/-!
The types of scalars. A plain scalar is null, a boolean, an integer or a floating-point number if it is
written like one, and a string otherwise. Tags of the standard force a type.
-/
namespace EditorScheme.Yaml

def null? (text : String) : Bool :=
  text == "null" || text == "Null" || text == "NULL" || text == "~"

def bool? (text : String) : Option Bool :=
  if text = "true" ∨ text = "True" ∨ text = "TRUE" then some true
  else if text = "false" ∨ text = "False" ∨ text = "FALSE" then some false
  else none

/-- Digits that start with a needless zero, perhaps behind a sign; such a text is a string. -/
def isZeroPadded (text : List Char) : Bool :=
  let digits := match text with
    | '+' :: rest => rest
    | '-' :: rest => rest
    | text => text
  match digits with
  | '0' :: c :: rest => (c :: rest).all Char.isDigit
  | _ => false

/-- Reads digits with a sign for their base: `0x`, `0o` or `0b`, or decimal digits. -/
def magnitude? (text : List Char) (padded : Bool) : Option Nat :=
  let based := match text with
    | '0' :: 'x' :: digits => Text.readNat? 16 digits
    | '0' :: 'o' :: digits => Text.readNat? 8 digits
    | '0' :: 'b' :: digits => Text.readNat? 2 digits
    | _ => none
  match based with
  | some n => some n
  | none => if padded then none else Text.readNat? 10 text

inductive IntegerReading
  | fits (n : Int)
  | outOfRange
  | notInteger

/-- Integers range from -2⁶³ to 2⁶⁴ - 1. Beyond that and up to twice as many bits a text is refused, and
anything longer is no integer. -/
def readInteger (text : List Char) : IntegerReading :=
  let padded := isZeroPadded text
  match text with
  | '-' :: rest =>
    match magnitude? rest padded with
    | some n =>
      if n ≤ Nat.pow 2 63 then .fits (-n) else if n ≤ Nat.pow 2 127 then .outOfRange else .notInteger
    | none => .notInteger
  | _ =>
    let digits := match text with
      | '+' :: rest => rest
      | text => text
    match magnitude? digits padded with
    | some n =>
      if n < Nat.pow 2 64 then .fits n else if n < Nat.pow 2 128 then .outOfRange else .notInteger
    | none => .notInteger

def exponent? : List Char → Option Int
  | '+' :: digits => (Text.readNat? 10 digits).map Int.ofNat
  | '-' :: digits => (Text.readNat? 10 digits).map (fun n => -Int.ofNat n)
  | digits => (Text.readNat? 10 digits).map Int.ofNat

/-- Digits, a point and digits, at least one digit in all, and an optional exponent. -/
def decimal? (text : List Char) : Option Decimal :=
  let whole := text.takeWhile Char.isDigit
  let rest := text.dropWhile Char.isDigit
  let (fraction, rest) := match rest with
    | '.' :: rest => (rest.takeWhile Char.isDigit, rest.dropWhile Char.isDigit)
    | rest => ([], rest)
  match Text.readNat? 10 (whole ++ fraction) with
  | none => none
  | some significand =>
    match rest with
    | [] => some ⟨significand, -fraction.length⟩
    | c :: digits =>
      if c = 'e' ∨ c = 'E' then
        (exponent? digits).map (fun n => ⟨significand, n - fraction.length⟩)
      else none

/-- Reads a floating-point number. A decimal beyond the greatest one is none. -/
def float? (text : List Char) : Option Binary64 :=
  let unsigned := match text with
    | '+' :: '+' :: _ => none
    | '+' :: '-' :: _ => none
    | '+' :: rest => some rest
    | text => some text
  match unsigned with
  | none => none
  | some unsigned =>
    if unsigned = ".inf".toList ∨ unsigned = ".Inf".toList ∨ unsigned = ".INF".toList then
      some (.infinite false)
    else if text = "-.inf".toList ∨ text = "-.Inf".toList ∨ text = "-.INF".toList then
      some (.infinite true)
    else if text = ".nan".toList ∨ text = ".NaN".toList ∨ text = ".NAN".toList then some .nan
    else
      let read := match unsigned with
        | '-' :: rest => (decimal? rest).map (Binary64.ofDecimal true)
        | rest => (decimal? rest).map (Binary64.ofDecimal false)
      read.filter (fun x => !x.isInfinite)

namespace Value

def ofPlain (text : String) : Except Error Value :=
  if text = "" ∨ null? text then .ok .null
  else match bool? text with
    | some b => .ok (.bool b)
    | none =>
      let chars := text.toList
      match readInteger chars with
      | .fits n => .ok (.number (.integer n))
      | .outOfRange => .error .integerOutOfRange
      | .notInteger =>
        if isZeroPadded chars then .ok (.string text)
        else match float? chars with
          | some x => .ok (.number (.float x))
          | none => .ok (.string text)

/-- The types that a tag of the standard can force on a scalar. -/
inductive ScalarType
  | null
  | bool
  | integer
  | float

def bytesOf (text : String) : List UInt8 := text.toList.map (fun c => UInt8.ofNat c.toNat)

def scalarType? (tag : List UInt8) : Option ScalarType :=
  if tag = bytesOf "tag:yaml.org,2002:null" then some .null
  else if tag = bytesOf "tag:yaml.org,2002:bool" then some .bool
  else if tag = bytesOf "tag:yaml.org,2002:int" then some .integer
  else if tag = bytesOf "tag:yaml.org,2002:float" then some .float
  else none

/-- The value of a scalar whose tag forces a type, whether it has quotes or not. -/
def ofTyped (type : ScalarType) (text : String) : Except Error Value :=
  match type with
  | .null => if null? text then .ok .null else .error .contradictsTag
  | .bool => match bool? text with
    | some b => .ok (.bool b)
    | none => .error .contradictsTag
  | .integer => match readInteger text.toList with
    | .fits n => .ok (.number (.integer n))
    | .outOfRange => .error .integerOutOfRange
    | .notInteger => .error .contradictsTag
  | .float => match float? text.toList with
    | some x => .ok (.number (.float x))
    | none => .error .contradictsTag

def ofUntyped (text : String) (plain : Bool) : Except Error Value :=
  if plain then ofPlain text else .ok (.string text)

/-- The name of a local tag: a tag that starts with an exclamation mark, which is taken off unless it is
the whole tag. -/
def localTag? (tag : List UInt8) : Option String :=
  match tag with
  | [33] => some "!"
  | 33 :: rest => String.fromUTF8? ⟨rest.toArray⟩
  | _ => none

/-- The value of a scalar. A local tag stays on the value, a tag that is not known makes it a string. -/
def ofScalar (tag : Option (List UInt8)) (text : String) (plain : Bool) : Except Error Value :=
  match tag with
  | none => ofUntyped text plain
  | some tag =>
    match localTag? tag with
    | some name => (ofUntyped text plain).map (.tagged name)
    | none =>
      match scalarType? tag with
      | some type => ofTyped type text
      | none => if tag.head? = some 33 then ofUntyped text plain else .ok (.string text)

/-- Puts a local tag on a collection. All other tags of collections are without effect. -/
def withTag (tag : Option (List UInt8)) (value : Value) : Value :=
  match tag.bind localTag? with
  | some name => .tagged name value
  | none => value

end Value

end EditorScheme.Yaml
