import EditorScheme.Number
import EditorScheme.Table

/-!
JSON values, and the texts of their numbers and strings. The fields of an object keep their order.

The digits of a number are read into an integer of 64 bits: digits of the whole part that do not fit raise the
exponent, digits of the fraction that do not fit are left out. The integer and a power of ten are rounded to
floating-point numbers before they are multiplied or divided.
-/
namespace EditorScheme.Json

inductive Value
  | null
  | bool (b : Bool)
  | number (n : Number)
  | string (s : String)
  | array (items : List Value)
  | object (fields : List (String × Value))

abbrev Object := Table String Value

def greatestSignificand : Nat := Nat.pow 2 64 - 1

/-- Appends digits as long as the number fits, and counts those that were appended. -/
def appendDigits (significand : Nat) : List Char → Nat × Nat
  | [] => (significand, 0)
  | c :: rest =>
    let next := significand * 10 + (c.toNat - 48)
    if next ≤ greatestSignificand then
      let (result, count) := appendDigits next rest
      (result, count + 1)
    else (significand, 0)

def powerOfTen (exponent : Nat) : Binary64 := Binary64.ofNat (Nat.pow 10 exponent)

def greatestPower : Nat := 308

/-- Multiplies a number by a power of ten; none if the result is too great. Small powers are reached in
steps, of which few lead to zero. -/
def scaled? : (steps : Nat) → Binary64 → Int → Option Binary64
  | steps, x, exponent =>
    if exponent.natAbs ≤ greatestPower then
      if 0 ≤ exponent then
        (some (x.timesPositive (powerOfTen exponent.natAbs))).filter (fun y => !y.isInfinite)
      else some (x.overPositive (powerOfTen exponent.natAbs))
    else if x.isZero then some x
    else if 0 ≤ exponent then none
    else match steps with
      | 0 => some (Binary64.zero false)
      | steps + 1 => scaled? steps (x.overPositive (powerOfTen greatestPower)) (exponent + greatestPower)

def float? (negative : Bool) (significand : Nat) (exponent : Int) : Option Number :=
  (scaled? 3 (Binary64.ofNat significand) exponent).map fun x =>
    .float (if negative then x.negate else x)

/-- An integer, or a floating-point number if it is a negative zero or has too many bits. -/
def wholeNumber (negative : Bool) (significand : Nat) : Number :=
  if !negative then .integer significand
  else if 0 < significand ∧ significand ≤ Nat.pow 2 63 then .integer (-significand)
  else .float (Binary64.ofNat significand).negate

structure NumberText where
  negative : Bool
  whole : List Char
  fraction : Option (List Char)
  exponent : Option Int

namespace NumberText

def value? (text : NumberText) : Option Number :=
  let (significand, count) := appendDigits 0 text.whole
  let dropped := text.whole.length - count
  if text.fraction.isNone ∧ text.exponent.isNone ∧ dropped = 0 then
    some (wholeNumber text.negative significand)
  else
    let (significand, places) := appendDigits significand (text.fraction.getD [])
    float? text.negative significand ((dropped : Int) - places + text.exponent.getD 0)

/-- One digit at least, and what follows the digits. -/
def digits? (text : List Char) : Option (List Char × List Char) :=
  let digits := text.takeWhile Char.isDigit
  if digits.isEmpty then none else some (digits, text.dropWhile Char.isDigit)

def fraction? : List Char → Option (Option (List Char) × List Char)
  | '.' :: rest => do
    let (digits, rest) ← digits? rest
    return (some digits, rest)
  | rest => some (none, rest)

def exponent? : List Char → Option (Option Int × List Char)
  | c :: rest =>
    if c = 'e' ∨ c = 'E' then do
      let (negative, rest) := match rest with
        | '+' :: rest => (false, rest)
        | '-' :: rest => (true, rest)
        | rest => (false, rest)
      let (digits, rest) ← digits? rest
      let n ← Text.readNat? 10 digits
      return (some (if negative then -n else n), rest)
    else some (none, c :: rest)
  | [] => some (none, [])

/-- Reads a number; its whole part has no needless zero in front. -/
def read? (text : List Char) : Option (NumberText × List Char) := do
  let (negative, rest) := match text with
    | '-' :: rest => (true, rest)
    | rest => (false, rest)
  let (whole, rest) ← digits? rest
  if 1 < whole.length ∧ whole.head? = some '0' then none
  else
    let (fraction, rest) ← fraction? rest
    let (exponent, rest) ← exponent? rest
    return (⟨negative, whole, fraction, exponent⟩, rest)

end NumberText

/-- Orders of magnitude from 10⁻⁵ to 10¹⁵ are written without an exponent. What is not finite has no
text of its own. -/
def numberLayout : DecimalLayout := ⟨-5, 15, true, "null", "null", "null"⟩

def hexDigit (n : Nat) : Char := if n < 10 then Char.ofNat (48 + n) else Char.ofNat (87 + n)

def quoteChar (c : Char) : List Char :=
  if c = '"' then ['\\', '"']
  else if c = '\\' then ['\\', '\\']
  else if c = '\x08' then ['\\', 'b']
  else if c = '\t' then ['\\', 't']
  else if c = '\n' then ['\\', 'n']
  else if c = '\x0c' then ['\\', 'f']
  else if c = '\r' then ['\\', 'r']
  else if c.toNat < 32 then ['\\', 'u', '0', '0', hexDigit (c.toNat / 16), hexDigit (c.toNat % 16)]
  else [c]

def quote (text : String) : List Char := '"' :: text.toList.flatMap quoteChar ++ ['"']

def isHighSurrogate (unit : Nat) : Bool := 0xd800 ≤ unit && unit < 0xdc00

def isLowSurrogate (unit : Nat) : Bool := 0xdc00 ≤ unit && unit < 0xe000

def shortEscape? : Char → Option Char
  | '"' => some '"'
  | '\\' => some '\\'
  | '/' => some '/'
  | 'b' => some '\x08'
  | 'f' => some '\x0c'
  | 'n' => some '\n'
  | 'r' => some '\r'
  | 't' => some '\t'
  | _ => none

/-- Reads the characters of a string up to the closing quote, behind `done` (last character first). Four
hexadecimal digits give a unit of 16 bits; surrogates stand for a character only in pairs. -/
def unquoteFrom : List Char → List Char → Option (String × List Char)
  | '\\' :: 'u' :: a :: b :: c :: d :: rest, done =>
    match Text.readNat? 16 [a, b, c, d] with
    | none => none
    | some high =>
      if isLowSurrogate high then none
      else if isHighSurrogate high then
        match rest with
        | '\\' :: 'u' :: e :: f :: g :: h :: rest =>
          match Text.readNat? 16 [e, f, g, h] with
          | none => none
          | some low =>
            if isLowSurrogate low then
              unquoteFrom rest
                (Char.ofNat (0x10000 + (high - 0xd800) * 0x400 + (low - 0xdc00)) :: done)
            else none
        | _ => none
      else unquoteFrom rest (Char.ofNat high :: done)
  | '\\' :: c :: rest, done =>
    match shortEscape? c with
    | some c => unquoteFrom rest (c :: done)
    | none => none
  | '"' :: rest, done => some (String.ofList done.reverse, rest)
  | c :: rest, done => if c.toNat < 32 ∨ c = '\\' then none else unquoteFrom rest (c :: done)
  | [], _ => none

end EditorScheme.Json
