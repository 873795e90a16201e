import EditorScheme.Number
import EditorScheme.Yaml.Cursor
import EditorScheme.Yaml.Syntax

/-!
Anchors, tags and directives. A tag is a sequence of bytes: percent escapes may give any byte, as long
as the lead and the continuation bytes of UTF-8 follow each other as they should.
-/
namespace EditorScheme.Yaml

def asciiByte (c : Char) : UInt8 := UInt8.ofNat c.toNat

def continuationCount? (byte : Nat) : Option Nat :=
  if byte < 0x80 then some 0
  else if 0xc0 ≤ byte ∧ byte < 0xe0 then some 1
  else if 0xe0 ≤ byte ∧ byte < 0xf0 then some 2
  else if 0xf0 ≤ byte ∧ byte < 0xf8 then some 3
  else none

structure TagBytes where
  bytes : List UInt8
  after : Cursor

namespace TagBytes

/-- Reads tag characters behind `done` (last byte first). `due` continuation bytes are still missing. -/
def readFrom (bracketed : Bool) :
    List Char → Position → Nat → List UInt8 → Except Error TagBytes
  | '%' :: a :: b :: rest, place, due, done =>
    match Text.readNat? 16 [a, b] with
    | none => .error .malformedTag
    | some byte =>
      let done := UInt8.ofNat byte :: done
      match due with
      | 0 =>
        match continuationCount? byte with
        | some due => readFrom bracketed rest (place.along 3) due done
        | none => .error .malformedTag
      | due + 1 =>
        if 0x80 ≤ byte ∧ byte < 0xc0 then readFrom bracketed rest (place.along 3) due done
        else .error .malformedTag
  | c :: rest, place, 0, done =>
    if c = '%' then .error .malformedTag
    else if isTagChar bracketed c then
      readFrom bracketed rest (place.along 1) 0 (asciiByte c :: done)
    else .ok ⟨done.reverse, ⟨c :: rest, place⟩⟩
  | [], place, 0, done => .ok ⟨done.reverse, ⟨[], place⟩⟩
  | _, _, _ + 1, _ => .error .malformedTag

/-- A zero byte ends the bytes that count. -/
def significant (bytes : List UInt8) : List UInt8 := bytes.takeWhile (· != 0)

def read (bracketed : Bool) (cursor : Cursor) : Except Error TagBytes := do
  let tag ← readFrom bracketed cursor.rest cursor.position 0 []
  if tag.bytes.isEmpty then .error .malformedTag
  else .ok ⟨significant tag.bytes, tag.after⟩

end TagBytes

def readHandle (cursor : Cursor) : Except Error (String × Cursor) :=
  match cursor.rest with
  | '!' :: _ =>
    let (word, after) := (cursor.skip 1).run isWordChar
    match after.rest with
    | '!' :: _ => .ok (String.ofList ('!' :: word ++ ['!']), after.skip 1)
    | _ => .ok (String.ofList ('!' :: word), after)
  | _ => .error .malformedTag

def isNamedHandle (handle : String) : Bool :=
  2 ≤ handle.length && handle.toList.getLast? == some '!'

/-- Reads a tag at the cursor: `!<bytes>`, a named handle with bytes, or the primary handle. A lone `!`
is kept as a tag without a handle. -/
def readTag (bracketed : Bool) (cursor : Cursor) : Except Error (Token × Cursor) := do
  let (token, after) ← match cursor.rest with
    | '!' :: '<' :: _ => do
      let tag ← TagBytes.read true (cursor.skip 2)
      match tag.after.rest with
      | '>' :: _ => .ok (Token.tag "" tag.bytes, tag.after.skip 1)
      | _ => .error .malformedTag
    | _ => do
      let (handle, behind) ← readHandle cursor
      if isNamedHandle handle then
        let tag ← TagBytes.read false behind
        .ok (Token.tag handle tag.bytes, tag.after)
      else
        let tag ← TagBytes.readFrom false behind.rest behind.position 0
          ((handle.toList.drop 1).map asciiByte).reverse
        let bytes := TagBytes.significant tag.bytes
        if bytes.isEmpty then .ok (Token.tag "" [asciiByte '!'], tag.after)
        else .ok (Token.tag "!" bytes, tag.after)
  if atGap after.rest || (bracketed && after.rest.head? == some ',') then .ok (token, after)
  else .error .malformedTag

def readAnchor (cursor : Cursor) : Except Error (String × Cursor) :=
  let (name, after) := (cursor.skip 1).run isWordChar
  if name.isEmpty || !endsAnchor after.rest then .error .malformedAnchor
  else .ok (String.ofList name, after)

/-- Reads at most nine decimal digits. -/
def readVersionNumber (cursor : Cursor) : Except Error (Nat × Cursor) :=
  let (digits, after) := cursor.run Char.isDigit
  match Text.readNat? 10 digits with
  | some n => if digits.length ≤ 9 then .ok (n, after) else .error .malformedDirective
  | none => .error .malformedDirective

def readVersion (cursor : Cursor) : Except Error (Token × Cursor) := do
  let (major, after) ← readVersionNumber cursor.skipBlanks
  match after.rest with
  | '.' :: _ => do
    let (minor, after) ← readVersionNumber (after.skip 1)
    .ok (Token.version major minor, after)
  | _ => .error .malformedDirective

def readTagHandle (cursor : Cursor) : Except Error (Token × Cursor) := do
  let (handle, after) ← readHandle cursor.skipBlanks
  if (handle == "!" || isNamedHandle handle) && startsWithBlank after.rest then
    let tag ← TagBytes.read true after.skipBlanks
    if atGap tag.after.rest then .ok (Token.tagHandle handle tag.bytes, tag.after)
    else .error .malformedDirective
  else .error .malformedDirective

def readDirective (cursor : Cursor) : Except Error (Token × Cursor) := do
  let (name, after) := (cursor.skip 1).run isWordChar
  if !atGap after.rest then .error .malformedDirective
  else
    let (token, after) ←
      if name = ['Y', 'A', 'M', 'L'] then readVersion after
      else if name = ['T', 'A', 'G'] then readTagHandle after
      else .error .malformedDirective
    match after.skipLineEnd? with
    | some next => .ok (token, next)
    | none => .error .malformedDirective

end EditorScheme.Yaml
