/-!
Character classes of YAML text, and a place in a text: what is still to be read, and the position reached. A carriage
return with the line feed after it counts as one line break.
-/
namespace EditorScheme.Yaml

def isAllowed (c : Char) : Bool :=
  c == '\t' || c == '\n' || c == '\r' || ('\x20' ≤ c && c ≤ '\x7e') || c == '\u0085' ||
    ('\u00a0' ≤ c && c.toNat ≤ 0xfffd) || 0x10000 ≤ c.toNat

def isBlank (c : Char) : Bool := c == ' ' || c == '\t'

/-- Carriage return, line feed, next line, line separator and paragraph separator end a line. -/
def isBreak (c : Char) : Bool :=
  c == '\r' || c == '\n' || c == '\u0085' || c == '\u2028' || c == '\u2029'

def atGap : List Char → Bool
  | [] => true
  | c :: _ => isBlank c || isBreak c

def startsWithBlank : List Char → Bool
  | [] => false
  | c :: _ => isBlank c

def isWordChar (c : Char) : Bool := c.isAlphanum || c == '_' || c == '-'

/-- Characters of a tag. The comma and the square brackets are admitted only where nothing else can
end the tag. -/
def isTagChar (bracketed : Bool) (c : Char) : Bool :=
  isWordChar c ||
    [';', '/', '?', ':', '@', '&', '=', '+', '$', '.', '%', '!', '~', '*', '\'', '(', ')'].contains c ||
    (bracketed && [',', '[', ']'].contains c)

def isFlowIndicator (c : Char) : Bool :=
  c == ',' || c == '[' || c == ']' || c == '\x7b' || c == '\x7d'

def endsAnchor : List Char → Bool
  | [] => true
  | c :: _ => isBlank c || isBreak c || ['?', ':', ',', ']', '\x7d', '%', '@', '\x60'].contains c

/-- Characters that never start a plain scalar on their own account. -/
def isIndicator (c : Char) : Bool :=
  ['-', '?', ':', ',', '[', ']', '\x7b', '\x7d', '#', '&', '*', '!', '|', '>', '\'', '"', '%', '@',
    '\x60'].contains c

structure Position where
  /-- The bytes before this place. -/
  offset : Nat
  line : Nat
  /-- The characters before this place on its line. -/
  column : Nat
deriving DecidableEq, Repr

namespace Position

def start : Position := ⟨0, 0, 0⟩

def past (p : Position) (c : Char) : Position := ⟨p.offset + c.utf8Size, p.line, p.column + 1⟩

/-- Behind `length` characters of the same line, of one byte each. -/
def along (p : Position) (length : Nat) : Position := ⟨p.offset + length, p.line, p.column + length⟩

def nextLine (p : Position) (size : Nat) : Position := ⟨p.offset + size, p.line + 1, 0⟩

end Position

structure Cursor where
  rest : List Char
  position : Position

namespace Cursor

def ofText (text : List Char) : Cursor := ⟨text, .start⟩

def column (c : Cursor) : Nat := c.position.column

/-- Moves along the line past characters of one byte each. -/
def skip (c : Cursor) (length : Nat) : Cursor := ⟨c.rest.drop length, c.position.along length⟩

/-- The longest run of characters of one class, which holds no line break. -/
def run (c : Cursor) (inClass : Char → Bool) : List Char × Cursor :=
  let taken := c.rest.takeWhile inClass
  (taken, ⟨c.rest.dropWhile inClass, taken.foldl .past c.position⟩)

def skipBlanks (c : Cursor) : Cursor := (c.run isBlank).2

def skipBreak (c : Cursor) : Cursor :=
  match c.rest with
  | '\r' :: '\n' :: rest => ⟨rest, c.position.nextLine 2⟩
  | b :: rest => if isBreak b then ⟨rest, c.position.nextLine b.utf8Size⟩ else c
  | [] => c

/-- Moves past blanks, a comment and the line break; none if anything else stands on the line. -/
def skipLineEnd? (c : Cursor) : Option Cursor :=
  let c := c.skipBlanks
  let c := if c.rest.head? = some '#' then (c.run (fun x => !isBreak x)).2 else c
  match c.rest with
  | [] => some c
  | b :: _ => if isBreak b then some c.skipBreak else none

end Cursor

end EditorScheme.Yaml
