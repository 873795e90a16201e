import EditorScheme.Number
import EditorScheme.Yaml.PlainText

/-!
Scalars in quotes. In single quotes a doubled quote stands for itself and nothing else is special. In
double quotes a backslash starts an escape; before a line break it removes the break.
-/
namespace EditorScheme.Yaml

structure QuotedText where
  text : List Char
  after : Cursor

def shortEscape? : Char → Option Char
  | '0' => some '\x00'
  | 'a' => some '\x07'
  | 'b' => some '\x08'
  | 't' => some '\t'
  | '\t' => some '\t'
  | 'n' => some '\n'
  | 'v' => some '\x0b'
  | 'f' => some '\x0c'
  | 'r' => some '\r'
  | 'e' => some '\x1b'
  | ' ' => some ' '
  | '"' => some '"'
  | '/' => some '/'
  | '\\' => some '\\'
  | 'N' => some '\u0085'
  | '_' => some '\u00a0'
  | 'L' => some '\u2028'
  | 'P' => some '\u2029'
  | _ => none

/-- The character with a given number; the numbers of surrogates belong to none. -/
def charOfCode? (code : Nat) : Option Char :=
  if _h : code.isValidChar then some (Char.ofNat code) else none

def hexEscape? (digits : List Char) : Option Char := (Text.readNat? 16 digits).bind charOfCode?

namespace QuotedText

/-- Reads on behind `done` (last character first) and the white space `gap`. -/
def readFrom (double : Bool) :
    List Char → Position → List Char → Gap → Except Error QuotedText
  | [], _, _, _ => .error .unclosedQuote
  | '\r' :: '\n' :: rest, place, done, gap =>
    readFrom double rest (place.nextLine 2) done (gap.addBreak '\n')
  | c :: rest, place, done, gap =>
    if isBreak c then
      readFrom double rest (place.nextLine c.utf8Size) done (gap.addBreak (breakChar c))
    else if isBlank c then readFrom double rest (place.along 1) done (gap.addBlank c)
    else if atDocumentMark place.column (c :: rest) then .error .unclosedQuote
    else
      let done := gap.text.reverse ++ done
      if double then
        if c = '"' then .ok ⟨done.reverse, ⟨rest, place.along 1⟩⟩
        else if c = '\\' then
          match rest with
          | [] => .error .malformedEscape
          | 'x' :: a :: b :: rest =>
            match hexEscape? [a, b] with
            | some c => readFrom double rest (place.along 4) (c :: done) .none
            | none => .error .malformedEscape
          | 'u' :: a :: b :: c :: d :: rest =>
            match hexEscape? [a, b, c, d] with
            | some c => readFrom double rest (place.along 6) (c :: done) .none
            | none => .error .malformedEscape
          | 'U' :: a :: b :: c :: d :: e :: f :: g :: h :: rest =>
            match hexEscape? [a, b, c, d, e, f, g, h] with
            | some c => readFrom double rest (place.along 10) (c :: done) .none
            | none => .error .malformedEscape
          | '\r' :: '\n' :: rest =>
            readFrom double rest ((place.along 1).nextLine 2) done (.breaks [] [])
          | e :: rest =>
            if isBreak e then
              readFrom double rest ((place.along 1).nextLine e.utf8Size) done (.breaks [] [])
            else
              match shortEscape? e with
              | some c => readFrom double rest (place.along 2) (c :: done) .none
              | none => .error .malformedEscape
        else readFrom double rest (place.past c) (c :: done) .none
      else
        match c, rest with
        | '\'', '\'' :: rest => readFrom double rest (place.along 2) ('\'' :: done) .none
        | '\'', rest => .ok ⟨done.reverse, ⟨rest, place.along 1⟩⟩
        | c, rest => readFrom double rest (place.past c) (c :: done) .none

end QuotedText

end EditorScheme.Yaml
