import EditorScheme.Yaml.Cursor
import EditorScheme.Yaml.Syntax

/-!
Scalars without quotes, and the white space inside scalars. Blanks are kept; a line break takes the place of the blanks
around it. A single line break becomes a space, and of several the first one is dropped. A plain scalar ends before a
colon at the end of a word, before a comment, at a mark that starts or ends a document, at a less indented line, and
inside brackets at the characters that structure them.
-/
namespace EditorScheme.Yaml

/-- White space whose meaning depends on what comes after it. -/
inductive Gap
  | blanks (chars : List Char)
  | breaks (first : List Char) (more : List Char)
deriving DecidableEq, Repr

namespace Gap

def none : Gap := .blanks []

def isNone : Gap → Bool
  | .blanks chars => chars.isEmpty
  | .breaks .. => false

def hasBreak : Gap → Bool
  | .blanks _ => false
  | .breaks .. => true

def addBlank (gap : Gap) (c : Char) : Gap :=
  match gap with
  | .blanks chars => .blanks (chars ++ [c])
  | .breaks first more => .breaks first more

def addBreak (gap : Gap) (c : Char) : Gap :=
  match gap with
  | .blanks _ => .breaks [c] []
  | .breaks first more => .breaks first (more ++ [c])

/-- Line and paragraph separators are never folded away. -/
def text : Gap → List Char
  | .blanks chars => chars
  | .breaks first more =>
    if first = ['\n'] then (if more.isEmpty then [' '] else more) else first ++ more

end Gap

/-- How a line break is kept in a scalar: the separators as they are, all others as a line feed. -/
def breakChar (c : Char) : Char := if c == '\u2028' || c == '\u2029' then c else '\n'

def atDocumentMark (column : Nat) (text : List Char) : Bool :=
  column == 0 &&
    match text with
    | '-' :: '-' :: '-' :: rest => atGap rest
    | '.' :: '.' :: '.' :: rest => atGap rest
    | _ => false

structure PlainText where
  text : List Char
  /-- Whether a line break was passed behind the last character. -/
  passedBreak : Bool
  after : Cursor

/-- Whether the text at a place that is no white space cannot go on a plain scalar. `gap` is the white
space before it. -/
def endsPlain (bracketed : Bool) (indent : Nat) (gap : Gap) (column : Nat) : List Char → Bool
  | [] => true
  | c :: rest =>
    (!gap.isNone && ((!bracketed && column < indent) || atDocumentMark column (c :: rest) || c == '#')) ||
      (c == ':' && atGap rest) || (bracketed && isFlowIndicator c)

/-- Inside brackets a colon right before a structuring character is an error. -/
def badColon (bracketed : Bool) (text : List Char) : Bool :=
  match text with
  | ':' :: c :: _ => bracketed && (isFlowIndicator c || c == '?')
  | _ => false

namespace PlainText

/-- Reads on behind `done` (last character first) and the white space `gap`. -/
def readFrom (bracketed : Bool) (indent : Nat) :
    List Char → Position → List Char → Gap → Except Error PlainText
  | [], place, done, gap => .ok ⟨done.reverse, gap.hasBreak, ⟨[], place⟩⟩
  | '\r' :: '\n' :: rest, place, done, gap =>
    readFrom bracketed indent rest (place.nextLine 2) done (gap.addBreak '\n')
  | c :: rest, place, done, gap =>
    if isBreak c then
      readFrom bracketed indent rest (place.nextLine c.utf8Size) done (gap.addBreak (breakChar c))
    else if isBlank c then
      if c = '\t' ∧ gap.hasBreak ∧ place.column < indent then .error .misplacedTab
      else readFrom bracketed indent rest (place.along 1) done (gap.addBlank c)
    else
      if endsPlain bracketed indent gap place.column (c :: rest) then
        .ok ⟨done.reverse, gap.hasBreak, ⟨c :: rest, place⟩⟩
      else if badColon bracketed (c :: rest) then .error .unexpectedCharacter
      else readFrom bracketed indent rest (place.past c) (c :: (gap.text.reverse ++ done)) .none

end PlainText

end EditorScheme.Yaml
