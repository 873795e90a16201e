import EditorScheme.Number
import EditorScheme.Yaml.PlainText

/-!
Block scalars: the more indented lines below a header of `|` or `>`. With `|` the lines stay as they
are, with `>` the break between two lines that start with no blank is folded.
-/
namespace EditorScheme.Yaml

/-- What happens to the line breaks at the end: all go, the first stays, or all stay. -/
inductive Chomping
  | strip
  | clip
  | keep
deriving DecidableEq, Repr

structure BlockHeader where
  chomping : Chomping
  /-- How much deeper the lines are indented, if the header says so. -/
  increment : Option Nat

namespace BlockHeader

def chomping? : Char → Option Chomping
  | '+' => some .keep
  | '-' => some .strip
  | _ => none

/-- A digit other than zero and a chomping sign, each optional, in either order. -/
def read (text : List Char) : Except Error (BlockHeader × Nat) :=
  match text with
  | [] => .ok (⟨.clip, none⟩, 0)
  | a :: rest =>
    match chomping? a, Text.digitValue? 10 a with
    | some chomping, _ =>
      match rest.head?.bind (Text.digitValue? 10) with
      | some 0 => .error .malformedBlockHeader
      | some n => .ok (⟨chomping, some n⟩, 2)
      | none => .ok (⟨chomping, none⟩, 1)
    | none, some 0 => .error .malformedBlockHeader
    | none, some n =>
      match rest.head?.bind chomping? with
      | some chomping => .ok (⟨chomping, some n⟩, 2)
      | none => .ok (⟨.clip, some n⟩, 1)
    | none, none => .ok (⟨.clip, none⟩, 0)

end BlockHeader

structure BlockLead where
  breaks : List Char
  deepest : Nat
  after : Cursor

/-- Reads the lines of spaces at the start and finds how deep the deepest of them, or the first line of
text, is indented. -/
def BlockLead.readFrom : List Char → Position → List Char → Nat → Except Error BlockLead
  | [], place, breaks, deepest => .ok ⟨breaks, max deepest place.column, ⟨[], place⟩⟩
  | '\r' :: '\n' :: rest, place, breaks, deepest =>
    readFrom rest (place.nextLine 2) (breaks ++ ['\n']) (max deepest place.column)
  | c :: rest, place, breaks, deepest =>
    if c = ' ' then readFrom rest (place.along 1) breaks deepest
    else if c = '\t' then .error .misplacedTab
    else if isBreak c then
      readFrom rest (place.nextLine c.utf8Size) (breaks ++ [breakChar c]) (max deepest place.column)
    else .ok ⟨breaks, max deepest place.column, ⟨c :: rest, place⟩⟩

/-- A block scalar between two lines. `lastBreak` ends the line before, `empty` holds the breaks of the
empty lines since. -/
structure BlockState where
  done : List Char
  lastBreak : List Char
  empty : List Char
  /-- Whether the line before starts with a blank. -/
  indented : Bool

namespace BlockState

def startLine (folded : Bool) (s : BlockState) (c : Char) : BlockState :=
  let joint :=
    if folded && s.lastBreak == ['\n'] && !s.indented && !isBlank c then
      if s.empty.isEmpty then [' '] else s.empty
    else s.lastBreak ++ s.empty
  ⟨c :: (joint.reverse ++ s.done), [], [], isBlank c⟩

def finish (s : BlockState) (chomping : Chomping) : List Char :=
  match chomping with
  | .strip => s.done.reverse
  | .clip => s.done.reverse ++ s.lastBreak
  | .keep => s.done.reverse ++ s.lastBreak ++ s.empty

end BlockState

structure BlockText where
  text : List Char
  after : Cursor

namespace BlockText

/-- Reads the lines indented by `indent`. `inLine` tells whether a line has been started. -/
def readFrom (folded : Bool) (chomping : Chomping) (indent : Nat) :
    List Char → Position → Bool → BlockState → Except Error BlockText
  | [], place, _, s => .ok ⟨s.finish chomping, ⟨[], place⟩⟩
  | '\r' :: '\n' :: rest, place, inLine, s =>
    readFrom folded chomping indent rest (place.nextLine 2) false
      (if inLine then { s with lastBreak := ['\n'] } else { s with empty := s.empty ++ ['\n'] })
  | c :: rest, place, inLine, s =>
    if isBreak c then
      readFrom folded chomping indent rest (place.nextLine c.utf8Size) false
        (if inLine then { s with lastBreak := [breakChar c] }
          else { s with empty := s.empty ++ [breakChar c] })
    else if inLine then
      readFrom folded chomping indent rest (place.past c) true { s with done := c :: s.done }
    else if place.column < indent ∧ c = ' ' then
      readFrom folded chomping indent rest (place.along 1) false s
    else if place.column < indent ∧ c = '\t' then .error .misplacedTab
    else if place.column = indent then
      readFrom folded chomping indent rest (place.past c) true (s.startLine folded c)
    else .ok ⟨s.finish chomping, ⟨c :: rest, place⟩⟩

/-- Reads a block scalar whose indicator stands at the cursor. `around` is the column of the
collection it stands in, if there is one. -/
def read (folded : Bool) (around : Option Nat) (cursor : Cursor) : Except Error BlockText := do
  let cursor := cursor.skip 1
  let (header, length) ← BlockHeader.read cursor.rest
  match (cursor.skip length).skipLineEnd? with
  | none => .error .malformedBlockHeader
  | some body =>
    match header.increment with
    | some n =>
      readFrom folded header.chomping ((around.getD 0) + n) body.rest body.position false
        ⟨[], [], [], false⟩
    | none =>
      let lead ← BlockLead.readFrom body.rest body.position [] 0
      let least := match around with
        | some column => column + 1
        | none => 1
      readFrom folded header.chomping (max lead.deepest least) lead.after.rest lead.after.position false
        ⟨[], [], lead.breaks, false⟩

end BlockText

end EditorScheme.Yaml
