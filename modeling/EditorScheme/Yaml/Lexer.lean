import EditorScheme.Yaml.BlockText
import EditorScheme.Yaml.QuotedText
import EditorScheme.Yaml.TagText

/-!
From text to tokens. A key is recognised only at the colon behind it, so the places where a key may have
started are remembered, one for each level of brackets, and the tokens that open it are put in there.
-/
namespace EditorScheme.Yaml

/-- A place where a key on a single line may have started. -/
structure KeyStart where
  /-- Nothing else can stand at this place. -/
  required : Bool
  tokenCount : Nat
  position : Position
deriving DecidableEq, Repr

/-- A key ends on the line it starts on, within 1024 bytes. -/
def KeyStart.isPast (start : KeyStart) (place : Position) : Bool :=
  start.position.line < place.line || start.position.offset + 1024 < place.offset

structure Lexer where
  cursor : Cursor
  blocks : List Nat
  keyStart : Option KeyStart
  /-- The possible key starts outside the brackets that are open. -/
  outer : List (Option KeyStart)
  keyAllowed : Bool
  /-- The tokens so far, last one first. -/
  tokens : List Token
  count : Nat

namespace Lexer

def ofText (text : List Char) : Lexer := ⟨.ofText text, [], none, [], true, [], 0⟩

def bracketed (s : Lexer) : Bool := !s.outer.isEmpty

/-- Whether the innermost block collection, if there is one, is less indented than `column`. -/
def isDeeper (s : Lexer) (column : Nat) : Bool :=
  match s.blocks with
  | [] => true
  | block :: _ => block < column

def emit (s : Lexer) (token : Token) : Lexer :=
  { s with tokens := token :: s.tokens, count := s.count + 1 }

def insertTokens (s : Lexer) (position : Nat) (tokens : List Token) : Lexer :=
  let later := s.count - position
  { s with
    tokens := s.tokens.take later ++ tokens.reverse ++ s.tokens.drop later
    count := s.count + tokens.length }

/-- Skips white space and comments. A line break outside brackets allows a key to start. -/
def skipFrom (bracketed : Bool) :
    List Char → Position → (comment keyAllowed : Bool) → Cursor × Bool
  | [], place, _, keyAllowed => (⟨[], place⟩, keyAllowed)
  | '\r' :: '\n' :: rest, place, _, keyAllowed =>
    skipFrom bracketed rest (place.nextLine 2) false (keyAllowed || !bracketed)
  | c :: rest, place, comment, keyAllowed =>
    if isBreak c then
      skipFrom bracketed rest (place.nextLine c.utf8Size) false (keyAllowed || !bracketed)
    else if comment then skipFrom bracketed rest (place.past c) true keyAllowed
    else if c = ' ' ∨ (c = '\t' ∧ (bracketed ∨ !keyAllowed)) ∨
        (c = '\ufeff' ∧ place.column = 0) then
      skipFrom bracketed rest (place.past c) false keyAllowed
    else if c = '#' then skipFrom bracketed rest (place.along 1) true keyAllowed
    else (⟨c :: rest, place⟩, keyAllowed)

/-- Gives up a key start that the cursor has passed. -/
def expire (place : Position) : Option KeyStart → Except Error (Option KeyStart)
  | none => .ok none
  | some start =>
    if start.isPast place then
      if start.required then .error .unfinishedKey else .ok none
    else .ok (some start)

def closeBlocks (s : Lexer) (column : Nat) : Lexer :=
  if s.bracketed then s
  else
    let closed := (s.blocks.takeWhile (column < ·)).length
    { s with
      blocks := s.blocks.drop closed
      tokens := List.replicate closed .blockEnd ++ s.tokens
      count := s.count + closed }

def closeAllBlocks (s : Lexer) : Lexer :=
  if s.bracketed then s
  else
    { s with
      blocks := []
      tokens := List.replicate s.blocks.length .blockEnd ++ s.tokens
      count := s.count + s.blocks.length }

def toToken (s : Lexer) : Except Error Lexer := do
  let (cursor, keyAllowed) := skipFrom s.bracketed s.cursor.rest s.cursor.position false s.keyAllowed
  let keyStart ← expire cursor.position s.keyStart
  let outer ← s.outer.mapM (expire cursor.position)
  .ok ({ s with cursor, keyAllowed, keyStart, outer }.closeBlocks cursor.column)

/-- No key starts here after all. -/
def dropKey (s : Lexer) : Except Error Lexer :=
  match s.keyStart with
  | some start => if start.required then .error .unfinishedKey else .ok { s with keyStart := none }
  | none => .ok s

def saveKey (s : Lexer) : Except Error Lexer :=
  if s.keyAllowed then do
    let required := !s.bracketed && s.blocks.head? == some s.cursor.column
    let s ← s.dropKey
    .ok { s with keyStart := some ⟨required, s.count, s.cursor.position⟩ }
  else .ok s

/-- Opens a block collection at the cursor if it is deeper than the ones that are open. -/
def openBlock (s : Lexer) (start : Token) : Lexer :=
  if !s.bracketed && s.isDeeper s.cursor.column then
    { s with blocks := s.cursor.column :: s.blocks }.emit start
  else s

def emitSkip (s : Lexer) (length : Nat) (token : Token) : Lexer :=
  { s with cursor := s.cursor.skip length }.emit token

/-- Reads a mark between documents, which closes everything. -/
def documentMark (s : Lexer) (token : Token) : Except Error Lexer := do
  let s ← s.closeAllBlocks.dropKey
  .ok ({ s with keyAllowed := false }.emitSkip 3 token)

def directive (s : Lexer) : Except Error Lexer := do
  let s ← s.closeAllBlocks.dropKey
  let (token, cursor) ← readDirective s.cursor
  .ok ({ s with keyAllowed := false, cursor }.emit token)

def openBracket (s : Lexer) (token : Token) : Except Error Lexer := do
  let s ← s.saveKey
  .ok ({ s with keyStart := none, outer := s.keyStart :: s.outer, keyAllowed := true }.emitSkip 1 token)

def closeBracket (s : Lexer) (token : Token) : Except Error Lexer := do
  let s ← s.dropKey
  let s := match s.outer with
    | [] => s
    | keyStart :: outer => { s with keyStart, outer }
  .ok ({ s with keyAllowed := false }.emitSkip 1 token)

def flowEntry (s : Lexer) : Except Error Lexer := do
  let s ← s.dropKey
  .ok ({ s with keyAllowed := true }.emitSkip 1 .flowEntry)

def blockEntry (s : Lexer) : Except Error Lexer := do
  if !s.bracketed && !s.keyAllowed then .error .misplacedIndicator
  else
    let s ← (s.openBlock .blockSequenceStart).dropKey
    .ok ({ s with keyAllowed := true }.emitSkip 1 .blockEntry)

def explicitKey (s : Lexer) : Except Error Lexer := do
  if !s.bracketed && !s.keyAllowed then .error .misplacedIndicator
  else
    let s ← (s.openBlock .blockMappingStart).dropKey
    .ok ({ s with keyAllowed := !s.bracketed }.emitSkip 1 .key)

/-- Reads the colon before a value. With a key start at hand, what was read since is the key. -/
def value (s : Lexer) : Except Error Lexer :=
  match s.keyStart with
  | some start =>
    let column := start.position.column
    let opened :=
      if !s.bracketed && s.isDeeper column then
        { s with blocks := column :: s.blocks }.insertTokens start.tokenCount [.blockMappingStart, .key]
      else s.insertTokens start.tokenCount [.key]
    .ok ({ opened with keyStart := none, keyAllowed := false }.emitSkip 1 .value)
  | none =>
    if !s.bracketed && !s.keyAllowed then .error .misplacedIndicator
    else .ok ({ s.openBlock .blockMappingStart with keyAllowed := !s.bracketed }.emitSkip 1 .value)

def anchor (s : Lexer) (token : String → Token) : Except Error Lexer := do
  let s ← s.saveKey
  let (name, cursor) ← readAnchor s.cursor
  .ok ({ s with keyAllowed := false, cursor }.emit (token name))

def tag (s : Lexer) : Except Error Lexer := do
  let s ← s.saveKey
  let (token, cursor) ← readTag s.bracketed s.cursor
  .ok ({ s with keyAllowed := false, cursor }.emit token)

def blockScalar (s : Lexer) (folded : Bool) : Except Error Lexer := do
  let s ← s.dropKey
  let scalar ← BlockText.read folded s.blocks.head? s.cursor
  .ok ({ s with keyAllowed := true, cursor := scalar.after }.emit
    (.scalar (String.ofList scalar.text) false))

def quotedScalar (s : Lexer) (double : Bool) : Except Error Lexer := do
  let s ← s.saveKey
  let cursor := s.cursor.skip 1
  let scalar ← QuotedText.readFrom double cursor.rest cursor.position [] .none
  .ok ({ s with keyAllowed := false, cursor := scalar.after }.emit
    (.scalar (String.ofList scalar.text) false))

def plainScalar (s : Lexer) : Except Error Lexer := do
  let s ← s.saveKey
  let indent := match s.blocks with
    | [] => 0
    | block :: _ => block + 1
  let scalar ← PlainText.readFrom s.bracketed indent s.cursor.rest s.cursor.position [] .none
  .ok ({ s with keyAllowed := scalar.passedBreak, cursor := scalar.after }.emit
    (.scalar (String.ofList scalar.text) true))

def startsPlain (bracketed : Bool) (c : Char) (rest : List Char) : Bool :=
  !(isBlank c || isBreak c || isIndicator c) || (c == '-' && !startsWithBlank rest) ||
    (!bracketed && (c == '?' || c == ':') && !atGap rest)

def readToken (s : Lexer) (c : Char) (rest : List Char) : Except Error Lexer :=
  if s.cursor.column = 0 ∧ c = '%' then s.directive
  else if atDocumentMark s.cursor.column (c :: rest) then
    s.documentMark (if c = '-' then .documentStart else .documentEnd)
  else if c = '[' then s.openBracket .flowSequenceStart
  else if c = '\x7b' then s.openBracket .flowMappingStart
  else if c = ']' then s.closeBracket .flowSequenceEnd
  else if c = '\x7d' then s.closeBracket .flowMappingEnd
  else if c = ',' then s.flowEntry
  else if c = '-' ∧ atGap rest then s.blockEntry
  else if c = '?' ∧ (s.bracketed ∨ atGap rest) then s.explicitKey
  else if c = ':' ∧ (s.bracketed ∨ atGap rest) then s.value
  else if c = '*' then s.anchor .alias
  else if c = '&' then s.anchor .anchor
  else if c = '!' then s.tag
  else if c = '|' ∧ !s.bracketed then s.blockScalar false
  else if c = '>' ∧ !s.bracketed then s.blockScalar true
  else if c = '\'' then s.quotedScalar false
  else if c = '"' then s.quotedScalar true
  else if startsPlain s.bracketed c rest then s.plainScalar
  else .error .unexpectedCharacter

def run : (bound : Nat) → Lexer → Except Error (List Token)
  | 0, _ => .error .stepBound
  | bound + 1, s => do
    let s ← s.toToken
    match s.cursor.rest with
    | [] => do
      let s ← s.closeAllBlocks.dropKey
      .ok s.tokens.reverse
    | c :: rest => run bound (← s.readToken c rest)

end Lexer

/-- The tokens of a text. Every token but the last takes a character at least. -/
def Token.ofText (text : List Char) : Except Error (List Token) :=
  if text.all isAllowed then (Lexer.ofText text).run (text.length + 1)
  else .error .forbiddenCharacter

end EditorScheme.Yaml
