import EditorScheme.Yaml.Syntax

/-!
From tokens to the node of a document.
-/
namespace EditorScheme.Yaml

abbrev Handles := List (String × List UInt8)

/-- The tokens to be read, and the numbers of the anchors seen before them. -/
structure Input where
  tokens : List Token
  anchors : List (String × Nat)

namespace Input

/-- Gives an anchor its number: how many names have been seen before. A name seen again is given a new
number too, without being counted twice. -/
def addAnchor (input : Input) (name : String) : Input :=
  { input with
    anchors := (name, input.anchors.length) :: input.anchors.filter (fun entry => entry.1 != name) }

def next (input : Input) (stop : Token → Bool) : Bool :=
  match input.tokens with
  | [] => false
  | token :: _ => stop token

end Input

inductive Place
  /-- In a block, where a sequence has to be indented. -/
  | block
  /-- In a block mapping, where the entries of a sequence need not be indented. -/
  | entry
  /-- Inside brackets. -/
  | flow
deriving DecidableEq

def expandTag (handles : Handles) (handle : String) (rest : List UInt8) :
    Except Error (List UInt8) :=
  if handle = "" then .ok rest
  else match handles.lookup handle with
    | some expansion => .ok (expansion ++ rest)
    | none => .error .undefinedTagHandle

/-- Reads an anchor and a tag, each at most once, in either order. -/
def readProperties (handles : Handles) (input : Input) : Except Error (Properties × Input) :=
  match input.tokens with
  | .anchor name :: .tag handle rest :: tokens => do
    let tag ← expandTag handles handle rest
    .ok (⟨some input.anchors.length, some tag⟩, { input.addAnchor name with tokens })
  | .anchor name :: tokens =>
    .ok (⟨some input.anchors.length, none⟩, { input.addAnchor name with tokens })
  | .tag handle rest :: .anchor name :: tokens => do
    let tag ← expandTag handles handle rest
    .ok (⟨some input.anchors.length, some tag⟩, { input.addAnchor name with tokens })
  | .tag handle rest :: tokens => do
    let tag ← expandTag handles handle rest
    .ok (⟨none, some tag⟩, { input with tokens })
  | _ => .ok (.none, input)

def endsBlockItem : Token → Bool
  | .blockEntry | .blockEnd => true
  | _ => false

def endsPlainItem : Token → Bool
  | .blockEntry | .key | .value | .blockEnd => true
  | _ => false

def endsBlockValue : Token → Bool
  | .key | .value | .blockEnd => true
  | _ => false

def endsPairKey : Token → Bool
  | .value | .flowEntry | .flowSequenceEnd => true
  | _ => false

def endsPairValue : Token → Bool
  | .flowEntry | .flowSequenceEnd => true
  | _ => false

def endsFlowKey : Token → Bool
  | .value | .flowEntry | .flowMappingEnd => true
  | _ => false

def endsFlowValue : Token → Bool
  | .flowEntry | .flowMappingEnd => true
  | _ => false

/-- Moves past the comma before every item but the first. -/
def skipComma (first : Bool) (input : Input) : Except Error Input :=
  if first then .ok input
  else match input.tokens with
    | .flowEntry :: tokens => .ok { input with tokens }
    | _ => .error .unexpectedToken

mutual

/-- Reads a node. All functions here read at most `bound` levels and items. -/
def readNode (handles : Handles) :
    (bound : Nat) → Place → Input → Except Error (Node × Input)
  | 0, _, _ => .error .stepBound
  | bound + 1, place, input =>
    match input.tokens with
    | .alias name :: tokens =>
      match input.anchors.lookup name with
      | some number => .ok (.alias number, { input with tokens })
      | none => .error .unknownAlias
    | _ => do
      let (properties, input) ← readProperties handles input
      match input.tokens with
      | .scalar text plain :: tokens =>
        .ok (.scalar properties text plain, { input with tokens })
      | .flowSequenceStart :: tokens => do
        let (items, input) ← readFlowItems handles bound true { input with tokens }
        .ok (.sequence properties items, input)
      | .flowMappingStart :: tokens => do
        let (entries, input) ← readFlowEntries handles bound true { input with tokens }
        .ok (.mapping properties entries, input)
      | .blockSequenceStart :: tokens => do
        let (items, input) ← readBlockItems handles bound { input with tokens }
        .ok (.sequence properties items, input)
      | .blockMappingStart :: tokens => do
        let (entries, input) ← readBlockEntries handles bound { input with tokens }
        .ok (.mapping properties entries, input)
      | tokens =>
        if place = .entry ∧ tokens.head? = some .blockEntry then do
          let (items, input) ← readPlainItems handles bound input
          .ok (.sequence properties items, input)
        else if properties.isNone then .error .unexpectedToken
        else .ok (.scalar properties "" true, input)

/-- Reads a node unless one of the tokens that end its place comes next. -/
def readOptional (handles : Handles) :
    (bound : Nat) → Place → (Token → Bool) → Input → Except Error (Node × Input)
  | 0, _, _, _ => .error .stepBound
  | bound + 1, place, stop, input =>
    if input.next stop then .ok (.absent, input) else readNode handles bound place input

def readBlockItems (handles : Handles) :
    (bound : Nat) → Input → Except Error (List Node × Input)
  | 0, _ => .error .stepBound
  | bound + 1, input =>
    match input.tokens with
    | .blockEntry :: tokens => do
      let (item, input) ← readOptional handles bound .block endsBlockItem { input with tokens }
      let (items, input) ← readBlockItems handles bound input
      .ok (item :: items, input)
    | .blockEnd :: tokens => .ok ([], { input with tokens })
    | _ => .error .unexpectedToken

/-- Reads the items of a block sequence that is not indented. -/
def readPlainItems (handles : Handles) :
    (bound : Nat) → Input → Except Error (List Node × Input)
  | 0, _ => .error .stepBound
  | bound + 1, input =>
    match input.tokens with
    | .blockEntry :: tokens => do
      let (item, input) ← readOptional handles bound .block endsPlainItem { input with tokens }
      let (items, input) ← readPlainItems handles bound input
      .ok (item :: items, input)
    | _ => .ok ([], input)

def readBlockEntries (handles : Handles) :
    (bound : Nat) → Input → Except Error (List (Node × Node) × Input)
  | 0, _ => .error .stepBound
  | bound + 1, input =>
    match input.tokens with
    | .key :: tokens => do
      let (key, input) ← readOptional handles bound .entry endsBlockValue { input with tokens }
      let (value, input) ← readValue handles bound .entry endsBlockValue input
      let (entries, input) ← readBlockEntries handles bound input
      .ok ((key, value) :: entries, input)
    | .blockEnd :: tokens => .ok ([], { input with tokens })
    | _ => .error .unexpectedToken

/-- Reads a value behind a colon. Without a colon the value is left out. -/
def readValue (handles : Handles) :
    (bound : Nat) → Place → (Token → Bool) → Input → Except Error (Node × Input)
  | 0, _, _, _ => .error .stepBound
  | bound + 1, place, stop, input =>
    match input.tokens with
    | .value :: tokens => readOptional handles bound place stop { input with tokens }
    | _ => .ok (.absent, input)

/-- Reads the items of a bracketed sequence. A key and a value without braces are a mapping of one
entry; if the key is left out, the token behind it is passed over. -/
def readFlowItems (handles : Handles) :
    (bound : Nat) → (first : Bool) → Input → Except Error (List Node × Input)
  | 0, _, _ => .error .stepBound
  | bound + 1, first, input =>
    match input.tokens with
    | .flowSequenceEnd :: tokens => .ok ([], { input with tokens })
    | _ => do
      let input ← skipComma first input
      match input.tokens with
      | .flowSequenceEnd :: tokens => .ok ([], { input with tokens })
      | .key :: tokens => do
        let input := { input with tokens }
        let (key, input) ←
          if input.next endsPairKey then
            .ok (.absent, { input with tokens := input.tokens.drop 1 })
          else readNode handles bound .flow input
        let (value, input) ← readValue handles bound .flow endsPairValue input
        let (items, input) ← readFlowItems handles bound false input
        .ok (.mapping .none [(key, value)] :: items, input)
      | _ => do
        let (item, input) ← readNode handles bound .flow input
        let (items, input) ← readFlowItems handles bound false input
        .ok (item :: items, input)

/-- Reads the entries of a mapping in braces. A node that is no key has no value. -/
def readFlowEntries (handles : Handles) :
    (bound : Nat) → (first : Bool) → Input → Except Error (List (Node × Node) × Input)
  | 0, _, _ => .error .stepBound
  | bound + 1, first, input =>
    match input.tokens with
    | .flowMappingEnd :: tokens => .ok ([], { input with tokens })
    | _ => do
      let input ← skipComma first input
      match input.tokens with
      | .flowMappingEnd :: tokens => .ok ([], { input with tokens })
      | .key :: tokens => do
        let (key, input) ← readOptional handles bound .flow endsFlowKey { input with tokens }
        let (value, input) ← readValue handles bound .flow endsFlowValue input
        let (entries, input) ← readFlowEntries handles bound false input
        .ok ((key, value) :: entries, input)
      | _ => do
        let (key, input) ← readNode handles bound .flow input
        let (entries, input) ← readFlowEntries handles bound false input
        .ok ((key, .absent) :: entries, input)

end

/-- Reads directives. `version` tells whether a version has been given. -/
def readDirectives : List Token → (version : Bool) → Handles → Except Error (Handles × List Token)
  | .version major minor :: rest, version, handles =>
    if version then .error .repeatedDirective
    else if major = 1 ∧ (minor = 1 ∨ minor = 2) then readDirectives rest true handles
    else .error .unsupportedVersion
  | .tagHandle handle expansion :: rest, version, handles =>
    if (handles.lookup handle).isSome then .error .repeatedDirective
    else readDirectives rest version ((handle, expansion) :: handles)
  | tokens, _, handles => .ok (handles, tokens)

def standardHandles : Handles :=
  [("!", "!".toList.map (fun c => UInt8.ofNat c.toNat)),
    ("!!", "tag:yaml.org,2002:".toList.map (fun c => UInt8.ofNat c.toNat))]

def startsDocument : Token → Bool
  | .version .. | .tagHandle .. | .documentStart => true
  | _ => false

def endsDocument : Token → Bool
  | .version .. | .tagHandle .. | .documentStart | .documentEnd => true
  | _ => false

/-- A bound for a list of tokens: every second level or item takes a token at least. -/
def readBound (tokens : List Token) : Nat := 4 * tokens.length + 4

/-- Reads the only document; none if there is no document at all. -/
def Node.ofTokens? (tokens : List Token) : Except Error (Option Node) :=
  match tokens with
  | [] => .ok none
  | first :: _ => do
    let (root, input) ←
      if startsDocument first then do
        let (handles, rest) ← readDirectives tokens false []
        match rest with
        | .documentStart :: rest =>
          if rest.isEmpty || rest.head?.any endsDocument then .ok (Node.absent, ⟨rest, []⟩)
          else readNode (handles ++ standardHandles) (readBound tokens) .block ⟨rest, []⟩
        | _ => .error .unexpectedToken
      else readNode standardHandles (readBound tokens) .block ⟨tokens, []⟩
    if input.tokens.all (· == .documentEnd) then .ok (some root) else .error .severalDocuments

end EditorScheme.Yaml
