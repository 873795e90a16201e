import EditorScheme.Scheme.Xml

/-!
Reading XML tag by tag, one character after the other. The reader knows nothing of how tags are written
but the brackets, the quotes around values and the five entities; white space between tags is skipped.
It gives back the tags that a writer has put, whatever the values of their attributes are. The same is proved of
readers that make something else of the values.
-/
namespace EditorScheme.Xml

/-- Puts characters back for their entities. Nothing is read twice. -/
def unescape : List Char → List Char
  | '&' :: 'l' :: 't' :: ';' :: rest => '<' :: unescape rest
  | '&' :: 'g' :: 't' :: ';' :: rest => '>' :: unescape rest
  | '&' :: 'a' :: 'm' :: 'p' :: ';' :: rest => '&' :: unescape rest
  | '&' :: 'a' :: 'p' :: 'o' :: 's' :: ';' :: rest => '\'' :: unescape rest
  | '&' :: 'q' :: 'u' :: 'o' :: 't' :: ';' :: rest => '"' :: unescape rest
  | c :: rest => c :: unescape rest
  | [] => []

def isSpace (c : Char) : Bool := c == ' ' || c == '\n' || c == '\t' || c == '\r'

def isNameChar (c : Char) : Bool := !(isSpace c || ['<', '>', '/', '=', '"'].contains c)

inductive Place
  | between
  /-- Behind the bracket of a tag. -/
  | opened
  | finishName (name : List Char)
  | startName (name : List Char)
  | attributeName (element : Element) (name : List Char)
  /-- Behind the equals sign. -/
  | beforeValue (element : Element) (name : List Char)
  | value (element : Element) (name text : List Char)
  | behindValue (element : Element)
  /-- Behind the slash of a tag that is both start and end. -/
  | closing (element : Element)

structure Reader where
  tags : List Tag
  place : Place

namespace Reader

/-- What may follow the name of an element and the value of an attribute. -/
def proceed (tags : List Tag) (element : Element) : Char → Option Reader
  | ' ' => some ⟨tags, .attributeName element []⟩
  | '>' => some ⟨tags ++ [.start element], .between⟩
  | '/' => some ⟨tags, .closing element⟩
  | _ => none

def read (r : Reader) (c : Char) : Option Reader :=
  match r.place with
  | .between =>
    if c = '<' then some { r with place := .opened } else if isSpace c then some r else none
  | .opened =>
    if c = '/' then some { r with place := .finishName [] }
    else if isNameChar c then some { r with place := .startName [c] }
    else none
  | .finishName name =>
    if isNameChar c then some { r with place := .finishName (name ++ [c]) }
    else if c = '>' then some ⟨r.tags ++ [.finish (String.ofList name)], .between⟩
    else none
  | .startName name =>
    if isNameChar c then some { r with place := .startName (name ++ [c]) }
    else proceed r.tags ⟨String.ofList name, []⟩ c
  | .attributeName element name =>
    if isNameChar c then some { r with place := .attributeName element (name ++ [c]) }
    else if c = '=' then some { r with place := .beforeValue element name }
    else none
  | .beforeValue element name =>
    if c = '"' then some { r with place := .value element name [] } else none
  | .value element name text =>
    if c = '"' then
      some { r with
        place := .behindValue { element with
          attributes := element.attributes ++
            [(String.ofList name, String.ofList (unescape text))] } }
    else some { r with place := .value element name (text ++ [c]) }
  | .behindValue element => proceed r.tags element c
  | .closing element =>
    if c = '>' then some ⟨r.tags ++ [.single element], .between⟩ else none

def readAll (r : Reader) (text : List Char) : Option Reader := text.foldlM read r

end Reader

/-- The tags of a text; none if it is not made of tags. -/
def readTags (text : String) : Option (List Tag) :=
  match Reader.readAll ⟨[], .between⟩ text.toList with
  | some ⟨tags, .between⟩ => some tags
  | _ => none

theorem unescape_cons {c : Char} (plain : c ≠ '&') (rest : List Char) :
    unescape (c :: rest) = c :: unescape rest := by
  rw [unescape.eq_6] <;> simp [plain]

theorem unescape_escapeChar (c : Char) (rest : List Char) :
    unescape (escapeChar c ++ rest) = c :: unescape rest := by
  unfold escapeChar
  split
  case h_6 _ _ _ plain _ _ => exact unescape_cons plain rest
  all_goals simp [unescape]

/-- Text that looks like an entity survives, since its ampersand has become one. -/
theorem unescape_escape (text : List Char) : unescape (text.flatMap escapeChar) = text := by
  induction text with
  | nil => rfl
  | cons c text ih => rw [List.flatMap_cons, unescape_escapeChar, ih]

theorem ne_quote_of_mem_escape {text : List Char} {c : Char} (member : c ∈ text.flatMap escapeChar) :
    c ≠ '"' := by
  obtain ⟨source, -, inside⟩ := List.mem_flatMap.mp member
  rintro rfl
  unfold escapeChar at inside
  split at inside <;> simp_all [eq_comm]

/-- A name that can be told from what stands around it. -/
def isPlainName (name : String) : Bool := name != "" && name.toList.all isNameChar

def Element.mapValues (element : Element) (change : String → String) : Element :=
  { element with attributes := element.attributes.map fun pair => (pair.1, change pair.2) }

namespace Tag

def names : Tag → List String
  | .start element | .single element => element.name :: element.attributes.map Prod.fst
  | .finish name => [name]

theorem forall_names {P : String → Prop} (element : Element) :
    (∀ name ∈ (start element).names, P name) ↔ P element.name ∧ ∀ pair ∈ element.attributes, P pair.1 := by
  rw [names, List.forall_mem_cons, List.forall_mem_map]

def WellNamed (tag : Tag) : Prop := tag.names.all isPlainName = true

instance (tag : Tag) : Decidable tag.WellNamed :=
  inferInstanceAs (Decidable (tag.names.all isPlainName = true))

def text : Tag → String
  | .start element => "<" ++ element.text ++ ">"
  | .finish name => "</" ++ name ++ ">"
  | .single element => "<" ++ element.text ++ "/>"

def mapValues (tag : Tag) (change : String → String) : Tag :=
  match tag with
  | .start element => .start (element.mapValues change)
  | .finish name => .finish name
  | .single element => .single (element.mapValues change)

@[simp] theorem mapValues_start (element : Element) (change : String → String) :
    (start element).mapValues change = .start (element.mapValues change) := rfl

@[simp] theorem mapValues_finish (name : String) (change : String → String) :
    (finish name).mapValues change = .finish name := rfl

@[simp] theorem mapValues_single (element : Element) (change : String → String) :
    (single element).mapValues change = .single (element.mapValues change) := rfl

@[simp] theorem mapValues_id (tag : Tag) : tag.mapValues id = tag := by
  cases tag <;> simp [Element.mapValues]

theorem mapValues_mapValues (tag : Tag) (first second : String → String) :
    (tag.mapValues first).mapValues second = tag.mapValues fun value => second (first value) := by
  cases tag <;> simp [Element.mapValues]

@[simp] theorem names_mapValues (tag : Tag) (change : String → String) :
    (tag.mapValues change).names = tag.names := by
  cases tag <;> simp [Element.mapValues, names]

end Tag

theorem isPlainName_iff (name : String) :
    isPlainName name = true ↔ name ≠ "" ∧ ∀ c ∈ name.toList, isNameChar c = true := by
  simp [isPlainName]

theorem Element.toList_text (element : Element) :
    element.text.toList =
      element.name.toList ++ element.attributes.flatMap fun pair => (attributeText pair).toList := by
  have folded (pairs : List (String × String)) (start : String) :
      (pairs.foldl (fun text pair => text ++ attributeText pair) start).toList =
        start.toList ++ pairs.flatMap fun pair => (attributeText pair).toList := by
    induction pairs generalizing start with
    | nil => simp
    | cons pair pairs ih => simp [ih]
  exact folded element.attributes element.name

namespace Reader

/-- Reads like `read`, but a value is what `value?` makes of the characters between its quotes. -/
def readWith (value? : List Char → Option String) (r : Reader) (c : Char) : Option Reader :=
  match r.place with
  | .value element name text =>
    if c = '"' then
      (value? text).map fun value => { r with
        place := .behindValue { element with
          attributes := element.attributes ++ [(String.ofList name, value)] } }
    else r.read c
  | _ => r.read c

theorem readWith_unescape : readWith (fun text => some (String.ofList (unescape text))) = read := by
  funext ⟨tags, place⟩ c
  cases place
  case value element name text => by_cases quote : c = '"' <;> simp [readWith, read, quote]
  all_goals rfl

def follow (value? : List Char → Option String) (r : Reader) (text : List Char) : Option Reader :=
  text.foldlM (readWith value?) r

section

variable {value? : List Char → Option String} (tags : List Tag)

theorem follow_append (r : Reader) (a b : List Char) :
    follow value? r (a ++ b) = (follow value? r a).bind fun r => follow value? r b := List.foldlM_append

theorem follow_cons (r : Reader) (c : Char) (text : List Char) :
    follow value? r (c :: text) = (readWith value? r c).bind fun r => follow value? r text := List.foldlM_cons

variable (value?) in
theorem follow_collect (place : List Char → Place) (text : List Char)
    (one : ∀ c ∈ text, ∀ before,
      readWith value? ⟨tags, place before⟩ c = some ⟨tags, place (before ++ [c])⟩) (before : List Char) :
    follow value? ⟨tags, place before⟩ text = some ⟨tags, place (before ++ text)⟩ := by
  induction text generalizing before with
  | nil => simp [follow]
  | cons c text ih =>
    rw [follow_cons, one c (by simp), Option.bind_some,
      ih (fun c member => one c (by simp [member]))]
    simp

theorem follow_spaces {gap : List Char} (space : ∀ c ∈ gap, isSpace c = true) :
    follow value? ⟨tags, .between⟩ gap = some ⟨tags, .between⟩ := by
  induction gap with
  | nil => rfl
  | cons c gap ih =>
    have isBlank := space c (by simp)
    have noBracket : c ≠ '<' := by rintro rfl; simp [isSpace] at isBlank
    have one : readWith value? ⟨tags, .between⟩ c = some ⟨tags, .between⟩ := by
      simp [readWith, read, noBracket, isBlank]
    rw [follow_cons, one]
    exact ih fun c member => space c (by simp [member])

variable {change : String → String} (values : ∀ text, value? (escape text).toList = some (change text))

include values

theorem follow_value (element : Element) (name : List Char) (text : String) :
    follow value? ⟨tags, .value element name []⟩ ((escape text).toList ++ ['"']) =
      some ⟨tags, .behindValue { element with
        attributes := element.attributes ++ [(String.ofList name, change text)] }⟩ := by
  have collected := follow_collect value? tags (.value element name) (escape text).toList
    (by
      intro c member before
      have plain : c ≠ '"' := ne_quote_of_mem_escape (by simpa [escape] using member)
      simp [readWith, read, plain]) []
  rw [follow_append, collected]
  simp [follow, readWith, values]

theorem follow_attribute (element : Element) (pair : String × String)
    (named : ∀ c ∈ pair.1.toList, isNameChar c = true) :
    (proceed tags element ' ').bind (fun r => follow value? r (Element.attributeText pair).toList.tail) =
      some ⟨tags, .behindValue { element with
        attributes := element.attributes ++ [(pair.1, change pair.2)] }⟩ := by
  have collected := follow_collect value? tags (.attributeName element) pair.1.toList
    (by intro c member before; simp [readWith, read, named c member]) []
  have text : (Element.attributeText pair).toList.tail =
      pair.1.toList ++ '=' :: '"' :: ((escape pair.2).toList ++ ['"']) := by
    simp [Element.attributeText]
  have equals : readWith value? ⟨tags, .attributeName element pair.1.toList⟩ '=' =
      some ⟨tags, .beforeValue element pair.1.toList⟩ := by
    simp [readWith, read, isNameChar]
  have quote : readWith value? ⟨tags, .beforeValue element pair.1.toList⟩ '"' =
      some ⟨tags, .value element pair.1.toList []⟩ := by
    simp [readWith, read]
  rw [text, proceed, Option.bind_some, follow_append, collected, Option.bind_some, List.nil_append, follow_cons,
    equals, Option.bind_some, follow_cons, quote, Option.bind_some, follow_value tags values, String.ofList_toList]

theorem follow_attributes (element : Element) (pairs : List (String × String))
    (named : ∀ pair ∈ pairs, ∀ c ∈ pair.1.toList, isNameChar c = true) (place : Place)
    (ready : ∀ c, isNameChar c = false → readWith value? ⟨tags, place⟩ c = proceed tags element c)
    {last : Char} (ends : isNameChar last = false) (text : List Char) :
    follow value? ⟨tags, place⟩
        (pairs.flatMap (fun pair => (Element.attributeText pair).toList) ++ last :: text) =
      (proceed tags { element with
        attributes := element.attributes ++ pairs.map fun pair => (pair.1, change pair.2) } last).bind
        fun r => follow value? r text := by
  induction pairs generalizing place element with
  | nil => simp [follow_cons, ready last ends]
  | cons pair pairs ih =>
    have blank : (Element.attributeText pair).toList =
        ' ' :: (Element.attributeText pair).toList.tail := by
      simp [Element.attributeText]
    have first := follow_attribute tags values element pair (named pair (by simp))
    rw [proceed, Option.bind_some] at first
    rw [List.flatMap_cons, blank, List.cons_append, List.cons_append, List.append_assoc,
      follow_cons, ready ' ' (by decide), proceed, Option.bind_some, follow_append, first,
      Option.bind_some, ih _ (fun pair member => named pair (by simp [member])) _ fun _ _ => rfl]
    simp

theorem follow_element {element : Element} (named : isPlainName element.name = true)
    (attributesNamed : ∀ pair ∈ element.attributes, isPlainName pair.1 = true)
    {last : Char} (ends : isNameChar last = false) (text : List Char) :
    follow value? ⟨tags, .between⟩ ('<' :: (element.text.toList ++ last :: text)) =
      (proceed tags (element.mapValues change) last).bind fun r => follow value? r text := by
  obtain ⟨first, rest, name⟩ : ∃ first rest, element.name.toList = first :: rest :=
    List.exists_cons_of_ne_nil (by simpa using ((isPlainName_iff _).mp named).1)
  have nameChars := ((isPlainName_iff _).mp named).2
  rw [name] at nameChars
  have begun : isNameChar first = true := nameChars first (by simp)
  have noSlash : first ≠ '/' := by rintro rfl; simp [isNameChar] at begun
  have bracket : readWith value? ⟨tags, .between⟩ '<' = some ⟨tags, .opened⟩ := by simp [readWith, read]
  have opening : readWith value? ⟨tags, .opened⟩ first = some ⟨tags, .startName [first]⟩ := by
    simp [readWith, read, noSlash, begun]
  have collected := follow_collect value? tags .startName rest
    (by intro c member before; simp [readWith, read, nameChars c (by simp [member])]) [first]
  have whole : String.ofList (first :: rest) = element.name := by rw [← name, String.ofList_toList]
  have attributes := follow_attributes tags values ⟨element.name, []⟩ element.attributes
    (fun pair member => ((isPlainName_iff _).mp (attributesNamed pair member)).2)
    (.startName (first :: rest)) (by intro c other; simp [readWith, read, other, whole]) ends text
  rw [Element.toList_text, name, List.append_assoc, List.cons_append, follow_cons, bracket, Option.bind_some,
    follow_cons, opening, Option.bind_some, follow_append, collected, Option.bind_some]
  simpa [Element.mapValues] using attributes

theorem follow_tag {tag : Tag} (named : tag.WellNamed) :
    follow value? ⟨tags, .between⟩ tag.text.toList = some ⟨tags ++ [tag.mapValues change], .between⟩ := by
  have plain : ∀ name ∈ tag.names, isPlainName name = true := by simpa [Tag.WellNamed] using named
  cases tag with
  | start element =>
    have text : (Tag.start element).text.toList = '<' :: (element.text.toList ++ '>' :: []) := by
      simp [Tag.text]
    obtain ⟨elementPlain, attributesPlain⟩ := (Tag.forall_names element).mp plain
    rw [text, follow_element tags values elementPlain attributesPlain (by decide)]
    rfl
  | single element =>
    have text : (Tag.single element).text.toList = '<' :: (element.text.toList ++ '/' :: ['>']) := by
      simp [Tag.text]
    obtain ⟨elementPlain, attributesPlain⟩ := (Tag.forall_names element).mp plain
    rw [text, follow_element tags values elementPlain attributesPlain (by decide)]
    rfl
  | finish name =>
    have text : (Tag.finish name).text.toList = '<' :: '/' :: (name.toList ++ ['>']) := by
      simp [Tag.text]
    have collected := follow_collect value? tags .finishName name.toList
      (by
        intro c member before
        simp [readWith, read,
          ((isPlainName_iff _).mp (plain name (by simp [Tag.names]))).2 c member]) []
    have bracket : readWith value? ⟨tags, .between⟩ '<' = some ⟨tags, .opened⟩ := by simp [readWith, read]
    have slash : readWith value? ⟨tags, .opened⟩ '/' = some ⟨tags, .finishName []⟩ := by simp [readWith, read]
    rw [text, follow_cons, bracket, Option.bind_some, follow_cons, slash, Option.bind_some, follow_append, collected]
    simp [follow, readWith, read, isNameChar]

end

end Reader

namespace Writer

def gap (w : Writer) (tag : Tag) : String :=
  if w.begun then "\n" ++ indentation (match tag with | .finish _ => w.depth - 1 | _ => w.depth) else ""

theorem text_put (w : Writer) (tag : Tag) : (w.put tag).text = w.text ++ w.gap tag ++ tag.text := by
  cases tag <;> simp [put, line, gap, Tag.text, String.append_assoc]

theorem mem_gap {w : Writer} {tag : Tag} {c : Char} (member : c ∈ (w.gap tag).toList) : c = '\n' ∨ c = ' ' := by
  unfold gap at member
  split at member
  case isTrue =>
    rw [String.toList_append, indentation, String.toList_ofList] at member
    rcases List.mem_append.mp member with line | indented
    · exact .inl (by simpa using line)
    · exact .inr (by simpa using (List.mem_replicate.mp (by simpa using indented)).2)
  case isFalse => simp at member

theorem isSpace_of_mem_gap {w : Writer} {tag : Tag} {c : Char} (member : c ∈ (w.gap tag).toList) :
    isSpace c = true := by
  rcases mem_gap member with rfl | rfl <;> rfl

/-- Reading goes on behind what has been written. -/
theorem follow_putAll {value? : List Char → Option String} {change : String → String}
    (values : ∀ text, value? (escape text).toList = some (change text)) (start : Reader) (done tags : List Tag)
    (named : ∀ tag ∈ tags, tag.WellNamed) (w : Writer)
    (before : Reader.follow value? start w.text.toList = some ⟨done, .between⟩) :
    Reader.follow value? start (w.putAll tags).text.toList =
      some ⟨done ++ tags.map (Tag.mapValues · change), .between⟩ := by
  induction tags generalizing w done with
  | nil => simpa [putAll] using before
  | cons tag tags ih =>
    have after : Reader.follow value? start (w.put tag).text.toList =
        some ⟨done ++ [tag.mapValues change], .between⟩ := by
      rw [text_put, String.toList_append, String.toList_append, Reader.follow_append, Reader.follow_append, before,
        Option.bind_some, Reader.follow_spaces done fun c => isSpace_of_mem_gap, Option.bind_some,
        Reader.follow_tag done values (named tag (by simp))]
    have rest := ih _ (fun tag member => named tag (by simp [member])) (w.put tag) after
    simpa [putAll] using rest

end Writer

/-- The tags of a text whose values mean what `value?` makes of them. -/
def readTagsWith (value? : List Char → Option String) (text : List Char) : Option (List Tag) :=
  match Reader.follow value? ⟨[], .between⟩ text with
  | some ⟨tags, .between⟩ => some tags
  | _ => none

theorem readTags_eq_readTagsWith (text : String) :
    readTags text = readTagsWith (fun value => some (String.ofList (unescape value))) text.toList := by
  unfold readTags readTagsWith Reader.readAll Reader.follow
  rw [Reader.readWith_unescape]

theorem readTagsWith_putAll {value? : List Char → Option String} {change : String → String}
    (values : ∀ text, value? (escape text).toList = some (change text)) (tags : List Tag)
    (named : ∀ tag ∈ tags, tag.WellNamed) :
    readTagsWith value? ((Writer.empty.putAll tags).text ++ "\n").toList =
      some (tags.map (Tag.mapValues · change)) := by
  have written := Writer.follow_putAll values ⟨[], .between⟩ [] tags named .empty rfl
  rw [readTagsWith, String.toList_append, Reader.follow_append, written, Option.bind_some,
    Reader.follow_spaces _ (by simp [isSpace]), List.nil_append]

/-- A document is read back as its tags, whatever its values are. -/
theorem readTags_putAll (tags : List Tag) (named : ∀ tag ∈ tags, tag.WellNamed) :
    readTags ((Writer.empty.putAll tags).text ++ "\n") = some tags := by
  have values (text : String) : some (String.ofList (unescape (escape text).toList)) = some (id text) := by
    simp [escape, unescape_escape]
  rw [readTags_eq_readTagsWith, readTagsWith_putAll values tags named]
  simp

end EditorScheme.Xml
