import EditorScheme.Proofs.Xml.Reader
import EditorScheme.Proofs.Xml.Tree
import EditorScheme.Number
import Mathlib.Data.Option.Basic

/-!
What an XML 1.0 processor makes of a document. It refuses characters outside the production Char, turns the
line ends of the whole document into line feeds, replaces references in the values of attributes and turns the
white space there into blanks. The processor here knows elements and attributes in double quotes only: declarations,
comments, text between tags and white space inside tags beyond one blank are not what a writer puts.
-/
namespace EditorScheme.Xml

def within (ranges : List (Nat × Nat)) (c : Char) : Bool :=
  ranges.any fun range => range.1 ≤ c.toNat && c.toNat ≤ range.2

/-- The production Char. -/
def isXmlChar : Char → Bool :=
  within [(0x9, 0xA), (0xD, 0xD), (0x20, 0xD7FF), (0xE000, 0xFFFD), (0x10000, 0x10FFFF)]

/-- The production NameStartChar. -/
def startsName : Char → Bool :=
  within [(0x3A, 0x3A), (0x41, 0x5A), (0x5F, 0x5F), (0x61, 0x7A), (0xC0, 0xD6), (0xD8, 0xF6), (0xF8, 0x2FF),
    (0x370, 0x37D), (0x37F, 0x1FFF), (0x200C, 0x200D), (0x2070, 0x218F), (0x2C00, 0x2FEF), (0x3001, 0xD7FF),
    (0xF900, 0xFDCF), (0xFDF0, 0xFFFD), (0x10000, 0xEFFFF)]

/-- The production NameChar. -/
def continuesName (c : Char) : Bool :=
  startsName c || within [(0x2D, 0x2E), (0x30, 0x39), (0xB7, 0xB7), (0x300, 0x36F), (0x203F, 0x2040)] c

/-- The production Name. -/
def isXmlName (name : String) : Bool :=
  match name.toList with
  | [] => false
  | first :: rest => startsName first && rest.all continuesName

/-- Both ways to end a line with a carriage return become one line feed. -/
def lineEnds : List Char → List Char
  | '\r' :: '\n' :: rest => '\n' :: lineEnds rest
  | '\r' :: rest => '\n' :: lineEnds rest
  | c :: rest => c :: lineEnds rest
  | [] => []

/-- The character with a number in a reference. A number of no character counts as zero, which is outside Char. -/
def numberedChar? (base : Nat) (digits : List Char) : Option Char :=
  ((Text.readNat? base digits).map Char.ofNat).filter isXmlChar

def referredChar? : List Char → Option Char
  | '#' :: 'x' :: digits => numberedChar? 16 digits
  | '#' :: digits => numberedChar? 10 digits
  | ['l', 't'] => some '<'
  | ['g', 't'] => some '>'
  | ['a', 'm', 'p'] => some '&'
  | ['a', 'p', 'o', 's'] => some '\''
  | ['q', 'u', 'o', 't'] => some '"'
  | _ => none

def blankOfSpace (c : Char) : Char := if isSpace c then ' ' else c

/-- The value of an attribute of type CDATA from the characters between its quotes, where `name?` is what has been read
of a reference. White space that comes out of a reference stays. -/
def normalize? : (name? : Option (List Char)) → List Char → Option (List Char)
  | none, [] => some []
  | none, '&' :: rest => normalize? (some []) rest
  | none, '<' :: _ => none
  | none, c :: rest => (normalize? none rest).map (blankOfSpace c :: ·)
  | some _, [] => none
  | some name, ';' :: rest => (referredChar? name).bind fun c => (normalize? none rest).map (c :: ·)
  | some name, c :: rest => normalize? (some (name ++ [c])) rest

def attributeValue? (text : List Char) : Option String := (normalize? none text).map String.ofList

namespace Tag

/-- All names are Names, and no attribute is given twice. -/
def WellFormed (tag : Tag) : Prop := (∀ name ∈ tag.names, isXmlName name = true) ∧ tag.names.tail.Nodup

instance (tag : Tag) : Decidable tag.WellFormed :=
  inferInstanceAs (Decidable ((∀ name ∈ tag.names, isXmlName name = true) ∧ tag.names.tail.Nodup))

def values : Tag → List String
  | .start element | .single element => element.attributes.map Prod.snd
  | .finish _ => []

@[simp] theorem values_start (element : Element) : (start element).values = element.attributes.map Prod.snd := rfl

@[simp] theorem values_finish (name : String) : (finish name).values = [] := rfl

@[simp] theorem values_single (element : Element) : (single element).values = element.attributes.map Prod.snd := rfl

theorem values_mapValues (tag : Tag) (change : String → String) :
    (tag.mapValues change).values = tag.values.map change := by
  cases tag <;> simp [Element.mapValues]

theorem mapValues_eq_self {tag : Tag} {change : String → String}
    (fixed : ∀ value ∈ tag.values, change value = value) : tag.mapValues change = tag := by
  have attributes {element : Element} (fixed : ∀ pair ∈ element.attributes, change pair.2 = pair.2) :
      element.mapValues change = element := by
    rw [Element.mapValues, List.map_congr_left fun pair member => by rw [fixed pair member], List.map_id']
  cases tag with
  | finish name => rfl
  | start element | single element =>
    have same : element.mapValues change = element :=
      attributes fun pair member => fixed pair.2 (by simpa using ⟨pair.1, member⟩)
    simp [same]

end Tag

def Node.values (node : Node) : List String := node.tags.flatMap Tag.values

/-- The tree that a processor reports; none for a text that is not well-formed. -/
def process? (text : String) : Option Node := do
  guard (text.toList.all isXmlChar)
  let tags ← readTagsWith attributeValue? (lineEnds text.toList)
  guard (∀ tag ∈ tags, tag.WellFormed)
  match ← readNodes tags with
  | [root] => some root
  | _ => none

/-! ### Characters -/

theorem isXmlChar_of_continuesName {c : Char} (continues : continuesName c = true) : isXmlChar c = true := by
  simp [continuesName, startsName, within] at continues
  simp [isXmlChar, within]
  omega

theorem isNameChar_of_continuesName {c : Char} (continues : continuesName c = true) : isNameChar c = true := by
  have apart : ∀ other ∈ [' ', '\n', '\t', '\r', '<', '>', '/', '=', '"'], c ≠ other := by
    have never : ([' ', '\n', '\t', '\r', '<', '>', '/', '=', '"'].all fun other => !continuesName other) = true := by
      decide
    rintro other member rfl
    simpa [continues] using List.all_eq_true.mp never c member
  simpa [isNameChar, isSpace, and_assoc] using apart

theorem continuesName_of_isXmlName {name : String} (named : isXmlName name = true) :
    name ≠ "" ∧ ∀ c ∈ name.toList, continuesName c = true := by
  unfold isXmlName at named
  split at named
  case h_1 => simp at named
  case h_2 first rest chars =>
    rw [Bool.and_eq_true, List.all_eq_true] at named
    refine ⟨fun empty => by simp [empty] at chars, ?_⟩
    rw [chars, List.forall_mem_cons]
    exact ⟨by simp [continuesName, named.1], named.2⟩

theorem isPlainName_of_isXmlName {name : String} (named : isXmlName name = true) : isPlainName name = true := by
  obtain ⟨notEmpty, chars⟩ := continuesName_of_isXmlName named
  exact (isPlainName_iff name).mpr ⟨notEmpty, fun c member => isNameChar_of_continuesName (chars c member)⟩

theorem all_of_isXmlName {name : String} (named : isXmlName name = true) : name.toList.all isXmlChar = true :=
  List.all_eq_true.mpr fun c member => isXmlChar_of_continuesName ((continuesName_of_isXmlName named).2 c member)

theorem Tag.WellFormed.wellNamed {tag : Tag} (formed : tag.WellFormed) : tag.WellNamed :=
  List.all_eq_true.mpr fun name member => isPlainName_of_isXmlName (formed.1 name member)

theorem all_escapeChar (c : Char) : (escapeChar c).all isXmlChar = isXmlChar c := by
  unfold escapeChar
  split
  case h_6 => simp
  all_goals decide

theorem all_escape (text : String) : (escape text).toList.all isXmlChar = text.toList.all isXmlChar := by
  simp [escape, List.all_flatMap, all_escapeChar]

theorem all_elementText {element : Element} (named : isXmlName element.name = true)
    (attributesNamed : ∀ pair ∈ element.attributes, isXmlName pair.1 = true) :
    element.text.toList.all isXmlChar =
      (element.attributes.map Prod.snd).all fun value => value.toList.all isXmlChar := by
  rw [Element.toList_text, List.all_append, all_of_isXmlName named, Bool.true_and, List.all_flatMap, List.all_map]
  have one : ∀ pair ∈ element.attributes,
      (Element.attributeText pair).toList.all isXmlChar = pair.2.toList.all isXmlChar := by
    intro pair member
    have marks : isXmlChar ' ' = true ∧ isXmlChar '=' = true ∧ isXmlChar '"' = true := by decide
    simp [Element.attributeText, all_of_isXmlName (attributesNamed pair member), all_escape, marks]
  rw [Bool.eq_iff_iff, List.all_eq_true, List.all_eq_true]
  exact forall₂_congr fun pair member => by rw [one pair member, Function.comp_apply]

theorem all_tagText {tag : Tag} (formed : tag.WellFormed) :
    tag.text.toList.all isXmlChar = tag.values.all fun value => value.toList.all isXmlChar := by
  have brackets : isXmlChar '<' = true ∧ isXmlChar '/' = true ∧ isXmlChar '>' = true := by decide
  have named := formed.1
  cases tag with
  | finish name => simp [Tag.text, all_of_isXmlName (named name (by simp [Tag.names])), brackets]
  | start element | single element =>
    obtain ⟨elementNamed, attributesNamed⟩ := (Tag.forall_names element).mp named
    simp [Tag.text, all_elementText elementNamed attributesNamed, brackets]

theorem Writer.all_putAll (tags : List Tag) (formed : ∀ tag ∈ tags, tag.WellFormed) (w : Writer) :
    (w.putAll tags).text.toList.all isXmlChar =
      (w.text.toList.all isXmlChar && (tags.flatMap Tag.values).all fun value => value.toList.all isXmlChar) := by
  induction tags generalizing w with
  | nil => simp [putAll]
  | cons tag tags ih =>
    have gap : (w.gap tag).toList.all isXmlChar = true := by
      refine List.all_eq_true.mpr fun c member => ?_
      rcases mem_gap member with rfl | rfl <;> decide
    have rest := ih (fun tag member => formed tag (by simp [member])) (w.put tag)
    rw [text_put, String.toList_append, String.toList_append, List.all_append, List.all_append, gap,
      all_tagText (formed tag (by simp)), Bool.and_true, Bool.and_assoc, ← List.all_append] at rest
    simpa [putAll] using rest

/-! ### Line ends -/

def normalizeLines (text : String) : String := String.ofList (lineEnds text.toList)

theorem lineEnds_cons {c : Char} (noReturn : c ≠ '\r') (rest : List Char) :
    lineEnds (c :: rest) = c :: lineEnds rest := by
  rw [lineEnds.eq_3] <;> simp [noReturn]

/-- A carriage return in front of what is no line feed ends the line alone. -/
theorem lineEnds_append_cons (text : List Char) {c : Char} (noFeed : c ≠ '\n') (rest : List Char) :
    lineEnds (text ++ c :: rest) = lineEnds text ++ lineEnds (c :: rest) := by
  induction text using lineEnds.induct with
  | case1 text ih => simp [lineEnds, ih]
  | case2 text alone ih =>
    have stillAlone : ∀ after, text ++ c :: rest ≠ '\n' :: after := by
      cases text with
      | nil => simp [noFeed]
      | cons first text => simpa using fun same => alone text (by rw [same])
    rw [List.cons_append, lineEnds.eq_2 _ stillAlone, lineEnds.eq_2 _ alone, ih, List.cons_append]
  | case3 first text _ noReturn ih =>
    rw [List.cons_append, lineEnds_cons noReturn, lineEnds_cons noReturn, ih, List.cons_append]
  | case4 => rfl

/-- What becomes of the line ends of a text in front of any other text. -/
def Settles (text settled : List Char) : Prop := ∀ rest, lineEnds (text ++ rest) = settled ++ lineEnds rest

theorem settles_self {text : List Char} (noReturn : '\r' ∉ text) : Settles text text := by
  intro rest
  induction text with
  | nil => rfl
  | cons c text ih =>
    rw [List.mem_cons, not_or] at noReturn
    rw [List.cons_append, lineEnds_cons (Ne.symm noReturn.1), ih noReturn.2, List.cons_append]

theorem Settles.append {a settledA b settledB : List Char} (first : Settles a settledA)
    (second : Settles b settledB) : Settles (a ++ b) (settledA ++ settledB) := by
  intro rest
  rw [List.append_assoc, first, second, List.append_assoc]

theorem notMem_escapeChar {c other : Char} (apart : c ≠ other) (plain : other ∈ ['\n', '\r']) :
    other ∉ escapeChar c := by
  unfold escapeChar
  split
  case h_6 => simpa using apart.symm
  all_goals
    simp only [List.mem_cons, List.not_mem_nil, or_false] at plain
    rcases plain with rfl | rfl <;> decide

theorem escapeChar_ne_nil (c : Char) : escapeChar c ≠ [] := by
  unfold escapeChar
  split <;> simp

theorem lineEnds_flatMap_escapeChar (text : List Char) :
    lineEnds (text.flatMap escapeChar) = (lineEnds text).flatMap escapeChar := by
  have feed : escapeChar '\n' = ['\n'] := rfl
  have whole : escapeChar '\r' = ['\r'] := rfl
  induction text using lineEnds.induct with
  | case1 text ih => simp [feed, whole, lineEnds.eq_1, ih]
  | case2 text alone ih =>
    have stillAlone : ∀ after, text.flatMap escapeChar ≠ '\n' :: after := by
      cases text with
      | nil => simp
      | cons first text =>
        have noFeed : first ≠ '\n' := fun same => alone text (by rw [same])
        intro after same
        rw [List.flatMap_cons, List.append_eq_cons_iff] at same
        rcases same with ⟨nothing, -⟩ | ⟨behind, starts, -⟩
        · exact escapeChar_ne_nil first nothing
        · exact notMem_escapeChar noFeed (by simp) (by simp [starts])
    rw [List.flatMap_cons, whole, List.singleton_append, lineEnds.eq_2 _ stillAlone, lineEnds.eq_2 _ alone, ih,
      List.flatMap_cons, feed, List.singleton_append]
  | case3 first text _ noReturn ih =>
    rw [List.flatMap_cons, settles_self (notMem_escapeChar noReturn (by simp)), lineEnds_cons noReturn, ih,
      List.flatMap_cons]
  | case4 => rfl

theorem toList_escape_normalizeLines (text : String) :
    (escape (normalizeLines text)).toList = lineEnds (escape text).toList := by
  simp [escape, normalizeLines, lineEnds_flatMap_escapeChar]

/-- The quotes keep the line ends of a value apart from what stands around it. -/
theorem settles_attributeText {pair : String × String} (noReturn : '\r' ∉ pair.1.toList) :
    Settles (Element.attributeText pair).toList
      (Element.attributeText (pair.1, normalizeLines pair.2)).toList := by
  have front : '\r' ∉ ' ' :: pair.1.toList ++ ['=', '"'] := by simp [noReturn]
  have value : Settles ((escape pair.2).toList ++ ['"']) ((escape (normalizeLines pair.2)).toList ++ ['"']) := by
    intro rest
    rw [List.append_assoc, List.singleton_append, lineEnds_append_cons _ (by decide), lineEnds_cons (by decide),
      toList_escape_normalizeLines, List.append_assoc, List.singleton_append]
  simpa [Element.attributeText] using (settles_self front).append value

theorem settles_elementText {element : Element} (noReturn : '\r' ∉ element.name.toList)
    (attributesNoReturn : ∀ pair ∈ element.attributes, '\r' ∉ pair.1.toList) :
    Settles element.text.toList (element.mapValues normalizeLines).text.toList := by
  have attributes (pairs : List (String × String)) (noReturn : ∀ pair ∈ pairs, '\r' ∉ pair.1.toList) :
      Settles (pairs.flatMap fun pair => (Element.attributeText pair).toList)
        (pairs.flatMap fun pair => (Element.attributeText (pair.1, normalizeLines pair.2)).toList) := by
    induction pairs with
    | nil =>
      rw [List.flatMap_nil, List.flatMap_nil]
      exact settles_self List.not_mem_nil
    | cons pair pairs ih =>
      rw [List.flatMap_cons, List.flatMap_cons]
      apply (settles_attributeText (noReturn pair (by simp))).append
      exact ih fun pair member => noReturn pair (by simp [member])
  rw [Element.toList_text, Element.toList_text, Element.mapValues, List.flatMap_map]
  exact (settles_self noReturn).append (attributes element.attributes attributesNoReturn)

theorem return_notMem_of_isXmlName {name : String} (named : isXmlName name = true) : '\r' ∉ name.toList := by
  intro member
  have continues := (continuesName_of_isXmlName named).2 '\r' member
  revert continues
  decide

theorem settles_tagText {tag : Tag} (formed : tag.WellFormed) :
    Settles tag.text.toList (tag.mapValues normalizeLines).text.toList := by
  have named : ∀ name ∈ tag.names, '\r' ∉ name.toList :=
    fun name member => return_notMem_of_isXmlName (formed.1 name member)
  have bracketed {element : Element} (elementNamed : ∀ name ∈ (Tag.start element).names, '\r' ∉ name.toList)
      {last : List Char} (noReturn : '\r' ∉ last) :
      Settles (['<'] ++ element.text.toList ++ last)
        (['<'] ++ (element.mapValues normalizeLines).text.toList ++ last) := by
    obtain ⟨elementNoReturn, attributesNoReturn⟩ := (Tag.forall_names element).mp elementNamed
    have text := settles_elementText elementNoReturn attributesNoReturn
    exact ((settles_self (by decide)).append text).append (settles_self noReturn)
  cases tag with
  | finish name => exact settles_self (by simpa [Tag.text] using named name (by simp [Tag.names]))
  | start element =>
    have noReturn : '\r' ∉ ['>'] := by decide
    simpa [Tag.text] using bracketed named noReturn
  | single element =>
    have noReturn : '\r' ∉ ['/', '>'] := by decide
    simpa [Tag.text] using bracketed named noReturn

theorem Writer.settles_putAll (tags : List Tag) (formed : ∀ tag ∈ tags, tag.WellFormed) (w settled : Writer)
    (sameDepth : settled.depth = w.depth) (sameBegun : settled.begun = w.begun)
    (before : Settles w.text.toList settled.text.toList) :
    Settles (w.putAll tags).text.toList
      (settled.putAll (tags.map (Tag.mapValues · normalizeLines))).text.toList := by
  induction tags generalizing w settled with
  | nil => exact before
  | cons tag tags ih =>
    refine ih (fun tag member => formed tag (by simp [member])) (w.put tag)
      (settled.put (tag.mapValues normalizeLines)) ?_ ?_ ?_
    case refine_1 => cases tag <;> simp [put, line, sameDepth]
    case refine_2 => cases tag <;> simp [put, line]
    case refine_3 =>
      have gap : settled.gap (tag.mapValues normalizeLines) = w.gap tag := by
        cases tag <;> simp [Writer.gap, sameDepth, sameBegun]
      have noReturn : '\r' ∉ (w.gap tag).toList := fun member => by simpa using mem_gap member
      rw [text_put, text_put, gap]
      simpa using (before.append (settles_self noReturn)).append (settles_tagText (formed tag (by simp)))

/-! ### Values -/

/-- Entities hide what they stand for from everything that a processor does to a value but white space. -/
theorem normalize?_escapeChar (c : Char) (rest : List Char) :
    normalize? none (escapeChar c ++ rest) = (normalize? none rest).map (blankOfSpace c :: ·) := by
  unfold escapeChar
  split
  case h_6 noLess _ noAnd _ _ => rw [List.singleton_append, normalize?.eq_4 _ _ noAnd noLess]
  all_goals simp [normalize?, referredChar?, blankOfSpace, isSpace]

theorem normalize?_escape (text : List Char) :
    normalize? none (text.flatMap escapeChar) = some (text.map blankOfSpace) := by
  induction text with
  | nil => rfl
  | cons c text ih => rw [List.flatMap_cons, normalize?_escapeChar, ih, Option.map_some, List.map_cons]

def blankSpaces (text : String) : String := String.ofList (text.toList.map blankOfSpace)

theorem attributeValue?_escape (text : String) :
    attributeValue? (escape text).toList = some (blankSpaces text) := by
  rw [attributeValue?, escape, String.toList_ofList, normalize?_escape, Option.map_some, blankSpaces]

/-- What a processor reports of the value of an attribute whose characters are all admitted. -/
def reported (text : String) : String := blankSpaces (normalizeLines text)

theorem blankOfSpace_eq_self_iff (c : Char) : blankOfSpace c = c ↔ c ∉ ['\t', '\n', '\r'] := by
  unfold blankOfSpace
  split
  case isTrue space =>
    simp only [isSpace, Bool.or_eq_true, beq_iff_eq] at space
    rcases space with ((rfl | rfl) | rfl) | rfl <;> decide
  case isFalse other =>
    simp only [isSpace, Bool.or_eq_true, beq_iff_eq, not_or] at other
    simp [other]

theorem blankOfSpace_blankOfSpace (c : Char) : blankOfSpace (blankOfSpace c) = blankOfSpace c := by
  unfold blankOfSpace
  split <;> simp_all

theorem reported_eq_self_iff (text : String) :
    reported text = text ↔ ∀ c ∈ text.toList, c ∉ ['\t', '\n', '\r'] := by
  constructor
  · intro same c member
    -- All that is reported has gone through `blankOfSpace`.
    rw [← same, reported, blankSpaces, String.toList_ofList] at member
    obtain ⟨source, -, rfl⟩ := List.mem_map.mp member
    exact (blankOfSpace_eq_self_iff _).mp (blankOfSpace_blankOfSpace source)
  · intro plain
    have noReturn : '\r' ∉ text.toList := fun member => plain '\r' member (by decide)
    have lines : lineEnds text.toList = text.toList := by
      simpa [lineEnds] using settles_self noReturn []
    have blanks : text.toList.map blankOfSpace = text.toList := by
      rw [List.map_congr_left fun c member => (blankOfSpace_eq_self_iff c).mpr (plain c member), List.map_id']
    rw [reported, normalizeLines, lines, String.ofList_toList, blankSpaces, blanks, String.ofList_toList]

/-- The end of a line of a text file comes back as one blank, and so does a tab. -/
example : reported "ff\r\n\tff" = "ff  ff" := by decide

/-- Whether a processor gives back a document, and as which tree, depends on the values alone. -/
theorem process?_putAll {tags : List Tag} (formed : ∀ tag ∈ tags, tag.WellFormed) {root : Node}
    (nested : root.tags = tags.map (Tag.mapValues · reported))
    [Decidable (∀ value ∈ tags.flatMap Tag.values, ∀ c ∈ value.toList, isXmlChar c = true)] :
    process? ((Writer.empty.putAll tags).text ++ "\n") =
      if ∀ value ∈ tags.flatMap Tag.values, ∀ c ∈ value.toList, isXmlChar c = true then some root else none := by
  have chars : ((Writer.empty.putAll tags).text ++ "\n").toList.all isXmlChar =
      (tags.flatMap Tag.values).all fun value => value.toList.all isXmlChar := by
    have last : "\n".toList.all isXmlChar = true := by decide
    have start : Writer.empty.text.toList.all isXmlChar = true := rfl
    rw [String.toList_append, List.all_append, Writer.all_putAll tags formed, last, start, Bool.and_true, Bool.true_and]
  have normalized : lineEnds ((Writer.empty.putAll tags).text ++ "\n").toList =
      ((Writer.empty.putAll (tags.map (Tag.mapValues · normalizeLines))).text ++ "\n").toList := by
    rw [String.toList_append, String.toList_append]
    exact Writer.settles_putAll tags formed .empty .empty rfl rfl (settles_self List.not_mem_nil) _
  have formedAfter (change : String → String) : ∀ tag ∈ tags.map (Tag.mapValues · change), tag.WellFormed := by
    intro tag member
    obtain ⟨source, sourceMember, rfl⟩ := List.mem_map.mp member
    simpa [Tag.WellFormed] using formed source sourceMember
  have read : readTagsWith attributeValue? (lineEnds ((Writer.empty.putAll tags).text ++ "\n").toList) =
      some root.tags := by
    rw [normalized, readTagsWith_putAll attributeValue?_escape _ fun tag member =>
      (formedAfter normalizeLines tag member).wellNamed, List.map_map, nested]
    exact congrArg some (List.map_congr_left fun tag _ => tag.mapValues_mapValues normalizeLines blankSpaces)
  have formedRoot : ∀ tag ∈ root.tags, tag.WellFormed := by
    rw [nested]
    exact formedAfter reported
  have admitted : ((tags.flatMap Tag.values).all fun value => value.toList.all isXmlChar) = true ↔
      ∀ value ∈ tags.flatMap Tag.values, ∀ c ∈ value.toList, isXmlChar c = true := by
    simp only [List.all_eq_true]
  unfold process?
  rw [chars, read]
  split
  case isTrue valid =>
    simp only [guard, admitted.mpr valid, if_true, Option.pure_def, Option.bind_eq_bind, Option.bind_some,
      if_pos formedRoot, readNodes_tags]
  case isFalse invalid => simp [guard, mt admitted.mp invalid]

end EditorScheme.Xml
