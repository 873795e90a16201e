import EditorScheme.Proofs.Assembly
import EditorScheme.Proofs.OptionNames

/-!
Where the values of a scheme come from. What an attribute sets is a list of assignments in which colors still are
tokens, so it is the same list for every palette; resolving the attribute puts the values of the palette in.
-/
namespace EditorScheme

/-- A color token stands for what the palette makes of it, an encoding for itself. -/
inductive Origin
  | token (text : String)
  | encoding (text : String)
deriving DecidableEq, Repr

def Origin.value (palette : Palette) : Origin → String
  | .token text => palette.resolve text
  | .encoding text => text

def Origin.Listed (styles : StyleMap) (category : String) (origin : Origin) : Prop :=
  ∃ option encoding, styles.encoding category option = .ok encoding ∧ origin = .encoding encoding

namespace Attribute

variable {palette : Palette} {styles : StyleMap} {isItalic : Bool}

def colored? (styles : StyleMap) (option : SubOption) : Option (String × Origin) :=
  match styles.classify option.name with
  | .literalColor => some (option.name, .token option.condition)
  | .styleFlag _ => none

def flagged? (styles : StyleMap) (isItalic : Bool) (option : SubOption) : Option (String × Origin) :=
  (styles.selected? isItalic option).map fun set => (set.1, .encoding set.2)

def separateAssignments (styles : StyleMap) (isItalic : Bool) (list : List SubOption) : List (String × Origin) :=
  list.filterMap (colored? styles) ++ list.filterMap (flagged? styles isItalic)

def combined (styles : StyleMap) (isItalic : Bool) (definition : Attribute) :
    Except SchemaError (List (String × Origin)) :=
  if definition.isBoldItalic isItalic then
    styles.boldItalic.map fun encoding => [(StyleMap.fontType, .encoding encoding)]
  else .ok []

/-- Everything that an attribute sets, in order. Later assignments to a name replace earlier ones. -/
def assignments (styles : StyleMap) (isItalic : Bool) (definition : Attribute) :
    Except SchemaError (List (String × Origin)) :=
  match definition with
  | .foreground token => .ok [(foregroundOption, .token token)]
  | .options list => (definition.combined styles isItalic).map (separateAssignments styles isItalic list ++ ·)

/-- The options of an attribute with the origins of their values. -/
def origins (styles : StyleMap) (isItalic : Bool) (definition : Attribute) :
    Except SchemaError (Table String Origin) :=
  (definition.assignments styles isItalic).map .ofList

theorem setColors_mapValues (list : List SubOption) (table : Table String Origin) :
    setColors palette styles list (table.mapValues (·.value palette)) =
      (table.insertAll (list.filterMap (colored? styles))).mapValues (·.value palette) := by
  induction list generalizing table with
  | nil => rfl
  | cons option list ih =>
    cases kind : styles.classify option.name with
    | styleFlag category =>
      have skipped : setColors palette styles (option :: list) (table.mapValues (·.value palette)) =
          setColors palette styles list (table.mapValues (·.value palette)) := by simp [setColors, kind]
      rw [skipped, ih, List.filterMap_cons_none (by simp [colored?, kind])]
    | literalColor =>
      have set : setColors palette styles (option :: list) (table.mapValues (·.value palette)) =
          setColors palette styles list ((table.insert option.name (.token option.condition)).mapValues
            (·.value palette)) := by
        rw [← Table.insert_mapValues]
        simp [setColors, kind, Origin.value]
      rw [set, ih, List.filterMap_cons_some (b := (option.name, .token option.condition)) (by simp [colored?, kind])]
      rfl

theorem settings_eq (list : List SubOption) : settings palette styles isItalic list =
    (Table.ofList (separateAssignments styles isItalic list)).mapValues (·.value palette) := by
  have flags : list.filterMap (styles.selected? isItalic) =
      (list.filterMap (flagged? styles isItalic)).map fun pair => (pair.1, pair.2.value palette) := by
    rw [List.map_filterMap]
    congr 1
    funext option
    rw [flagged?, Option.map_map]
    cases styles.selected? isItalic option <;> rfl
  have none : (Table.empty : ResolvedAttribute) =
      (Table.empty : Table String Origin).mapValues (·.value palette) := rfl
  rw [settings, flags, none, setColors_mapValues, Table.insertAll_mapValues, ← Table.insertAll_append]
  rfl

theorem resolve_eq_origins (definition : Attribute) : definition.resolve palette styles isItalic =
    (definition.origins styles isItalic).map fun table => table.mapValues (·.value palette) := by
  cases definition with
  | foreground token => rfl
  | options list =>
    rw [resolve_options, origins, assignments, combined, settings_eq]
    by_cases both : (options list).isBoldItalic isItalic = true
    · rw [if_pos both, if_pos both]
      cases styles.boldItalic with
      | error e => rfl
      | ok encoding =>
        simp only [Except.map]
        rw [Table.ofList_eq_insertAll, Table.ofList_eq_insertAll, Table.insertAll_append]
        congr 1
        exact Table.insert_mapValues _ _ (Origin.encoding encoding)
    · rw [if_neg both, if_neg both]
      simp only [Except.map, List.append_nil]

/-- The attribute uses this text as the name of a color. -/
def HasToken (styles : StyleMap) (token : String) : Attribute → Prop
  | .foreground text => text = token
  | .options list => ∃ option ∈ list, styles.classify option.name = .literalColor ∧ option.condition = token

/-- The attribute gives an option of this name the encoding of a style: a flag of that category applies, or it is
the category of bold and italic together. -/
def SetsStyle (styles : StyleMap) (isItalic : Bool) (key : String) : Attribute → Prop
  | .foreground _ => False
  | .options list =>
    (∃ option ∈ list, styles.classify option.name = .styleFlag key ∧ Applies option.condition isItalic) ∨
      (options list).BoldItalic isItalic ∧ key = "font-type"

theorem mem_colored {list : List SubOption} {key : String} {origin : Origin}
    (member : (key, origin) ∈ list.filterMap (colored? styles)) :
    ∃ token, origin = .token token ∧ (options list).HasToken styles token := by
  obtain ⟨option, inside, set⟩ := List.mem_filterMap.mp member
  unfold colored? at set
  split at set
  case h_1 literal =>
    cases set
    exact ⟨option.condition, rfl, option, inside, literal, rfl⟩
  case h_2 => cases set

theorem mem_flagged {list : List SubOption} {key : String} {origin : Origin}
    (member : (key, origin) ∈ list.filterMap (flagged? styles isItalic)) : origin.Listed styles key := by
  obtain ⟨option, -, set⟩ := List.mem_filterMap.mp member
  obtain ⟨⟨category, encoding⟩, selected, same⟩ := Option.map_eq_some_iff.mp set
  cases same
  refine ⟨option.name, encoding, StyleMap.encoding_eq_ok_iff.mpr ?_, rfl⟩
  unfold StyleMap.selected? at selected
  split at selected
  case h_1 category' flag =>
    split at selected
    · obtain ⟨listed, found, pair⟩ := Option.map_eq_some_iff.mp selected
      cases pair
      exact found
    · cases selected
  case h_2 => cases selected

theorem mem_keys_flagged {list : List SubOption} {key : String} :
    key ∈ (list.filterMap (flagged? styles isItalic)).map Prod.fst ↔
      ∃ option ∈ list, styles.classify option.name = .styleFlag key ∧ Applies option.condition isItalic := by
  rw [← mem_keys_selected, List.map_filterMap, List.map_filterMap]
  have same (option : SubOption) : (flagged? styles isItalic option).map Prod.fst =
      (styles.selected? isItalic option).map Prod.fst := by
    rw [flagged?, Option.map_map]
    rfl
  simp only [same]

theorem mem_keys_combined {definition : Attribute} {last : List (String × Origin)} {key : String}
    (made : definition.combined styles isItalic = .ok last) :
    key ∈ last.map Prod.fst ↔ definition.BoldItalic isItalic ∧ key = "font-type" := by
  rw [combined] at made
  rw [← isBoldItalic_iff]
  split at made
  case isTrue both =>
    obtain ⟨encoding, -, rfl⟩ := map_eq_ok_iff.mp made
    simp [both, StyleMap.fontType]
  case isFalse not =>
    cases made
    simp [not]

theorem mem_combined {definition : Attribute} {last : List (String × Origin)} {key : String} {origin : Origin}
    (made : definition.combined styles isItalic = .ok last) (member : (key, origin) ∈ last) :
    origin.Listed styles key := by
  rw [combined] at made
  split at made
  · obtain ⟨encoding, listed, rfl⟩ := map_eq_ok_iff.mp made
    cases List.mem_singleton.mp member
    exact ⟨StyleMap.boldItalicOption, encoding, listed, rfl⟩
  · cases made
    cases member

/-- The colors of an attribute come first, then its flags, and then what it sets as bold and italic together. -/
theorem exists_combined {list : List SubOption} {table : Table String Origin}
    (made : (options list).origins styles isItalic = .ok table) : ∃ last,
      (options list).combined styles isItalic = .ok last ∧
      table = .ofList (list.filterMap (colored? styles) ++ (list.filterMap (flagged? styles isItalic) ++ last)) := by
  obtain ⟨pairs, assigned, rfl⟩ := map_eq_ok_iff.mp made
  obtain ⟨last, together, rfl⟩ := map_eq_ok_iff.mp assigned
  exact ⟨last, together, congrArg Table.ofList (List.append_assoc ..)⟩

/-- What has been set as a style is an encoding of the category, and everything else a color token. -/
theorem origins_get? {definition : Attribute} {table : Table String Origin} (key : String)
    (made : definition.origins styles isItalic = .ok table) :
    (definition.SetsStyle styles isItalic key → ∃ origin, table.get? key = some origin ∧ origin.Listed styles key) ∧
    (¬ definition.SetsStyle styles isItalic key → ∀ origin, table.get? key = some origin →
      ∃ token, origin = .token token ∧ definition.HasToken styles token) := by
  cases definition with
  | foreground token =>
    cases made
    refine ⟨False.elim, fun _ origin given => ⟨token, ?_, rfl⟩⟩
    change (Table.empty.insert _ _).get? key = _ at given
    rw [Table.get?_insert] at given
    split at given <;> cases given
    rfl
  | options list =>
    obtain ⟨last, both, rfl⟩ := exists_combined made
    have sets : (options list).SetsStyle styles isItalic key ↔
        key ∈ (list.filterMap (flagged? styles isItalic) ++ last).map Prod.fst := by
      rw [List.map_append, List.mem_append, mem_keys_flagged, mem_keys_combined both, SetsStyle]
    rw [sets, Table.ofList_eq_insertAll, Table.insertAll_append]
    constructor
    · intro style
      obtain ⟨origin, member, given⟩ := Table.exists_get?_insertAll _ style
      refine ⟨origin, given, ?_⟩
      rcases List.mem_append.mp member with flag | together
      · exact mem_flagged flag
      · exact mem_combined both together
    · intro color origin given
      rw [Table.get?_insertAll_of_notMem color] at given
      by_cases set : key ∈ (list.filterMap (colored? styles)).map Prod.fst
      · obtain ⟨other, member, given'⟩ := Table.exists_get?_insertAll .empty set
        rw [given] at given'
        cases given'
        exact mem_colored member
      · rw [Table.get?_insertAll_of_notMem set] at given
        cases given

end Attribute

namespace Theme

variable {palette : Palette} {styles : StyleMap} {italic : Bool} {name : String}

/-- The attributes of a theme with the origins of their values, in the order of the theme. -/
def outline (theme : Theme) (styles : StyleMap) (italic : Bool) :
    Except SchemaError (List (String × Table String Origin)) :=
  theme.attributes.mapM fun entry => (entry.2.origins styles italic).map (entry.1, ·)

def paint (palette : Palette) (entry : String × Table String Origin) : Scheme.Block :=
  ⟨entry.1, entry.2.entries.map fun option => ⟨schemeOptionName option.1, option.2.value palette⟩⟩

theorem block_eq_paint (entry : String × Attribute) : block palette styles italic entry =
    ((entry.2.origins styles italic).map (entry.1, ·)).map (paint palette) := by
  rw [block, Attribute.resolve_eq_origins]
  cases entry.2.origins styles italic with
  | error e => rfl
  | ok table =>
    simp only [Except.map, bind, Except.bind, paint, Table.mapValues, List.map_map]
    rfl

def scheme (theme : Theme) (palette : Palette) (name : String) (outline : List (String × Table String Origin)) :
    Scheme where
  name
  parentScheme := theme.parentScheme
  version := Scheme.formatVersion
  colors := theme.colors.map fun color => ⟨color.1, palette.resolve color.2⟩
  inherited := theme.inheriting.map fun pair => ⟨pair.1, pair.2⟩
  attributes := (outline.mergeSort fun a b => decide (a.1 ≤ b.1)).map (paint palette)

/-- All that a palette does to a theme is to put values in. -/
theorem assemble_eq_outline (theme : Theme) (palette : Palette) (styles : StyleMap) (italic : Bool) (name : String) :
    theme.assemble palette styles italic name = (theme.outline styles italic).map (theme.scheme palette name) := by
  have blocks : theme.attributes.mapM (block palette styles italic) =
      (theme.outline styles italic).map (List.map (paint palette)) := by
    rw [outline, ← mapM_map_result]
    congr 1
    funext entry
    exact block_eq_paint entry
  rw [assemble, blocks]
  cases theme.outline styles italic with
  | error e => rfl
  | ok outline =>
    have sorted : (outline.mergeSort fun a b => decide (a.1 ≤ b.1)).map (paint palette) =
        (outline.map (paint palette)).mergeSort fun a b => decide (a.name ≤ b.name) :=
      List.map_mergeSort fun _ _ _ _ => rfl
    simp only [Except.map, bind, Except.bind, scheme, sorted]

end Theme

end EditorScheme
