import EditorScheme.Proofs.Origins

/-!
The options of a resolved attribute, described one by one: which names there are and where they stand, and which of
several settings of a name counts. The description knows the colors of an attribute, its flags that apply, and whether
it is bold and italic together, but not how a table is filled.
-/
namespace EditorScheme

instance (condition : String) (isItalic : Bool) : Decidable (Applies condition isItalic) :=
  inferInstanceAs (Decidable (_ ∨ _))

def StyleMap.categoryOf? (styles : StyleMap) (option : String) : Option String :=
  match styles.classify option with
  | .styleFlag category => some category
  | .literalColor => none

theorem StyleMap.toOption_encoding (styles : StyleMap) (category option : String) :
    (styles.encoding category option).toOption = (styles.options category).get? option := by
  unfold StyleMap.encoding
  cases (styles.options category).get? option <;> rfl

namespace Attribute

instance (definition : Attribute) (isItalic : Bool) : Decidable (definition.BoldItalic isItalic) :=
  decidable_of_iff _ (isBoldItalic_iff definition isItalic)

section Description

variable (palette : Palette) (styles : StyleMap) (isItalic : Bool) (list : List SubOption)

def colors : List SubOption := list.filter fun option => decide (styles.classify option.name = .literalColor)

def flags : List SubOption :=
  list.filter fun option => (styles.categoryOf? option.name).isSome && decide (Applies option.condition isItalic)

/-- Names in the order in which they come up first: the colors, the categories of the flags, the font type. -/
def describedKeys : List String :=
  ((colors styles list).map (·.name) ++
    (flags styles isItalic list).filterMap (fun flag => styles.categoryOf? flag.name) ++
    if (options list).BoldItalic isItalic then ["font-type"] else []).eraseDups

/-- The value of a name. Bold and italic together count before flags, and flags before colors. -/
def describedValue (key : String) : Option String :=
  if (options list).BoldItalic isItalic ∧ key = "font-type" then
    (styles.encoding "font-type" "bold-italic").toOption
  else
    match (flags styles isItalic list).findRev? fun flag => decide (styles.categoryOf? flag.name = some key) with
    | some flag => (styles.encoding key flag.name).toOption
    | none =>
      ((colors styles list).findRev? fun color => decide (color.name = key)).map fun color =>
        palette.resolve color.condition

/-- The options of an attribute with their values. A value is only missing where bold and italic have no encoding. -/
def described : Attribute → List (String × Option String)
  | .foreground token => [("foreground", some (palette.resolve token))]
  | .options list =>
    (describedKeys styles isItalic list).map fun key => (key, describedValue palette styles isItalic list key)

end Description

variable {palette : Palette} {styles : StyleMap} {isItalic : Bool} {list : List SubOption} {key : String}

def flagSetting? (styles : StyleMap) (flag : SubOption) : Option (String × Origin) :=
  (styles.categoryOf? flag.name).bind fun category =>
    ((styles.encoding category flag.name).toOption).map fun encoding => (category, .encoding encoding)

theorem flagSetting?_eq {flag : SubOption} {category : String} (owned : styles.categoryOf? flag.name = some category) :
    ∃ encoding, styles.encoding category flag.name = .ok encoding ∧
      flagSetting? styles flag = some (category, .encoding encoding) := by
  have kind : styles.classify flag.name = .styleFlag category := by
    unfold StyleMap.categoryOf? at owned
    split at owned <;> simp_all
  obtain ⟨encoding, listed⟩ := StyleMap.exists_encoding_of_classify kind
  exact ⟨encoding, listed, by simp [flagSetting?, owned, listed, Except.toOption]⟩

theorem filterMap_colored : list.filterMap (colored? styles) =
    (colors styles list).map fun color => (color.name, .token color.condition) := by
  rw [colors, ← List.filterMap_eq_map, List.filterMap_filter]
  congr 1
  funext option
  unfold colored?
  cases styles.classify option.name <;> rfl

theorem filterMap_flagged : list.filterMap (flagged? styles isItalic) =
    (flags styles isItalic list).filterMap (flagSetting? styles) := by
  rw [flags, List.filterMap_filter]
  congr 1
  funext option
  have condition : conditionApplies option.condition isItalic = decide (Applies option.condition isItalic) := by
    rw [Bool.eq_iff_iff, conditionApplies_iff, decide_eq_true_eq]
  unfold flagged? StyleMap.selected? flagSetting? StyleMap.categoryOf?
  cases styles.classify option.name with
  | literalColor => rfl
  | styleFlag category =>
    rw [condition, Option.bind_some, StyleMap.toOption_encoding]
    cases decide (Applies option.condition isItalic) <;> simp [Function.comp_def]

theorem map_fst_flagSettings (flags : List SubOption) : (flags.filterMap (flagSetting? styles)).map Prod.fst =
    flags.filterMap fun flag => styles.categoryOf? flag.name := by
  rw [List.map_filterMap]
  congr 1
  funext flag
  cases owned : styles.categoryOf? flag.name with
  | none => simp [flagSetting?, owned]
  | some category =>
    obtain ⟨encoding, -, set⟩ := flagSetting?_eq owned
    simp [set]

theorem findRev?_flagSettings (flags : List SubOption) (key : String) :
    (flags.filterMap (flagSetting? styles)).findRev? (fun pair => decide (pair.1 = key)) =
      (flags.findRev? fun flag => decide (styles.categoryOf? flag.name = some key)).bind (flagSetting? styles) := by
  rw [List.findRev?_eq_find?_reverse, List.findRev?_eq_find?_reverse, ← List.filterMap_reverse, List.find?_filterMap]
  congr 2
  funext flag
  cases owned : styles.categoryOf? flag.name with
  | none => simp [flagSetting?, owned]
  | some category =>
    obtain ⟨encoding, -, set⟩ := flagSetting?_eq owned
    simp [set]

theorem combined_eq_ok_iff {definition : Attribute} {last : List (String × Origin)} :
    definition.combined styles isItalic = .ok last ↔
      if definition.BoldItalic isItalic then
        ∃ encoding, styles.encoding "font-type" "bold-italic" = .ok encoding ∧ last = [("font-type", .encoding encoding)]
      else last = [] := by
  have boldItalic : styles.boldItalic = styles.encoding "font-type" "bold-italic" := rfl
  unfold combined
  by_cases both : definition.BoldItalic isItalic
  · rw [if_pos ((isBoldItalic_iff ..).mpr both), if_pos both, map_eq_ok_iff, boldItalic]
    simp only [eq_comm, StyleMap.fontType]
  · rw [if_neg (mt (isBoldItalic_iff ..).mp both), if_neg both]
    simp [eq_comm]

theorem keys_eq_described {last : List (String × Origin)}
    (together : (options list).combined styles isItalic = .ok last) :
    (Table.ofList (list.filterMap (colored? styles) ++ (list.filterMap (flagged? styles isItalic) ++ last))).keys =
      describedKeys styles isItalic list := by
  have names : last.map Prod.fst = if (options list).BoldItalic isItalic then ["font-type"] else [] := by
    have made := combined_eq_ok_iff.mp together
    by_cases both : (options list).BoldItalic isItalic
    · rw [if_pos both] at made ⊢
      obtain ⟨encoding, -, rfl⟩ := made
      rfl
    · rw [if_neg both] at made ⊢
      rw [made]
      rfl
  rw [Table.keys_ofList, filterMap_colored, filterMap_flagged, List.map_append, List.map_append,
    map_fst_flagSettings, names, List.map_map, ← List.append_assoc]
  rfl

theorem get?_eq_described {last : List (String × Origin)}
    (together : (options list).combined styles isItalic = .ok last) (key : String) :
    ((Table.ofList (list.filterMap (colored? styles) ++
        (list.filterMap (flagged? styles isItalic) ++ last))).get? key).map (·.value palette) =
      describedValue palette styles isItalic list key := by
  rw [Table.get?_ofList, filterMap_colored, filterMap_flagged, Table.findRev?_append, Table.findRev?_append,
    findRev?_flagSettings, Option.or_assoc, describedValue]
  have made := combined_eq_ok_iff.mp together
  by_cases combined : (options list).BoldItalic isItalic ∧ key = "font-type"
  · obtain ⟨both, rfl⟩ := combined
    rw [if_pos both] at made
    obtain ⟨encoding, listed, rfl⟩ := made
    simp [List.findRev?, both, listed, Except.toOption, Origin.value]
  · have none : last.findRev? (fun pair => decide (pair.1 = key)) = none := by
      split at made
      case isTrue both =>
        obtain ⟨encoding, -, rfl⟩ := made
        simpa [List.findRev?] using fun same : "font-type" = key => combined ⟨both, same.symm⟩
      case isFalse =>
        rw [made]
        rfl
    rw [none, Option.none_or, if_neg combined]
    cases found : (flags styles isItalic list).findRev? fun flag =>
        decide (styles.categoryOf? flag.name = some key) with
    | some flag =>
      have owned : styles.categoryOf? flag.name = some key := by
        rw [List.findRev?_eq_find?_reverse] at found
        simpa using List.find?_some found
      obtain ⟨encoding, listed, set⟩ := flagSetting?_eq owned
      simp [set, listed, Except.toOption, Origin.value]
    | none =>
      simp only [Option.bind_none, Option.none_or, List.findRev?_eq_find?_reverse, ← List.map_reverse, List.find?_map,
        Option.map_map]
      rfl

theorem entries_of_resolve {definition : Attribute} {resolved : ResolvedAttribute}
    (made : definition.resolve palette styles isItalic = .ok resolved) :
    resolved.entries.map (fun entry => (entry.1, some entry.2)) = definition.described palette styles isItalic := by
  cases definition with
  | foreground token =>
    cases made
    rfl
  | options list =>
    rw [resolve_eq_origins, map_eq_ok_iff] at made
    obtain ⟨table, origins, rfl⟩ := made
    obtain ⟨last, together, rfl⟩ := exists_combined origins
    rw [Table.map_entries_eq, Table.keys_mapValues, keys_eq_described together, described]
    refine List.map_congr_left fun key _ => ?_
    rw [Table.get?_mapValues, get?_eq_described together]

theorem mem_described_of_error {definition : Attribute} {e : SchemaError}
    (failed : definition.resolve palette styles isItalic = .error e) :
    ("font-type", none) ∈ definition.described palette styles isItalic := by
  rw [resolve_eq_error_iff, isBoldItalic_iff] at failed
  obtain ⟨both, missing⟩ := failed
  cases definition with
  | foreground token => exact both.elim
  | options list =>
    refine List.mem_map.mpr ⟨"font-type", by simp [describedKeys, List.mem_eraseDups, both], ?_⟩
    have missing : styles.encoding "font-type" "bold-italic" = .error e := missing
    simp [describedValue, both, missing, Except.toOption]

/-- Resolving an attribute gives the options that are described, in their order, whenever all of them have values, and
fails otherwise. -/
theorem resolve_eq_ok_iff_described (palette : Palette) (styles : StyleMap) (isItalic : Bool) (definition : Attribute)
    (resolved : ResolvedAttribute) : definition.resolve palette styles isItalic = .ok resolved ↔
      resolved.entries.map (fun entry => (entry.1, some entry.2)) = definition.described palette styles isItalic := by
  refine ⟨entries_of_resolve, fun same => ?_⟩
  cases made : definition.resolve palette styles isItalic with
  | error e =>
    have member := mem_described_of_error made
    rw [← same] at member
    simp at member
  | ok other =>
    have injective : Function.Injective fun entry : String × String => (entry.1, some entry.2) := by
      intro x y equal
      simpa [Prod.ext_iff] using equal
    have equal := List.map_injective_iff.mpr injective ((entries_of_resolve made).trans same.symm)
    rw [Table.ext equal]

/-- A color that is named like a category keeps its place, but not its value. -/
example : (options [⟨"bold", "always"⟩, ⟨"font-type", "purple"⟩, ⟨"foreground", "purple"⟩, ⟨"italic", "theme"⟩]).described
    (.empty "normal") Theme.fontStyles true = [("font-type", some "3"), ("foreground", some "purple")] := by
  decide

end Attribute

end EditorScheme
