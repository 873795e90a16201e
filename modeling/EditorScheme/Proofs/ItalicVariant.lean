import EditorScheme.Proofs.Origins

/-!
The italic scheme of a palette beside the plain one. Italics only add: every option of the plain variant is there,
and keeps its value unless the theme gives it another one for italic variants.
-/
namespace EditorScheme

theorem Applies.italic {condition : String} (applies : Applies condition false) : Applies condition true := by
  rcases applies with always | ⟨-, no⟩
  · exact .inl always
  · cases no

theorem conditionApplies_congr {condition : String} (other : condition ≠ "theme") :
    conditionApplies condition false = conditionApplies condition true := by
  rw [Bool.eq_iff_iff, conditionApplies_iff, conditionApplies_iff]
  simp [Applies, other]

namespace Attribute

variable {palette : Palette} {styles : StyleMap} {definition : Attribute} {key : String}

theorem BoldItalic.italic (both : definition.BoldItalic false) : definition.BoldItalic true := by
  cases definition with
  | foreground token => exact both
  | options list =>
    obtain ⟨bold, before, option, after, split, others, named, applies⟩ := both
    exact ⟨bold, before, option, after, split, others, named, applies.italic⟩

theorem Sets.italic (sets : definition.Sets styles false key) : definition.Sets styles true key := by
  cases definition with
  | foreground token => exact sets
  | options list =>
    rcases sets with color | ⟨option, member, flag, applies⟩ | ⟨both, fontType⟩
    · exact .inl color
    · exact .inr (.inl ⟨option, member, flag, applies.italic⟩)
    · exact .inr (.inr ⟨both.italic, fontType⟩)

/-- The attribute sets an option of this name for italic variants alone: by a flag of that category, or as bold and
italic together if the first `italic` is for these variants. -/
def SetsForItalic (styles : StyleMap) (key : String) : Attribute → Prop
  | .foreground _ => False
  | .options list =>
    (∃ option ∈ list, option.condition = "theme" ∧ styles.classify option.name = .styleFlag key) ∨
      key = "font-type" ∧ (∃ option ∈ list, option.name = "bold") ∧
        ∃ before option after, list = before ++ option :: after ∧
          (∀ earlier ∈ before, earlier.name ≠ "italic") ∧ option.name = "italic" ∧ option.condition = "theme"

theorem boldItalic_of_unaffected {list : List SubOption}
    (unaffected : ¬ (options list).SetsForItalic styles "font-type")
    (both : (options list).BoldItalic true) : (options list).BoldItalic false := by
  obtain ⟨bold, before, option, after, split, others, named, always | ⟨theme, -⟩⟩ := both
  · exact ⟨bold, before, option, after, split, others, named, .inl always⟩
  · exact absurd (.inr ⟨rfl, bold, before, option, after, split, others, named, theme⟩) unaffected

theorem filter_flagged? {option : SubOption}
    (unaffected : ¬ (option.condition = "theme" ∧ styles.classify option.name = .styleFlag key)) :
    (flagged? styles false option).filter (fun pair => decide (pair.1 = key)) =
      (flagged? styles true option).filter (fun pair => decide (pair.1 = key)) := by
  unfold flagged? StyleMap.selected?
  cases kind : styles.classify option.name with
  | literalColor => rfl
  | styleFlag category =>
    by_cases theme : option.condition = "theme"
    · have other : category ≠ key := fun same => unaffected ⟨theme, same ▸ kind⟩
      cases encoding : (styles.options category).get? option.name <;>
        cases conditionApplies option.condition false <;> cases conditionApplies option.condition true <;>
        simp [Option.filter, encoding, other]
    · rw [conditionApplies_congr theme]

theorem filter_combined {list : List SubOption} {plain italic : List (String × Origin)}
    (unaffected : ¬ (options list).SetsForItalic styles key)
    (inPlain : (options list).combined styles false = .ok plain)
    (inItalic : (options list).combined styles true = .ok italic) :
    plain.filter (fun pair => decide (pair.1 = key)) = italic.filter (fun pair => decide (pair.1 = key)) := by
  by_cases fontType : key = "font-type"
  · subst fontType
    have same : (options list).isBoldItalic false = (options list).isBoldItalic true := by
      rw [Bool.eq_iff_iff, isBoldItalic_iff, isBoldItalic_iff]
      exact ⟨.italic, boldItalic_of_unaffected unaffected⟩
    rw [combined, same, ← combined, inItalic] at inPlain
    cases inPlain
    rfl
  · have none {isItalic : Bool} {last : List (String × Origin)}
        (made : (options list).combined styles isItalic = .ok last) :
        last.filter (fun pair => decide (pair.1 = key)) = [] := by
      refine List.filter_eq_nil_iff.mpr fun pair member same => fontType ?_
      have set : key ∈ last.map Prod.fst := of_decide_eq_true same ▸ List.mem_map_of_mem member
      exact ((mem_keys_combined made).mp set).2
    rw [none inPlain, none inItalic]

/-- What is not set for italics alone comes of the same origin in both variants. -/
theorem origins_get?_eq {plain italic : Table String Origin} (unaffected : ¬ definition.SetsForItalic styles key)
    (inPlain : definition.origins styles false = .ok plain) (inItalic : definition.origins styles true = .ok italic) :
    plain.get? key = italic.get? key := by
  cases definition with
  | foreground token =>
    cases inPlain
    cases inItalic
    rfl
  | options list =>
    obtain ⟨lastPlain, togetherPlain, rfl⟩ := exists_combined inPlain
    obtain ⟨lastItalic, togetherItalic, rfl⟩ := exists_combined inItalic
    have flags : (list.filterMap (flagged? styles false)).filter (fun pair => decide (pair.1 = key)) =
        (list.filterMap (flagged? styles true)).filter (fun pair => decide (pair.1 = key)) := by
      rw [List.filter_filterMap, List.filter_filterMap]
      refine List.filterMap_congr fun option member => filter_flagged? ?_
      exact fun set => unaffected (.inl ⟨option, member, set⟩)
    rw [Table.ofList_eq_insertAll, Table.ofList_eq_insertAll, Table.get?_insertAll_filter,
      Table.get?_insertAll_filter _ (_ ++ (_ ++ lastItalic))]
    simp only [List.filter_append, flags, filter_combined unaffected togetherPlain togetherItalic]

theorem exists_origins_plain {italic : Table String Origin} (inItalic : definition.origins styles true = .ok italic) :
    ∃ plain, definition.origins styles false = .ok plain := by
  cases definition with
  | foreground token => exact ⟨_, rfl⟩
  | options list =>
    obtain ⟨last, together, -⟩ := exists_combined inItalic
    by_cases both : (options list).isBoldItalic false = true
    · have both' := (isBoldItalic_iff ..).mpr ((isBoldItalic_iff ..).mp both).italic
      have same : (options list).combined styles false = (options list).combined styles true := by
        rw [combined, combined, if_pos both, if_pos both']
      rw [origins, assignments, same, together]
      exact ⟨_, rfl⟩
    · rw [origins, assignments, combined, if_neg both]
      exact ⟨_, rfl⟩

end Attribute

namespace Theme

variable {palette : Palette} {styles : StyleMap} {theme : Theme} {name : String}

theorem exists_outline_plain {italic : List (String × Table String Origin)}
    (inItalic : theme.outline styles true = .ok italic) :
    ∃ plain, theme.outline styles false = .ok plain ∧ plain.map Prod.fst = italic.map Prod.fst := by
  have names {isItalic : Bool} {outline : List (String × Table String Origin)}
      (made : theme.outline styles isItalic = .ok outline) : outline.map Prod.fst = theme.attributes.map Prod.fst := by
    refine map_eq_of_mapM_eq_ok made fun entry result ok => ?_
    obtain ⟨table, -, rfl⟩ := map_eq_ok_iff.mp ok
    rfl
  cases inPlain : theme.outline styles false with
  | ok plain => exact ⟨plain, rfl, (names inPlain).trans (names inItalic).symm⟩
  | error e =>
    obtain ⟨entry, member, failed⟩ := exists_of_mapM_eq_error inPlain
    obtain ⟨result, ok⟩ := exists_of_mapM_eq_ok inItalic member
    obtain ⟨table, origins, -⟩ := map_eq_ok_iff.mp ok
    obtain ⟨plain, found⟩ := Attribute.exists_origins_plain origins
    rw [found] at failed
    cases failed

theorem blockNames_scheme (theme : Theme) (palette : Palette) (name : String)
    (outline : List (String × Table String Origin)) : (theme.scheme palette name outline).attributes.map (·.name) =
      (outline.map Prod.fst).mergeSort fun a b => decide (a ≤ b) := by
  rw [scheme, List.map_map]
  exact List.map_mergeSort fun _ _ _ _ => rfl

/-- If the italic scheme of a palette can be assembled, so can the plain one, and they differ in the options of their
blocks alone. Of each attribute the plain variant has no option that the italic one lacks, and every option that is
not set for italics alone is the same in both. -/
theorem italic_extends_plain (theme : Theme) (palette : Palette) (styles : StyleMap) (name : String) :
    (∀ italic, theme.assemble palette styles true name = .ok italic → ∃ plain,
      theme.assemble palette styles false name = .ok plain ∧ plain.name = italic.name ∧
      plain.parentScheme = italic.parentScheme ∧ plain.version = italic.version ∧ plain.colors = italic.colors ∧
      plain.inherited = italic.inherited ∧ plain.attributes.map (·.name) = italic.attributes.map (·.name)) ∧
    ∀ (definition : Attribute) plain italic, definition.resolve palette styles false = .ok plain →
      definition.resolve palette styles true = .ok italic →
      (∀ key ∈ plain.keys, key ∈ italic.keys) ∧
      ∀ key, ¬ definition.SetsForItalic styles key → plain.get? key = italic.get? key := by
  constructor
  · intro italic assembled
    rw [assemble_eq_outline] at assembled ⊢
    obtain ⟨outline, inItalic, rfl⟩ := map_eq_ok_iff.mp assembled
    obtain ⟨plain, inPlain, names⟩ := exists_outline_plain inItalic
    refine ⟨theme.scheme palette name plain, map_eq_ok_iff.mpr ⟨plain, inPlain, rfl⟩, rfl, rfl, rfl, rfl, rfl, ?_⟩
    rw [blockNames_scheme, blockNames_scheme, names]
  · intro definition plain italic inPlain inItalic
    refine ⟨fun key set => ?_, fun key unaffected => ?_⟩
    · rw [Attribute.mem_keys_resolve inItalic]
      exact ((Attribute.mem_keys_resolve inPlain).mp set).italic
    · rw [Attribute.resolve_eq_origins] at inPlain inItalic
      obtain ⟨tablePlain, originsPlain, rfl⟩ := map_eq_ok_iff.mp inPlain
      obtain ⟨tableItalic, originsItalic, rfl⟩ := map_eq_ok_iff.mp inItalic
      rw [Table.get?_mapValues, Table.get?_mapValues,
        Attribute.origins_get?_eq unaffected originsPlain originsItalic]

/-- An attribute that is bold, and italic in italic variants, has its font type in the plain scheme as well. -/
theorem italic_extends_plain_spelledTwice : ∃ theme italic plain, Theme.ofYaml spelledTwice = .ok theme ∧
    theme.assemble (.empty "normal") fontStyles true "X" = .ok italic ∧
    theme.assemble (.empty "normal") fontStyles false "X" = .ok plain ∧ plain.colors = italic.colors ∧
    plain.inherited = italic.inherited ∧ plain.attributes.map (·.name) = italic.attributes.map (·.name) := by
  obtain ⟨theme, italic, read, assembled, -⟩ := assemble_spelledTwice
  obtain ⟨plain, made, -, -, -, colors, inherited, blocks⟩ :=
    (italic_extends_plain theme (.empty "normal") fontStyles "X").1 italic assembled
  exact ⟨theme, italic, plain, read, assembled, made, colors, inherited, blocks⟩

end Theme

end EditorScheme
