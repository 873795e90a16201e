import EditorScheme.Proofs.FirstFailure
import EditorScheme.Proofs.Resolution
import EditorScheme.Scheme

/-!
When a theme cannot be assembled. The one way to fail is an attribute that is bold and italic together
in a style map without an encoding for that.
-/
namespace EditorScheme

def Applies (condition : String) (isItalic : Bool) : Prop :=
  condition = "always" ∨ condition = "theme" ∧ isItalic = true

theorem conditionApplies_iff (condition : String) (isItalic : Bool) :
    conditionApplies condition isItalic = true ↔ Applies condition isItalic := by
  unfold conditionApplies Selector.ofText? Applies
  by_cases always : condition = "always"
  · simp [always, Selector.applies]
  · by_cases theme : condition = "theme" <;> simp [always, theme, Selector.applies]

namespace Attribute

/-- The attribute lists `bold` somewhere, and the first `italic` it lists applies. -/
def BoldItalic (isItalic : Bool) : Attribute → Prop
  | .foreground _ => False
  | .options list =>
    (∃ option ∈ list, option.name = "bold") ∧
      ∃ before option after, list = before ++ option :: after ∧
        (∀ earlier ∈ before, earlier.name ≠ "italic") ∧ option.name = "italic" ∧
        Applies option.condition isItalic

theorem subOption?_isSome_iff (list : List SubOption) (name : String) :
    ((options list).subOption? name).isSome ↔ ∃ option ∈ list, option.name = name := by
  simp [subOption?]

theorem subOption?_eq_some_iff (list : List SubOption) (name : String) (option : SubOption) :
    (options list).subOption? name = some option ↔
      ∃ before after, list = before ++ option :: after ∧
        (∀ earlier ∈ before, earlier.name ≠ name) ∧ option.name = name := by
  simp only [subOption?, List.find?_eq_some_iff_append]
  constructor
  · rintro ⟨named, before, after, split, others⟩
    exact ⟨before, after, split, by simpa using others, by simpa using named⟩
  · rintro ⟨before, after, split, others, named⟩
    exact ⟨by simpa using named, before, after, split, by simpa using others⟩

theorem isBoldItalic_iff (definition : Attribute) (isItalic : Bool) :
    definition.isBoldItalic isItalic = true ↔ definition.BoldItalic isItalic := by
  cases definition with
  | foreground token => simp [isBoldItalic, subOption?, BoldItalic]
  | options list =>
    simp only [isBoldItalic, BoldItalic, Bool.and_eq_true, subOption?_isSome_iff, bold]
    refine and_congr_right fun _ => ?_
    constructor
    · intro applies
      cases found : (options list).subOption? italic with
      | none => simp [found] at applies
      | some option =>
        obtain ⟨before, after, split, others, named⟩ := (subOption?_eq_some_iff ..).mp found
        rw [found] at applies
        exact ⟨before, option, after, split, others, named, (conditionApplies_iff ..).mp applies⟩
    · rintro ⟨before, option, after, split, others, named, applies⟩
      rw [(subOption?_eq_some_iff list italic option).mpr ⟨before, after, split, others, named⟩]
      exact (conditionApplies_iff ..).mpr applies

end Attribute

namespace Theme

variable {palette : Palette} {styles : StyleMap} {italic : Bool} {e : SchemaError}

theorem block_eq_error_iff (entry : String × Attribute) :
    block palette styles italic entry = .error e ↔
      entry.2.resolve palette styles italic = .error e := by
  unfold block
  cases entry.2.resolve palette styles italic <;> simp [bind, Except.bind]

theorem assemble_eq_error_iff_mapM (theme : Theme) (name : String) :
    theme.assemble palette styles italic name = .error e ↔
      theme.attributes.mapM (block palette styles italic) = .error e := by
  unfold assemble
  cases theme.attributes.mapM (block palette styles italic) <;> simp [bind, Except.bind]

theorem eq_of_assemble_eq_error {theme : Theme} {name : String}
    (failed : theme.assemble palette styles italic name = .error e) :
    e = .missingEncoding "font-type" "bold-italic" := by
  rw [assemble_eq_error_iff_mapM] at failed
  obtain ⟨entry, -, fault⟩ := exists_of_mapM_eq_error failed
  rw [block_eq_error_iff, Attribute.resolve_eq_error_iff] at fault
  exact (StyleMap.encoding_eq_error_iff.mp fault.2).2

/-- Assembling fails exactly if some attribute is bold and italic in this variant and the style map has
no encoding for both together, which is then the failure. Flags never lack theirs. -/
theorem assemble_eq_error_iff (theme : Theme) (palette : Palette) (styles : StyleMap) (italic : Bool)
    (name : String) :
    (∀ e, theme.assemble palette styles italic name = .error e ↔
      e = .missingEncoding "font-type" "bold-italic" ∧
        ¬ styles.Encodes "font-type" "bold-italic" ∧
        ∃ entry ∈ theme.attributes, entry.2.BoldItalic italic) ∧
    ∀ option category, styles.classify option = .styleFlag category →
      ∃ encoding, styles.encoding category option = .ok encoding := by
  refine ⟨fun e => ?_, fun option category flag => StyleMap.exists_encoding_of_classify flag⟩
  have failure (entry : String × Attribute) (e : SchemaError) :
      block palette styles italic entry = .error e ↔
        entry.2.BoldItalic italic ∧ ¬ styles.Encodes "font-type" "bold-italic" ∧
          e = .missingEncoding "font-type" "bold-italic" := by
    rw [block_eq_error_iff, Attribute.resolve_eq_error_iff, Attribute.isBoldItalic_iff]
    exact and_congr_right fun _ => StyleMap.encoding_eq_error_iff
  rw [assemble_eq_error_iff_mapM]
  constructor
  · intro failed
    obtain ⟨entry, member, fault⟩ := exists_of_mapM_eq_error failed
    obtain ⟨both, missing, rfl⟩ := (failure entry e).mp fault
    exact ⟨rfl, missing, entry, member, both⟩
  · rintro ⟨rfl, missing, entry, member, both⟩
    refine (mapM_eq_error_iff_exists ?_).mpr ⟨entry, member, (failure entry _).mpr ⟨both, missing, rfl⟩⟩
    exact fun other e' fault => ((failure other e').mp fault).2.2

end Theme

end EditorScheme
