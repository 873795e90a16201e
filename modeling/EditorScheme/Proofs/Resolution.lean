import EditorScheme.Proofs.Table
import EditorScheme.Scheme

/-!
What resolving an attribute comes to. A flag that applies always has its encoding, so the flags of an
attribute are settings made one after the other over its colors. Only bold and italic together can lack
an encoding.
-/
namespace EditorScheme

namespace StyleMap

variable {styles : StyleMap} {category option encoding : String} {e : SchemaError}

def Encodes (styles : StyleMap) (category option : String) : Prop :=
  ∃ options encoding, styles.categories.get? category = some options ∧
    options.get? option = some encoding

theorem options_get?_eq_some_iff : (styles.options category).get? option = some encoding ↔
    ∃ options, styles.categories.get? category = some options ∧
      options.get? option = some encoding := by
  cases found : styles.categories.get? category <;> simp [options, found]

theorem encoding_eq_ok_iff : styles.encoding category option = .ok encoding ↔
    (styles.options category).get? option = some encoding := by
  unfold StyleMap.encoding
  split <;> simp_all

theorem encoding_eq_error_iff : styles.encoding category option = .error e ↔
    ¬ styles.Encodes category option ∧ e = .missingEncoding category option := by
  have encodes : styles.Encodes category option ↔
      ∃ encoding, (styles.options category).get? option = some encoding := by
    simp only [Encodes, options_get?_eq_some_iff]
    exact exists_comm
  rw [encodes]
  cases listed : (styles.options category).get? option <;> simp [StyleMap.encoding, listed, eq_comm]

theorem classify_eq_styleFlag_iff :
    styles.classify option = .styleFlag category ↔ styles.owners.get? option = some category := by
  unfold classify
  split <;> simp_all

/-- The category that owns an option lists it, whatever was listed before or after. -/
theorem encodes_of_classify (flag : styles.classify option = .styleFlag category) :
    styles.Encodes category option := by
  obtain ⟨options, found, listed⟩ :=
    styles.encoded option category (classify_eq_styleFlag_iff.mp flag)
  obtain ⟨encoding, value⟩ := Option.isSome_iff_exists.mp listed
  exact ⟨options, encoding, found, value⟩

theorem exists_encoding_of_classify (flag : styles.classify option = .styleFlag category) :
    ∃ encoding, styles.encoding category option = .ok encoding := by
  cases looked : styles.encoding category option with
  | ok encoding => exact ⟨encoding, rfl⟩
  | error e => exact absurd (encodes_of_classify flag) (encoding_eq_error_iff.mp looked).1

/-- What an option sets in a variant if it is a flag that applies: its category and the encoding. -/
def selected? (styles : StyleMap) (isItalic : Bool) (option : SubOption) : Option (String × String) :=
  match styles.classify option.name with
  | .styleFlag category =>
    if conditionApplies option.condition isItalic then
      ((styles.options category).get? option.name).map (category, ·)
    else none
  | .literalColor => none

end StyleMap

namespace Attribute

variable {palette : Palette} {styles : StyleMap} {isItalic : Bool} {e : SchemaError}

theorem setFlag_eq (resolved : ResolvedAttribute) (option : SubOption) :
    setFlag styles isItalic resolved option =
      .ok (resolved.insertAll (styles.selected? isItalic option).toList) := by
  unfold setFlag StyleMap.selected?
  cases kind : styles.classify option.name with
  | literalColor => rfl
  | styleFlag category =>
    by_cases applies : conditionApplies option.condition isItalic = true
    · obtain ⟨encoding, found⟩ := StyleMap.exists_encoding_of_classify kind
      simp [applies, found, StyleMap.encoding_eq_ok_iff.mp found, Except.map, Table.insertAll]
    · simp [applies, Table.insertAll]

theorem foldlM_setFlag (list : List SubOption) (resolved : ResolvedAttribute) :
    list.foldlM (setFlag styles isItalic) resolved =
      .ok (resolved.insertAll (list.filterMap (styles.selected? isItalic))) := by
  induction list generalizing resolved with
  | nil => rfl
  | cons option list ih =>
    rw [List.foldlM_cons, setFlag_eq]
    change list.foldlM (setFlag styles isItalic) _ = _
    rw [ih]
    cases selected : styles.selected? isItalic option <;>
      simp [selected, Table.insertAll]

def settings (palette : Palette) (styles : StyleMap) (isItalic : Bool) (list : List SubOption) :
    ResolvedAttribute :=
  (setColors palette styles list .empty).insertAll (list.filterMap (styles.selected? isItalic))

theorem resolve_options (list : List SubOption) :
    (options list).resolve palette styles isItalic =
      if (options list).isBoldItalic isItalic then
        styles.boldItalic.map ((settings palette styles isItalic list).insert StyleMap.fontType)
      else .ok (settings palette styles isItalic list) := by
  change list.foldlM (setFlag styles isItalic) (setColors palette styles list .empty) >>= _ = _
  rw [foldlM_setFlag]
  rfl

/-- Nothing but a missing encoding for bold and italic together makes an attribute fail. -/
theorem resolve_eq_error_iff (definition : Attribute) :
    definition.resolve palette styles isItalic = .error e ↔
      definition.isBoldItalic isItalic = true ∧ styles.boldItalic = .error e := by
  cases definition with
  | foreground token => simp [resolve, isBoldItalic, subOption?]
  | options list =>
    rw [resolve_options]
    cases encoding : styles.boldItalic <;> split <;> simp_all [Except.map]

end Attribute

end EditorScheme
