import EditorScheme.Build.Basic
import Mathlib.Data.List.Nodup

/-!
Which variants share a name. Nothing sets the word for italic apart from a palette, so the italic variant
of one palette can be named like the plain variant of another, and there is no other way to meet.
-/
namespace EditorScheme.Variant

variable {v w : Variant} {start separator : String} {palettes : List String}

/-- The palette whose plain variant would be named like the italic variant of this one. -/
def italicPalette (palette separator : String) : String :=
  if palette = Palette.defaultName then "italic" else palette ++ separator ++ "italic"

def suffix (v : Variant) (separator : String) : String :=
  (if v.palette = Palette.defaultName then "" else separator ++ v.palette) ++
    (if v.italic then separator ++ "italic" else "")

theorem label_eq (v : Variant) (start separator : String) :
    v.label start separator = start ++ v.suffix separator := by
  simp [label, suffix, String.append_assoc]

theorem label_inj :
    v.label start separator = w.label start separator ↔ v.suffix separator = w.suffix separator := by
  rw [label_eq, label_eq, String.append_right_inj]

theorem suffix_plain (palette : String) :
    suffix ⟨palette, false⟩ separator = if palette = Palette.defaultName then "" else separator ++ palette := by
  simp [suffix]

theorem suffix_italic (palette : String) :
    suffix ⟨palette, true⟩ separator = separator ++ italicPalette palette separator := by
  unfold suffix italicPalette
  split <;> simp [String.append_assoc]

theorem italicPalette_ne_default (palette : String) : italicPalette palette separator ≠ Palette.defaultName := by
  unfold italicPalette
  split
  · decide
  · intro same
    have ending := congrArg (fun text : String => text.toList.getLast?) same
    simp [Palette.defaultName, String.toList_append, List.getLast?_append] at ending

theorem italicPalette_inj (separated : separator ≠ "") {p q : String}
    (same : italicPalette p separator = italicPalette q separator) : p = q := by
  have longer (palette : String) : "italic" ≠ palette ++ separator ++ "italic" := by
    intro equal
    have length := congrArg String.length equal
    have positive : separator.length ≠ 0 := by simpa using separated
    simp only [String.length_append] at length
    omega
  unfold italicPalette at same
  split at same <;> split at same
  case isTrue.isTrue left right => exact left.trans right.symm
  case isTrue.isFalse => exact absurd same (longer q)
  case isFalse.isTrue => exact absurd same.symm (longer p)
  case isFalse.isFalse => simpa using same

theorem suffix_plain_eq_italic_iff (separated : separator ≠ "") {p q : String} :
    suffix ⟨p, false⟩ separator = suffix ⟨q, true⟩ separator ↔ p = italicPalette q separator := by
  rw [suffix_plain, suffix_italic]
  split
  case isTrue default =>
    subst default
    simp [separated, (italicPalette_ne_default q).symm]
  case isFalse => rw [String.append_right_inj]

/-- Two labels are equal for the same variant, or when one is the italic variant of a palette and the other
the plain variant of the palette that is spelled like it. -/
theorem label_eq_label_iff (separated : separator ≠ "") :
    v.label start separator = w.label start separator ↔
      v = w ∨ v.italic = true ∧ w = ⟨italicPalette v.palette separator, false⟩ ∨
        w.italic = true ∧ v = ⟨italicPalette w.palette separator, false⟩ := by
  rw [label_inj]
  obtain ⟨p, vItalic⟩ := v
  obtain ⟨q, wItalic⟩ := w
  cases vItalic <;> cases wItalic
  case false.false =>
    rw [suffix_plain, suffix_plain]
    simp only [mk.injEq, and_true, Bool.false_eq_true, false_and, or_false]
    split <;> split
    case isTrue.isTrue left right => simp [left, right]
    case isTrue.isFalse left right => simp [left, Ne.symm right, separated]
    case isFalse.isTrue left right => simp [right, left, separated]
    case isFalse.isFalse => rw [String.append_right_inj]
  case false.true => rw [suffix_plain_eq_italic_iff separated]; simp
  case true.false => rw [eq_comm, suffix_plain_eq_italic_iff separated]; simp
  case true.true =>
    rw [suffix_italic, suffix_italic, String.append_right_inj]
    simp only [mk.injEq, and_true, Bool.true_eq_false, and_false, or_false]
    exact ⟨italicPalette_inj separated, fun same => by rw [same]⟩

theorem slash_not_mem_suffix (apart : '/' ∉ separator.toList)
    (plain : '/' ∉ v.palette.toList) : '/' ∉ (v.suffix separator).toList := by
  unfold suffix
  rw [String.toList_append, List.mem_append, not_or]
  constructor
  · split
    · simp
    · simp [apart, plain]
  · split
    · simp [apart]
    · simp

theorem matrix_cons (palette : String) (palettes : List String) :
    matrix (palette :: palettes) = ⟨palette, false⟩ :: ⟨palette, true⟩ :: matrix palettes := rfl

theorem mem_matrix : v ∈ matrix palettes ↔ v.palette ∈ palettes := by
  obtain ⟨palette, italic⟩ := v
  cases italic <;> simp [matrix]

theorem nodup_matrix (distinct : palettes.Nodup) : (matrix palettes).Nodup := by
  induction palettes with
  | nil => simp [matrix]
  | cons palette palettes ih =>
    obtain ⟨fresh, distinct⟩ := List.nodup_cons.mp distinct
    simp [matrix_cons, mem_matrix, fresh, ih distinct]

/-- The labels of all variants differ exactly if no palette is spelled like the italic variant of another. -/
theorem nodup_labels_iff (separated : separator ≠ "") (distinct : palettes.Nodup) :
    ((matrix palettes).map (·.label start separator)).Nodup ↔
      ∀ p ∈ palettes, italicPalette p separator ∉ palettes := by
  rw [List.nodup_map_iff_inj_on (nodup_matrix distinct)]
  constructor
  · intro injective p member spelled
    have same := injective ⟨p, true⟩ (mem_matrix.mpr member) ⟨italicPalette p separator, false⟩
      (mem_matrix.mpr spelled) ((label_eq_label_iff separated).mpr (by simp))
    simp at same
  · intro apart v memberV w memberW same
    rcases (label_eq_label_iff separated).mp same with equal | ⟨-, rfl⟩ | ⟨-, rfl⟩
    · exact equal
    · exact absurd (mem_matrix.mp memberW) (apart _ (mem_matrix.mp memberV))
    · exact absurd (mem_matrix.mp memberV) (apart _ (mem_matrix.mp memberW))

theorem italicPalette_ending (palette separator : String) : italicPalette palette separator = "italic" ∨
    (separator ++ "italic").toList <:+ (italicPalette palette separator).toList := by
  unfold italicPalette
  split
  case isTrue => exact .inl rfl
  case isFalse =>
    exact .inr ⟨palette.toList, by rw [← String.toList_append, String.append_assoc]⟩

/-- Two different variants have one stem, or one display name, exactly if one of them is the italic variant of a
palette and the other the plain variant of the palette that is spelled like it. Without a palette that ends like an
italic variant the stems of all variants differ. -/
theorem names_shared_iff :
    (∀ (start : String) (v w : Variant), v.fileStem start = w.fileStem start ↔
      v = w ∨ v.italic = true ∧ w = ⟨italicPalette v.palette "_", false⟩ ∨
        w.italic = true ∧ v = ⟨italicPalette w.palette "_", false⟩) ∧
    (∀ (start : String) (v w : Variant), v.displayName start = w.displayName start ↔
      v = w ∨ v.italic = true ∧ w = ⟨italicPalette v.palette " ", false⟩ ∨
        w.italic = true ∧ v = ⟨italicPalette w.palette " ", false⟩) ∧
    ∀ (config : Config) (start : String), config.palettes.Nodup →
      (∀ palette ∈ config.palettes, palette ≠ "italic" ∧ ¬ "_italic".toList <:+ palette.toList) →
      (config.variants.map (·.fileStem start)).Nodup := by
  refine ⟨fun start v w => label_eq_label_iff (by decide), fun start v w => label_eq_label_iff (by decide), ?_⟩
  intro config start distinct plain
  refine (nodup_labels_iff (by decide) distinct).mpr fun palette _ spelled => ?_
  obtain ⟨notItalic, noEnding⟩ := plain _ spelled
  rcases italicPalette_ending palette "_" with italic | ending
  · exact notItalic italic
  · exact noEnding ending

/-- The italic variant of the default palette and a palette of that name. -/
example : fileStem ⟨"normal", true⟩ "one_dark" = "one_dark_italic" ∧
    fileStem ⟨"italic", false⟩ "one_dark" = "one_dark_italic" := by decide

end EditorScheme.Variant
