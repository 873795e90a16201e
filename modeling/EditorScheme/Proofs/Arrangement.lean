import EditorScheme.Proofs.BlockOrder
import EditorScheme.Scheme.Xml

/-!
How the source of a theme is arranged. The order of the attributes shows in nothing: their blocks are sorted, and if some
of them cannot be resolved they all fail alike. Nor does it matter where the sections of a document stand.
-/
namespace EditorScheme.Theme

variable {palette : Palette} {styles : StyleMap} {italic : Bool} {name : String} {theme other : Theme} {a b : Entries}

/-- Blocks that all have different names can be sorted in one way only. -/
theorem mergeSort_eq_of_perm {first second : List Scheme.Block} (perm : first.Perm second)
    (distinct : (first.map (·.name)).Nodup) :
    first.mergeSort (fun x y => decide (x.name ≤ y.name)) = second.mergeSort (fun x y => decide (x.name ≤ y.name)) := by
  refine List.Perm.eq_of_pairwise ?_ (mergeSort_ascending first) (mergeSort_ascending second) ?_
  · intro x y left right below above
    have inFirst : x ∈ first := List.mem_mergeSort.mp left
    have inSecond : y ∈ first := perm.mem_iff.mpr (List.mem_mergeSort.mp right)
    exact List.inj_on_of_nodup_map distinct inFirst inSecond (String.le_antisymm below above)
  · exact (List.mergeSort_perm first _).trans (perm.trans (List.mergeSort_perm second _).symm)

/-- The same theme but for the order of its attributes, which have different names. -/
structure Reordered (theme other : Theme) : Prop where
  parentScheme : other.parentScheme = theme.parentScheme
  colors : other.colors = theme.colors
  inheriting : other.inheriting = theme.inheriting
  attributes : theme.attributes.Perm other.attributes
  distinct : (theme.attributes.map (·.1)).Nodup

namespace Reordered

theorem symm (reordered : Reordered theme other) : Reordered other theme where
  parentScheme := reordered.parentScheme.symm
  colors := reordered.colors.symm
  inheriting := reordered.inheriting.symm
  attributes := reordered.attributes.symm
  distinct := ((reordered.attributes.map _).nodup_iff).mp reordered.distinct

theorem assemble_eq_ok {scheme : Scheme} (reordered : Reordered theme other)
    (assembled : theme.assemble palette styles italic name = .ok scheme) :
    other.assemble palette styles italic name = .ok scheme := by
  obtain ⟨blocks, made, rfl⟩ := assemble_eq_ok_iff.mp assembled
  obtain ⟨others, madeOthers, arranged⟩ := exists_perm_of_mapM_eq_ok reordered.attributes made
  have names : blocks.map (·.name) = theme.attributes.map (·.1) := by
    refine map_eq_of_mapM_eq_ok made fun entry block ok => ?_
    obtain ⟨resolved, -, rfl⟩ := block_eq_ok_iff.mp ok
    rfl
  refine assemble_eq_ok_iff.mpr ⟨others, madeOthers, ?_⟩
  rw [reordered.parentScheme, reordered.colors, reordered.inheriting,
    mergeSort_eq_of_perm arranged (names ▸ reordered.distinct)]

/-- Which attribute is the first to fail depends on the order, but not how it fails. -/
theorem assemble_eq (reordered : Reordered theme other) :
    theme.assemble palette styles italic name = other.assemble palette styles italic name := by
  cases first : theme.assemble palette styles italic name with
  | ok scheme => exact (reordered.assemble_eq_ok first).symm
  | error e =>
    cases second : other.assemble palette styles italic name with
    | ok scheme =>
      rw [reordered.symm.assemble_eq_ok second] at first
      cases first
    | error e' => rw [eq_of_assemble_eq_error first, eq_of_assemble_eq_error second]

end Reordered

/-- Two documents that hold the same sections, with the attributes in any order and under keys of different texts.
Wherever the sections stand, and whatever else the documents hold. -/
structure Rearranged (a b : Entries) : Prop where
  parentScheme : Yaml.Value.lookup "parent-scheme" b = Yaml.Value.lookup "parent-scheme" a
  colors : Yaml.Value.lookup "colors" b = Yaml.Value.lookup "colors" a
  inheriting : Yaml.Value.lookup "inheriting-attributes" b = Yaml.Value.lookup "inheriting-attributes" a
  attributes : ∃ listed others, sectionEntries a "attributes" = .ok listed ∧
    sectionEntries b "attributes" = .ok others ∧ listed.Perm others ∧
    (listed.map fun entry => entry.1.scalarText?).Nodup

theorem sectionEntries_congr {key : String} (same : Yaml.Value.lookup key b = Yaml.Value.lookup key a) :
    sectionEntries b key = sectionEntries a key := by
  unfold sectionEntries
  rw [same]

theorem exists_reordered (rearranged : Rearranged a b) (parsed : ofValue (.mapping a) = .ok theme) :
    ∃ other, ofValue (.mapping b) = .ok other ∧ Reordered theme other := by
  obtain ⟨listed, others, inA, inB, perm, distinct⟩ := rearranged.attributes
  obtain ⟨parent, colors, inheriting, entries, found, read⟩ := ofValue_mapping_eq_ok_iff.mp parsed
  cases inA.symm.trans found
  obtain ⟨attributes, readOthers, arranged⟩ := exists_perm_of_mapM_eq_ok perm read
  have names : (theme.attributes.map fun entry => some entry.1) = listed.map fun entry => entry.1.scalarText? :=
    map_eq_of_mapM_eq_ok read fun _ _ ok => attributeEntry_text ok
  refine ⟨{ theme with attributes }, ?_, rfl, rfl, rfl, arranged, ?_⟩
  · rw [← rearranged.parentScheme] at parent
    rw [← sectionEntries_congr rearranged.colors] at colors
    rw [← sectionEntries_congr rearranged.inheriting] at inheriting
    exact ofValue_mapping_eq_ok_iff.mpr ⟨parent, colors, inheriting, others, inB, readOthers⟩
  · rw [← names, ← Function.comp_def some, ← List.map_map] at distinct
    exact distinct.of_map some

/-- A document that is arranged in another way is a theme as well, and gives every variant the same text, or the
same failure. -/
theorem rendered_alike_of_rearranged (rearranged : Rearranged a b) (parsed : ofValue (.mapping a) = .ok theme) :
    ∃ other, ofValue (.mapping b) = .ok other ∧ ∀ palette styles italic name,
      (theme.assemble palette styles italic name).map Scheme.toXml =
        (other.assemble palette styles italic name).map Scheme.toXml := by
  obtain ⟨other, read, reordered⟩ := exists_reordered rearranged parsed
  refine ⟨other, read, fun palette styles italic name => ?_⟩
  rw [reordered.assemble_eq]

/-- Attributes under keys of different types. One of them needs an encoding for bold and italic together. -/
def sampleAttributes : Entries :=
  [(.string "KEYWORD", .mapping [(.string "bold", .string "always"), (.string "italic", .string "theme")]),
    (.number (.integer 1), .string "white"), (.bool true, .mapping [])]

def sampleDocument : Entries :=
  [(.string "parent-scheme", .string "Darcula"), (.string "colors", .mapping [(.string "CARET", .string "white")]),
    (.string "inheriting-attributes", .mapping []), (.string "attributes", .mapping sampleAttributes)]

def rearrangedDocument : Entries :=
  [(.string "attributes", .tagged "!sorted" (.mapping sampleAttributes.reverse)),
    (.string "inheriting-attributes", .mapping []),
    (.string "colors", .mapping [(.string "CARET", .string "white")]), (.string "version", .null),
    (.string "parent-scheme", .string "Darcula")]

def sampleTheme : Theme where
  parentScheme := "Darcula"
  colors := [("CARET", "white")]
  inheriting := []
  attributes := [("KEYWORD", .options [⟨"bold", "always"⟩, ⟨"italic", "theme"⟩]), ("1", .foreground "white"),
    ("true", .options [])]

theorem rendered_alike_rearrangedDocument : Rearranged sampleDocument rearrangedDocument ∧
    ofValue (.mapping sampleDocument) = .ok sampleTheme ∧
    ∃ other, ofValue (.mapping rearrangedDocument) = .ok other ∧ ∀ palette styles italic name,
      (sampleTheme.assemble palette styles italic name).map Scheme.toXml =
        (other.assemble palette styles italic name).map Scheme.toXml := by
  have rearranged : Rearranged sampleDocument rearrangedDocument := by
    refine ⟨rfl, rfl, rfl, sampleAttributes, sampleAttributes.reverse, rfl, rfl, ?_, by decide +kernel⟩
    exact (List.reverse_perm sampleAttributes).symm
  have parsed : ofValue (.mapping sampleDocument) = .ok sampleTheme := eq_ok_of_toOption (by decide +kernel)
  exact ⟨rearranged, parsed, rendered_alike_of_rearranged rearranged parsed⟩

end EditorScheme.Theme
