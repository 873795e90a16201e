import EditorScheme.Proofs.BlockOrder
import EditorScheme.Proofs.Text.ByteOrder

/-!
What a theme is assembled to. Nothing is lost, nothing is added, and nothing changes its place but the blocks, which
are sorted by the bytes of their names. Blocks of one name keep their order, so there is only one way to sort them.
-/
namespace EditorScheme

namespace Scheme

variable {first second : List Block} {name : String}

def named (name : String) (blocks : List Block) : List Block := blocks.filter fun block => decide (block.name = name)

theorem mem_named {blocks : List Block} {block : Block} :
    block ∈ named name blocks ↔ block ∈ blocks ∧ block.name = name := by
  simp [named]

theorem named_mergeSort (blocks : List Block) (name : String) :
    named name (blocks.mergeSort fun a b => decide (a.name ≤ b.name)) = named name blocks := by
  have alike : (named name blocks).Pairwise fun a b => decide (a.name ≤ b.name) = true := by
    refine List.pairwise_of_forall_mem_list fun a memberA b memberB => ?_
    rw [(mem_named.mp memberA).2, (mem_named.mp memberB).2]
    simp
  -- A sorted list keeps what ascends already, here in all its length.
  have kept : (named name blocks).Sublist (blocks.mergeSort fun a b => decide (a.name ≤ b.name)) :=
    List.sublist_mergeSort Theme.block_le_trans Theme.block_le_total alike List.filter_sublist
  have within : (named name (named name blocks)).Sublist (named name (blocks.mergeSort fun a b =>
      decide (a.name ≤ b.name))) := kept.filter _
  have once : named name (named name blocks) = named name blocks := by simp [named]
  rw [once] at within
  exact (within.eq_of_length ((List.mergeSort_perm blocks _).filter _).length_eq.symm).symm

/-- Two lists that ascend by name are the same if they have the same blocks of every name. -/
theorem eq_of_ascending (ascendingFirst : first.Pairwise fun a b => a.name ≤ b.name)
    (ascendingSecond : second.Pairwise fun a b => a.name ≤ b.name)
    (same : ∀ name, named name first = named name second) : first = second := by
  induction first generalizing second with
  | nil =>
    cases second with
    | nil => rfl
    | cons y ys => simpa [named] using same y.name
  | cons x xs ih =>
    cases second with
    | nil => simpa [named] using same x.name
    | cons y ys =>
      obtain ⟨leastX, ascendingXs⟩ := List.pairwise_cons.mp ascendingFirst
      obtain ⟨leastY, ascendingYs⟩ := List.pairwise_cons.mp ascendingSecond
      have least {a b : Block} {rest : List Block} (lower : ∀ other ∈ rest, a.name ≤ other.name)
          (member : b ∈ a :: rest) : a.name ≤ b.name := by
        rcases List.mem_cons.mp member with rfl | later
        · exact String.le_refl _
        · exact lower b later
      have inSecond : x ∈ y :: ys := (mem_named.mp (same x.name ▸ mem_named.mpr ⟨by simp, rfl⟩)).1
      have inFirst : y ∈ x :: xs := (mem_named.mp ((same y.name).symm ▸ mem_named.mpr ⟨by simp, rfl⟩)).1
      -- Each head occurs in the other list, so neither name is below the other.
      have names : x.name = y.name := String.le_antisymm (least leastX inFirst) (least leastY inSecond)
      obtain ⟨rfl, rest⟩ : x = y ∧ named x.name xs = named x.name ys := by
        simpa [named, names] using same x.name
      rw [ih ascendingXs ascendingYs fun name => ?_]
      by_cases this : x.name = name
      · exact this ▸ rest
      · simpa [named, this] using same name

theorem map_entry_eq_iff {entries : List Entry} {pairs : List (String × String)} :
    entries.map (fun entry => (entry.name, entry.value)) = pairs ↔ entries = pairs.map fun pair => ⟨pair.1, pair.2⟩ := by
  constructor <;> rintro rfl <;> simp [Function.comp_def]

theorem map_inherited_eq_iff {inherited : List Inherited} {pairs : List (String × String)} :
    inherited.map (fun pair => (pair.name, pair.base)) = pairs ↔ inherited = pairs.map fun pair => ⟨pair.1, pair.2⟩ := by
  constructor <;> rintro rfl <;> simp [Function.comp_def]

end Scheme

namespace Theme

variable {palette : Palette} {styles : StyleMap} {italic : Bool} {name : String} {theme : Theme} {scheme : Scheme}

/-- The block has the name of the attribute, and all options that the attribute resolves to, in their order. -/
def Renders (palette : Palette) (styles : StyleMap) (italic : Bool) (entry : String × Attribute)
    (block : Scheme.Block) : Prop :=
  block.name = entry.1 ∧ ∃ resolved, entry.2.resolve palette styles italic = .ok resolved ∧
    block.options.map (fun option => (option.name, option.value)) =
      resolved.entries.map fun option => (schemeOptionName option.1, option.2)

theorem block_eq_ok_iff_renders {entry : String × Attribute} {made : Scheme.Block} :
    block palette styles italic entry = .ok made ↔ Renders palette styles italic entry made := by
  obtain ⟨named, options⟩ := made
  simp only [block_eq_ok_iff, Renders, Scheme.map_entry_eq_iff, List.map_map, Scheme.Block.mk.injEq]
  constructor
  · rintro ⟨resolved, ok, rfl, rfl⟩
    exact ⟨rfl, resolved, ok, rfl⟩
  · rintro ⟨rfl, resolved, ok, rfl⟩
    exact ⟨resolved, ok, rfl, rfl⟩

/-- The scheme has all that the theme gives, and nothing else. -/
structure Assembles (palette : Palette) (styles : StyleMap) (italic : Bool) (name : String) (theme : Theme)
    (scheme : Scheme) : Prop where
  name : scheme.name = name
  parentScheme : scheme.parentScheme = theme.parentScheme
  version : scheme.version = "142"
  /-- A value that a token has in the palette is not looked up again. -/
  colors : scheme.colors.map (fun color => (color.name, color.value)) =
    theme.colors.map fun color => (color.1, palette.resolve color.2)
  inherited : scheme.inherited.map (fun pair => (pair.name, pair.base)) = theme.inheriting
  blocks : ∃ blocks, List.Forall₂ (Renders palette styles italic) theme.attributes blocks ∧
    scheme.attributes.Perm blocks ∧ ∀ name, Scheme.named name scheme.attributes = Scheme.named name blocks
  ascending : scheme.attributes.Pairwise fun a b => Text.bytes a.name ≤ Text.bytes b.name
  strictly : (scheme.attributes.Pairwise fun a b => Text.bytes a.name < Text.bytes b.name) ↔
    (theme.attributes.map Prod.fst).Nodup
  empty : ∀ entry ∈ theme.attributes, entry.2.resolve palette styles italic = .ok .empty →
    ⟨entry.1, []⟩ ∈ scheme.attributes

theorem assembles_of_assemble (assembled : theme.assemble palette styles italic name = .ok scheme) :
    Assembles palette styles italic name theme scheme := by
  have ascending := blockNames_ascending assembled
  have names := blockNames_perm assembled
  obtain ⟨blocks, made, rfl⟩ := assemble_eq_ok_iff.mp assembled
  have sorted := List.mergeSort_perm blocks fun a b => decide (a.name ≤ b.name)
  have rendered := (forall₂_of_mapM_eq_ok made).imp fun _ _ => block_eq_ok_iff_renders.mp
  refine ⟨rfl, rfl, rfl, ?_, ?_, ⟨blocks, rendered, sorted, Scheme.named_mergeSort blocks⟩, ?_, ?_, ?_⟩
  · simp [Function.comp_def]
  · simp [Function.comp_def]
  · simpa using ascending
  · simpa [← names.nodup_iff] using strictly_iff_nodup ascending
  · intro entry member nothing
    obtain ⟨block, inside, ok⟩ := exists_mem_of_mapM_eq_ok made member
    obtain ⟨resolved, given, rfl⟩ := block_eq_ok_iff.mp ok
    cases nothing.symm.trans given
    exact sorted.mem_iff.mpr inside

theorem assemble_of_assembles (assembles : Assembles palette styles italic name theme scheme) :
    theme.assemble palette styles italic name = .ok scheme := by
  obtain ⟨rfl, parentScheme, version, colors, inherited, ⟨blocks, rendered, -, same⟩, ascending, -, -⟩ := assembles
  have made : theme.attributes.mapM (block palette styles italic) = .ok blocks :=
    mapM_eq_ok_iff_forall₂.mpr (rendered.imp fun _ _ => block_eq_ok_iff_renders.mpr)
  have attributes : scheme.attributes = blocks.mergeSort fun a b => decide (a.name ≤ b.name) := by
    refine Scheme.eq_of_ascending (by simpa using ascending) (mergeSort_ascending blocks) fun name => ?_
    rw [same, Scheme.named_mergeSort]
  rw [Scheme.map_entry_eq_iff, List.map_map] at colors
  rw [Scheme.map_inherited_eq_iff] at inherited
  refine assemble_eq_ok_iff.mpr ⟨blocks, made, ?_⟩
  rw [← attributes]
  cases scheme
  rw [Scheme.mk.injEq]
  exact ⟨rfl, parentScheme, version, colors, inherited, rfl⟩

/-- Assembling gives the scheme with all that the theme gives, sorted by the bytes of the names, which is the order of
their code points. -/
theorem assemble_only_sorts (palette : Palette) (styles : StyleMap) (italic : Bool) (name : String) (theme : Theme)
    (scheme : Scheme) :
    (theme.assemble palette styles italic name = .ok scheme ↔ Assembles palette styles italic name theme scheme) ∧
    ∀ a b, Text.bytes a < Text.bytes b ↔ Text.codePoints a < Text.codePoints b :=
  ⟨⟨assembles_of_assemble, assemble_of_assembles⟩, by simp⟩

/-- A value that is the name of a color as well stays as it is. -/
example : ((⟨"Darcula", [("CARET", "text")], [], []⟩ : Theme).assemble
    (((Palette.empty "normal").add "text" "white").add "white" "ffffff") .empty false "X").toOption.map (·.colors) =
      some [⟨"CARET", "white"⟩] := by
  decide

end Theme

end EditorScheme
