import EditorScheme.Proofs.Assembly
import Mathlib.Data.List.Nodup

/-!
The options of the blocks of a scheme. An attribute sets every option once, but its options get their names in
the scheme only after that, so two of them can meet under one name there.
-/
namespace EditorScheme

namespace Attribute

variable {palette : Palette} {styles : StyleMap} {isItalic : Bool} {key : String}

/-- The attribute sets an option of this name: a color it lists, the category of a flag that applies, or the
category of bold and italic together. -/
def Sets (styles : StyleMap) (isItalic : Bool) (key : String) : Attribute → Prop
  | .foreground _ => key = "foreground"
  | .options list =>
    (∃ option ∈ list, styles.classify option.name = .literalColor ∧ option.name = key) ∨
      (∃ option ∈ list, styles.classify option.name = .styleFlag key ∧ Applies option.condition isItalic) ∨
      (options list).BoldItalic isItalic ∧ key = "font-type"

theorem mem_keys_setColors {list : List SubOption} {resolved : ResolvedAttribute} :
    key ∈ (setColors palette styles list resolved).keys ↔ key ∈ resolved.keys ∨
      ∃ option ∈ list, styles.classify option.name = .literalColor ∧ option.name = key := by
  induction list generalizing resolved with
  | nil => simp [setColors]
  | cons option list ih =>
    rw [List.exists_mem_cons_iff]
    cases kind : styles.classify option.name with
    | styleFlag category =>
      have skipped : setColors palette styles (option :: list) resolved = setColors palette styles list resolved := by
        simp [setColors, kind]
      rw [skipped, ih]
      simp
    | literalColor =>
      have set : setColors palette styles (option :: list) resolved =
          setColors palette styles list (resolved.insert option.name (palette.resolve option.condition)) := by
        simp [setColors, kind]
      rw [set, ih, Table.mem_keys_insert, or_assoc]
      simp [eq_comm]

theorem mem_keys_selected {list : List SubOption} :
    key ∈ (list.filterMap (styles.selected? isItalic)).map Prod.fst ↔
      ∃ option ∈ list, styles.classify option.name = .styleFlag key ∧ Applies option.condition isItalic := by
  have one (option : SubOption) : (∃ encoding, styles.selected? isItalic option = some (key, encoding)) ↔
      styles.classify option.name = .styleFlag key ∧ Applies option.condition isItalic := by
    rw [← conditionApplies_iff]
    unfold StyleMap.selected?
    cases kind : styles.classify option.name with
    | literalColor => simp
    | styleFlag category =>
      obtain ⟨encoding, found⟩ := StyleMap.exists_encoding_of_classify kind
      have listed := StyleMap.encoding_eq_ok_iff.mp found
      by_cases applies : conditionApplies option.condition isItalic = true
      · simp [applies, listed]
      · simp [applies]
  simp only [List.mem_map, List.mem_filterMap, Prod.exists, exists_and_right, exists_eq_right]
  constructor
  · rintro ⟨encoding, option, member, selected⟩
    exact ⟨option, member, (one option).mp ⟨encoding, selected⟩⟩
  · rintro ⟨option, member, applies⟩
    obtain ⟨encoding, selected⟩ := (one option).mpr applies
    exact ⟨encoding, option, member, selected⟩

theorem mem_keys_resolve {definition : Attribute} {resolved : ResolvedAttribute}
    (ok : definition.resolve palette styles isItalic = .ok resolved) :
    key ∈ resolved.keys ↔ definition.Sets styles isItalic key := by
  cases definition with
  | foreground token =>
    cases ok
    rw [Table.mem_keys_insert]
    simp [Table.keys, Table.empty, Sets, foregroundOption]
  | options list =>
    have set : key ∈ (settings palette styles isItalic list).keys ↔
        (∃ option ∈ list, styles.classify option.name = .literalColor ∧ option.name = key) ∨
          ∃ option ∈ list, styles.classify option.name = .styleFlag key ∧ Applies option.condition isItalic := by
      rw [settings, Table.mem_keys_insertAll, mem_keys_setColors, mem_keys_selected]
      simp [Table.keys, Table.empty]
    rw [resolve_options] at ok
    rw [Sets, ← isBoldItalic_iff]
    by_cases both : (options list).isBoldItalic isItalic = true
    · rw [if_pos both] at ok
      cases encoding : styles.boldItalic with
      | error e => simp [encoding, Except.map] at ok
      | ok value =>
        rw [encoding] at ok
        cases ok
        rw [Table.mem_keys_insert, set, or_assoc]
        simp [both, StyleMap.fontType]
    · rw [if_neg both] at ok
      cases ok
      rw [set]
      simp [both]

/-- No two options that the attribute sets have one name in a scheme. -/
def KeepsApart (styles : StyleMap) (isItalic : Bool) (definition : Attribute) : Prop :=
  ∀ key other, definition.Sets styles isItalic key → definition.Sets styles isItalic other →
    schemeOptionName key = schemeOptionName other → key = other

end Attribute

namespace Theme

variable {palette : Palette} {styles : StyleMap} {italic : Bool}

theorem block_eq_ok_iff {entry : String × Attribute} {made : Scheme.Block} :
    block palette styles italic entry = .ok made ↔ ∃ resolved,
      entry.2.resolve palette styles italic = .ok resolved ∧
        made = ⟨entry.1, resolved.entries.map fun option => ⟨schemeOptionName option.1, option.2⟩⟩ := by
  unfold block
  cases entry.2.resolve palette styles italic <;> simp [bind, Except.bind, eq_comm]

theorem nodup_optionNames_iff {entry : String × Attribute} {made : Scheme.Block}
    (ok : block palette styles italic entry = .ok made) :
    (made.options.map (·.name)).Nodup ↔ entry.2.KeepsApart styles italic := by
  obtain ⟨resolved, settled, rfl⟩ := block_eq_ok_iff.mp ok
  have names : (resolved.entries.map fun option => (⟨schemeOptionName option.1, option.2⟩ : Scheme.Entry)).map
      (·.name) = resolved.keys.map schemeOptionName := by
    rw [Table.keys, List.map_map, List.map_map]
    rfl
  have distinct : resolved.keys.Nodup := resolved.distinct
  rw [names, List.nodup_map_iff_inj_on distinct]
  constructor
  · intro injective key other setKey setOther
    exact injective key ((Attribute.mem_keys_resolve settled).mpr setKey) other
      ((Attribute.mem_keys_resolve settled).mpr setOther)
  · intro apart key member other memberOther
    exact apart key other ((Attribute.mem_keys_resolve settled).mp member)
      ((Attribute.mem_keys_resolve settled).mp memberOther)

theorem assemble_eq_ok_iff {theme : Theme} {name : String} {scheme : Scheme} :
    theme.assemble palette styles italic name = .ok scheme ↔ ∃ blocks,
      theme.attributes.mapM (block palette styles italic) = .ok blocks ∧
        scheme = {
          name
          parentScheme := theme.parentScheme
          version := Scheme.formatVersion
          colors := theme.colors.map fun color => ⟨color.1, palette.resolve color.2⟩
          inherited := theme.inheriting.map fun pair => ⟨pair.1, pair.2⟩
          attributes := blocks.mergeSort fun a b => decide (a.name ≤ b.name) } := by
  unfold assemble
  cases theme.attributes.mapM (block palette styles italic) <;> simp [bind, Except.bind, eq_comm]

theorem exists_assemble {theme : Theme} {blocks : List Scheme.Block}
    (made : theme.attributes.mapM (block palette styles italic) = .ok blocks) (name : String) :
    ∃ scheme, theme.assemble palette styles italic name = .ok scheme ∧ scheme.attributes.Perm blocks := by
  refine ⟨_, assemble_eq_ok_iff.mpr ⟨blocks, made, rfl⟩, ?_⟩
  exact List.mergeSort_perm blocks _

/-- A scheme has one block for each attribute. The names of its options are all different exactly if no two
options that the attribute sets have one name in a scheme. -/
theorem optionNames_distinct_iff {theme : Theme} {name : String} {scheme : Scheme}
    (assembled : theme.assemble palette styles italic name = .ok scheme) : ∃ blocks,
      scheme.attributes.Perm blocks ∧
      List.Forall₂ (fun entry block => block.name = entry.1 ∧
        ((block.options.map (·.name)).Nodup ↔ entry.2.KeepsApart styles italic)) theme.attributes blocks := by
  obtain ⟨blocks, made, rfl⟩ := assemble_eq_ok_iff.mp assembled
  refine ⟨blocks, List.mergeSort_perm blocks _, ?_⟩
  refine (forall₂_of_mapM_eq_ok made).imp fun entry block ok => ⟨?_, nodup_optionNames_iff ok⟩
  obtain ⟨resolved, -, rfl⟩ := block_eq_ok_iff.mp ok
  rfl

/-- An attribute with flags of one category, and one with a color in two spellings. -/
def spelledTwice : String :=
  "parent-scheme: Darcula\ncolors: \x7b\x7d\ninheriting-attributes: \x7b\x7d\nattributes:\n" ++
    "  KEYWORD:\n    bold: always\n    italic: theme\n" ++
    "  TEXT:\n    foreground: white\n    FOREGROUND: black\n"

def fontStyles : StyleMap :=
  StyleMap.empty.addAll [("font-type", "bold", "1"), ("font-type", "italic", "2"), ("font-type", "bold-italic", "3")]

theorem assemble_spelledTwice : ∃ theme scheme, Theme.ofYaml spelledTwice = .ok theme ∧
    theme.assemble (.empty "normal") fontStyles true "X" = .ok scheme ∧
    scheme.attributes.Perm [⟨"KEYWORD", [⟨"FONT_TYPE", "3"⟩]⟩,
      ⟨"TEXT", [⟨"FOREGROUND", "white"⟩, ⟨"FOREGROUND", "black"⟩]⟩] := by
  have answers : (Theme.ofYaml spelledTwice).toOption.bind (fun theme =>
      (theme.attributes.mapM (block (.empty "normal") fontStyles true)).toOption) =
      some [⟨"KEYWORD", [⟨"FONT_TYPE", "3"⟩]⟩,
        ⟨"TEXT", [⟨"FOREGROUND", "white"⟩, ⟨"FOREGROUND", "black"⟩]⟩] := by decide +kernel
  obtain ⟨theme, read, blocks⟩ := Option.bind_eq_some_iff.mp answers
  obtain ⟨scheme, assembled, arranged⟩ := exists_assemble (eq_ok_of_toOption blocks) "X"
  exact ⟨theme, scheme, eq_ok_of_toOption read, assembled, arranged⟩

theorem optionNames_distinct_spelledTwice : ∃ theme scheme, Theme.ofYaml spelledTwice = .ok theme ∧
    theme.assemble (.empty "normal") fontStyles true "X" = .ok scheme ∧ ∃ blocks,
      scheme.attributes.Perm blocks ∧
      List.Forall₂ (fun entry block => block.name = entry.1 ∧
        ((block.options.map (·.name)).Nodup ↔ entry.2.KeepsApart fontStyles true)) theme.attributes blocks := by
  obtain ⟨theme, scheme, read, assembled, -⟩ := assemble_spelledTwice
  exact ⟨theme, scheme, read, assembled, optionNames_distinct_iff assembled⟩

/-- Nothing keeps a theme from having two options that have one name in a scheme. -/
theorem optionNames_meet : ∃ theme scheme, Theme.ofYaml spelledTwice = .ok theme ∧
    theme.assemble (.empty "normal") fontStyles true "X" = .ok scheme ∧
    ∃ block ∈ scheme.attributes, ¬ (block.options.map (·.name)).Nodup := by
  obtain ⟨theme, scheme, read, assembled, blocks⟩ := assemble_spelledTwice
  refine ⟨theme, scheme, read, assembled, ⟨"TEXT", [⟨"FOREGROUND", "white"⟩, ⟨"FOREGROUND", "black"⟩]⟩, ?_, by decide⟩
  simp [blocks.mem_iff]

end Theme

end EditorScheme
