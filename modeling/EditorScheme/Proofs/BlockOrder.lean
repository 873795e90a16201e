import EditorScheme.Proofs.OptionNames
import EditorScheme.Proofs.Schema.Reading
import EditorScheme.Proofs.Yaml.Keys

/-!
The order of the blocks of a scheme. Blocks ascend by name, and a name comes twice only if the theme gives it to
two attributes. YAML refuses keys that are equal, but keys that are typed differently can have one text.
-/
namespace EditorScheme

namespace Theme

variable {palette : Palette} {styles : StyleMap} {italic : Bool} {theme : Theme} {scheme : Scheme} {name : String}
  {document : Yaml.Value}

def attributeEntries (document : Yaml.Value) : Except SchemaError Entries := do
  sectionEntries (← rootEntries .theme document) "attributes"

def attributeKeys (document : Yaml.Value) : List Yaml.Value :=
  match attributeEntries document with
  | .ok entries => entries.map Prod.fst
  | .error _ => []

theorem attributeEntry_text {entry : Yaml.Value × Yaml.Value} {result : String × Attribute}
    (ok : attributeEntry entry = .ok result) : some result.1 = entry.1.scalarText? := by
  unfold attributeEntry at ok
  cases key : scalarText .attributes entry.1 with
  | error e => simp [key, bind, Except.bind] at ok
  | ok text =>
    cases definition : Attribute.ofValue text entry.2 with
    | error e => simp [key, definition, bind, Except.bind] at ok
    | ok value =>
      simp only [key, definition, bind, Except.bind] at ok
      cases ok
      exact (scalarText_eq_ok_iff.mp key).symm

theorem exists_attributeEntries (parsed : ofValue document = .ok theme) : ∃ entries,
    attributeEntries document = .ok entries ∧ entries.mapM attributeEntry = .ok theme.attributes := by
  cases document with
  | mapping root =>
    obtain ⟨-, -, -, entries, listed, read⟩ := ofValue_mapping_eq_ok_iff.mp parsed
    exact ⟨entries, listed, read⟩
  | _ => cases parsed

theorem attributeNames (parsed : ofValue document = .ok theme) :
    theme.attributes.map (fun entry => some entry.1) =
      (attributeKeys document).map Yaml.Value.scalarText? := by
  obtain ⟨entries, listed, read⟩ := exists_attributeEntries parsed
  rw [attributeKeys, listed, List.map_map]
  exact map_eq_of_mapM_eq_ok read fun entry result ok => attributeEntry_text ok

theorem attributeKeys_differ {text : String} (read : readValue text = .ok document) :
    (attributeKeys document).Pairwise fun a b => a.same b = false := by
  have differ := Yaml.Value.keysDiffer_of_ofText (readValue_eq_ok_iff.mp read)
  unfold attributeKeys
  cases listed : attributeEntries document with
  | error e => exact .nil
  | ok entries =>
    unfold attributeEntries at listed
    cases differ with
    | mapping apart keys values =>
      obtain ⟨value, found, mapping⟩ := sectionEntries_eq_ok_iff.mp listed
      have inner := Yaml.Value.KeysDiffer.lookup values found
      exact List.pairwise_map.mpr (inner.entries? mapping)
    | _ => cases listed

theorem blockNames_perm (assembled : theme.assemble palette styles italic name = .ok scheme) :
    (scheme.attributes.map (·.name)).Perm (theme.attributes.map (·.1)) := by
  obtain ⟨blocks, made, rfl⟩ := assemble_eq_ok_iff.mp assembled
  have names : blocks.map (·.name) = theme.attributes.map (·.1) := by
    refine map_eq_of_mapM_eq_ok made fun entry block ok => ?_
    obtain ⟨resolved, -, rfl⟩ := block_eq_ok_iff.mp ok
    rfl
  rw [← names]
  exact (List.mergeSort_perm blocks _).map _

theorem block_le_trans (a b c : Scheme.Block) (first : decide (a.name ≤ b.name) = true)
    (second : decide (b.name ≤ c.name) = true) : decide (a.name ≤ c.name) = true :=
  decide_eq_true (String.le_trans (of_decide_eq_true first) (of_decide_eq_true second))

theorem block_le_total (a b : Scheme.Block) : (decide (a.name ≤ b.name) || decide (b.name ≤ a.name)) = true := by
  simpa using String.le_total a.name b.name

theorem mergeSort_ascending (blocks : List Scheme.Block) :
    (blocks.mergeSort fun a b => decide (a.name ≤ b.name)).Pairwise fun a b => a.name ≤ b.name := by
  have sorted : (blocks.mergeSort fun a b => decide (a.name ≤ b.name)).Pairwise fun a b =>
      decide (a.name ≤ b.name) = true := List.pairwise_mergeSort block_le_trans block_le_total blocks
  exact sorted.imp of_decide_eq_true

theorem blockNames_ascending (assembled : theme.assemble palette styles italic name = .ok scheme) :
    scheme.attributes.Pairwise fun a b => a.name ≤ b.name := by
  obtain ⟨blocks, -, rfl⟩ := assemble_eq_ok_iff.mp assembled
  exact mergeSort_ascending blocks

theorem nodup_blockNames_iff (parsed : ofValue document = .ok theme)
    (assembled : theme.assemble palette styles italic name = .ok scheme) :
    (scheme.attributes.map (·.name)).Nodup ↔
      (attributeKeys document).Pairwise fun a b => a.scalarText? ≠ b.scalarText? := by
  have texts := attributeNames parsed
  rw [(blockNames_perm assembled).nodup_iff, ← List.pairwise_map, ← texts, List.pairwise_map, List.Nodup,
    List.pairwise_map]
  simp

theorem strictly_iff_nodup (ascending : scheme.attributes.Pairwise fun a b => a.name ≤ b.name) :
    (scheme.attributes.Pairwise fun a b => a.name < b.name) ↔ (scheme.attributes.map (·.name)).Nodup := by
  rw [List.Nodup, List.pairwise_map]
  constructor
  · intro strict
    refine strict.imp fun {a b} less same => ?_
    rw [same] at less
    exact String.lt_irrefl _ less
  · intro apart
    exact (ascending.and apart).imp fun both => Std.lt_iff_le_and_ne.mpr both

theorem texts_differ_of_strings {keys : List Yaml.Value} (strings : ∀ key ∈ keys, key.kind = .string)
    (differ : keys.Pairwise fun a b => a.same b = false) :
    keys.Pairwise fun a b => a.scalarText? ≠ b.scalarText? := by
  have asString {key : Yaml.Value} (kind : key.kind = .string) : ∃ s, key = .string s := by
    cases key with
    | string s => exact ⟨s, rfl⟩
    | _ => cases kind
  refine differ.imp_of_mem fun {a b} memberA memberB apart same => ?_
  obtain ⟨s, rfl⟩ := asString (strings a memberA)
  obtain ⟨t, rfl⟩ := asString (strings b memberB)
  cases same
  simp [Yaml.Value.same] at apart

/-- The blocks of a scheme ascend by name. They do so strictly exactly if the keys of the attributes have different
texts, and equal keys are refused: keys that are all strings always have different texts. -/
theorem blockNames_strictly_ascending_iff {text : String} (read : readValue text = .ok document)
    (parsed : ofValue document = .ok theme) (assembled : theme.assemble palette styles italic name = .ok scheme) :
    (scheme.attributes.Pairwise fun a b => a.name ≤ b.name) ∧
    ((scheme.attributes.Pairwise fun a b => a.name < b.name) ↔
      (attributeKeys document).Pairwise fun a b => a.scalarText? ≠ b.scalarText?) ∧
    ((∀ key ∈ attributeKeys document, key.kind = .string) →
      scheme.attributes.Pairwise fun a b => a.name < b.name) := by
  have ascending := blockNames_ascending assembled
  have strictly := (strictly_iff_nodup ascending).trans (nodup_blockNames_iff parsed assembled)
  refine ⟨ascending, strictly, fun strings => ?_⟩
  exact strictly.mpr (texts_differ_of_strings strings (attributeKeys_differ read))

/-- Two attributes of one color each; the key of the second is put in as it is written. -/
def twoAttributes (key : String) : String :=
  "parent-scheme: Darcula\ncolors: \x7b\x7d\ninheriting-attributes: \x7b\x7d\nattributes:\n  \"1\": black\n  " ++
    key ++ ": white\n"

def blockNamesOf (text : String) : Option (List String) := do
  let document ← (readValue text).toOption
  let theme ← (ofValue document).toOption
  let blocks ← (theme.attributes.mapM (block (.empty "normal") .empty false)).toOption
  return blocks.map (·.name)

theorem exists_assemble_of_blockNamesOf {text : String} {names : List String}
    (answer : blockNamesOf text = some names) : ∃ document theme scheme,
      readValue text = .ok document ∧ ofValue document = .ok theme ∧
      theme.assemble (.empty "normal") .empty false "X" = .ok scheme ∧
      (scheme.attributes.map (·.name)).Perm names := by
  obtain ⟨document, read, answer⟩ := Option.bind_eq_some_iff.mp answer
  obtain ⟨theme, parsed, answer⟩ := Option.bind_eq_some_iff.mp answer
  obtain ⟨blocks, made, answer⟩ := Option.bind_eq_some_iff.mp answer
  cases answer
  obtain ⟨scheme, assembled, arranged⟩ := exists_assemble (eq_ok_of_toOption made) "X"
  exact ⟨document, theme, scheme, eq_ok_of_toOption read, eq_ok_of_toOption parsed, assembled, arranged.map _⟩

theorem blockNames_strictly_ascending_twoAttributes : ∃ document theme scheme,
    readValue (twoAttributes "2") = .ok document ∧ ofValue document = .ok theme ∧
    theme.assemble (.empty "normal") .empty false "X" = .ok scheme ∧
    (scheme.attributes.Pairwise fun a b => a.name ≤ b.name) ∧
    ((scheme.attributes.Pairwise fun a b => a.name < b.name) ↔
      (attributeKeys document).Pairwise fun a b => a.scalarText? ≠ b.scalarText?) ∧
    ((∀ key ∈ attributeKeys document, key.kind = .string) →
      scheme.attributes.Pairwise fun a b => a.name < b.name) := by
  have answer : blockNamesOf (twoAttributes "2") = some ["1", "2"] := by decide +kernel
  obtain ⟨document, theme, scheme, read, parsed, assembled, -⟩ := exists_assemble_of_blockNamesOf answer
  exact ⟨document, theme, scheme, read, parsed, assembled,
    blockNames_strictly_ascending_iff read parsed assembled⟩

/-- A number and a string are different keys, but two blocks have one name if both are written alike. -/
theorem blockNames_repeated : ∃ theme scheme, Theme.ofYaml (twoAttributes "1") = .ok theme ∧
    theme.assemble (.empty "normal") .empty false "X" = .ok scheme ∧
    ¬ scheme.attributes.Pairwise fun a b => a.name < b.name := by
  have answer : blockNamesOf (twoAttributes "1") = some ["1", "1"] := by decide +kernel
  obtain ⟨document, theme, scheme, read, parsed, assembled, names⟩ := exists_assemble_of_blockNamesOf answer
  refine ⟨theme, scheme, ?_, assembled, ?_⟩
  · rw [Theme.ofYaml, read]
    exact parsed
  · rw [strictly_iff_nodup (blockNames_ascending assembled), names.nodup_iff]
    decide

end Theme

end EditorScheme
