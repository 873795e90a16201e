import EditorScheme.Palette
import EditorScheme.Proofs.FirstFailure
import EditorScheme.StyleMap
import EditorScheme.Theme

/-!
When documents, sections and scalars are read, and what the reading can fail for: the document is no YAML, or it has not
the right shape. That a style has no encoding comes up only when a theme is assembled.
-/
namespace EditorScheme

theorem scalarText_eq_ok_iff {context : Context} {value : Yaml.Value} {text : String} :
    scalarText context value = .ok text ↔ value.scalarText? = some text := by
  unfold scalarText
  cases value.scalarText? <;> simp

theorem readValue_eq_ok_iff {text : String} {document : Yaml.Value} :
    readValue text = .ok document ↔ Yaml.Value.ofText text = .ok document := by
  unfold readValue
  cases Yaml.Value.ofText text <;> simp [Except.mapError]

theorem sectionEntries_eq_ok_iff {root entries : Entries} {key : String} :
    sectionEntries root key = .ok entries ↔
      ∃ value, Yaml.Value.lookup key root = some value ∧ value.entries? = some entries := by
  unfold sectionEntries
  cases Yaml.Value.lookup key root with
  | none => simp
  | some value => cases found : value.entries? <;> simp [found]

theorem rootEntries_eq_ok_iff {context : Context} {document : Yaml.Value} {entries : Entries} :
    rootEntries context document = .ok entries ↔ document = .mapping entries := by
  cases document <;> simp [rootEntries]

theorem scalarPair_eq_ok_iff {context : Context} {entry : Yaml.Value × Yaml.Value} {pair : String × String} :
    scalarPair context entry = .ok pair ↔
      entry.1.scalarText? = some pair.1 ∧ entry.2.scalarText? = some pair.2 := by
  simp only [scalarPair, bind_eq_ok_iff, scalarText_eq_ok_iff]
  constructor
  · rintro ⟨key, first, value, second, same⟩
    cases same
    exact ⟨first, second⟩
  · rintro ⟨first, second⟩
    exact ⟨pair.1, first, pair.2, second, rfl⟩

/-- The pairs are the texts of all keys and values, in order. -/
def Texts (entries : Entries) (pairs : List (String × String)) : Prop :=
  List.Forall₂ (fun entry pair => entry.1.scalarText? = some pair.1 ∧ entry.2.scalarText? = some pair.2) entries pairs

theorem scalarPairs_eq_ok_iff {context : Context} {entries : Entries} {pairs : List (String × String)} :
    scalarPairs context entries = .ok pairs ↔ Texts entries pairs := by
  simp only [scalarPairs, Texts, mapM_eq_ok_iff_forall₂, scalarPair_eq_ok_iff]

/-- A document is a theme if all its sections are there and hold what they should. -/
theorem Theme.ofValue_mapping_eq_ok_iff {root : Entries} {theme : Theme} : Theme.ofValue (.mapping root) = .ok theme ↔
    (∃ value, Yaml.Value.lookup "parent-scheme" root = some value ∧
      scalarText .parentScheme value = .ok theme.parentScheme) ∧
    (∃ entries, sectionEntries root "colors" = .ok entries ∧
      scalarPairs .colorTable entries = .ok theme.colors) ∧
    (∃ entries, sectionEntries root "inheriting-attributes" = .ok entries ∧
      scalarPairs .inheritingAttributes entries = .ok theme.inheriting) ∧
    ∃ entries, sectionEntries root "attributes" = .ok entries ∧
      entries.mapM attributeEntry = .ok theme.attributes := by
  unfold ofValue
  simp only [rootEntries, bind_eq_ok_iff, Except.ok.injEq, exists_eq_left']
  cases Yaml.Value.lookup "parent-scheme" root with
  | none => simp [bind, Except.bind]
  | some value =>
    simp only [bind_eq_ok_iff, Except.ok.injEq, Option.some.injEq, exists_eq_left']
    constructor
    · rintro ⟨_, parent, _, colored, _, colors, _, inherited, _, inheriting, _, listed, _, attributes, rfl⟩
      exact ⟨parent, ⟨_, colored, colors⟩, ⟨_, inherited, inheriting⟩, _, listed, attributes⟩
    · rintro ⟨parent, ⟨_, colored, colors⟩, ⟨_, inherited, inheriting⟩, _, listed, attributes⟩
      exact ⟨_, parent, _, colored, _, colors, _, inherited, _, inheriting, _, listed, _, attributes, rfl⟩

/-- The failure is about the text or the shape of a document. -/
inductive SchemaError.OfDocument : SchemaError → Prop
  | malformed (context : Context) (problem : Problem) : OfDocument (.malformed context problem)
  | notYaml (cause : Yaml.Error) : OfDocument (.notYaml cause)

def ReadsDocument {α : Type} (result : Except SchemaError α) : Prop := ∀ e, result = .error e → e.OfDocument

namespace ReadsDocument

variable {α β : Type}

theorem ok (a : α) : ReadsDocument (.ok a) := fun _ failed => nomatch failed

theorem malformed (context : Context) (problem : Problem) :
    ReadsDocument (.error (.malformed context problem) : Except SchemaError α) := by
  rintro _ ⟨⟩
  exact .malformed context problem

theorem bind {first : Except SchemaError α} {next : α → Except SchemaError β} (reads : ReadsDocument first)
    (others : ∀ a, ReadsDocument (next a)) : ReadsDocument (first >>= next) := by
  cases first with
  | error e =>
    rintro _ ⟨⟩
    exact reads e rfl
  | ok a => exact others a

theorem mapM {f : α → Except SchemaError β} (each : ∀ a, ReadsDocument (f a)) (list : List α) :
    ReadsDocument (list.mapM f) := by
  intro e failed
  obtain ⟨item, -, fault⟩ := exists_of_mapM_eq_error failed
  exact each item e fault

end ReadsDocument

theorem reads_readValue (text : String) : ReadsDocument (readValue text) := by
  intro e failed
  unfold readValue at failed
  cases read : Yaml.Value.ofText text with
  | ok document => simp [read] at failed
  | error cause =>
    rw [read] at failed
    cases failed
    exact .notYaml cause

theorem reads_rootEntries (context : Context) (document : Yaml.Value) :
    ReadsDocument (rootEntries context document) := by
  cases document with
  | mapping entries => exact .ok entries
  | _ => exact .malformed _ _

theorem reads_scalarText (context : Context) (value : Yaml.Value) : ReadsDocument (scalarText context value) := by
  unfold scalarText
  split
  · exact .ok _
  · exact .malformed _ _

theorem reads_sectionEntries (root : Entries) (key : String) : ReadsDocument (sectionEntries root key) := by
  unfold sectionEntries
  split
  · exact .malformed _ _
  · split
    · exact .ok _
    · exact .malformed _ _

theorem reads_scalarPairs (context : Context) (entries : Entries) : ReadsDocument (scalarPairs context entries) := by
  refine .mapM (fun entry => ?_) entries
  unfold scalarPair
  exact (reads_scalarText _ _).bind fun key => (reads_scalarText _ _).bind fun value => .ok _

theorem Palette.reads_ofYaml (name text : String) : ReadsDocument (Palette.ofYaml name text) := by
  refine (reads_readValue text).bind fun document => ?_
  refine (reads_rootEntries _ _).bind fun root => ?_
  exact (reads_scalarPairs _ _).bind fun pairs => .ok _

theorem StyleMap.reads_ofYaml (text : String) : ReadsDocument (StyleMap.ofYaml text) := by
  refine (reads_readValue text).bind fun document => ?_
  refine (reads_rootEntries _ _).bind fun root => ?_
  refine (ReadsDocument.mapM (fun entry => ?_) root).bind fun entries => .ok _
  refine (reads_scalarText _ _).bind fun category => ?_
  split
  · exact .malformed _ _
  · exact (reads_scalarPairs _ _).bind fun pairs => .ok _

theorem Attribute.reads_ofValue (name : String) (value : Yaml.Value) :
    ReadsDocument (Attribute.ofValue name value) := by
  unfold Attribute.ofValue
  split
  · exact (reads_scalarPairs _ _).bind fun pairs => .ok _
  · split
    · exact .ok _
    · exact .malformed _ _

theorem Theme.reads_ofYaml (text : String) : ReadsDocument (Theme.ofYaml text) := by
  refine (reads_readValue text).bind fun document => ?_
  refine (reads_rootEntries _ _).bind fun root => ?_
  have rest (parentScheme : String) : ReadsDocument (do
      let colors ← scalarPairs .colorTable (← sectionEntries root "colors")
      let inheriting ← scalarPairs .inheritingAttributes (← sectionEntries root "inheriting-attributes")
      let attributes ← (← sectionEntries root "attributes").mapM attributeEntry
      .ok (⟨parentScheme, colors, inheriting, attributes⟩ : Theme)) := by
    refine (reads_sectionEntries _ _).bind fun _ => (reads_scalarPairs _ _).bind fun colors => ?_
    refine (reads_sectionEntries _ _).bind fun _ => (reads_scalarPairs _ _).bind fun inheriting => ?_
    refine (reads_sectionEntries _ _).bind fun _ => ?_
    refine (ReadsDocument.mapM (fun entry => ?_) _).bind fun attributes => .ok _
    exact (reads_scalarText _ _).bind fun name => (Attribute.reads_ofValue _ _).bind fun definition => .ok _
  split
  · exact (reads_scalarText _ _).bind rest
  · exact (ReadsDocument.malformed _ _).bind rest

end EditorScheme
