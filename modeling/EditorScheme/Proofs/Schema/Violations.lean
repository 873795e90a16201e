import EditorScheme.Proofs.Schema.Shape

/-!
What is wrong with a theme document. All violations are listed in the order of the document: first the document itself,
then the parent scheme and the three sections, entries as they stand, each key before its value. A value is named by
the text of its key, so there is no violation of a value whose key has none. Reading a theme fails for the first one.
-/
namespace EditorScheme

/-- A part of a document that is not as it should be. -/
structure Violation where
  context : Context
  problem : Problem
deriving DecidableEq, Repr

namespace Violation

def error (violation : Violation) : SchemaError := .malformed violation.context violation.problem

def ofScalar (context : Context) (value : Yaml.Value) : List Violation :=
  if value.scalarText?.isSome then [] else [⟨context, .noScalar value.kind⟩]

/-- A key that should be a scalar, and what is wrong with the value under it. -/
def ofEntry (context : Context) (ofValue : String → Yaml.Value → List Violation) (entry : Yaml.Value × Yaml.Value) :
    List Violation :=
  ofScalar context entry.1 ++ match entry.1.scalarText? with
    | some key => ofValue key entry.2
    | none => []

def ofScalars (context : Context) (entries : Entries) : List Violation :=
  entries.flatMap (ofEntry context fun key => ofScalar (.entry context key))

def ofDefinition (name : String) : Yaml.Value → List Violation
  | .mapping entries => ofScalars (.attributeNamed name) entries
  | value => if value.scalarText?.isSome then [] else [⟨.attributeNamed name, .noAttribute value.kind⟩]

def ofSection (root : Entries) (key : String) (inside : Entries → List Violation) : List Violation :=
  match Yaml.Value.lookup key root with
  | none => [⟨.theme, .missingKey key⟩]
  | some value =>
    match value.entries? with
    | none => [⟨.theme, .noMappingUnder key value.kind⟩]
    | some entries => inside entries

def ofParentScheme (root : Entries) : List Violation :=
  match Yaml.Value.lookup "parent-scheme" root with
  | none => [⟨.theme, .missingKey "parent-scheme"⟩]
  | some value => ofScalar .parentScheme value

/-- All that is wrong with the document of a theme. -/
def ofTheme : Yaml.Value → List Violation
  | .mapping root =>
    ofParentScheme root ++ ofSection root "colors" (ofScalars .colorTable) ++
      ofSection root "inheriting-attributes" (ofScalars .inheritingAttributes) ++
      ofSection root "attributes" (List.flatMap (ofEntry .attributes ofDefinition))
  | document => [⟨.theme, .noMappingAtTop document.kind⟩]

end Violation

/-- The result is the first violation, if there is one. -/
def Reports {α : Type} (result : Except SchemaError α) (violations : List Violation) : Prop :=
  ∀ e, result = .error e ↔ ∃ first, violations.head? = some first ∧ e = first.error

namespace Reports

variable {α β : Type} {violations others : List Violation}

theorem ok (a : α) : Reports (.ok a) [] := by simp [Reports]

theorem malformed (context : Context) (problem : Problem) :
    Reports (.error (.malformed context problem) : Except SchemaError α) (⟨context, problem⟩ :: others) := by
  simp [Reports, Violation.error, eq_comm]

theorem eq_nil {result : Except SchemaError α} {a : α} (reports : Reports result violations) (ok : result = .ok a) :
    violations = [] := by
  cases violations with
  | nil => rfl
  | cons first rest =>
    have failed := (reports first.error).mpr ⟨first, rfl, rfl⟩
    cases ok.symm.trans failed

theorem bind {result : Except SchemaError α} {next : α → Except SchemaError β} (reports : Reports result violations)
    (rest : ∀ a, result = .ok a → Reports (next a) others) : Reports (result >>= next) (violations ++ others) := by
  cases result with
  | ok a =>
    rw [reports.eq_nil rfl]
    exact rest a rfl
  | error e =>
    obtain ⟨first, head, rfl⟩ := (reports e).mp rfl
    have head : (violations ++ others).head? = some first := by simp [List.head?_append, head]
    intro e
    simp [Bind.bind, Except.bind, head, eq_comm]

theorem bind_ok {result : Except SchemaError α} (reports : Reports result violations) (f : α → β) :
    Reports (result >>= fun a => .ok (f a)) violations := by
  rw [← List.append_nil violations]
  exact reports.bind fun a _ => .ok (f a)

theorem mapM {f : α → Except SchemaError β} {each : α → List Violation} (reports : ∀ a, Reports (f a) (each a))
    (list : List α) : Reports (list.mapM f) (list.flatMap each) := by
  induction list with
  | nil => exact .ok []
  | cons item list ih =>
    rw [List.mapM_cons, List.flatMap_cons]
    exact (reports item).bind fun result _ => ih.bind_ok _

end Reports

open Violation

theorem reports_scalarText (context : Context) (value : Yaml.Value) :
    Reports (scalarText context value) (ofScalar context value) := by
  unfold scalarText ofScalar
  cases value.scalarText? with
  | some text => exact .ok text
  | none => exact .malformed _ _

/-- A key is looked at before its value. -/
theorem reports_entry {α : Type} {context : Context} {next : String → Except SchemaError α}
    {ofValue : String → Yaml.Value → List Violation} (entry : Yaml.Value × Yaml.Value)
    (reports : ∀ key, Reports (next key) (ofValue key entry.2)) :
    Reports (scalarText context entry.1 >>= next) (ofEntry context ofValue entry) := by
  refine (reports_scalarText context entry.1).bind fun key text => ?_
  rw [scalarText_eq_ok_iff.mp text]
  exact reports key

theorem reports_scalarPairs (context : Context) (entries : Entries) :
    Reports (scalarPairs context entries) (ofScalars context entries) :=
  .mapM (fun entry => reports_entry entry fun _ => (reports_scalarText _ _).bind_ok _) entries

theorem Attribute.reports_ofValue (name : String) (value : Yaml.Value) :
    Reports (Attribute.ofValue name value) (ofDefinition name value) := by
  cases value with
  | mapping entries => exact (reports_scalarPairs _ _).bind_ok _
  | string | number | bool => exact .ok _
  | null | sequence | tagged => exact .malformed _ _

/-- Whatever is read behind a section is looked at after it. -/
theorem reports_section {α : Type} {root : Entries} {key : String} {next : Entries → Except SchemaError α}
    {inside : Entries → List Violation} {others : List Violation}
    (reports : ∀ entries, Reports (next entries) (inside entries ++ others)) :
    Reports (sectionEntries root key >>= next) (ofSection root key inside ++ others) := by
  unfold sectionEntries ofSection
  cases Yaml.Value.lookup key root with
  | none => exact .malformed _ _
  | some value =>
    dsimp only
    cases value.entries? with
    | none => exact .malformed _ _
    | some entries => exact reports entries

namespace Theme

theorem reports_ofValue (document : Yaml.Value) : Reports (ofValue document) (ofTheme document) := by
  cases document with
  | mapping root =>
    rw [ofTheme, List.append_assoc, List.append_assoc]
    -- All sections together, since the parent scheme may be missing or no scalar before any of them is read.
    have sections (parentScheme : String) : Reports (do
        let colors ← scalarPairs .colorTable (← sectionEntries root "colors")
        let inheriting ← scalarPairs .inheritingAttributes (← sectionEntries root "inheriting-attributes")
        let attributes ← (← sectionEntries root "attributes").mapM attributeEntry
        .ok (⟨parentScheme, colors, inheriting, attributes⟩ : Theme))
        (ofSection root "colors" (ofScalars .colorTable) ++
          (ofSection root "inheriting-attributes" (ofScalars .inheritingAttributes) ++
            ofSection root "attributes" (List.flatMap (ofEntry .attributes ofDefinition)))) := by
      refine reports_section fun entries => (reports_scalarPairs _ _).bind fun colors _ => ?_
      refine reports_section fun entries => (reports_scalarPairs _ _).bind fun inheriting _ => ?_
      rw [← List.append_nil (ofSection root "attributes" _)]
      refine reports_section fun entries => ?_
      rw [List.append_nil]
      refine (Reports.mapM (fun entry => ?_) entries).bind_ok _
      exact reports_entry entry fun name => (Attribute.reports_ofValue name entry.2).bind_ok _
    unfold ofValue ofParentScheme
    dsimp only [rootEntries, Except.bind, Bind.bind]
    cases Yaml.Value.lookup "parent-scheme" root with
    | none => exact .malformed _ _
    | some value => exact (reports_scalarText _ _).bind fun parentScheme _ => sections parentScheme
  | _ => exact .malformed _ _

/-- A document is a theme exactly if it has the shape of one, and it gives what its sections hold, entry by entry. Any
other document is refused for its first violation. -/
theorem given_or_first_violation (document : Yaml.Value) :
    (∀ text, ofYaml text = readValue text >>= ofValue) ∧
    ((∃ theme, ofValue document = .ok theme) ↔ ∃ root, document = .mapping root ∧ Shaped root) ∧
    (∀ theme, ofValue document = .ok theme ↔ ∃ root, document = .mapping root ∧ Given root theme) ∧
    ∀ e, ofValue document = .error e ↔
      ∃ first, (ofTheme document).head? = some first ∧ e = .malformed first.context first.problem := by
  refine ⟨fun _ => rfl, ?_, fun theme => ofValue_eq_ok_iff, reports_ofValue document⟩
  simp only [ofValue_eq_ok_iff, ← exists_given_iff]
  rw [exists_comm]
  simp only [exists_and_left]

example : ofTheme (.mapping [(.string "parent-scheme", .null),
    (.string "colors", .mapping [(.null, .null), (.string "CARET", .null)])]) =
    [⟨.parentScheme, .noScalar .null⟩, ⟨.colorTable, .noScalar .null⟩, ⟨.entry .colorTable "CARET", .noScalar .null⟩,
      ⟨.theme, .missingKey "inheriting-attributes"⟩, ⟨.theme, .missingKey "attributes"⟩] := by
  decide

end Theme

end EditorScheme
