import EditorScheme.Build.Run
import EditorScheme.Proofs.FirstFailure

/-!
What the steps of a build answer and leave on a tree of files. Each step has one equation or one
characterisation of its success; later proofs take steps apart with these alone.
-/
namespace EditorScheme.Build

variable {α β : Type} {start after : RecordedFiles}

/-- The answer of a step and what it leaves. -/
def outcome (step : Step Recorded α) (start : RecordedFiles) : Except BuildError α × RecordedFiles :=
  step.run start

theorem outcome_pure (a : α) (start : RecordedFiles) : outcome (pure a) start = (.ok a, start) := rfl

theorem outcome_bind (first : Step Recorded α) (next : α → Step Recorded β) (start : RecordedFiles) :
    outcome (first >>= next) start = match outcome first start with
      | (.ok a, middle) => outcome (next a) middle
      | (.error e, middle) => (.error e, middle) := by
  change (ExceptT.bindCont next (outcome first start).1) (outcome first start).2 = _
  rcases outcome first start with ⟨_ | _, _⟩ <;> rfl

theorem outcome_bind_eq_ok_iff {first : Step Recorded α} {next : α → Step Recorded β} {b : β} :
    outcome (first >>= next) start = (.ok b, after) ↔
      ∃ a middle, outcome first start = (.ok a, middle) ∧ outcome (next a) middle = (.ok b, after) := by
  rw [outcome_bind]
  rcases outcome first start with ⟨_ | a, middle⟩
  · simp
  · simp only [Prod.mk.injEq, Except.ok.injEq]
    constructor
    · exact fun rest => ⟨a, middle, ⟨rfl, rfl⟩, rest⟩
    · rintro ⟨_, _, ⟨rfl, rfl⟩, rest⟩
      exact rest

/-- A step that answers leaves what it leaves, for runs whose answer alone is computed. -/
theorem outcome_of_toOption {step : Step Recorded α} {a : α} (answer : (outcome step start).1.toOption = some a) :
    outcome step start = (.ok a, (outcome step start).2) := by
  rcases result : outcome step start with ⟨_ | b, after⟩
  · simp [result, Except.toOption] at answer
  · simpa [result, Except.toOption] using answer

theorem outcome_mapM_cons_eq_ok_iff {step : α → Step Recorded β} {a : α} {list : List α} {results : List β} :
    outcome ((a :: list).mapM step) start = (.ok results, after) ↔
      ∃ b middle rest, outcome (step a) start = (.ok b, middle) ∧
        outcome (list.mapM step) middle = (.ok rest, after) ∧ results = b :: rest := by
  rw [List.mapM_cons, outcome_bind_eq_ok_iff]
  refine exists₂_congr fun b middle => ?_
  rw [outcome_bind_eq_ok_iff]
  constructor
  · rintro ⟨head, rest, last, tail, done⟩
    cases done
    exact ⟨rest, head, tail, rfl⟩
  · rintro ⟨rest, head, tail, rfl⟩
    exact ⟨head, rest, after, tail, rfl⟩

theorem outcome_mapError (action : Recorded (Except FileError α)) (fault : FileError → BuildError)
    (start : RecordedFiles) : outcome (ExceptT.mk (Except.mapError fault <$> action)) start =
      ((action start).1.mapError fault, (action start).2) := rfl

theorem outcome_report (event : Event) (start : RecordedFiles) :
    outcome (report event) start = (.ok (), { start with events := start.events ++ [event] }) := rfl

theorem outcome_checked (path : Path) (result : Except SchemaError α) (start : RecordedFiles) :
    outcome (checked path result) start = (result.mapError fun cause => ⟨path, .schema cause⟩, start) := rfl

theorem outcome_ensureDirectory (path : Path) (start : RecordedFiles) :
    outcome (ensureDirectory path) start =
      ((start.files.ensureDirectory path).1.mapError fun cause => ⟨path, .unwritable cause⟩,
        { start with files := (start.files.ensureDirectory path).2 }) := rfl

def documentIn (tree : FileTree) (path : Path) (parse : String → Except SchemaError α) : Except BuildError α := do
  let text ← (tree.readText path).mapError fun cause => ⟨path, readFault cause⟩
  (parse text).mapError fun cause => ⟨path, .schema cause⟩

theorem outcome_readDocument (path : Path) (start : RecordedFiles) :
    outcome (readDocument path) start =
      ((start.files.readText path).mapError fun cause => ⟨path, readFault cause⟩,
        { start with events := start.events ++ [.readingDocument path] }) := rfl

theorem outcome_document (path : Path) (parse : String → Except SchemaError α) (start : RecordedFiles) :
    outcome (do checked path (parse (← readDocument path))) start =
      (documentIn start.files path parse, { start with events := start.events ++ [.readingDocument path] }) := by
  rw [outcome_bind, outcome_readDocument, documentIn]
  cases start.files.readText path <;> rfl

theorem documentIn_eq_ok_iff {tree : FileTree} {path : Path} {parse : String → Except SchemaError α} {a : α} :
    documentIn tree path parse = .ok a ↔ ∃ text, tree.readText path = .ok text ∧ parse text = .ok a := by
  unfold documentIn
  cases tree.readText path with
  | error cause => simp [bind, Except.bind]
  | ok text => cases parsed : parse text <;> simp [bind, Except.bind, parsed]

theorem outcome_writeFile (path : Path) (text : String) (start : RecordedFiles) :
    outcome (writeFile path text) start = match start.files.writeText path text with
      | .ok files => (.ok (), ⟨files, start.events ++ [.wroteFile path text.utf8ByteSize]⟩)
      | .error cause => (.error ⟨path, .unwritable cause⟩, start) := by
  have write : (Workspace.writeText path text : Recorded _) start = match start.files.writeText path text with
      | .ok files => (.ok (), { start with files })
      | .error e => (.error e, start) := rfl
  unfold writeFile
  rw [outcome_bind, outcome_mapError, write]
  cases start.files.writeText path text <;> rfl

theorem outcome_writeFile_eq_ok_iff {path : Path} {text : String} :
    outcome (writeFile path text) start = (.ok (), after) ↔
      start.files.writeText path text = .ok after.files ∧
        after.events = start.events ++ [.wroteFile path text.utf8ByteSize] := by
  rw [outcome_writeFile]
  cases start.files.writeText path text with
  | error cause => simp
  | ok files =>
    obtain ⟨_, _⟩ := after
    simp [eq_comm]

end EditorScheme.Build
