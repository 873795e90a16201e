import EditorScheme.Proofs.Files.Passing
import EditorScheme.Proofs.Build.Result

/-!
What the steps of a build do to files. A write that succeeds changes the text of one file, whatever path it was given, and
a write that fails changes nothing. Making a directory adds directories that its path comes through, and nothing else.
-/
namespace EditorScheme.Build

variable {start after : RecordedFiles} {path : Path} {text : String}

/-- What writing a text to the file at a place changes. -/
structure Replaces (location : Location) (path : Path) (text : String) (before after : RecordedFiles) : Prop where
  leads : after.files.find path = .ok (location, .file (.text text))
  noDirectory : before.files.entry? location ≠ some .directory
  /-- Paths that led to the file go on leading to it. -/
  keeps : ∀ other entry, before.files.find other = .ok (location, entry) →
    after.files.find other = .ok (location, .file (.text text))
  reads : ∀ other entry, after.files.find other = .ok (location, entry) →
    (outcome (readDocument other) after).1 = .ok text
  workingDirectory : after.files.workingDirectory = before.files.workingDirectory
  elsewhere : ∀ other, other ≠ location → after.files.entry? other = before.files.entry? other
  /-- Other files and directories are found by the paths that found them before. -/
  finds : ∀ other place entry, place ≠ location →
    (after.files.find other = .ok (place, entry) ↔ before.files.find other = .ok (place, entry))

theorem replaces_of_outcome (wrote : outcome (writeFile path text) start = (.ok (), after)) :
    ∃ location, Replaces location path text start after := by
  obtain ⟨written, -⟩ := outcome_writeFile_eq_ok_iff.mp wrote
  obtain ⟨location, led, plain, short, file, files⟩ := FileTree.writeText_eq_ok_iff.mp written
  have inside := FileTree.ne_nil_of_target led
  have rewrites : FileTree.Rewrites (· = location) start.files after.files := by
    rw [files]
    exact FileTree.rewrites_put inside file
  have here : after.files.entry? location = some (.file (.text text)) := by
    rw [files, FileTree.entry?_put _ inside, if_pos rfl]
  refine ⟨location, ?_, file, fun other entry found => ?_, fun other entry found => ?_, rewrites.workingDirectory,
    rewrites.elsewhere, fun other place entry apart => rewrites.find_elsewhere_iff apart⟩
  · exact FileTree.find_of_target (rewrites.grows.target led) short here (.inr plain)
  · obtain ⟨origin, origins, walked, held, ending⟩ := FileTree.find_eq_ok_iff.mp found
    have slashless := ending.resolve_left fun directory => file (directory ▸ held)
    exact FileTree.find_eq_ok_iff.mpr ⟨origin, (rewrites.grows.origin other).trans origins,
      rewrites.grows.walk walked, here, .inr slashless⟩
  · obtain ⟨_, _, _, held, -⟩ := FileTree.find_eq_ok_iff.mp found
    have same : entry = .file (.text text) := Option.some.inj (held.symm.trans here)
    rw [outcome_readDocument, FileTree.readText_eq_ok_iff.mpr ⟨location, same ▸ found⟩]
    rfl

theorem eq_of_outcome_writeFile {e : BuildError} (refused : outcome (writeFile path text) start = (.error e, after)) :
    after = start := by
  rw [outcome_writeFile] at refused
  split at refused
  · cases refused
  · exact (Prod.mk.inj refused).2.symm

theorem outcome_ensureDirectory_eq_ok_iff : outcome (ensureDirectory path) start = (.ok (), after) ↔
    (start.files.ensureDirectory path).1 = .ok () ∧
      after = { start with files := (start.files.ensureDirectory path).2 } := by
  rw [outcome_ensureDirectory]
  cases (start.files.ensureDirectory path).1 <;> simp [eq_comm]

/-- Writing a file is exact: its text is read from all paths to it, everything else stays, and a failure changes nothing.
Making a directory adds missing directories on the way to it and keeps all else, also if it fails. If it succeeds the
directory is there, as the working directory is for the empty path if it was, and making it again changes nothing. -/
theorem files_changed_exactly (start : RecordedFiles) (path : Path) (text : String) :
    (∀ after, outcome (writeFile path text) start = (.ok (), after) →
      ∃ location, Replaces location path text start after) ∧
    (∀ e after, outcome (writeFile path text) start = (.error e, after) → after = start) ∧
    (∀ result after, outcome (ensureDirectory path) start = (result, after) →
      FileTree.Prepares path start.files after.files) ∧
    (∀ after, outcome (ensureDirectory path) start = (.ok (), after) →
      ((path.text = "" → start.files.entry? start.files.workingDirectory = some .directory) →
        after.files.HasDirectory path) ∧
      outcome (ensureDirectory path) after = (.ok (), after)) := by
  refine ⟨fun after => replaces_of_outcome, fun e after => eq_of_outcome_writeFile, fun result after made => ?_,
    fun after made => ?_⟩
  · obtain rfl := (Prod.mk.inj made).2
    exact FileTree.prepares_ensureDirectory start.files path
  · obtain ⟨done, rfl⟩ := outcome_ensureDirectory_eq_ok_iff.mp made
    refine ⟨fun standing => FileTree.hasDirectory_ensureDirectory standing done, ?_⟩
    have again := FileTree.ensureDirectory_again done (.refl _)
    exact outcome_ensureDirectory_eq_ok_iff.mpr ⟨congrArg Prod.fst again, by simp only [again]⟩

/-- The path of a directory that goes through another one, which is missing as well. -/
def dottedDirectory : Path := ⟨"new/../themes/./deep//x/"⟩

def dottedFile : Path := ⟨"themes/../new//../themes/x.theme.json"⟩

theorem files_changed_exactly_dotted : ∃ made written,
    outcome (ensureDirectory dottedDirectory) ⟨sampleTree, []⟩ = (.ok (), made) ∧
    outcome (writeFile dottedFile "[]") made = (.ok (), written) ∧
    FileTree.Prepares dottedDirectory sampleTree made.files ∧ made.files.HasDirectory dottedDirectory ∧
    ∃ location, Replaces location dottedFile "[]" made written := by
  obtain ⟨made, making⟩ : ∃ made, outcome (ensureDirectory dottedDirectory) ⟨sampleTree, []⟩ = (.ok (), made) :=
    ⟨_, outcome_of_toOption (by decide +kernel)⟩
  obtain ⟨written, writing⟩ : ∃ written, outcome (writeFile dottedFile "[]") made = (.ok (), written) := by
    have left : made = (outcome (ensureDirectory dottedDirectory) ⟨sampleTree, []⟩).2 := by rw [making]
    rw [left]
    exact ⟨_, outcome_of_toOption (by decide +kernel)⟩
  obtain ⟨-, -, prepares, directory⟩ := files_changed_exactly ⟨sampleTree, []⟩ dottedDirectory ""
  obtain ⟨replaces, -⟩ := files_changed_exactly made dottedFile "[]"
  exact ⟨made, written, making, writing, prepares _ made making, (directory made making).1 (by decide),
    replaces written writing⟩

end EditorScheme.Build
