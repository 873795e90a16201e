import EditorScheme.Proofs.Build.Outcome

/-!
Builds that are watched. Whoever watches a build sees its writes and its reports in one sequence, in the order in which
they are made; the reports alone do not tell what was written between them. Watching changes nothing: the build answers
the same, leaves the same files, and makes the same reports as without it.
-/
namespace EditorScheme

/-- What is seen of a build. Only writes that succeed are seen. -/
inductive Deed
  | wrote (path : Path) (text : String)
  | reported (event : Event)
deriving DecidableEq, Repr

namespace Deed

def write? : Deed → Option (Path × String)
  | wrote path text => some (path, text)
  | reported _ => none

def event? : Deed → Option Event
  | wrote .. => none
  | reported event => some event

end Deed

structure ObservedFiles where
  files : FileTree
  deeds : List Deed

namespace ObservedFiles

def see (s : ObservedFiles) (deed : Deed) : ObservedFiles := { s with deeds := s.deeds ++ [deed] }

def writes (s : ObservedFiles) : List (Path × String) := s.deeds.filterMap Deed.write?

def events (s : ObservedFiles) : List Event := s.deeds.filterMap Deed.event?

def recorded (s : ObservedFiles) : RecordedFiles := ⟨s.files, s.events⟩

theorem recorded_see_reported (s : ObservedFiles) (event : Event) :
    (s.see (.reported event)).recorded = { s.recorded with events := s.recorded.events ++ [event] } := by
  simp [recorded, events, see, Deed.event?]

theorem recorded_see_wrote (s : ObservedFiles) (path : Path) (text : String) :
    (s.see (.wrote path text)).recorded = s.recorded := by
  simp [recorded, events, see, Deed.event?]

end ObservedFiles

abbrev Observed := StateM ObservedFiles

instance : Workspace Observed where
  readText path := fun s => (s.files.readText path, s)
  writeText path text := fun s =>
    match s.files.writeText path text with
    | .ok files => (.ok (), { s with files }.see (.wrote path text))
    | .error e => (.error e, s)
  ensureDirectory path := fun s =>
    let (result, files) := s.files.ensureDirectory path
    (result, { s with files })
  report event := fun s => ((), s.see (.reported event))

namespace Build

variable {α β : Type}

def seen (step : Step Observed α) (start : ObservedFiles) : Except BuildError α × ObservedFiles := step.run start

theorem seen_bind (first : Step Observed α) (next : α → Step Observed β) (start : ObservedFiles) :
    seen (first >>= next) start = match seen first start with
      | (.ok a, middle) => seen (next a) middle
      | (.error e, middle) => (.error e, middle) := by
  change (ExceptT.bindCont next (seen first start).1) (seen first start).2 = _
  rcases seen first start with ⟨_ | _, _⟩ <;> rfl

theorem seen_mapError (action : Observed (Except FileError α)) (fault : FileError → BuildError)
    (start : ObservedFiles) : seen (ExceptT.mk (Except.mapError fault <$> action)) start =
      ((action start).1.mapError fault, (action start).2) := rfl

theorem seen_report (event : Event) (start : ObservedFiles) :
    seen (report event) start = (.ok (), start.see (.reported event)) := rfl

theorem seen_ensureDirectory (path : Path) (start : ObservedFiles) : seen (ensureDirectory path) start =
    ((start.files.ensureDirectory path).1.mapError fun cause => ⟨path, .unwritable cause⟩,
      { start with files := (start.files.ensureDirectory path).2 }) := rfl

theorem seen_readDocument (path : Path) (start : ObservedFiles) : seen (readDocument path) start =
    ((start.files.readText path).mapError fun cause => ⟨path, readFault cause⟩,
      start.see (.reported (.readingDocument path))) := rfl

theorem seen_writeFile (path : Path) (text : String) (start : ObservedFiles) :
    seen (writeFile path text) start = match start.files.writeText path text with
      | .ok files =>
        (.ok (), ({ start with files }.see (.wrote path text)).see (.reported (.wroteFile path text.utf8ByteSize)))
      | .error cause => (.error ⟨path, .unwritable cause⟩, start) := by
  have write : (Workspace.writeText path text : Observed _) start = match start.files.writeText path text with
      | .ok files => (.ok (), { start with files }.see (.wrote path text))
      | .error cause => (.error cause, start) := rfl
  unfold writeFile
  rw [seen_bind, seen_mapError, write]
  cases start.files.writeText path text <;> rfl

/-- The step is the same whether it is watched or not. -/
def Agrees (watched : Step Observed α) (plain : Step Recorded α) : Prop :=
  ∀ start, outcome plain start.recorded = ((seen watched start).1, (seen watched start).2.recorded)

namespace Agrees

theorem pure (a : α) : Agrees (pure a) (pure a) := fun _ => rfl

theorem bind {watched : Step Observed α} {plain : Step Recorded α} {nextWatched : α → Step Observed β}
    {nextPlain : α → Step Recorded β} (first : Agrees watched plain)
    (next : ∀ a, Agrees (nextWatched a) (nextPlain a)) :
    Agrees (watched >>= nextWatched) (plain >>= nextPlain) := by
  intro start
  rw [outcome_bind, first start, seen_bind]
  rcases seen watched start with ⟨_ | a, middle⟩
  · rfl
  · exact next a middle

theorem mapM {watched : α → Step Observed β} {plain : α → Step Recorded β}
    (each : ∀ a, Agrees (watched a) (plain a)) (list : List α) : Agrees (list.mapM watched) (list.mapM plain) := by
  induction list with
  | nil => exact pure []
  | cons a list ih =>
    rw [List.mapM_cons, List.mapM_cons]
    exact (each a).bind fun b => ih.bind fun rest => pure (b :: rest)

end Agrees

theorem agrees_report (event : Event) : Agrees (report event) (report event) := by
  intro start
  rw [outcome_report, seen_report, ObservedFiles.recorded_see_reported]

theorem agrees_checked (path : Path) (result : Except SchemaError α) :
    Agrees (checked path result) (checked path result) := fun _ => rfl

theorem agrees_ensureDirectory (path : Path) : Agrees (ensureDirectory path) (ensureDirectory path) := fun _ => rfl

theorem agrees_readDocument (path : Path) : Agrees (readDocument path) (readDocument path) := by
  intro start
  rw [outcome_readDocument, seen_readDocument, ObservedFiles.recorded_see_reported]
  rfl

theorem agrees_writeFile (path : Path) (text : String) : Agrees (writeFile path text) (writeFile path text) := by
  intro start
  have files : start.recorded.files = start.files := rfl
  rw [outcome_writeFile, seen_writeFile, files]
  cases start.files.writeText path text with
  | error cause => rfl
  | ok after =>
    simp only [ObservedFiles.recorded_see_reported, ObservedFiles.recorded_see_wrote]
    rfl

variable (config : Config) (styles : StyleMap) (theme : Theme)

theorem agrees_loadPalette (name : String) : Agrees (loadPalette config name) (loadPalette config name) :=
  (agrees_readDocument _).bind fun _ => agrees_checked _ _

theorem agrees_buildVariant (v : Variant) (palette : Palette) :
    Agrees (buildVariant config v palette styles theme) (buildVariant config v palette styles theme) :=
  (agrees_report _).bind fun _ => (agrees_checked _ _).bind fun _ => (agrees_report _).bind fun _ =>
    (agrees_writeFile _ _).bind fun _ => .pure _

theorem agrees_buildPalette (name : String) :
    Agrees (buildPalette config styles theme name) (buildPalette config styles theme name) :=
  (agrees_loadPalette config name).bind fun _ => (agrees_buildVariant config styles theme _ _).bind fun _ =>
    (agrees_buildVariant config styles theme _ _).bind fun _ => .pure _

theorem agrees_loadThemeJson : Agrees (loadThemeJson config) (loadThemeJson config) := by
  refine (agrees_readDocument _).bind fun text => ?_
  cases Json.Value.ofText? text with
  | none => exact fun _ => rfl
  | some value =>
    dsimp only
    cases value.toObject? with
    | none => exact fun _ => rfl
    | some object => exact .pure object

theorem agrees_deriveThemes (variants : List Variant) :
    Agrees (deriveThemes config variants) (deriveThemes config variants) :=
  (agrees_loadThemeJson config).bind fun _ => .mapM (fun _ => (agrees_writeFile _ _).bind fun _ => .pure _) _

/-- A build is the same whether it is watched or not. -/
theorem agrees_run : Agrees (run config) (run config) := by
  refine (agrees_ensureDirectory _).bind fun _ => ((agrees_readDocument _).bind fun _ => agrees_checked _ _).bind
    fun styles => ((agrees_readDocument _).bind fun _ => agrees_checked _ _).bind fun theme =>
      (Agrees.mapM (agrees_buildPalette config styles theme) _).bind fun schemes => ?_
  split
  · exact (agrees_deriveThemes config _).bind fun _ => (agrees_report _).bind fun _ => .pure _
  · exact (Agrees.pure _).bind fun _ => (agrees_report _).bind fun _ => .pure _

end Build

end EditorScheme
