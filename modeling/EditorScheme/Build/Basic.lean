import EditorScheme.Files
import EditorScheme.Palette
import EditorScheme.Text.Quoted

/-!
What a build is given, and the steps it takes. A configuration says where the sources are read and how the outputs are
named. The surroundings hold files, and a place for reports; a tree of files with the list of the reports so far is
one such place. A step may fail, and every failure names the file it is about.
-/
namespace EditorScheme

structure Config where
  /-- The directory of `ide.yaml`, `theme.yaml` and `colors`. -/
  source : Path
  output : Path
  fileName : String
  displayName : String
  palettes : List String
  /-- What stands before the names of schemes in theme files. -/
  resourceRoot : String
  deriveThemes : Bool
deriving DecidableEq, Repr

namespace Config

def standard : Config where
  source := ⟨"scripts/config"⟩
  output := ⟨"src/main/resources/themes"⟩
  fileName := "one_dark"
  displayName := "One Dark"
  palettes := Variant.standardPalettes
  resourceRoot := "/themes"
  deriveThemes := true

/-- Equality up to the spelling of the directories. -/
def same (a b : Config) : Bool :=
  a.source.same b.source && a.output.same b.output && a.fileName == b.fileName &&
    a.displayName == b.displayName && a.palettes == b.palettes &&
    a.resourceRoot == b.resourceRoot && a.deriveThemes == b.deriveThemes

def variants (config : Config) : List Variant := Variant.matrix config.palettes

def palettePath (config : Config) (palette : String) : Path :=
  (config.source.join "colors").join (palette ++ ".yaml")

def styleMapPath (config : Config) : Path := config.source.join "ide.yaml"

def themePath (config : Config) : Path := config.source.join "theme.yaml"

def schemePath (config : Config) (variant : Variant) : Path :=
  config.output.join (variant.fileStem config.fileName ++ ".xml")

def themeJsonPath (config : Config) (variant : Variant) : Path :=
  config.output.join (variant.fileStem config.fileName ++ ".theme.json")

end Config

inductive BuildFault
  | missingInput (cause : FileError)
  | unreadable (cause : FileError)
  | unwritable (cause : FileError)
  | schema (cause : SchemaError)
  | notJson
  | notAnObject
deriving DecidableEq, Repr

structure BuildError where
  path : Path
  fault : BuildFault
deriving DecidableEq, Repr

namespace BuildError

def message (e : BuildError) : String :=
  match e.fault with
  | .missingInput cause => "missing input document " ++ e.path.text ++ ": " ++ cause.message
  | .unreadable cause => "failed to read " ++ e.path.text ++ ": " ++ cause.message
  | .unwritable cause => "failed to write " ++ e.path.text ++ ": " ++ cause.message
  | .schema cause => e.path.text ++ ": " ++ cause.message
  | .notJson => "invalid JSON in " ++ e.path.text
  | .notAnObject => e.path.text ++ " must contain a JSON object"

def cause? (e : BuildError) : Option String :=
  match e.fault with
  | .missingInput cause | .unreadable cause | .unwritable cause => some cause.message
  | .schema cause => some cause.message
  | .notJson | .notAnObject => none

end BuildError

inductive Event
  | readingDocument (path : Path)
  | assembled (scheme palette : String) (italic : Bool) (colors attributes : Nat)
  | buildingScheme (variant : Variant) (scheme : String)
  | wroteFile (path : Path) (bytes : Nat)
  | buildFinished (schemes themes : Nat)
  | generated
deriving DecidableEq, Repr

namespace Event

/-- Details are shown only at the second level of verbosity. -/
def isDetail : Event → Bool
  | readingDocument _ | assembled .. => true
  | _ => false

def isShown (event : Event) (verbosity : Nat) : Bool :=
  if event.isDetail then 2 ≤ verbosity else 1 ≤ verbosity

def boolText (b : Bool) : String := if b then "true" else "false"

def text : Event → String
  | readingDocument path => "reading source document path=" ++ path.text
  | assembled scheme palette italic colors attributes =>
    "assembled scheme scheme=" ++ Text.quoted scheme ++ " palette=" ++ Text.quoted palette ++
      " italic=" ++ boolText italic ++ " colors=" ++ toString colors ++
      " attributes=" ++ toString attributes
  | buildingScheme variant scheme => "building scheme variant=" ++ variant.text ++ " scheme=" ++ scheme
  | wroteFile path bytes => "wrote file path=" ++ path.text ++ " bytes=" ++ toString bytes
  | buildFinished schemes themes =>
    "build finished schemes=" ++ toString schemes ++ " theme_json=" ++ toString themes
  | generated => "theme files generated"

def line (event : Event) : String := (if event.isDetail then "DEBUG " else "INFO ") ++ event.text

end Event

class Workspace (m : Type → Type) where
  readText : Path → m (Except FileError String)
  writeText : Path → String → m (Except FileError Unit)
  ensureDirectory : Path → m (Except FileError Unit)
  report : Event → m Unit

structure RecordedFiles where
  files : FileTree
  /-- Reports in the order in which they were made. -/
  events : List Event

abbrev Recorded := StateM RecordedFiles

instance : Workspace Recorded where
  readText path := fun s => (s.files.readText path, s)
  writeText path text := fun s =>
    match s.files.writeText path text with
    | .ok files => (.ok (), { s with files })
    | .error e => (.error e, s)
  ensureDirectory path := fun s =>
    let (result, files) := s.files.ensureDirectory path
    (result, { s with files })
  report event := fun s => ((), { s with events := s.events ++ [event] })

namespace Build

variable {m : Type → Type} [Monad m] [Workspace m]

abbrev Step (m : Type → Type) := ExceptT BuildError m

def readFault : FileError → BuildFault
  | .notFound => .missingInput .notFound
  | cause => .unreadable cause

def report (event : Event) : Step m Unit := ExceptT.lift (Workspace.report event)

def ensureDirectory (path : Path) : Step m Unit :=
  ExceptT.mk (Except.mapError (fun cause => ⟨path, .unwritable cause⟩) <$> Workspace.ensureDirectory path)

def readDocument (path : Path) : Step m String := do
  report (.readingDocument path)
  ExceptT.mk (Except.mapError (fun cause => ⟨path, readFault cause⟩) <$> Workspace.readText path)

def writeFile (path : Path) (text : String) : Step m Unit := do
  ExceptT.mk (Except.mapError (fun cause => ⟨path, .unwritable cause⟩) <$> Workspace.writeText path text)
  report (.wroteFile path text.utf8ByteSize)

/-- Turns a mistake in a document into the failure of a build. -/
def checked {α : Type} (path : Path) (result : Except SchemaError α) : Step m α :=
  ExceptT.mk (pure (result.mapError fun cause => ⟨path, .schema cause⟩))

end Build

end EditorScheme
