import EditorScheme.Build.Run
import EditorScheme.CommandLine.Request

/-!
What the program prints, and the code it ends with.
-/
namespace EditorScheme.CommandLine

def helpText : String :=
  "Generate every palette and italic variant of the color scheme\n\n" ++
  "Usage: schemegen [OPTIONS]\n\n" ++
  "Options:\n" ++
  "      --source <DIR>          Directory containing ide.yaml, theme.yaml and colors/ " ++
    "[default: scripts/config]\n" ++
  "      --out <DIR>             Directory the generated schemes are written to " ++
    "[default: src/main/resources/themes]\n" ++
  "      --file-name <STEM>      Base file name of the generated schemes [default: one_dark]\n" ++
  "      --display-name <NAME>   Base display name of the generated schemes " ++
    "[default: \"One Dark\"]\n" ++
  "      --palette <NAME>        Palette to build (repeatable) [default: normal vivid]\n" ++
  "      --scheme-prefix <PATH>  Resource path prefix written to editorScheme in derived theme JSON " ++
    "[default: /themes]\n" ++
  "      --skip-json             Skip deriving the per-variant theme JSON files\n" ++
  "  -v, --verbose...            Increase log verbosity (-v info, -vv debug)\n" ++
  "  -h, --help                  Print help\n" ++
  "  -V, --version               Print version\n"

def versionText : String := "schemegen 0.1.0\n"

def usageText : String :=
  "error: unexpected arguments\n\nUsage: schemegen [OPTIONS]\n\nFor more information, try '--help'.\n"

def successText : String := "Theme files generated!\n"

/-- Indents all lines of a text but the first. -/
def indentRest (indentation : String) (text : String) : String :=
  String.ofList (text.toList.flatMap fun c => if c = '\n' then '\n' :: indentation.toList else [c])

/-- The failure of a build with its causes. They are numbered if there are several. -/
def failureText (config : Config) (e : BuildError) : String :=
  "Error: building schemes from " ++ config.source.text ++ "\n\nCaused by:\n" ++
    match e.cause? with
    | some cause =>
      "    0: " ++ indentRest "       " e.message ++ "\n    1: " ++ indentRest "       " cause ++ "\n"
    | none => "    " ++ indentRest "    " e.message ++ "\n"

def build {m : Type → Type} [Monad m] [Workspace m] (config : Config) : Build.Step m Unit := do
  let _ ← Build.run config
  Build.report .generated

structure Result where
  exitCode : Nat
  output : String
  errors : String
deriving DecidableEq, Repr

def buildResult (config : Config) : Except BuildError Unit → Result
  | .ok () => ⟨0, successText, ""⟩
  | .error e => ⟨1, "", failureText config e⟩

def logText (verbosity : Nat) (events : List Event) : String :=
  String.join ((events.filter fun event => event.isShown verbosity).map fun event => event.line ++ "\n")

/-- Runs the program on a tree of files. -/
def run (arguments : List String) (files : FileTree) : Result × FileTree :=
  match Request.ofArguments? arguments with
  | none => (⟨2, "", usageText⟩, files)
  | some .help => (⟨0, helpText, ""⟩, files)
  | some .version => (⟨0, versionText, ""⟩, files)
  | some (.build config verbosity) =>
    let (result, after) := (build (m := Recorded) config).run ⟨files, []⟩
    let last := buildResult config result
    ({ last with errors := logText verbosity after.events ++ last.errors }, after.files)

end EditorScheme.CommandLine
