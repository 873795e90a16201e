import EditorScheme.Build.Basic

/-!
Command lines. An option takes its value behind an equals sign or from the next argument, which must not
look like an option itself. Every option but the palette and the verbosity may be given once.
-/
namespace EditorScheme.CommandLine

inductive Setting
  | source
  | output
  | fileName
  | displayName
  | palette
  | resourceRoot
deriving DecidableEq, Repr

def Setting.ofName? (name : String) : Option Setting :=
  if name = "source" then some .source
  else if name = "out" then some .output
  else if name = "file-name" then some .fileName
  else if name = "display-name" then some .displayName
  else if name = "palette" then some .palette
  else if name = "scheme-prefix" then some .resourceRoot
  else none

structure Given where
  source : Option String := none
  output : Option String := none
  fileName : Option String := none
  displayName : Option String := none
  palettes : List String := []
  resourceRoot : Option String := none
  skipThemes : Bool := false
  verbosity : Nat := 0

namespace Given

/-- Sets a value; none if it has been set before. -/
def once (current : Option String) (value : String) : Option (Option String) :=
  match current with
  | none => some (some value)
  | some _ => none

/-- Directories must not be empty. -/
def set? (given : Given) (setting : Setting) (value : String) : Option Given :=
  match setting with
  | .source =>
    if value = "" then none
    else (once given.source value).map fun source => { given with source }
  | .output =>
    if value = "" then none
    else (once given.output value).map fun output => { given with output }
  | .fileName => (once given.fileName value).map fun fileName => { given with fileName }
  | .displayName => (once given.displayName value).map fun displayName => { given with displayName }
  | .palette => some { given with palettes := given.palettes ++ [value] }
  | .resourceRoot => (once given.resourceRoot value).map fun resourceRoot => { given with resourceRoot }

def config (given : Given) : Config where
  source := (given.source.map Path.mk).getD Config.standard.source
  output := (given.output.map Path.mk).getD Config.standard.output
  fileName := given.fileName.getD Config.standard.fileName
  displayName := given.displayName.getD Config.standard.displayName
  palettes := if given.palettes.isEmpty then Config.standard.palettes else given.palettes
  resourceRoot := given.resourceRoot.getD Config.standard.resourceRoot
  deriveThemes := !given.skipThemes

end Given

inductive Request
  | help
  | version
  | build (config : Config) (verbosity : Nat)
deriving DecidableEq, Repr

def Given.request (given : Given) : Request := .build given.config given.verbosity

/-- Whether an argument looks like an option. A lone hyphen does not. -/
def looksLikeOption (argument : String) : Bool :=
  match argument.toList with
  | '-' :: _ :: _ => true
  | _ => false

/-- An argument of two hyphens, a name and perhaps an equals sign and a value. -/
def splitLong (chars : List Char) : String × Option String :=
  let name := String.ofList (chars.takeWhile (· != '='))
  match chars.dropWhile (· != '=') with
  | _ :: value => (name, some (String.ofList value))
  | [] => (name, none)

/-- How a group of options goes on. -/
inductive Outcome
  | more (given : Given)
  | done (request : Request)

def readShort : List Char → Given → Option Outcome
  | [], given => some (.more given)
  | 'v' :: rest, given => readShort rest { given with verbosity := given.verbosity + 1 }
  | 'h' :: _, _ => some (.done .help)
  | 'V' :: _, _ => some (.done .version)
  | _, _ => none

def readFlag (name : String) (given : Given) : Option Outcome :=
  if name = "help" then some (.done .help)
  else if name = "version" then some (.done .version)
  else if name = "verbose" then some (.more { given with verbosity := given.verbosity + 1 })
  else if name = "skip-json" then
    if given.skipThemes then none else some (.more { given with skipThemes := true })
  else none

/-- Reads the arguments behind those that have been given; none if they are wrong. -/
def readFrom : List String → Given → Option Request
  | [], given => some given.request
  | argument :: rest, given =>
    match argument.toList with
    | ['-', '-'] => if rest.isEmpty then some given.request else none
    | '-' :: '-' :: chars =>
      let (name, value) := splitLong chars
      match Setting.ofName? name, value with
      | some setting, some value => (given.set? setting value).bind (readFrom rest)
      | some setting, none =>
        match rest with
        | [] => none
        | value :: rest =>
          if looksLikeOption value then none
          else (given.set? setting value).bind (readFrom rest)
      | none, some _ => none
      | none, none =>
        match readFlag name given with
        | some (.more given) => readFrom rest given
        | some (.done request) => some request
        | none => none
    | '-' :: c :: chars =>
      match readShort (c :: chars) given with
      | some (.more given) => readFrom rest given
      | some (.done request) => some request
      | none => none
    | _ => none

def Request.ofArguments? (arguments : List String) : Option Request := readFrom arguments {}

end EditorScheme.CommandLine
