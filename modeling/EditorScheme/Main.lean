import EditorScheme.CommandLine.Run

/-!
The program on the files of the system.
-/
namespace EditorScheme.Console

abbrev SystemFiles := ReaderT Nat IO

def faultOf : IO.Error → FileError
  | .noFileOrDirectory .. => .notFound
  | .alreadyExists .. => .exists
  | .inappropriateType .. => .notDirectory
  | .invalidArgument .. => .nameTooLong
  | _ => .notFound

def attempt {α : Type} (action : IO α) : IO (Except FileError α) := do
  try
    return .ok (← action)
  catch e => return .error (faultOf e)

def isDirectory (path : Path) : IO Bool := do
  try
    (← IO.FS.realPath path.text).isDir
  catch _ => return false

def readText (path : Path) : IO (Except FileError String) := do
  if path.text.toList.contains '\x00' then return .error .containsNul
  else if ← isDirectory path then return .error .isDirectory
  else
    match ← attempt (IO.FS.readBinFile path.text) with
    | .error e => return .error e
    | .ok bytes =>
      match String.fromUTF8? bytes with
      | some text => return .ok text
      | none => return .error .notUtf8

def writeText (path : Path) (text : String) : IO (Except FileError Unit) := do
  if path.text.toList.contains '\x00' then return .error .containsNul
  else if path.endsInSlash then return .error .isDirectory
  else if ← isDirectory path then return .error .isDirectory
  else attempt (IO.FS.writeFile path.text text)

def makeDirectory (path : Path) : IO (Except FileError Unit) := do
  if path.text.toList.contains '\x00' then return .error .containsNul
  else attempt (IO.FS.createDir path.text)

def makeChain : List Path → IO (Except FileError Unit)
  | [] => return .ok ()
  | path :: around => do
    match ← makeDirectory path with
    | .ok () => return .ok ()
    | .error .notFound =>
      match ← makeChain around with
      | .error e => return .error e
      | .ok () =>
        match ← makeDirectory path with
        | .ok () => return .ok ()
        | .error e => if ← isDirectory path then return .ok () else return .error e
    | .error e => if ← isDirectory path then return .ok () else return .error e

instance : Workspace SystemFiles where
  readText path := fun _ => readText path
  writeText path text := fun _ => writeText path text
  ensureDirectory path := fun _ => makeChain path.chain
  report event := fun verbosity =>
    if event.isShown verbosity then IO.eprintln event.line else pure ()

end EditorScheme.Console

open EditorScheme EditorScheme.CommandLine in
def main (arguments : List String) : IO UInt32 := do
  let result ← match Request.ofArguments? arguments with
    | none => pure ⟨2, "", usageText⟩
    | some .help => pure ⟨0, helpText, ""⟩
    | some .version => pure ⟨0, versionText, ""⟩
    | some (.build config verbosity) =>
      buildResult config <$> (build (m := Console.SystemFiles) config).run verbosity
  IO.print result.output
  IO.eprint result.errors
  return UInt32.ofNat result.exitCode
