import EditorScheme.Table

/-!
Files: paths as they are written, with a slash between names, and trees of files and directories below the root and the
working directory.
-/
namespace EditorScheme

inductive FileError
  | notFound
  | exists
  | notDirectory
  | isDirectory
  | nameTooLong
  | containsNul
  | notUtf8
deriving DecidableEq, Repr

namespace FileError

def message : FileError → String
  | notFound => "No such file or directory (os error 2)"
  | .exists => "File exists (os error 17)"
  | notDirectory => "Not a directory (os error 20)"
  | isDirectory => "Is a directory (os error 21)"
  | nameTooLong => "File name too long (os error 36)"
  | containsNul => "file name contained an unexpected NUL byte"
  | notUtf8 => "stream did not contain valid UTF-8"

end FileError

structure Path where
  text : String
deriving DecidableEq, Repr

namespace Path

def isAbsolute (path : Path) : Bool := path.text.toList.head? == some '/'

/-- A path below this one. A slash is put in unless there is one, and an absolute path stays what it is. -/
def join (path : Path) (child : String) : Path :=
  if (Path.mk child).isAbsolute then ⟨child⟩
  else if path.text = "" ∨ path.text.toList.getLast? = some '/' then ⟨path.text ++ child⟩
  else ⟨path.text ++ "/" ++ child⟩

/-- Puts a name before a list of names unless it is empty; its last character comes first. -/
def addName (name : List Char) (names : List String) : List String :=
  if name.isEmpty then names else String.ofList name.reverse :: names

/-- The names between the slashes of a text, behind the characters `name` (last one first). -/
def splitNames : List Char → List Char → List String
  | [], name => addName name []
  | c :: rest, name =>
    if c = '/' then addName name (splitNames rest []) else splitNames rest (c :: name)

/-- The names of a path, dots among them. -/
def names (path : Path) : List String := splitNames path.text.toList []

def endsInSlash (path : Path) : Bool := path.text.toList.getLast? == some '/'

/-- The names that matter when paths are compared: a dot counts only at the start of a relative path. -/
def components (path : Path) : List String :=
  match path.isAbsolute, path.names with
  | false, "." :: rest => "." :: rest.filter (· != ".")
  | _, names => names.filter (· != ".")

def ofNames (absolute : Bool) (names : List String) : Path :=
  ⟨(if absolute then "/" else "") ++ "/".intercalate names⟩

/-- The directories around a path, innermost first and without the working directory. The last
component is left out each time. -/
def around (path : Path) : List Path :=
  let components := path.components
  let lengths := ((List.range components.length).filter (fun n => 0 < n)).reverse
  let inner := lengths.map fun n => ofNames path.isAbsolute (components.take n)
  if path.isAbsolute ∧ components ≠ [] then inner ++ [⟨"/"⟩] else inner

/-- A path and the directories around it; none for the empty path. -/
def chain (path : Path) : List Path := if path.text = "" then [] else path :: path.around

def same (a b : Path) : Bool := a.isAbsolute == b.isAbsolute && a.components == b.components

end Path

/-- The names that lead to a file or directory, innermost first. -/
abbrev Location := List String

/-- A file holds a text, or bytes that are none. -/
inductive Content
  | text (s : String)
  | bytes (list : List UInt8)
deriving DecidableEq, Repr

def Content.ofBytes (list : List UInt8) : Content :=
  match String.fromUTF8? ⟨list.toArray⟩ with
  | some s => .text s
  | none => .bytes list

namespace FileTree

inductive Entry
  | directory
  | file (content : Content)
deriving DecidableEq, Repr

end FileTree

/-- The root is always there and has no entry. -/
structure FileTree where
  entries : Table Location FileTree.Entry
  workingDirectory : Location

namespace FileTree

def entry? (tree : FileTree) (location : Location) : Option Entry :=
  if location = [] then some .directory else tree.entries.get? location

def put (tree : FileTree) (location : Location) (entry : Entry) : FileTree :=
  { tree with entries := tree.entries.insert location entry }

def empty (workingDirectory : String) : FileTree :=
  FileTree.put ⟨.empty, [workingDirectory]⟩ [workingDirectory] .directory

def maximalNameLength : Nat := 255

def maximalPathLength : Nat := 4095

def step (tree : FileTree) (location : Location) (name : String) : Except FileError Location :=
  match tree.entry? location with
  | some .directory =>
    if name = "." then .ok location
    else if name = ".." then .ok location.tail
    else if maximalNameLength < name.utf8ByteSize then .error .nameTooLong
    else if (tree.entry? (name :: location)).isSome then .ok (name :: location)
    else .error .notFound
  | some (.file _) => .error .notDirectory
  | none => .error .notFound

def walk (tree : FileTree) (location : Location) (names : List String) : Except FileError Location :=
  names.foldlM tree.step location

/-- Where following a path starts. Paths that cannot be given to the system at all are refused. -/
def origin (tree : FileTree) (path : Path) : Except FileError Location :=
  if path.text.toList.contains '\x00' then .error .containsNul
  else if path.text = "" then .error .notFound
  else if maximalPathLength < path.text.utf8ByteSize then .error .nameTooLong
  else .ok (if path.isAbsolute then [] else tree.workingDirectory)

/-- What a path leads to. With a slash at the end it has to be a directory. -/
def find (tree : FileTree) (path : Path) : Except FileError (Location × Entry) := do
  let location ← tree.walk (← tree.origin path) path.names
  match tree.entry? location with
  | some .directory => .ok (location, .directory)
  | some (.file content) =>
    if path.endsInSlash then .error .notDirectory else .ok (location, .file content)
  | none => .error .notFound

def isDirectory (tree : FileTree) (path : Path) : Bool :=
  match tree.find path with
  | .ok (_, .directory) => true
  | _ => false

inductive Target
  /-- The path leads to a directory by dots, or is the root. -/
  | standing
  | named (location : Location)

/-- Follows all names of a path but the last. -/
def target (tree : FileTree) (path : Path) : Except FileError Target := do
  let start ← tree.origin path
  match path.names.getLast? with
  | none => .ok .standing
  | some name => do
    let parent ← tree.walk start path.names.dropLast
    match tree.entry? parent with
    | some .directory =>
      if name = "." ∨ name = ".." then .ok .standing else .ok (.named (name :: parent))
    | some (.file _) => .error .notDirectory
    | none => .error .notFound

def hasLongName (location : Location) : Bool :=
  match location with
  | [] => false
  | name :: _ => maximalNameLength < name.utf8ByteSize

def readText (tree : FileTree) (path : Path) : Except FileError String := do
  match ← tree.find path with
  | (_, .directory) => .error .isDirectory
  | (_, .file (.text s)) => .ok s
  | (_, .file (.bytes _)) => .error .notUtf8

def write (tree : FileTree) (path : Path) (content : Content) : Except FileError FileTree := do
  match ← tree.target path with
  | .standing => .error .isDirectory
  | .named location =>
    if path.endsInSlash then .error .isDirectory
    else if hasLongName location then .error .nameTooLong
    else if tree.entry? location = some .directory then .error .isDirectory
    else .ok (tree.put location (.file content))

def writeText (tree : FileTree) (path : Path) (text : String) : Except FileError FileTree :=
  tree.write path (.text text)

def makeDirectory (tree : FileTree) (path : Path) : Except FileError FileTree := do
  match ← tree.target path with
  | .standing => .error .exists
  | .named location =>
    if hasLongName location then .error .nameTooLong
    else if (tree.entry? location).isSome then .error .exists
    else .ok (tree.put location .directory)

/-- Makes a directory and as many of the directories around it as are missing. The directories are
given innermost first; those that were made stay if one of them fails. -/
def makeChain (tree : FileTree) : List Path → Except FileError Unit × FileTree
  | [] => (.ok (), tree)
  | path :: around =>
    match tree.makeDirectory path with
    | .ok tree => (.ok (), tree)
    | .error .notFound =>
      match tree.makeChain around with
      | (.error e, tree) => (.error e, tree)
      | (.ok (), tree) =>
        match tree.makeDirectory path with
        | .ok tree => (.ok (), tree)
        | .error e => (if tree.isDirectory path then .ok () else .error e, tree)
    | .error e => (if tree.isDirectory path then .ok () else .error e, tree)

/-- Makes a directory with all directories around it. The empty path is the working directory. -/
def ensureDirectory (tree : FileTree) (path : Path) : Except FileError Unit × FileTree :=
  tree.makeChain path.chain

def remove (tree : FileTree) (location : Location) : FileTree :=
  { tree with entries := tree.entries.filterKeys fun key => !location.isSuffixOf key }

end FileTree

end EditorScheme
