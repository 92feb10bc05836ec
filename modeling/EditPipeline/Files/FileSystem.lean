import EditPipeline.Files.Path

/-!
# A file system

Directories and files, each under the names that lead to it from the root.  A
path is followed segment by segment from the root or from the home directory:
every segment but the last must name a directory, an empty segment or one dot
stays where it is, and two dots go up.

Each operation either succeeds or says why it cannot, and one that fails has
changed nothing, except that `createDirAll` may have made the outer ones of the
directories that it was asked for.
-/

namespace EditPipeline

/-- Why a file operation fails. -/
inductive FileFault where
  | notFound
  | alreadyExists
  | notADirectory
  | isADirectory
  | nameTooLong
  /-- The path holds a NUL character. -/
  | nulInPath
  /-- The file is not encoded as UTF-8. -/
  | notText
  /-- No directory on the way to the path could be made. -/
  | noWholeTree
deriving DecidableEq, Repr, Inhabited

/-- The fault in words. -/
def FileFault.message : FileFault → String
  | .notFound => "No such file or directory (os error 2)"
  | .alreadyExists => "File exists (os error 17)"
  | .notADirectory => "Not a directory (os error 20)"
  | .isADirectory => "Is a directory (os error 21)"
  | .nameTooLong => "File name too long (os error 36)"
  | .nulInPath => "file name contained an unexpected NUL byte"
  | .notText => "stream did not contain valid UTF-8"
  | .noWholeTree => "failed to create whole tree"

/-- The names that lead from the root to a file or directory. -/
abbrev Location := List String

/-- What stands at a location. -/
inductive Node where
  | directory
  | file (content : ByteArray)
deriving Inhabited

instance : DecidableEq Node
  | .directory, .directory => isTrue rfl
  | .directory, .file _ => isFalse (by simp)
  | .file _, .directory => isFalse (by simp)
  | .file content, .file other =>
    if h : content.data = other.data then isTrue (by cases content; cases other; simp_all)
    else isFalse (by rintro ⟨⟩; exact h rfl)

/-- All files and directories below the root, and the directory from which
relative paths start. -/
structure FileSystem where
  nodes : List (Location × Node) := []
  home : Location := []

namespace FileSystem

/-! ## Nodes -/

/-- What stands at a location; the root is always a directory. -/
def node? (fs : FileSystem) (location : Location) : Option Node :=
  if location = [] then some .directory else fs.nodes.lookup location

/-- Puts a node at a location. -/
def setNode (location : Location) (node : Node) :
    List (Location × Node) → List (Location × Node)
  | [] => [(location, node)]
  | (other, held) :: rest =>
    if other = location then (location, node) :: rest
    else (other, held) :: setNode location node rest

/-- The file system with a node at a location. -/
def put (location : Location) (node : Node) (fs : FileSystem) : FileSystem :=
  { fs with nodes := setNode location node fs.nodes }

/-! ## Following a path -/

/-- The greatest number of bytes in a name. -/
def maxNameBytes : Nat := 255

/-- The greatest number of bytes in a path. -/
def maxPathBytes : Nat := 4095

/-- One step from a directory. -/
def step (fs : FileSystem) (current : Location) (segment : List Char) :
    Except FileFault Location :=
  match fs.node? current with
  | some .directory =>
    if segment = [] ∨ segment = ['.'] then .ok current
    else if segment = ['.', '.'] then .ok current.dropLast
    else
      let name := String.ofList segment
      if maxNameBytes < name.utf8ByteSize then .error .nameTooLong
      else if (fs.node? (current ++ [name])).isSome then .ok (current ++ [name])
      else .error .notFound
  | _ => .error .notADirectory

/-- Steps along segments. -/
def walk (fs : FileSystem) : Location → List (List Char) → Except FileFault Location
  | current, [] => .ok current
  | current, segment :: rest =>
    match fs.step current segment with
    | .ok next => fs.walk next rest
    | .error fault => .error fault

/-- Refuses a path that no operation can follow. -/
def checkPath (path : Path) : Except FileFault Unit :=
  if '\x00' ∈ path.text.toList then .error .nulInPath
  else if path.text = "" then .error .notFound
  else if maxPathBytes < path.text.utf8ByteSize then .error .nameTooLong
  else .ok ()

/-- Where a path starts. -/
def origin (fs : FileSystem) (path : Path) : Location := if path.isAbsolute then [] else fs.home

/-- The location of something that exists. -/
def locate (fs : FileSystem) (path : Path) : Except FileFault Location := do
  checkPath path
  fs.walk (fs.origin path) path.segments

/-- Whether a path leads to a directory. -/
def isDir (fs : FileSystem) (path : Path) : Bool :=
  match fs.locate path with
  | .ok location => fs.node? location = some .directory
  | .error _ => false

/-- The place of something that may not exist yet. -/
structure Target where
  /-- The directory that it stands in. -/
  parent : Location
  /-- The last segment of the path; nothing if the path is the root. -/
  last : Option (List Char)
  /-- Slashes follow the last segment. -/
  slashed : Bool

/-- Follows a path up to its last segment. -/
def target (fs : FileSystem) (path : Path) : Except FileFault Target := do
  checkPath path
  let segments := path.segments
  let kept := (segments.reverse.dropWhile (· = [])).reverse
  let parent ← fs.walk (fs.origin path) kept.dropLast
  match fs.node? parent with
  | some .directory =>
    return { parent, last := kept.getLast?, slashed := kept.length < segments.length }
  | _ => throw .notADirectory

/-- The name that a last segment stands for, if it stands for one. -/
def Target.name? (target : Target) : Option String :=
  match target.last with
  | none => none
  | some segment =>
    if segment = ['.'] ∨ segment = ['.', '.'] then none else some (String.ofList segment)

/-! ## Operations -/

/-- The bytes of a file. -/
def readBytes (fs : FileSystem) (path : Path) : Except FileFault ByteArray := do
  match fs.node? (← fs.locate path) with
  | some (.file content) => return content
  | some .directory => throw .isADirectory
  | none => throw .notFound

/-- The text of a file. -/
def read (fs : FileSystem) (path : Path) : Except FileFault String := do
  match String.fromUTF8? (← fs.readBytes path) with
  | some text => return text
  | none => throw .notText

/-- Writes a file, which is made if it does not exist. -/
def write (path : Path) (text : String) (fs : FileSystem) : Except FileFault FileSystem := do
  let target ← fs.target path
  match target.name? with
  | none => throw .isADirectory
  | some name =>
    if target.slashed then throw .isADirectory
    if maxNameBytes < name.utf8ByteSize then throw .nameTooLong
    match fs.node? (target.parent ++ [name]) with
    | some .directory => throw .isADirectory
    | _ => return fs.put (target.parent ++ [name]) (.file text.toUTF8)

/-- Makes one directory in one that exists. -/
def createDir (path : Path) (fs : FileSystem) : Except FileFault FileSystem := do
  let target ← fs.target path
  match target.name? with
  | none => throw .alreadyExists
  | some name =>
    if maxNameBytes < name.utf8ByteSize then throw .nameTooLong
    if (fs.node? (target.parent ++ [name])).isSome then throw .alreadyExists
    return fs.put (target.parent ++ [name]) .directory

/-- Makes the first of some directories that lie one in the other, the innermost
first; those around it are made as needed. -/
def createDirs : List Path → FileSystem → Except FileFault Unit × FileSystem
  | [], fs => (.error .noWholeTree, fs)
  | path :: above, fs =>
    if path.text = "" then (.ok (), fs)
    else
      match fs.createDir path with
      | .ok fs => (.ok (), fs)
      | .error .notFound =>
        match createDirs above fs with
        | (.error fault, fs) => (.error fault, fs)
        | (.ok (), fs) =>
          match fs.createDir path with
          | .ok fs => (.ok (), fs)
          | .error fault => (if fs.isDir path then .ok () else .error fault, fs)
      | .error fault => (if fs.isDir path then .ok () else .error fault, fs)

/-- Makes a directory and those around it that are missing. -/
def createDirAll (path : Path) (fs : FileSystem) : Except FileFault Unit × FileSystem :=
  createDirs path.ancestors fs

end FileSystem

end EditPipeline
