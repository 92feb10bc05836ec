import EditPipeline.Files.FileSystem
import EditPipeline.Plugin
import EditPipeline.Program.Encode

/-!
# Snapshots

A snapshot is the program that one edit gave.  The recorder is a plugin that
keeps a snapshot of every edit; it may also write each one to a directory at
once.  The snapshots that it keeps can be written to a directory later.
-/

namespace EditPipeline

/-- The program after one edit. -/
structure Snapshot where
  /-- The place of the edit in the chain. -/
  index : Nat
  /-- The name of the editor that registered it. -/
  stage : String
  program : Program
deriving Inhabited

namespace Snapshot

/-- A number in at least three digits. -/
def padded (n : Nat) : String :=
  let digits := Nat.toDigits 10 n
  String.ofList (List.replicate (3 - digits.length) '0' ++ digits)

/-- The name of the snapshot's file. -/
def fileName (snapshot : Snapshot) : String :=
  padded snapshot.index ++ "-" ++ snapshot.stage ++ ".json"

/-- The snapshot as JSON. -/
def toJson (snapshot : Snapshot) : Json :=
  .object [
    ("index", .ofNat snapshot.index),
    ("stage", .string snapshot.stage),
    ("program", snapshot.program.toJson)]

/-- Writes the snapshot's file in a directory. -/
def write (directory : Path) (snapshot : Snapshot) (fs : FileSystem) :
    Except FileFault FileSystem :=
  fs.write (directory.join ⟨snapshot.fileName⟩) snapshot.toJson.prettyText

/-- Writes the files of snapshots, up to the first that fails. -/
def writeEach (directory : Path) : List Snapshot → FileSystem →
    Except FileFault Unit × FileSystem
  | [], fs => (.ok (), fs)
  | snapshot :: rest, fs =>
    match snapshot.write directory fs with
    | .error fault => (.error fault, fs)
    | .ok fs => writeEach directory rest fs

/-- Makes a directory and writes the files of snapshots there. -/
def writeAll (directory : Path) (snapshots : List Snapshot) (fs : FileSystem) :
    Except FileFault Unit × FileSystem :=
  match fs.createDirAll directory with
  | (.error fault, fs) => (.error fault, fs)
  | (.ok (), fs) => writeEach directory snapshots fs

end Snapshot

/-! ## The recorder -/

/-- The memory of a recorder, with the file system that it writes to. -/
structure Gallery where
  snapshots : List Snapshot := []
  files : FileSystem := {}

namespace Gallery

/-- Takes a snapshot.  If there is a directory, its file is written first, and
the snapshot is kept only if that succeeds. -/
def record (directory : Option Path) (snapshot : Snapshot) (gallery : Gallery) :
    Except FileFault Unit × Gallery :=
  match directory with
  | none => (.ok (), { gallery with snapshots := gallery.snapshots ++ [snapshot] })
  | some directory =>
    match Snapshot.writeAll directory [snapshot] gallery.files with
    | (.error fault, files) => (.error fault, { gallery with files })
    | (.ok (), files) => (.ok (), { snapshots := gallery.snapshots ++ [snapshot], files })

/-- The plugin that takes a snapshot after each edit. -/
def recorder (directory : Option Path) : Plugin Gallery where
  afterEdit info program shared :=
    let (result, gallery) := shared.memory.record directory ⟨info.index, info.stage, program⟩
    (result.mapError fun fault => .message fault.message, { shared with memory := gallery })

end Gallery

end EditPipeline
