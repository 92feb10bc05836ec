import EditPipeline.Command

/-!
# The program

Brings the files that a command may touch into memory, executes the command on them,
and puts what has changed back on the disk.
-/

namespace EditPipeline.Disk

/-- A location as the disk spells it. -/
def spell (location : Location) : String := "/" ++ "/".intercalate location

/-- What stands on the disk at a location. -/
def probe (location : Location) : IO (Option Node) := do
  try
    return some (.file (← IO.FS.readBinFile (spell location)))
  catch
    | .inappropriateType _ 21 _ => return some .directory
    | .permissionDenied filename code details => throw (.permissionDenied filename code details)
    | _ => return none

/-- Adds what stands on the disk along the segments of a path. -/
def addAlong (files : FileSystem) (current : Location) : List (List Char) → IO FileSystem
  | [] => return files
  | segment :: rest =>
    if segment = [] ∨ segment = ['.'] then addAlong files current rest
    else if segment = ['.', '.'] then addAlong files current.dropLast rest
    else do
      let next := current ++ [String.ofList segment]
      if (files.node? next).isSome then addAlong files next rest
      else
        match ← probe next with
        | some node => addAlong (files.put next node) next rest
        | none => return files

/-- Adds what stands on the disk along paths. -/
def addAll (files : FileSystem) : List Path → IO FileSystem
  | [] => return files
  | path :: rest => do
    let files ← addAlong files (files.origin path) path.segments
    addAll files rest

/-- The files that a command may touch.  Only the manifest tells the other ones, so
that it is looked at first. -/
def load (command : Command) : IO FileSystem := do
  let here : Path := ⟨(← IO.FS.realPath ".").toString⟩
  let files ← addAlong {} [] here.segments
  let home := here.segments.filterMap fun segment =>
    if segment = [] then none else some (String.ofList segment)
  let files := { files with home }
  let files ← addAll files (command.paths files)
  addAll files (command.paths files)

/-- Puts what has changed on the disk. -/
def store (before after : FileSystem) : IO Unit :=
  after.nodes.forM fun (location, node) => do
    unless before.node? location = some node do
      match node with
      | .directory => IO.FS.createDirAll (spell location)
      | .file content => IO.FS.writeBinFile (spell location) content

end EditPipeline.Disk

open EditPipeline in
/-- Executes the command that the arguments ask for. -/
def main (arguments : List String) : IO UInt32 := do
  let files ← match Command.ofArguments? arguments with
    | some command => Disk.load command
    | none => pure {}
  let printed := Command.executeArguments arguments files
  Disk.store files printed.files
  IO.print printed.out
  IO.eprint printed.err
  return printed.exitCode.toNat.toUInt32
