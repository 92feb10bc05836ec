import EditPipeline.Host
import EditPipeline.Manifest
import EditPipeline.Program.Listing
import EditPipeline.Report.Edit
import EditPipeline.Snapshot

/-!
# Editing a project

A run over the program of a project.  Only if it succeeds, and is no dry run, the
edited program is written where the manifest says, and after it the snapshots.
-/

namespace EditPipeline

/-- How a run is wanted. -/
structure EditOptions where
  /-- Nothing is written. -/
  dryRun : Bool := false
  /-- The report holds the listing of the edited program. -/
  print : Bool := false
deriving DecidableEq, Repr, Inhabited

/-- Why the result of a run could not be written. -/
inductive WriteError where
  /-- The directory of the edited program cannot be made. -/
  | noDirectory (fault : FileFault)
  /-- The edited program cannot be written. -/
  | program (path : Path) (fault : FileFault)
  /-- The snapshots cannot be written.  The edited program has been. -/
  | snapshots (directory : Path) (fault : FileFault)
deriving DecidableEq, Repr, Inhabited

/-- The words of the error and of its cause. -/
def WriteError.chain : WriteError → List String
  | .noDirectory fault => [fault.message]
  | .program path fault => ["failed to write '" ++ path.text ++ "'", fault.message]
  | .snapshots directory fault =>
      ["failed to write snapshots to '" ++ directory.text ++ "'", fault.message]

namespace Host

/-- Makes the directory that a path lies in. -/
def makeParent (path : Path) (files : FileSystem) : Except FileFault Unit × FileSystem :=
  match path.parent? with
  | none => (.ok (), files)
  | some directory => files.createDirAll directory

/-- Writes a program, and makes the directory that it goes to. -/
def writeProgram (path : Path) (program : Program) (files : FileSystem) :
    Except WriteError Unit × FileSystem :=
  match makeParent path files with
  | (.error fault, files) => (.error (.noDirectory fault), files)
  | (.ok (), files) =>
    match files.write path program.toJson.prettyText with
    | .error fault => (.error (.program path fault), files)
    | .ok files => (.ok (), files)

/-- Where snapshots are to be written: nowhere in a dry run. -/
def snapshotsTarget (file : ManifestFile) (options : EditOptions) : Option Path :=
  if options.dryRun then none else file.snapshotsDir?

/-- Writes what a run gave, and notes in the report what was written. -/
def writeResult (file : ManifestFile) (target : Option Path) (program : Program)
    (snapshots : List Snapshot) (report : EditReport) (files : FileSystem) :
    Except WriteError EditReport × FileSystem :=
  let output := file.outputPath
  match writeProgram output program files with
  | (.error error, files) => (.error error, files)
  | (.ok (), files) =>
    let report := { report with output := some output }
    match target with
    | none => (.ok report, files)
    | some directory =>
      match Snapshot.writeAll directory snapshots files with
      | (.error fault, files) => (.error (.snapshots directory fault), files)
      | (.ok (), files) => (.ok { report with snapshots := some directory }, files)

variable {σ : Type}

/-- Edits the program of a project with the editors of some markers. -/
def edit (file : ManifestFile) (program : Program) (markers : List (Marker σ))
    (options : EditOptions) (memory : σ) (files : FileSystem) :
    Except WriteError EditReport × FileSystem :=
  let target := snapshotsTarget file options
  let pipeline : Pipeline Gallery := { plugins := target.toList.map fun _ => Gallery.recorder none }
  let ended := pipeline.run program markers ⟨false, memory⟩ {}
  let findings := ended.outcome.findings
  let report : EditReport :=
    { project := file.manifest.project.name, stages := findings.stages,
      diagnostics := findings.diagnostics, denyWarnings := file.manifest.pipeline.denyWarnings }
  match ended.outcome with
  | .aborted error _ => (.ok { report with failure := some error }, files)
  | .completed next _ =>
    let report := { report with rendered := if options.print then some next.listing else none }
    if options.dryRun || !report.isSuccess then (.ok report, files)
    else writeResult file target next ended.watch.snapshots report files

end Host

end EditPipeline
