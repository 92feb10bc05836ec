import EditPipeline.Manifest.Decode
import EditPipeline.Manifest.Error
import EditPipeline.Manifest.KeyLabel

/-!
# Manifests from text

A text is a manifest if it is TOML of the right shape and keeps the rules on names and
paths.  The rules are checked one after the other: the project's name, that no path is
empty, and that the edited program does not take the place of the program.
-/

namespace EditPipeline

/-- What is wrong with a project's name. -/
def nameFault? (name : String) : Option NameFault :=
  match name.toList with
  | [] => some .empty
  | first :: rest =>
    if !first.isAlpha then some .badStart
    else if rest.all fun c => c.isAlphanum || c = '_' || c = '-' || c = '.' then none
    else some .badCharacter

namespace Manifest

/-- The first rule that a manifest breaks, apart from the one on names. -/
def fault? (manifest : Manifest) : Option ManifestFault :=
  if manifest.project.program.text = "" then some (.emptyPath "project" "program")
  else
    match manifest.output.program with
    | none => none
    | some program =>
      if program.text = "" then some (.emptyPath "output" "program")
      else if program.sameAs manifest.project.program then some .overwritesInput
      else none

/-- The place in a text that a fault is about. -/
def placeOf? (text : String) : ManifestFault → Option Span
  | .emptyPath table key => KeyLabel.find? text table key
  | .overwritesInput => none

/-- The manifest in a text; `filename` is the name of the text in errors. -/
def ofText (text : String) (filename : String) : Except ManifestError Manifest := do
  match Toml.ofText? text with
  | none => throw (.notToml filename)
  | some entries =>
    let manifest ← (Manifest.ofEntries entries).mapError (.misshapen filename)
    match nameFault? manifest.project.name with
    | some fault =>
      throw (.invalidName filename manifest.project.name fault
        (KeyLabel.find? text "project" "name"))
    | none =>
      match manifest.fault? with
      | some fault => throw (.invalid filename fault (placeOf? text fault))
      | none => return manifest

end Manifest

/-! ## Files -/

/-- A manifest that was read from a file. -/
structure ManifestFile where
  path : Path
  content : String
  manifest : Manifest
deriving DecidableEq, Repr, Inhabited

namespace ManifestFile

/-- Reads the manifest in a file. -/
def read (path : Path) (files : FileSystem) : Except ManifestError ManifestFile := do
  let content ← (files.read path).mapError (.unreadable path)
  let manifest ← Manifest.ofText content path.text
  return { path, content, manifest }

/-- The directory from which the paths in the manifest start. -/
def baseDir (file : ManifestFile) : Path := file.path.parent?.getD ⟨"."⟩

/-- Where the program stands. -/
def programPath (file : ManifestFile) : Path := file.baseDir.join file.manifest.project.program

/-- Where the edited program goes: next to the program unless the manifest says
otherwise. -/
def outputPath (file : ManifestFile) : Path :=
  match file.manifest.output.program with
  | some path => file.baseDir.join path
  | none => file.programPath.withExtension "edited.json"

/-- The directory of the snapshots. -/
def snapshotsDir? (file : ManifestFile) : Option Path :=
  file.manifest.output.snapshots.map file.baseDir.join

end ManifestFile

end EditPipeline
