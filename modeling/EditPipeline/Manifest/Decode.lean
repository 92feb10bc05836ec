import EditPipeline.Manifest.Basic
import EditPipeline.Toml.Decode

/-!
# Reading manifests from TOML

Each table of a manifest is a `Record` whose fields are collected in a draft.
-/

namespace EditPipeline

open Toml (Record ShapeError)

/-- The path in a string. -/
def Path.ofToml (value : Toml.Placed) : Except ShapeError Path :=
  (Toml.toText .path value).map Path.mk

/-- The project's table while it is being read. -/
structure ProjectConfig.Draft where
  name : Option String := none
  program : Option Path := none

/-- How the project's table is read. -/
def ProjectConfig.record : Record ProjectConfig.Draft ProjectConfig where
  name := "ProjectConfig"
  blank := {}
  fields := [
    { name := "name", droppable := false,
      fill := fun value draft =>
        return { draft with name := some (← Toml.toText .string value) } },
    { name := "program", droppable := false,
      fill := fun value draft => return { draft with program := some (← Path.ofToml value) } }]
  finish := fun draft =>
    match draft.name, draft.program with
    | none, _ => .error "name"
    | _, none => .error "program"
    | some name, some program => .ok { name, program }

/-- How the table of outputs is read. -/
def OutputConfig.record : Record OutputConfig OutputConfig where
  name := "OutputConfig"
  blank := {}
  fields := [
    { name := "program", droppable := false,
      fill := fun value output => return { output with program := some (← Path.ofToml value) } },
    { name := "snapshots", droppable := false,
      fill := fun value output =>
        return { output with snapshots := some (← Path.ofToml value) } }]
  finish := .ok

/-- How the table of the pipeline is read. -/
def PipelineConfig.record : Record PipelineConfig PipelineConfig where
  name := "PipelineConfig"
  blank := {}
  fields := [
    { name := "deny_warnings", droppable := true,
      fill := fun value pipeline =>
        return { pipeline with denyWarnings := (← Toml.toBool value) } }]
  finish := .ok

/-- A manifest while it is being read. -/
structure Manifest.Draft where
  project : Option ProjectConfig := none
  output : OutputConfig := {}
  pipeline : PipelineConfig := {}

/-- How a manifest is read. -/
def Manifest.record : Record Manifest.Draft Manifest where
  name := "Manifest"
  blank := {}
  fields := [
    { name := "project", droppable := false,
      fill := fun value draft =>
        return { draft with project := some (← ProjectConfig.record.read value) } },
    { name := "output", droppable := true,
      fill := fun value draft =>
        return { draft with output := (← OutputConfig.record.read value) } },
    { name := "pipeline", droppable := true,
      fill := fun value draft =>
        return { draft with pipeline := (← PipelineConfig.record.read value) } }]
  finish := fun draft =>
    match draft.project with
    | none => .error "project"
    | some project => .ok { project, output := draft.output, pipeline := draft.pipeline }

/-- The manifest in the entries of a document. -/
def Manifest.ofEntries (entries : Toml.Entries) : Except ShapeError Manifest :=
  Manifest.record.readEntries ⟨0, 0⟩ entries

end EditPipeline
