import EditPipeline.Files.Path

/-!
# Manifests

A manifest says which program to edit and where the results go.
-/

namespace EditPipeline

/-- What is edited. -/
structure ProjectConfig where
  /-- The project's name, as reports show it. -/
  name : String
  /-- Where the program stands. -/
  program : Path
deriving DecidableEq, Repr, Inhabited

/-- Where results go. -/
structure OutputConfig where
  /-- Where the edited program goes. -/
  program : Option Path := none
  /-- The directory of the snapshots, one for each edit. -/
  snapshots : Option Path := none
deriving DecidableEq, Repr, Inhabited

/-- How a run is judged. -/
structure PipelineConfig where
  /-- Warnings make a run fail. -/
  denyWarnings : Bool := false
deriving DecidableEq, Repr, Inhabited

/-- A manifest. -/
structure Manifest where
  project : ProjectConfig
  output : OutputConfig := {}
  pipeline : PipelineConfig := {}
deriving DecidableEq, Repr, Inhabited

end EditPipeline
