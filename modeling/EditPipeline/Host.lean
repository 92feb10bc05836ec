import EditPipeline.Breaking.Marker
import EditPipeline.Files.FileSystem
import EditPipeline.Pipeline
import EditPipeline.Program.Decode
import EditPipeline.Report.Kinds

/-!
# The host

The host knows every kind of marker that there is, and reads programs from files.
-/

namespace EditPipeline

/-- Why there is no program to work with. -/
inductive ProgramError where
  /-- The file cannot be read. -/
  | unreadable (path : Path) (fault : FileFault)
  /-- The file does not hold a program. -/
  | invalid (path : Path) (problem : Json.Problem)

namespace ProgramError

/-- The error in words, without its cause. -/
def message : ProgramError → String
  | .unreadable path _ => "failed to read program '" ++ path.text ++ "'"
  | .invalid path _ => "'" ++ path.text ++ "' is not a valid program"

/-- The words of the error and of its cause. -/
def chain : ProgramError → List String
  | .unreadable path fault => [message (.unreadable path fault), fault.message]
  | .invalid path problem =>
      [message (.invalid path problem), problem.message?.getD "the text is not JSON"]

end ProgramError

namespace Host

/-- Every kind of marker. -/
def registry (σ : Type) : Registry (Marker σ) := BreakOn.register BreakOn.toMarker {}

/-- The report on every kind of marker. -/
def kindsReport : KindsReport := ⟨(registry Unit).kinds⟩

/-- Reads a program from a file. -/
def loadProgram (path : Path) (files : FileSystem) : Except ProgramError Program := do
  let text ← (files.read path).mapError (.unreadable path)
  (Program.ofText text).mapError (.invalid path)

/-- The markers that a program declares. -/
def resolve (σ : Type) (program : Program) : Except ValidationError (List (Marker σ)) :=
  (registry σ).resolve program

end Host

end EditPipeline
