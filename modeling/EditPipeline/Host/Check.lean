import EditPipeline.Host
import EditPipeline.Report.Check

/-!
# Checking a project

Initializes the editors of a project's markers, and edits nothing.
-/

namespace EditPipeline.Host

variable {σ : Type}

/-- Checks a program with the editors of some markers. -/
def check (configPath : Path) (program : Program) (markers : List (Marker σ)) (memory : σ) :
    CheckReport :=
  let pipeline : Pipeline Unit := { plugins := [] }
  let (failure, findings) := (pipeline.collect program markers ⟨false, memory⟩ ()).outcome
  { configPath, program := program.name, stages := findings.stages,
    diagnostics := findings.diagnostics, failure }

end EditPipeline.Host
