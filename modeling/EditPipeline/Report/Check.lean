import EditPipeline.Files.Path
import EditPipeline.Pipeline
import EditPipeline.Report.Line

/-!
# The report on a check

What a check found out about a project without editing anything.
-/

namespace EditPipeline

/-- What a check found out. -/
structure CheckReport where
  /-- Where the manifest stands. -/
  configPath : Path
  /-- The name of the program. -/
  program : String
  /-- The stages that would take part in a run. -/
  stages : List StageInfo
  diagnostics : List Diagnostic
  /-- Why the editors could not be initialized. -/
  failure : Option PipelineError
deriving DecidableEq, Repr, Inhabited

namespace CheckReport

/-- Whether nothing is wrong. -/
def isValid (report : CheckReport) : Bool :=
  report.failure.isNone && !report.diagnostics.any (·.isError)

/-- What the editors had to say. -/
def findingLines (report : CheckReport) : List ReportLine :=
  let found := report.diagnostics.map ReportLine.diagnostic
    ++ report.failure.toList.map fun error => .error (chainText error.chain)
  if found.isEmpty then [] else found ++ [.newline]

/-- Each stage with its number, counted from `number`. -/
def numbered : Nat → List StageInfo → List ReportLine
  | _, [] => []
  | number, info :: rest =>
    .numberedItem number (info.name ++ " from " ++ info.marker.text ++ ", "
        ++ toString info.edits ++ " rewrite(s)")
      :: numbered (number + 1) rest

/-- The stages. -/
def stageLines (report : CheckReport) : List ReportLine :=
  if report.stages.isEmpty then []
  else
    .heading ("Stages (" ++ toString report.stages.length ++ ")")
      :: numbered 1 report.stages ++ [.newline]

/-- The lines of the report. -/
def lines (report : CheckReport) : List ReportLine :=
  report.findingLines ++ report.stageLines
  ++ if report.isValid then
      [.preformatted ("✓ " ++ report.configPath.text ++ " is valid (" ++ report.program ++ ")")]
    else []

end CheckReport

end EditPipeline
