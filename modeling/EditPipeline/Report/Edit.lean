import EditPipeline.Files.Path
import EditPipeline.Pipeline
import EditPipeline.Report.Line
import EditPipeline.Text.Blank

/-!
# The report on a run

What a run did to a project, and whether it counts as a success.
-/

namespace EditPipeline

/-- How many diagnostics are errors. -/
def errorCount (diagnostics : List Diagnostic) : Nat := diagnostics.countP (·.isError)

/-- How many diagnostics are warnings. -/
def warningCount (diagnostics : List Diagnostic) : Nat := diagnostics.countP (·.isWarning)

/-- What a run did to a project. -/
structure EditReport where
  /-- The project's name. -/
  project : String
  /-- Why the run aborted, if it did. -/
  failure : Option PipelineError := none
  /-- The stages that took part. -/
  stages : List StageInfo := []
  diagnostics : List Diagnostic := []
  /-- Warnings make the run fail. -/
  denyWarnings : Bool := false
  /-- Where the edited program was written. -/
  output : Option Path := none
  /-- The directory to which the snapshots were written. -/
  snapshots : Option Path := none
  /-- The listing of the edited program, if it was asked for. -/
  rendered : Option String := none
deriving DecidableEq, Repr, Inhabited

namespace EditReport

/-- Whether warnings have made the run fail. -/
def denied (report : EditReport) : Bool :=
  report.denyWarnings && 0 < warningCount report.diagnostics

/-- Whether the edited program is usable. -/
def isSuccess (report : EditReport) : Bool :=
  report.failure.isNone && errorCount report.diagnostics = 0 && !report.denied

/-- The diagnostics, and an empty line after them. -/
def diagnosticLines (report : EditReport) : List ReportLine :=
  if report.diagnostics.isEmpty then []
  else report.diagnostics.map .diagnostic ++ [.newline]

/-- The listing of the edited program. -/
def listingLines (report : EditReport) : List ReportLine :=
  match report.rendered with
  | none => []
  | some listing =>
    [.divider "Edited program",
      .preformatted (String.ofList (Text.trimEnd listing.toList)), .newline]

/-- What became of a run that did not abort. -/
def summaryLines (report : EditReport) : List ReportLine :=
  let warnings := toString (warningCount report.diagnostics)
  (if report.denied then [.error (warnings ++ " warning(s) denied by [pipeline] deny_warnings")]
    else [])
  ++ [.keyValue "Stages" (toString report.stages.length ++ " ("
      ++ toString (errorCount report.diagnostics) ++ " error(s), " ++ warnings ++ " warning(s))")]
  ++ report.output.toList.map (fun path => .keyValue "Written" path.text)
  ++ report.snapshots.toList.map (fun path => .keyValue "Snapshots" path.text)
  ++ (if report.isSuccess && report.output.isNone then
      [.preformatted ("✓ " ++ report.project ++ " ran without writing output")]
    else [])

/-- The lines of the report. -/
def lines (report : EditReport) : List ReportLine :=
  report.diagnosticLines ++ report.listingLines
  ++ match report.failure with
    | some error => [.error (chainText error.chain)]
    | none => report.summaryLines

end EditReport

end EditPipeline
