import EditPipeline.Report.Line

/-!
# The report on the known kinds of marker
-/

namespace EditPipeline

/-- The registered kinds with their descriptions. -/
structure KindsReport where
  kinds : List (String × String)
deriving Repr

namespace KindsReport

/-- The text with spaces after it, up to `width` characters. -/
def pad (width : Nat) (text : String) : String :=
  text ++ String.ofList (List.replicate (width - text.length) ' ')

/-- The greatest size of a kind, in bytes. -/
def width (report : KindsReport) : Nat :=
  (report.kinds.map fun entry => entry.1.utf8ByteSize).foldl max 0

/-- The lines of the report: the kinds in one column, the descriptions in another
one. -/
def lines (report : KindsReport) : List ReportLine :=
  if report.kinds.isEmpty then [.preformatted "No marker kinds registered."]
  else
    .heading ("Marker kinds (" ++ toString report.kinds.length ++ ")")
      :: report.kinds.map fun (kind, description) =>
        .listItem (pad report.width kind ++ "  " ++ description)

end KindsReport

end EditPipeline
