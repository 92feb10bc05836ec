import EditPipeline.Diagnostic

/-!
# The lines of a report

A report says what is to be shown, line by line and by the meaning of each line.
How a line looks is the matter of the medium; this module holds the look on a
terminal, where warnings and errors go to the second stream.
-/

namespace EditPipeline

/-- A line of a report by its meaning. -/
inductive ReportLine where
  /-- The heading of a section. -/
  | heading (name : String)
  | keyValue (key value : String)
  /-- An item of a numbered list. -/
  | numberedItem (number : Nat) (text : String)
  /-- An item of a list. -/
  | listItem (text : String)
  | diagnostic (diagnostic : Diagnostic)
  | error (text : String)
  /-- A divider with a label. -/
  | divider (label : String)
  /-- A block of text that stays as it is. -/
  | preformatted (text : String)
  /-- An empty line. -/
  | newline
deriving DecidableEq, Repr, Inhabited

namespace ReportLine

/-- Whether the line goes to the stream for errors. -/
def toErrors : ReportLine → Bool
  | .diagnostic d => d.severity ≠ .info
  | .error _ => true
  | _ => false

/-- The line on a terminal, without its line break. -/
def terminal : ReportLine → String
  | .heading name => name ++ ":"
  | .keyValue key value => key ++ ": " ++ value
  | .numberedItem number text => "  " ++ toString number ++ ". " ++ text
  | .listItem text => "  - " ++ text
  | .diagnostic d => d.text
  | .error text => "error: " ++ text
  | .divider label => "── " ++ label ++ " ──"
  | .preformatted text => text
  | .newline => ""

end ReportLine

end EditPipeline
