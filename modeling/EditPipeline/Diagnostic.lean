import EditPipeline.Json.Value

/-!
# Diagnostics

What an editor tells the host about its work, and the outbox that collects it.
The outbox belongs to one editor, and every diagnostic that goes through it
carries the name of that editor.
-/

namespace EditPipeline

/-- How serious a diagnostic is. -/
inductive Severity where
  /-- The host should report a failed build. -/
  | error
  /-- Worth attention, but no failure. -/
  | warning
  /-- A note about what was done. -/
  | info
deriving DecidableEq, Repr, Inhabited

/-- The word for a severity. -/
def Severity.word : Severity → String
  | .error => "error"
  | .warning => "warning"
  | .info => "info"

/-- A message of an editor. -/
structure Diagnostic where
  severity : Severity
  /-- The name of the editor. -/
  stage : String
  message : String
  /-- The place in the program that the message is about. -/
  location : Option String := none
deriving DecidableEq, Repr, Inhabited

namespace Diagnostic

/-- Whether the diagnostic is an error. -/
def isError (diagnostic : Diagnostic) : Bool := diagnostic.severity = .error

/-- Whether the diagnostic is a warning. -/
def isWarning (diagnostic : Diagnostic) : Bool := diagnostic.severity = .warning

/-- The diagnostic on one line. -/
def text (diagnostic : Diagnostic) : String :=
  diagnostic.severity.word ++ "[" ++ diagnostic.stage ++ "]: " ++ diagnostic.message ++
    match diagnostic.location with
    | some location => " (at " ++ location ++ ")"
    | none => ""

/-- The diagnostic as JSON; a location that is absent is left out. -/
def toJson (diagnostic : Diagnostic) : Json :=
  .object ([
    ("severity", .string diagnostic.severity.word),
    ("stage", .string diagnostic.stage),
    ("message", .string diagnostic.message)] ++
    match diagnostic.location with
    | some location => [("location", .string location)]
    | none => [])

end Diagnostic

/-- The diagnostics of one editor, in the order in which it gave them. -/
structure Outbox where
  stage : String
  diagnostics : List Diagnostic := []
deriving DecidableEq, Repr, Inhabited

namespace Outbox

/-- A diagnostic as the outbox keeps it: under the name of its editor. -/
def stamp (outbox : Outbox) (diagnostic : Diagnostic) : Diagnostic :=
  { diagnostic with stage := outbox.stage }

/-- The outbox with one more diagnostic. -/
def push (outbox : Outbox) (diagnostic : Diagnostic) : Outbox :=
  { outbox with diagnostics := outbox.diagnostics ++ [outbox.stamp diagnostic] }

/-- The outbox with a diagnostic in the editor's own words, about no place. -/
def say (outbox : Outbox) (severity : Severity) (message : String) : Outbox :=
  { outbox with
    diagnostics := outbox.diagnostics ++ [{ severity, stage := outbox.stage, message }] }

/-- The outbox with more diagnostics. -/
def pushAll (outbox : Outbox) (diagnostics : List Diagnostic) : Outbox :=
  diagnostics.foldl push outbox

@[simp] theorem stage_push (outbox : Outbox) (diagnostic : Diagnostic) :
    (outbox.push diagnostic).stage = outbox.stage := rfl

theorem pushAll_eq (outbox : Outbox) (diagnostics : List Diagnostic) :
    outbox.pushAll diagnostics =
      { outbox with diagnostics := outbox.diagnostics ++ diagnostics.map outbox.stamp } := by
  induction diagnostics generalizing outbox with
  | nil => simp [pushAll]
  | cons first rest ih =>
    have := ih (outbox.push first)
    simp only [pushAll, List.foldl_cons] at this ⊢
    rw [this]
    simp [push, stamp]

end Outbox

/-! ## What an editor can do with its outbox -/

/-- An operation of an editor on its outbox. -/
inductive Remark where
  /-- Words of the editor: an error, a warning or a note. -/
  | say (severity : Severity) (message : String)
  /-- A diagnostic that is ready, with any place and any name. -/
  | push (diagnostic : Diagnostic)
deriving DecidableEq, Repr, Inhabited

/-- The diagnostic that the operation gives, by an editor called `stage`. -/
def Remark.diagnostic (stage : String) : Remark → Diagnostic
  | .say severity message => { severity, stage, message }
  | .push diagnostic => diagnostic

namespace Outbox

/-- The outbox after an operation. -/
def accept (outbox : Outbox) : Remark → Outbox
  | .say severity message => outbox.say severity message
  | .push diagnostic => outbox.push diagnostic

/-- Every operation is a push of its diagnostic. -/
theorem accept_eq_push (outbox : Outbox) (remark : Remark) :
    outbox.accept remark = outbox.push (remark.diagnostic outbox.stage) := by
  cases remark <;> rfl

theorem foldl_accept (outbox : Outbox) (remarks : List Remark) :
    remarks.foldl accept outbox = outbox.pushAll (remarks.map (·.diagnostic outbox.stage)) := by
  induction remarks generalizing outbox with
  | nil => rfl
  | cons remark rest ih =>
      rw [List.foldl_cons, ih, accept_eq_push, stage_push]
      rfl

end Outbox

end EditPipeline
