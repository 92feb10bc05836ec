import EditPipeline.Editor

/-!
# Breaking into the debugger

The editor of this module puts a debugger break in front of every method that is
decorated with one of the tracked marker types.  A tag on the method says that it
has been done, so doing it again changes nothing.
-/

namespace EditPipeline.Breaking

/-- The tag of a method that breaks into the debugger. -/
def breakTag : String := "comet.debugging.break"

/-- The name of the editor. -/
def editorName : String := "breaking"

/-- The method with a break in front of its body and the tag that says so. -/
def instrument (method : Method) : Method :=
  { method with
    body := .intrinsic .debuggerBreak :: method.body
    tags := method.tags.insert breakTag }

/-- What the editor has seen of a program so far. -/
structure Tally where
  /-- How many methods are decorated with a tracked type. -/
  matched : Nat := 0
  /-- The full names of those that were instrumented. -/
  instrumented : List String := []
deriving DecidableEq, Repr, Inhabited

/-- Whether one of the method's attributes is tracked. -/
def isTracked (tracked : List TypeId) (method : Method) : Bool :=
  method.isDecoratedWith fun type => tracked.contains type

/-- Looks at one method: a tracked one is counted, and instrumented if it is not
yet. -/
def visit (tracked : List TypeId) (owner : TypeId) (method : Method) (tally : Tally) :
    Method × Tally :=
  if isTracked tracked method then
    let tally := { tally with matched := tally.matched + 1 }
    if method.hasTag breakTag then (method, tally)
    else
      (instrument method,
        { tally with instrumented := tally.instrumented ++ [owner.name ++ "." ++ method.name] })
  else (method, tally)

/-- Instruments a program. -/
def edit (tracked : List TypeId) (program : Program) : Program × Tally :=
  program.threadMethods (visit tracked) {}

/-- What the editor says about what it has seen. -/
def Tally.diagnostic (tally : Tally) : Diagnostic :=
  if tally.matched = 0 then
    { severity := .warning, stage := editorName,
      message := "no methods are decorated with a tracked marker type" }
  else if tally.instrumented.isEmpty then
    { severity := .info, stage := editorName,
      message := toString tally.matched ++ " method(s) already break into the debugger" }
  else
    { severity := .info, stage := editorName,
      message := "instrumented " ++ toString tally.instrumented.length
        ++ " method(s) with debugger breaks: " ++ ", ".intercalate tally.instrumented }

/-- What the editor does, as a run sees it.  It never fails. -/
def asEdit {σ : Type} (tracked : List TypeId) : Edit σ := fun program _ shared =>
  let (next, tally) := edit tracked program
  { result := .ok next, emitted := [tally.diagnostic], shared }

/-- The editor for a set of tracked types. -/
def editor {σ : Type} (tracked : List TypeId) : Editor σ where
  name := editorName
  setUp _ shared := { result := .ok (), emitted := [], edits := [asEdit tracked], shared }

end EditPipeline.Breaking
