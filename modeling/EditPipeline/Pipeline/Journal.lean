import EditPipeline.Plugin

/-!
# The journal of a run

A run notes every call that it makes, every diagnostic that it is given, and
every request for cancellation that a call makes, in the order of time.  The
outcome of a run says what it came to; the journal says how.
-/

namespace EditPipeline

/-- Something that happened in a run. -/
inductive Event where
  /-- Plugin number `plugin` heard of a phase. -/
  | phase (plugin : Nat) (phase : Phase)
  /-- The run looked whether cancellation had been requested. -/
  | poll (cancelled : Bool)
  /-- Marker number `marker` was asked for its editors. -/
  | discover (marker : Nat) (failure : Option Failure)
  /-- The editor of stage number `stage` was initialized. -/
  | setUp (stage : Nat) (name : String) (program : Program) (failure : Option Failure)
  /-- The editor of stage number `stage` gave a diagnostic. -/
  | emit (stage : Nat) (diagnostic : Diagnostic)
  /-- Plugin number `plugin` heard of an edit and the program before it. -/
  | before (plugin : Nat) (info : EditInfo) (program : Program) (failure : Option Failure)
  /-- Edit number `index` got a program. -/
  | edit (index : Nat) (program : Program) (result : Except Failure Program)
  /-- Plugin number `plugin` heard of an edit and the program after it. -/
  | after (plugin : Nat) (info : EditInfo) (program : Program) (failure : Option Failure)
  /-- The call noted last has requested cancellation, and was the first to do so. -/
  | request
deriving Inhabited

/-- What happened in a run, in the order of time. -/
abbrev Journal := List Event

end EditPipeline
