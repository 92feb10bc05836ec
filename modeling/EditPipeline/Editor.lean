import EditPipeline.Diagnostic
import EditPipeline.Failure
import EditPipeline.Program

/-!
# Markers, editors and edits

A marker stands for a request on the whole program.  Asked for its editors, it
gives them in the order in which they take part in a run.  An editor looks at the
program once and registers edits; an edit takes a program and gives the next
one.

All of them are arbitrary functions.  What they remember from call to call is a
memory of type `σ` that they share with each other, and the one thing that they
share with the run is the request for cancellation, so both stand together in
`Shared σ`.  A call may make the request, but cannot take it back: a run that
knows of it goes by what it knows.  What a call does to the outbox of its editor
can only be to add diagnostics: it returns them in the order in which it gives
them.
-/

namespace EditPipeline

/-- What a run shares with the code that it calls. -/
structure Shared (σ : Type) where
  /-- Cancellation has been requested. -/
  cancelled : Bool
  /-- What the code that is called remembers. -/
  memory : σ
deriving DecidableEq, Repr, Inhabited

namespace Shared

variable {σ : Type}

/-- Requests cancellation. -/
def cancel (shared : Shared σ) : Shared σ := { shared with cancelled := true }

/-- Fails once cancellation has been requested. -/
def check (shared : Shared σ) : Except Failure Unit :=
  if shared.cancelled then .error .cancelled else .ok ()

end Shared

/-- What a call of an edit leaves behind. -/
structure Reply (σ : Type) where
  /-- The next program. -/
  result : Except Failure Program
  /-- The diagnostics that the call gave, whatever its result. -/
  emitted : List Diagnostic
  shared : Shared σ

/-- A function from one program to the next.  It also sees the outbox of its
editor as it stands before the call. -/
abbrev Edit (σ : Type) := Program → Outbox → Shared σ → Reply σ

/-- An edit in the chain, with the number of the stage that registered it. -/
structure Link (σ : Type) where
  stage : Nat
  edit : Edit σ

/-- What an editor registers its edits with: the number of its stage, and the chain
that all stages share. -/
structure Context (σ : Type) where
  stage : Nat
  chain : List (Link σ)

namespace Context

variable {σ : Type}

/-- Puts an edit at the end of the chain. -/
def register (context : Context σ) (edit : Edit σ) : Context σ :=
  { context with chain := context.chain ++ [⟨context.stage, edit⟩] }

/-- How many edits the editor has registered so far. -/
def registered (context : Context σ) : Nat :=
  context.chain.countP fun link => link.stage = context.stage

end Context

/-- What the initialization of an editor leaves behind. -/
structure Setup (σ : Type) where
  result : Except Failure Unit
  /-- The diagnostics that the editor gave, whatever the result. -/
  emitted : List Diagnostic
  /-- The edits that it registered, whatever the result. -/
  edits : List (Edit σ)
  shared : Shared σ

/-- A unit of work that takes part in a run. -/
structure Editor (σ : Type) where
  /-- The name that its diagnostics carry. -/
  name : String
  /-- Looks at the program before any edit, and registers edits. -/
  setUp : Program → Shared σ → Setup σ

/-- A validated request for editors. -/
structure Marker (σ : Type) where
  kind : String
  /-- The editors, in the order of their initialization. -/
  editors : Shared σ → Except Failure (List (Editor σ)) × Shared σ

/-- Which marker of a run an editor comes from. -/
structure MarkerOrigin where
  /-- The place of the marker in the list of markers. -/
  index : Nat
  kind : String
deriving DecidableEq, Repr, Inhabited

namespace MarkerOrigin

/-- The marker in words. -/
def text (origin : MarkerOrigin) : String :=
  "marker #" ++ toString origin.index ++ " (" ++ origin.kind ++ ")"

/-- The marker as JSON. -/
def toJson (origin : MarkerOrigin) : Json :=
  .object [("index", .ofNat origin.index), ("kind", .string origin.kind)]

end MarkerOrigin

end EditPipeline
