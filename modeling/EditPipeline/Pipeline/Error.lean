import EditPipeline.Editor

/-!
# Why a run aborts
-/

namespace EditPipeline

/-- Why a run aborted. -/
inductive PipelineError where
  /-- A marker failed to give its editors, or one of its editors failed to
  initialize.  No edit was made. -/
  | stageInitialization (marker : MarkerOrigin) (stage : Option String) (source : Failure)
  /-- Cancellation was requested.  This is not a failure. -/
  | cancelled
  /-- An edit, or a hook around it, failed. -/
  | editFailure (stage : String) (index : Nat) (source : Failure)
deriving DecidableEq, Repr, Inhabited

namespace PipelineError

/-- Whether the run stopped on request and not because of a fault. -/
def isCancellation : PipelineError → Bool
  | .cancelled => true
  | _ => false

/-- The name of the editor that the error comes from, if it comes from one. -/
def stage? : PipelineError → Option String
  | .stageInitialization _ stage _ => stage
  | .cancelled => none
  | .editFailure stage _ _ => some stage

/-- The error in words, without its cause. -/
def message : PipelineError → String
  | .stageInitialization marker (some stage) _ =>
      "failed to initialize editor '" ++ stage ++ "' of " ++ marker.text
  | .stageInitialization marker none _ => "failed to initialize " ++ marker.text
  | .cancelled => "pipeline run was cancelled"
  | .editFailure stage index _ =>
      "rewrite #" ++ toString index ++ " registered by '" ++ stage ++ "' failed"

/-- The code by which a host knows the error. -/
def code : PipelineError → String
  | .stageInitialization .. => "comet::stage_initialization"
  | .cancelled => "comet::cancelled"
  | .editFailure .. => "comet::rewrite_failure"

/-- The words of the error and of all its causes. -/
def chain (error : PipelineError) : List String :=
  error.message ::
    match error with
    | .stageInitialization _ _ source => source.chain
    | .cancelled => []
    | .editFailure _ _ source => source.chain

end PipelineError

end EditPipeline
