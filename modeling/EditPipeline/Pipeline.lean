import EditPipeline.Pipeline.Error
import EditPipeline.Pipeline.Journal

/-!
# Runs of the pipeline

A run has two parts.  While it is *collecting*, it asks every marker for its
editors and then initializes them one after the other; each editor adds a stage,
and its edits go to the end of one chain that all editors share.  While it is
*executing*, the program passes through the chain.

Before each editor and before each edit the run looks whether cancellation has
been requested, by the code that it calls or by someone outside.  Whatever stops
a run, the stages and diagnostics that it has so far are part of its outcome, but
no program is.
-/

namespace EditPipeline

/-! ## What a run gives -/

/-- An editor that took part in a run. -/
structure StageInfo where
  name : String
  marker : MarkerOrigin
  /-- How many edits it registered. -/
  edits : Nat
deriving DecidableEq, Repr, Inhabited

/-- A stage as JSON. -/
def StageInfo.toJson (info : StageInfo) : Json :=
  .object [
    ("name", .string info.name),
    ("marker", info.marker.toJson),
    ("rewrites", .ofNat info.edits)]

/-- What a run leaves whether it completes or not: its stages in the order of
their initialization, and their diagnostics stage by stage. -/
structure Findings where
  stages : List StageInfo
  diagnostics : List Diagnostic
deriving DecidableEq, Repr, Inhabited

/-- How a run ended. -/
inductive Outcome where
  | completed (program : Program) (findings : Findings)
  | aborted (error : PipelineError) (findings : Findings)
deriving Inhabited

namespace Outcome

/-- Whether the run completed. -/
def isCompleted : Outcome → Bool
  | .completed .. => true
  | .aborted .. => false

/-- Whether the run stopped on request. -/
def isCancellation : Outcome → Bool
  | .completed .. => false
  | .aborted error _ => error.isCancellation

/-- The stages and diagnostics, however the run ended. -/
def findings : Outcome → Findings
  | .completed _ findings => findings
  | .aborted _ findings => findings

/-- The edited program.  A run that aborted has none. -/
def program? : Outcome → Option Program
  | .completed program _ => some program
  | .aborted .. => none

end Outcome

/-! ## The state of a run -/

/-- An editor that is taking part in a run. -/
structure Stage where
  origin : MarkerOrigin
  outbox : Outbox
deriving DecidableEq, Repr, Inhabited

/-- The name of the editor. -/
def Stage.name (stage : Stage) : String := stage.outbox.stage

/-- The state of a run.  Editors remember things in `σ`, plugins in `π`; both may
request cancellation, and so may someone outside of the run, at any time. -/
structure Run (σ π : Type) where
  shared : Shared σ
  /-- The memory of the plugins. -/
  watch : π
  /-- When someone outside requests cancellation: once so many events are noted. -/
  stopAt : Option Nat := none
  stages : List Stage := []
  chain : List (Link σ) := []
  journal : Journal := []

/-- A watched pipeline.  It holds no state: each run starts afresh. -/
structure Pipeline (π : Type) where
  plugins : List (Plugin π) := []

/-- A pipeline's run once it has ended. -/
structure Ended (σ π α : Type) where
  outcome : α
  shared : Shared σ
  watch : π
  journal : Journal

namespace Run

variable {σ π : Type}

/-- Whether cancellation has been requested by now. -/
def cancelled (run : Run σ π) : Bool :=
  run.shared.cancelled || run.stopAt.any (· ≤ run.journal.length)

/-- What markers, editors and edits share with the run. -/
def sharing (run : Run σ π) : Shared σ := ⟨run.cancelled, run.shared.memory⟩

/-- What the plugins share with the run. -/
def watching (run : Run σ π) : Shared π := ⟨run.cancelled, run.watch⟩

/-- The run with one more event in its journal, after which cancellation has been
requested or not.  A request is never taken back. -/
def note (event : Event) (cancelled : Bool) (run : Run σ π) : Run σ π :=
  { run with
    shared := { run.shared with cancelled := run.cancelled || cancelled }
    journal := run.journal ++ event ::
      if cancelled && !run.cancelled then [.request] else [] }

/-- The run after a marker, an editor or an edit was called. -/
def called (event : Event) (shared : Shared σ) (run : Run σ π) : Run σ π :=
  let run := run.note event shared.cancelled
  { run with shared := { run.shared with memory := shared.memory } }

/-- The run after a plugin was called. -/
def watched (event : Event) (shared : Shared π) (run : Run σ π) : Run σ π :=
  { run.note event shared.cancelled with watch := shared.memory }

/-- The run after the editor of a stage gave diagnostics. -/
def emit (stage : Nat) (diagnostics : List Diagnostic) (run : Run σ π) : Run σ π :=
  { run with journal := run.journal ++ diagnostics.map (.emit stage) }

/-- The stages as the outcome lists them. -/
def stageInfos (run : Run σ π) : List StageInfo :=
  run.stages.mapIdx fun index stage =>
    { name := stage.name
      marker := stage.origin
      edits := run.chain.countP fun link => link.stage = index }

/-- The diagnostics of all stages, stage by stage. -/
def diagnostics (run : Run σ π) : List Diagnostic :=
  run.stages.flatMap fun stage => stage.outbox.diagnostics

/-- The stages and diagnostics of the run so far. -/
def findings (run : Run σ π) : Findings := ⟨run.stageInfos, run.diagnostics⟩

/-! ## Phases -/

/-- Tells the plugins, counted from `index`, that the run enters a phase. -/
def announce (phase : Phase) : Nat → List (Plugin π) → Run σ π → Run σ π
  | _, [], run => run
  | index, plugin :: rest, run =>
    announce phase (index + 1) rest
      (run.watched (.phase index phase) (plugin.onPhase phase run.watching))

/-! ## Collecting -/

/-- Looks whether cancellation has been requested. -/
def poll (run : Run σ π) : Run σ π := run.note (.poll run.cancelled) run.cancelled

/-- Asks the markers, counted from `index`, for their editors.  The first marker
that fails ends the run; its failure is never a cancellation. -/
def discover : Nat → List (Marker σ) → Run σ π →
    Except PipelineError (List (MarkerOrigin × Editor σ)) × Run σ π
  | _, [], run => (.ok [], run)
  | index, marker :: rest, run =>
    let origin : MarkerOrigin := ⟨index, marker.kind⟩
    match marker.editors run.sharing with
    | (.error source, shared) =>
      (.error (.stageInitialization origin none source),
        run.called (.discover index (some source)) shared)
    | (.ok editors, shared) =>
      match discover (index + 1) rest (run.called (.discover index none) shared) with
      | (.error error, run) => (.error error, run)
      | (.ok more, run) => (.ok (editors.map (origin, ·) ++ more), run)

/-- The run with a new stage, made by the initialization of its editor. -/
def enroll (origin : MarkerOrigin) (name : String) (program : Program) (setup : Setup σ)
    (run : Run σ π) : Run σ π :=
  let index := run.stages.length
  let outbox : Outbox := { stage := name }
  let event : Event := .setUp index name program (Failure.of? setup.result)
  { (run.called event setup.shared).emit index setup.emitted with
    stages := run.stages ++ [⟨origin, outbox.pushAll setup.emitted⟩]
    chain := run.chain ++ setup.edits.map (Link.mk index) }

/-- Why a run ends whose editor failed to initialize. -/
def setupError (origin : MarkerOrigin) (name : String) (failure : Failure) : PipelineError :=
  if failure.isCancelled then .cancelled
  else .stageInitialization origin (some name) failure

/-- Initializes editors one after the other, looking for cancellation before each
of them. -/
def setUpAll (program : Program) : List (MarkerOrigin × Editor σ) → Run σ π →
    Except PipelineError Unit × Run σ π
  | [], run => (.ok (), run)
  | (origin, editor) :: rest, run =>
    if run.cancelled then (.error .cancelled, run.poll)
    else
      let setup := editor.setUp program run.poll.sharing
      let run := run.poll.enroll origin editor.name program setup
      match setup.result with
      | .error failure => (.error (setupError origin editor.name failure), run)
      | .ok () => setUpAll program rest run

/-- Discovers and initializes the editors of all markers. -/
def collect (program : Program) (markers : List (Marker σ)) (run : Run σ π) :
    Except PipelineError Unit × Run σ π :=
  if run.cancelled then (.error .cancelled, run.poll)
  else
    match discover 0 markers run.poll with
    | (.error error, run) => (.error error, run)
    | (.ok editors, run) => setUpAll program editors run

/-! ## Executing -/

/-- Calls a hook of the plugins, counted from `index`, until one fails. -/
def callHooks (hook : Plugin π → Hook π) (event : Nat → Option Failure → Event)
    (info : EditInfo) (program : Program) :
    Nat → List (Plugin π) → Run σ π → Except Failure Unit × Run σ π
  | _, [], run => (.ok (), run)
  | index, plugin :: rest, run =>
    match hook plugin info program run.watching with
    | (.error failure, shared) =>
      (.error failure, run.watched (event index (some failure)) shared)
    | (.ok (), shared) =>
      callHooks hook event info program (index + 1) rest
        (run.watched (event index none) shared)

/-- The outbox of a stage. -/
def outbox (run : Run σ π) (stage : Nat) : Outbox :=
  match run.stages[stage]? with
  | some stage => stage.outbox
  | none => { stage := "" }

/-- The run after an edit of a stage was called. -/
def absorb (stage index : Nat) (program : Program) (reply : Reply σ) (run : Run σ π) :
    Run σ π :=
  { (run.called (.edit index program reply.result) reply.shared).emit stage reply.emitted with
    stages := run.stages.modify stage fun stage =>
      { stage with outbox := stage.outbox.pushAll reply.emitted } }

/-- Why a run ends whose edit failed. -/
def editError (info : EditInfo) (failure : Failure) : PipelineError :=
  if failure.isCancelled then .cancelled
  else .editFailure info.stage info.index failure

/-- Applies one edit, with the hooks of all plugins around it.  The failure of
a hook is always one of the edit, even if it is a cancellation. -/
def applyLink (plugins : List (Plugin π)) (index : Nat) (link : Link σ) (program : Program)
    (run : Run σ π) : Except PipelineError Program × Run σ π :=
  let info : EditInfo := ⟨index, (run.outbox link.stage).stage⟩
  match callHooks Plugin.beforeEdit (.before · info program ·) info program 0 plugins run with
  | (.error failure, run) => (.error (.editFailure info.stage index failure), run)
  | (.ok (), run) =>
    let reply := link.edit program (run.outbox link.stage) run.sharing
    let run := run.absorb link.stage index program reply
    match reply.result with
    | .error failure => (.error (editError info failure), run)
    | .ok next =>
      match callHooks Plugin.afterEdit (.after · info next ·) info next 0 plugins run with
      | (.error failure, run) => (.error (.editFailure info.stage index failure), run)
      | (.ok (), run) => (.ok next, run)

/-- Applies edits, counted from `index`, one after the other, looking for
cancellation before each of them. -/
def execute (plugins : List (Plugin π)) : Nat → List (Link σ) → Program → Run σ π →
    Except PipelineError Program × Run σ π
  | _, [], program, run => (.ok program, run)
  | index, link :: rest, program, run =>
    if run.cancelled then (.error .cancelled, run.poll)
    else
      match applyLink plugins index link program run.poll with
      | (.error error, run) => (.error error, run)
      | (.ok next, run) => execute plugins (index + 1) rest next run

/-- The run once it has ended. -/
def finish {α : Type} (plugins : List (Plugin π)) (outcome : Findings → α) (run : Run σ π) :
    Ended σ π α :=
  let run := run.announce .done 0 plugins
  { outcome := outcome run.findings, shared := run.sharing, watch := run.watch,
    journal := run.journal }

end Run

namespace Pipeline

variable {σ π : Type}

/-- A run that has just entered the collecting phase. -/
def start (pipeline : Pipeline π) (shared : Shared σ) (watch : π)
    (stopAt : Option Nat := none) : Run σ π :=
  ({ shared, watch, stopAt } : Run σ π).announce .collecting 0 pipeline.plugins

/-- Runs the pipeline over a program. -/
def run (pipeline : Pipeline π) (program : Program) (markers : List (Marker σ))
    (shared : Shared σ) (watch : π) (stopAt : Option Nat := none) : Ended σ π Outcome :=
  match (pipeline.start shared watch stopAt).collect program markers with
  | (.error error, run) => run.finish pipeline.plugins (.aborted error)
  | (.ok (), run) =>
    let run := run.announce .executing 0 pipeline.plugins
    match run.execute pipeline.plugins 0 run.chain program with
    | (.error error, run) => run.finish pipeline.plugins (.aborted error)
    | (.ok next, run) => run.finish pipeline.plugins (.completed next)

/-- Discovers and initializes editors without applying any edit.  Gives what
was found, and the error if collecting failed. -/
def collect (pipeline : Pipeline π) (program : Program) (markers : List (Marker σ))
    (shared : Shared σ) (watch : π) (stopAt : Option Nat := none) :
    Ended σ π (Option PipelineError × Findings) :=
  match (pipeline.start shared watch stopAt).collect program markers with
  | (.error error, run) => run.finish pipeline.plugins (some error, ·)
  | (.ok (), run) => run.finish pipeline.plugins (none, ·)

end Pipeline

end EditPipeline
