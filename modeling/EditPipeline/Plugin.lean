import EditPipeline.Editor

/-!
# Plugins

A plugin watches a run: it hears of every phase that the run enters, and of every
edit before and after it is applied.  A plugin cannot change a program, but it
may request cancellation, and a hook around an edit may fail.
-/

namespace EditPipeline

/-- The phases of a run. -/
inductive Phase where
  /-- Editors are discovered and register their edits. -/
  | collecting
  /-- The edits are applied. -/
  | executing
  /-- The run has ended, however it did. -/
  | done
deriving DecidableEq, Repr, Inhabited

/-- The word for a phase. -/
def Phase.word : Phase → String
  | .collecting => "collecting"
  | .executing => "executing"
  | .done => "done"

/-- Which edit a hook is called for. -/
structure EditInfo where
  /-- The place of the edit in the chain. -/
  index : Nat
  /-- The name of the editor that registered it. -/
  stage : String
deriving DecidableEq, Repr, Inhabited

/-- A hook around an edit.  Plugins have a memory of their own, of type `π`. -/
abbrev Hook (π : Type) :=
  EditInfo → Program → Shared π → Except Failure Unit × Shared π

/-- A watcher of runs. -/
structure Plugin (π : Type) where
  /-- Hears that the run has entered a phase. -/
  onPhase : Phase → Shared π → Shared π := fun _ shared => shared
  /-- Hears of an edit and the program that it is about to get. -/
  beforeEdit : Hook π := fun _ _ shared => (.ok (), shared)
  /-- Hears of an edit and the program that it gave. -/
  afterEdit : Hook π := fun _ _ shared => (.ok (), shared)

namespace Plugin

variable {π α : Type}

/-- A plugin that does nothing. -/
def quiet : Plugin π := {}

/-- Lets `act` work on a part of the memory. -/
def onPart (get : π → α) (set : α → π → π) {β : Type} (act : Shared α → β × Shared α)
    (shared : Shared π) : β × Shared π :=
  let (b, part) := act ⟨shared.cancelled, get shared.memory⟩
  (b, ⟨part.cancelled, set part.memory shared.memory⟩)

/-- A plugin whose memory is a part of a greater one. -/
def onMemory (get : π → α) (set : α → π → π) (plugin : Plugin α) : Plugin π where
  onPhase phase shared :=
    (onPart get set (fun part => ((), plugin.onPhase phase part)) shared).2
  beforeEdit info program := onPart get set (plugin.beforeEdit info program)
  afterEdit info program := onPart get set (plugin.afterEdit info program)

end Plugin

end EditPipeline
