import EditPipeline.Proofs.Run.Collecting
import EditPipeline.Proofs.Run.Executing

/-!
# How a run ends

A run ends in the collecting phase, in the executing phase, or by completing.
`ends` says so in terms of the two phases; every statement about whole runs
starts from it.
-/

namespace EditPipeline

variable {σ π : Type}

/-! ## A run that has ended -/

/-- The program that a run gives, or the error. -/
def Outcome.result : Outcome → Except PipelineError Program
  | .completed program _ => .ok program
  | .aborted error _ => .error error

/-- What the run did, in the order of time. -/
def Ended.acts {α : Type} (ended : Ended σ π α) : Journal := ended.journal.filter Event.isAct

theorem Ended.mem_acts {α : Type} {ended : Ended σ π α} {event : Event} :
    event ∈ ended.acts ↔ event ∈ ended.journal ∧ event.isAct = true := List.mem_filter

/-- A part of the acts can be read off the journal. -/
theorem Ended.filter_acts {α : Type} {keep : Event → Bool}
    (hkeep : ∀ event, keep event = true → event.isAct = true) (ended : Ended σ π α) :
    ended.acts.filter keep = ended.journal.filter keep := by
  rw [acts, List.filter_filter]
  refine List.filter_congr fun event _ => ?_
  cases hkept : keep event with
  | false => rfl
  | true => simpa using hkeep event hkept

namespace Run

variable {α : Type} (plugins : List (Plugin π)) (outcome : Findings → α) (run : Run σ π)

@[simp] theorem outcome_finish : (run.finish plugins outcome).outcome = outcome run.findings := by
  simp [finish, findings, stageInfos, diagnostics]

@[simp] theorem acts_finish :
    (run.finish plugins outcome).acts = run.acts ++ numbered (.phase · .done) 0 plugins.length :=
  acts_announce .done 0 plugins run

@[simp] theorem memory_finish :
    (run.finish plugins outcome).shared.memory = run.shared.memory :=
  memory_announce .done 0 plugins run

/-- The run once it has executed its chain with this result. -/
def conclude (plugins : List (Plugin π)) (result : Except PipelineError Program)
    (run : Run σ π) : Ended σ π Outcome :=
  match result with
  | .error error => run.finish plugins (.aborted error)
  | .ok final => run.finish plugins (.completed final)

theorem journal_conclude (plugins : List (Plugin π)) (result : Except PipelineError Program)
    (run : Run σ π) :
    (run.conclude plugins result).journal = (run.announce .done 0 plugins).journal := by
  cases result <;> rfl

theorem findings_conclude (plugins : List (Plugin π)) (result : Except PipelineError Program)
    (run : Run σ π) : (run.conclude plugins result).outcome.findings = run.findings := by
  cases result <;> simp [conclude, Outcome.findings]

theorem outcome_conclude (plugins : List (Plugin π)) (error : PipelineError) (run : Run σ π) :
    (run.conclude plugins (.error error)).outcome = .aborted error run.findings := by
  simp [conclude]

end Run

namespace Pipeline

variable (pipeline : Pipeline π) (shared : Shared σ) (watch : π) (stopAt : Option Nat)

@[simp] theorem acts_start :
    (pipeline.start shared watch stopAt).acts =
      numbered (.phase · .collecting) 0 pipeline.plugins.length := by
  rw [start, Run.acts_announce]
  rfl

@[simp] theorem stages_start : (pipeline.start shared watch stopAt).stages = [] := by
  simp [start]

@[simp] theorem chain_start : (pipeline.start shared watch stopAt).chain = [] := by
  simp [start]

@[simp] theorem memory_start :
    (pipeline.start shared watch stopAt).shared.memory = shared.memory := by
  simp [start]

section Collected

variable {pipeline : Pipeline π} {shared : Shared σ} {watch : π} {stopAt : Option Nat}
  {program : Program} {asked : List (Asking σ)} {joined : List (Joining σ)}
  {between after : Run σ π}

/-- What a run has done once markers were asked and editors initialized. -/
theorem acts_collected
    (hasks : Run.Asks 0 (pipeline.start shared watch stopAt).poll asked between)
    (hjoins : Run.Joins program between joined after) :
    after.acts = numbered (.phase · .collecting) 0 pipeline.plugins.length ++
      .poll (pipeline.start shared watch stopAt).cancelled ::
        (numbered (.discover · none) 0 asked.length ++ joinActs 0 joined) := by
  have hstages : between.stages = [] := by simpa using hasks.stages
  rw [hjoins.acts, hasks.acts, hstages]
  simp

/-- The names of the stages tell who registered the edits. -/
theorem owners_collected
    (hasks : Run.Asks 0 (pipeline.start shared watch stopAt).poll asked between)
    (hjoins : Run.Joins program between joined after) :
    after.chain.map (fun link => (after.names.getD link.stage "", link.edit)) =
      registered joined := by
  refine hjoins.owners ?_ ?_
  · simpa using hasks.stages
  · simpa using hasks.chain

theorem memory_collected
    (hasks : Run.Asks 0 (pipeline.start shared watch stopAt).poll asked between)
    (hjoins : Run.Joins program between joined after) :
    Relay shared.memory (asked.map Asking.memories ++ joined.map Joining.memories)
      after.shared.memory := by
  have hmemory := hasks.memory.append hjoins.memory
  simpa using hmemory

end Collected

/-- A run that has collected with success goes on to execute its chain. -/
theorem run_conclude (pipeline : Pipeline π) (program : Program) (markers : List (Marker σ))
    (shared : Shared σ) (watch : π) (stopAt : Option Nat) {run : Run σ π}
    (hcollected : (pipeline.start shared watch stopAt).collect program markers = (.ok (), run)) :
    pipeline.run program markers shared watch stopAt =
      (((run.announce .executing 0 pipeline.plugins).execute pipeline.plugins 0 run.chain
        program).2.conclude pipeline.plugins
          ((run.announce .executing 0 pipeline.plugins).execute pipeline.plugins 0 run.chain
            program).1) := by
  unfold Pipeline.run
  rw [hcollected]
  dsimp only
  rw [Run.chain_announce]
  generalize Run.execute pipeline.plugins 0 run.chain program _ = ended
  obtain ⟨result, after⟩ := ended
  cases result <;> rfl

/-- How a run can end that entered the collecting phase as `start`. -/
inductive Ends (pipeline : Pipeline π) (program : Program) (markers : List (Marker σ))
    (start : Run σ π) : Ended σ π Outcome → Prop where
  | collecting {error : PipelineError} {after : Run σ π}
      (hcollects : start.Collects program markers (.error error) after) :
      Ends pipeline program markers start (after.finish pipeline.plugins (.aborted error))
  | executing {collected after : Run σ π} {error : PipelineError}
      (hcollects : start.Collects program markers (.ok ()) collected)
      (hexecutes : (collected.announce .executing 0 pipeline.plugins).Executes pipeline.plugins 0
        collected.chain program (.error error) after) :
      Ends pipeline program markers start (after.finish pipeline.plugins (.aborted error))
  | completed {collected after : Run σ π} {final : Program}
      (hcollects : start.Collects program markers (.ok ()) collected)
      (hexecutes : (collected.announce .executing 0 pipeline.plugins).Executes pipeline.plugins 0
        collected.chain program (.ok final) after) :
      Ends pipeline program markers start (after.finish pipeline.plugins (.completed final))

theorem ends (pipeline : Pipeline π) (program : Program) (markers : List (Marker σ))
    (shared : Shared σ) (watch : π) (stopAt : Option Nat) :
    Ends pipeline program markers (pipeline.start shared watch stopAt)
      (pipeline.run program markers shared watch stopAt) := by
  unfold run
  have hcollects := Run.collects program markers (pipeline.start shared watch stopAt)
  generalize (pipeline.start shared watch stopAt).collect program markers = ended at hcollects ⊢
  obtain ⟨result, collected⟩ := ended
  cases result with
  | error error => exact .collecting hcollects
  | ok done =>
      dsimp only
      have hchain : (collected.announce .executing 0 pipeline.plugins).chain = collected.chain :=
        Run.chain_announce .executing 0 pipeline.plugins collected
      rw [hchain]
      have hexecutes := Run.executes pipeline.plugins 0 collected.chain program
        (collected.announce .executing 0 pipeline.plugins)
      generalize Run.execute pipeline.plugins 0 collected.chain program _ = ended at hexecutes ⊢
      obtain ⟨result, after⟩ := ended
      cases result with
      | error error => exact .executing hcollects hexecutes
      | ok final => exact .completed hcollects hexecutes

end Pipeline

end EditPipeline
