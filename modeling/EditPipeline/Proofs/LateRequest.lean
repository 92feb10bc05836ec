import EditPipeline.Proofs.Run.Looks

/-!
# Requests that come late in the collecting phase

Cancellation that was requested by the end of the collecting phase keeps every edit
from being called.  It does not always show: a request that comes after the look at
the last editor leaves the phase to succeed.  Then the executing phase is announced
all the same, and only the look before the first edit can see the request.  A run
without edits has no such look and completes.
-/

namespace EditPipeline

variable {σ π : Type}

/-- Whether an event is a call of an edit or of a hook around it. -/
@[simp] def Event.isEditing : Event → Bool
  | .before .. => true
  | .edit .. => true
  | .after .. => true
  | _ => false

/-- Whether an event belongs to the executing phase. -/
@[simp] def Event.isExecuting : Event → Bool
  | .phase _ entered => entered = .executing
  | event => event.isEditing

theorem Event.not_editing {event : Event} (hexecuting : event.isExecuting = false) :
    event.isEditing = false := by
  cases event <;> simp_all

theorem Event.isAct_of_isEditing (event : Event) (hediting : event.isEditing = true) :
    event.isAct = true := by
  cases event <;> simp_all

theorem Event.isAct_of_isExecuting (event : Event) (hexecuting : event.isExecuting = true) :
    event.isAct = true := by
  cases event <;> simp_all

/-! ## What collecting does not do -/

private theorem early_joinActs (start : Nat) (joined : List (Joining σ)) :
    ∀ event ∈ joinActs start joined, event.isExecuting = false := by
  intro event hevent
  obtain ⟨⟨joining, index⟩, -, hevent⟩ := List.mem_flatMap.1 hevent
  simp only [Joining.acts, List.mem_cons, List.not_mem_nil, or_false] at hevent
  rcases hevent with rfl | rfl <;> rfl

/-- Nothing of the executing phase happens while collecting. -/
theorem Run.Collects.early {program : Program} {markers : List (Marker σ)}
    {run after : Run σ π} {result : Except PipelineError Unit}
    (hcollects : run.Collects program markers result after)
    (hrun : ∀ event ∈ run.acts, event.isExecuting = false) :
    ∀ event ∈ after.acts, event.isExecuting = false := by
  have hpoll {run : Run σ π} (hrun : ∀ event ∈ run.acts, event.isExecuting = false) :
      ∀ event ∈ run.poll.acts, event.isExecuting = false := by
    rw [acts_poll]
    exact List.forall_mem_append.2 ⟨hrun, by simp⟩
  have hasked {asked : List (Asking σ)} {between : Run σ π}
      (hasks : Asks 0 run.poll asked between) :
      ∀ event ∈ between.acts, event.isExecuting = false := by
    rw [hasks.acts]
    exact List.forall_mem_append.2 ⟨hpoll hrun, forall_mem_numbered fun _ => by rfl⟩
  have hjoined {joined : List (Joining σ)} {asked : List (Asking σ)} {between before : Run σ π}
      (hasks : Asks 0 run.poll asked between) (hjoins : Joins program between joined before) :
      ∀ event ∈ before.acts, event.isExecuting = false := by
    rw [hjoins.acts]
    exact List.forall_mem_append.2 ⟨hasked hasks, early_joinActs _ joined⟩
  cases hcollects with
  | stopped hstops => exact hpoll hrun
  | refused hgoes hmarkers hasks hfails =>
      rw [acts_called]
      exact List.forall_mem_append.2 ⟨hasked hasks, by simp⟩
  | cut hgoes hmarkers hasks hroster hjoins hstops => exact hpoll (hjoined hasks hjoins)
  | failed hgoes hmarkers hasks hroster hjoins hbefore hfails =>
      rw [acts_enroll]
      exact List.forall_mem_append.2 ⟨hpoll (hjoined hasks hjoins), by simp⟩
  | done hgoes hmarkers hasks hroster hjoins => exact hjoined hasks hjoins

/-! ## What a run does after a request -/

section Late

variable {pipeline : Pipeline π} {program : Program} {markers : List (Marker σ)}
  {shared : Shared σ} {watch : π} {stopAt : Option Nat} {collected : Run σ π}

/-- A request that the collecting phase did not see is seen only if there is an edit. -/
theorem Pipeline.run_of_late
    (hcollect : (pipeline.start shared watch stopAt).collect program markers = (.ok (), collected))
    (hcancelled : collected.cancelled = true) :
    pipeline.run program markers shared watch stopAt =
      if collected.chain = [] then
        (collected.announce .executing 0 pipeline.plugins).finish pipeline.plugins
          (.completed program)
      else
        (collected.announce .executing 0 pipeline.plugins).poll.finish pipeline.plugins
          (.aborted .cancelled) := by
  have hannounced : (collected.announce .executing 0 pipeline.plugins).cancelled = true := by
    obtain ⟨acts, hmoves, -⟩ := (Run.Covers.refl pipeline.plugins collected).announce .executing
    exact hmoves.cancelled hcancelled
  unfold Pipeline.run
  rw [hcollect]
  dsimp only
  rw [Run.chain_announce]
  cases hchain : collected.chain with
  | nil => simp [Run.execute]
  | cons link rest => simp [Run.execute, hannounced]

/-- Collecting succeeds if no look saw a request and no call failed. -/
theorem goesOn_iff_of_collects {result : Except PipelineError Unit}
    (hcollects : (pipeline.start shared watch stopAt).Collects program markers result collected) :
    result = .ok () ↔ ∀ event ∈ collected.journal, event.isLast = false := by
  obtain ⟨told, hacts, hverdict⟩ := hcollects.leads
  rw [Pipeline.acts_start] at hacts
  constructor
  · rintro rfl
    cases hverdict with
    | goesOn hsmooth =>
        have hgoesOn : ∀ event ∈ collected.acts, event.isLast = false := by
          rw [hacts]
          exact List.forall_mem_append.2 ⟨forall_mem_numbered fun _ => by rfl, hsmooth.goesOn⟩
        exact none_of_acts Event.isAct_of_isLast hgoesOn
  · intro hgoesOn
    cases hverdict with
    | goesOn hsmooth => rfl
    | @ends told last error hlooked htold hlast hcause =>
        have hmem : last ∈ collected.acts := by simp [hacts]
        have hno : last.isLast = false := hgoesOn last (Run.mem_acts.1 hmem).1
        exact absurd (hno.symm.trans hlast) Bool.false_ne_true

/-- A run that ends while collecting has nothing of the executing phase. -/
private theorem early_finish (plugins : List (Plugin π)) (outcome : Findings → Outcome)
    (hearly : ∀ event ∈ collected.acts, event.isExecuting = false) :
    ∀ event ∈ (collected.finish plugins outcome).journal, event.isExecuting = false := by
  have hfinish : ∀ event ∈ (collected.finish plugins outcome).acts, event.isExecuting = false := by
    rw [Run.acts_finish]
    exact List.forall_mem_append.2 ⟨hearly, forall_mem_numbered fun _ => by rfl⟩
  exact none_of_acts Event.isAct_of_isExecuting hfinish

/-- A run that has announced the executing phase and only looked since. -/
private theorem executing_announced {late : Run σ π} {looks : Journal}
    (plugins : List (Plugin π)) (outcome : Findings → Outcome)
    (hearly : ∀ event ∈ collected.acts, event.isExecuting = false)
    (hlate : late.acts =
      collected.acts ++ numbered (.phase · .executing) 0 plugins.length ++ looks)
    (hlooks : ∀ event ∈ looks, event.isExecuting = false) :
    (∀ event ∈ (late.finish plugins outcome).journal, event.isEditing = false) ∧
    ((∃ plugin, .phase plugin .executing ∈ (late.finish plugins outcome).journal) ↔
      plugins ≠ []) := by
  have hacts := Run.acts_finish plugins outcome late
  rw [hlate] at hacts
  constructor
  · have hediting : ∀ event ∈ (late.finish plugins outcome).acts, event.isEditing = false := by
      rw [hacts]
      simp only [List.forall_mem_append]
      exact ⟨⟨⟨fun event hevent => Event.not_editing (hearly event hevent),
        forall_mem_numbered fun _ => by rfl⟩,
        fun event hevent => Event.not_editing (hlooks event hevent)⟩,
        forall_mem_numbered fun _ => by rfl⟩
    exact none_of_acts Event.isAct_of_isEditing hediting
  · constructor
    · rintro ⟨plugin, hphase⟩ rfl
      have hmem : .phase plugin .executing ∈ (late.finish [] outcome).acts :=
        Ended.mem_acts.2 ⟨hphase, rfl⟩
      -- without plugins the announcement is empty, and neither part around it has the phase
      have hno {events : Journal} (hevents : ∀ event ∈ events, event.isExecuting = false)
          (hmem : .phase plugin .executing ∈ events) : False := by
        simpa using hevents _ hmem
      simp only [hacts, List.length_nil, numbered_zero, List.append_nil, List.mem_append] at hmem
      exact hmem.elim (hno hearly) (hno hlooks)
    · intro hplugins
      have hpos : 0 < plugins.length := List.length_pos_iff.2 hplugins
      refine ⟨0, (Ended.mem_acts.1 ?_).1⟩
      rw [hacts]
      simp [hpos]

/-! ## Main statement -/

/-- **A request while collecting is seen unless it comes late.**  No edit is called
after it, but the run counts as cancelled only if collecting ended with the
cancellation or there is an edit to look before; the executing phase is announced
whenever collecting succeeded; and it succeeds whenever no look saw the request and
no call failed. -/
theorem request_while_collecting {result : Except PipelineError Unit}
    (hcollect : (pipeline.start shared watch stopAt).collect program markers = (result, collected))
    (hrequested : Requested shared.cancelled stopAt collected.journal) :
    (∀ event ∈ (pipeline.run program markers shared watch stopAt).journal,
      event.isEditing = false) ∧
    ((pipeline.run program markers shared watch stopAt).outcome.isCancellation = true ↔
      result = .error .cancelled ∨ result = .ok () ∧ collected.chain ≠ []) ∧
    ((∃ plugin, .phase plugin .executing ∈
        (pipeline.run program markers shared watch stopAt).journal) ↔
      result = .ok () ∧ pipeline.plugins ≠ []) ∧
    ((pipeline.run program markers shared watch stopAt).outcome.isCompleted = true ↔
      result = .ok () ∧ collected.chain = []) ∧
    (result = .ok () ↔ ∀ event ∈ collected.journal, event.isLast = false) := by
  have hcollects := Run.collects program markers (pipeline.start shared watch stopAt)
  rw [hcollect] at hcollects
  have hcancelled : collected.cancelled = true := by
    obtain ⟨extent, looks, -, -, -, -, hcovers⟩ :=
      hcollects.covers pipeline.plugins (pipeline.stages_start shared watch stopAt)
    obtain ⟨acts, hmoves, -⟩ := pipeline.covers_of_poll hcovers
    exact (hmoves.aware (Run.aware_fresh shared watch stopAt)).knows.2 hrequested
  have hearly : ∀ event ∈ collected.acts, event.isExecuting = false := by
    refine hcollects.early ?_
    rw [Pipeline.acts_start]
    exact forall_mem_numbered fun _ => by rfl
  cases result with
  | error error =>
      have hrun : pipeline.run program markers shared watch stopAt =
          collected.finish pipeline.plugins (.aborted error) := by
        unfold Pipeline.run
        rw [hcollect]
      have hquiet := early_finish pipeline.plugins (.aborted error) hearly
      rw [hrun, Run.outcome_finish]
      refine ⟨fun event hevent => Event.not_editing (hquiet event hevent), ?_, ?_, ?_,
        goesOn_iff_of_collects hcollects⟩
      · cases error <;> simp [Outcome.isCancellation, PipelineError.isCancellation]
      · constructor
        · rintro ⟨plugin, hphase⟩
          simpa using hquiet _ hphase
        · rintro ⟨hok, -⟩
          cases hok
      · simp [Outcome.isCompleted]
  | ok done =>
      -- the next look, if there is one, is the one before the first edit
      rw [Pipeline.run_of_late hcollect hcancelled]
      by_cases hchain : collected.chain = []
      · rw [if_pos hchain]
        have hlate := Run.acts_announce .executing 0 pipeline.plugins collected
        rw [← List.append_nil (numbered _ _ _), ← List.append_assoc] at hlate
        obtain ⟨hediting, hexecuting⟩ := executing_announced pipeline.plugins (.completed program)
          hearly hlate (by simp)
        refine ⟨hediting, ?_, by simpa using hexecuting, ?_, goesOn_iff_of_collects hcollects⟩
        · simp [Outcome.isCancellation, hchain]
        · simp [Outcome.isCompleted, hchain]
      · rw [if_neg hchain]
        have hlate := Run.acts_poll (collected.announce .executing 0 pipeline.plugins)
        rw [Run.acts_announce] at hlate
        obtain ⟨hediting, hexecuting⟩ := executing_announced pipeline.plugins (.aborted .cancelled)
          hearly hlate (by simp)
        refine ⟨hediting, ?_, by simpa using hexecuting, ?_, goesOn_iff_of_collects hcollects⟩
        · simp [Outcome.isCancellation, PipelineError.isCancellation, hchain]
        · simp [Outcome.isCompleted, hchain]

end Late

/-- A marker whose only editor requests cancellation and registers no edit. -/
def quitting : Marker Unit where
  kind := "quitting"
  editors shared := (.ok [{
    name := "a"
    setUp := fun _ shared =>
      { result := .ok (), emitted := [], edits := [], shared := shared.cancel } }], shared)

/-- The request comes after the look at the only editor, and the run completes. -/
theorem completed_of_quitting :
    (({ plugins := [.quiet] } : Pipeline Unit).run { name := "p" } [quitting] ⟨false, ()⟩
      ()).outcome.isCompleted = true ∧
    ∃ plugin, .phase plugin .executing ∈
      (({ plugins := [.quiet] } : Pipeline Unit).run { name := "p" } [quitting] ⟨false, ()⟩
        ()).journal := by
  let pipeline : Pipeline Unit := { plugins := [.quiet] }
  let collected := ((pipeline.start ⟨false, ()⟩ ()).collect { name := "p" } [quitting]).2
  have hcollect : (pipeline.start ⟨false, ()⟩ ()).collect { name := "p" } [quitting] =
      (.ok (), collected) := rfl
  have hjournal : collected.journal = [.phase 0 .collecting, .poll false, .discover 0 none,
      .poll false, .setUp 0 "a" { name := "p" } none, .request] := rfl
  have hrequested : Requested false none collected.journal := by
    refine .inr (.inr ?_)
    rw [hjournal]
    simp
  obtain ⟨-, -, hexecuting, hcompleted, -⟩ := request_while_collecting hcollect hrequested
  exact ⟨hcompleted.2 ⟨rfl, rfl⟩, hexecuting.2 ⟨rfl, List.cons_ne_nil _ _⟩⟩

end EditPipeline
