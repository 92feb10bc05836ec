import EditPipeline.Proofs.Run.Requests

/-!
# Looks for cancellation, and what ends a run

Two things hold of what a run does, whatever it calls.  Each editor and each edit
has a look for cancellation of its own before it, one that saw nothing.  And a run
goes on until a look sees a request or a call fails; that event ends it, and alone
decides whether the run counts as cancelled.
-/

namespace EditPipeline

variable {σ π : Type}

/-! ## Looks -/

/-- Whether an event is an initialization of an editor or a call of an edit. -/
@[simp] def Event.isStep : Event → Bool
  | .setUp .. => true
  | .edit .. => true
  | _ => false

/-- Whether an event is neither a look for cancellation nor such a step. -/
@[simp] def Event.isCalm : Event → Bool
  | .poll _ => false
  | .setUp .. => false
  | .edit .. => false
  | _ => true

/-- Whether a step may follow an event; `ready` says whether one could before. -/
def Event.leaves (ready : Bool) : Event → Bool
  | .poll seen => !seen
  | .setUp .. => false
  | .edit .. => false
  | _ => ready

theorem Event.leaves_of_isCalm {event : Event} (hcalm : event.isCalm = true) (ready : Bool) :
    event.leaves ready = ready := by
  cases event <;> simp_all [leaves]

theorem Event.isStep_of_isCalm {event : Event} (hcalm : event.isCalm = true) :
    event.isStep = false := by
  cases event <;> simp_all

/-- Each step follows a look for cancellation of its own; `ready` says whether
there has been one already. -/
def Looked : Bool → Journal → Prop
  | _, [] => True
  | ready, event :: rest =>
    (event.isStep = true → ready = true) ∧ Looked (event.leaves ready) rest

namespace Looked

variable {ready : Bool} {told more : Journal}

theorem mono (hlooked : Looked false told) : Looked ready told := by
  induction told with
  | nil => trivial
  | cons event rest ih =>
      -- a look or a step forgets whether one could follow, anything else passes it on
      refine ⟨fun hstep => absurd (hlooked.1 hstep) Bool.false_ne_true, ?_⟩
      cases event with
      | poll seen => exact hlooked.2
      | setUp stage name program failure => exact hlooked.2
      | edit index program result => exact hlooked.2
      | _ => exact ih hlooked.2

theorem append (htold : Looked ready told) (hmore : Looked false more) :
    Looked ready (told ++ more) := by
  induction told generalizing ready with
  | nil => exact hmore.mono
  | cons event rest ih => exact ⟨htold.1, ih htold.2⟩

/-- What is calm needs no look, and uses none up. -/
theorem calm_append (hcalm : ∀ event ∈ told, event.isCalm = true) (hmore : Looked ready more) :
    Looked ready (told ++ more) := by
  induction told with
  | nil => exact hmore
  | cons event rest ih =>
      have hevent : event.isCalm = true := hcalm event List.mem_cons_self
      refine ⟨fun hstep => ?_, ?_⟩
      · rw [Event.isStep_of_isCalm hevent] at hstep
        cases hstep
      · rw [Event.leaves_of_isCalm hevent]
        exact ih fun other hother => hcalm other (List.mem_cons_of_mem event hother)

theorem calm (hcalm : ∀ event ∈ told, event.isCalm = true) : Looked ready told := by
  have hlooked : Looked ready (told ++ []) := calm_append hcalm trivial
  rwa [List.append_nil] at hlooked

/-- Diagnostics and requests in between change nothing. -/
theorem of_filter (hlooked : Looked ready (told.filter Event.isAct)) : Looked ready told := by
  induction told generalizing ready with
  | nil => trivial
  | cons event rest ih =>
      cases hact : event.isAct with
      | true =>
          rw [List.filter_cons_of_pos hact] at hlooked
          exact ⟨hlooked.1, ih hlooked.2⟩
      | false =>
          rw [List.filter_cons_of_neg (Bool.not_eq_true _ ▸ hact)] at hlooked
          have hcalm : event.isCalm = true := by cases event <;> simp_all
          exact calm_append (List.forall_mem_singleton.2 hcalm) (ih hlooked)

/-- The look of a step is the last one before it, and no other step is in between. -/
theorem look_before {before after : Journal} {event : Event}
    (hlooked : Looked ready (before ++ event :: after)) (hstep : event.isStep = true) :
    (∃ early late, before = early ++ .poll false :: late ∧
      ∀ other ∈ late, other.isCalm = true) ∨
    ready = true ∧ ∀ other ∈ before, other.isCalm = true := by
  induction before generalizing ready with
  | nil => exact .inr ⟨hlooked.1 hstep, by simp⟩
  | cons first rest ih =>
      -- either the look is further on, or the first event is it
      rcases ih hlooked.2 with ⟨early, late, rfl, hlate⟩ | ⟨hready, hrest⟩
      · exact .inl ⟨first :: early, late, rfl, hlate⟩
      · cases first with
        | poll seen =>
            obtain rfl : seen = false := by simpa [Event.leaves] using hready
            exact .inl ⟨[], rest, rfl, hrest⟩
        | setUp stage name program failure => cases hready
        | edit index program result => cases hready
        | _ => exact .inr ⟨hready, by simpa using hrest⟩

end Looked

/-! ## Endings -/

/-- Why the call that an event notes failed, if it did. -/
@[simp] def Event.failure? : Event → Option Failure
  | .discover _ failure => failure
  | .setUp _ _ _ failure => failure
  | .before _ _ _ failure => failure
  | .edit _ _ result => Failure.of? result
  | .after _ _ _ failure => failure
  | _ => none

/-- Whether a run ends after an event: a look that saw a request, or a call that failed. -/
@[simp] def Event.isLast : Event → Bool
  | .poll seen => seen
  | event => event.failure?.isSome

/-- Whether a run that ends after an event counts as cancelled. -/
@[simp] def Event.cancels : Event → Bool
  | .poll seen => seen
  | .setUp _ _ _ (some failure) => failure.isCancelled
  | .edit _ _ (.error failure) => failure.isCancelled
  | _ => false

theorem Event.isAct_of_isLast (event : Event) (hlast : event.isLast = true) :
    event.isAct = true := by
  cases event <;> simp_all

theorem Event.isLast_of_cancels (event : Event) (hcancels : event.cancels = true) :
    event.isLast = true := by
  cases event with
  | setUp stage name program failure => cases failure <;> simp_all
  | edit index program result => cases result <;> simp_all
  | _ => simp_all

theorem Event.isLast_of_failure (event : Event) {failure : Failure}
    (hfailure : event.failure? = some failure) : event.isLast = true := by
  cases event <;> simp_all

/-- A part of a run after which it goes on. -/
structure Smooth (told : Journal) : Prop where
  looked : Looked false told
  goesOn : ∀ event ∈ told, event.isLast = false

namespace Smooth

variable {told more : Journal}

theorem nil : Smooth [] := ⟨trivial, by simp⟩

theorem append (htold : Smooth told) (hmore : Smooth more) : Smooth (told ++ more) where
  looked := htold.looked.append hmore.looked
  goesOn event hevent := by
    rcases List.mem_append.1 hevent with hevent | hevent
    · exact htold.goesOn event hevent
    · exact hmore.goesOn event hevent

end Smooth

/-- What a part of a run does fits to the result of that part. -/
inductive Verdict {α : Type} : Journal → Except PipelineError α → Prop where
  | goesOn {told : Journal} {value : α} (hsmooth : Smooth told) : Verdict told (.ok value)
  | ends {told : Journal} {last : Event} {error : PipelineError}
      (hlooked : Looked false (told ++ [last])) (hgoesOn : ∀ event ∈ told, event.isLast = false)
      (hlast : last.isLast = true) (hcause : error.isCancellation = last.cancels) :
      Verdict (told ++ [last]) (.error error)

theorem Verdict.after {α : Type} {first told : Journal} {result : Except PipelineError α}
    (hverdict : Verdict told result) (hfirst : Smooth first) : Verdict (first ++ told) result := by
  cases hverdict with
  | goesOn hsmooth => exact .goesOn (hfirst.append hsmooth)
  | ends hlooked hgoesOn hlast hcause =>
      rw [← List.append_assoc]
      refine .ends ?_ (fun event hevent => ?_) hlast hcause
      · rw [List.append_assoc]
        exact hfirst.looked.append hlooked
      · rcases List.mem_append.1 hevent with hevent | hevent
        · exact hfirst.goesOn event hevent
        · exact hgoesOn event hevent

theorem Verdict.looked {α : Type} {told : Journal} {result : Except PipelineError α}
    (hverdict : Verdict told result) : Looked false told := by
  cases hverdict with
  | goesOn hsmooth => exact hsmooth.looked
  | ends hlooked hgoesOn hlast hcause => exact hlooked

/-! ## The parts of a run -/

namespace Smooth

theorem numbered {event : Nat → Event} (hcalm : ∀ index, (event index).isCalm = true)
    (hgoesOn : ∀ index, (event index).isLast = false) (start count : Nat) :
    Smooth (numbered event start count) :=
  ⟨.calm (forall_mem_numbered hcalm), forall_mem_numbered hgoesOn⟩

theorem look : Smooth [.poll false] := ⟨⟨by simp, trivial⟩, by simp⟩

theorem joinActs (start : Nat) (joined : List (Joining σ)) : Smooth (joinActs start joined) := by
  induction joined generalizing start with
  | nil => exact .nil
  | cons joining rest ih =>
      have hacts : Smooth (joining.acts start) :=
        ⟨⟨by simp, fun _ => rfl, trivial⟩, by simp [Joining.acts]⟩
      exact hacts.append (ih (start + 1))

theorem passActs (count start : Nat) (passed : List (Passing σ)) :
    Smooth (passActs count start passed) := by
  induction passed generalizing start with
  | nil => exact .nil
  | cons passing rest ih =>
      have hacts : Smooth (passing.acts count start) := by
        refine ⟨⟨by simp, .calm_append (forall_mem_numbered fun _ => by rfl) ⟨fun _ => rfl,
          .calm (forall_mem_numbered fun _ => by rfl)⟩⟩, ?_⟩
        simp [Passing.acts, Passing.work, or_imp, forall_and]
      exact hacts.append (ih (start + 1))

end Smooth

namespace Run

/-- What the run does from `run` to `after` fits to `result`. -/
def Leads {α : Type} (run after : Run σ π) (result : Except PipelineError α) : Prop :=
  ∃ told, after.acts = run.acts ++ told ∧ Verdict told result

theorem Leads.trans {α β : Type} {run middle after : Run σ π} {value : α}
    {result : Except PipelineError β} (hfirst : Leads run middle (.ok value))
    (hrest : Leads middle after result) : Leads run after result := by
  obtain ⟨first, hfirst, hvalue⟩ := hfirst
  obtain ⟨told, htold, hverdict⟩ := hrest
  cases hvalue with
  | goesOn hsmooth => exact ⟨first ++ told, by simp [htold, hfirst], hverdict.after hsmooth⟩

/-- An error says nothing about what the run would have given. -/
theorem Leads.error {α β : Type} {run after : Run σ π} {error : PipelineError}
    (hleads : Leads run after (.error error : Except PipelineError α)) :
    Leads run after (.error error : Except PipelineError β) := by
  obtain ⟨told, hacts, hverdict⟩ := hleads
  cases hverdict with
  | ends hlooked hgoesOn hlast hcause => exact ⟨_, hacts, .ends hlooked hgoesOn hlast hcause⟩

/-! ## The collecting phase -/

theorem Asks.leads {index : Nat} {run after : Run σ π} {asked : List (Asking σ)}
    (hgoes : run.cancelled = false) (hasks : Asks index run.poll asked after) :
    Leads run after (.ok ()) := by
  refine ⟨.poll false :: numbered (.discover · none) index asked.length, ?_, .goesOn ?_⟩
  · simp [hasks.acts, hgoes]
  · exact Smooth.look.append (.numbered (fun _ => rfl) (fun _ => rfl) index asked.length)

theorem Joins.leads {program : Program} {run after : Run σ π} {joined : List (Joining σ)}
    (hjoins : Joins program run joined after) : Leads run after (.ok ()) :=
  ⟨_, hjoins.acts, .goesOn (.joinActs _ joined)⟩

theorem leads_stop {α : Type} {run : Run σ π} (hstops : run.cancelled = true) :
    Leads run run.poll (.error .cancelled : Except PipelineError α) := by
  refine ⟨[] ++ [.poll true], by simp [hstops], .ends ?_ (by simp) rfl rfl⟩
  exact ⟨by simp, trivial⟩

theorem isCancellation_setupError (origin : MarkerOrigin) (name : String) (failure : Failure) :
    (setupError origin name failure).isCancellation = failure.isCancelled := by
  unfold setupError
  cases failure.isCancelled <;> rfl

theorem Collects.leads {program : Program} {markers : List (Marker σ)} {run after : Run σ π}
    {result : Except PipelineError Unit} (hcollects : Collects program markers run result after) :
    Leads run after result := by
  cases hcollects with
  | stopped hstops => exact leads_stop hstops
  | @refused asked marker rest before source left hgoes hmarkers hasks hfails =>
      refine (hasks.leads hgoes).trans
        ⟨[] ++ [.discover asked.length (some source)], by simp, .ends ?_ (by simp) rfl rfl⟩
      exact ⟨by simp, trivial⟩
  | cut hgoes hmarkers hasks hroster hjoins hstops =>
      exact ((hasks.leads hgoes).trans hjoins.leads).trans (leads_stop hstops)
  | @failed asked joined origin editor rest between before failure hgoes hmarkers hasks hroster
      hjoins hjoined hfails =>
      refine ((hasks.leads hgoes).trans hjoins.leads).trans
        ⟨[.poll false] ++ [.setUp before.stages.length editor.name program (some failure)],
          ?_, .ends ?_ (by simp) rfl ?_⟩
      · simp [hjoined, hfails]
      · exact ⟨by simp, fun _ => rfl, trivial⟩
      · exact isCancellation_setupError origin editor.name failure
  | done hgoes hmarkers hasks hroster hjoins => exact (hasks.leads hgoes).trans hjoins.leads

/-! ## The executing phase -/

theorem FailingEdit.verdict {α : Type} {plugins : List (Plugin π)} {info : EditInfo}
    {edit : Edit σ} {program : Program} {memory : σ} {error : PipelineError} {failing : Journal}
    (hfailing : FailingEdit plugins info edit program memory error failing) :
    Verdict (.poll false :: failing) (.error error : Except PipelineError α) := by
  cases hfailing with
  | before hplugins hfails =>
      change Verdict (.poll false :: numbered _ 0 _ ++ [_]) _
      refine .ends ⟨by simp, .calm_append ?_ ⟨by simp, trivial⟩⟩ (by simp) rfl rfl
      exact forall_mem_numbered fun _ => by rfl
  | edit hstage hmemory hfails hcause =>
      change Verdict (.poll false :: numbered _ 0 _ ++ [_]) _
      refine .ends ⟨by simp, .calm_append ?_ ⟨fun _ => rfl, trivial⟩⟩ (by simp) rfl hcause.symm
      exact forall_mem_numbered fun _ => by rfl
  | cancelled hstage hmemory hfails hcause =>
      change Verdict (.poll false :: numbered _ 0 _ ++ [_]) _
      refine .ends ⟨by simp, .calm_append ?_ ⟨fun _ => rfl, trivial⟩⟩ (by simp) rfl hcause.symm
      exact forall_mem_numbered fun _ => by rfl
  | @after done rest plugin watched left outbox given next failure hstage hmemory hedit hplugins
      hfails =>
      -- the hook that fails is the last event, behind an edit that succeeded
      have hsnoc (befores afters : Journal) (call last : Event) :
          .poll false :: (befores ++ call :: (afters ++ [last])) =
            .poll false :: (befores ++ call :: afters) ++ [last] := by simp
      rw [hsnoc]
      refine .ends ?_ ?_ rfl rfl
      · rw [← hsnoc]
        exact ⟨by simp, .calm_append (forall_mem_numbered fun _ => by rfl) ⟨fun _ => rfl,
          .calm_append (forall_mem_numbered fun _ => by rfl) ⟨by simp, trivial⟩⟩⟩
      · simp [or_imp, forall_and]

theorem Passes.leads {plugins : List (Plugin π)} {index : Nat} {program final : Program}
    {run after : Run σ π} {passed : List (Passing σ)}
    (hpasses : Passes plugins index program run passed final after) :
    Leads run after (.ok final) :=
  ⟨_, hpasses.acts, .goesOn (.passActs _ _ passed)⟩

theorem Executes.leads {plugins : List (Plugin π)} {index : Nat} {links : List (Link σ)}
    {program : Program} {run after : Run σ π} {result : Except PipelineError Program}
    (hexecutes : Executes plugins index links program run result after) :
    Leads run after result := by
  cases hexecutes with
  | all passed hlinks hpasses => exact hpasses.leads
  | cut passed hlinks hpasses hstops => exact hpasses.leads.trans (leads_stop hstops)
  | @failed passed link rest current before _ error hlinks hpasses hgoes happlies =>
      obtain ⟨failing, hfailing, hacts⟩ := happlies.failing rfl
      refine hpasses.leads.trans ⟨.poll false :: failing, ?_, hfailing.verdict⟩
      simp [hacts, hgoes]

theorem leads_announce (phase : Phase) (plugins : List (Plugin π)) (run : Run σ π) :
    Leads run (run.announce phase 0 plugins) (.ok ()) :=
  ⟨_, acts_announce phase 0 plugins run,
    .goesOn (.numbered (fun _ => rfl) (fun _ => rfl) 0 plugins.length)⟩

end Run

/-! ## Whole runs -/

namespace Pipeline

theorem Ends.leads {pipeline : Pipeline π} {program : Program} {markers : List (Marker σ)}
    {start : Run σ π} {ended : Ended σ π Outcome}
    (hends : pipeline.Ends program markers start ended) :
    ∃ after : Run σ π, start.Leads after ended.outcome.result ∧
      ended.acts = after.acts ++ numbered (.phase · .done) 0 pipeline.plugins.length := by
  have hexecuting (collected : Run σ π) := Run.leads_announce .executing pipeline.plugins collected
  cases hends with
  | @collecting error after hcollects =>
      refine ⟨after, ?_, Run.acts_finish _ _ _⟩
      rw [Run.outcome_finish]
      exact hcollects.leads.error
  | @executing collected after error hcollects hexecutes =>
      refine ⟨after, ?_, Run.acts_finish _ _ _⟩
      rw [Run.outcome_finish]
      exact (hcollects.leads.trans (hexecuting collected)).trans hexecutes.leads
  | @completed collected after final hcollects hexecutes =>
      refine ⟨after, ?_, Run.acts_finish _ _ _⟩
      rw [Run.outcome_finish]
      exact (hcollects.leads.trans (hexecuting collected)).trans hexecutes.leads

/-- **A run looks before each step, and the event that ends it decides its outcome.** -/
theorem verdict (pipeline : Pipeline π) (program : Program) (markers : List (Marker σ))
    (shared : Shared σ) (watch : π) (stopAt : Option Nat) :
    ∃ told, (pipeline.run program markers shared watch stopAt).acts =
        told ++ numbered (.phase · .done) 0 pipeline.plugins.length ∧
      Verdict told (pipeline.run program markers shared watch stopAt).outcome.result := by
  obtain ⟨after, ⟨told, hacts, hverdict⟩, hended⟩ :=
    (pipeline.ends program markers shared watch stopAt).leads
  have hstart : Smooth (numbered (.phase · .collecting) 0 pipeline.plugins.length) :=
    .numbered (fun _ => rfl) (fun _ => rfl) 0 pipeline.plugins.length
  refine ⟨_, ?_, hverdict.after hstart⟩
  rw [hended, hacts, acts_start]

/-- Each editor and each edit that a run calls has a look of its own. -/
theorem looked (pipeline : Pipeline π) (program : Program) (markers : List (Marker σ))
    (shared : Shared σ) (watch : π) (stopAt : Option Nat) :
    Looked false (pipeline.run program markers shared watch stopAt).journal := by
  obtain ⟨told, hacts, hverdict⟩ := pipeline.verdict program markers shared watch stopAt
  refine Looked.of_filter ?_
  change Looked false (pipeline.run program markers shared watch stopAt).acts
  rw [hacts]
  exact hverdict.looked.append (.calm (forall_mem_numbered fun _ => by rfl))

end Pipeline

end EditPipeline
