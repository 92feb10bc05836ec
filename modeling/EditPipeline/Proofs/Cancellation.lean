import Mathlib.Data.List.Basic
import EditPipeline.Proofs.Run.Looks
import EditPipeline.Proofs.Run.Transcript

/-!
# Cancellation

Cancellation may be requested at any time: before a run, by anything that the run
calls, or from outside.  The run notices a request when it looks for one, and then
it stops.  It also counts as cancelled when an editor or an edit gives up with a
cancellation, whatever words stand around it, and in no other case.

When cancellation has been requested is read off the journal (`Requested`).  That the journal
has the requests of all code that was called, and no others, is in the transcript of the run.
-/

namespace EditPipeline

variable {σ π : Type}

/-! ## Failures that are cancellations -/

/-- A cancellation, with any words of callers around it. -/
def Failure.WrapsCancelled (failure : Failure) : Prop :=
  ∃ texts : List String, failure = texts.foldr .context .cancelled

theorem Failure.isCancelled_iff (failure : Failure) :
    failure.isCancelled = true ↔ failure.WrapsCancelled := by
  constructor
  · intro hcancelled
    induction failure with
    | cancelled => exact ⟨[], rfl⟩
    | message text => cases hcancelled
    | context text inner ih =>
        obtain ⟨texts, rfl⟩ := ih hcancelled
        exact ⟨text :: texts, rfl⟩
  · rintro ⟨texts, rfl⟩
    induction texts with
    | nil => rfl
    | cons text rest ih => exact ih

theorem Event.cancels_iff (event : Event) :
    event.cancels = true ↔ event = .poll true ∨
      event.isStep = true ∧
        ∃ failure, event.failure? = some failure ∧ failure.WrapsCancelled := by
  cases event with
  | setUp stage name program failure => cases failure <;> simp [Failure.isCancelled_iff]
  | edit index program result => cases result <;> simp [Failure.isCancelled_iff]
  | _ => simp

theorem PipelineError.eq_cancelled_of_isCancellation (error : PipelineError)
    (hcancellation : error.isCancellation = true) : error = .cancelled := by
  cases error with
  | cancelled => rfl
  | _ => cases hcancellation

/-! ## The event that ends a run -/

/-- How the outcome of a run shows in its journal. -/
inductive Ended.Decided (ended : Ended σ π Outcome) : Prop where
  /-- No look saw a request and no call failed. -/
  | completed (hgoesOn : ∀ event ∈ ended.journal, event.isLast = false)
      (houtcome : ended.outcome.isCancellation = false)
  /-- One event ended the run, and only the last phase was announced after it. -/
  | aborted {early late : Journal} {last : Event} {error : PipelineError} {findings : Findings}
      (hjournal : ended.journal = early ++ last :: late)
      (hearly : ∀ event ∈ early, event.isLast = false)
      (hlast : last.isLast = true)
      (hlate : ∀ event ∈ late, event.isLast = false ∧ event.isWork = false)
      (houtcome : ended.outcome = .aborted error findings)
      (hcause : error.isCancellation = last.cancels)

theorem Pipeline.decided (pipeline : Pipeline π) (program : Program) (markers : List (Marker σ))
    (shared : Shared σ) (watch : π) (stopAt : Option Nat) :
    (pipeline.run program markers shared watch stopAt).Decided := by
  obtain ⟨told, hacts, hverdict⟩ := pipeline.verdict program markers shared watch stopAt
  generalize pipeline.run program markers shared watch stopAt = ended at hacts hverdict ⊢
  generalize hresult : ended.outcome.result = result at hverdict
  cases hverdict with
  | @goesOn _ final hsmooth =>
      have hgoesOn : ∀ event ∈ ended.acts, event.isLast = false := by
        rw [hacts]
        exact List.forall_mem_append.2 ⟨hsmooth.goesOn, forall_mem_numbered fun _ => by rfl⟩
      refine .completed (none_of_acts Event.isAct_of_isLast hgoesOn) ?_
      cases houtcome : ended.outcome with
      | completed program findings => rfl
      | aborted error findings =>
          rw [houtcome] at hresult
          cases hresult
  | @ends told last error hlooked hgoesOn hlast hcause =>
      cases houtcome : ended.outcome with
      | completed program findings =>
          rw [houtcome] at hresult
          cases hresult
      | aborted _ findings =>
          rw [houtcome] at hresult
          cases hresult
          -- the last act splits the journal; diagnostics and requests may stand on both sides
          rw [List.append_assoc, List.singleton_append] at hacts
          obtain ⟨early, rest, hjournal, hearly, hrest⟩ := List.filter_eq_append_iff.1 hacts
          obtain ⟨quiet, late, rfl, hquiet, -, hlate⟩ := List.filter_eq_cons_iff.1 hrest
          rw [← List.append_assoc] at hjournal
          have hbefore : (early ++ quiet).filter Event.isAct = told := by
            rw [List.filter_append, hearly, List.filter_eq_nil_iff.2 hquiet, List.append_nil]
          have hafter {is : Event → Bool}
              (hact : ∀ event, is event = true → event.isAct = true)
              (hdone : ∀ index, is (.phase index .done) = false) :
              ∀ event ∈ late, is event = false := by
            refine none_of_acts hact ?_
            rw [hlate]
            exact forall_mem_numbered hdone
          refine .aborted hjournal ?_ hlast (fun event hevent => ⟨?_, ?_⟩) houtcome hcause
          · refine none_of_acts Event.isAct_of_isLast ?_
            rwa [hbefore]
          · exact hafter Event.isAct_of_isLast (fun _ => rfl) event hevent
          · exact hafter Event.isAct_of_isWork (fun _ => rfl) event hevent

/-- An event that ends a run decides whether the run counts as cancelled. -/
theorem Ended.Decided.isCancellation_eq {ended : Ended σ π Outcome} (hdecided : ended.Decided)
    {event : Event} (hevent : event ∈ ended.journal) (hlast : event.isLast = true) :
    ended.outcome.isCancellation = event.cancels := by
  have hno {other : Event} (hother : other.isLast = false) : event ≠ other := by
    rintro rfl
    exact Bool.false_ne_true (hother.symm.trans hlast)
  cases hdecided with
  | completed hgoesOn houtcome => exact absurd rfl (hno (hgoesOn event hevent))
  | aborted hjournal hearly hends hlate houtcome hcause =>
      rw [hjournal, List.mem_append, List.mem_cons] at hevent
      rcases hevent with hevent | rfl | hevent
      · exact absurd rfl (hno (hearly event hevent))
      · rw [houtcome]
        exact hcause
      · exact absurd rfl (hno (hlate event hevent).1)

/-- A run that counts as cancelled was ended by an event that cancels. -/
theorem Ended.Decided.isCancellation_iff {ended : Ended σ π Outcome}
    (hdecided : ended.Decided) :
    ended.outcome.isCancellation = true ↔ ∃ event ∈ ended.journal, event.cancels = true := by
  constructor
  · intro hcancellation
    cases hdecided with
    | completed hgoesOn houtcome => simp [houtcome] at hcancellation
    | @aborted early late last error findings hjournal hearly hends hlate houtcome hcause =>
        refine ⟨last, by simp [hjournal], ?_⟩
        rw [houtcome] at hcancellation
        exact hcause.symm.trans hcancellation
  · rintro ⟨event, hevent, hcancels⟩
    rw [hdecided.isCancellation_eq hevent (event.isLast_of_cancels hcancels)]
    exact hcancels

/-! ## Main statement -/

/-- What a run does about cancellation that was requested before it, if `asked`, by
someone outside, after `stopAt` events, or by a call. -/
structure Ended.HeedsCancellation (asked : Bool) (stopAt : Option Nat)
    (ended : Ended σ π Outcome) : Prop where
  /-- A run looks for cancellation before it calls anything. -/
  opens : ∃ before seen after, ended.journal = before ++ .poll seen :: after ∧
    ∀ event ∈ before, event.isWork = false
  /-- A look for cancellation sees whether it has been requested by then. -/
  looks : ∀ before seen after, ended.journal = before ++ .poll seen :: after →
    (seen = true ↔ Requested asked stopAt before)
  /-- After a look that saw a request nothing is called, and the run is cancelled. -/
  stops : ∀ before after, ended.journal = before ++ .poll true :: after →
    (∀ event ∈ after, event.isWork = false) ∧
      ∃ findings, ended.outcome = .aborted .cancelled findings
  /-- The last look before an editor or an edit is its own, and came before any request. -/
  starts : ∀ before event after, ended.journal = before ++ event :: after →
    event.isStep = true →
    ∃ early late, before = early ++ .poll false :: late ∧
      (∀ other ∈ late, other.isCalm = true) ∧ ¬Requested asked stopAt early
  /-- A run counts as cancelled if a look saw a request or an editor or an edit gave
  up with a cancellation. -/
  counts : ended.outcome.isCancellation = true ↔
    .poll true ∈ ended.journal ∨
      ∃ event ∈ ended.journal, event.isStep = true ∧
        ∃ failure, event.failure? = some failure ∧ failure.WrapsCancelled
  /-- Failures of markers and hooks do not count, and neither do failures of editors
  and edits that are anything else. -/
  failures : ∀ event ∈ ended.journal, ∀ failure, event.failure? = some failure →
    (ended.outcome.isCancellation = true ↔ event.isStep = true ∧ failure.WrapsCancelled)

/-- **Every run heeds cancellation.**  What it notes of calls and requests is what its
transcript has: a request is in the journal exactly if one of the calls has left cancellation
requested that had not been before. -/
theorem heeds_cancellation (pipeline : Pipeline π) (program : Program)
    (markers : List (Marker σ)) (shared : Shared σ) (watch : π) (stopAt : Option Nat) :
    (pipeline.run program markers shared watch stopAt).HeedsCancellation shared.cancelled
      stopAt ∧
    ∃ (extent : Extent σ) (acts : List (Act σ π)),
      extent.Reached pipeline.plugins program markers
        (pipeline.run program markers shared watch stopAt).outcome.result ∧
      (pipeline.run program markers shared watch stopAt).Transcript pipeline.plugins shared watch
        stopAt extent acts ∧
      (.request ∈ (pipeline.run program markers shared watch stopAt).journal ↔
        ∃ act ∈ acts, act.leaves = true ∧ act.knows = false) := by
  obtain ⟨extent, acts, hreached, htranscript⟩ :=
    pipeline.transcript_run program markers shared watch stopAt
  have hrequest : .request ∈ (pipeline.run program markers shared watch stopAt).journal ↔
      ∃ act ∈ acts, act.leaves = true ∧ act.knows = false := by
    rw [htranscript.journal, List.mem_flatMap]
    refine exists_congr fun act => and_congr_right fun _ => ?_
    rw [Act.request_mem_notes, Act.requests, Bool.and_eq_true, Bool.not_eq_true']
  refine ⟨?_, extent, acts, hreached, htranscript, hrequest⟩
  have hopens := pipeline.opens program markers shared watch stopAt
  have hlooks := pipeline.trueLooks program markers shared watch stopAt
  have hdecided := pipeline.decided program markers shared watch stopAt
  have hlooked := pipeline.looked program markers shared watch stopAt
  generalize pipeline.run program markers shared watch stopAt = ended at *
  have htrue {before after : Journal} {seen : Bool}
      (hjournal : ended.journal = before ++ .poll seen :: after) :
      seen = true ↔ Requested shared.cancelled stopAt before :=
    hlooks before seen ⟨after, by simp [hjournal]⟩
  constructor
  case opens => exact hopens
  case looks => exact fun before seen after hjournal => htrue hjournal
  case stops =>
    intro before after hjournal
    have hlast : (Event.poll true).isLast = true := rfl
    have hcancelled : ended.outcome.isCancellation = true :=
      hdecided.isCancellation_eq (by simp [hjournal]) hlast
    cases hdecided with
    | completed hgoesOn houtcome =>
        rw [houtcome] at hcancelled
        cases hcancelled
    | @aborted early late last error findings hsplit hearly hends hlate houtcome hcause =>
        -- the look ends a run, so it is the one event that does
        have hnotEarly : .poll true ∉ early := fun hpoll =>
          Bool.false_ne_true ((hearly _ hpoll).symm.trans hlast)
        have hnotLate : .poll true ∉ late := fun hpoll =>
          Bool.false_ne_true ((hlate _ hpoll).1.symm.trans hlast)
        obtain ⟨-, -, rfl⟩ := (List.append_cons_inj_of_notMem hnotEarly hnotLate).1
          (hsplit.symm.trans hjournal)
        refine ⟨fun event hevent => (hlate event hevent).2, findings, ?_⟩
        rw [houtcome] at hcancelled ⊢
        rw [error.eq_cancelled_of_isCancellation hcancelled]
  case starts =>
    intro before event after hjournal hstep
    rw [hjournal] at hlooked
    rcases hlooked.look_before hstep with ⟨early, late, rfl, hlate⟩ | ⟨hready, -⟩
    · -- had cancellation been requested, this look would have seen it
      refine ⟨early, late, rfl, hlate, fun hrequested => ?_⟩
      rw [List.append_assoc, List.cons_append] at hjournal
      exact Bool.false_ne_true ((htrue hjournal).2 hrequested)
    · cases hready
  case counts =>
    rw [hdecided.isCancellation_iff]
    simp only [Event.cancels_iff, and_or_left, exists_or, exists_eq_right]
  case failures =>
    intro event hevent failure hfailure
    rw [hdecided.isCancellation_eq hevent (event.isLast_of_failure hfailure), event.cancels_iff]
    have hne : event ≠ .poll true := by
      rintro rfl
      cases hfailure
    simp only [hne, false_or, hfailure, Option.some.injEq, exists_eq_left']

end EditPipeline
