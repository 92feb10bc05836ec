import EditPipeline.Proofs.Run.Extent

/-!
# Requests for cancellation

Cancellation can be requested before a run, by someone outside while it goes on,
or by a call, and then the journal has a note of it.  A run is `Aware` if it knows
of these requests and of no others, and every look for cancellation so far saw
what was the case.  No step of a run breaks this.
-/

namespace EditPipeline

variable {σ π : Type}

/-- Cancellation has been requested by the time that the journal is `journal`:
before the run, if `asked`; from outside, after `stopAt` events; or by a call. -/
def Requested (asked : Bool) (stopAt : Option Nat) (journal : Journal) : Prop :=
  asked = true ∨ (∃ count, stopAt = some count ∧ count ≤ journal.length) ∨ .request ∈ journal

/-- What a look for cancellation saw was the case. -/
def TrueLooks (asked : Bool) (stopAt : Option Nat) (journal : Journal) : Prop :=
  ∀ before seen, before ++ [.poll seen] <+: journal →
    (seen = true ↔ Requested asked stopAt before)

variable {asked : Bool} {stopAt : Option Nat} {journal : Journal}

/-- A request is not taken back. -/
theorem Requested.append (hrequested : Requested asked stopAt journal) (more : Journal) :
    Requested asked stopAt (journal ++ more) := by
  rcases hrequested with hasked | ⟨count, hstop, hcount⟩ | hrequest
  · exact .inl hasked
  · refine .inr (.inl ⟨count, hstop, ?_⟩)
    rw [List.length_append]
    omega
  · exact .inr (.inr (List.mem_append_left more hrequest))

theorem TrueLooks.concat (hlooks : TrueLooks asked stopAt journal) {event : Event}
    (hevent : ∀ seen, event = .poll seen → (seen = true ↔ Requested asked stopAt journal)) :
    TrueLooks asked stopAt (journal ++ [event]) := by
  intro before seen hprefix
  rcases List.prefix_concat_iff.1 hprefix with heq | hold
  · obtain ⟨rfl, hpoll⟩ := List.append_inj' heq rfl
    exact hevent seen (List.singleton_inj.1 hpoll).symm
  · exact hlooks before seen hold

theorem TrueLooks.append (hlooks : TrueLooks asked stopAt journal) {more : Journal}
    (hmore : ∀ seen, .poll seen ∉ more) : TrueLooks asked stopAt (journal ++ more) := by
  induction more generalizing journal with
  | nil => simpa using hlooks
  | cons event rest ih =>
      rw [List.append_cons]
      refine ih (hlooks.concat fun seen hpoll => ?_) fun seen hrest => ?_
      · exact absurd (by simp [hpoll]) (hmore seen)
      · exact hmore seen (List.mem_cons_of_mem event hrest)

namespace Run

variable {plugins : List (Plugin π)} {run after : Run σ π} {act : Act σ π}
  {acts : List (Act σ π)}

theorem cancelled_iff (run : Run σ π) :
    run.cancelled = true ↔ run.shared.cancelled = true ∨
      ∃ count, run.stopAt = some count ∧ count ≤ run.journal.length := by
  simp [cancelled, Option.any_eq_true]

/-- A run that knows of a request goes on knowing. -/
theorem Does.cancelled (hdoes : Does plugins run act after) (hcancelled : run.cancelled = true) :
    after.cancelled = true :=
  (cancelled_iff after).2 (.inl (by rw [hdoes.cancelled_shared, hcancelled, Bool.true_or]))

theorem Moves.cancelled (hmoves : Moves plugins run acts after)
    (hcancelled : run.cancelled = true) : after.cancelled = true := by
  induction hmoves with
  | refl => exact hcancelled
  | snoc hmoves hdoes ih => exact hdoes.cancelled ih

/-- The run knows what has been requested, and has known it at every look. -/
structure Aware (asked : Bool) (stopAt : Option Nat) (run : Run σ π) : Prop where
  stopAt_eq : run.stopAt = stopAt
  knows : run.cancelled = true ↔ Requested asked stopAt run.journal
  looks : TrueLooks asked stopAt run.journal

/-- The run learns of the requests that are in the journal after an act, and of no others. -/
theorem Aware.knows_after (haware : Aware asked stopAt run) (hdoes : Does plugins run act after) :
    after.cancelled = true ↔ Requested asked stopAt after.journal := by
  have hstop : after.stopAt = stopAt := hdoes.stopAt_eq.trans haware.stopAt_eq
  constructor
  · intro hcancelled
    rcases (cancelled_iff after).1 hcancelled with hshared | hcount
    · rw [hdoes.journal]
      cases hknown : run.cancelled with
      | true => exact (haware.knows.1 hknown).append _
      | false =>
          -- the request is new, so the act has made it and the journal has it
          have hleaves : act.leaves = true := by
            rwa [hdoes.cancelled_shared, hknown, Bool.false_or] at hshared
          have hrequests : act.requests = true := by
            rw [Act.requests, hleaves, hdoes.knows, hknown]
            rfl
          exact .inr (.inr (List.mem_append_right _ (Act.request_mem_notes.2 hrequests)))
    · rw [hstop] at hcount
      exact .inr (.inl hcount)
  · rintro (hasked | hcount | hrequest)
    · exact hdoes.cancelled (haware.knows.2 (.inl hasked))
    · rw [← hstop] at hcount
      exact (cancelled_iff after).2 (.inr hcount)
    · rw [hdoes.journal, List.mem_append, Act.request_mem_notes] at hrequest
      rcases hrequest with hold | hrequests
      · exact hdoes.cancelled (haware.knows.2 (.inr (.inr hold)))
      · refine (cancelled_iff after).2 (.inl ?_)
        rw [hdoes.cancelled_shared, (Bool.and_eq_true_iff.1 hrequests).1, Bool.or_true]

/-- **Every act keeps a run aware.** -/
theorem Does.aware (hdoes : Does plugins run act after) (haware : Aware asked stopAt run) :
    Aware asked stopAt after where
  stopAt_eq := hdoes.stopAt_eq.trans haware.stopAt_eq
  knows := haware.knows_after hdoes
  looks := by
    -- what a look sees is judged by the journal before it, without its own event
    rw [hdoes.journal, Act.notes, List.cons_append, List.append_cons]
    refine (haware.looks.concat fun seen hpoll => ?_).append fun seen hpoll => ?_
    · rw [← Act.knows_of_event hpoll, hdoes.knows]
      exact haware.knows
    · exact absurd (act.isAct_behind _ hpoll) (by simp)

theorem Moves.aware (hmoves : Moves plugins run acts after) (haware : Aware asked stopAt run) :
    Aware asked stopAt after := by
  induction hmoves with
  | refl => exact haware
  | snoc hmoves hdoes ih => exact hdoes.aware ih

/-- What was requested before a run is all that it knows of when it has done nothing. -/
theorem aware_fresh (shared : Shared σ) (watch : π) (stopAt : Option Nat) :
    ({ shared, watch, stopAt } : Run σ π).Aware shared.cancelled stopAt where
  stopAt_eq := rfl
  knows := by simp [cancelled_iff, Requested]
  looks := fun before seen hprefix => by simp at hprefix

end Run

/-! ## Whole runs -/

namespace Pipeline

variable (pipeline : Pipeline π) (program : Program) (markers : List (Marker σ))
  (shared : Shared σ) (watch : π) (stopAt : Option Nat)

/-- **Every look for cancellation sees what is the case.** -/
theorem trueLooks :
    TrueLooks shared.cancelled stopAt
      (pipeline.run program markers shared watch stopAt).journal := by
  obtain ⟨extent, looks, after, -, -, -, hcovers, -, hleaves⟩ :=
    (pipeline.ends program markers shared watch stopAt).covers
      (pipeline.keeps_start shared watch stopAt)
  obtain ⟨acts, hmoves, -⟩ := pipeline.covers_of_poll hcovers
  rw [hleaves.journal]
  exact (hmoves.aware (Run.aware_fresh shared watch stopAt)).looks

/-- A run looks for cancellation before it calls anything. -/
theorem opens :
    ∃ before seen after,
      (pipeline.run program markers shared watch stopAt).journal =
        before ++ .poll seen :: after ∧
      ∀ event ∈ before, event.isWork = false := by
  obtain ⟨extent, looks, after, -, -, -, ⟨acts, hmoves, -⟩, -, hleaves⟩ :=
    (pipeline.ends program markers shared watch stopAt).covers
      (pipeline.keeps_start shared watch stopAt)
  obtain ⟨rest, hrest⟩ := hmoves.journal_prefix
  rw [Run.journal_poll, List.append_assoc, List.singleton_append] at hrest
  have hstart : ∀ event ∈ (pipeline.start shared watch stopAt).acts, event.isWork = false := by
    rw [acts_start]
    exact forall_mem_numbered fun _ => by rfl
  exact ⟨_, _, rest, hleaves.journal.trans hrest.symm,
    none_of_acts Event.isAct_of_isWork hstart⟩

end Pipeline

end EditPipeline
