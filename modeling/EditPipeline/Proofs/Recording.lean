import EditPipeline.Proofs.Run.Mirror
import EditPipeline.Proofs.Trace
import EditPipeline.Snapshot

/-!
# What the recorder keeps

The recorder takes its snapshots from the hooks after edits, and the memory that they are
kept in is handed through the whole run.  The journal tells of the edits themselves.  So the
two are compared step by step: only a hook touches the memory, and between two hooks of the
recorder there is one edit (`Passes.recorded`).  What is kept in the end can then be read off
the journal (`applied`), and, since a recorder is only an observer, off the journal of the
run without it.
-/

namespace EditPipeline

variable {σ π : Type}

/-- The snapshot of an event, if it is an edit that gave a program.  The edits were
registered by editors with the names `owners`. -/
def Event.snapshot? (owners : List String) : Event → Option Snapshot
  | .edit index _ (.ok next) => some ⟨index, owners.getD index "", next⟩
  | _ => none

/-- The snapshots of the edits that gave a program. -/
def applied (owners : List String) (journal : Journal) : List Snapshot :=
  journal.filterMap (Event.snapshot? owners)

/-- Events that are no edits do not count. -/
theorem applied_filter {keep : Event → Bool} (owners : List String)
    (hkeep : ∀ index program result, keep (.edit index program result) = true)
    (journal : Journal) : applied owners (journal.filter keep) = applied owners journal := by
  unfold applied
  rw [List.filterMap_filter]
  refine List.filterMap_congr fun event _ => ?_
  cases event with
  | edit index program result => simp [hkeep]
  | _ => simp [Event.snapshot?]

theorem applied_numbered {event : Nat → Event} (owners : List String)
    (hother : ∀ index, (event index).snapshot? owners = none) (start count : Nat) :
    applied owners (numbered event start count) = [] :=
  List.filterMap_eq_nil_iff.2 (forall_mem_numbered hother)

theorem applied_append (owners : List String) (journal more : Journal) :
    applied owners (journal ++ more) = applied owners journal ++ applied owners more :=
  List.filterMap_append

/-- The snapshots of edits that gave a program, the first of which has the number `start`. -/
def shots (owners : List String) (start : Nat) (passed : List (Passing σ)) : List Snapshot :=
  (passed.zipIdx start).map fun (passing, index) => ⟨index, owners.getD index "", passing.next⟩

/-- Edits that succeed were announced under the names of their owners. -/
theorem Run.Passes.named {plugins : List (Plugin π)} {program final : Program}
    {run after : Run σ π} {passed : List (Passing σ)} {links : List (Link σ)}
    (hpasses : Run.Passes plugins 0 program run passed final after)
    (hlinks : passed.map Passing.link <+: links) (number : Nat) (passing : Passing σ)
    (hpassing : passed[number]? = some passing) :
    (links.map fun link => (run.outbox link.stage).stage)[number]? =
      some passing.outbox.stage := by
  obtain ⟨rest, rfl⟩ := hlinks
  have hlength : number < passed.length := (List.getElem?_eq_some_iff.1 hpassing).1
  rw [List.map_append, hpasses.stageNames, List.getElem?_append_left (by rwa [List.length_map]),
    List.getElem?_map, hpassing, Option.map_some]

theorem index_shots (owners : List String) (start : Nat) (passed : List (Passing σ)) :
    (shots owners start passed).map Snapshot.index = List.range' start passed.length := by
  unfold shots
  rw [List.map_map]
  exact List.zipIdx_map_snd start passed

theorem stage_shots {owners : List String} {passed : List (Passing σ)}
    (hlength : passed.length = owners.length) :
    (shots owners 0 passed).map Snapshot.stage = owners := by
  refine List.ext_getElem? fun number => ?_
  rw [shots, List.map_map, List.getElem?_map, List.getElem?_zipIdx]
  rcases Nat.lt_or_ge number owners.length with hlt | hge
  · rw [List.getElem?_eq_getElem (hlength ▸ hlt), List.getElem?_eq_getElem hlt]
    simp [List.getD_eq_getElem?_getD, hlt]
  · rw [List.getElem?_eq_none (hlength ▸ hge), List.getElem?_eq_none hge]
    rfl

theorem applied_passActs (owners : List String) (count start : Nat) (passed : List (Passing σ)) :
    applied owners (passActs count start passed) = shots owners start passed := by
  induction passed generalizing start with
  | nil => rfl
  | cons passing rest ih =>
      have hwork : applied owners (passing.acts count start) =
          [⟨start, owners.getD start "", passing.next⟩] := by
        have hafters : applied owners
            (numbered (.after · (passing.info start) passing.next none) 0 count) = [] :=
          applied_numbered owners (fun _ => rfl) 0 count
        change applied owners (Passing.work count passing start) = _
        rw [Passing.work, applied_append, applied_numbered owners fun _ => rfl]
        exact congrArg (List.cons _) hafters
      rw [shots, List.zipIdx_cons, List.map_cons, ← shots, ← ih, passActs, List.zipIdx_cons,
        List.flatMap_cons, applied_append, hwork]
      rfl

namespace Run

/-- The snapshots of the edits so far. -/
def applied (owners : List String) (run : Run σ π) : List Snapshot :=
  EditPipeline.applied owners run.journal

theorem applied_of_acts {owners : List String} {run after : Run σ π} {more : Journal}
    (hacts : after.acts = run.acts ++ more) :
    after.applied owners = run.applied owners ++ EditPipeline.applied owners more := by
  have hread (run : Run σ π) : run.applied owners = EditPipeline.applied owners run.acts :=
    (applied_filter owners (fun _ _ _ => rfl) run.journal).symm
  rw [hread, hread, hacts, applied_append]

theorem applied_of_trace {owners : List String} {run after : Run σ π}
    (htrace : after.trace = run.trace) : after.applied owners = run.applied owners := by
  have hread (run : Run σ π) : run.applied owners = EditPipeline.applied owners run.trace := by
    unfold trace acts
    rw [applied_filter owners fun _ _ _ => rfl, applied_filter owners fun _ _ _ => rfl]
    rfl
  rw [hread, hread, htrace]

theorem applied_announce (owners : List String) (phase : Phase) (plugins : List (Plugin π))
    (run : Run σ π) : (run.announce phase 0 plugins).applied owners = run.applied owners := by
  rw [applied_of_acts (acts_announce phase 0 plugins run), applied_numbered owners fun _ => rfl,
    List.append_nil]

/-- Edits that succeed give their snapshots. -/
theorem Passes.applied {plugins : List (Plugin π)} {index : Nat} {program final : Program}
    {run after : Run σ π} {passed : List (Passing σ)}
    (hpasses : Passes plugins index program run passed final after) (owners : List String) :
    after.applied owners = run.applied owners ++ shots owners index passed := by
  rw [applied_of_acts hpasses.acts, applied_passActs]

/-! ## The memory of the plugins -/

theorem Asks.watch {index : Nat} {run after : Run σ π} {asked : List (Asking σ)}
    (hasks : Asks index run asked after) : after.watch = run.watch := by
  induction hasks with
  | nil => rfl
  | cons asking hgiven hrest ih => exact ih

theorem Joins.watch {program : Program} {run after : Run σ π} {joined : List (Joining σ)}
    (hjoins : Joins program run joined after) : after.watch = run.watch := by
  induction hjoins with
  | nil => rfl
  | cons joining hgoes hprogram hgiven hrest ih => exact ih

theorem Collects.watch {program : Program} {markers : List (Marker σ)} {run after : Run σ π}
    {result : Except PipelineError Unit} (hcollects : Collects program markers run result after) :
    after.watch = run.watch := by
  cases hcollects with
  | stopped hstops => rfl
  | refused hgoes hmarkers hasks hfails => exact hasks.watch
  | cut hgoes hmarkers hasks hroster hjoins hstops => exact hjoins.watch.trans hasks.watch
  | failed hgoes hmarkers hasks hroster hjoins hbefore hfails =>
      exact hjoins.watch.trans hasks.watch
  | done hgoes hmarkers hasks hroster hjoins => exact hjoins.watch.trans hasks.watch

theorem watch_conclude (plugins : List (Plugin π)) (result : Except PipelineError Program)
    (run : Run σ π) :
    (run.conclude plugins result).watch = (run.announce .done 0 plugins).watch := by
  cases result <;> rfl

/-! ## The recorder -/

section

variable {run after : Run σ Gallery} {info : EditInfo} {program next final : Program}
  {owners : List String} {directory : Option Path}

/-- All snapshots of the run so far have been kept, after those that were there before. -/
def Recorded (owners : List String) (old : List Snapshot) (run : Run σ Gallery) : Prop :=
  run.watch.snapshots = old ++ run.applied owners

theorem watch_announce (phase : Phase) :
    (run.announce phase 0 [Gallery.recorder directory]).watch = run.watch := rfl

theorem watch_hearsBefore
    (hhears : HearsBefore info program 0 run [Gallery.recorder directory] after) :
    after.watch = run.watch := by
  cases hhears with
  | cons hcall hrest =>
      cases hrest
      cases hcall
      rfl

theorem snapshots_hearsAfter
    (hhears : HearsAfter info next 0 run [Gallery.recorder none] after) :
    after.watch.snapshots = run.watch.snapshots ++ [⟨info.index, info.stage, next⟩] := by
  cases hhears with
  | cons hcall hrest =>
      cases hrest
      cases hcall
      rfl

theorem Recorded.still {old : List Snapshot} {more : Journal} (hrecorded : run.Recorded owners old)
    (hwatch : after.watch = run.watch) (hacts : after.acts = run.acts ++ more)
    (hnone : EditPipeline.applied owners more = []) : after.Recorded owners old := by
  have hsame : after.applied owners = run.applied owners := by
    rw [applied_of_acts hacts, hnone, List.append_nil]
  unfold Recorded
  rw [hsame, hwatch]
  exact hrecorded

theorem Recorded.poll {old : List Snapshot} (hrecorded : run.Recorded owners old) :
    run.poll.Recorded owners old := hrecorded.still rfl (acts_poll run) rfl

/-- One edit is recorded once. -/
theorem Recorded.pass {old : List Snapshot} {passing : Passing σ} {index : Nat}
    {ready settled : Run σ Gallery} (hrecorded : run.Recorded owners old)
    (hname : owners[index]? = some passing.outbox.stage)
    (hbefore : HearsBefore (passing.info index) passing.program 0 run.poll
      [Gallery.recorder none] ready)
    (hafter : HearsAfter (passing.info index) passing.next 0
      (ready.absorb passing.link.stage index passing.program passing.reply)
      [Gallery.recorder none] settled) :
    settled.Recorded owners old := by
  let shot : Snapshot := ⟨index, passing.outbox.stage, passing.next⟩
  have hresult : passing.reply.result = .ok passing.next := passing.succeeded
  have hacts : settled.acts = run.poll.acts ++
      (numbered (.before · (passing.info index) passing.program none) 0 1 ++
        .edit index passing.program (.ok passing.next) ::
          numbered (.after · (passing.info index) passing.next none) 0 1) := by
    rw [hafter.acts fun _ _ => rfl, acts_absorb, hbefore.acts fun _ _ => rfl, hresult]
    simp
  have happlied : settled.applied owners = run.poll.applied owners ++ [shot] := by
    rw [applied_of_acts hacts, applied_append, applied_numbered owners fun _ => rfl]
    simp [EditPipeline.applied, numbered, Event.snapshot?, shot, hname]
  have hready : ready.watch = run.poll.watch := watch_hearsBefore hbefore
  have hkept : settled.watch.snapshots = run.poll.watch.snapshots ++ [shot] := by
    rw [← hready]
    exact snapshots_hearsAfter hafter
  unfold Recorded
  rw [happlied, hkept, hrecorded.poll, List.append_assoc]

/-- Edits that succeed are recorded one by one. -/
theorem Passes.recorded {old : List Snapshot} {index : Nat} {passed : List (Passing σ)}
    (hpasses : Passes [Gallery.recorder none] index program run passed final after)
    (hnames : ∀ (number : Nat) (passing : Passing σ), passed[number]? = some passing →
      owners[index + number]? = some passing.outbox.stage)
    (hrecorded : run.Recorded owners old) : after.Recorded owners old := by
  induction hpasses with
  | nil => exact hrecorded
  | cons passing hgoes houtbox hbefore hgiven hafter hrest ih =>
      refine ih ?_ (hrecorded.pass (hnames 0 passing rfl) hbefore hafter)
      intro number other hother
      have hname := hnames (number + 1) other hother
      rwa [← Nat.add_assoc, Nat.add_right_comm] at hname

/-- **All that executing gives is recorded.**  An edit that fails gives nothing, and the
recorder does not fail. -/
theorem Executes.recorded {old : List Snapshot} {links : List (Link σ)}
    {result : Except PipelineError Program}
    (hexecutes : Executes [Gallery.recorder none] 0 links program run result after)
    (hrecorded : run.Recorded
      (links.map fun link => (run.outbox link.stage).stage) old) :
    after.Recorded (links.map fun link => (run.outbox link.stage).stage) old := by
  have hpassed {passed : List (Passing σ)} {rest : List (Link σ)} {current : Program}
      {before : Run σ Gallery} (hlinks : passed.map Passing.link ++ rest = links)
      (hpasses : Passes [Gallery.recorder none] 0 program run passed current before) :
      before.Recorded (links.map fun link => (run.outbox link.stage).stage) old := by
    refine hpasses.recorded ?_ hrecorded
    intro number passing hpassing
    rw [Nat.zero_add]
    exact hpasses.named ⟨rest, hlinks⟩ number passing hpassing
  cases hexecutes with
  | all passed hlinks hpasses => exact hpassed (by rw [List.append_nil, hlinks]) hpasses
  | cut passed hlinks hpasses hstops => exact (hpassed hlinks hpasses).poll
  | @failed passed link rest current before after error hlinks hpasses hgoes happlies =>
      have hbefore := (hpassed hlinks hpasses).poll
      cases happlies with
      | @beforeFailed info done more plugin ready failure shared hinfo hplugins hhears hfails =>
          obtain rfl : plugin = Gallery.recorder none :=
            List.mem_singleton.1 (hplugins ▸ List.mem_append_cons_self)
          cases hfails
      | afterFailed passing hlink hprogram houtbox hbefore hgiven hplugins hafter hfails =>
          rename_i plugin _ _ _ _
          obtain rfl : plugin = Gallery.recorder none :=
            List.mem_singleton.1 (hplugins ▸ List.mem_append_cons_self)
          cases hfails
      | @editFailed info ready failure hinfo hhears hfails =>
          have hready : ready.watch = before.poll.watch := watch_hearsBefore hhears
          have hacts : (ready.absorb link.stage (0 + passed.length) current
              (link.edit current (before.poll.outbox link.stage) ready.sharing)).acts =
              before.poll.acts ++ (befores info current 1 ++
                [.edit (0 + passed.length) current (.error failure)]) := by
            rw [acts_absorb, hhears.acts fun _ _ => rfl, hfails, List.append_assoc]
            rfl
          refine hbefore.still hready hacts ?_
          rw [applied_append, befores, applied_numbered _ fun _ => rfl]
          rfl

end

end Run

namespace Pipeline

/-- A run that completes has passed all edits of its chain. -/
theorem passes_of_completed {pipeline : Pipeline π} {program final : Program}
    {markers : List (Marker σ)} {shared : Shared σ} {watch : π} {stopAt : Option Nat}
    {findings : Findings}
    (hcompleted : (pipeline.run program markers shared watch stopAt).outcome =
      .completed final findings) :
    ∃ (collected after : Run σ π) (passed : List (Passing σ)),
      (pipeline.start shared watch stopAt).collect program markers = (.ok (), collected) ∧
      passed.map Passing.link = collected.chain ∧
      (collected.announce .executing 0 pipeline.plugins).Passes pipeline.plugins 0 program passed
        final after ∧
      pipeline.run program markers shared watch stopAt =
        after.finish pipeline.plugins (.completed final) := by
  cases hended : (pipeline.start shared watch stopAt).collect program markers with
  | mk result collected =>
      cases result with
      | error error =>
          unfold run at hcompleted
          rw [hended] at hcompleted
          simp at hcompleted
      | ok done =>
          have hrun := pipeline.run_conclude program markers shared watch stopAt hended
          rw [hrun] at hcompleted ⊢
          have hexecutes := Run.executes pipeline.plugins 0 collected.chain program
            (collected.announce .executing 0 pipeline.plugins)
          generalize Run.execute pipeline.plugins 0 collected.chain program _ = executed
            at hexecutes hcompleted ⊢
          obtain ⟨result, after⟩ := executed
          cases hexecutes with
          | cut passed hlinks hpasses hstops => simp [Run.conclude] at hcompleted
          | failed passed hlinks hpasses hgoes happlies => simp [Run.conclude] at hcompleted
          | all passed hlinks hpasses =>
              rw [Run.conclude, Run.outcome_finish, Outcome.completed.injEq] at hcompleted
              obtain ⟨rfl, -⟩ := hcompleted
              exact ⟨collected, after, passed, rfl, hlinks, hpasses, rfl⟩

/-- The edits that a completed run applied are those that it passed. -/
theorem applied_of_passes {pipeline : Pipeline π} {program final : Program}
    {markers : List (Marker σ)} {shared : Shared σ} {watch : π} {stopAt : Option Nat}
    {collected after : Run σ π} {passed : List (Passing σ)}
    (hcollected : (pipeline.start shared watch stopAt).collect program markers =
      (.ok (), collected))
    (hpasses : (collected.announce .executing 0 pipeline.plugins).Passes pipeline.plugins 0 program
      passed final after)
    (hrun : pipeline.run program markers shared watch stopAt =
      after.finish pipeline.plugins (.completed final)) (owners : List String) :
    applied owners (pipeline.run program markers shared watch stopAt).journal =
      shots owners 0 passed := by
  have hcollects := Run.collects program markers (pipeline.start shared watch stopAt)
  rw [hcollected] at hcollects
  have hstart : (pipeline.start shared watch stopAt).applied owners = [] :=
    Run.applied_announce owners .collecting pipeline.plugins _
  calc applied owners (pipeline.run program markers shared watch stopAt).journal
      = (after.announce .done 0 pipeline.plugins).applied owners := by
        rw [hrun]
        rfl
    _ = after.applied owners := Run.applied_announce _ _ _ _
    _ = (collected.announce .executing 0 pipeline.plugins).applied owners ++
          shots owners 0 passed := hpasses.applied owners
    _ = collected.applied owners ++ shots owners 0 passed := by rw [Run.applied_announce]
    _ = shots owners 0 passed := by
        rw [Run.applied_of_trace hcollects.trace, hstart, List.nil_append]

/-- A run that completes has one snapshot for each edit of its chain, in their order. -/
theorem applied_of_completed {pipeline : Pipeline π} {program final : Program}
    {markers : List (Marker σ)} {shared : Shared σ} {watch : π} {stopAt : Option Nat}
    {findings : Findings} {owners : List String} {snapshots : List Snapshot}
    (howners : owners = ((pipeline.start shared watch stopAt).collect program markers).2.owners)
    (hsnapshots : snapshots =
      applied owners (pipeline.run program markers shared watch stopAt).journal)
    (hcompleted : (pipeline.run program markers shared watch stopAt).outcome =
      .completed final findings) :
    snapshots.map Snapshot.index = List.range owners.length ∧
      snapshots.map Snapshot.stage = owners := by
  obtain ⟨collected, after, passed, hcollected, hlinks, hpasses, hrun⟩ :=
    passes_of_completed hcompleted
  rw [hcollected] at howners
  have hlist : snapshots = shots owners 0 passed :=
    hsnapshots.trans (applied_of_passes hcollected hpasses hrun owners)
  have hlength : passed.length = owners.length := by
    rw [howners, Run.owners, List.length_map, ← hlinks, List.length_map]
  rw [hlist, index_shots, stage_shots hlength, hlength, List.range_eq_range']
  exact ⟨rfl, rfl⟩

/-- **The recorder keeps a snapshot of every edit that gives a program**, however the run
ends. -/
theorem snapshots_run {pipeline : Pipeline Gallery}
    (hplugins : pipeline.plugins = [Gallery.recorder none])
    (program : Program) (markers : List (Marker σ)) (shared : Shared σ) (gallery : Gallery)
    (stopAt : Option Nat) :
    (pipeline.run program markers shared gallery stopAt).watch.snapshots =
      gallery.snapshots ++
        applied ((pipeline.start shared gallery stopAt).collect program markers).2.owners
          (pipeline.run program markers shared gallery stopAt).journal := by
  obtain ⟨plugins⟩ := pipeline
  obtain rfl : plugins = [Gallery.recorder none] := hplugins
  let pipeline : Pipeline Gallery := ⟨[Gallery.recorder none]⟩
  have hcollects := Run.collects program markers (pipeline.start shared gallery stopAt)
  -- announcing a phase is no edit, and the recorder does not mind it
  have hannounce {owners : List String} (phase : Phase) {run : Run σ Gallery}
      (hrecorded : run.Recorded owners gallery.snapshots) :
      (run.announce phase 0 pipeline.plugins).Recorded owners gallery.snapshots :=
    hrecorded.still (Run.watch_announce phase) (Run.acts_announce phase 0 _ run)
      (applied_numbered owners (fun _ => rfl) _ _)
  have hstart (owners : List String) :
      (pipeline.start shared gallery stopAt).Recorded owners gallery.snapshots :=
    hannounce .collecting (List.append_nil _).symm
  change (pipeline.run program markers shared gallery stopAt).watch.snapshots =
    gallery.snapshots ++
      applied ((pipeline.start shared gallery stopAt).collect program markers).2.owners
        (pipeline.run program markers shared gallery stopAt).journal
  cases hended : (pipeline.start shared gallery stopAt).collect program markers with
  | mk result collected =>
      rw [hended] at hcollects
      have hcollected : collected.Recorded collected.owners gallery.snapshots := by
        unfold Run.Recorded
        rw [hcollects.watch, Run.applied_of_trace hcollects.trace]
        exact hstart collected.owners
      cases result with
      | error error =>
          unfold run
          rw [hended]
          exact hannounce .done hcollected
      | ok done =>
          have howners : collected.owners = collected.chain.map fun link =>
              ((collected.announce .executing 0 pipeline.plugins).outbox link.stage).stage := by
            simp [Run.owners, Run.outbox]
          have hexecutes := Run.executes pipeline.plugins 0 collected.chain program
            (collected.announce .executing 0 pipeline.plugins)
          have hentered := hannounce .executing hcollected
          rw [howners] at hentered
          have hdone := hannounce .done (hexecutes.recorded hentered)
          rw [← howners] at hdone
          rw [pipeline.run_conclude program markers shared gallery stopAt hended,
            Run.journal_conclude, Run.watch_conclude]
          exact hdone

end Pipeline

end EditPipeline
