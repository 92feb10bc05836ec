import Mathlib.Data.List.Nodup
import EditPipeline.Breaking.Marker
import EditPipeline.Proofs.Breaking.Marking
import EditPipeline.Proofs.Run.Ending

/-!
# Runs for debugger breaks

Two views of a run whose markers all ask for debugger breaks.

* Whoever watches it and whenever it may be stopped: *if* such a run completes, its program
  is that of one edit for all the types that the markers name
  (`Pipeline.final_of_breaks`).
* A run that nobody watches or stops *does* complete (`Pipeline.run_breaks`).  The marker,
  the stage and the edit of one request share a number, so the three phases can be followed
  by induction over the requests that are still to come, `start` being the number of the
  first of them.

In the second view the diagnostics are the `reports` of the edits, one after the other.
`getElem?_reports` reads them off the program that the run got: a stage counts what is
decorated, which no earlier stage changes, and instruments what no earlier stage could.
-/

namespace EditPipeline

variable {σ π : Type}

namespace Breaking

/-! ## What the stages say -/

/-- What the edits report, each about the program that the one before it left. -/
def reports : List (List TypeId) → Program → List Diagnostic
  | [], _ => []
  | tracked :: rest, program =>
      (edit tracked program).2.diagnostic :: reports rest (edit tracked program).1

@[simp] theorem length_reports (lists : List (List TypeId)) (program : Program) :
    (reports lists program).length = lists.length := by
  induction lists generalizing program with
  | nil => rfl
  | cons tracked rest ih => simp [reports, ih]

theorem stage_diagnostic (tally : Tally) :
    { tally.diagnostic with stage := editorName } = tally.diagnostic := by
  unfold Tally.diagnostic
  split
  · rfl
  · split <;> rfl

/-- What is decorated stays decorated. -/
theorem matched_marked (tracked others : List TypeId) (program : Program) :
    matched tracked (marked others program) = matched tracked program := by
  unfold matched
  rw [methods_marked, List.countP_map]
  refine List.countP_congr fun entry _ => ?_
  simp

/-- The methods that are decorated with a tracked type and neither instrumented in the
program nor decorated with an earlier type. -/
def fresh (earlier : List (List TypeId)) (tracked : List TypeId) (program : Program) :
    List (TypeId × Method) :=
  program.methods.filter fun entry =>
    isTracked tracked entry.2 && !entry.2.hasTag breakTag &&
      !earlier.any (isTracked · entry.2)

/-- What is left to instrument after edits for earlier types. -/
theorem fullName_pending_marked (earlier : List (List TypeId)) (tracked : List TypeId)
    (program : Program) :
    (pending tracked (marked earlier.flatten program)).map fullName =
      (fresh earlier tracked program).map fullName := by
  unfold pending fresh
  rw [methods_marked, List.filter_map, List.map_map]
  have hname : (fullName ∘ fun entry : TypeId × Method =>
      (entry.1, mark earlier.flatten entry.2)) = fullName := by
    funext entry
    simp [fullName]
  rw [hname]
  congr 1
  refine List.filter_congr fun entry _ => ?_
  simp [isTracked_flatten, Bool.and_assoc]

/-- The tally of a stage, as it can be read off the program that the run got. -/
def tally (earlier : List (List TypeId)) (tracked : List TypeId) (program : Program) : Tally where
  matched := matched tracked program
  instrumented := (fresh earlier tracked program).map fullName

theorem getElem?_reports (lists : List (List TypeId)) (program : Program) (index : Nat) :
    (reports lists program)[index]? =
      lists[index]?.map fun tracked =>
        (tally (lists.take index) tracked program).diagnostic := by
  -- the program of a later stage is the first one, marked for the earlier types
  suffices h : ∀ earlier : List (List TypeId),
      (reports lists (marked earlier.flatten program))[index]? =
        lists[index]?.map fun tracked =>
          (tally (earlier ++ lists.take index) tracked program).diagnostic by
    have hfirst := h []
    rw [marked_eq_self fun entry _ htracked => by simp at htracked] at hfirst
    exact hfirst
  induction lists generalizing index with
  | nil => simp [reports]
  | cons tracked rest ih =>
      intro earlier
      cases index with
      | zero =>
          simp [reports, edit_eq, tally, matched_marked, fullName_pending_marked]
      | succ index =>
          have hrest := ih index (earlier ++ [tracked])
          simp only [List.flatten_append, List.flatten_singleton] at hrest
          simp only [reports, List.getElem?_cons_succ, edit_eq, marked_marked, hrest,
            List.take_succ_cons, List.append_assoc, List.singleton_append]

/-! ## Stages, editors and edits by number -/

/-- Stages counted from `start`, which have said this so far. -/
def stagesFrom (start : Nat) (said : List (List Diagnostic)) : List Stage :=
  (said.zipIdx start).map fun (diagnostics, index) =>
    ⟨⟨index, BreakOn.kind⟩, ⟨editorName, diagnostics⟩⟩

/-- The editors of markers that are counted from `start`. -/
def editorsFrom (start : Nat) (breaks : List BreakOn) : List (MarkerOrigin × Editor σ) :=
  (breaks.zipIdx start).map fun (marker, index) => (⟨index, BreakOn.kind⟩, editor marker.types)

/-- The edits of stages that are counted from `start`. -/
def chainFrom (start : Nat) (breaks : List BreakOn) : List (Link σ) :=
  (breaks.zipIdx start).map fun (marker, index) => ⟨index, asEdit marker.types⟩

end Breaking

/-! ## Runs that nobody stops -/

namespace Run

/-- Nobody has requested cancellation, and nobody outside will. -/
structure Calm (run : Run σ π) : Prop where
  cancelled : run.shared.cancelled = false
  stopAt : run.stopAt = none

namespace Calm

variable {run : Run σ π}

theorem goes (hcalm : run.Calm) : run.cancelled = false := by
  simp [Run.cancelled, hcalm.cancelled, hcalm.stopAt]

theorem called (hcalm : run.Calm) (event : Event) {shared : Shared σ}
    (hshared : shared.cancelled = false) : (run.called event shared).Calm where
  cancelled := by simp [Run.called, note, hcalm.goes, hshared]
  stopAt := hcalm.stopAt

theorem poll (hcalm : run.Calm) : run.poll.Calm where
  cancelled := by simp [Run.poll, note, hcalm.goes]
  stopAt := hcalm.stopAt

theorem enroll (hcalm : run.Calm) (origin : MarkerOrigin) (name : String) (program : Program)
    {setup : Setup σ} (hshared : setup.shared.cancelled = false) :
    (run.enroll origin name program setup).Calm where
  cancelled := (hcalm.called (.setUp run.stages.length name program (Failure.of? setup.result))
    hshared).cancelled
  stopAt := hcalm.stopAt

theorem absorb (hcalm : run.Calm) (stage index : Nat) (program : Program) {reply : Reply σ}
    (hshared : reply.shared.cancelled = false) :
    (run.absorb stage index program reply).Calm where
  cancelled := (hcalm.called (.edit index program reply.result) hshared).cancelled
  stopAt := hcalm.stopAt

end Calm

open Breaking (stagesFrom editorsFrom chainFrom editAll reports)

/-! ## The three phases -/

theorem discover_breaks (start : Nat) (breaks : List BreakOn) {run : Run σ π}
    (hcalm : run.Calm) :
    ∃ after : Run σ π, discover start (breaks.map BreakOn.toMarker) run =
        (.ok (editorsFrom start breaks), after) ∧
      after.Calm ∧ after.stages = run.stages ∧ after.chain = run.chain := by
  induction breaks generalizing start run with
  | nil => exact ⟨run, rfl, hcalm, rfl, rfl⟩
  | cons marker rest ih =>
      have hcalled : (run.called (.discover start none) run.sharing).Calm :=
        hcalm.called _ hcalm.goes
      obtain ⟨after, hdiscover, hafter, hstages, hchain⟩ := ih (start + 1) hcalled
      refine ⟨after, ?_, hafter, hstages, hchain⟩
      simp only [List.map_cons, discover, BreakOn.toMarker] at hdiscover ⊢
      rw [hdiscover]
      simp [editorsFrom, List.zipIdx_cons]

theorem setUpAll_breaks (program : Program) (breaks : List BreakOn) {run : Run σ π}
    (hcalm : run.Calm) :
    ∃ after : Run σ π, setUpAll program (editorsFrom run.stages.length breaks) run =
        (.ok (), after) ∧ after.Calm ∧
      after.stages = run.stages ++ stagesFrom run.stages.length (breaks.map fun _ => []) ∧
      after.chain = run.chain ++ chainFrom run.stages.length breaks := by
  induction breaks generalizing run with
  | nil => exact ⟨run, rfl, hcalm, by simp [stagesFrom], by simp [chainFrom]⟩
  | cons marker rest ih =>
      -- the run with the stage of the first marker
      let origin : MarkerOrigin := ⟨run.stages.length, BreakOn.kind⟩
      let setup : Setup σ := (Breaking.editor marker.types).setUp program run.poll.sharing
      have hjoined : (run.poll.enroll origin Breaking.editorName program setup).Calm :=
        hcalm.poll.enroll origin Breaking.editorName program hcalm.poll.goes
      obtain ⟨after, hsetUp, hafter, hstages, hchain⟩ := ih hjoined
      have hlength : (run.poll.enroll origin Breaking.editorName program setup).stages.length =
          run.stages.length + 1 := by simp
      rw [hlength] at hsetUp hstages hchain
      refine ⟨after, ?_, hafter, ?_, ?_⟩
      · simp only [editorsFrom, List.zipIdx_cons, List.map_cons, setUpAll, hcalm.goes]
        exact hsetUp
      · rw [hstages]
        simp [stagesFrom, List.zipIdx_cons, setup, origin, Breaking.editor, Outbox.pushAll]
      · rw [hchain]
        simp [chainFrom, List.zipIdx_cons, setup, Breaking.editor]

theorem execute_breaks (done : List Stage) (breaks : List BreakOn) (program : Program)
    {run : Run σ π} (hcalm : run.Calm)
    (hstages : run.stages = done ++ stagesFrom done.length (breaks.map fun _ => [])) :
    ∃ after : Run σ π, execute [] done.length (chainFrom done.length breaks) program run =
        (.ok (editAll (breaks.map BreakOn.types) program), after) ∧
      after.chain = run.chain ∧
      after.stages = done ++ stagesFrom done.length
        ((reports (breaks.map BreakOn.types) program).map fun said => [said]) := by
  induction breaks generalizing done program run with
  | nil => exact ⟨run, rfl, rfl, by simpa [reports] using hstages⟩
  | cons marker rest ih =>
      let outbox : Outbox := run.poll.outbox done.length
      let reply : Reply σ := Breaking.asEdit marker.types program outbox run.poll.sharing
      let settled : Run σ π := run.poll.absorb done.length done.length program reply
      have hsettled : settled.Calm := hcalm.poll.absorb _ _ _ hcalm.poll.goes
      have happlied : applyLink [] done.length ⟨done.length, Breaking.asEdit marker.types⟩ program
          run.poll = (.ok (Breaking.edit marker.types program).1, settled) := rfl
      -- the stage of the edit is the first of those that have not spoken yet
      let said : Diagnostic := (Breaking.edit marker.types program).2.diagnostic
      let spoken : Stage := ⟨⟨done.length, BreakOn.kind⟩, ⟨Breaking.editorName, [said]⟩⟩
      have hstamped : { said with stage := Breaking.editorName } = said :=
        Breaking.stage_diagnostic _
      have hspoken : settled.stages =
          done ++ [spoken] ++ stagesFrom (done ++ [spoken]).length (rest.map fun _ => []) := by
        change run.stages.modify done.length _ = _
        rw [hstages, List.map_cons, stagesFrom, List.zipIdx_cons, List.map_cons,
          List.modify_eq_take_cons_drop (by simp)]
        simp [stagesFrom, spoken, reply, Breaking.asEdit, Outbox.pushAll, Outbox.push,
          Outbox.stamp, hstamped, said]
      obtain ⟨after, hexecute, hchain, hafter⟩ :=
        ih (done ++ [spoken]) (Breaking.edit marker.types program).1 hsettled hspoken
      have hlength : (done ++ [spoken]).length = done.length + 1 := by simp
      rw [hlength] at hexecute hafter
      refine ⟨after, ?_, hchain, ?_⟩
      · rw [chainFrom, List.zipIdx_cons, List.map_cons, execute]
        simp only [hcalm.goes, Bool.false_eq_true, if_false, happlied]
        exact hexecute
      · rw [hafter]
        simp [reports, stagesFrom, List.zipIdx_cons, spoken, said]

/-! ## Stages of a run that has ended -/

theorem stage_chainFrom (start : Nat) (breaks : List BreakOn) :
    (chainFrom start breaks : List (Link σ)).map Link.stage = List.range' start breaks.length := by
  induction breaks generalizing start with
  | nil => rfl
  | cons marker rest ih =>
      have hrest := ih (start + 1)
      simp only [chainFrom] at hrest
      simp [chainFrom, List.zipIdx_cons, hrest, List.range'_succ]

/-- Every stage has one edit. -/
theorem countP_chainFrom {breaks : List BreakOn} {index : Nat} (hindex : index < breaks.length) :
    (chainFrom 0 breaks : List (Link σ)).countP (fun link => link.stage = index) = 1 := by
  have hcount : (chainFrom 0 breaks : List (Link σ)).countP (fun link => link.stage = index) =
      (List.range' 0 breaks.length).count index := by
    rw [← stage_chainFrom (σ := σ), List.count_eq_countP, List.countP_map]
    refine List.countP_congr fun link _ => ?_
    simp
  rw [hcount]
  exact List.count_eq_one_of_mem List.nodup_range' (by simp [List.mem_range'_1, hindex])

theorem stageInfos_breaks {run : Run σ π} {breaks : List BreakOn} {said : List (List Diagnostic)}
    (hstages : run.stages = stagesFrom 0 said) (hchain : run.chain = chainFrom 0 breaks)
    (hlength : said.length = breaks.length) :
    run.stageInfos = (List.range breaks.length).map fun index =>
      ⟨Breaking.editorName, ⟨index, BreakOn.kind⟩, 1⟩ := by
  apply List.ext_getElem?
  intro index
  rw [stageInfos, hstages, hchain, List.getElem?_mapIdx, stagesFrom, List.getElem?_map,
    List.getElem?_zipIdx, List.getElem?_map, ← hlength]
  by_cases hindex : index < said.length
  · have hcount := countP_chainFrom (σ := σ) (hlength ▸ hindex)
    simp [hindex, hcount, Stage.name]
  · simp [hindex]

theorem diagnostics_stagesFrom (start : Nat) (said : List (List Diagnostic)) :
    (stagesFrom start said).flatMap (fun stage => stage.outbox.diagnostics) = said.flatten := by
  induction said generalizing start with
  | nil => rfl
  | cons diagnostics rest ih =>
      have hrest := ih (start + 1)
      simp only [stagesFrom] at hrest
      simp [stagesFrom, List.zipIdx_cons, hrest]

end Run

/-! ## Whole runs -/

namespace Pipeline

open Breaking (editAll reports)

/-- **A run for debugger breaks completes**, if nobody watches or stops it. -/
theorem run_breaks (program : Program) (breaks : List BreakOn) (memory : σ) (watch : π) :
    (({} : Pipeline π).run program (breaks.map BreakOn.toMarker) ⟨false, memory⟩ watch).outcome =
      .completed (editAll (breaks.map BreakOn.types) program)
        ⟨(List.range breaks.length).map fun index =>
            ⟨Breaking.editorName, ⟨index, BreakOn.kind⟩, 1⟩,
          reports (breaks.map BreakOn.types) program⟩ := by
  have hstart : (({} : Pipeline π).start ⟨false, memory⟩ watch : Run σ π).Calm := ⟨rfl, rfl⟩
  obtain ⟨asked, hdiscover, hasked, hnone, hfree⟩ := Run.discover_breaks 0 breaks hstart.poll
  have hempty : asked.stages = [] := hnone
  obtain ⟨joined, hsetUp, hjoined, hstages, hchain⟩ := Run.setUpAll_breaks program breaks hasked
  rw [hempty] at hsetUp hstages hchain
  rw [show asked.chain = [] from hfree] at hchain
  obtain ⟨after, hexecute, hkept, hspoken⟩ :=
    Run.execute_breaks [] breaks program hjoined (by simpa using hstages)
  have hcollect : (({} : Pipeline π).start ⟨false, memory⟩ watch).collect program
      (breaks.map BreakOn.toMarker) = (.ok (), joined) := by
    rw [Run.collect]
    simp only [hstart.goes, Bool.false_eq_true, if_false, hdiscover]
    exact hsetUp
  have hcollected : joined.chain = Breaking.chainFrom 0 breaks := hchain
  rw [run_conclude {} program _ _ watch none hcollect, hcollected]
  change (((joined.execute [] 0 (Breaking.chainFrom 0 breaks) program).2.conclude []
    (joined.execute [] 0 (Breaking.chainFrom 0 breaks) program).1).outcome) = _
  rw [show joined.execute [] 0 (Breaking.chainFrom 0 breaks) program = _ from hexecute]
  have hinfos := Run.stageInfos_breaks hspoken (hkept.trans hcollected) (by simp)
  have hdiagnostics : after.diagnostics = reports (breaks.map BreakOn.types) program := by
    rw [Run.diagnostics, show after.stages = _ from hspoken, List.nil_append,
      Run.diagnostics_stagesFrom, ← List.flatMap_def, List.flatMap_singleton']
  rw [Run.conclude, Run.outcome_finish, Run.findings, hinfos, hdiagnostics]

/-- The editors that markers for debugger breaks give. -/
theorem editors_of_breaks {asked : List (Asking σ)} {breaks : List BreakOn}
    (hmarkers : asked.map Asking.marker = breaks.map BreakOn.toMarker) (start : Nat) :
    (roster start asked).map Prod.snd = breaks.map fun marker => Breaking.editor marker.types := by
  induction breaks generalizing asked start with
  | nil =>
      obtain rfl : asked = [] := by simpa using hmarkers
      rfl
  | cons marker rest ih =>
      obtain ⟨asking, more, rfl, hmarker, hmore⟩ := List.map_eq_cons_iff.1 hmarkers
      have hgave := asking.gave
      rw [hmarker] at hgave
      have heditors : asking.editors = [Breaking.editor marker.types] := by
        simpa [BreakOn.toMarker] using (congrArg Prod.fst hgave).symm
      have hrest := ih hmore (start + 1)
      simp only [roster] at hrest
      simp [roster, List.zipIdx_cons, heditors, hrest]

/-- Each of these editors registers one edit. -/
theorem registered_of_breaks {joined : List (Joining σ)} {breaks : List BreakOn}
    (heditors : joined.map Joining.editor = breaks.map fun marker => Breaking.editor marker.types) :
    (registered joined).map Prod.snd = breaks.map fun marker => Breaking.asEdit marker.types := by
  induction breaks generalizing joined with
  | nil =>
      obtain rfl : joined = [] := by simpa using heditors
      rfl
  | cons marker rest ih =>
      obtain ⟨joining, more, rfl, heditor, hmore⟩ := List.map_eq_cons_iff.1 heditors
      have hrest := ih hmore
      simp only [registered] at hrest
      rw [registered, List.flatMap_cons, List.map_append, hrest, Joining.setup, heditor]
      rfl

/-- Passing through these edits is editing for all the types. -/
theorem final_of_passed {passed : List (Passing σ)} {breaks : List BreakOn}
    {program final : Program}
    (hedits : passed.map (fun passing => passing.link.edit) =
      breaks.map fun marker => Breaking.asEdit marker.types)
    (hrelay : Relay program (passed.map Passing.programs) final) :
    final = editAll (breaks.map BreakOn.types) program := by
  induction breaks generalizing passed program with
  | nil =>
      obtain rfl : passed = [] := by simpa using hedits
      exact hrelay
  | cons marker rest ih =>
      obtain ⟨passing, more, rfl, hedit, hmore⟩ := List.map_eq_cons_iff.1 hedits
      obtain ⟨hprogram, hrest⟩ := hrelay
      have hsucceeded := passing.succeeded
      rw [hedit, show passing.program = program from hprogram] at hsucceeded
      have hnext : passing.next = (Breaking.edit marker.types program).1 :=
        (Except.ok.inj hsucceeded).symm
      rw [hnext] at hrest
      exact ih hmore hrest

/-- **What a run for debugger breaks completes with**, whoever watches it and whenever it
may be stopped. -/
theorem final_of_breaks {pipeline : Pipeline π} {program final : Program} {breaks : List BreakOn}
    {shared : Shared σ} {watch : π} {stopAt : Option Nat} {findings : Findings}
    (hcompleted : (pipeline.run program (breaks.map BreakOn.toMarker) shared watch stopAt).outcome =
      .completed final findings) :
    final = editAll (breaks.map BreakOn.types) program := by
  have hends := pipeline.ends program (breaks.map BreakOn.toMarker) shared watch stopAt
  generalize pipeline.run program _ shared watch stopAt = ended at hends hcompleted
  cases hends with
  | collecting hcollects => simp at hcompleted
  | executing hcollects hexecutes => simp at hcompleted
  | completed hcollects hexecutes =>
      simp only [Run.outcome_finish, Outcome.completed.injEq] at hcompleted
      obtain ⟨rfl, -⟩ := hcompleted
      cases hcollects with
      | @done asked joined between _ hgoes hmarkers hasks hroster hjoins =>
          cases hexecutes with
          | all passed hlinks hpasses =>
              have heditors : joined.map Joining.editor =
                  breaks.map fun marker => Breaking.editor marker.types := by
                rw [← editors_of_breaks hmarkers 0, ← hroster, List.map_map]
                rfl
              have hedits : passed.map (fun passing => passing.link.edit) =
                  breaks.map fun marker => Breaking.asEdit marker.types := by
                rw [← registered_of_breaks heditors, ← owners_collected hasks hjoins, ← hlinks]
                simp
              exact final_of_passed hedits hpasses.programs

end Pipeline

end EditPipeline
