import EditPipeline.Proofs.Run.Extent
import EditPipeline.Proofs.Stages

/-!
# The stages of a run that aborted

A stage holds the outbox of its editor, so it has to be there before the editor is initialized:
`Run.enroll` adds it whatever comes of the call.  The stages of a run that aborted are therefore
those of the editors that it *called*.  These are the editors that it initialized, and one more
if an editor failed (`Run.Reaches`): the failing editor is listed last, with the edits that it
had registered by then, and what it said is at the end of the diagnostics.

A failing editor ends the run at once, so there is at most one, and the list is that of the
initialized editors exactly when the journal has no failed initialization.
-/

namespace EditPipeline

variable {σ π : Type}

/-! ## Editors that were called -/

/-- Whether an event is an initialization that failed. -/
@[simp] def Event.isFailedSetUp : Event → Bool
  | .setUp _ _ _ failure => failure.isSome
  | _ => false

/-- An initialization that failed is to be found among the initializations. -/
theorem forall_setUps_iff {journal : Journal} :
    (∀ event ∈ journal.filter Event.isSetUp, event.isFailedSetUp = false) ↔
      ∀ event ∈ journal, event.isFailedSetUp = false := by
  rw [List.forall_mem_filter]
  refine forall₂_congr fun event _ => ⟨fun hfailed => ?_, fun hfailed _ => hfailed⟩
  cases event with
  | setUp stage name program failure => exact hfailed rfl
  | _ => rfl

namespace Opening

/-- What an outcome lists for the editor. -/
def info (opening : Opening σ) : StageInfo :=
  ⟨opening.editor.name, opening.origin, opening.setup.edits.length⟩

/-- What the editor said while it was initialized, under its name. -/
def said (opening : Opening σ) : List Diagnostic :=
  opening.setup.emitted.map fun diagnostic => { diagnostic with stage := opening.editor.name }

theorem isFailedSetUp_event (opening : Opening σ) (index : Nat) :
    (opening.event index).isFailedSetUp = false ↔ opening.setup.result = .ok () := by
  unfold event
  cases opening.setup.result <;> simp

theorem forall_events_iff {opened : List (Opening σ)} :
    (∀ event ∈ events opened, event.isFailedSetUp = false) ↔
      ∀ opening ∈ opened, opening.setup.result = .ok () := by
  calc (∀ event ∈ events opened, event.isFailedSetUp = false)
      ↔ ∀ entry ∈ opened.zipIdx, entry.1.setup.result = .ok () := by
        simp only [events, List.forall_mem_map, isFailedSetUp_event]
    _ ↔ ∀ opening ∈ opened.zipIdx.map Prod.fst, opening.setup.result = .ok () := by
        rw [List.forall_mem_map]
    _ ↔ ∀ opening ∈ opened, opening.setup.result = .ok () := by rw [List.zipIdx_map_fst]

end Opening

/-- The editors that were called: those that were initialized, and the one that failed. -/
def calledOf (joined : List (Joining σ)) (failing : Option (Opening σ)) : List (Opening σ) :=
  joined.map Joining.opening ++ failing.toList

theorem entries_openings (joined : List (Joining σ)) :
    (joined.map Joining.opening).map Opening.entry = joined.map Joining.entry :=
  List.map_map

theorem infos_openings (joined : List (Joining σ)) :
    (joined.map Joining.opening).map Opening.info = joined.map Joining.info :=
  List.map_map

/-- All of them succeeded if none failed. -/
theorem forall_calledOf_iff {joined : List (Joining σ)} {failing : Option (Opening σ)}
    (hfailing : ∀ opening ∈ failing, ∃ failure, opening.setup.result = .error failure) :
    (∀ opening ∈ calledOf joined failing, opening.setup.result = .ok ()) ↔ failing = none := by
  have hjoined : ∀ opening ∈ joined.map Joining.opening, opening.setup.result = .ok () :=
    List.forall_mem_map.2 fun joining _ => joining.succeeded
  rw [calledOf, List.forall_mem_append, and_iff_right hjoined]
  cases failing with
  | none => simp
  | some opening =>
      obtain ⟨failure, hfails⟩ := hfailing opening rfl
      simp [hfails]

namespace Run

/-! ## What one more stage adds -/

/-- Links know stages that are there, so a new stage owns the edits of its own editor only. -/
theorem stageInfos_enroll {run : Run σ π}
    (hlinks : ∀ link ∈ run.chain, link.stage < run.stages.length) (origin : MarkerOrigin)
    (name : String) (program : Program) (setup : Setup σ) :
    (run.enroll origin name program setup).stageInfos =
      run.stageInfos ++ [⟨name, origin, setup.edits.length⟩] := by
  have hnew (index : Nat) : (setup.edits.map (Link.mk run.stages.length)).countP
      (fun link => link.stage = index) =
        if index = run.stages.length then setup.edits.length else 0 := by
    by_cases hindex : index = run.stages.length
    · simp [hindex, List.countP_map, Function.comp_def]
    · simp [hindex, Ne.symm hindex, List.countP_map, Function.comp_def]
  have hold : run.chain.countP (fun link => link.stage = run.stages.length) = 0 := by
    refine List.countP_eq_zero.2 fun link hlink => ?_
    simpa using Nat.ne_of_lt (hlinks link hlink)
  unfold stageInfos
  rw [stages_enroll, chain_enroll, List.mapIdx_append]
  congr 1
  · refine List.mapIdx_eq_mapIdx_iff.2 fun index hindex => ?_
    rw [List.countP_append, hnew, if_neg (Nat.ne_of_lt hindex), Nat.add_zero]
  · simp [hnew, hold, Stage.name, Outbox.pushAll_eq]

theorem diagnostics_enroll (run : Run σ π) (origin : MarkerOrigin) (name : String)
    (program : Program) (setup : Setup σ) :
    (run.enroll origin name program setup).diagnostics =
      run.diagnostics ++ setup.emitted.map fun diagnostic => { diagnostic with stage := name } := by
  simp [diagnostics, Outbox.pushAll_eq, Outbox.stamp]

theorem diagnostics_announce (phase : Phase) (index : Nat) (plugins : List (Plugin π))
    (run : Run σ π) : (run.announce phase index plugins).diagnostics = run.diagnostics := by
  rw [diagnostics, stages_announce, diagnostics]

/-- What the initialized editors said is what is there to tell when the next one comes. -/
theorem Joins.diagnostics {program : Program} {run after : Run σ π} {joined : List (Joining σ)}
    (hjoins : Joins program run joined after) (hstages : run.stages = []) :
    after.diagnostics = (joined.map Joining.opening).flatMap Opening.said := by
  rw [Run.diagnostics, hjoins.stages, hstages, List.nil_append, List.flatMap_map, List.flatMap_map]
  refine List.flatMap_congr fun joining _ => ?_
  rw [Joining.stage, Outbox.pushAll_eq]
  rfl

end Run

/-! ## How far a run came with its editors -/

/-- Of the editors that the markers gave, the run initialized `joined`, one after the other in
the order in which they were given.  The one after them was called and failed, if it is
`failing`. -/
structure Run.Reaches (program : Program) (markers : List (Marker σ)) (start : Run σ π)
    (asked : List (Asking σ)) (joined : List (Joining σ)) (failing : Option (Opening σ)) :
    Prop where
  marked : asked.map Asking.marker <+: markers
  given : (calledOf joined failing).map Opening.entry <+: roster 0 asked
  joins : ∃ between before : Run σ π, Run.Asks 0 start.poll asked between ∧
    Run.Joins program between joined before ∧
    ∀ opening ∈ failing, opening.program = program ∧ before.cancelled = false ∧
      opening.given = before.poll.sharing
  fails : ∀ opening ∈ failing, ∃ failure, opening.setup.result = .error failure

/-- What an aborted run has to show of its editors.  Its stages are those of the editors that it
called, each with the edits that the editor registered. -/
def ListsCalled (program : Program) (markers : List (Marker σ)) (start : Run σ π)
    (error : PipelineError) (findings : Findings) (journal : Journal) : Prop :=
  ∃ (asked : List (Asking σ)) (joined : List (Joining σ)) (failing : Option (Opening σ)),
    start.Reaches program markers asked joined failing ∧
    journal.filter Event.isSetUp = Opening.events (calledOf joined failing) ∧
    findings.stages = (calledOf joined failing).map Opening.info ∧
    -- these are the initialized editors unless one failed
    (findings.stages = joined.map Joining.info ↔
      ∀ event ∈ journal, event.isFailedSetUp = false) ∧
    -- the failing editor ended the run, and what it said is kept
    ∀ opening ∈ failing,
      (∀ failure, opening.setup.result = .error failure →
        error = Run.setupError opening.origin opening.editor.name failure) ∧
      findings.diagnostics = (joined.map Joining.opening).flatMap Opening.said ++ opening.said

section Listed

variable {program : Program} {markers : List (Marker σ)} {start between before after : Run σ π}
  {error : PipelineError} {asked : List (Asking σ)} {joined : List (Joining σ)}
  {failing : Option (Opening σ)}

theorem Run.Reaches.listsCalled (hreaches : start.Reaches program markers asked joined failing)
    (hkeeps : after.Keeps (calledOf joined failing))
    (hinfos : after.stageInfos = (calledOf joined failing).map Opening.info)
    (hended : ∀ opening ∈ failing,
      (∀ failure, opening.setup.result = .error failure →
        error = Run.setupError opening.origin opening.editor.name failure) ∧
      after.diagnostics = (joined.map Joining.opening).flatMap Opening.said ++ opening.said) :
    ListsCalled program markers start error after.findings after.journal := by
  refine ⟨asked, joined, failing, hreaches, hkeeps.setUps, hinfos, ?_, hended⟩
  have hjournal : (∀ event ∈ after.journal, event.isFailedSetUp = false) ↔ failing = none := by
    rw [← forall_setUps_iff, hkeeps.setUps, Opening.forall_events_iff,
      forall_calledOf_iff hreaches.fails]
  have hlist : (calledOf joined failing).map Opening.info =
      joined.map Joining.info ++ failing.toList.map Opening.info := by
    rw [calledOf, List.map_append, infos_openings]
  show after.stageInfos = _ ↔ _
  rw [hjournal, hinfos, hlist, List.append_right_eq_self]
  cases failing <;> simp

/-- A run that no editor ended lists the editors that it initialized. -/
theorem Run.Joins.listsCalled (hjoins : Run.Joins program between joined before)
    (hasks : Run.Asks 0 start.poll asked between) (hmarked : asked.map Asking.marker <+: markers)
    (hgiven : joined.map Joining.entry <+: roster 0 asked) (hstart : start.Keeps [])
    (hinfos : after.stageInfos = before.stageInfos)
    (hkeeps : after.Keeps (joined.map Joining.opening)) :
    ListsCalled program markers start error after.findings after.journal := by
  have hcalled : calledOf joined none = joined.map Joining.opening := List.append_nil _
  have hreaches : start.Reaches program markers asked joined none := {
    marked := hmarked
    given := by rwa [hcalled, entries_openings]
    joins := ⟨between, before, hasks, hjoins, by simp⟩
    fails := by simp }
  refine hreaches.listsCalled (hcalled ▸ hkeeps) ?_ (by simp)
  have hbetween := hasks.keeps hstart
  rw [hinfos, hjoins.stageInfos hbetween.stages_eq_nil hbetween.chain, hcalled, infos_openings]

/-- An editor that failed is listed last, for its stage was there before it was called. -/
theorem Run.Joins.listsCalled_of_failed (opening : Opening σ) {failure : Failure}
    (hjoins : Run.Joins program between joined before)
    (hasks : Run.Asks 0 start.poll asked between) (hmarked : asked.map Asking.marker <+: markers)
    (hgiven : joined.map Joining.entry ++ [opening.entry] <+: roster 0 asked)
    (hstart : start.Keeps [])
    (hopening : opening.program = program ∧ before.cancelled = false ∧
      opening.given = before.poll.sharing)
    (hfails : opening.setup.result = .error failure) (plugins : List (Plugin π))
    (hafter : after = (before.poll.enroll opening.origin opening.editor.name opening.program
      opening.setup).announce .done 0 plugins) :
    ListsCalled program markers start
      (Run.setupError opening.origin opening.editor.name failure) after.findings
      after.journal := by
  have hcalled : calledOf joined (some opening) = joined.map Joining.opening ++ [opening] := rfl
  have hreaches : start.Reaches program markers asked joined (some opening) := {
    marked := hmarked
    given := by
      rw [hcalled, List.map_append, entries_openings]
      exact hgiven
    joins := ⟨between, before, hasks, hjoins, fun other hother => by
      obtain rfl := Option.mem_some_iff.1 hother
      exact hopening⟩
    fails := fun other hother => by
      obtain rfl := Option.mem_some_iff.1 hother
      exact ⟨failure, hfails⟩ }
  have hbetween := hasks.keeps hstart
  have hbefore := hjoins.keeps hasks hstart
  have hlinks : ∀ link ∈ before.poll.chain, link.stage < before.poll.stages.length := by
    rw [hbefore.poll.chain, hbefore.poll.length_stages]
    exact fun link => stage_lt_of_mem_linksOf
  subst hafter
  have hsetUp : Run.Does plugins before.poll (.setUp before.poll.stages.length opening) _ :=
    .setUp opening hopening.2.2
  have hkeeps := hsetUp.keeps hbefore.poll fun _ _ hother => by cases hother
  refine hreaches.listsCalled (hkeeps.announce .done plugins) ?_ ?_
  · have hjoined : before.poll.stageInfos = joined.map Joining.info :=
      hjoins.stageInfos hbetween.stages_eq_nil hbetween.chain
    rw [Run.stageInfos_announce, Run.stageInfos_enroll hlinks, hjoined, hcalled, List.map_append,
      infos_openings]
    rfl
  · intro other hother
    obtain rfl := Option.mem_some_iff.1 hother
    refine ⟨fun other hother => ?_, ?_⟩
    · rw [Except.error.inj (hfails.symm.trans hother)]
    · have hjoined : before.poll.diagnostics =
          (joined.map Joining.opening).flatMap Opening.said :=
        hjoins.diagnostics hbetween.stages_eq_nil
      rw [Run.diagnostics_announce, Run.diagnostics_enroll, hjoined]
      rfl

/-- Whatever ends the collecting phase, the editors that it called are listed. -/
theorem Run.Collects.listsCalled
    (hcollects : start.Collects program markers (.error error) before)
    (hstart : start.Keeps []) (plugins : List (Plugin π))
    (hafter : after = before.announce .done 0 plugins) :
    ListsCalled program markers start error after.findings after.journal := by
  subst hafter
  have hall {asked : List (Asking σ)} (hmarkers : asked.map Asking.marker = markers) :
      asked.map Asking.marker <+: markers := hmarkers ▸ List.prefix_rfl
  cases hcollects with
  | stopped hstops =>
      have hasks : Run.Asks 0 start.poll [] start.poll := .nil 0 start.poll
      exact Run.Joins.listsCalled (.nil start.poll) hasks List.nil_prefix List.nil_prefix hstart
        (Run.stageInfos_announce .done 0 plugins _)
        (hstart.poll.announce .done plugins)
  | @refused asked marker rest last source shared hgoes hmarkers hasks hfails =>
      have hask : Run.Does plugins last (.ask asked.length ⟨marker, last.sharing⟩) _ :=
        .ask asked.length _ rfl
      have hanswer : Inquiry.answer ⟨marker, last.sharing⟩ = (.error source, shared) := hfails
      have hlast := hask.keeps (hasks.keeps hstart) fun _ _ hother => by cases hother
      rw [Inquiry.event, hanswer] at hlast
      exact Run.Joins.listsCalled (.nil last) hasks ⟨_, hmarkers⟩ List.nil_prefix hstart
        (Run.stageInfos_announce .done 0 plugins _)
        (hlast.announce .done plugins)
  | cut hgoes hmarkers hasks hroster hjoins hstops =>
      exact hjoins.listsCalled hasks (hall hmarkers) ⟨_, hroster⟩ hstart
        (Run.stageInfos_announce .done 0 plugins _)
        ((hjoins.keeps hasks hstart).poll.announce .done plugins)
  | @failed asked joined origin editor rest between last failure hgoes hmarkers hasks hroster
      hjoins hjoined hfails =>
      have hgiven : joined.map Joining.entry ++ [(origin, editor)] <+: roster 0 asked :=
        ⟨rest, (List.append_assoc _ _ _).trans hroster⟩
      exact hjoins.listsCalled_of_failed ⟨origin, editor, program, last.poll.sharing⟩
        hasks (hall hmarkers) hgiven hstart ⟨rfl, hjoined, rfl⟩ hfails plugins rfl

/-- While executing no editor is called, so the list stays that of the initialized editors. -/
theorem Run.Executes.listsCalled {plugins : List (Plugin π)} {collected : Run σ π}
    {result : Except PipelineError Program}
    (hcollects : start.Collects program markers (.ok ()) collected)
    (hexecutes : (collected.announce .executing 0 plugins).Executes plugins 0 collected.chain
      program result before)
    (hstart : start.Keeps []) (hafter : after = before.announce .done 0 plugins) :
    ListsCalled program markers start error after.findings after.journal := by
  subst hafter
  cases hcollects with
  | @done asked joined between _ hgoes hmarkers hasks hroster hjoins =>
      have hcollected := hjoins.keeps hasks hstart
      rw [hcollected.chain] at hexecutes
      obtain ⟨edited, looks, hexecuted, hcovers⟩ := hexecutes.covers
      have hbefore := hcovers.keeps_edited hexecuted.links_prefix
        (hcollected.announce .executing plugins)
      refine hjoins.listsCalled hasks (hmarkers ▸ List.prefix_rfl) (hroster ▸ List.prefix_rfl)
        hstart ?_ (hbefore.announce .done plugins)
      rw [Run.stageInfos_announce, hexecutes.stageInfos, Run.stageInfos_announce]

end Listed

/-! ## Main statement -/

/-- **An aborted run lists the editors that it called.**  Whether a run aborts or collecting
alone, and whatever ends it, the stages are those of the editors that were called, in the order
of discovery: each that was initialized, and last the one that failed, if it was an editor that
failed.  So they are the initialized editors exactly if no initialization failed.  What the
failing editor had said is among the diagnostics. -/
theorem aborted_lists_called (pipeline : Pipeline π) (program : Program)
    (markers : List (Marker σ)) (shared : Shared σ) (watch : π) (stopAt : Option Nat) :
    let start := pipeline.start shared watch stopAt
    let ran := pipeline.run program markers shared watch stopAt
    let looked := pipeline.collect program markers shared watch stopAt
    (∀ error findings, ran.outcome = .aborted error findings →
      ListsCalled program markers start error findings ran.journal) ∧
    ∀ error findings, looked.outcome = (some error, findings) →
      ListsCalled program markers start error findings looked.journal := by
  dsimp only
  have hstart := pipeline.keeps_start (σ := σ) shared watch stopAt
  constructor
  · intro error findings haborted
    have hends := pipeline.ends program markers shared watch stopAt
    generalize pipeline.run program markers shared watch stopAt = ended at hends haborted ⊢
    cases hends with
    | completed hcollects hexecutes => cases haborted
    | collecting hcollects =>
        cases haborted
        exact hcollects.listsCalled hstart pipeline.plugins rfl
    | executing hcollects hexecutes =>
        cases haborted
        exact hexecutes.listsCalled hcollects hstart rfl
  · intro error findings haborted
    have hcollects := Run.collects program markers (pipeline.start shared watch stopAt)
    unfold Pipeline.collect at haborted ⊢
    generalize (pipeline.start shared watch stopAt).collect program markers = ended
      at hcollects haborted ⊢
    obtain ⟨result, after⟩ := ended
    cases result with
    | ok done => cases haborted
    | error cause =>
        cases haborted
        exact hcollects.listsCalled hstart pipeline.plugins rfl

/-- A marker with three editors, of which the second one fails when it has said something and
has registered an edit. -/
def faltering (failure : Failure) : Marker Unit where
  kind := "faltering"
  editors shared := (.ok [registrar "ready" [extending "a"], {
    name := "broken"
    setUp := fun _ shared => {
      result := .error failure
      emitted := [{ severity := .warning, stage := "", message := "no configuration" }]
      edits := [extending "b"]
      shared } }, registrar "later" []], shared)

/-- The editor that failed is listed, in a run as in collecting alone, whether it failed or
stopped on request; the one after it is not. -/
theorem listed_of_faltering :
    let origin : MarkerOrigin := ⟨0, "faltering"⟩
    let stages : List StageInfo := [⟨"ready", origin, 1⟩, ⟨"broken", origin, 1⟩]
    let findings : Findings := ⟨stages, [⟨.warning, "broken", "no configuration", none⟩]⟩
    let ran := ({} : Pipeline Unit).run { name := "p" } [faltering (.message "boom")] ⟨false, ()⟩ ()
    let looked := ({} : Pipeline Unit).collect { name := "p" } [faltering .cancelled] ⟨false, ()⟩ ()
    let error : PipelineError := .stageInitialization origin (some "broken") (.message "boom")
    (ran.outcome = .aborted error findings ∧
      ListsCalled { name := "p" } [faltering (.message "boom")]
        (({} : Pipeline Unit).start ⟨false, ()⟩ ()) error findings ran.journal) ∧
    looked.outcome = (some .cancelled, findings) ∧
    ListsCalled { name := "p" } [faltering .cancelled] (({} : Pipeline Unit).start ⟨false, ()⟩ ())
      .cancelled findings looked.journal := by
  obtain ⟨hran, -⟩ := aborted_lists_called ({} : Pipeline Unit) { name := "p" }
    [faltering (.message "boom")] ⟨false, ()⟩ () none
  obtain ⟨-, hlooked⟩ := aborted_lists_called ({} : Pipeline Unit) { name := "p" }
    [faltering .cancelled] ⟨false, ()⟩ () none
  exact ⟨⟨rfl, hran _ _ rfl⟩, rfl, hlooked _ _ rfl⟩

/-- The name of the editor whose initialization an event notes, if it succeeded. -/
def Event.initialized? : Event → Option String
  | .setUp _ name _ none => some name
  | _ => none

/-- So the list is not that of the editors that were initialized before the run aborted. -/
theorem more_listed_than_initialized :
    let ran := ({} : Pipeline Unit).run { name := "p" } [faltering (.message "boom")] ⟨false, ()⟩ ()
    ran.outcome.isCompleted = false ∧
    ran.journal.filterMap Event.initialized? = ["ready"] ∧
    ran.outcome.findings.stages.map StageInfo.name = ["ready", "broken"] := by
  exact ⟨rfl, rfl, rfl⟩

end EditPipeline
