import EditPipeline.Proofs.Run.Emissions
import EditPipeline.Proofs.Run.Ending

/-!
# How far a run comes

A run calls the markers, then the editors that these gave, then the edits that the editors
registered, each kind in order.  What it has called by its end is its `Extent`.  Only a run that
completes has called all of them; any other comes as far as the call that failed, or as far as
the look for cancellation that saw a request.  `Extent.Collected` and `Extent.Executed` have one
case for each way in which a phase can end, and `Extent.Reached` is for a whole run.

An extent does not say what the run notes of it.  That the acts of the run are those of its
extent, and no others, is what `Ends.covers` and `covers_collect` prove.
-/

namespace EditPipeline

variable {σ π : Type}

/-! ## Extents -/

/-- What a run has called by its end, plugins apart, and what it has seen whenever it looked
for cancellation. -/
structure Extent (σ : Type) where
  asked : List (Inquiry σ) := []
  opened : List (Opening σ) := []
  edited : List (Editing σ) := []
  looks : List Bool := []

/-- The calls in the order of time. -/
def Extent.calls (extent : Extent σ) : List (Act σ π) :=
  Act.asks 0 extent.asked ++ Act.setUps 0 extent.opened ++ Act.edits 0 extent.edited

/-- The error, if there is one. -/
def PipelineError.of? {α : Type} : Except PipelineError α → Option PipelineError
  | .ok _ => none
  | .error error => some error

namespace Extent

/-- How far a run came that ended while it was collecting, with this error, or that collected
without an error. -/
inductive Collected (markers : List (Marker σ)) : Option PipelineError → Extent σ → Prop where
  /-- It called nothing, for the first look saw a request. -/
  | stopped : Collected markers (some .cancelled) { looks := [true] }
  /-- It asked the markers up to one that failed. -/
  | refused {asked : List (Asking σ)} {refusing : Inquiry σ} {rest : List (Marker σ)}
      {source : Failure}
      (hmarkers : asked.map Asking.marker ++ refusing.marker :: rest = markers)
      (hfails : refusing.answer.1 = .error source) :
      Collected markers
        (some (.stageInitialization ⟨asked.length, refusing.marker.kind⟩ none source))
        { asked := asked.map Asking.inquiry ++ [refusing], looks := [false] }
  /-- It initialized the editors up to one before which a look saw a request. -/
  | cut {asked : List (Asking σ)} {joined : List (Joining σ)} {entry : MarkerOrigin × Editor σ}
      {rest : List (MarkerOrigin × Editor σ)}
      (hmarkers : asked.map Asking.marker = markers)
      (hroster : joined.map Joining.entry ++ entry :: rest = roster 0 asked) :
      Collected markers (some .cancelled)
        { asked := asked.map Asking.inquiry
          opened := joined.map Joining.opening
          looks := false :: List.replicate joined.length false ++ [true] }
  /-- It initialized the editors up to one that failed. -/
  | failed {asked : List (Asking σ)} {joined : List (Joining σ)} {failing : Opening σ}
      {rest : List (MarkerOrigin × Editor σ)} {failure : Failure}
      (hmarkers : asked.map Asking.marker = markers)
      (hroster : joined.map Joining.entry ++ failing.entry :: rest = roster 0 asked)
      (hfails : failing.setup.result = .error failure) :
      Collected markers (some (Run.setupError failing.origin failing.editor.name failure))
        { asked := asked.map Asking.inquiry
          opened := joined.map Joining.opening ++ [failing]
          looks := false :: List.replicate joined.length false ++ [false] }
  /-- It initialized all editors. -/
  | done {asked : List (Asking σ)} {joined : List (Joining σ)}
      (hmarkers : asked.map Asking.marker = markers)
      (hroster : joined.map Joining.entry = roster 0 asked) :
      Collected markers none
        { asked := asked.map Asking.inquiry
          opened := joined.map Joining.opening
          looks := false :: List.replicate joined.length false }

/-- Which of the edits in `links`, counted from `start`, a run called that executed them with
this result, and what its looks for cancellation saw.  The first edit was to get `program`. -/
inductive Executed (plugins : List (Plugin π)) (start : Nat) (links : List (Link σ))
    (program : Program) :
    Except PipelineError Program → List (Editing σ) → List Bool → Prop where
  /-- It called all of them. -/
  | all {passed : List (Passing σ)} {final : Program}
      (hlinks : passed.map Passing.link = links)
      (hprograms : Relay program (passed.map Passing.programs) final) :
      Executed plugins start links program (.ok final) (passed.map Passing.editing)
        (List.replicate passed.length false)
  /-- It called them up to one before which a look saw a request. -/
  | cut {passed : List (Passing σ)} {link : Link σ} {rest : List (Link σ)} {current : Program}
      (hlinks : passed.map Passing.link ++ link :: rest = links)
      (hprograms : Relay program (passed.map Passing.programs) current) :
      Executed plugins start links program (.error .cancelled) (passed.map Passing.editing)
        (List.replicate passed.length false ++ [true])
  /-- It called them up to one before which a hook failed. -/
  | beforeFailed {passed : List (Passing σ)} {link : Link σ} {rest : List (Link σ)}
      {current : Program} {stage : String} {plugin : Plugin π} {given left : Shared π}
      {failure : Failure}
      (hlinks : passed.map Passing.link ++ link :: rest = links)
      (hprograms : Relay program (passed.map Passing.programs) current)
      (hplugin : plugin ∈ plugins)
      (hfails : plugin.beforeEdit ⟨start + passed.length, stage⟩ current given =
        (.error failure, left)) :
      Executed plugins start links program
        (.error (.editFailure stage (start + passed.length) failure))
        (passed.map Passing.editing) (List.replicate passed.length false ++ [false])
  /-- It called them up to one that failed. -/
  | editFailed {passed : List (Passing σ)} {failing : Editing σ} {rest : List (Link σ)}
      {failure : Failure}
      (hlinks : passed.map Passing.link ++ failing.link :: rest = links)
      (hprograms : Relay program (passed.map Passing.programs) failing.program)
      (hfails : failing.reply.result = .error failure) :
      Executed plugins start links program
        (.error (Run.editError ⟨start + passed.length, failing.outbox.stage⟩ failure))
        (passed.map Passing.editing ++ [failing]) (List.replicate passed.length false ++ [false])
  /-- It called them up to one after which a hook failed. -/
  | afterFailed {passed : List (Passing σ)} {passing : Passing σ} {rest : List (Link σ)}
      {plugin : Plugin π} {given left : Shared π} {failure : Failure}
      (hlinks : passed.map Passing.link ++ passing.link :: rest = links)
      (hprograms : Relay program (passed.map Passing.programs) passing.program)
      (hplugin : plugin ∈ plugins)
      (hfails : plugin.afterEdit ⟨start + passed.length, passing.outbox.stage⟩ passing.next given =
        (.error failure, left)) :
      Executed plugins start links program
        (.error (.editFailure passing.outbox.stage (start + passed.length) failure))
        (passed.map Passing.editing ++ [passing.editing])
        (List.replicate passed.length false ++ [false])

/-- How far a run came that ended with this result. -/
inductive Reached (plugins : List (Plugin π)) (program : Program) (markers : List (Marker σ)) :
    Except PipelineError Program → Extent σ → Prop where
  /-- It ended while it was collecting. -/
  | collecting {error : PipelineError} {extent : Extent σ}
      (hcollected : Collected markers (some error) extent) :
      Reached plugins program markers (.error error) extent
  /-- It collected, and went on to the chain that the editors registered. -/
  | executing {extent : Extent σ} {result : Except PipelineError Program}
      {edited : List (Editing σ)} {looks : List Bool}
      (hcollected : Collected markers none extent)
      (hexecuted : Executed plugins 0 (linksOf extent.opened) program result edited looks) :
      Reached plugins program markers result
        { extent with edited := edited, looks := extent.looks ++ looks }

end Extent

theorem Extent.openings_calls (extent : Extent σ) :
    (extent.calls : List (Act σ π)).flatMap Act.openings = extent.opened := by
  have hopened : (extent.opened.zipIdx).flatMap (fun entry => [entry.1]) = extent.opened :=
    (List.map_eq_flatMap ..).symm.trans (List.zipIdx_map_fst ..)
  have hnone {α : Type} (items : List α) :
      items.flatMap (fun _ => ([] : List (Opening σ))) = [] :=
    List.flatMap_eq_nil_iff.2 fun _ _ => rfl
  simp [calls, Act.asks, Act.setUps, Act.edits, List.flatMap_map, hopened, hnone]

theorem Extent.calls_of_edited {extent : Extent σ} (hedited : extent.edited = []) :
    (extent.calls : List (Act σ π)) = Act.asks 0 extent.asked ++ Act.setUps 0 extent.opened := by
  simp [calls, hedited, Act.edits]

theorem Act.asks_concat (asked : List (Inquiry σ)) (inquiry : Inquiry σ) :
    (Act.asks 0 (asked ++ [inquiry]) : List (Act σ π)) =
      Act.asks 0 asked ++ [.ask asked.length inquiry] := by
  simp [Act.asks, List.zipIdx_append]

theorem Act.setUps_concat (opened : List (Opening σ)) (opening : Opening σ) :
    (Act.setUps 0 (opened ++ [opening]) : List (Act σ π)) =
      Act.setUps 0 opened ++ [.setUp opened.length opening] := by
  simp [Act.setUps, List.zipIdx_append]

theorem Act.edits_concat (start : Nat) (edited : List (Editing σ)) (editing : Editing σ) :
    (Act.edits start (edited ++ [editing]) : List (Act σ π)) =
      Act.edits start edited ++ [.edit (start + edited.length) editing] := by
  simp [Act.edits, List.zipIdx_append]

namespace Run

variable {plugins : List (Plugin π)} {program : Program} {markers : List (Marker σ)}
  {run start between before after : Run σ π} {asked : List (Asking σ)}
  {joined : List (Joining σ)}

/-! ## The collecting phase -/

/-- Markers asked and then editors initialized are all that a run calls that has come so far. -/
theorem Joins.covers_joined (plugins : List (Plugin π)) (hstages : start.stages = [])
    (hasks : Asks 0 start.poll asked between) (hjoins : Joins program between joined before) :
    Covers plugins start.poll
      (Act.asks 0 (asked.map Asking.inquiry) ++ Act.setUps 0 (joined.map Joining.opening))
      (List.replicate joined.length false) before := by
  have hjoined := hjoins.covers plugins
  rw [hasks.stages.trans hstages] at hjoined
  exact (hasks.covers plugins).trans hjoined

/-- Collecting has the calls and the looks of its extent. -/
theorem Collects.covers {result : Except PipelineError Unit} (plugins : List (Plugin π))
    (hstages : start.stages = []) (hcollects : Collects program markers start result after) :
    ∃ (extent : Extent σ) (looks : List Bool),
      extent.Collected markers (PipelineError.of? result) ∧
      (∀ opening ∈ extent.opened, opening.program = program) ∧ extent.edited = [] ∧
      extent.looks = start.cancelled :: looks ∧
      Covers plugins start.poll extent.calls looks after := by
  have hprograms {between before : Run σ π} {joined : List (Joining σ)}
      (hjoins : Joins program between joined before) :
      ∀ opening ∈ joined.map Joining.opening, opening.program = program :=
    List.forall_mem_map.2 hjoins.program_eq
  cases hcollects with
  | stopped hstops =>
      refine ⟨_, [], .stopped, by simp, rfl, by rw [hstops], ?_⟩
      exact .refl plugins _
  | @refused asked marker rest before source shared hgoes hmarkers hasks hfails =>
      let refusing : Inquiry σ := ⟨marker, before.sharing⟩
      have hask : Does plugins before (.ask asked.length refusing) _ := .ask asked.length _ rfl
      have hcalls := (hasks.covers plugins).trans hask.covers
      have hmarkers : asked.map Asking.marker ++ refusing.marker :: rest = markers := hmarkers
      have hanswer : refusing.answer = (.error source, shared) := hfails
      refine ⟨_, [], .refused hmarkers (congrArg Prod.fst hanswer), by simp, rfl, by rw [hgoes], ?_⟩
      rw [Inquiry.event, hanswer] at hcalls
      rw [Extent.calls_of_edited rfl, Act.asks_concat, List.length_map, List.append_assoc]
      exact hcalls
  | @cut asked joined entry rest between before hgoes hmarkers hasks hroster hjoins hstops =>
      have hlook : Does plugins before (.look true) before.poll := hstops ▸ .look
      refine ⟨_, _, .cut hmarkers hroster, hprograms hjoins, rfl, by rw [hgoes]; rfl, ?_⟩
      exact (hjoins.covers_joined plugins hstages hasks).trans hlook.covers
  | @failed asked joined origin editor rest between before failure hgoes hmarkers hasks hroster
      hjoins hjoined hfails =>
      let failing : Opening σ := ⟨origin, editor, program, before.poll.sharing⟩
      have hlook : Does plugins before (.look false) before.poll := hjoined ▸ .look
      have hsetUp : Does plugins before.poll (.setUp before.poll.stages.length failing) _ :=
        .setUp failing rfl
      have hcount : before.poll.stages.length = joined.length := by
        rw [stages_poll, hjoins.stages, hasks.stages, stages_poll, hstages, List.nil_append,
          List.length_map]
      have hcalls := (hjoins.covers_joined plugins hstages hasks).trans
        (hlook.covers.trans hsetUp.covers)
      rw [hcount] at hcalls
      have hroster : joined.map Joining.entry ++ failing.entry :: rest = roster 0 asked := hroster
      refine ⟨_, _, .failed hmarkers hroster hfails, ?_, rfl, by rw [hgoes]; rfl, ?_⟩
      · exact List.forall_mem_append.2 ⟨hprograms hjoins, by simp [failing]⟩
      · rw [Extent.calls_of_edited rfl, Act.setUps_concat, List.length_map, ← List.append_assoc]
        exact hcalls
  | done hgoes hmarkers hasks hroster hjoins =>
      refine ⟨_, _, .done hmarkers hroster, hprograms hjoins, rfl, by rw [hgoes], ?_⟩
      rw [Extent.calls_of_edited rfl]
      exact hjoins.covers_joined plugins hstages hasks

/-! ## The executing phase -/

/-- Executing has the calls and the looks of its extent. -/
theorem Executes.covers {index : Nat} {links : List (Link σ)}
    {result : Except PipelineError Program}
    (hexecutes : Executes plugins index links program run result after) :
    ∃ (edited : List (Editing σ)) (looks : List Bool),
      Extent.Executed plugins index links program result edited looks ∧
      Covers plugins run (Act.edits index edited) looks after := by
  cases hexecutes with
  | all passed hlinks hpasses => exact ⟨_, _, .all hlinks hpasses.programs, hpasses.covers⟩
  | @cut passed link rest current before hlinks hpasses hstops =>
      have hlook : Does plugins before (.look true) before.poll := hstops ▸ .look
      have hcalls : Covers plugins run (Act.edits index (passed.map Passing.editing) ++ []) _ _ :=
        hpasses.covers.trans hlook.covers
      rw [List.append_nil] at hcalls
      exact ⟨_, _, .cut hlinks hpasses.programs, hcalls⟩
  | @failed passed link rest current before after error hlinks hpasses hgoes happlies =>
      have hlook : Does plugins before (.look false) before.poll := hgoes ▸ .look
      cases happlies with
      | @beforeFailed info done others plugin ready failure shared hinfo hplugins hhears hfails =>
          subst hinfo
          have hplugin : plugins[done.length]? = some plugin := by simp [← hplugins]
          have hheard := hhears.covers (News.through_before _ _) ⟨_, hplugins⟩
          have htell := (News.through_before _ _).does hplugin hfails
          have hcalls : Covers plugins run
              (Act.edits index (passed.map Passing.editing) ++ []) _ _ :=
            hpasses.covers.trans (hlook.covers.trans (hheard.trans htell.covers))
          rw [List.append_nil] at hcalls
          exact ⟨_, _, .beforeFailed hlinks hpasses.programs (List.mem_of_getElem? hplugin) hfails,
            hcalls⟩
      | @editFailed info ready failure hinfo hhears hfails =>
          subst hinfo
          let failing : Editing σ :=
            ⟨link, current, before.poll.outbox link.stage, ready.sharing⟩
          have hlinks : passed.map Passing.link ++ failing.link :: rest = links := hlinks
          have hprograms : Relay program (passed.map Passing.programs) failing.program :=
            hpasses.programs
          have hfailing := hhears.covers_edit (index + passed.length) failing rfl rfl
          refine ⟨_, _, .editFailed hlinks hprograms hfails, ?_⟩
          rw [Act.edits_concat, List.length_map]
          exact hpasses.covers.trans (hlook.covers.trans hfailing)
      | @afterFailed passing done others plugin ready heard failure shared hlink hprogram houtbox
          hbefore hgiven hplugins hafter hfails =>
          subst hlink hprogram
          have hplugin : plugins[done.length]? = some plugin := by simp [← hplugins]
          have hedit := hbefore.covers_edit (index + passed.length) passing.editing houtbox hgiven
          have hheard := hafter.covers (News.through_after _ _) ⟨_, hplugins⟩
          have htell := (News.through_after _ _).does hplugin hfails
          refine ⟨_, _, .afterFailed hlinks hpasses.programs (List.mem_of_getElem? hplugin) hfails,
            ?_⟩
          rw [Act.edits_concat, List.length_map]
          exact hpasses.covers.trans (hlook.covers.trans (hedit.trans (hheard.trans htell.covers)))

/-! ## What is kept -/

theorem Covers.keeps {calls : List (Act σ π)} {looks : List Bool} {opened : List (Opening σ)}
    (hcovers : Covers plugins run calls looks after) (hkeeps : run.Keeps opened)
    (hedits : ∀ index editing, .edit index editing ∈ calls →
      editing.link.stage < opened.length) :
    after.Keeps (opened ++ calls.flatMap Act.openings) := by
  obtain ⟨acts, hmoves, rfl, rfl⟩ := hcovers
  rw [Act.flatMap_calls Act.openings_of_not_isCall]
  refine hmoves.keeps hkeeps fun index editing hediting => hedits index editing ?_
  exact List.mem_filter.2 ⟨hediting, rfl⟩

/-- What calls nothing but plugins says nothing. -/
theorem Covers.keeps_told {looks : List Bool} {opened : List (Opening σ)}
    (hcovers : Covers plugins run [] looks after) (hkeeps : run.Keeps opened) :
    after.Keeps opened := by
  simpa using hcovers.keeps hkeeps (by simp)

theorem Keeps.announce {opened : List (Opening σ)} (hkeeps : run.Keeps opened) (phase : Phase)
    (plugins : List (Plugin π)) : (run.announce phase 0 plugins).Keeps opened :=
  ((Covers.refl plugins run).announce phase).keeps_told hkeeps

theorem Keeps.poll {opened : List (Opening σ)} (hkeeps : run.Keeps opened) :
    run.poll.Keeps opened := by
  have hlook : Does ([] : List (Plugin π)) run (.look run.cancelled) run.poll := .look
  exact hlook.covers.keeps_told hkeeps

/-- A run that has collected keeps what the editors said and registered. -/
theorem Covers.keeps_opened {extent : Extent σ} {looks : List Bool}
    (hcovers : Covers plugins run extent.calls looks after) (hedited : extent.edited = [])
    (hkeeps : run.Keeps []) : after.Keeps extent.opened := by
  have hafter := hcovers.keeps hkeeps fun index editing hediting => by
    simp [Extent.calls, hedited, Act.asks, Act.setUps, Act.edits] at hediting
  rwa [Extent.openings_calls] at hafter

theorem Joins.keeps (hjoins : Joins program between joined before)
    (hasks : Asks 0 start.poll asked between) (hstart : start.Keeps []) :
    before.Keeps (joined.map Joining.opening) := by
  let extent : Extent σ :=
    { asked := asked.map Asking.inquiry, opened := joined.map Joining.opening }
  have hcalls : (extent.calls : List (Act σ π)) =
      Act.asks 0 extent.asked ++ Act.setUps 0 extent.opened := Extent.calls_of_edited rfl
  have hcovers := hjoins.covers_joined [] hstart.stages_eq_nil hasks
  rw [← hcalls] at hcovers
  exact hcovers.keeps_opened rfl hstart.poll

theorem Asks.keeps (hasks : Asks 0 start.poll asked between) (hstart : start.Keeps []) :
    between.Keeps [] := by
  let extent : Extent σ := { asked := asked.map Asking.inquiry }
  have hcalls : (extent.calls : List (Act σ π)) = Act.asks 0 extent.asked := by
    simp [Extent.calls, extent, Act.setUps, Act.edits]
  have hcovers := hasks.covers []
  rw [← hcalls] at hcovers
  exact hcovers.keeps_opened rfl hstart.poll

/-- Edits of its chain change nothing of that. -/
theorem Covers.keeps_edited {opened : List (Opening σ)} {start : Nat}
    {edited : List (Editing σ)} {looks : List Bool}
    (hcovers : Covers plugins run (Act.edits start edited) looks after)
    (hedited : edited.map Editing.link <+: linksOf opened) (hkeeps : run.Keeps opened) :
    after.Keeps opened := by
  have hnone : (Act.edits start edited : List (Act σ π)).flatMap Act.openings = [] :=
    List.flatMap_eq_nil_iff.2 (List.forall_mem_map.2 fun _ _ => rfl)
  have hafter := hcovers.keeps hkeeps fun index editing hediting => by
    obtain ⟨entry, hentry, hsame⟩ := List.mem_map.1 hediting
    obtain ⟨-, rfl⟩ := Act.edit.inj hsame
    have hlink : entry.1.link ∈ edited.map Editing.link :=
      List.mem_map_of_mem (List.fst_mem_of_mem_zipIdx hentry)
    exact stage_lt_of_mem_linksOf (hedited.subset hlink)
  rwa [hnone, List.append_nil] at hafter

end Run

/-- Whatever ends it, executing calls edits in the order of the chain. -/
theorem Extent.Executed.links_prefix {plugins : List (Plugin π)} {start : Nat}
    {links : List (Link σ)} {program : Program} {result : Except PipelineError Program}
    {edited : List (Editing σ)} {looks : List Bool}
    (hexecuted : Extent.Executed plugins start links program result edited looks) :
    edited.map Editing.link <+: links := by
  have hpassed (passed : List (Passing σ)) :
      (passed.map Passing.editing).map Editing.link = passed.map Passing.link := List.map_map
  cases hexecuted with
  | all hlinks hprograms => exact ⟨[], by rw [hpassed, hlinks, List.append_nil]⟩
  | cut hlinks hprograms => exact ⟨_, by rw [hpassed]; exact hlinks⟩
  | beforeFailed hlinks hprograms hplugin hfails => exact ⟨_, by rw [hpassed]; exact hlinks⟩
  | @editFailed passed failing rest failure hlinks hprograms hfails =>
      refine ⟨rest, ?_⟩
      rw [List.map_append, hpassed, List.append_assoc]
      exact hlinks
  | @afterFailed passed passing rest plugin given left failure hlinks hprograms hplugin hfails =>
      refine ⟨rest, ?_⟩
      rw [List.map_append, hpassed, List.append_assoc]
      exact hlinks

/-! ## Whole runs -/

/-- A run ends as it is, with these findings. -/
structure Run.Leaves {α : Type} (run : Run σ π) (ended : Ended σ π α) (findings : Findings) :
    Prop where
  journal : ended.journal = run.journal
  shared : ended.shared = run.sharing
  watch : ended.watch = run.watch
  findings : findings = run.findings

namespace Pipeline

variable {pipeline : Pipeline π} {program : Program} {markers : List (Marker σ)}
  {start : Run σ π}

/-- A run that has just begun has been told nothing. -/
theorem keeps_start (pipeline : Pipeline π) (shared : Shared σ) (watch : π)
    (stopAt : Option Nat) : (pipeline.start shared watch stopAt).Keeps [] := by
  have hfresh : ({ shared, watch, stopAt } : Run σ π).Keeps [] :=
    ⟨rfl, by simp [emissions], by simp, rfl⟩
  exact hfresh.announce .collecting pipeline.plugins

/-- By its first look a run has only called plugins. -/
theorem covers_of_poll (pipeline : Pipeline π) {shared : Shared σ} {watch : π}
    {stopAt : Option Nat} {calls : List (Act σ π)} {looks : List Bool} {after : Run σ π}
    (hcovers : (pipeline.start shared watch stopAt).poll.Covers pipeline.plugins calls looks after) :
    ({ shared, watch, stopAt } : Run σ π).Covers pipeline.plugins calls
      ((pipeline.start shared watch stopAt).cancelled :: looks) after := by
  have hstart := (Run.Covers.refl pipeline.plugins
    ({ shared, watch, stopAt } : Run σ π)).announce .collecting
  have hlook : Run.Does pipeline.plugins (pipeline.start shared watch stopAt) _ _ := .look
  exact hstart.trans (hlook.covers.trans hcovers)

/-- A run that has collected covers more of the same extent while it executes. -/
theorem covers_executed {collected after : Run σ π} {result : Except PipelineError Program}
    (hcollects : start.Collects program markers (.ok ()) collected)
    (hexecutes : (collected.announce .executing 0 pipeline.plugins).Executes pipeline.plugins 0
      collected.chain program result after) (hstart : start.Keeps []) :
    ∃ (extent : Extent σ) (looks : List Bool),
      extent.Reached pipeline.plugins program markers result ∧
      (∀ opening ∈ extent.opened, opening.program = program) ∧
      extent.looks = start.cancelled :: looks ∧
      start.poll.Covers pipeline.plugins extent.calls looks
        (after.announce .done 0 pipeline.plugins) ∧
      (after.announce .done 0 pipeline.plugins).Keeps extent.opened := by
  obtain ⟨extent, looks, hcollected, hprogram, hedited, hlooks, hcovers⟩ :=
    hcollects.covers pipeline.plugins hstart.stages_eq_nil
  have hkeeps := hcovers.keeps_opened hedited hstart.poll
  rw [hkeeps.chain] at hexecutes
  obtain ⟨edited, later, hexecuted, hedits⟩ := hexecutes.covers
  have hentered := hcovers.announce .executing
  rw [Extent.calls_of_edited hedited] at hentered
  refine ⟨{ extent with edited := edited, looks := extent.looks ++ later }, looks ++ later,
    .executing hcollected hexecuted, hprogram, by rw [hlooks]; rfl,
    (hentered.trans hedits).announce .done, ?_⟩
  have hentered := hkeeps.announce .executing pipeline.plugins
  exact (hedits.keeps_edited hexecuted.links_prefix hentered).announce .done pipeline.plugins

/-- **The calls and the looks of a run are those of its extent.** -/
theorem Ends.covers {ended : Ended σ π Outcome}
    (hends : pipeline.Ends program markers start ended) (hstart : start.Keeps []) :
    ∃ (extent : Extent σ) (looks : List Bool) (after : Run σ π),
      extent.Reached pipeline.plugins program markers ended.outcome.result ∧
      (∀ opening ∈ extent.opened, opening.program = program) ∧
      extent.looks = start.cancelled :: looks ∧
      start.poll.Covers pipeline.plugins extent.calls looks after ∧
      after.Keeps extent.opened ∧ after.Leaves ended ended.outcome.findings := by
  cases hends with
  | @collecting error after hcollects =>
      obtain ⟨extent, looks, hcollected, hprogram, hedited, hlooks, hcovers⟩ :=
        hcollects.covers pipeline.plugins hstart.stages_eq_nil
      have hended := hcovers.announce .done
      exact ⟨extent, looks, _, .collecting hcollected, hprogram, hlooks, hended,
        hended.keeps_opened hedited hstart.poll, ⟨rfl, rfl, rfl, rfl⟩⟩
  | executing hcollects hexecutes =>
      obtain ⟨extent, looks, hreached, hprogram, hlooks, hcovers, hkeeps⟩ :=
        covers_executed hcollects hexecutes hstart
      exact ⟨extent, looks, _, hreached, hprogram, hlooks, hcovers, hkeeps, ⟨rfl, rfl, rfl, rfl⟩⟩
  | completed hcollects hexecutes =>
      obtain ⟨extent, looks, hreached, hprogram, hlooks, hcovers, hkeeps⟩ :=
        covers_executed hcollects hexecutes hstart
      exact ⟨extent, looks, _, hreached, hprogram, hlooks, hcovers, hkeeps, ⟨rfl, rfl, rfl, rfl⟩⟩

/-- The calls and the looks of collecting alone are those of its extent. -/
theorem covers_collect (pipeline : Pipeline π) (program : Program) (markers : List (Marker σ))
    (shared : Shared σ) (watch : π) (stopAt : Option Nat) :
    ∃ (extent : Extent σ) (looks : List Bool) (after : Run σ π),
      extent.Collected markers
        (pipeline.collect program markers shared watch stopAt).outcome.1 ∧
      (∀ opening ∈ extent.opened, opening.program = program) ∧ extent.edited = [] ∧
      extent.looks = (pipeline.start shared watch stopAt).cancelled :: looks ∧
      (pipeline.start shared watch stopAt).poll.Covers pipeline.plugins extent.calls looks after ∧
      after.Keeps extent.opened ∧
      after.Leaves (pipeline.collect program markers shared watch stopAt)
        (pipeline.collect program markers shared watch stopAt).outcome.2 := by
  have hstart : (pipeline.start shared watch stopAt : Run σ π).Keeps [] :=
    pipeline.keeps_start shared watch stopAt
  obtain ⟨extent, looks, hcollected, hprogram, hedited, hlooks, hcovers⟩ :=
    (Run.collects program markers (pipeline.start shared watch stopAt)).covers pipeline.plugins
      hstart.stages_eq_nil
  have hended := hcovers.announce .done
  refine ⟨extent, looks, _, ?_, hprogram, hedited, hlooks, hended,
    hended.keeps_opened hedited hstart.poll, ?_⟩
  · unfold Pipeline.collect
    generalize (pipeline.start shared watch stopAt).collect program markers = ended at hcollected
    obtain ⟨result, after⟩ := ended
    cases result <;> exact hcollected
  · unfold Pipeline.collect
    generalize (pipeline.start shared watch stopAt).collect program markers = ended
    obtain ⟨result, after⟩ := ended
    cases result <;> exact ⟨rfl, rfl, rfl, rfl⟩

/-- The diagnostics of a run are in its journal. -/
theorem toldBy_run (pipeline : Pipeline π) (program : Program) (markers : List (Marker σ))
    (shared : Shared σ) (watch : π) (stopAt : Option Nat) :
    (pipeline.run program markers shared watch stopAt).outcome.findings.diagnostics =
      toldBy (pipeline.run program markers shared watch stopAt).outcome.findings.stages
        (pipeline.run program markers shared watch stopAt).journal := by
  obtain ⟨extent, looks, after, -, -, -, -, hkeeps, hleaves⟩ :=
    (pipeline.ends program markers shared watch stopAt).covers
      (pipeline.keeps_start shared watch stopAt)
  rw [hleaves.journal, hleaves.findings]
  exact hkeeps.findings

theorem toldBy_collect (pipeline : Pipeline π) (program : Program) (markers : List (Marker σ))
    (shared : Shared σ) (watch : π) (stopAt : Option Nat) :
    (pipeline.collect program markers shared watch stopAt).outcome.2.diagnostics =
      toldBy (pipeline.collect program markers shared watch stopAt).outcome.2.stages
        (pipeline.collect program markers shared watch stopAt).journal := by
  obtain ⟨extent, looks, after, -, -, -, -, -, hkeeps, hleaves⟩ :=
    pipeline.covers_collect program markers shared watch stopAt
  rw [hleaves.journal, hleaves.findings]
  exact hkeeps.findings

end Pipeline

end EditPipeline
