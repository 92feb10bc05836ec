import EditPipeline.Host.Edit
import EditPipeline.Proofs.Run.Comparison
import EditPipeline.Proofs.Trace

/-!
# Plugins only observe

A run with plugins that never request cancellation is `Observed`: it ends as the run
without plugins does, with the same outcome, unless a hook around an edit fails.  Such
a failure aborts the run as a failure of that edit, and then the run is the run without
plugins cut short: right before the edit or right after it, depending on the hook.

The recorder of snapshots never requests cancellation, and none of its hooks fails as
long as it writes to no directory.  So whether the host takes snapshots does not show in
what it reports about a run, and a dry run reports what the run in earnest does.
-/

namespace EditPipeline

variable {σ π : Type}

/-- How the run `ran`, with these plugins, went against the run `alone` without any.
The edits were registered by editors with the names `owners`. -/
inductive Observed (plugins : List (Plugin π)) (owners : List String)
    (alone : Ended σ Unit Outcome) (ran : Ended σ π Outcome) : Prop where
  /-- No hook failed. -/
  | whole (hfailed : failedHooks ran.journal = []) (houtcome : ran.outcome = alone.outcome)
      (hjournal : unheard ran.journal = alone.journal) : Observed plugins owners alone ran
  /-- A hook failed before an edit, and the run is the other one cut right before it. -/
  | cutBefore {number : Nat} {plugin : Plugin π} {watching left : Shared π} {info : EditInfo}
      {program : Program} {failure : Failure} {given : Except Failure Program} {late : Journal}
      (hplugin : plugins[number]? = some plugin)
      (hfails : plugin.beforeEdit info program watching = (.error failure, left))
      (hfailed : failedHooks ran.journal = [.before number info program (some failure)])
      (howner : owners[info.index]? = some info.stage)
      (hjournal : alone.journal = unheard ran.journal ++ .edit info.index program given :: late)
      (houtcome : ran.outcome = .aborted (.editFailure info.stage info.index failure)
        ⟨alone.outcome.findings.stages,
          toldBy alone.outcome.findings.stages (unheard ran.journal)⟩) :
      Observed plugins owners alone ran
  /-- A hook failed after an edit, and the run is the other one cut right after it: after
  the last thing that the edit said, and before the next act. -/
  | cutAfter {number : Nat} {plugin : Plugin π} {watching left : Shared π} {info : EditInfo}
      {program next : Program} {failure : Failure} {early said late : Journal}
      (hplugin : plugins[number]? = some plugin)
      (hfails : plugin.afterEdit info next watching = (.error failure, left))
      (hfailed : failedHooks ran.journal = [.after number info next (some failure)])
      (howner : owners[info.index]? = some info.stage)
      (hcut : unheard ran.journal = early ++ .edit info.index program (.ok next) :: said)
      (hsaid : ∀ event ∈ said, event.isAct = false)
      (hjournal : alone.journal = unheard ran.journal ++ late)
      (hlate : ∀ event ∈ late.head?, event.isAct = true)
      (houtcome : ran.outcome = .aborted (.editFailure info.stage info.index failure)
        ⟨alone.outcome.findings.stages,
          toldBy alone.outcome.findings.stages (unheard ran.journal)⟩) :
      Observed plugins owners alone ran

/-! ## The phases, put together -/

namespace Run

/-- No hook fails while editors are initialized. -/
theorem Collects.failedHooks {program : Program} {markers : List (Marker σ)}
    {run after : Run σ π} {result : Except PipelineError Unit}
    (hcollects : Collects program markers run result after) :
    failedHooks after.journal = failedHooks run.journal := by
  have htraced (run : Run σ π) : EditPipeline.failedHooks run.journal =
      EditPipeline.failedHooks run.trace := by
    unfold EditPipeline.failedHooks Run.trace Run.acts
    rw [List.filter_filter, List.filter_filter]
    refine List.filter_congr fun event _ => ?_
    cases event <;> simp
  rw [htraced, htraced, hcollects.trace]

variable {plugins : List (Plugin π)} {result other : Except PipelineError Program}
  {start run after : Run σ π} {settled : Run σ Unit}

/-- Announcing the end adds nothing to what the two runs differ in. -/
theorem Compares.observed {links : List (Link σ)} {owners : List String}
    (hnever : ∀ plugin ∈ plugins, plugin.NeverCancels)
    (hcompares : Compares plugins start links result after other settled)
    (howners : owners = links.map fun link => (start.outbox link.stage).stage)
    (hstart : failedHooks start.journal = []) (hstages : after.stageInfos = settled.stageInfos)
    (htold : (after.conclude plugins result).outcome.findings.diagnostics =
      toldBy (after.conclude plugins result).outcome.findings.stages
        (after.conclude plugins result).journal) :
    Observed plugins owners (settled.conclude [] other) (after.conclude plugins result) := by
  have hfailed : failedHooks (after.conclude plugins result).journal =
      failedHooks after.journal := by
    rw [journal_conclude, failedHooks_announce]
  have hjournal {cut : Run σ Unit} (hmirrors : after.Mirrors (.same σ) cut) :
      unheard (after.conclude plugins result).journal = cut.journal := by
    rw [journal_conclude]
    exact (hmirrors.announce hnever .done 0).journal
  have halone : (settled.conclude [] other).journal = settled.journal :=
    journal_conclude [] other settled
  have howned {index : Nat} {link : Link σ} (hlink : links[index]? = some link) :
      owners[index]? = some (start.outbox link.stage).stage := by
    rw [howners, List.getElem?_map, hlink, Option.map_some]
  -- what the run has at the end, where the other one may have gone on
  have hfindings : after.findings = ⟨(settled.conclude [] other).outcome.findings.stages,
      toldBy (settled.conclude [] other).outcome.findings.stages
        (unheard (after.conclude plugins result).journal)⟩ := by
    rw [toldBy_unheard]
    rw [findings_conclude] at htold ⊢
    have hlisted : after.findings.stages = settled.findings.stages := hstages
    rw [← hlisted, ← htold]
  cases hcompares with
  | whole hnone hmirrors =>
      refine .whole (hfailed.trans (hnone.trans hstart)) ?_ ((hjournal hmirrors).trans halone.symm)
      cases result <;> simp [conclude, hmirrors.findings]
  | cutBefore number hplugin hfails hone hlink hstage hmirrors hlate =>
      rw [hstart, List.nil_append] at hone
      rw [← hjournal hmirrors, ← halone] at hlate
      subst hstage
      refine .cutBefore hplugin hfails (hfailed.trans hone) (howned hlink) hlate ?_
      rw [outcome_conclude, hfindings]
  | cutAfter number hplugin hfails hone hlink hstage hmirrors hcut hsaid hlate hact =>
      rw [hstart, List.nil_append] at hone
      rw [← hjournal hmirrors] at hcut hlate
      rw [← halone] at hlate
      subst hstage
      refine .cutAfter hplugin hfails (hfailed.trans hone) (howned hlink) hcut hsaid hlate hact ?_
      rw [outcome_conclude, hfindings]

end Run

namespace Pipeline

/-- **A run is observed by its plugins.** -/
theorem observed {pipeline : Pipeline π}
    (hnever : ∀ plugin ∈ pipeline.plugins, plugin.NeverCancels) (program : Program)
    (markers : List (Marker σ)) (shared : Shared σ) (watch : π) :
    Observed pipeline.plugins
      ((({} : Pipeline Unit).start shared ()).collect program markers).2.owners
      (({} : Pipeline Unit).run program markers shared ())
      (pipeline.run program markers shared watch) := by
  have htold := pipeline.toldBy_run program markers shared watch none
  have hstart : failedHooks (pipeline.start shared watch).journal = [] :=
    Run.failedHooks_announce .collecting 0 pipeline.plugins _
  have hcollects := Run.collects program markers (pipeline.start shared watch)
  have hfresh := madeAfresh_same markers shared.cancelled shared.memory
  cases hwatched : (pipeline.start shared watch).collect program markers with
  | mk result collected =>
      cases hquiet : (({} : Pipeline Unit).start shared ()).collect program markers with
      | mk other settled =>
          obtain ⟨rfl, hmirrors, hmatches⟩ :=
            collect_mirrors hnever program hfresh watch hwatched hquiet
          rw [hwatched] at hcollects
          have hfailed : failedHooks collected.journal = [] := hcollects.failedHooks.trans hstart
          cases result with
          | error error =>
              have hdone := hmirrors.announce hnever .done 0
              unfold Pipeline.run
              rw [hwatched, hquiet]
              refine .whole ?_ (by simp [hmirrors.findings]) hdone.journal
              exact (Run.failedHooks_announce .done 0 pipeline.plugins collected).trans hfailed
          | ok done =>
              have hcollected := hmatches rfl
              have hentered := hcollected.announce hnever .executing 0
              have hexecutes := Run.executes pipeline.plugins 0 collected.chain program
                (collected.announce .executing 0 pipeline.plugins)
              have halone :=
                Run.executes ([] : List (Plugin Unit)) 0 collected.chain program settled
              have hcompares := hexecutes.compares hnever hentered
              rw [run_conclude pipeline program markers shared watch none hwatched] at htold ⊢
              rw [run_conclude {} program markers shared () none hquiet, ← hcollected.chain_eq]
              refine hcompares.observed hnever ?_ ?_ ?_ htold
              · simp [Run.owners, hcollected.chain_eq, hentered.outbox]
              · rw [Run.failedHooks_announce, hfailed]
              · rw [hexecutes.stageInfos]
                exact (congrArg Findings.stages hentered.findings).trans halone.stageInfos.symm

end Pipeline

/-! ## What the host reports -/

/-- A report as if nothing had been written. -/
def EditReport.unwritten (report : EditReport) : EditReport :=
  { report with output := none, snapshots := none }

/-- The report on a run with this outcome, before anything is written. -/
def Outcome.report (file : ManifestFile) (print : Bool) (outcome : Outcome) : EditReport where
  project := file.manifest.project.name
  failure :=
    match outcome with
    | .completed .. => none
    | .aborted error _ => some error
  stages := outcome.findings.stages
  diagnostics := outcome.findings.diagnostics
  denyWarnings := file.manifest.pipeline.denyWarnings
  rendered := if print then outcome.program?.map Program.listing else none

theorem Gallery.recorder_neverCancels (directory : Option Path) :
    (Gallery.recorder directory).NeverCancels where
  onPhase _ _ := id
  beforeEdit _ _ _ := id
  afterEdit _ _ _ := id

namespace Host

/-- Writing a result only notes in the report where it went. -/
theorem unwritten_writeResult {file : ManifestFile} {target : Option Path} {program : Program}
    {snapshots : List Snapshot} {report written : EditReport} {files : FileSystem}
    (hwritten : (writeResult file target program snapshots report files).1 = .ok written) :
    written.unwritten = report.unwritten := by
  unfold writeResult at hwritten
  dsimp only at hwritten
  generalize writeProgram file.outputPath program files = placed at hwritten
  obtain ⟨result, rest⟩ := placed
  cases result with
  | error error => cases hwritten
  | ok done =>
      cases target with
      | none =>
          cases hwritten
          rfl
      | some directory =>
          dsimp only at hwritten
          generalize Snapshot.writeAll directory snapshots rest = taken at hwritten
          obtain ⟨result, left⟩ := taken
          cases result <;> cases hwritten
          rfl

variable {file : ManifestFile} {program : Program} {markers : List (Marker σ)}
  {options : EditOptions} {memory : σ} {files : FileSystem} {report : EditReport}

/-- What the host watches a run with cannot be seen in what the run comes to and does. -/
theorem watched (target : Option Path) (program : Program) (markers : List (Marker σ))
    (memory : σ) :
    let ran := ({ plugins := target.toList.map fun _ => Gallery.recorder none } :
      Pipeline Gallery).run program markers ⟨false, memory⟩ {}
    let alone := ({} : Pipeline Unit).run program markers ⟨false, memory⟩ ()
    ran.outcome = alone.outcome ∧ unheard ran.journal = alone.journal := by
  have hrecorder : ∀ plugin ∈ target.toList.map fun _ => Gallery.recorder none,
      plugin = Gallery.recorder none := by
    intro plugin hplugin
    obtain ⟨directory, -, rfl⟩ := List.mem_map.1 hplugin
    rfl
  have hobserved := Pipeline.observed (fun plugin hplugin =>
    hrecorder plugin hplugin ▸ Gallery.recorder_neverCancels none) program markers
      ⟨false, memory⟩ {}
  cases hobserved with
  | whole hfailed houtcome hjournal => exact ⟨houtcome, hjournal⟩
  | cutBefore hplugin hfails hfailed howner hjournal houtcome =>
      rw [hrecorder _ (List.mem_of_getElem? hplugin)] at hfails
      cases hfails
  | cutAfter hplugin hfails hfailed howner hcut hsaid hjournal hlate houtcome =>
      rw [hrecorder _ (List.mem_of_getElem? hplugin)] at hfails
      cases hfails

/-- **The report on a run is that of its outcome without plugins**, but for what it
says about written files. -/
theorem unwritten_edit
    (hreport : (edit file program markers options memory files).1 = .ok report) :
    report.unwritten = ((({} : Pipeline Unit).run program markers ⟨false, memory⟩ ()).outcome.report
      file options.print).unwritten := by
  rw [← (watched (snapshotsTarget file options) program markers memory).1]
  unfold edit at hreport
  dsimp only at hreport
  generalize Pipeline.run _ program markers _ _ = ended at hreport ⊢
  obtain ⟨outcome, shared, gallery, journal⟩ := ended
  cases outcome with
  | aborted error findings =>
      cases hreport
      simp [EditReport.unwritten, Outcome.report, Outcome.findings, Outcome.program?]
  | completed next findings =>
      let draft := (Outcome.completed next findings).report file options.print
      change (if (options.dryRun || !draft.isSuccess) = true then (Except.ok draft, files)
        else writeResult file _ next gallery.snapshots draft files).1 = .ok report at hreport
      change report.unwritten = draft.unwritten
      split at hreport
      · exact congrArg EditReport.unwritten (Except.ok.inj hreport).symm
      · exact unwritten_writeResult hreport

end Host

/-! ## Main statement -/

/-- **Plugins only observe.**  A run with plugins that never request cancellation is the
run without any, or that run cut at the edit around which a hook fails; and what the host
reports does not tell whether it only tried. -/
theorem plugins_only_observe (pipeline : Pipeline π)
    (hnever : ∀ plugin ∈ pipeline.plugins, plugin.NeverCancels) (program : Program)
    (markers : List (Marker σ)) (shared : Shared σ) (watch : π) :
    Observed pipeline.plugins
      ((({} : Pipeline Unit).start shared ()).collect program markers).2.owners
      (({} : Pipeline Unit).run program markers shared ())
      (pipeline.run program markers shared watch) ∧
    -- what a run has at its end is read off its journal as it is off one that is cut
    (({} : Pipeline Unit).run program markers shared ()).outcome.findings.diagnostics =
      toldBy (({} : Pipeline Unit).run program markers shared ()).outcome.findings.stages
        (({} : Pipeline Unit).run program markers shared ()).journal ∧
    ∀ (file : ManifestFile) (print : Bool) (memory : σ) (files files' : FileSystem)
      (dry wet : EditReport),
      (Host.edit file program markers ⟨true, print⟩ memory files).1 = .ok dry →
      (Host.edit file program markers ⟨false, print⟩ memory files').1 = .ok wet →
      dry.failure = wet.failure ∧ dry.stages = wet.stages ∧
        dry.diagnostics = wet.diagnostics ∧ dry.rendered = wet.rendered ∧
        dry.isSuccess = wet.isSuccess := by
  refine ⟨Pipeline.observed hnever program markers shared watch,
    Pipeline.toldBy_run {} program markers shared () none, ?_⟩
  intro file print memory files files' dry wet hdry hwet
  have hsame {α : Type} (field : EditReport → α) : field dry.unwritten = field wet.unwritten := by
    rw [Host.unwritten_edit hdry, Host.unwritten_edit hwet]
  exact ⟨hsame EditReport.failure, hsame EditReport.stages, hsame EditReport.diagnostics,
    hsame EditReport.rendered, hsame EditReport.isSuccess⟩

/-- An edit that makes a remark and adds it to the name of the program. -/
def remarking (severity : Severity) (message : String) : Edit Unit := fun program _ shared => {
  result := .ok { program with name := program.name ++ message }
  emitted := [⟨severity, "", message, none⟩]
  shared }

/-- A marker whose editor makes three remarks, one of them an error. -/
def critics : List (Marker Unit) := [⟨"review", fun shared => (.ok [{
  name := "critic"
  setUp _ shared := {
    result := .ok ()
    emitted := []
    edits := [remarking .info "a", remarking .error "b", remarking .warning "c"]
    shared } }], shared)⟩]

/-- A plugin that counts the edits to come. -/
def counting : Plugin Nat where
  beforeEdit _ _ shared := (.ok (), { shared with memory := shared.memory + 1 })

/-- A plugin that stops after edit number 1, in the words of a cancellation. -/
def refusing : Plugin Nat where
  afterEdit info _ shared := (if info.index = 1 then .error .cancelled else .ok (), shared)

/-- The refusal cuts the run after the second remark, and is no cancellation; the host,
which has no such plugin, reports the error among the remarks with and without a dry
run. -/
theorem observed_by_refusing :
    (∀ plugin ∈ [counting, refusing], plugin.NeverCancels) ∧
    Observed [counting, refusing] ["critic", "critic", "critic"]
      (({} : Pipeline Unit).run { name := "p" } critics ⟨false, ()⟩ ())
      (({ plugins := [counting, refusing] } : Pipeline Nat).run { name := "p" } critics
        ⟨false, ()⟩ 0) ∧
    (({ plugins := [counting, refusing] } : Pipeline Nat).run { name := "p" } critics
      ⟨false, ()⟩ 0).outcome =
        .aborted (.editFailure "critic" 1 .cancelled) ⟨[⟨"critic", ⟨0, "review"⟩, 3⟩],
          [⟨.info, "critic", "a", none⟩, ⟨.error, "critic", "b", none⟩]⟩ ∧
    ∃ dry wet : EditReport,
      (Host.edit default { name := "p" } critics ⟨true, true⟩ () {}).1 = .ok dry ∧
      (Host.edit default { name := "p" } critics ⟨false, true⟩ () {}).1 = .ok wet ∧
      dry.rendered = wet.rendered ∧ dry.isSuccess = wet.isSuccess := by
  have hnever : ∀ plugin ∈ [counting, refusing], plugin.NeverCancels := by
    intro plugin hplugin
    simp only [List.mem_cons, List.not_mem_nil, or_false] at hplugin
    rcases hplugin with rfl | rfl
    · exact ⟨fun _ _ => id, fun _ _ _ => id, fun _ _ _ => id⟩
    · exact ⟨fun _ _ => id, fun _ _ _ => id, fun _ _ _ => id⟩
  obtain ⟨hobserved, -, hreports⟩ := plugins_only_observe { plugins := [counting, refusing] } hnever
    { name := "p" } critics ⟨false, ()⟩ 0
  refine ⟨hnever, hobserved, rfl, _, _, rfl, rfl, ?_⟩
  obtain ⟨-, -, -, hrendered, hsuccess⟩ := hreports default true () {} {} _ _ rfl rfl
  exact ⟨hrendered, hsuccess⟩

end EditPipeline
