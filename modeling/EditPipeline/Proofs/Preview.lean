import EditPipeline.Host.Check
import EditPipeline.Proofs.Observation

/-!
# Collecting previews a run

Collecting alone finds what a run finds in its collecting phase, if the markers make their
editors afresh.  So it fails where the run would abort in that phase, with the same error
and the same findings; and where it succeeds, the run has the same stages at its end and
says at least as much about each of them, whatever becomes of the edits.

A project that a check finds invalid is therefore never edited with success.
-/

namespace EditPipeline

variable {σ π π' : Type}

/-- How a run went against what collecting had found before it. -/
inductive Previewed (collected : Ended σ π (Option PipelineError × Findings))
    (ran : Ended σ π' Outcome) : Prop where
  /-- Collecting failed, and so did the run. -/
  | refused {error : PipelineError} {findings : Findings}
      (hcollected : collected.outcome = (some error, findings))
      (hran : ran.outcome = .aborted error findings) : Previewed collected ran
  /-- Collecting succeeded.  The run has the same stages, and the diagnostics of each of them
  begin with those that collecting gave. -/
  | accepted {findings : Findings} (hcollected : collected.outcome = (none, findings))
      (hstages : ran.outcome.findings.stages = findings.stages)
      (htold : findings.diagnostics = toldBy findings.stages collected.journal)
      (htold' : ran.outcome.findings.diagnostics = toldBy findings.stages ran.journal)
      (hgrows : ∀ name index, ofStage name index (emissions collected.journal) <+:
        ofStage name index (emissions ran.journal)) : Previewed collected ran

/-! ## The collecting phase of both -/

namespace Pipeline

theorem collect_of_error (pipeline : Pipeline π) {program : Program} {markers : List (Marker σ)}
    {shared : Shared σ} {watch : π} {error : PipelineError} {run : Run σ π}
    (hcollected : (pipeline.start shared watch).collect program markers = (.error error, run)) :
    (pipeline.collect program markers shared watch).outcome = (some error, run.findings) := by
  simp [Pipeline.collect, hcollected]

theorem run_of_error (pipeline : Pipeline π) {program : Program} {markers : List (Marker σ)}
    {shared : Shared σ} {watch : π} {error : PipelineError} {run : Run σ π}
    (hcollected : (pipeline.start shared watch).collect program markers = (.error error, run)) :
    (pipeline.run program markers shared watch).outcome = .aborted error run.findings := by
  simp [Pipeline.run, hcollected]

theorem collect_of_ok (pipeline : Pipeline π) {program : Program} {markers : List (Marker σ)}
    {shared : Shared σ} {watch : π} {run : Run σ π}
    (hcollected : (pipeline.start shared watch).collect program markers = (.ok (), run)) :
    (pipeline.collect program markers shared watch).outcome = (none, run.findings) ∧
      emissions (pipeline.collect program markers shared watch).journal =
        emissions run.journal := by
  simp only [Pipeline.collect, hcollected]
  exact ⟨Run.outcome_finish .., Run.emissions_announce .done pipeline.plugins run⟩

/-- Executing lists the stages that were collected, and only adds to what they said. -/
theorem run_of_ok (pipeline : Pipeline π) {program : Program} {markers : List (Marker σ)}
    {shared : Shared σ} {watch : π} {run : Run σ π}
    (hcollected : (pipeline.start shared watch).collect program markers = (.ok (), run)) :
    (pipeline.run program markers shared watch).outcome.findings.stages = run.findings.stages ∧
      emissions run.journal <+:
        emissions (pipeline.run program markers shared watch).journal := by
  have hexecutes := Run.executes pipeline.plugins 0 run.chain program
    (run.announce .executing 0 pipeline.plugins)
  rw [pipeline.run_conclude program markers shared watch none hcollected]
  constructor
  · rw [Run.findings_conclude]
    exact hexecutes.stageInfos.trans (Run.stageInfos_announce ..)
  · obtain ⟨edited, looks, -, hcovers⟩ := hexecutes.covers
    have hannounced := (Run.Covers.refl pipeline.plugins run).announce .executing
    obtain ⟨acts, hmoves, -⟩ := (hannounced.trans hcovers).announce .done
    rw [Run.journal_conclude]
    exact hmoves.journal_prefix.filterMap _

/-- **Collecting previews a run**, watched by plugins that do not request cancellation. -/
theorem previewed {pipeline : Pipeline π} {pipeline' : Pipeline π'}
    (hnever : ∀ plugin ∈ pipeline.plugins, plugin.NeverCancels)
    (hnever' : ∀ plugin ∈ pipeline'.plugins, plugin.NeverCancels) (program : Program)
    {markers : List (Marker σ)} {like : Likeness σ} {cancelled : Bool} {memory memory' : σ}
    (hfresh : MadeAfresh like markers cancelled memory memory') (watch : π) (watch' : π') :
    Previewed (pipeline.collect program markers ⟨cancelled, memory⟩ watch)
      (pipeline'.run program markers ⟨cancelled, memory'⟩ watch') := by
  cases hleft : (pipeline.start ⟨cancelled, memory⟩ watch).collect program markers with
  | mk result left =>
      cases hright : (pipeline'.start ⟨cancelled, memory'⟩ watch').collect program markers with
      | mk result' right =>
          cases hquiet : (({} : Pipeline Unit).start ⟨cancelled, memory'⟩ ()).collect program
              markers with
          | mk other settled =>
              -- both go like the run without plugins that has the memory of the second one
              obtain ⟨rfl, hmirrors, -⟩ :=
                collect_mirrors hnever program hfresh watch hleft hquiet
              obtain ⟨rfl, hmirrors', -⟩ := collect_mirrors hnever' program
                (madeAfresh_same markers cancelled memory') watch' hright hquiet
              have hfound : left.findings = right.findings :=
                hmirrors.findings.trans hmirrors'.findings.symm
              have hsaid : emissions left.journal = emissions right.journal := by
                rw [← emissions_unheard, hmirrors.journal, ← hmirrors'.journal, emissions_unheard]
              cases result' with
              | error error =>
                  exact .refused (pipeline.collect_of_error hleft)
                    (hfound ▸ pipeline'.run_of_error hright)
              | ok done =>
                  obtain ⟨hcollected, hjournal⟩ := pipeline.collect_of_ok hleft
                  obtain ⟨hstages, hgrows⟩ := pipeline'.run_of_ok hright
                  have htold :=
                    pipeline.toldBy_collect program markers ⟨cancelled, memory⟩ watch none
                  have htold' :=
                    pipeline'.toldBy_run program markers ⟨cancelled, memory'⟩ watch' none
                  rw [hcollected] at htold
                  rw [hstages, ← hfound] at htold'
                  rw [← hsaid, ← hjournal] at hgrows
                  exact .accepted hcollected (hfound ▸ hstages) htold htold'
                    fun name index => ofStage_prefix name index hgrows

end Pipeline

/-! ## Checks and edits -/

theorem toldBy_subset {stages : List StageInfo} {journal more : Journal}
    (hgrows : ∀ name index, ofStage name index (emissions journal) <+:
      ofStage name index (emissions more)) : toldBy stages journal ⊆ toldBy stages more := by
  intro diagnostic hdiagnostic
  obtain ⟨⟨name, index⟩, hstage, htold⟩ := List.mem_flatMap.1 hdiagnostic
  exact List.mem_flatMap.2 ⟨(name, index), hstage, (hgrows name index).subset htold⟩

theorem EditReport.isSuccess_of_error {report : EditReport} {diagnostic : Diagnostic}
    (hdiagnostic : diagnostic ∈ report.diagnostics) (herror : diagnostic.isError = true) :
    report.isSuccess = false := by
  have hcount : 0 < errorCount report.diagnostics :=
    List.countP_pos_iff.2 ⟨diagnostic, hdiagnostic, herror⟩
  simp [EditReport.isSuccess, Nat.ne_of_gt hcount]

theorem EditReport.isSuccess_of_failure {report : EditReport} {error : PipelineError}
    (hfailure : report.failure = some error) : report.isSuccess = false := by
  simp [EditReport.isSuccess, hfailure]

/-- What a check finds wrong is wrong with the run as well. -/
theorem Previewed.isSuccess {collected : Ended σ π (Option PipelineError × Findings)}
    {ran : Ended σ π' Outcome} (hpreviewed : Previewed collected ran) {check : CheckReport}
    (hfailure : check.failure = collected.outcome.1)
    (hdiagnostics : check.diagnostics = collected.outcome.2.diagnostics)
    (hinvalid : check.isValid = false) (file : ManifestFile) (print : Bool) :
    (ran.outcome.report file print).isSuccess = false := by
  cases hpreviewed with
  | refused hcollected hran =>
      rw [hran]
      exact EditReport.isSuccess_of_failure rfl
  | @accepted findings hcollected hstages htold htold' hgrows =>
      rw [hcollected] at hfailure hdiagnostics
      have herror : ∃ diagnostic ∈ findings.diagnostics, diagnostic.isError = true := by
        simpa [CheckReport.isValid, hfailure, hdiagnostics] using hinvalid
      obtain ⟨diagnostic, hdiagnostic, herror⟩ := herror
      rw [htold] at hdiagnostic
      have hran : diagnostic ∈ ran.outcome.findings.diagnostics := by
        rw [htold']
        exact toldBy_subset hgrows hdiagnostic
      exact EditReport.isSuccess_of_error hran herror

/-! ## Main statement -/

/-- **Collecting previews a run** whose markers make their editors afresh, and an invalid
project is never edited with success.  The two entry points may be watched by different
plugins, and find different memories. -/
theorem collect_previews_run (pipeline : Pipeline π) (pipeline' : Pipeline π')
    (hnever : ∀ plugin ∈ pipeline.plugins, plugin.NeverCancels)
    (hnever' : ∀ plugin ∈ pipeline'.plugins, plugin.NeverCancels) (program : Program)
    {markers : List (Marker σ)} {like : Likeness σ} {cancelled : Bool} {memory memory' : σ}
    (hfresh : MadeAfresh like markers cancelled memory memory') (watch : π) (watch' : π') :
    Previewed (pipeline.collect program markers ⟨cancelled, memory⟩ watch)
      (pipeline'.run program markers ⟨cancelled, memory'⟩ watch') ∧
    ∀ (configPath : Path) (file : ManifestFile) (options : EditOptions) (files : FileSystem)
      (report : EditReport), cancelled = false →
      (Host.check configPath program markers memory).isValid = false →
      (Host.edit file program markers options memory' files).1 = .ok report →
      report.isSuccess = false := by
  refine ⟨Pipeline.previewed hnever hnever' program hfresh watch watch', ?_⟩
  intro configPath file options files report hstarts hinvalid hreport
  subst hstarts
  -- the host reports what a run without plugins gives, so that is the run to preview
  have hnone : ∀ plugin ∈ ({} : Pipeline Unit).plugins, plugin.NeverCancels := by simp
  have hpreviewed := Pipeline.previewed hnone hnone program hfresh () ()
  calc report.isSuccess
      = report.unwritten.isSuccess := rfl
    _ = ((({} : Pipeline Unit).run program markers ⟨false, memory'⟩ ()).outcome.report file
          options.print).unwritten.isSuccess :=
        congrArg EditReport.isSuccess (Host.unwritten_edit hreport)
    _ = false := hpreviewed.isSuccess rfl rfl hinvalid file options.print

/-- A marker that counts how often it is asked.  Its editor finds an error, and then quits
before its edit can be called. -/
def counted : List (Marker Nat) := [⟨"counted", fun shared => (.ok [{
  name := "checker"
  setUp _ shared := {
    result := .ok ()
    emitted := [⟨.error, "", "bad", none⟩]
    edits := [fun program _ shared => { result := .ok program, emitted := [], shared }]
    shared := shared.cancel } }], { shared with memory := shared.memory + 1 })⟩]

/-- Collecting succeeds, and the run after it aborts with the same stage and the same
error among its diagnostics. -/
theorem previewed_of_counted :
    MadeAfresh ⟨fun _ _ => True, fun _ _ => True⟩ counted false 0 1 ∧
    Previewed (({ plugins := [counting] } : Pipeline Nat).collect { name := "p" } counted
        ⟨false, 0⟩ 0)
      (({ plugins := [counting] } : Pipeline Nat).run { name := "p" } counted ⟨false, 1⟩ 0) ∧
    (({ plugins := [counting] } : Pipeline Nat).collect { name := "p" } counted
      ⟨false, 0⟩ 0).outcome =
        (none, ⟨[⟨"checker", ⟨0, "counted"⟩, 1⟩], [⟨.error, "checker", "bad", none⟩]⟩) ∧
    (({ plugins := [counting] } : Pipeline Nat).run { name := "p" } counted
      ⟨false, 1⟩ 0).outcome = .aborted .cancelled
        ⟨[⟨"checker", ⟨0, "counted"⟩, 1⟩], [⟨.error, "checker", "bad", none⟩]⟩ ∧
    ∃ report : EditReport,
      (Host.edit default { name := "p" } counted {} 1 {}).1 = .ok report ∧
      report.isSuccess = false := by
  have hnever : ∀ plugin ∈ [counting], plugin.NeverCancels := by
    intro plugin hplugin
    rw [List.mem_singleton.1 hplugin]
    exact ⟨fun _ _ => id, fun _ _ _ => id, fun _ _ _ => id⟩
  have hfresh : MadeAfresh ⟨fun _ _ => True, fun _ _ => True⟩ counted false 0 1 := by
    refine .gave rfl rfl (.cons ⟨rfl, fun _ _ _ _ _ => ?_⟩ .nil) (.done trivial)
    exact ⟨rfl, rfl, .cons trivial .nil, rfl, trivial⟩
  obtain ⟨hpreviewed, hchecked⟩ := collect_previews_run { plugins := [counting] }
    { plugins := [counting] } hnever hnever { name := "p" } hfresh 0 0
  exact ⟨hfresh, hpreviewed, rfl, rfl, _, rfl, hchecked default default {} {} _ rfl rfl rfl⟩

end EditPipeline
