import EditPipeline.Proofs.Files.SnapshotFiles
import EditPipeline.Proofs.Files.Tasks
import EditPipeline.Proofs.Observation
import EditPipeline.Proofs.Recording

/-!
# What the host writes

The result of a run is `Withheld` in a dry run and if the run does not count as a success;
then nothing is written, and the report says so.  Otherwise the host has errands to do: the
directory of the edited program, the program itself, and then, if the manifest names a
directory for them, the snapshots.  It does them in this order, up to the first that fails.

Three things have to be put together.  What `Host.writeResult` does in nested cases is the
list of errands (`writeResult_eq`).  Whether the report counts as a success is settled by the
run without plugins, since a recorder only observes.  And what the recorder has kept when the
run is over can be read off the journal of that run, too (`snapshots_watched`).
-/

namespace EditPipeline

variable {σ : Type}

namespace Host

/-! ## Errands -/

/-- What it takes to write a program. -/
def programErrands (path : Path) (program : Program) : List (Errand WriteError) :=
  (path.parent?.toList.map fun directory => ⟨.makeDirs directory, .noDirectory⟩) ++
    [⟨.write path program.toJson.prettyText, .program path⟩]

/-- What it takes to write one snapshot. -/
def snapshotErrand (directory : Path) (snapshot : Snapshot) : Errand WriteError where
  task := .write (directory.join ⟨snapshot.fileName⟩) snapshot.toJson.prettyText
  blame := .snapshots directory

/-- What it takes to write snapshots: a directory, and one file for each of them. -/
def snapshotErrands (directory : Path) (snapshots : List Snapshot) : List (Errand WriteError) :=
  ⟨.makeDirs directory, .snapshots directory⟩ :: snapshots.map (snapshotErrand directory)

/-- What it takes to write the result of a run. -/
def resultErrands (file : ManifestFile) (program : Program) (snapshots : List Snapshot) :
    List (Errand WriteError) :=
  programErrands file.outputPath program ++
    file.snapshotsDir?.toList.flatMap fun directory => snapshotErrands directory snapshots

/-- One file is written, or the fault is blamed. -/
theorem deliverAll_write (path : Path) (text : String) (blame : FileFault → WriteError)
    (files : FileSystem) :
    deliverAll [⟨.write path text, blame⟩] files =
      match files.write path text with
      | .error fault => (.error (blame fault), files)
      | .ok files => (.ok (), files) := by
  cases hwrite : files.write path text with
  | error fault => rw [deliverAll_of_error (FileTask.perform_of_error hwrite)]
  | ok after => rw [deliverAll_of_ok (FileTask.perform_of_ok hwrite), deliverAll]

theorem writeProgram_eq (path : Path) (program : Program) (files : FileSystem) :
    writeProgram path program files = deliverAll (programErrands path program) files := by
  unfold writeProgram makeParent programErrands
  cases path.parent? with
  | none => exact (deliverAll_write ..).symm
  | some directory =>
      rw [Option.toList_some, List.map_singleton, List.singleton_append]
      cases hmade : files.createDirAll directory with
      | mk result after =>
          have hperform : (FileTask.makeDirs directory).perform files = (result, after) :=
            (FileTask.perform_makeDirs directory files).trans hmade
          cases result with
          | error fault =>
              rw [deliverAll_of_error hperform]
              simp only [hmade]
          | ok done =>
              rw [deliverAll_of_ok hperform]
              simp only [hmade]
              exact (deliverAll_write ..).symm

theorem writeEach_eq (directory : Path) (snapshots : List Snapshot) (files : FileSystem) :
    ((Snapshot.writeEach directory snapshots files).1.mapError (WriteError.snapshots directory),
      (Snapshot.writeEach directory snapshots files).2) =
      deliverAll (snapshots.map (snapshotErrand directory)) files := by
  induction snapshots generalizing files with
  | nil => rfl
  | cons snapshot rest ih =>
      rw [List.map_cons]
      unfold Snapshot.writeEach
      cases hwrite : snapshot.write directory files with
      | error fault =>
          have hperform : (snapshotErrand directory snapshot).task.perform files =
            (.error fault, files) := FileTask.perform_of_error hwrite
          rw [deliverAll_of_error hperform]
          rfl
      | ok after =>
          have hperform : (snapshotErrand directory snapshot).task.perform files =
            (.ok (), after) := FileTask.perform_of_ok hwrite
          rw [deliverAll_of_ok hperform]
          exact ih after

theorem writeAll_eq (directory : Path) (snapshots : List Snapshot) (files : FileSystem) :
    ((Snapshot.writeAll directory snapshots files).1.mapError (WriteError.snapshots directory),
      (Snapshot.writeAll directory snapshots files).2) =
      deliverAll (snapshotErrands directory snapshots) files := by
  unfold snapshotErrands Snapshot.writeAll
  rw [← FileTask.perform_makeDirs]
  cases hmade : (FileTask.makeDirs directory).perform files with
  | mk result after =>
      cases result with
      | error fault =>
          rw [deliverAll_of_error hmade]
          rfl
      | ok done =>
          rw [deliverAll_of_ok hmade]
          exact writeEach_eq directory snapshots after

/-- Writing a result is doing the errands, and noting in the report where they went if all of
them are done. -/
theorem writeResult_eq (file : ManifestFile) (program : Program) (snapshots : List Snapshot)
    (report : EditReport) (files : FileSystem) (hreport : report.snapshots = none) :
    writeResult file file.snapshotsDir? program snapshots report files =
      ((deliverAll (resultErrands file program snapshots) files).1.map fun _ =>
          { report with output := some file.outputPath, snapshots := file.snapshotsDir? },
        (deliverAll (resultErrands file program snapshots) files).2) := by
  unfold writeResult resultErrands
  dsimp only
  rw [writeProgram_eq, deliverAll_append]
  generalize deliverAll (programErrands file.outputPath program) files = placed
  obtain ⟨result, between⟩ := placed
  cases result with
  | error error => rfl
  | ok done =>
      cases hdirectory : file.snapshotsDir? with
      | none =>
          show (Except.ok { report with output := _, snapshots := report.snapshots }, _) = _
          rw [hreport]
          rfl
      | some directory =>
          have hall := writeAll_eq directory snapshots between
          dsimp only
          rw [Option.toList_some, List.flatMap_singleton, ← hall]
          generalize Snapshot.writeAll directory snapshots between = taken
          obtain ⟨result, after⟩ := taken
          cases result <;> rfl

/-! ## What is withheld -/

/-- The result of a run with this outcome is not to be written. -/
inductive Withheld (file : ManifestFile) (options : EditOptions) (outcome : Outcome) : Prop where
  | dry (hdry : options.dryRun = true)
  | aborted {error : PipelineError} {findings : Findings}
      (haborted : outcome = .aborted error findings)
  | error {diagnostic : Diagnostic} (hlisted : diagnostic ∈ outcome.findings.diagnostics)
      (herror : diagnostic.isError = true)
  | warning {diagnostic : Diagnostic} (hdeny : file.manifest.pipeline.denyWarnings = true)
      (hlisted : diagnostic ∈ outcome.findings.diagnostics)
      (hwarning : diagnostic.isWarning = true)

theorem withheld_iff {file : ManifestFile} {options : EditOptions} {next : Program}
    {findings : Findings} :
    Withheld file options (.completed next findings) ↔
      (options.dryRun ||
        !((Outcome.completed next findings).report file options.print).isSuccess) = true := by
  have hsuccess : ((Outcome.completed next findings).report file options.print).isSuccess = true ↔
      errorCount findings.diagnostics = 0 ∧
        (file.manifest.pipeline.denyWarnings = true → warningCount findings.diagnostics = 0) := by
    change (true && decide (errorCount findings.diagnostics = 0) &&
      !(file.manifest.pipeline.denyWarnings && decide (0 < warningCount findings.diagnostics))) =
        true ↔ _
    cases file.manifest.pipeline.denyWarnings <;> simp
  rw [Bool.or_eq_true, Bool.not_eq_true', ← Bool.not_eq_true, hsuccess]
  unfold errorCount warningCount
  rw [List.countP_eq_zero, List.countP_eq_zero]
  constructor
  · intro hwithheld
    cases hwithheld with
    | dry hdry => exact .inl hdry
    | aborted haborted => cases haborted
    | error hlisted herror => exact .inr fun ⟨hnone, _⟩ => hnone _ hlisted herror
    | warning hdeny hlisted hwarning => exact .inr fun ⟨_, hnone⟩ => hnone hdeny _ hlisted hwarning
  · rintro (hdry | hfailed)
    · exact .dry hdry
    · by_contra hwithheld
      refine hfailed ⟨fun diagnostic hlisted herror => hwithheld (.error hlisted herror), ?_⟩
      intro hdeny diagnostic hlisted hwarning
      exact hwithheld (.warning hdeny hlisted hwarning)

/-- A run that aborts has no result to write. -/
theorem completed_of_not_withheld {file : ManifestFile} {options : EditOptions}
    {outcome : Outcome} (hfree : ¬ Withheld file options outcome) :
    ∃ next findings, outcome = .completed next findings := by
  cases outcome with
  | completed next findings => exact ⟨next, findings, rfl⟩
  | aborted error findings => exact absurd (.aborted rfl) hfree

/-! ## What is kept -/

/-- A recorder that watches a run has kept what the run without it shows. -/
theorem snapshots_watched {program final : Program} {markers : List (Marker σ)} {memory : σ}
    {findings : Findings}
    (hcompleted : (({} : Pipeline Unit).run program markers ⟨false, memory⟩ ()).outcome =
      .completed final findings) :
    (({ plugins := [Gallery.recorder none] } : Pipeline Gallery).run program markers
      ⟨false, memory⟩ {}).watch.snapshots =
      applied ((({} : Pipeline Unit).start ⟨false, memory⟩ ()).collect program markers).2.owners
        (({} : Pipeline Unit).run program markers ⟨false, memory⟩ ()).journal := by
  let recorded : Pipeline Gallery := { plugins := [Gallery.recorder none] }
  have hnever : ∀ plugin ∈ recorded.plugins, plugin.NeverCancels :=
    List.forall_mem_singleton.2 (Gallery.recorder_neverCancels none)
  have howners : ((recorded.start ⟨false, memory⟩ {}).collect program markers).2.owners =
      ((({} : Pipeline Unit).start ⟨false, memory⟩ ()).collect program markers).2.owners := by
    cases hrun : (recorded.start ⟨false, memory⟩ {}).collect program markers with
    | mk result run =>
        cases halone : (({} : Pipeline Unit).start ⟨false, memory⟩ ()).collect program markers with
        | mk other alone =>
            obtain ⟨rfl, hmirrors, hmatches⟩ := Pipeline.collect_mirrors hnever program
              (madeAfresh_same markers false memory) {} hrun halone
            cases result with
            | error error =>
                unfold Pipeline.run at hcompleted
                rw [halone] at hcompleted
                simp at hcompleted
            | ok done =>
                simp [Run.owners, (hmatches rfl).chain_eq, hmirrors.outbox]
  have hjournal : unheard (recorded.run program markers ⟨false, memory⟩ {}).journal =
      (({} : Pipeline Unit).run program markers ⟨false, memory⟩ ()).journal := by
    exact (watched (some default) program markers memory).2
  have hplugins : recorded.plugins = [Gallery.recorder none] := rfl
  have hkept := Pipeline.snapshots_run hplugins program markers ⟨false, memory⟩ {} none
  rw [howners] at hkept
  rw [← hjournal, unheard, applied_filter _ fun _ _ _ => rfl]
  exact hkept.trans (List.nil_append _)

/-! ## The whole run -/

section

variable {file : ManifestFile} {program next : Program} {markers : List (Marker σ)}
  {options : EditOptions} {memory : σ} {findings : Findings}

/-- A run whose result is withheld leaves nothing but its report. -/
theorem edit_of_withheld (files : FileSystem)
    (hwithheld : Withheld file options
      (({} : Pipeline Unit).run program markers ⟨false, memory⟩ ()).outcome) :
    edit file program markers options memory files =
      (.ok ((({} : Pipeline Unit).run program markers ⟨false, memory⟩ ()).outcome.report file
        options.print), files) := by
  obtain ⟨houtcome, -⟩ := watched (snapshotsTarget file options) program markers memory
  rw [← houtcome] at hwithheld ⊢
  unfold edit
  dsimp only
  generalize Pipeline.run _ program markers _ _ = ended at hwithheld ⊢
  obtain ⟨outcome, shared, gallery, journal⟩ := ended
  cases outcome with
  | aborted error findings =>
      simp [Outcome.report, Outcome.findings, Outcome.program?]
  | completed next findings =>
      change (if (options.dryRun ||
        !((Outcome.completed next findings).report file options.print).isSuccess) = true then _
        else _) = _
      rw [if_pos (withheld_iff.1 hwithheld)]
      rfl

/-- A run whose result is not withheld has errands to do. -/
theorem edit_of_completed (files : FileSystem)
    (hcompleted : (({} : Pipeline Unit).run program markers ⟨false, memory⟩ ()).outcome =
      .completed next findings)
    (hfree : ¬ Withheld file options (.completed next findings)) :
    let snapshots := applied
      ((({} : Pipeline Unit).start ⟨false, memory⟩ ()).collect program markers).2.owners
      (({} : Pipeline Unit).run program markers ⟨false, memory⟩ ()).journal
    let delivered := deliverAll (resultErrands file next snapshots) files
    edit file program markers options memory files =
      (delivered.1.map fun _ =>
        { (Outcome.completed next findings).report file options.print with
          output := some file.outputPath, snapshots := file.snapshotsDir? }, delivered.2) := by
  intro snapshots delivered
  have hwet : options.dryRun = false := by
    by_contra hdry
    exact hfree (.dry (Bool.not_eq_false _ ▸ hdry))
  have htarget : snapshotsTarget file options = file.snapshotsDir? := by
    unfold snapshotsTarget
    rw [hwet]
    rfl
  -- without a directory for them there are no snapshots, and no errand is about any
  have hkept : ∀ directory ∈ file.snapshotsDir?,
      (({ plugins := file.snapshotsDir?.toList.map fun _ => Gallery.recorder none } :
        Pipeline Gallery).run program markers ⟨false, memory⟩ {}).watch.snapshots = snapshots := by
    intro directory hdirectory
    rw [Option.mem_def.1 hdirectory]
    exact snapshots_watched hcompleted
  obtain ⟨houtcome, -⟩ := watched file.snapshotsDir? program markers memory
  rw [hcompleted] at houtcome
  unfold edit
  dsimp only
  rw [htarget]
  generalize Pipeline.run _ program markers _ _ = ended at houtcome hkept ⊢
  obtain ⟨outcome, shared, gallery, journal⟩ := ended
  obtain rfl : outcome = .completed next findings := houtcome
  change (if (options.dryRun ||
    !((Outcome.completed next findings).report file options.print).isSuccess) = true then _
    else _) = _
  rw [if_neg (fun hwithheld => hfree (withheld_iff.2 hwithheld)), writeResult_eq _ _ _ _ _ rfl]
  have herrands : resultErrands file next gallery.snapshots = resultErrands file next snapshots := by
    unfold resultErrands
    cases hdirectory : file.snapshotsDir? with
    | none => rfl
    | some directory => rw [show gallery.snapshots = snapshots from hkept directory hdirectory]
  rw [herrands]
  rfl

end

end Host

/-! ## Main statement -/

/-- **What the host writes.**  If the result of a run is withheld, nothing is written and the
report names no destination.  Otherwise the run has completed, and the errands are done up to
the first that fails; the report names the destinations if none does.  There is one snapshot
for each edit, and one file for each snapshot. -/
theorem result_delivered (file : ManifestFile) (program : Program) (markers : List (Marker σ))
    (options : EditOptions) (memory : σ) (files : FileSystem) :
    let alone := ({} : Pipeline Unit).run program markers ⟨false, memory⟩ ()
    let owners := ((({} : Pipeline Unit).start ⟨false, memory⟩ ()).collect program markers).2.owners
    let snapshots := applied owners alone.journal
    let report := alone.outcome.report file options.print
    (Host.Withheld file options alone.outcome →
      Host.edit file program markers options memory files = (.ok report, files) ∧
        report.output = none ∧ report.snapshots = none) ∧
    (¬ Host.Withheld file options alone.outcome → ∃ (next : Program) (findings : Findings),
      alone.outcome = .completed next findings ∧
      Host.edit file program markers options memory files =
        ((deliverAll (Host.resultErrands file next snapshots) files).1.map fun _ =>
            { report with output := some file.outputPath, snapshots := file.snapshotsDir? },
          (deliverAll (Host.resultErrands file next snapshots) files).2) ∧
      -- one snapshot for each edit of the chain
      snapshots.map Snapshot.index = List.range owners.length ∧
      snapshots.map Snapshot.stage = owners ∧
      -- one file for each snapshot
      ∀ directory : Path,
        snapshots.Pairwise (fun snapshot other =>
          (directory.join ⟨snapshot.fileName⟩).components ≠
            (directory.join ⟨other.fileName⟩).components) ∧
        ∀ snapshot ∈ snapshots, '/' ∉ snapshot.stage.toList →
          (directory.join ⟨snapshot.fileName⟩).landing files.home =
            directory.landing files.home ++ [snapshot.fileName]) := by
  intro alone owners snapshots report
  constructor
  · intro hwithheld
    exact ⟨Host.edit_of_withheld files hwithheld, rfl, rfl⟩
  · intro hfree
    obtain ⟨next, findings, hcompleted⟩ := Host.completed_of_not_withheld hfree
    obtain ⟨hindices, hstages⟩ := Pipeline.applied_of_completed rfl rfl hcompleted
    refine ⟨next, findings, hcompleted, ?_, hindices, hstages, ?_⟩
    · rw [hcompleted] at hfree
      rw [Host.edit_of_completed files hcompleted hfree]
      show _ = (Except.map (fun _ => { alone.outcome.report file options.print with
        output := some file.outputPath, snapshots := file.snapshotsDir? }) _, _)
      rw [hcompleted]
    · intro directory
      have hnumbers : snapshots.Pairwise fun snapshot other => snapshot.index ≠ other.index := by
        rw [← List.pairwise_map, hindices]
        exact List.nodup_range
      refine ⟨hnumbers.imp fun hne => Snapshot.components_join_ne directory hne, ?_⟩
      intro snapshot _ hslash
      exact Snapshot.landing_join_of_noSlash files.home directory hslash

end EditPipeline
