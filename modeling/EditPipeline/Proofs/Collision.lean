import EditPipeline.Proofs.Completion
import EditPipeline.Proofs.Delivery
import EditPipeline.Proofs.Manifest.Accepted
import EditPipeline.Proofs.Rerun

/-!
# Snapshots in the place of the edited program

The edited program is written first and the snapshots after it, into a directory that the
manifest names on its own.  Nothing keeps the file of a snapshot from being the one that the
edited program went to: its name is made of a number and the name of an editor.  If one does,
what stands there in the end is the last such snapshot; and a snapshot is never mistaken for
a program, since its text begins with another key (`prettyText_ne`).
-/

namespace EditPipeline

variable {σ : Type}

/-! ## Two kinds of texts -/

/-- The indented text of an object shows its first key. -/
theorem Json.pretty_object (name : String) (value : Json) (rest : List (String × Json)) :
    ∃ more, Json.pretty (.object ((name, value) :: rest)) =
      '\x7b' :: lineBreak 1 ++ (quote name ++ more) := by
  have hseparated (separator piece : List Char) (pieces : List (List Char)) :
      ∃ more, separated separator (piece :: pieces) = piece ++ more := by
    cases pieces with
    | nil => exact ⟨[], (List.append_nil _).symm⟩
    | cons second pieces => exact ⟨_, List.append_assoc _ _ _⟩
  unfold pretty prettyAt prettyMembers block
  rw [List.isEmpty_cons, if_neg Bool.false_ne_true]
  obtain ⟨more, hmore⟩ := hseparated (',' :: lineBreak (0 + 1))
    (quote name ++ ':' :: ' ' :: prettyAt (0 + 1) value) (prettyMembers (0 + 1) rest)
  rw [hmore]
  exact ⟨':' :: ' ' :: prettyAt 1 value ++ more ++ lineBreak 0 ++ ['\x7d'], by simp⟩

/-- A snapshot does not read like a program. -/
theorem Snapshot.prettyText_ne (snapshot : Snapshot) (program : Program) :
    snapshot.toJson.prettyText ≠ program.toJson.prettyText := by
  intro hsame
  have htext : snapshot.toJson.pretty = program.toJson.pretty := String.ofList_injective hsame
  obtain ⟨more, hsnapshot⟩ := Json.pretty_object "index" (.ofNat snapshot.index)
    [("stage", .string snapshot.stage), ("program", snapshot.program.toJson)]
  obtain ⟨rest, hprogram⟩ := Json.pretty_object "name" (.string program.name)
    (optionalMember "markers" MarkerDecl.toJson program.markers ++
      [("types", .array (program.types.toList.map TypeDecl.toJson))])
  have hfirst : some 'i' = some 'n' :=
    calc some 'i' = snapshot.toJson.pretty[5]? := by
          rw [show snapshot.toJson.pretty = _ from hsnapshot]
          rfl
      _ = program.toJson.pretty[5]? := by rw [htext]
      _ = some 'n' := by
          rw [show program.toJson.pretty = _ from hprogram]
          rfl
  cases hfirst

/-! ## What stands there in the end -/

namespace Host

/-- The snapshots whose files are where the edited program went. -/
def colliding (file : ManifestFile) (home : Location) (snapshots : List Snapshot) :
    List Snapshot :=
  file.snapshotsDir?.toList.flatMap fun directory =>
    snapshots.filter fun snapshot =>
      (directory.join ⟨snapshot.fileName⟩).landing home = file.outputPath.landing home

theorem read_of_delivered {file : ManifestFile} {next : Program} {snapshots : List Snapshot}
    {files after : FileSystem}
    (hdone : deliverAll (resultErrands file next snapshots) files = (.ok (), after)) :
    after.read file.outputPath =
      .ok (((colliding file files.home snapshots).getLast?.map fun snapshot =>
        snapshot.toJson.prettyText).getD next.toJson.prettyText) := by
  obtain ⟨between, hprogram, hsnapshots⟩ := deliverAll_append_eq_ok hdone
  have hhome : between.home = files.home := by
    have hdelivered := home_deliverAll (programErrands file.outputPath next) files
    rwa [hprogram] at hdelivered
  rw [← writeProgram_eq] at hprogram
  have hafter := read_deliverAll hsnapshots (read_of_writeProgram hprogram)
  rw [hafter, hhome]
  unfold colliding
  cases file.snapshotsDir? with
  | none => rfl
  | some directory =>
      have htasks : (snapshotErrands directory snapshots).map Errand.task =
          .makeDirs directory :: snapshots.map fun snapshot =>
            .write (directory.join ⟨snapshot.fileName⟩) snapshot.toJson.prettyText := by
        rw [snapshotErrands, List.map_cons, List.map_map]
        rfl
      rw [Option.toList_some, List.flatMap_singleton, List.flatMap_singleton, htasks,
        List.foldl_cons, FileTask.leaves, foldl_leaves]

end Host

/-! ## Main statement -/

/-- **What stands where the edited program was written.**  If the report names a path for the
edited program, the run has completed with a program, and the file at the path holds its text
exactly if no snapshot lands there; then the program is loaded from it.  Otherwise the file
holds the last snapshot that does. -/
theorem holds_unless_colliding {file : ManifestFile} {program : Program}
    {markers : List (Marker σ)} {options : EditOptions} {memory : σ} {files after : FileSystem}
    {report : EditReport} {path : Path}
    (hedit : Host.edit file program markers options memory files = (.ok report, after))
    (houtput : report.output = some path) :
    let alone := ({} : Pipeline Unit).run program markers ⟨false, memory⟩ ()
    let owners := ((({} : Pipeline Unit).start ⟨false, memory⟩ ()).collect program markers).2.owners
    let colliding := Host.colliding file files.home (applied owners alone.journal)
    ∃ (next : Program) (findings : Findings),
      alone.outcome = .completed next findings ∧ path = file.outputPath ∧
      (after.read path = .ok next.toJson.prettyText ↔ colliding = []) ∧
      (∀ snapshot, colliding.getLast? = some snapshot →
        after.read path = .ok snapshot.toJson.prettyText) ∧
      (colliding = [] →
        (∀ marker ∈ next.markers,
          marker.args.Canonical ∧ marker.args.FloatFree ∧ marker.args.depth ≤ 124) →
        Host.loadProgram path after = .ok next) := by
  intro alone owners colliding
  have hfree : ¬ Host.Withheld file options alone.outcome := by
    intro hwithheld
    rw [Host.edit_of_withheld files hwithheld] at hedit
    cases hedit
    cases houtput
  obtain ⟨next, findings, hcompleted⟩ := Host.completed_of_not_withheld hfree
  rw [hcompleted] at hfree
  rw [Host.edit_of_completed files hcompleted hfree] at hedit
  generalize hdelivered : deliverAll (Host.resultErrands file next _) files = delivered at hedit
  obtain ⟨result, left⟩ := delivered
  cases result with
  | error error => cases hedit
  | ok done =>
      cases hedit
      cases houtput
      have hread := Host.read_of_delivered hdelivered
      have hclean (hnone : colliding = []) :
          left.read file.outputPath = .ok next.toJson.prettyText := by
        rw [hread, show Host.colliding file files.home _ = [] from hnone]
        rfl
      have hlast (snapshot : Snapshot) (hlast : colliding.getLast? = some snapshot) :
          left.read file.outputPath = .ok snapshot.toJson.prettyText := by
        rw [hread, show (Host.colliding file files.home _).getLast? = _ from hlast]
        rfl
      refine ⟨next, findings, hcompleted, rfl, ⟨?_, hclean⟩, hlast, ?_⟩
      · intro hholds
        rw [← List.getLast?_eq_none_iff]
        cases hcollides : colliding.getLast? with
        | none => rfl
        | some snapshot =>
            rw [hlast snapshot hcollides] at hholds
            exact absurd (Except.ok.inj hholds) (snapshot.prettyText_ne next)
      · intro hnone hargs
        exact Host.loadProgram_of_read hargs (hclean hnone)

/-- A manifest that sends the edited program to the file of the first snapshot. -/
def clashing : String :=
  "[output]\nprogram = 'o/000-e.json'\nsnapshots = 'o'\n[project]\nname = 'd'\nprogram = 'p'\n"

/-- What `clashing` says. -/
def clashingEntries : Toml.Entries :=
  [(⟨"output", ⟨1, 6⟩⟩, ⟨0, 8⟩, .table .header
      [(⟨"program", ⟨9, 7⟩⟩, ⟨19, 14⟩, .string "o/000-e.json"),
       (⟨"snapshots", ⟨34, 9⟩⟩, ⟨46, 3⟩, .string "o")]),
   (⟨"project", ⟨51, 7⟩⟩, ⟨50, 9⟩, .table .header
      [(⟨"name", ⟨60, 4⟩⟩, ⟨67, 3⟩, .string "d"),
       (⟨"program", ⟨71, 7⟩⟩, ⟨81, 3⟩, .string "p")])]

/-- The manifest in `clashing`. -/
def clashingManifest : Manifest :=
  ⟨⟨"d", ⟨"p"⟩⟩, ⟨some ⟨"o/000-e.json"⟩, some ⟨"o"⟩⟩, ⟨false⟩⟩

theorem ofText_clashing (filename : String) :
    Manifest.ofText clashing filename = .ok clashingManifest := by
  have hread : Toml.ofText? clashing = some clashingEntries := by decide +kernel
  have hshape : Manifest.ofEntries clashingEntries = .ok clashingManifest :=
    Manifest.ofEntries_tables (Toml.Record.read_of_sorted (by simp) rfl rfl)
      (Toml.Record.read_of_sorted (by simp) rfl rfl)
  exact Manifest.ofText_eq_ok_iff.2 ⟨_, hread, hshape, rfl, by decide⟩

/-- The file `comet.toml`, which holds `clashing`. -/
def clashingFile : ManifestFile := ⟨⟨"comet.toml"⟩, clashing, clashingManifest⟩

/-- A marker whose editor `e` has one edit. -/
def signer : List (Marker Unit) := [⟨"single", fun shared => (.ok [signing "e"], shared)⟩]

/-- The snapshot of the only edit replaces what the run has given. -/
theorem replaced_of_clashing :
    ∃ (report : EditReport) (after : FileSystem) (next : Program) (findings : Findings),
      Manifest.ofText clashing "comet.toml" = .ok clashingFile.manifest ∧
      Host.edit clashingFile { name := "p" } signer {} () {} = (.ok report, after) ∧
      report.output = some ⟨"o/000-e.json"⟩ ∧
      (({} : Pipeline Unit).run { name := "p" } signer ⟨false, ()⟩ ()).outcome =
        .completed next findings ∧
      after.read ⟨"o/000-e.json"⟩ = .ok (Snapshot.toJson ⟨0, "e", next⟩).prettyText ∧
      after.read ⟨"o/000-e.json"⟩ ≠ .ok next.toJson.prettyText := by
  obtain ⟨report, after, hedit, houtput⟩ : ∃ report after,
      Host.edit clashingFile { name := "p" } signer {} () {} = (.ok report, after) ∧
        report.output = some ⟨"o/000-e.json"⟩ := ⟨_, _, rfl, rfl⟩
  have hrun : (({} : Pipeline Unit).run { name := "p" } signer ⟨false, ()⟩ ()).outcome =
      .completed { name := "pe" } ⟨[⟨"e", ⟨0, "single"⟩, 1⟩], []⟩ := rfl
  obtain ⟨next, findings, hcompleted, -, hholds, hlast, -⟩ := holds_unless_colliding hedit houtput
  cases hrun.symm.trans hcompleted
  refine ⟨report, after, _, _, ofText_clashing _, hedit, houtput, hrun, ?_, ?_⟩
  · exact hlast ⟨0, "e", { name := "pe" }⟩ rfl
  · intro htext
    cases hholds.1 htext

end EditPipeline
