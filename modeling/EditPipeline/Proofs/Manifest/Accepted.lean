import EditPipeline.Manifest
import EditPipeline.Proofs.Success

/-!
# Accepted manifests

A text is accepted if it is a document whose entries make a manifest that keeps all the rules
(`Manifest.ofText_eq_ok_iff`).  The entries of a record are visited in the order of their
names; where they stand in this order already, each one fills its field in turn.
-/

namespace EditPipeline

/-! ## Records -/

namespace Toml.Record

variable {ρ α : Type} {record : Record ρ α} {field : Field ρ} {key : Key} {value : Placed}
  {draft next : ρ} {result : α} {place : Span} {kind : TableKind} {entries : Entries}

/-- Where the entries of a table stand in order already. -/
theorem inOrder_of_sorted
    (hsorted : entries.Pairwise fun first second => first.1.name ≤ second.1.name) :
    inOrder entries = entries :=
  List.mergeSort_of_pairwise (hsorted.imp decide_eq_true)

/-- The entry of a field, if its value can be read. -/
theorem fillEntries_cons
    (hfield : (record.fields.find? fun field => field.name = key.name) = some field)
    (hfill : field.fill value draft = .ok next) :
    record.fillEntries ((key, value) :: entries) draft = record.fillEntries entries next := by
  rw [fillEntries, hfield]
  dsimp only
  rw [hfill, ok_bind]

theorem readEntries_of_sorted
    (hsorted : entries.Pairwise fun first second => first.1.name ≤ second.1.name)
    (hfill : record.fillEntries entries record.blank = .ok draft)
    (hfinish : record.finish draft = .ok result) :
    record.readEntries place entries = .ok result := by
  unfold readEntries
  rw [inOrder_of_sorted hsorted, hfill, ok_bind, hfinish]
  rfl

theorem read_of_sorted
    (hsorted : entries.Pairwise fun first second => first.1.name ≤ second.1.name)
    (hfill : record.fillEntries entries record.blank = .ok draft)
    (hfinish : record.finish draft = .ok result) :
    record.read (place, .table kind entries) = .ok result :=
  readEntries_of_sorted hsorted hfill hfinish

end Toml.Record

/-! ## Manifests -/

namespace Manifest

/-- A document with a table of outputs before the project's table. -/
theorem ofEntries_tables {first second : Span} {given told : Toml.Placed}
    {output : OutputConfig} {project : ProjectConfig}
    (houtput : OutputConfig.record.read given = .ok output)
    (hproject : ProjectConfig.record.read told = .ok project) :
    ofEntries [(⟨"output", first⟩, given), (⟨"project", second⟩, told)] =
      .ok { project, output } := by
  have hfill : record.fillEntries
      [(⟨"output", first⟩, given), (⟨"project", second⟩, told)] record.blank =
        .ok { project := some project, output } := by
    rw [Toml.Record.fillEntries_cons rfl (bind_pure_of_eq_ok _ houtput),
      Toml.Record.fillEntries_cons rfl (bind_pure_of_eq_ok _ hproject)]
    rfl
  exact Toml.Record.readEntries_of_sorted (by simp) hfill rfl

/-- **What it takes to be accepted.** -/
theorem ofText_eq_ok_iff {text filename : String} {manifest : Manifest} :
    ofText text filename = .ok manifest ↔
      ∃ entries, Toml.ofText? text = some entries ∧ ofEntries entries = .ok manifest ∧
        nameFault? manifest.project.name = none ∧ manifest.fault? = none := by
  unfold ofText
  cases Toml.ofText? text with
  | none =>
      constructor
      · intro haccepted
        cases haccepted
      · rintro ⟨entries, hentries, -⟩
        cases hentries
  | some entries =>
      dsimp only
      rw [bind_eq_ok_iff]
      constructor
      · rintro ⟨read, hshape, haccepted⟩
        cases hname : nameFault? read.project.name with
        | some fault =>
            rw [hname] at haccepted
            cases haccepted
        | none =>
            rw [hname] at haccepted
            cases hfault : read.fault? with
            | some fault =>
                rw [hfault] at haccepted
                cases haccepted
            | none =>
                rw [hfault] at haccepted
                cases haccepted
                exact ⟨entries, rfl, mapError_eq_ok_iff.1 hshape, hname, hfault⟩
      · rintro ⟨_, hentries, hshape, hname, hfault⟩
        cases hentries
        refine ⟨manifest, mapError_eq_ok_iff.2 hshape, ?_⟩
        rw [hname, hfault]
        rfl

end Manifest

end EditPipeline
