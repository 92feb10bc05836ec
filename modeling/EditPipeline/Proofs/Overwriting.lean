import EditPipeline.Proofs.Files.FileNames
import EditPipeline.Proofs.Manifest.Accepted

/-!
# When the edited program takes the place of the program

A manifest is refused if its two paths have the same components.  The paths are compared as
they stand in the manifest, and used below the directory of the manifest.  In between, two
different paths can become the same: a dot at the front is lost, and an absolute path may
lead where a relative one does (`Respells`).  Without a path for the edited program there is
no check at all; then the name next to the program differs from the program's name, if the
program's path ends in a name.
-/

namespace EditPipeline

/-- Two different paths that have the same components below `base`, the first one spelled
with more. -/
inductive Path.Respells (base spelled plain : Path) : Prop where
  /-- One path begins with a dot. -/
  | dot (hspelled : spelled.isAbsolute = false) (hplain : plain.isAbsolute = false)
      (hbase : base.text ≠ "") (hdot : spelled.components = .here :: plain.components)
  /-- One path is absolute. -/
  | absolute (hspelled : spelled.isAbsolute = true) (hplain : plain.isAbsolute = false)
      (hleads : spelled.components = (base.join plain).components)

namespace Path

variable {base first second : Path}

theorem respells_iff_of_absolute (hfirst : first.isAbsolute = true) :
    Respells base first second ↔
      second.isAbsolute = false ∧ first.components = (base.join second).components := by
  constructor
  · intro hrespells
    cases hrespells with
    | dot hrelative hsecond hbase hdot =>
        rw [hfirst] at hrelative
        cases hrelative
    | absolute habsolute hsecond hleads => exact ⟨hsecond, hleads⟩
  · rintro ⟨hsecond, hleads⟩
    exact .absolute hfirst hsecond hleads

theorem respells_iff_of_relative (hfirst : first.isAbsolute = false) :
    Respells base first second ↔
      second.isAbsolute = false ∧ base.text ≠ "" ∧ first.components = .here :: second.components := by
  constructor
  · intro hrespells
    cases hrespells with
    | dot hrelative hsecond hbase hdot => exact ⟨hsecond, hbase, hdot⟩
    | absolute habsolute hsecond hleads =>
        rw [hfirst] at habsolute
        cases habsolute
  · rintro ⟨hsecond, hbase, hdot⟩
    exact .dot hfirst hsecond hbase hdot

theorem sameAs_iff : first.sameAs second = true ↔ first.components = second.components :=
  decide_eq_true_iff

/-- Below a base that is not empty, relative paths are the same up to a dot at the front. -/
theorem sameAs_join_of_relative (hfirst : first.isAbsolute = false)
    (hsecond : second.isAbsolute = false) (hbase : base.text ≠ "")
    (hdiffer : first.components ≠ second.components) :
    (base.join first).sameAs (base.join second) = true ↔
      first.components = .here :: second.components ∨
        second.components = .here :: first.components := by
  rw [sameAs_iff, components_join hfirst hbase, components_join hsecond hbase,
    List.append_cancel_left_eq]
  have hfirsts := components_of_relative hfirst
  have hseconds := components_of_relative hsecond
  rw [filterMap_segments hfirst] at hfirsts
  rw [filterMap_segments hsecond] at hseconds
  constructor
  · intro hsame
    rw [hsame] at hfirsts
    rcases hfirsts with hfirsts | hfirsts <;> rcases hseconds with hseconds | hseconds
    · exact absurd (hfirsts.trans hseconds.symm) hdiffer
    · exact .inr (hseconds.trans (congrArg _ hfirsts.symm))
    · exact .inl (hfirsts.trans (congrArg _ hseconds.symm))
    · exact absurd (hfirsts.trans hseconds.symm) hdiffer
  · rintro (hdot | hdot)
    · rw [hdot, List.filter_cons_of_neg (by simp)]
    · rw [hdot, List.filter_cons_of_neg (by simp)]

/-- **Different paths that become the same.** -/
theorem sameAs_join_iff (hdiffer : first.components ≠ second.components) :
    (base.join first).sameAs (base.join second) = true ↔
      Respells base first second ∨ Respells base second first := by
  cases hfirst : first.isAbsolute with
  | true =>
      rw [join_eq_self (.inl hfirst), respells_iff_of_absolute hfirst]
      cases hsecond : second.isAbsolute with
      | true =>
          rw [join_eq_self (.inl hsecond), respells_iff_of_absolute hsecond, sameAs_iff]
          simpa [hfirst] using hdiffer
      | false =>
          rw [respells_iff_of_relative hsecond, sameAs_iff]
          simp [hfirst]
  | false =>
      rw [respells_iff_of_relative hfirst]
      cases hsecond : second.isAbsolute with
      | true =>
          rw [join_eq_self (.inl hsecond), respells_iff_of_absolute hsecond, sameAs_iff,
            eq_comm]
          simp [hfirst]
      | false =>
          rw [respells_iff_of_relative hsecond]
          by_cases hbase : base.text = ""
          · rw [join_eq_self (.inr hbase), join_eq_self (.inr hbase), sameAs_iff]
            simpa [hbase] using hdiffer
          · rw [sameAs_join_of_relative hfirst hsecond hbase hdiffer]
            simp [hfirst, hbase]

end Path

/-! ## Accepted manifests -/

/-- An accepted manifest does not name the program again for the edited program. -/
theorem Manifest.components_ne_of_accepted {text filename : String} {manifest : Manifest}
    {output : Path} (haccepted : Manifest.ofText text filename = .ok manifest)
    (houtput : manifest.output.program = some output) :
    output.components ≠ manifest.project.program.components := by
  obtain ⟨-, -, -, -, hfault⟩ := Manifest.ofText_eq_ok_iff.1 haccepted
  intro hsame
  unfold Manifest.fault? at hfault
  rw [houtput] at hfault
  dsimp only at hfault
  rw [if_pos (Path.sameAs_iff.2 hsame)] at hfault
  split at hfault
  · cases hfault
  · split at hfault <;> cases hfault

/-- Without a path for the edited program, it goes to another file than the program stands
in, if the program's path ends in a name. -/
theorem Path.sameAs_withExtension_iff {path : Path} {extension : String}
    (hdot : '.' ∈ extension.toList) (hslash : '/' ∉ extension.toList) :
    (path.withExtension extension).sameAs path = true ↔
      ∀ name, path.components.getLast? ≠ some (.name name) := by
  constructor
  · intro hsame name hname
    refine getLast?_components_withExtension (fileName?_eq_some_iff.2 hname) hdot hslash ?_
    rw [sameAs_iff.1 hsame, hname]
  · intro hnone
    have hname : path.fileName? = none := by
      cases hname : path.fileName? with
      | none => rfl
      | some name => exact absurd (fileName?_eq_some_iff.1 hname) (hnone name)
    rw [withExtension_eq_self hname, sameAs_iff]

/-! ## Main statement -/

/-- **When the edited program takes the place of the program.**  A manifest that was accepted
can still send the edited program to the program's path: if it gives a path for it, exactly
when one of the two paths respells the other one below the directory of the manifest; if it
gives none, exactly when the program's path does not end in a name. -/
theorem output_over_program {text filename : String} {manifest : Manifest}
    (haccepted : Manifest.ofText text filename = .ok manifest) (path : Path) :
    let file : ManifestFile := ⟨path, text, manifest⟩
    (∀ output, manifest.output.program = some output →
      (file.outputPath.sameAs file.programPath = true ↔
        file.baseDir.Respells output manifest.project.program ∨
          file.baseDir.Respells manifest.project.program output)) ∧
    (manifest.output.program = none →
      (file.outputPath.sameAs file.programPath = true ↔
        ∀ name, file.programPath.components.getLast? ≠ some (.name name))) := by
  intro file
  constructor
  · intro output houtput
    have hpath : file.outputPath = file.baseDir.join output := by
      unfold ManifestFile.outputPath
      rw [show file.manifest.output.program = some output from houtput]
    rw [hpath]
    exact Path.sameAs_join_iff (Manifest.components_ne_of_accepted haccepted houtput)
  · intro houtput
    have hpath : file.outputPath = file.programPath.withExtension "edited.json" := by
      unfold ManifestFile.outputPath
      rw [show file.manifest.output.program = none from houtput]
    rw [hpath]
    exact Path.sameAs_withExtension_iff (by decide) (by decide)

/-- A manifest that gives the program's name again, with a dot in front. -/
def dotted : String :=
  "[output]\nprogram = './p.json'\n[project]\nname = 'demo'\nprogram = 'p.json'\n"

/-- What `dotted` says. -/
def dottedEntries : Toml.Entries :=
  [(⟨"output", ⟨1, 6⟩⟩, ⟨0, 8⟩, .table .header
      [(⟨"program", ⟨9, 7⟩⟩, ⟨19, 10⟩, .string "./p.json")]),
   (⟨"project", ⟨31, 7⟩⟩, ⟨30, 9⟩, .table .header
      [(⟨"name", ⟨40, 4⟩⟩, ⟨47, 6⟩, .string "demo"),
       (⟨"program", ⟨54, 7⟩⟩, ⟨64, 8⟩, .string "p.json")])]

theorem ofText_dotted (filename : String) : Manifest.ofText dotted filename =
    .ok ⟨⟨"demo", ⟨"p.json"⟩⟩, ⟨some ⟨"./p.json"⟩, none⟩, ⟨false⟩⟩ := by
  have hread : Toml.ofText? dotted = some dottedEntries := by decide +kernel
  have hshape : Manifest.ofEntries dottedEntries =
      .ok ⟨⟨"demo", ⟨"p.json"⟩⟩, ⟨some ⟨"./p.json"⟩, none⟩, ⟨false⟩⟩ :=
    Manifest.ofEntries_tables (Toml.Record.read_of_sorted (by simp) rfl rfl)
      (Toml.Record.read_of_sorted (by simp) rfl rfl)
  exact Manifest.ofText_eq_ok_iff.2 ⟨_, hread, hshape, rfl, by decide⟩

theorem replaced_of_dotted :
    ∃ manifest, Manifest.ofText dotted "sub/comet.toml" = .ok manifest ∧
      (ManifestFile.outputPath ⟨⟨"sub/comet.toml"⟩, dotted, manifest⟩).sameAs
        (ManifestFile.programPath ⟨⟨"sub/comet.toml"⟩, dotted, manifest⟩) = true := by
  obtain ⟨hgiven, -⟩ := output_over_program (ofText_dotted "sub/comet.toml") ⟨"sub/comet.toml"⟩
  refine ⟨_, ofText_dotted _, (hgiven _ rfl).2 (.inl (.dot rfl rfl ?_ rfl))⟩
  decide

end EditPipeline
