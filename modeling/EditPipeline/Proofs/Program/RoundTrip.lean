import EditPipeline.Proofs.Json.Records
import EditPipeline.Proofs.Program.Spelling

/-!
# Programs that are written and read again

A program is written as JSON, without spaces or indented, and read back as it was: in every
field, and with its types, methods, attributes, statements and markers in their order.

Both texts spell the program, and it is read from every text that does.

The arguments of a marker are the one part that is no part of the format.  They come back
if they are free of doubles and fit the levels that are left for them; whatever was read
from a text does.
-/

namespace EditPipeline

open Json (Tree Record Fits)

/-! ## Texts -/

/-- A program is read back from both of its texts. -/
theorem Program.ofText_written {program : Program}
    (hfits : ∀ marker ∈ program.markers, Fits (Json.maxLevels - 3) marker.args)
    (hfree : ∀ marker ∈ program.markers, marker.args.FloatFree) :
    Program.ofText program.toJson.compactText = .ok program ∧
      Program.ofText program.toJson.prettyText = .ok program := by
  obtain ⟨hcompact, hpretty⟩ := Program.spelledBy_written fun marker hmarker =>
    Json.exact_of_canonical (hfits marker hmarker).1 (hfree marker hmarker)
  exact ⟨Program.ofText_of_spelledBy hfits hcompact, Program.ofText_of_spelledBy hfits hpretty⟩

/-! ## Programs that were read -/

theorem MarkerDecl.fits_of_read {levels : Nat} {node : Tree} {marker : MarkerDecl}
    (hsound : node.Sound) (hread : (MarkerDecl.record levels).read node = .ok marker) :
    Fits levels marker.args := by
  have hkeeps : ∀ field ∈ (MarkerDecl.record levels).fields,
      Record.Keeps field fun draft => ∀ args ∈ draft.args, Fits levels args := by
    refine List.forall_mem_cons.2 ⟨Record.keeps_bind ?_, List.forall_mem_singleton.2
      (Record.keeps_bind ?_)⟩
    · exact fun _ _ _ _ hdraft _ => hdraft
    · intro node draft value hsound _ hvalue args hargs
      cases hargs
      exact Json.fits_of_toJson levels node hsound hvalue
  obtain ⟨draft, hargs, hfinish⟩ := Record.read_invariant (fun _ h => nomatch h) hkeeps hsound hread
  obtain ⟨kind, args⟩ := draft
  cases kind with
  | none => cases hfinish
  | some kind =>
      cases hfinish
      cases args with
      | none => exact Json.fits_null levels
      | some args => exact hargs args rfl

theorem Program.fits_of_read {node : Tree} {program : Program} (hsound : node.Sound)
    (hread : Program.record.read node = .ok program) :
    ∀ marker ∈ program.markers, Fits (Json.maxLevels - 3) marker.args := by
  have hkeeps : ∀ field ∈ Program.record.fields, Record.Keeps field fun draft =>
      ∀ markers ∈ draft.markers, ∀ marker ∈ markers, Fits (Json.maxLevels - 3) marker.args := by
    refine List.forall_mem_cons.2 ⟨Record.keeps_bind ?_, List.forall_mem_cons.2
      ⟨Record.keeps_bind ?_, List.forall_mem_singleton.2 (Record.keeps_bind ?_)⟩⟩
    · exact fun _ _ _ _ hdraft _ => hdraft
    · intro node draft values hsound _ hvalues markers hmarkers
      cases hmarkers
      exact Json.forall_mem_of_toList hvalues hsound MarkerDecl.fits_of_read
    · exact fun _ _ _ _ hdraft _ => hdraft
  obtain ⟨draft, hmarkers, hfinish⟩ :=
    Record.read_invariant (fun _ h => nomatch h) hkeeps hsound hread
  obtain ⟨name, markers, types⟩ := draft
  cases name with
  | none => cases hfinish
  | some name =>
      cases hfinish
      cases markers with
      | none => exact List.forall_mem_nil _
      | some markers => exact hmarkers markers rfl

/-- The arguments of the markers of a text can be written and read again. -/
theorem Program.fits_of_ofText {text : String} {program : Program}
    (hread : Program.ofText text = .ok program) :
    ∀ marker ∈ program.markers, Fits (Json.maxLevels - 3) marker.args :=
  Program.fits_of_read (Json.Document.sound_ofText text) (Json.read_of_decode hread)

/-! ## Main statement -/

/-- **Programs come back from their texts.**  A program whose markers carry canonical values
without doubles, nested at most 124 levels deep, is read back as it was, both from its text
without spaces and from its indented text.  So is every program without doubles that was
itself read from a text. -/
theorem programs_come_back (program : Program)
    (hfree : ∀ marker ∈ program.markers, marker.args.FloatFree)
    (hargs : (∀ marker ∈ program.markers, marker.args.Canonical ∧ marker.args.depth ≤ 124) ∨
      ∃ text, Program.ofText text = .ok program) :
    Program.ofText program.toJson.compactText = .ok program ∧
      Program.ofText program.toJson.prettyText = .ok program := by
  rcases hargs with hfits | ⟨text, hread⟩
  · exact Program.ofText_written hfits hfree
  · exact Program.ofText_written (Program.fits_of_ofText hread) hfree

/-- A program with every form that a part of it can take: text that needs escapes, a method
with and one without each list, and arguments of every kind. -/
def manifold : Program where
  name := "Größe \"\\\n\x01\x1f/"
  markers := [
    { kind := "break-on", args := .object [
        ("", .array [.null, .bool false, .number (.integer (-9223372036854775808)), .array []]),
        ("depth", .number (.integer 18446744073709551615)),
        ("types", .array [.string "X", .object []])] },
    { kind := "" }]
  types := ⟨[
    { id := ⟨"X"⟩, base := some .attributeRoot },
    { id := ⟨"C"⟩, methods := [
        { name := "M", attributes := [{ type := ⟨"X"⟩, args := ["1", "\t"] }, { type := ⟨"Y"⟩ }],
          body := [.intrinsic .debuggerBreak, .expr "f()", .returns none, .returns (some "x")],
          tags := ⟨["a", "b"], by decide⟩ },
        { name := "N" }] }], by decide⟩

theorem manifold_comes_back :
    (∀ marker ∈ manifold.markers, marker.args.FloatFree) ∧
      (∀ marker ∈ manifold.markers, marker.args.Canonical ∧ marker.args.depth ≤ 124) ∧
      Program.ofText manifold.toJson.compactText = .ok manifold ∧
      Program.ofText manifold.toJson.prettyText = .ok manifold := by
  have hfree : ∀ marker ∈ manifold.markers, marker.args.FloatFree := by
    simp [manifold, Json.FloatFree, Json.FloatFreeItems, Json.FloatFreeMembers]
  have hargs : ∀ marker ∈ manifold.markers, marker.args.Canonical ∧ marker.args.depth ≤ 124 := by
    have hwords : Json.IsWord (-9223372036854775808) ∧ Json.IsWord 18446744073709551615 := by
      decide
    refine List.forall_mem_cons.2 ⟨⟨⟨?_, ?_⟩, ?_⟩, List.forall_mem_singleton.2 ⟨trivial, ?_⟩⟩
    · show ["", "depth", "types"].Pairwise (· < ·)
      decide
    · simp [Json.Canonical, Json.CanonicalItems, Json.CanonicalMembers, hwords]
    · simp [Json.depth, Json.depthItems, Json.depthMembers]
    · exact Nat.zero_le 124
  exact ⟨hfree, hargs, programs_come_back manifold hfree (Or.inl hargs)⟩

end EditPipeline
