import Mathlib.Data.List.Perm.Subperm
import EditPipeline.Program.Listing
import EditPipeline.Proofs.Breaking.Marking
import EditPipeline.Proofs.Program.Bases
import EditPipeline.Proofs.Program.RoundTrip

/-!
# What equality of programs tells

Two programs are equal, in the sense of `==`, when they have one name, equal markers and the
same declarations in *any* order (`TypeTable.sameTypes_iff_perm`).  So equality tells what can
be asked about a type, and it is kept by edits; but it does not tell in which order the types
are declared, and whatever lists them may differ between equal programs: their methods, their
listings, their texts and the reports about them (`reordered_differ`).

The order of the identifiers is all that equality leaves open: equal programs whose types are
declared in one order are the same program (`Program.equal_up_to_order`).
-/

namespace EditPipeline

/-! ## Values

Doubles are compared as numbers, so `0.0` equals `-0.0` although they are written differently.
Without doubles, equal values are the same. -/

namespace Json

mutual

theorem beq_iff : ∀ (a b : Json), a.FloatFree → (beq a b = true ↔ a = b)
  | .null, b, _ => by cases b <;> simp [beq]
  | .bool a, b, _ => by cases b <;> simp [beq]
  | .string a, b, _ => by cases b <;> simp [beq]
  | .number (.integer n), b, _ => by
      cases b with
      | number m =>
          cases m with
          | integer m =>
              rw [number.injEq, Number.integer.injEq]
              exact beq_iff_eq (a := n) (b := m)
          | float x => exact iff_of_false nofun nofun
      | _ => simp [beq]
  | .array as, b, hfree => by
      cases b with
      | array bs => rw [beq, beqItems_iff as bs hfree, array.injEq]
      | _ => simp [beq]
  | .object as, b, hfree => by
      cases b with
      | object bs => rw [beq, beqMembers_iff as bs hfree, object.injEq]
      | _ => simp [beq]

theorem beqItems_iff : ∀ (as bs : List Json), FloatFreeItems as → (beqItems as bs = true ↔ as = bs)
  | [], [], _ => by simp [beqItems]
  | [], _ :: _, _ => by simp [beqItems]
  | _ :: _, [], _ => by simp [beqItems]
  | a :: as, b :: bs, ⟨ha, has⟩ => by
      rw [beqItems, Bool.and_eq_true, beq_iff a b ha, beqItems_iff as bs has, List.cons.injEq]

theorem beqMembers_iff : ∀ (as bs : List (String × Json)), FloatFreeMembers as →
    (beqMembers as bs = true ↔ as = bs)
  | [], [], _ => by simp [beqMembers]
  | [], _ :: _, _ => by simp [beqMembers]
  | _ :: _, [], _ => by simp [beqMembers]
  | (k, a) :: as, (l, b) :: bs, ⟨ha, has⟩ => by
      rw [beqMembers, Bool.and_eq_true, Bool.and_eq_true, beq_iff a b ha,
        beqMembers_iff as bs has, List.cons.injEq, Prod.mk.injEq]
      simp

end

end Json

theorem MarkerDecl.beq_iff {marker other : MarkerDecl} (hfree : marker.args.FloatFree) :
    (marker == other) = true ↔ marker = other := by
  obtain ⟨kind, args⟩ := marker
  obtain ⟨kind', args'⟩ := other
  show (kind == kind' && Json.beq args args') = true ↔ _
  rw [Bool.and_eq_true, beq_iff_eq, Json.beq_iff args args' hfree, MarkerDecl.mk.injEq]

theorem MarkerDecl.beq_list_iff {markers others : List MarkerDecl}
    (hfree : ∀ marker ∈ markers, marker.args.FloatFree) :
    (markers == others) = true ↔ markers = others := by
  induction markers generalizing others with
  | nil => cases others <;> simp
  | cons marker rest ih =>
      obtain ⟨hmarker, hrest⟩ := List.forall_mem_cons.1 hfree
      cases others with
      | nil => simp
      | cons other others =>
          rw [List.cons_beq_cons, Bool.and_eq_true, beq_iff hmarker, ih hrest, List.cons.injEq]

/-! ## Tables -/

namespace TypeTable

variable {table other : TypeTable}

theorem nodup_decls (table : TypeTable) : table.decls.Nodup := table.nodup.of_map TypeDecl.id

/-- Tables are compared as sets of declarations. -/
theorem sameTypes_iff_perm : table.sameTypes other = true ↔ table.decls.Perm other.decls := by
  rw [sameTypes, Bool.and_eq_true, decide_eq_true_iff, List.all_eq_true]
  simp only [decide_eq_true_iff, get?_eq_some_iff, and_true]
  constructor
  · rintro ⟨hsize, hmem⟩
    have hsub : table.decls.Subperm other.decls := List.subperm_of_subset table.nodup_decls hmem
    exact hsub.perm_of_length_le (Nat.le_of_eq hsize.symm)
  · intro hperm
    exact ⟨hperm.length_eq, fun decl hdecl => hperm.mem_iff.1 hdecl⟩

section Perm

variable (hperm : table.decls.Perm other.decls)
include hperm

theorem get?_of_perm (id : TypeId) : table.get? id = other.get? id := by
  refine Option.ext fun decl => ?_
  rw [get?_eq_some_iff, get?_eq_some_iff, hperm.mem_iff]

theorem bases_of_perm : table.bases.Perm other.bases := hperm.map _

/-- Of the order nothing is left open by the order of the identifiers. -/
theorem eq_of_perm (hids : table.decls.map TypeDecl.id = other.decls.map TypeDecl.id) :
    table = other := by
  have hfound (table : TypeTable) :
      (table.decls.map TypeDecl.id).map table.get? = table.decls.map some := by
    rw [List.map_map]
    refine List.map_congr_left fun decl hdecl => ?_
    exact get?_eq_some_iff.2 ⟨hdecl, rfl⟩
  refine eq_of_decls ?_
  have hsome : table.decls.map some = other.decls.map some := by
    rw [← hfound, ← hfound, hids, funext (get?_of_perm hperm)]
  exact List.map_injective_iff.2 (Option.some_injective _) hsome

end Perm

end TypeTable

/-! ## Programs -/

namespace Program

open Breaking (edit edit_eq marked matched pending fullName)

variable {program other : Program}

theorem beq_iff : (program == other) = true ↔
    program.name = other.name ∧ (program.markers == other.markers) = true ∧
      program.types.toList.Perm other.types.toList := by
  show (program.name == other.name && program.markers == other.markers &&
    program.types.sameTypes other.types) = true ↔ _
  rw [Bool.and_eq_true, Bool.and_eq_true, beq_iff_eq, TypeTable.sameTypes_iff_perm, and_assoc]
  rfl

section Equal

variable (hequal : (program == other) = true)
include hequal

theorem methods_of_beq : program.methods.Perm other.methods :=
  (beq_iff.1 hequal).2.2.flatMap_right _

/-- Edits of methods keep equality. -/
theorem mapMethods_of_beq (g : TypeId → Method → Method) :
    (program.mapMethods g == other.mapMethods g) = true := by
  obtain ⟨hname, hmarkers, hperm⟩ := beq_iff.1 hequal
  refine beq_iff.2 ⟨hname, hmarkers, ?_⟩
  show (program.mapMethods g).types.decls.Perm (other.mapMethods g).types.decls
  rw [decls_mapMethods, decls_mapMethods]
  exact hperm.map _

theorem matched_of_beq (tracked : List TypeId) :
    matched tracked program = matched tracked other :=
  (methods_of_beq hequal).countP_eq _

theorem pending_of_beq (tracked : List TypeId) :
    (pending tracked program).Perm (pending tracked other) :=
  (methods_of_beq hequal).filter _

theorem types_eq_of_beq (hids : program.types.toList.map TypeDecl.id =
    other.types.toList.map TypeDecl.id) : program.types = other.types :=
  TypeTable.eq_of_perm (beq_iff.1 hequal).2.2 hids

theorem eq_of_beq (hfree : ∀ marker ∈ program.markers, marker.args.FloatFree)
    (hids : program.types.toList.map TypeDecl.id = other.types.toList.map TypeDecl.id) :
    program = other := by
  have htypes := types_eq_of_beq hequal hids
  obtain ⟨hname, hmarkers, -⟩ := beq_iff.1 hequal
  rw [MarkerDecl.beq_list_iff hfree] at hmarkers
  obtain ⟨name, markers, types⟩ := program
  obtain ⟨name', markers', types'⟩ := other
  simp_all

end Equal

/-- Programs that can be read back are told apart by their texts. -/
theorem text_injective (hfree : ∀ marker ∈ program.markers, marker.args.FloatFree)
    (hfits : ∀ marker ∈ program.markers, marker.args.Canonical ∧ marker.args.depth ≤ 124)
    (hmarkers : other.markers = program.markers) :
    (program.toJson.compactText = other.toJson.compactText ↔ program = other) ∧
      (program.toJson.prettyText = other.toJson.prettyText ↔ program = other) := by
  obtain ⟨hcompact, hpretty⟩ := ofText_written hfits hfree
  rw [← hmarkers] at hfits hfree
  obtain ⟨hcompact', hpretty'⟩ := ofText_written hfits hfree
  refine ⟨⟨fun hsame => ?_, fun hsame => hsame ▸ rfl⟩, ⟨fun hsame => ?_, fun hsame => hsame ▸ rfl⟩⟩
  · rw [hsame, hcompact'] at hcompact
    exact (Except.ok.inj hcompact).symm
  · rw [hsame, hpretty'] at hpretty
    exact (Except.ok.inj hpretty).symm

/-! ## Main statement -/

/-- **Equality leaves the order of declaration open.**  Programs are equal when they have one
name, equal markers and the same declarations in any order.  Equal programs answer every
question about a type alike, have the same methods up to their order, and stay equal under the
edit for debugger breaks, which counts as many methods in both and names the same ones in
some order.  They are one program, and have one text, exactly when the identifiers of their
types stand in one order (as far as their markers carry no doubles). -/
theorem equal_up_to_order (program other : Program) :
    ((program == other) = true ↔
      program.name = other.name ∧ (program.markers == other.markers) = true ∧
        program.types.toList.Perm other.types.toList) ∧
    ((program == other) = true →
      (∀ id, program.types.get? id = other.types.get? id) ∧
      (∀ a b, program.types.isSubtypeOf a b = other.types.isSubtypeOf a b ∧
        program.types.isAttribute a = other.types.isAttribute a ∧
        program.types.contains a = other.types.contains a) ∧
      program.methods.Perm other.methods ∧
      (∀ tracked, ((edit tracked program).1 == (edit tracked other).1) = true ∧
        (edit tracked program).2.matched = (edit tracked other).2.matched ∧
        (edit tracked program).2.instrumented.Perm (edit tracked other).2.instrumented) ∧
      (program.types = other.types ↔
        program.types.toList.map TypeDecl.id = other.types.toList.map TypeDecl.id) ∧
      ((∀ marker ∈ program.markers, marker.args.FloatFree) →
        (program = other ↔
          program.types.toList.map TypeDecl.id = other.types.toList.map TypeDecl.id) ∧
        ((∀ marker ∈ program.markers, marker.args.Canonical ∧ marker.args.depth ≤ 124) →
          (program.toJson.compactText = other.toJson.compactText ↔
            program.types.toList.map TypeDecl.id = other.types.toList.map TypeDecl.id) ∧
          (program.toJson.prettyText = other.toJson.prettyText ↔
            program.types.toList.map TypeDecl.id = other.types.toList.map TypeDecl.id)))) := by
  refine ⟨beq_iff, fun hequal => ?_⟩
  have hperm : program.types.decls.Perm other.types.decls := (beq_iff.1 hequal).2.2
  have hbases := TypeTable.bases_of_perm hperm
  refine ⟨TypeTable.get?_of_perm hperm, fun a b => ⟨TypeTable.isSubtypeOf_of_bases hbases a b,
    TypeTable.isAttribute_of_bases hbases a, TypeTable.contains_of_bases hbases a⟩,
    methods_of_beq hequal, fun tracked => ?_, ⟨fun hsame => hsame ▸ rfl, types_eq_of_beq hequal⟩,
    fun hfree => ?_⟩
  · rw [edit_eq, edit_eq]
    exact ⟨mapMethods_of_beq hequal _, matched_of_beq hequal tracked,
      (pending_of_beq hequal tracked).map fullName⟩
  · have hone : program = other ↔
        program.types.toList.map TypeDecl.id = other.types.toList.map TypeDecl.id :=
      ⟨fun hsame => hsame ▸ rfl, eq_of_beq hequal hfree⟩
    have hmarkers : program.markers = other.markers :=
      (MarkerDecl.beq_list_iff hfree).1 (beq_iff.1 hequal).2.1
    refine ⟨hone, fun hfits => ?_⟩
    rw [← hone]
    exact text_injective hfree hfits hmarkers.symm

/-- A program with a method in each of two types. -/
def inOrder : Program where
  name := "Demo"
  types := .ofList [
    .ofAttribute ⟨"X"⟩,
    { id := ⟨"S"⟩, methods := [{ name := "Foo", attributes := [{ type := ⟨"X"⟩ }] }] },
    { id := ⟨"T"⟩, methods := [{ name := "Bar", attributes := [{ type := ⟨"X"⟩ }] }] }]

/-- The same program with its types declared the other way round. -/
def reordered : Program := { inOrder with types := .ofList inOrder.types.toList.reverse }

/-- Equal programs need not agree in anything that lists their types or methods. -/
theorem reordered_differ :
    (inOrder == reordered) = true ∧
      inOrder.types.toList ≠ reordered.types.toList ∧
      inOrder.methods ≠ reordered.methods ∧
      inOrder.listing ≠ reordered.listing ∧
      inOrder.toJson.compactText ≠ reordered.toJson.compactText ∧
      (edit [⟨"X"⟩] inOrder).2.diagnostic ≠ (edit [⟨"X"⟩] reordered).2.diagnostic := by
  refine ⟨by decide, by decide, by decide, by decide, by decide +kernel, by decide⟩

theorem order_left_open :
    (inOrder == reordered) = true ∧ (∀ marker ∈ inOrder.markers, marker.args.FloatFree) ∧
      (∀ id, inOrder.types.get? id = reordered.types.get? id) ∧
      inOrder.methods.Perm reordered.methods ∧
      inOrder ≠ reordered ∧ inOrder.toJson.prettyText ≠ reordered.toJson.prettyText := by
  have hequal : (inOrder == reordered) = true := by decide
  have hids : inOrder.types.toList.map TypeDecl.id ≠ reordered.types.toList.map TypeDecl.id := by
    decide
  obtain ⟨hget, -, hmethods, -, -, hone⟩ := (equal_up_to_order inOrder reordered).2 hequal
  obtain ⟨hprogram, htexts⟩ := hone (List.forall_mem_nil _)
  exact ⟨hequal, List.forall_mem_nil _, hget, hmethods, mt hprogram.1 hids,
    mt (htexts (List.forall_mem_nil _)).2.1 hids⟩

end Program

end EditPipeline
