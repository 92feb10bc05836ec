import Mathlib.Logic.Relation
import EditPipeline.Proofs.Validation

/-!
# Validation is stable under later edits

Markers are validated once, against the program as it was read, and edits come later.  What
was validated stays valid: an edit that declares a new type or that edits methods takes no
type and no base away (`Grows.extends`), every yes of the table of types is kept by that, and
a declaration is accepted for what the table says yes to (`BreakOn.Accepts.of_extends`).  So a
program that has grown, by any number of such edits, is resolved to the same markers
(`Host.resolve_of_grows`).

A new type may well change a no: it can be the missing base at which a chain used to end, and
it can close a cycle.  Only the answers that are yes are safe.
-/

namespace EditPipeline

/-! ## Programs that grow -/

namespace Program

/-- One edit that only adds: a type that is not declared yet, or whatever becomes of the
methods one after the other. -/
inductive GrowsOnce : Program → Program → Prop where
  | addType {program : Program} (decl : TypeDecl)
      (hfresh : program.types.declares decl.id = false) :
      GrowsOnce program (program.withType decl)
  | editMethods {program : Program} {ρ : Type} (f : TypeId → Method → ρ → Method × ρ) (state : ρ) :
      GrowsOnce program (program.threadMethods f state).1

/-- Any number of edits that only add. -/
def Grows : Program → Program → Prop := Relation.ReflTransGen GrowsOnce

variable {program next grown : Program}

theorem GrowsOnce.markers (hgrows : GrowsOnce program next) : next.markers = program.markers := by
  cases hgrows with
  | addType decl hfresh => rfl
  | editMethods f state => rfl

theorem GrowsOnce.extends (hgrows : GrowsOnce program next) :
    program.types.Extends next.types := by
  cases hgrows with
  | addType decl hfresh => exact TypeTable.extends_insert hfresh
  | editMethods f state =>
      have hbases : (program.threadMethods f state).1.types.bases = program.types.bases :=
        TypeTable.bases_threadMethods f program.types state
      exact (TypeTable.extends_of_bases (.of_eq hbases)).1

end Program

/-! ## What was accepted -/

/-- What is accepted with a table is accepted with a larger one. -/
theorem BreakOn.Accepts.of_extends {table other : TypeTable} {decl : MarkerDecl}
    {types : List TypeId} (haccepts : Accepts table decl types) (hextends : table.Extends other) :
    Accepts other decl types where
  kind := haccepts.kind
  lists := haccepts.lists
  nonempty := haccepts.nonempty
  markers type htype := hextends.isMarkerType (haccepts.markers type htype)

namespace Host

variable {σ : Type} {program next grown : Program} {markers : List (Marker σ)}

/-- Declarations that are accepted go on being accepted, with the types that they list. -/
theorem accepts_of_grows {lists : List (List TypeId)} (hgrows : program.Grows grown)
    (haccepts : List.Forall₂ (BreakOn.Accepts program.types) program.markers lists) :
    List.Forall₂ (BreakOn.Accepts grown.types) grown.markers lists := by
  induction hgrows with
  | refl => exact haccepts
  | tail _ hlast ih =>
      rw [hlast.markers]
      exact ih.imp fun _ _ haccepted => haccepted.of_extends hlast.extends

/-- So the program is resolved to the same markers. -/
theorem resolve_of_grows (hgrows : program.Grows grown)
    (hresolved : resolve σ program = .ok markers) : resolve σ grown = .ok markers := by
  obtain ⟨lists, haccepts, hmarkers⟩ := resolve_eq_ok_iff.1 hresolved
  exact resolve_eq_ok_iff.2 ⟨lists, accepts_of_grows hgrows haccepts, hmarkers⟩

end Host

/-! ## Main statement -/

/-- **What was validated stays valid.**  A type that is not declared yet takes back no yes of
the table; a declaration with the base of the one it replaces changes no answer, and neither
does any edit of methods.  So a program that is resolved is resolved to the same markers
after any number of edits that add new types and edit methods, and these track the types that
they tracked before. -/
theorem validation_stable :
    (∀ (table : TypeTable) (decl : TypeDecl), table.declares decl.id = false → ∀ a b,
      (table.isSubtypeOf a b = true → (table.insert decl).isSubtypeOf a b = true) ∧
      (table.isAttribute a = true → (table.insert decl).isAttribute a = true) ∧
      (table.contains a = true → (table.insert decl).contains a = true)) ∧
    (∀ (table : TypeTable) (decl old : TypeDecl), table.get? decl.id = some old →
      old.base = decl.base → ∀ a b,
      (table.insert decl).isSubtypeOf a b = table.isSubtypeOf a b ∧
      (table.insert decl).isAttribute a = table.isAttribute a ∧
      (table.insert decl).contains a = table.contains a) ∧
    (∀ (table : TypeTable) (ρ : Type) (f : TypeId → Method → ρ → Method × ρ) (state : ρ) (a b),
      (table.threadMethods f state).1.isSubtypeOf a b = table.isSubtypeOf a b ∧
      (table.threadMethods f state).1.isAttribute a = table.isAttribute a ∧
      (table.threadMethods f state).1.contains a = table.contains a) ∧
    ∀ (σ : Type) (program grown : Program) (markers : List (Marker σ)),
      Host.resolve σ program = .ok markers → program.Grows grown →
      Host.resolve σ grown = .ok markers ∧
      ∃ lists, List.Forall₂ Marker.Tracks markers lists ∧
        List.Forall₂ (BreakOn.Accepts program.types) program.markers lists ∧
        List.Forall₂ (BreakOn.Accepts grown.types) grown.markers lists := by
  refine ⟨?_, ?_, ?_, ?_⟩
  · intro table decl hfresh a b
    have hextends := TypeTable.extends_insert hfresh
    exact ⟨hextends.isSubtypeOf, hextends.isAttribute, hextends.contains⟩
  · intro table decl old hold hbase a b
    have hbases := List.Perm.of_eq (TypeTable.bases_insert hold hbase)
    exact ⟨TypeTable.isSubtypeOf_of_bases hbases a b, TypeTable.isAttribute_of_bases hbases a,
      TypeTable.contains_of_bases hbases a⟩
  · intro table ρ f state a b
    have hbases := List.Perm.of_eq (TypeTable.bases_threadMethods f table state)
    exact ⟨TypeTable.isSubtypeOf_of_bases hbases a b, TypeTable.isAttribute_of_bases hbases a,
      TypeTable.contains_of_bases hbases a⟩
  · intro σ program grown markers hresolved hgrows
    obtain ⟨lists, haccepts, htracks, -⟩ := Host.tracks_of_resolve hresolved
    exact ⟨Host.resolve_of_grows hgrows hresolved, lists, htracks, haccepts,
      Host.accepts_of_grows hgrows haccepts⟩

/-- A program in which the chain of bases of `Y` ends at a type that is not declared. -/
def openChain : Program where
  name := "Demo"
  markers := [{ kind := "break-on", args := .object [("types", .array [.string "X"])] }]
  types := .ofList [
    .ofAttribute ⟨"X"⟩,
    { id := ⟨"Y"⟩, base := some ⟨"Z"⟩
      methods := [{ name := "Foo", attributes := [{ type := ⟨"X"⟩ }] }] }]

/-- The type that is missing, which closes a cycle. -/
def closing : TypeDecl := { id := ⟨"Z"⟩, base := some ⟨"Y"⟩ }

/-- The cycle is closed, a marker type is declared anew, and methods are instrumented; nothing
of it touches the marker. -/
theorem stable_of_closing :
    openChain.types.declares closing.id = false ∧
      (openChain.types.insert closing).isSubtypeOf ⟨"Y"⟩ ⟨"Z"⟩ = true ∧
      (openChain.types.insert (.ofAttribute ⟨"X"⟩)).isAttribute ⟨"Y"⟩ = false ∧
      ∃ (grown : Program) (markers : List (Marker Unit)),
        openChain.Grows grown ∧ grown.types.isSubtypeOf ⟨"Z"⟩ ⟨"Y"⟩ = true ∧
        Host.resolve Unit openChain = .ok markers ∧ Host.resolve Unit grown = .ok markers := by
  obtain ⟨hfresh, hsame, -, hresolve⟩ := validation_stable
  have hdeclares : openChain.types.declares closing.id = false := by decide
  have hinsert := hfresh openChain.types closing hdeclares ⟨"Y"⟩ ⟨"Z"⟩
  have hagain := hsame openChain.types (.ofAttribute ⟨"X"⟩) (.ofAttribute ⟨"X"⟩) (by decide) rfl
    ⟨"Y"⟩ ⟨"Z"⟩
  have hgrows : openChain.Grows
      ((openChain.withType closing).threadMethods (Breaking.visit [⟨"X"⟩]) {}).1 :=
    .tail (.single (.addType closing hdeclares)) (.editMethods _ _)
  obtain ⟨markers, hmarkers⟩ : ∃ markers, Host.resolve Unit openChain = .ok markers := ⟨_, rfl⟩
  refine ⟨hdeclares, hinsert.1 (by decide), ?_, _, markers, hgrows, by decide, hmarkers,
    (hresolve Unit _ _ markers hmarkers hgrows).1⟩
  rw [hagain.2.1]
  decide

end EditPipeline
