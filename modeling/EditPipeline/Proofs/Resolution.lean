import Mathlib.Data.List.Forall2
import EditPipeline.Host
import EditPipeline.Proofs.Program.Bases

/-!
# The markers of a program

A program is resolved declaration by declaration.  Resolving succeeds exactly when each
declaration on its own is accepted, and then gives one marker per declaration, in order
(`resolveAll_eq_ok_iff`).  The registry of the host holds one kind (`Host.resolveOne_eq`).

A factory sees a program only through the types that it declares and their bases, so a program
whose methods were edited has the markers of the program before (`resolve_mapMethods`).
-/

namespace EditPipeline

/-! ## Any registry -/

namespace Registry

variable {μ : Type} {registry : Registry μ} {types : TypeTable}

theorem resolveAll_eq_ok_iff {decls : List MarkerDecl} {markers : List μ} :
    registry.resolveAll types decls = .ok markers ↔
      List.Forall₂ (fun decl marker => registry.resolveOne decl types = .ok marker) decls
        markers := by
  induction decls generalizing markers with
  | nil =>
      rw [List.forall₂_nil_left_iff, resolveAll, Except.ok.injEq]
      exact eq_comm
  | cons decl rest ih =>
      rw [resolveAll, List.forall₂_cons_left_iff]
      cases hone : registry.resolveOne decl types with
      | error error => simp
      | ok first =>
          cases hrest : registry.resolveAll types rest with
          | error error => simp [← ih, hrest, Except.map]
          | ok more =>
              simp only [Except.map, Except.ok.injEq, ← ih, hrest]
              constructor
              · rintro rfl
                exact ⟨first, more, rfl, rfl, rfl⟩
              · rintro ⟨-, -, rfl, rfl, rfl⟩
                rfl

/-- Declarations are resolved alike with tables that every factory of the registry takes
alike. -/
theorem resolveAll_congr {others : TypeTable}
    (hone : ∀ decl, registry.resolveOne decl types = registry.resolveOne decl others)
    (decls : List MarkerDecl) :
    registry.resolveAll types decls = registry.resolveAll others decls := by
  induction decls with
  | nil => rfl
  | cons decl rest ih => rw [resolveAll, resolveAll, hone, ih]

end Registry

/-! ## Markers for debugger breaks -/

namespace BreakOn

theorem names?_eq_some {items : List Json} {types : List TypeId}
    (hnames : names? items = some types) : items = types.map fun type => .string type.name := by
  fun_induction names? items generalizing types with
  | case1 =>
      cases hnames
      rfl
  | case2 name rest ih =>
      obtain ⟨more, hmore, rfl⟩ := Option.map_eq_some_iff.1 hnames
      rw [List.map_cons, ← ih hmore]
  | case3 => cases hnames

/-- A declaration that asks for debugger breaks and names these types. -/
def Tracks (decl : MarkerDecl) (types : List TypeId) : Prop :=
  decl.kind = kind ∧
    decl.args.get? field = some (.array (types.map fun type => .string type.name))

section Same

variable {table other : TypeTable} (hbases : other.bases.Perm table.bases)
include hbases

theorem checkTypes_of_bases (index : Nat) (types : List TypeId) :
    checkTypes other index types = checkTypes table index types := by
  induction types generalizing index with
  | nil => rfl
  | cons type rest ih =>
      simp only [checkTypes, TypeTable.contains_of_bases hbases,
        TypeTable.isAttribute_of_bases hbases, ih]

theorem ofDecl_of_bases (decl : MarkerDecl) : ofDecl decl other = ofDecl decl table := by
  simp only [ofDecl, ofTypes, checkTypes_of_bases hbases]

end Same

end BreakOn

/-! ## The host -/

namespace Host

variable {σ : Type}

theorem resolveOne_eq (decl : MarkerDecl) (types : TypeTable) :
    (registry σ).resolveOne decl types =
      if decl.kind = BreakOn.kind then (BreakOn.ofDecl decl types).map BreakOn.toMarker
      else .error (.unknownKind decl.kind [BreakOn.kind]) := by
  unfold Registry.resolveOne Registry.find? registry BreakOn.register Registry.register
  simp only [Keyed.put]
  by_cases hkind : decl.kind = BreakOn.kind
  · simp [hkind]
  · simp [hkind, Ne.symm hkind, Registry.kinds]

/-- Editing methods changes nothing in the markers of a program. -/
theorem resolve_mapMethods (g : TypeId → Method → Method) (program : Program) :
    resolve σ (program.mapMethods g) = resolve σ program := by
  refine Registry.resolveAll_congr (fun decl => ?_) program.markers
  have hbases : (program.mapMethods g).types.bases = program.types.bases :=
    TypeTable.bases_threadMethods _ program.types ()
  rw [resolveOne_eq, resolveOne_eq, BreakOn.ofDecl_of_bases (.of_eq hbases)]

end Host

end EditPipeline
