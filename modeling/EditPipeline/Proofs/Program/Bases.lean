import EditPipeline.Proofs.Keyed
import EditPipeline.Proofs.Program.Methods
import EditPipeline.Proofs.Program.Subtypes

/-!
# What the answers about types depend on

Whether a type is known, is a marker type or derives from another one is read off the
declared types and their bases, `TypeTable.bases`, and off nothing else.  Each of these
answers is *monotone*: a yes stays a yes in every table that has the same types with the same
bases and possibly more (`TypeTable.Extends`).  A walk that ended at an undeclared type may
go on in the larger table, but it passes the types that it passed before.

Two ways of editing a program come under this.  A type that is not declared yet extends the
table, and neither a declaration that keeps the base of the one it replaces nor an edit of
methods changes the bases at all.
-/

namespace EditPipeline.TypeTable

variable {table other : TypeTable} {id a b : TypeId} {decl : TypeDecl}

/-! ## Look-up -/

/-- A declaration is found under its own identifier, and nothing else is. -/
theorem get?_eq_some_iff : table.get? id = some decl ↔ decl ∈ table.decls ∧ decl.id = id :=
  Keyed.find?_eq_some_iff table.nodup

/-- The declared types, each with its base. -/
def bases (table : TypeTable) : List (TypeId × Option TypeId) :=
  table.decls.map fun decl => (decl.id, decl.base)

theorem mem_bases {base : Option TypeId} :
    (id, base) ∈ table.bases ↔ ∃ decl, table.get? id = some decl ∧ decl.base = base := by
  simp only [bases, List.mem_map, get?_eq_some_iff, Prod.mk.injEq, and_assoc]

theorem declares_iff : table.declares id = true ↔ ∃ base, (id, base) ∈ table.bases := by
  rw [declares, Option.isSome_iff_exists]
  constructor
  · rintro ⟨decl, hdecl⟩
    exact ⟨decl.base, mem_bases.2 ⟨decl, hdecl, rfl⟩⟩
  · rintro ⟨base, hbase⟩
    obtain ⟨decl, hdecl, -⟩ := mem_bases.1 hbase
    exact ⟨decl, hdecl⟩

theorem base?_eq_some_iff {base : TypeId} :
    table.base? id = some base ↔ (id, some base) ∈ table.bases := by
  rw [base?, Option.bind_eq_some_iff, mem_bases]

/-! ## The answers -/

/-- A type that methods may be tracked by: the root of all marker types, or a declared type
that derives from it. -/
def IsMarkerType (table : TypeTable) (type : TypeId) : Prop :=
  type = .attributeRoot ∨ table.declares type = true ∧ table.Derives type .attributeRoot

theorem isSubtypeOf_eq_true_iff : table.isSubtypeOf a b = true ↔ table.Derives a b :=
  reaches_iff_derives (Nat.le_succ table.size)

theorem isAttribute_eq_true_iff : table.isAttribute a = true ↔ table.IsMarkerType a := by
  rw [isAttribute, Bool.or_eq_true, Bool.and_eq_true, isSubtypeOf_eq_true_iff,
    decide_eq_true_iff, IsMarkerType]

theorem contains_eq_true_iff :
    table.contains a = true ↔ a = .attributeRoot ∨ table.declares a = true := by
  rw [contains, Bool.or_eq_true, decide_eq_true_iff]

/-! ## Larger tables -/

/-- Every type of the table is declared in the other one, with the same base or with none as
before. -/
def Extends (table other : TypeTable) : Prop := table.bases ⊆ other.bases

namespace Extends

variable (hextends : table.Extends other)
include hextends

theorem declares (hdeclares : table.declares a = true) : other.declares a = true := by
  obtain ⟨base, hbase⟩ := declares_iff.1 hdeclares
  exact declares_iff.2 ⟨base, hextends hbase⟩

theorem derives (hderives : table.Derives a b) : other.Derives a b := by
  induction hderives with
  | refl => exact .refl _
  | step hbase _ ih => exact .step (base?_eq_some_iff.2 (hextends (base?_eq_some_iff.1 hbase))) ih

theorem isMarkerType (hmarker : table.IsMarkerType a) : other.IsMarkerType a := by
  rcases hmarker with hroot | ⟨hdeclares, hderives⟩
  · exact .inl hroot
  · exact .inr ⟨hextends.declares hdeclares, hextends.derives hderives⟩

theorem isSubtypeOf (hsubtype : table.isSubtypeOf a b = true) : other.isSubtypeOf a b = true :=
  isSubtypeOf_eq_true_iff.2 (hextends.derives (isSubtypeOf_eq_true_iff.1 hsubtype))

theorem isAttribute (hattribute : table.isAttribute a = true) : other.isAttribute a = true :=
  isAttribute_eq_true_iff.2 (hextends.isMarkerType (isAttribute_eq_true_iff.1 hattribute))

theorem contains (hcontains : table.contains a = true) : other.contains a = true :=
  contains_eq_true_iff.2 ((contains_eq_true_iff.1 hcontains).imp_right hextends.declares)

end Extends

/-! ## The same bases -/

section Same

variable (hbases : other.bases.Perm table.bases)
include hbases

theorem extends_of_bases : table.Extends other ∧ other.Extends table :=
  ⟨hbases.symm.subset, hbases.subset⟩

theorem isSubtypeOf_of_bases (a b : TypeId) : other.isSubtypeOf a b = table.isSubtypeOf a b := by
  obtain ⟨hinto, hback⟩ := extends_of_bases hbases
  exact Bool.eq_iff_iff.2 ⟨hback.isSubtypeOf, hinto.isSubtypeOf⟩

theorem isAttribute_of_bases (a : TypeId) : other.isAttribute a = table.isAttribute a := by
  obtain ⟨hinto, hback⟩ := extends_of_bases hbases
  exact Bool.eq_iff_iff.2 ⟨hback.isAttribute, hinto.isAttribute⟩

theorem contains_of_bases (a : TypeId) : other.contains a = table.contains a := by
  obtain ⟨hinto, hback⟩ := extends_of_bases hbases
  exact Bool.eq_iff_iff.2 ⟨hback.contains, hinto.contains⟩

end Same

/-! ## Edits -/

theorem extends_insert (hfresh : table.declares decl.id = false) :
    table.Extends (table.insert decl) := by
  have hnew : decl.id ∉ table.decls.map TypeDecl.id := by
    intro hmem
    obtain ⟨old, hold, hid⟩ := List.mem_map.1 hmem
    have hget : table.get? decl.id = some old := get?_eq_some_iff.2 ⟨hold, hid⟩
    rw [declares, hget] at hfresh
    cases hfresh
  intro entry hentry
  rw [bases, show (table.insert decl).decls = _ from Keyed.put_append hnew, List.map_append]
  exact List.mem_append_left _ hentry

/-- A declaration in the place of one with the same base. -/
theorem bases_insert {old : TypeDecl} (hold : table.get? decl.id = some old)
    (hbase : old.base = decl.base) : (table.insert decl).bases = table.bases := by
  show (Keyed.put TypeDecl.id decl table.decls).map (fun decl => (decl.id, decl.base)) = _
  unfold get? at hold
  unfold bases
  generalize table.decls = decls at hold ⊢
  induction decls with
  | nil => cases hold
  | cons first rest ih =>
      rw [List.find?_cons] at hold
      rw [Keyed.put]
      by_cases hid : first.id = decl.id
      · obtain rfl : first = old := by simpa [hid] using hold
        simp [hid, hbase]
      · simp only [hid, decide_false] at hold
        simp [hid, ih hold]

theorem bases_threadMethods {ρ : Type} (f : TypeId → Method → ρ → Method × ρ)
    (table : TypeTable) (state : ρ) : (table.threadMethods f state).1.bases = table.bases := by
  show (thread (TypeDecl.threadMethods f) table.decls state).1.map _ = table.decls.map _
  generalize table.decls = decls
  induction decls generalizing state with
  | nil => rfl
  | cons decl rest ih =>
      rw [thread, List.map_cons, List.map_cons, ih]
      rfl

end EditPipeline.TypeTable
