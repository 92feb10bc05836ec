import Mathlib.Data.List.Nodup
import Mathlib.Data.List.Perm.Subperm
import Mathlib.Data.Nat.Find
import EditPipeline.Program.TypeTable

/-!
# The walk along declared bases

`isSubtypeOf` gives up after as many links as the table has types, and one more.  This file
shows that nothing is lost by that: whatever the bases are, cycles and undeclared ends
included, it finds exactly the types that are reached by any number of links.

A type has one declared base at most, so a walk is determined by where it starts.  Let `k`
be the least number of links that lead from `a` to `b`.  The `k` types that the walk leaves
are declared, since they have bases, and no two of them are the same: otherwise the links in
between could be left out.  So `k` is at most the size of the table
(`le_size_of_shortest`).
-/

namespace EditPipeline.TypeTable

variable {table : TypeTable} {a b : TypeId}

/-- The type that is reached from another one by so many links. -/
def ancestor? (table : TypeTable) : Nat → TypeId → Option TypeId
  | 0, id => some id
  | links + 1, id => (table.base? id).bind (table.ancestor? links)

theorem ancestor?_add (first more : Nat) (id : TypeId) :
    table.ancestor? (first + more) id =
      (table.ancestor? first id).bind (table.ancestor? more) := by
  induction first generalizing id with
  | zero => rw [Nat.zero_add, ancestor?, Option.bind_some]
  | succ first ih =>
      rw [Nat.succ_add, ancestor?, ancestor?, Option.bind_assoc]
      exact congrArg _ (funext ih)

/-- Following any number of links is following some number of them. -/
theorem derives_iff_ancestor : table.Derives a b ↔ ∃ links, table.ancestor? links a = some b := by
  constructor
  · intro hderives
    induction hderives with
    | refl => exact ⟨0, rfl⟩
    | step hbase hderives ih =>
        obtain ⟨links, hlinks⟩ := ih
        exact ⟨links + 1, by rw [ancestor?, hbase, Option.bind_some, hlinks]⟩
  · rintro ⟨links, hlinks⟩
    induction links generalizing a with
    | zero =>
        obtain rfl : a = b := Option.some.inj hlinks
        exact .refl a
    | succ links ih =>
        obtain ⟨base, hbase, hlinks⟩ := Option.bind_eq_some_iff.1 hlinks
        exact .step hbase (ih hlinks)

/-- The bounded walk finds what is reached within the bound. -/
theorem reaches_iff_ancestor {steps : Nat} :
    table.reaches b steps a = true ↔ ∃ links ≤ steps, table.ancestor? links a = some b := by
  induction steps generalizing a with
  | zero => simp [reaches, ancestor?]
  | succ steps ih =>
      have hstep : (∃ links ≤ steps + 1, table.ancestor? links a = some b) ↔
          a = b ∨ ∃ base, table.base? a = some base ∧
            ∃ links ≤ steps, table.ancestor? links base = some b := by
        constructor
        · rintro ⟨links, hle, hlinks⟩
          cases links with
          | zero => exact .inl (Option.some.inj hlinks)
          | succ links =>
              obtain ⟨base, hbase, hlinks⟩ := Option.bind_eq_some_iff.1 hlinks
              exact .inr ⟨base, hbase, links, Nat.le_of_succ_le_succ hle, hlinks⟩
        · rintro (rfl | ⟨base, hbase, links, hle, hlinks⟩)
          · exact ⟨0, Nat.zero_le _, rfl⟩
          · refine ⟨links + 1, Nat.succ_le_succ hle, ?_⟩
            rw [ancestor?, hbase, Option.bind_some, hlinks]
      rw [hstep, reaches, Bool.or_eq_true, decide_eq_true_iff]
      refine or_congr_right ?_
      cases table.base? a with
      | none => simp
      | some base => simp [ih]

/-! ## The shortest walk -/

theorem mem_ids_of_base {base : TypeId} (hbase : table.base? a = some base) :
    a ∈ table.decls.map TypeDecl.id := by
  obtain ⟨decl, hdecl, -⟩ := Option.bind_eq_some_iff.1 hbase
  have hid := List.find?_some (p := fun decl : TypeDecl => decide (decl.id = a)) hdecl
  exact List.mem_map.2 ⟨decl, List.mem_of_find?_eq_some hdecl, of_decide_eq_true hid⟩

/-- A type from which the walk goes on is declared. -/
theorem mem_ids_of_ancestor {links earlier : Nat} (hlinks : table.ancestor? links a = some b)
    (hearlier : earlier < links) :
    table.ancestor? earlier a ∈ (table.decls.map TypeDecl.id).map some := by
  obtain ⟨more, rfl⟩ := Nat.exists_eq_add_of_lt hearlier
  rw [Nat.add_assoc, ancestor?_add] at hlinks
  obtain ⟨passed, hpassed, hmore⟩ := Option.bind_eq_some_iff.1 hlinks
  obtain ⟨base, hbase, -⟩ := Option.bind_eq_some_iff.1 hmore
  rw [hpassed]
  exact List.mem_map_of_mem (mem_ids_of_base hbase)

/-- The shortest walk comes to no type twice before its end. -/
theorem ancestor_ne_of_shortest {links i j : Nat} (hlinks : table.ancestor? links a = some b)
    (hshortest : ∀ fewer < links, table.ancestor? fewer a ≠ some b) (hij : i < j)
    (hj : j < links) : table.ancestor? i a ≠ table.ancestor? j a := by
  intro hsame
  -- leave out the links from the first visit to the second one
  refine hshortest (i + (links - j)) (by omega) ?_
  calc table.ancestor? (i + (links - j)) a
      = (table.ancestor? i a).bind (table.ancestor? (links - j)) := ancestor?_add _ _ _
    _ = (table.ancestor? j a).bind (table.ancestor? (links - j)) := by rw [hsame]
    _ = table.ancestor? (j + (links - j)) a := (ancestor?_add _ _ _).symm
    _ = some b := by rw [Nat.add_sub_cancel' (Nat.le_of_lt hj), hlinks]

theorem le_size_of_shortest {links : Nat} (hlinks : table.ancestor? links a = some b)
    (hshortest : ∀ fewer < links, table.ancestor? fewer a ≠ some b) : links ≤ table.size := by
  let visited := (List.range links).map fun link => table.ancestor? link a
  have hnodup : visited.Nodup := by
    refine List.Nodup.map_on (fun i hi j hj hsame => ?_) List.nodup_range
    rw [List.mem_range] at hi hj
    rcases Nat.lt_trichotomy i j with hij | rfl | hji
    · exact absurd hsame (ancestor_ne_of_shortest hlinks hshortest hij hj)
    · rfl
    · exact absurd hsame.symm (ancestor_ne_of_shortest hlinks hshortest hji hi)
  have hdeclared : visited ⊆ (table.decls.map TypeDecl.id).map some := by
    intro type htype
    obtain ⟨link, hlink, rfl⟩ := List.mem_map.1 htype
    exact mem_ids_of_ancestor hlinks (List.mem_range.1 hlink)
  have hlength := (List.Nodup.subperm hnodup hdeclared).length_le
  simpa [visited, size] using hlength

/-- What is reached at all is reached within as many links as there are types. -/
theorem reaches_iff_derives {steps : Nat} (hsteps : table.size ≤ steps) :
    table.reaches b steps a = true ↔ table.Derives a b := by
  rw [reaches_iff_ancestor, derives_iff_ancestor]
  constructor
  · rintro ⟨links, -, hlinks⟩
    exact ⟨links, hlinks⟩
  · intro hreached
    have hshortest : ∀ fewer < Nat.find hreached, table.ancestor? fewer a ≠ some b :=
      fun fewer hfewer => Nat.find_min hreached hfewer
    have hle := le_size_of_shortest (Nat.find_spec hreached) hshortest
    exact ⟨Nat.find hreached, Nat.le_trans hle hsteps, Nat.find_spec hreached⟩

/-! ## Main statement -/

/-- **A type is a subtype of exactly the types that its declared bases lead to.**  The bound
on the walk cuts nothing off, a longer walk finds nothing more, and the marker types are the
root and the declared types from which it is reached. -/
theorem isSubtypeOf_iff_derives (table : TypeTable) (a b : TypeId) :
    (table.isSubtypeOf a b = true ↔ table.Derives a b) ∧
    (∀ steps, table.size ≤ steps → table.reaches b steps a = table.isSubtypeOf a b) ∧
    (table.isAttribute a = true ↔
      a = .attributeRoot ∨ table.declares a = true ∧ table.Derives a .attributeRoot) := by
  have hsubtype (target : TypeId) : table.isSubtypeOf a target = true ↔ table.Derives a target :=
    reaches_iff_derives (Nat.le_succ table.size)
  refine ⟨hsubtype b, ?_, ?_⟩
  · intro steps hsteps
    rw [Bool.eq_iff_iff, reaches_iff_derives hsteps, hsubtype b]
  · rw [isAttribute, Bool.or_eq_true, Bool.and_eq_true, hsubtype, decide_eq_true_iff]

end EditPipeline.TypeTable
