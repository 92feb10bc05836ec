import EditPipeline.Keyed
import EditPipeline.Program.Basic

/-!
# The table of types

The types that a program declares, in the order of their first declaration and
each under its own identifier.  A second declaration of a type takes the place of
the first one.

A type is a subtype of another when following declared bases leads from the one
to the other.  `TypeTable.isSubtypeOf` walks along the bases for as many steps as
the table has types, and one more: a longer walk would come back to a type that
it has already seen.
-/

namespace EditPipeline

/-- The declared types, no identifier twice. -/
structure TypeTable where
  decls : List TypeDecl
  nodup : (decls.map TypeDecl.id).Nodup
deriving DecidableEq

namespace TypeTable

/-- No types. -/
def empty : TypeTable := ⟨[], .nil⟩

instance : EmptyCollection TypeTable := ⟨empty⟩
instance : Inhabited TypeTable := ⟨empty⟩

/-! ## Insertion -/

/-- The table with one more declaration. -/
def insert (decl : TypeDecl) (table : TypeTable) : TypeTable where
  decls := Keyed.put TypeDecl.id decl table.decls
  nodup := Keyed.nodup_put table.nodup

/-- The table of a list of declarations, inserted one after the other. -/
def ofList (decls : List TypeDecl) : TypeTable :=
  decls.foldl (fun table decl => table.insert decl) empty

/-- The declarations in the order of the table. -/
def toList (table : TypeTable) : List TypeDecl := table.decls

/-- How many types are declared. -/
def size (table : TypeTable) : Nat := table.decls.length

/-- Whether no type is declared. -/
def isEmpty (table : TypeTable) : Bool := table.decls.isEmpty

/-! ## Look-up -/

/-- The declaration of a type. -/
def get? (table : TypeTable) (id : TypeId) : Option TypeDecl :=
  table.decls.find? fun decl => decl.id = id

/-- Whether a type is declared. -/
def declares (table : TypeTable) (id : TypeId) : Bool := (table.get? id).isSome

/-- Whether a type is known: it is declared or it is the root of all marker
types. -/
def contains (table : TypeTable) (id : TypeId) : Bool :=
  id = .attributeRoot || table.declares id

/-- The declared base of a type. -/
def base? (table : TypeTable) (id : TypeId) : Option TypeId :=
  (table.get? id).bind TypeDecl.base

/-! ## Subtypes -/

/-- `Derives table a b`: following declared bases, any number of times, leads
from `a` to `b`. -/
inductive Derives (table : TypeTable) : TypeId → TypeId → Prop where
  | refl (a : TypeId) : Derives table a a
  | step {a b c : TypeId} : table.base? a = some b → Derives table b c → Derives table a c

/-- Whether a walk of at most `steps` bases leads from `id` to `target`. -/
def reaches (table : TypeTable) (target : TypeId) : Nat → TypeId → Bool
  | 0, id => id = target
  | steps + 1, id =>
    id = target ||
      match table.base? id with
      | some base => table.reaches target steps base
      | none => false

/-- Whether a type is another one or derives from it. -/
def isSubtypeOf (table : TypeTable) (id target : TypeId) : Bool :=
  table.reaches target (table.size + 1) id

/-- Whether a type is a marker type: the root of them, or a declared type that
derives from it. -/
def isAttribute (table : TypeTable) (id : TypeId) : Bool :=
  id = .attributeRoot || (table.declares id && table.isSubtypeOf id .attributeRoot)

/-! ## Editing -/

/-- The identifiers stay as they are when methods are edited. -/
theorem map_id_thread {σ : Type} (f : TypeId → Method → σ → Method × σ)
    (decls : List TypeDecl) (state : σ) :
    (thread (TypeDecl.threadMethods f) decls state).1.map TypeDecl.id =
      decls.map TypeDecl.id := by
  induction decls generalizing state with
  | nil => rfl
  | cons decl rest ih => simp [thread, ih]

/-- The table with `f` applied to every method, given the identifier of the type
that declares it; a state passes from each method to the next. -/
def threadMethods {σ : Type} (f : TypeId → Method → σ → Method × σ) (table : TypeTable)
    (state : σ) : TypeTable × σ :=
  (⟨(thread (TypeDecl.threadMethods f) table.decls state).1,
      map_id_thread f table.decls state ▸ table.nodup⟩,
    (thread (TypeDecl.threadMethods f) table.decls state).2)

/-- Whether two tables declare the same types, whatever their order. -/
def sameTypes (a b : TypeTable) : Bool :=
  a.size = b.size && a.decls.all fun decl => b.get? decl.id = some decl

end TypeTable

end EditPipeline
