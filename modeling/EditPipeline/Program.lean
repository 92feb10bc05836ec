import EditPipeline.Program.TypeTable

/-!
# Programs

A program is never changed in place: an edit takes one snapshot and gives the
next one.
-/

namespace EditPipeline

/-- A snapshot of a compilation unit. -/
structure Program where
  /-- The name of the unit. -/
  name : String
  /-- The requests for edits, in the order of their declaration. -/
  markers : List MarkerDecl := []
  types : TypeTable := ∅
deriving Inhabited

/-- Equality of marker declarations, their arguments compared as values. -/
instance : BEq MarkerDecl := ⟨fun a b => a.kind == b.kind && a.args == b.args⟩

/-- Two programs are equal when they declare equal markers in one order and the
same types in any order. -/
instance : BEq Program :=
  ⟨fun a b => a.name == b.name && a.markers == b.markers && a.types.sameTypes b.types⟩

namespace Program

/-- The program with one more type declaration. -/
def withType (program : Program) (decl : TypeDecl) : Program :=
  { program with types := program.types.insert decl }

/-- The program with one more marker. -/
def withMarker (program : Program) (marker : MarkerDecl) : Program :=
  { program with markers := program.markers ++ [marker] }

/-- Every method with the type that declares it, in the order of declaration. -/
def methods (program : Program) : List (TypeId × Method) :=
  program.types.toList.flatMap fun decl => decl.methods.map fun method => (decl.id, method)

/-- The first method of a type that has the given name. -/
def method? (program : Program) (owner : TypeId) (name : String) : Option Method :=
  (program.types.get? owner).bind fun decl => decl.methods.find? fun method => method.name = name

/-- The next snapshot, with `f` applied to every method; a state passes from each
method to the next. -/
def threadMethods {σ : Type} (f : TypeId → Method → σ → Method × σ) (program : Program)
    (state : σ) : Program × σ :=
  let (types, state) := program.types.threadMethods f state
  ({ program with types }, state)

/-- The next snapshot, with `f` applied to every method. -/
def mapMethods (f : TypeId → Method → Method) (program : Program) : Program :=
  (program.threadMethods (fun owner method _ => (f owner method, ())) ()).1

end Program

end EditPipeline
