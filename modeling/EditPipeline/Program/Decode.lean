import EditPipeline.Json.Decode
import EditPipeline.Program

/-!
# Reading programs from JSON

Each structure is a `Record` whose fields are collected in a draft.  A field with
a default may be left out; `null` stands for the default only where the field is
optional in itself.
-/

namespace EditPipeline

open Json (Problem Tree Record Field)

/-! ## Attributes -/

/-- An attribute whose fields are still being read. -/
structure Attribute.Draft where
  type : Option String := none
  args : Option (List String) := none

/-- How an attribute is read. -/
def Attribute.record : Record Attribute.Draft Attribute where
  name := "Attribute"
  blank := {}
  fields := [
    { name := "type", filled := (·.type.isSome),
      fill := fun node draft => return { draft with type := some (← node.toText) } },
    { name := "args", filled := (·.args.isSome),
      fill := fun node draft => return { draft with args := some (← node.toList Tree.toText) } }]
  finish := fun draft =>
    match draft.type with
    | none => .error (0, "type")
    | some type => .ok { type := ⟨type⟩, args := draft.args.getD [] }

/-! ## Statements -/

/-- Reads the name of an intrinsic. -/
def Intrinsic.ofName (name : String) : Except Problem Intrinsic :=
  if name = "debugger_break" then .ok .debuggerBreak
  else .error (.unknownVariant name ["debugger_break"])

/-- Reads an intrinsic: its name, or an object that holds `null` under it. -/
def Intrinsic.read : Tree → Except Problem Intrinsic :=
  Tree.toVariant Intrinsic.ofName
    (fun name =>
      if name = "debugger_break" then some fun node => node.toUnit.map fun _ => .debuggerBreak
      else none)
    ["debugger_break"]

/-- The kinds of statement. -/
def Stmt.kinds : List String := ["expr", "return", "intrinsic"]

/-- Reads a statement.  Every kind has content, so a bare name is not enough. -/
def Stmt.read : Tree → Except Problem Stmt :=
  Tree.toVariant
    (fun name =>
      if name ∈ Stmt.kinds then .error (.invalidType .unitVariant .variantContent)
      else .error (.unknownVariant name Stmt.kinds))
    (fun name =>
      if name = "expr" then some fun node => node.toText.map .expr
      else if name = "return" then some fun node => (node.toOption Tree.toText).map .returns
      else if name = "intrinsic" then some fun node => (Intrinsic.read node).map .intrinsic
      else none)
    Stmt.kinds

/-! ## Methods -/

/-- A method whose fields are still being read. -/
structure Method.Draft where
  name : Option String := none
  attributes : Option (List Attribute) := none
  body : Option (List Stmt) := none
  tags : Option (List String) := none

/-- How a method is read. -/
def Method.record : Record Method.Draft Method where
  name := "Method"
  blank := {}
  fields := [
    { name := "name", filled := (·.name.isSome),
      fill := fun node draft => return { draft with name := some (← node.toText) } },
    { name := "attributes", filled := (·.attributes.isSome),
      fill := fun node draft =>
        return { draft with attributes := some (← node.toList Attribute.record.read) } },
    { name := "body", filled := (·.body.isSome),
      fill := fun node draft => return { draft with body := some (← node.toList Stmt.read) } },
    { name := "tags", filled := (·.tags.isSome),
      fill := fun node draft => return { draft with tags := some (← node.toList Tree.toText) } }]
  finish := fun draft =>
    match draft.name with
    | none => .error (0, "name")
    | some name => .ok {
        name
        attributes := draft.attributes.getD []
        body := draft.body.getD []
        tags := TagSet.ofList (draft.tags.getD []) }

/-! ## Types -/

/-- A type declaration whose fields are still being read. -/
structure TypeDecl.Draft where
  id : Option String := none
  base : Option (Option String) := none
  methods : Option (List Method) := none

/-- How a type declaration is read. -/
def TypeDecl.record : Record TypeDecl.Draft TypeDecl where
  name := "TypeDecl"
  blank := {}
  fields := [
    { name := "id", filled := (·.id.isSome),
      fill := fun node draft => return { draft with id := some (← node.toText) } },
    { name := "base", filled := (·.base.isSome),
      fill := fun node draft =>
        return { draft with base := some (← node.toOption Tree.toText) } },
    { name := "methods", filled := (·.methods.isSome),
      fill := fun node draft =>
        return { draft with methods := some (← node.toList Method.record.read) } }]
  finish := fun draft =>
    match draft.id with
    | none => .error (0, "id")
    | some id => .ok {
        id := ⟨id⟩
        base := (draft.base.getD none).map TypeId.mk
        methods := draft.methods.getD [] }

/-! ## Markers -/

/-- A marker whose fields are still being read. -/
structure MarkerDecl.Draft where
  kind : Option String := none
  args : Option Json := none

/-- How a marker is read whose arguments may open `levels` arrays and objects. -/
def MarkerDecl.record (levels : Nat) : Record MarkerDecl.Draft MarkerDecl where
  name := "MarkerDecl"
  blank := {}
  fields := [
    { name := "kind", filled := (·.kind.isSome),
      fill := fun node draft => return { draft with kind := some (← node.toText) } },
    { name := "args", filled := (·.args.isSome),
      fill := fun node draft => return { draft with args := some (← node.toJson levels) } }]
  finish := fun draft =>
    match draft.kind with
    | none => .error (0, "kind")
    | some kind => .ok { kind, args := draft.args.getD .null }

/-! ## Programs -/

/-- A program whose fields are still being read. -/
structure Program.Draft where
  name : Option String := none
  markers : Option (List MarkerDecl) := none
  types : Option (List TypeDecl) := none

/-- How a program is read.  The arguments of a marker stand inside the program,
the list of markers and the marker. -/
def Program.record : Record Program.Draft Program where
  name := "Program"
  blank := {}
  fields := [
    { name := "name", filled := (·.name.isSome),
      fill := fun node draft => return { draft with name := some (← node.toText) } },
    { name := "markers", filled := (·.markers.isSome),
      fill := fun node draft =>
        return { draft with
          markers := some (← node.toList (MarkerDecl.record (Json.maxLevels - 3)).read) } },
    { name := "types", filled := (·.types.isSome),
      fill := fun node draft =>
        return { draft with types := some (← node.toList TypeDecl.record.read) } }]
  finish := fun draft =>
    match draft.name with
    | none => .error (0, "name")
    | some name => .ok {
        name
        markers := draft.markers.getD []
        types := TypeTable.ofList (draft.types.getD []) }

/-- Reads a program from a JSON text. -/
def Program.ofText (text : String) : Except Problem Program :=
  Json.decode Program.record.read text

/-- Reads a type declaration from a JSON text. -/
def TypeDecl.ofText (text : String) : Except Problem TypeDecl :=
  Json.decode TypeDecl.record.read text

/-- Reads a statement from a JSON text. -/
def Stmt.ofText (text : String) : Except Problem Stmt := Json.decode Stmt.read text

end EditPipeline
