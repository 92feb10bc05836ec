import EditPipeline.Breaking
import EditPipeline.Registry

/-!
# The marker that asks for debugger breaks

A `break-on` marker names the marker types that are tracked.  There is at least
one, and each is declared and is a marker type.
-/

namespace EditPipeline

/-- A request for debugger breaks in every method that is decorated with one of
the types. -/
structure BreakOn where
  types : List TypeId
deriving DecidableEq, Repr, Inhabited

namespace BreakOn

/-- The kind of the marker. -/
def kind : String := "break-on"

/-- The argument that names the types. -/
def field : String := "types"

/-- What the marker does, in words. -/
def description : String :=
  "break into the debugger when methods with the given marker types run"

/-- Checks the types from entry `index` on, up to the first one that is not
acceptable. -/
def checkTypes (table : TypeTable) : Nat → List TypeId → Except ValidationError Unit
  | _, [] => .ok ()
  | index, type :: rest =>
    if table.contains type then
      if table.isAttribute type then checkTypes table (index + 1) rest
      else .error (.notAMarkerType kind field index type)
    else .error (.unknownType kind field index type)

/-- The marker for a list of types. -/
def ofTypes (types : List TypeId) (table : TypeTable) : Except ValidationError BreakOn :=
  if types.isEmpty then .error (.empty kind "marker type")
  else (checkTypes table 0 types).map fun _ => ⟨types⟩

/-- The names in a list of values, if they all are strings. -/
def names? : List Json → Option (List TypeId)
  | [] => some []
  | .string name :: rest => (names? rest).map (⟨name⟩ :: ·)
  | _ :: _ => none

/-- The marker of a declaration, whose arguments list the names of the types. -/
def ofDecl : Factory BreakOn := fun decl table =>
  match decl.args.get? field with
  | none | some .null => .error (.missingPayload kind field)
  | some (.array items) =>
    match names? items with
    | some types => ofTypes types table
    | none => .error (.invalidPayload kind "'types' entries must be strings")
  | some _ => .error (.invalidPayload kind "'types' must be an array of type names")

/-- The marker as a run sees it: it gives one editor. -/
def toMarker {σ : Type} (marker : BreakOn) : Marker σ where
  kind := kind
  editors shared := (.ok [Breaking.editor marker.types], shared)

/-- Adds the kind to a registry. -/
def register {μ : Type} (make : BreakOn → μ) (registry : Registry μ) : Registry μ :=
  registry.register kind description fun decl table => (ofDecl decl table).map make

end BreakOn

end EditPipeline
