import EditPipeline.Keyed
import EditPipeline.Program
import EditPipeline.Registry.Error

/-!
# The registry of marker kinds

The registry knows, for each kind of marker, a description and a factory: the
function that validates a declaration and makes the marker.  A second
registration of a kind takes the place of the first one in the listing.

The factories may give markers of any type `μ`.
-/

namespace EditPipeline

/-- Validates a declaration against the types of its program. -/
abbrev Factory (μ : Type) := MarkerDecl → TypeTable → Except ValidationError μ

/-- What is registered for one kind. -/
structure Registration (μ : Type) where
  kind : String
  description : String
  factory : Factory μ

/-- The registered kinds, in the order of their first registration. -/
structure Registry (μ : Type) where
  entries : List (Registration μ) := []

namespace Registry

variable {μ : Type}

/-- Registers a kind. -/
def register (kind description : String) (factory : Factory μ) (registry : Registry μ) :
    Registry μ :=
  ⟨Keyed.put Registration.kind ⟨kind, description, factory⟩ registry.entries⟩

/-- What is registered for a kind. -/
def find? (registry : Registry μ) (kind : String) : Option (Registration μ) :=
  registry.entries.find? fun entry => entry.kind = kind

/-- Whether a kind is registered. -/
def contains (registry : Registry μ) (kind : String) : Bool := (registry.find? kind).isSome

/-- The kinds and their descriptions, in the order of the listing. -/
def kinds (registry : Registry μ) : List (String × String) :=
  registry.entries.map fun entry => (entry.kind, entry.description)

/-- Makes the marker of one declaration. -/
def resolveOne (registry : Registry μ) (decl : MarkerDecl) (types : TypeTable) :
    Except ValidationError μ :=
  match registry.find? decl.kind with
  | none => .error (.unknownKind decl.kind (registry.kinds.map Prod.fst))
  | some entry => entry.factory decl types

/-- Makes the markers of declarations, up to the first one that is refused. -/
def resolveAll (registry : Registry μ) (types : TypeTable) :
    List MarkerDecl → Except ValidationError (List μ)
  | [] => .ok []
  | decl :: rest =>
    match registry.resolveOne decl types with
    | .error error => .error error
    | .ok marker => (registry.resolveAll types rest).map (marker :: ·)

/-- Makes the markers that a program declares. -/
def resolve (registry : Registry μ) (program : Program) : Except ValidationError (List μ) :=
  registry.resolveAll program.types program.markers

end Registry

end EditPipeline
