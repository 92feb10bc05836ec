import EditPipeline.Program.Basic

/-!
# Why a marker is not valid
-/

namespace EditPipeline

/-- Why a marker declaration is refused. -/
inductive ValidationError where
  /-- No kind of this name is registered. -/
  | unknownKind (kind : String) (known : List String)
  /-- A required argument is absent. -/
  | missingPayload (kind field : String)
  /-- The arguments have the wrong form. -/
  | invalidPayload (kind detail : String)
  /-- A list names nothing. -/
  | empty (kind field : String)
  /-- Entry `index` of a list names a type that is not declared. -/
  | unknownType (kind field : String) (index : Nat) (type : TypeId)
  /-- Entry `index` of a list names a type that is no marker type. -/
  | notAMarkerType (kind field : String) (index : Nat) (type : TypeId)
deriving DecidableEq, Repr, Inhabited

namespace ValidationError

/-- The registered kinds on one line. -/
def knownText (known : List String) : String := ", ".intercalate known

/-- An entry of a list in words. -/
def entry (field : String) (index : Nat) : String := field ++ "[" ++ toString index ++ "]"

/-- The error in words. -/
def message : ValidationError → String
  | .unknownKind kind _ => "unknown marker kind '" ++ kind ++ "'"
  | .missingPayload kind field =>
      "'" ++ kind ++ "' marker is missing required argument '" ++ field ++ "'"
  | .invalidPayload kind detail => "'" ++ kind ++ "' marker has an invalid payload: " ++ detail
  | .empty kind field => "'" ++ kind ++ "' marker requires at least one " ++ field
  | .unknownType kind field index type =>
      "'" ++ kind ++ "' marker: " ++ entry field index ++ " names unknown type '"
        ++ type.name ++ "'"
  | .notAMarkerType kind field index type =>
      "'" ++ kind ++ "' marker: " ++ entry field index ++ " expected a marker type, found '"
        ++ type.name ++ "'"

/-- The code by which a host knows the error. -/
def code : ValidationError → String
  | .unknownKind .. => "comet::unknown_marker"
  | .missingPayload .. => "comet::missing_argument"
  | .invalidPayload .. => "comet::invalid_payload"
  | .empty .. => "comet::empty_payload"
  | .unknownType .. => "comet::unknown_type"
  | .notAMarkerType .. => "comet::not_a_marker_type"

/-- Advice on how to mend the declaration. -/
def help? : ValidationError → Option String
  | .unknownKind _ known => some ("registered marker kinds: " ++ knownText known)
  | .unknownType .. =>
      some "type identifiers must be fully qualified and declared in the compilation"
  | .notAMarkerType _ _ _ type =>
      some ("'" ++ type.name ++ "' must be System.Attribute or derive from it")
  | _ => none

end ValidationError

end EditPipeline
