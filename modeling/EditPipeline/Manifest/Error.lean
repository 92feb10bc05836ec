import EditPipeline.Files.FileSystem
import EditPipeline.Text.Span
import EditPipeline.Toml.Decode

/-!
# Errors of manifests

Why there is no manifest to work with, with the words for it and the places in the
text that the words are about.
-/

namespace EditPipeline

/-- Why a text cannot be a project's name. -/
inductive NameFault where
  | empty
  | badStart
  | badCharacter
deriving DecidableEq, Repr, Inhabited

/-- The fault in words. -/
def NameFault.reason : NameFault → String
  | .empty => "name cannot be empty"
  | .badStart => "name must start with a letter"
  | .badCharacter => "name contains invalid characters"

/-- A rule that a manifest breaks. -/
inductive ManifestFault where
  /-- The value of a key that must not be empty is. -/
  | emptyPath (table key : String)
  /-- The edited program would take the place of the program. -/
  | overwritesInput
deriving DecidableEq, Repr, Inhabited

/-- The fault in words. -/
def ManifestFault.message : ManifestFault → String
  | .emptyPath table key => "'" ++ table ++ "." ++ key ++ "' must not be empty"
  | .overwritesInput => "output program would overwrite the input program"

/-- Why there is no manifest. -/
inductive ManifestError where
  /-- The file cannot be read. -/
  | unreadable (path : Path) (fault : FileFault)
  /-- The text is not TOML. -/
  | notToml (filename : String)
  /-- The text is TOML, but not that of a manifest. -/
  | misshapen (filename : String) (error : Toml.ShapeError)
  /-- The manifest breaks a rule, on the line at `place`. -/
  | invalid (filename : String) (fault : ManifestFault) (place : Option Span)
  /-- The project cannot have this name, which stands on the line at `place`. -/
  | invalidName (filename : String) (name : String) (fault : NameFault) (place : Option Span)

/-- A remark about a place in a text. -/
structure Label where
  text : String
  place : Span
deriving DecidableEq, Repr, Inhabited

namespace ManifestError

/-- The error in words. -/
def message : ManifestError → String
  | .unreadable path _ => "failed to read '" ++ path.text ++ "'"
  | .notToml _ => "failed to parse comet.toml"
  | .misshapen .. => "failed to parse comet.toml"
  | .invalid _ fault _ => fault.message
  | .invalidName _ name _ _ => "invalid project name '" ++ name ++ "'"

/-- A name for the kind of error that does not change. -/
def code? : ManifestError → Option String
  | .unreadable .. => none
  | .notToml _ => some "comet::parse_error"
  | .misshapen .. => some "comet::parse_error"
  | .invalid .. => some "comet::validation_error"
  | .invalidName .. => some "comet::invalid_name"

/-- What to do about the error. -/
def help? : ManifestError → Option String
  | .unreadable .. => some "create a comet.toml with a [project] section"
  | .invalidName _ _ fault _ =>
      some (fault.reason
        ++ ". Use letters, numbers, '_', '-' and '.', starting with a letter.")
  | _ => none

/-- The places that the error is about, each with a remark. -/
def labels : ManifestError → List Label
  | .misshapen _ error => [⟨"parse error here", error.place⟩]
  | .invalid _ fault place => place.toList.map fun place => ⟨fault.message, place⟩
  | .invalidName _ _ _ place => place.toList.map fun place => ⟨"invalid name", place⟩
  | _ => []

end ManifestError

end EditPipeline
