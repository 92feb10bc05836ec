import EditPipeline.Json.Printer
import EditPipeline.Program

/-!
# Listings

The listing of a program is a text for people: one line for the name, one for
each marker, and a paragraph for each type.  It depends on the contents of the
program and their order alone.
-/

namespace EditPipeline

/-- A line of a listing. -/
def line (text : String) : String := text ++ "\n"

/-- One step of indentation. -/
def indent : String := "    "

namespace MarkerDecl

/-- A marker, its arguments as JSON if it has any. -/
def listing (marker : MarkerDecl) : String :=
  match marker.args with
  | .null => "[assembly: " ++ marker.kind ++ "]"
  | args => "[assembly: " ++ marker.kind ++ "(" ++ args.compactText ++ ")]"

end MarkerDecl

namespace Attribute

/-- An attribute, its arguments in parentheses if it has any. -/
def listing (attr : Attribute) : String :=
  if attr.args.isEmpty then "[" ++ attr.type.name ++ "]"
  else "[" ++ attr.type.name ++ "(" ++ ", ".intercalate attr.args ++ ")]"

end Attribute

namespace Intrinsic

/-- The call behind an intrinsic. -/
def listing : Intrinsic → String
  | .debuggerBreak => "System.Diagnostics.Debugger.Break()"

end Intrinsic

namespace Stmt

/-- A statement with its semicolon. -/
def listing : Stmt → String
  | .expr text => text ++ ";"
  | .returns none => "return;"
  | .returns (some value) => "return " ++ value ++ ";"
  | .intrinsic call => call.listing ++ ";"

end Stmt

namespace Method

/-- The lines of a method: its tags, its attributes, its head, its body and its
closing brace. -/
def listing (method : Method) : String :=
  String.join (method.tags.toList.map fun tag => line (indent ++ "// @" ++ tag))
    ++ String.join (method.attributes.map fun attr => line (indent ++ attr.listing))
    ++ line (indent ++ "void " ++ method.name ++ "() \x7b")
    ++ String.join (method.body.map fun stmt => line (indent ++ indent ++ stmt.listing))
    ++ line (indent ++ "\x7d")

end Method

namespace TypeDecl

/-- The head of a type, without what follows it on the line. -/
def header (decl : TypeDecl) : String :=
  "class " ++ decl.id.name ++
    match decl.base with
    | some base => " : " ++ base.name
    | none => ""

/-- The paragraph of a type, with an empty line between two methods. -/
def listing (decl : TypeDecl) : String :=
  if decl.methods.isEmpty then line (decl.header ++ ";")
  else
    line (decl.header ++ " \x7b")
      ++ (line "").intercalate (decl.methods.map Method.listing)
      ++ line "\x7d"

end TypeDecl

namespace Program

/-- The listing of a program. -/
def listing (program : Program) : String :=
  line ("assembly " ++ program.name)
    ++ String.join (program.markers.map fun marker => line marker.listing)
    ++ String.join (program.types.toList.map fun decl => line "" ++ decl.listing)

end Program

end EditPipeline
