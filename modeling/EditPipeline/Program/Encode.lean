import EditPipeline.Json.Printer
import EditPipeline.Program

/-!
# Programs as JSON

The JSON form of a program lists the members of each structure in the order of
its fields.  Empty lists and absent bases are left out, but the types of a
program, the body of a method and the arguments of a marker are always written.
-/

namespace EditPipeline

/-- A list of values under a name; nothing if the list is empty. -/
def optionalMember {α : Type} (name : String) (encode : α → Json) (values : List α) :
    List (String × Json) :=
  if values.isEmpty then [] else [(name, .array (values.map encode))]

namespace Attribute

/-- An attribute as JSON. -/
def toJson (attr : Attribute) : Json :=
  .object (("type", .string attr.type.name) :: optionalMember "args" .string attr.args)

end Attribute

namespace Intrinsic

/-- The name of an intrinsic in a JSON text. -/
def tag : Intrinsic → String
  | .debuggerBreak => "debugger_break"

end Intrinsic

namespace Stmt

/-- A statement as JSON: an object with one member, named for the kind. -/
def toJson : Stmt → Json
  | .expr text => .object [("expr", .string text)]
  | .returns none => .object [("return", .null)]
  | .returns (some value) => .object [("return", .string value)]
  | .intrinsic call => .object [("intrinsic", .string call.tag)]

end Stmt

namespace Method

/-- A method as JSON. -/
def toJson (method : Method) : Json :=
  .object (
    ("name", .string method.name)
      :: optionalMember "attributes" Attribute.toJson method.attributes
      ++ ("body", .array (method.body.map Stmt.toJson))
      :: optionalMember "tags" .string method.tags.toList)

end Method

namespace TypeDecl

/-- A type declaration as JSON. -/
def toJson (decl : TypeDecl) : Json :=
  .object (
    ("id", .string decl.id.name)
      :: (match decl.base with
        | some base => [("base", .string base.name)]
        | none => [])
      ++ optionalMember "methods" Method.toJson decl.methods)

end TypeDecl

namespace MarkerDecl

/-- A marker as JSON. -/
def toJson (marker : MarkerDecl) : Json :=
  .object [("kind", .string marker.kind), ("args", marker.args)]

end MarkerDecl

namespace Program

/-- A program as JSON. -/
def toJson (program : Program) : Json :=
  .object (
    ("name", .string program.name)
      :: optionalMember "markers" MarkerDecl.toJson program.markers
      ++ [("types", .array (program.types.toList.map TypeDecl.toJson))])

end Program

end EditPipeline
