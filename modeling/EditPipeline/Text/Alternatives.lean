/-!
# Alternatives in messages

How a message lists the names that would have been right.
-/

namespace EditPipeline.Text

/-- A name as a message shows it. -/
def named (name : String) : String := "`" ++ name ++ "`"

/-- What was expected: one name, either of two, or one of several ones. -/
def alternatives : List String → String
  | [] => "expected nothing"
  | [only] => "expected " ++ named only
  | [first, second] => "expected " ++ named first ++ " or " ++ named second
  | many => "expected one of " ++ ", ".intercalate (many.map named)

end EditPipeline.Text
