import EditPipeline.Json.Printer
import EditPipeline.Json.Tree
import EditPipeline.Text.Alternatives
import EditPipeline.Text.Quoted

/-!
# Decoding JSON

Readers that turn a `Tree` into a value of a wanted kind.  Each walks through
the tree in the order of the text and reports the first problem that it meets.

A `Record` describes a structure of named fields.  It is written as an object,
where members may come in any order and unknown ones are skipped, or as an array
of the fields in the order of the description.
-/

namespace EditPipeline.Json

/-- A value of the wrong kind, as a message shows it. -/
inductive Found where
  | null
  | bool (b : Bool)
  | number (n : Number)
  | string (s : String)
  | sequence
  | map
  /-- The bare name of an alternative that needs content. -/
  | unitVariant

/-- What stands where another kind was wanted. -/
def Found.message : Found → String
  | .null => "null"
  | .bool b => "boolean `" ++ (if b then "true" else "false") ++ "`"
  | .number (.integer n) => "integer `" ++ String.ofList (intChars n) ++ "`"
  | .number (.float x) => "floating point `" ++ String.ofList (floatChars x) ++ "`"
  | .string s => "string " ++ Text.quoted s
  | .sequence => "sequence"
  | .map => "map"
  | .unitVariant => "unit variant"

/-- The kind of value that a reader wants. -/
inductive Expected where
  | string
  | sequence
  | unit
  | record (name : String)
  | variantName
  | variantContent

/-- The wanted kind in words. -/
def Expected.message : Expected → String
  | .string => "a string"
  | .sequence => "a sequence"
  | .unit => "unit"
  | .record name => "struct " ++ name
  | .variantName => "variant identifier"
  | .variantContent => "newtype variant"

/-- Why a text is not the wanted value. -/
inductive Problem where
  /-- It is not JSON. -/
  | fault (fault : Fault)
  | invalidType (found : Found) (expected : Expected)
  /-- A record of `fields` fields is written as an array of `length` items. -/
  | invalidLength (length : Nat) (record : String) (fields : Nat)
  | missingField (name : String)
  | duplicateField (name : String)
  | unknownVariant (name : String) (known : List String)

/-- The problem in words; nothing where the text is not JSON. -/
def Problem.message? : Problem → Option String
  | .fault _ => none
  | .invalidType found expected =>
      some ("invalid type: " ++ found.message ++ ", expected " ++ expected.message)
  | .invalidLength length record fields =>
      some ("invalid length " ++ toString length ++ ", expected struct " ++ record ++ " with "
        ++ toString fields ++ (if fields = 1 then " element" else " elements"))
  | .missingField name => some ("missing field `" ++ name ++ "`")
  | .duplicateField name => some ("duplicate field `" ++ name ++ "`")
  | .unknownVariant name known =>
      some ("unknown variant `" ++ name ++ "`, " ++ Text.alternatives known)

/-- The value of a literal for a reader that wants it. -/
def Lexeme.get {α : Type} (l : Lexeme α) : Except Problem α :=
  match l.value with
  | .ok a => .ok a
  | .error fault => .error (.fault fault)

/-- A fault, if there is one, as the answer of a reader. -/
def checkFault : Option Fault → Except Problem Unit
  | none => .ok ()
  | some fault => .error (.fault fault)

namespace Tree

/-- The problem of a node that is not of the wanted kind.  A literal must be
sound before it can be of the wrong kind. -/
def mismatch (expected : Expected) : Tree → Problem
  | .absent fault => .fault fault
  | .broken fault => .fault fault
  | .null => .invalidType .null expected
  | .bool b => .invalidType (.bool b) expected
  | .number n =>
    match n.value with
    | .ok n => .invalidType (.number n) expected
    | .error fault => .fault fault
  | .string s =>
    match s.value with
    | .ok s => .invalidType (.string s) expected
    | .error fault => .fault fault
  | .array .. => .invalidType .sequence expected
  | .object .. => .invalidType .map expected
  | .misnamed _ => .invalidType .map expected

/-- A string. -/
def toText : Tree → Except Problem String
  | .string s => s.get
  | node => .error (node.mismatch .string)

/-- A value or `null`. -/
def toOption {α : Type} (read : Tree → Except Problem α) : Tree → Except Problem (Option α)
  | .null => .ok none
  | node => (read node).map some

/-- `null`. -/
def toUnit : Tree → Except Problem Unit
  | .null => .ok ()
  | node => .error (node.mismatch .unit)

/-- A list of values. -/
def toList {α : Type} (read : Tree → Except Problem α) : Tree → Except Problem (List α)
  | .array items ending => do
    let values ← items.mapM read
    checkFault ending
    return values
  | node => .error (node.mismatch .sequence)

mutual

/-- Any value in which at most `levels` arrays and objects are open at once. -/
def toJson (levels : Nat) : Tree → Except Problem Json
  | .absent fault => .error (.fault fault)
  | .broken fault => .error (.fault fault)
  | .null => .ok .null
  | .bool b => .ok (.bool b)
  | .number n => n.get.map .number
  | .string s => s.get.map .string
  | .array items ending =>
    match levels with
    | 0 => .error (.fault .malformed)
    | levels + 1 => do
      let items ← toJsonItems levels items
      checkFault ending
      return .array items
  | .object members ending =>
    match levels with
    | 0 => .error (.fault .malformed)
    | levels + 1 => do
      let members ← toJsonMembers levels [] members
      checkFault ending
      return .object members
  | .misnamed _ => .error (.fault .malformed)

/-- Every item as a value. -/
def toJsonItems (levels : Nat) : List Tree → Except Problem (List Json)
  | [] => .ok []
  | item :: rest => do
    let value ← toJson levels item
    let values ← toJsonItems levels rest
    return value :: values

/-- Every member as a value, put in order of the names after those in `held`. -/
def toJsonMembers (levels : Nat) (held : List (String × Json)) :
    List (Lexeme String × Tree) → Except Problem (List (String × Json))
  | [] => .ok held
  | (name, node) :: rest => do
    let name ← name.get
    let value ← toJson levels node
    toJsonMembers levels (insertMember name value held) rest

end

/-! ## Alternatives -/

/-- A value written as its alternative's bare name, or as an object whose only
member is named for the alternative. `bare` reads the name alone; `content`
reads the member's value. -/
def toVariant {α : Type} (bare : String → Except Problem α)
    (content : String → Option (Tree → Except Problem α)) (known : List String) :
    Tree → Except Problem α
  | .absent fault => .error (.fault fault)
  | .string s => do
    let name ← s.get
    bare name
  | .object ((name, node) :: more) ending => do
    let name ← name.get
    match content name with
    | none => throw (.unknownVariant name known)
    | some read =>
      let value ← read node
      unless more.isEmpty do throw (.fault .malformed)
      checkFault ending
      return value
  | .object [] ending => .error (.fault (ending.getD .malformed))
  | .misnamed value => .error (value.mismatch .variantName)
  | _ => .error (.fault .malformed)

end Tree

/-! ## Records -/

/-- One field of a record that is collected in a draft of type `ρ`. -/
structure Field (ρ : Type) where
  name : String
  /-- The draft already has this field. -/
  filled : ρ → Bool
  /-- Reads the field's value into the draft. -/
  fill : Tree → ρ → Except Problem ρ

/-- A structure of named fields. -/
structure Record (ρ α : Type) where
  name : String
  fields : List (Field ρ)
  /-- A draft without any field. -/
  blank : ρ
  /-- The value of a draft, or the place and name of the first field that is
  missing and has no default. -/
  finish : ρ → Except (Nat × String) α

namespace Record

variable {ρ α : Type}

/-- Reads the members of an object into a draft.  Members of unknown names are
skipped. -/
def fillMembers (record : Record ρ α) :
    List (Lexeme String × Tree) → ρ → Except Problem ρ
  | [], draft => .ok draft
  | (name, node) :: rest, draft => do
    let name ← name.get
    match record.fields.find? (·.name = name) with
    | none =>
      checkFault node.fault?
      record.fillMembers rest draft
    | some field =>
      if field.filled draft then throw (.duplicateField name)
      let draft ← field.fill node draft
      record.fillMembers rest draft

/-- Reads items into the fields in their order, as long as there are both; gives
the draft and the items that no field is left for, or nothing if fields are
left. -/
def fillItems : List (Field ρ) → List Tree → ρ → Except Problem (ρ × Option (List Tree))
  | [], items, draft => .ok (draft, some items)
  | _ :: _, [], draft => .ok (draft, none)
  | field :: fields, item :: items, draft => do
    let draft ← field.fill item draft
    fillItems fields items draft

/-- Reads a record. -/
def read (record : Record ρ α) : Tree → Except Problem α
  | .object members ending => do
    let draft ← record.fillMembers members record.blank
    checkFault ending
    match record.finish draft with
    | .ok value => return value
    | .error (_, name) => throw (.missingField name)
  | .misnamed _ => .error (.fault .malformed)
  | .array items ending => do
    match ← fillItems record.fields items record.blank with
    | (draft, some more) =>
      match record.finish draft with
      | .ok value =>
        unless more.isEmpty do throw (.fault .malformed)
        checkFault ending
        return value
      | .error (place, _) => throw (.invalidLength place record.name record.fields.length)
    | (draft, none) =>
      checkFault ending
      match record.finish draft with
      | .ok value => return value
      | .error (place, _) => throw (.invalidLength place record.name record.fields.length)
  | node => .error (node.mismatch (.record record.name))

end Record

/-! ## Whole texts -/

/-- How many arrays and objects may be open at once in a text. -/
def maxLevels : Nat := 127

/-- Reads a whole text; only space may follow the value. -/
def decode {α : Type} (read : Tree → Except Problem α) (text : String) :
    Except Problem α := do
  let document := Document.ofText text
  let value ← read document.root
  if document.trailing then throw (.fault .malformed)
  return value

/-- Reads any value. -/
def ofText (text : String) : Except Problem Json := decode (Tree.toJson maxLevels) text

end EditPipeline.Json
