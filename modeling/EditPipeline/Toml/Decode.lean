import EditPipeline.Decimal.Shortest
import EditPipeline.Text.Alternatives
import EditPipeline.Text.Quoted
import EditPipeline.Toml.Document

/-!
# Decoding TOML

Readers that turn a value into one of a wanted shape.  Each problem is reported at
the place where the document has to be changed.

A `Record` describes a table with fixed keys.  Its keys are visited in the order of
their bytes, whatever their order in the document, and a key that it does not know
is a problem.  It may also be an array that lists the fields in order.
-/

namespace EditPipeline.Toml

/-- The wanted shape of a value. -/
inductive Expected where
  | string
  | path
  | boolean
  | record (name : String)

/-- The wanted shape in words. -/
def Expected.message : Expected → String
  | .string => "a string"
  | .path => "path string"
  | .boolean => "a boolean"
  | .record name => "struct " ++ name

/-- Why a value does not have the wanted shape. -/
inductive Problem where
  | invalidType (found : Value) (expected : Expected)
  | unknownField (name : String) (known : List String)
  | missingField (name : String)
  /-- A record of `fields` fields is an array of only `length` items. -/
  | invalidLength (length : Nat) (record : String) (fields : Nat)

/-- A problem with its place. -/
structure ShapeError where
  problem : Problem
  place : Span

/-! ## Messages -/

/-- A float written out without an exponent. -/
def floatText (x : Float) : String :=
  if x.isNaN then "NaN"
  else
    let magnitude := Decimal.Binary.ofFloat x
    let written :=
      if x.isInf then ['i', 'n', 'f']
      else if magnitude.mantissa = 0 then ['0', '.', '0']
      else
        let shortest := magnitude.shortest
        Decimal.positional (Decimal.digitsOf shortest.digits) shortest.exponent
    String.ofList (if x.toBits.toNat < Word.signed64 then written else '-' :: written)

/-- What stands where another shape was wanted. -/
def Value.found : Value → String
  | .string s => "string " ++ Text.quoted s
  | .integer n => "integer `" ++ toString n ++ "`"
  | .float x => "floating point `" ++ floatText x ++ "`"
  | .boolean b => "boolean `" ++ (if b then "true" else "false") ++ "`"
  | .datetime => "map"
  | .array .. => "sequence"
  | .table .. => "map"

/-- The problem in words. -/
def Problem.message : Problem → String
  | .invalidType found expected =>
      "invalid type: " ++ found.found ++ ", expected " ++ expected.message
  | .unknownField name known => "unknown field `" ++ name ++ "`, " ++ Text.alternatives known
  | .missingField name => "missing field `" ++ name ++ "`"
  | .invalidLength length record fields =>
      "invalid length " ++ toString length ++ ", expected struct " ++ record ++ " with "
        ++ toString fields ++ (if fields = 1 then " element" else " elements")

/-! ## Single values -/

/-- A value with its place. -/
abbrev Placed := Span × Value

/-- The error of a value that does not have the wanted shape. -/
def mismatch (expected : Expected) (value : Placed) : ShapeError :=
  ⟨.invalidType value.2 expected, value.1⟩

/-- A string, called what it is `expected` to be. -/
def toText (expected : Expected) : Placed → Except ShapeError String
  | (_, .string s) => .ok s
  | value => .error (mismatch expected value)

/-- A boolean. -/
def toBool : Placed → Except ShapeError Bool
  | (_, .boolean b) => .ok b
  | value => .error (mismatch .boolean value)

/-! ## Records -/

/-- One field of a record that is collected in a draft of type `ρ`. -/
structure Field (ρ : Type) where
  name : String
  /-- An array may end before this field. -/
  droppable : Bool
  /-- Reads the field's value into the draft. -/
  fill : Placed → ρ → Except ShapeError ρ

/-- A table with fixed keys. -/
structure Record (ρ α : Type) where
  name : String
  fields : List (Field ρ)
  /-- A draft without any field. -/
  blank : ρ
  /-- The value of a draft, or the name of the first field that is missing and has
  no default. -/
  finish : ρ → Except String α

namespace Record

variable {ρ α : Type}

/-- The key under which a date or time shows where a table is wanted. -/
def datetimeKey : String := "$__toml_private_datetime"

/-- The error of a key that the record does not know. -/
def unknown (record : Record ρ α) (name : String) (place : Span) : ShapeError :=
  ⟨.unknownField name (record.fields.map (·.name)), place⟩

/-- Reads entries into a draft in the given order. -/
def fillEntries (record : Record ρ α) : Entries → ρ → Except ShapeError ρ
  | [], draft => .ok draft
  | (key, value) :: rest, draft =>
    match record.fields.find? (·.name = key.name) with
    | none => .error (record.unknown key.name key.span)
    | some field => do
      let draft ← field.fill value draft
      record.fillEntries rest draft

/-- Entries in the order of their names' bytes, which is that of their code
points. -/
def inOrder (entries : Entries) : Entries := entries.mergeSort (fun a b => a.1.name ≤ b.1.name)

/-- Reads the entries of a table that is written at a place. -/
def readEntries (record : Record ρ α) (place : Span) (entries : Entries) :
    Except ShapeError α := do
  let draft ← record.fillEntries (inOrder entries) record.blank
  match record.finish draft with
  | .ok value => return value
  | .error name => throw ⟨.missingField name, place⟩

/-- Reads items into the fields in their order; more items than fields do not
count. `index` fields have been read. -/
def fillItems (record : Record ρ α) (place : Span) :
    Nat → List (Field ρ) → List Placed → ρ → Except ShapeError ρ
  | _, [], _, draft => .ok draft
  | index, field :: fields, [], draft =>
    if field.droppable then record.fillItems place (index + 1) fields [] draft
    else .error ⟨.invalidLength index record.name record.fields.length, place⟩
  | index, field :: fields, item :: items, draft => do
    let draft ← field.fill item draft
    record.fillItems place (index + 1) fields items draft

/-- Reads a record. -/
def read (record : Record ρ α) : Placed → Except ShapeError α
  | (place, .table _ entries) => record.readEntries place entries
  | (place, .datetime) => .error (record.unknown datetimeKey place)
  | (place, .array _ items) => do
    let draft ← record.fillItems place 0 record.fields items record.blank
    match record.finish draft with
    | .ok value => return value
    | .error name => throw ⟨.missingField name, place⟩
  | value => .error (mismatch (.record record.name) value)

end Record

end EditPipeline.Toml
