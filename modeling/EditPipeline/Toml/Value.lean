import EditPipeline.Text.Span

/-!
# TOML values

A document is a table of values, each with the place where it is written.  A table
remembers how it came to be, because that decides whether something may be added
to it later.
-/

namespace EditPipeline.Toml

/-- A part of a key, with its place; the quotes belong to the place. -/
structure Key where
  name : String
  span : Span
deriving DecidableEq, Repr, Inhabited

/-- How a table came to be. -/
inductive TableKind where
  /-- Only headers of tables inside it name it. -/
  | implicit
  /-- A dotted key made it. -/
  | dotted
  /-- It has a header of its own. -/
  | header
  /-- It is written between braces. -/
  | inline
deriving DecidableEq, Repr

/-- A value. -/
inductive Value where
  | string (s : String)
  | integer (n : Int)
  | float (x : Float)
  | boolean (b : Bool)
  | datetime
  /-- An array; one whose elements have headers of their own may grow. -/
  | array (ofTables : Bool) (items : List (Span × Value))
  | table (kind : TableKind) (entries : List (Key × Span × Value))
deriving Inhabited

/-- The entries of a table. -/
abbrev Entries := List (Key × Span × Value)

/-! ## Equality -/

namespace Value

mutual

/-- Whether two values are the same, places included. -/
def same : Value → Value → Bool
  | .string s, .string t => s = t
  | .integer m, .integer n => m = n
  | .float x, .float y => x = y
  | .boolean b, .boolean c => b = c
  | .datetime, .datetime => true
  | .array ofTables items, .array others more => ofTables = others && sameItems items more
  | .table kind entries, .table other more => kind = other && sameEntries entries more
  | _, _ => false

/-- Whether two arrays have the same elements. -/
def sameItems : List (Span × Value) → List (Span × Value) → Bool
  | [], [] => true
  | (span, value) :: rest, (place, other) :: more =>
    span = place && value.same other && sameItems rest more
  | _, _ => false

/-- Whether two tables have the same entries. -/
def sameEntries : Entries → Entries → Bool
  | [], [] => true
  | (key, span, value) :: rest, (name, place, other) :: more =>
    key = name && span = place && value.same other && sameEntries rest more
  | _, _ => false

end

mutual

theorem same_iff : ∀ {value other : Value}, value.same other = true ↔ value = other
  | .string _, other => by cases other <;> simp [same]
  | .integer _, other => by cases other <;> simp [same]
  | .float _, other => by cases other <;> simp [same]
  | .boolean _, other => by cases other <;> simp [same]
  | .datetime, other => by cases other <;> simp [same]
  | .array _ items, other => by cases other <;> simp [same, sameItems_iff]
  | .table _ entries, other => by cases other <;> simp [same, sameEntries_iff]

theorem sameItems_iff : ∀ {items others : List (Span × Value)},
    sameItems items others = true ↔ items = others
  | [], others => by cases others <;> simp [sameItems]
  | (_, value) :: rest, others => by
    cases others <;> simp [sameItems, same_iff, sameItems_iff, Prod.ext_iff, and_assoc]

theorem sameEntries_iff : ∀ {entries others : Entries},
    sameEntries entries others = true ↔ entries = others
  | [], others => by cases others <;> simp [sameEntries]
  | (_, _, value) :: rest, others => by
    cases others <;> simp [sameEntries, same_iff, sameEntries_iff, Prod.ext_iff, and_assoc]

end

end Value

instance : DecidableEq Value := fun _ _ => decidable_of_iff _ Value.same_iff

end EditPipeline.Toml
