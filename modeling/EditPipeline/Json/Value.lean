import EditPipeline.Decimal.Word

/-!
# JSON values

The values that a marker may carry, and that every document of this library is
printed from.  Numbers keep two worlds apart: integers and doubles.  The
members of an object are a list, so a value says in which order it is written.
A value that was read is `Canonical`: its integers fit into 64 bits, and the
members of its objects stand in increasing order of their names.
-/

namespace EditPipeline

namespace Json

/-- A number of a JSON document. -/
inductive Number where
  /-- An integer. -/
  | integer (n : Int)
  /-- Any other number, as a double. -/
  | float (x : Float)
deriving BEq

/-- The integers that are read as integers: signed or unsigned words of 64
bits.  All others become doubles. -/
def IsWord (n : Int) : Prop := -Word.signed64 ≤ n ∧ n < Word.unsigned64

instance (n : Int) : Decidable (IsWord n) := inferInstanceAs (Decidable (_ ∧ _))

end Json

/-- A JSON value. -/
inductive Json where
  | null
  | bool (b : Bool)
  | number (n : Json.Number)
  | string (s : String)
  | array (items : List Json)
  | object (members : List (String × Json))
deriving Inhabited

namespace Json

/-- A natural number as a JSON value. -/
def ofNat (n : Nat) : Json := .number (.integer n)

mutual

/-- Whether two values are equal, doubles being compared as numbers. -/
def beq : Json → Json → Bool
  | .null, .null => true
  | .bool a, .bool b => a == b
  | .number a, .number b => a == b
  | .string a, .string b => a == b
  | .array as, .array bs => beqItems as bs
  | .object as, .object bs => beqMembers as bs
  | _, _ => false

/-- Whether two lists of items are equal, item by item. -/
def beqItems : List Json → List Json → Bool
  | [], [] => true
  | a :: as, b :: bs => beq a b && beqItems as bs
  | _, _ => false

/-- Whether two lists of members are equal, the names included. -/
def beqMembers : List (String × Json) → List (String × Json) → Bool
  | [], [] => true
  | (k, a) :: as, (l, b) :: bs => k == l && beq a b && beqMembers as bs
  | _, _ => false

end

instance : BEq Json := ⟨beq⟩

/-- The value of the member `name` of an object; nothing for other values. -/
def get? (name : String) : Json → Option Json
  | .object members => members.lookup name
  | _ => none

/-- Puts a member where its name belongs in increasing order; a member of the
same name gives way to it. -/
def insertMember (name : String) (value : Json) :
    List (String × Json) → List (String × Json)
  | [] => [(name, value)]
  | (other, held) :: rest =>
    if name < other then (name, value) :: (other, held) :: rest
    else if name = other then (name, value) :: rest
    else (other, held) :: insertMember name value rest

/-! ## What holds of every value that was read -/

mutual

/-- Integers fit into 64 bits, and the members of every object stand in
strictly increasing order of their names. -/
def Canonical : Json → Prop
  | .number (.integer n) => IsWord n
  | .array items => CanonicalItems items
  | .object members =>
      (members.map Prod.fst).Pairwise (· < ·) ∧ CanonicalMembers members
  | _ => True

/-- Every item is canonical. -/
def CanonicalItems : List Json → Prop
  | [] => True
  | item :: rest => Canonical item ∧ CanonicalItems rest

/-- Every member's value is canonical. -/
def CanonicalMembers : List (String × Json) → Prop
  | [] => True
  | (_, value) :: rest => Canonical value ∧ CanonicalMembers rest

end

mutual

/-- How many arrays and objects are open at the deepest place of the value. -/
def depth : Json → Nat
  | .array items => depthItems items + 1
  | .object members => depthMembers members + 1
  | _ => 0

/-- The greatest depth of the items. -/
def depthItems : List Json → Nat
  | [] => 0
  | item :: rest => max (depth item) (depthItems rest)

/-- The greatest depth of the members' values. -/
def depthMembers : List (String × Json) → Nat
  | [] => 0
  | (_, value) :: rest => max (depth value) (depthMembers rest)

end

mutual

/-- No number of the value is a double. -/
def FloatFree : Json → Prop
  | .number (.float _) => False
  | .array items => FloatFreeItems items
  | .object members => FloatFreeMembers members
  | _ => True

/-- No number of the items is a double. -/
def FloatFreeItems : List Json → Prop
  | [] => True
  | item :: rest => FloatFree item ∧ FloatFreeItems rest

/-- No number of the members' values is a double. -/
def FloatFreeMembers : List (String × Json) → Prop
  | [] => True
  | (_, value) :: rest => FloatFree value ∧ FloatFreeMembers rest

end

end Json

end EditPipeline
