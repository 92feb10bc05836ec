import EditPipeline.Json.Value

/-!
# The declarations of a program

A program is a snapshot of one compilation unit: markers that ask for edits, and
types with their methods.  This module holds everything below the table of
types: identifiers, tags, statements, methods and type declarations.
-/

namespace EditPipeline

/-- The fully qualified name of a type. -/
structure TypeId where
  name : String
deriving DecidableEq, Repr, Inhabited

namespace TypeId

/-- The root of all marker types: a type is a marker type when its chain of
bases reaches this one. -/
def attributeRoot : TypeId := ⟨"System.Attribute"⟩

/-- What follows the last dot of the name. -/
def shortName (id : TypeId) : String :=
  String.ofList ((id.name.toList.reverse.takeWhile (· ≠ '.')).reverse)

end TypeId

/-! ## Tags -/

/-- A set of tags, listed in increasing order. -/
structure TagSet where
  toList : List String
  sorted : toList.Pairwise (· < ·)
deriving DecidableEq

namespace TagSet

/-- Puts a tag in its place among sorted tags. -/
def insertSorted (tag : String) : List String → List String
  | [] => [tag]
  | other :: rest =>
    if tag < other then tag :: other :: rest
    else if tag = other then other :: rest
    else other :: insertSorted tag rest

theorem mem_insertSorted {tag other : String} {tags : List String} :
    other ∈ insertSorted tag tags ↔ other = tag ∨ other ∈ tags := by
  induction tags with
  | nil => simp [insertSorted]
  | cons head rest ih =>
    simp only [insertSorted]
    split
    · simp
    · split
      · rename_i h
        simp [h]
      · simp only [List.mem_cons, ih]
        exact or_left_comm

theorem sorted_insertSorted (tag : String) {tags : List String}
    (h : tags.Pairwise (· < ·)) : (insertSorted tag tags).Pairwise (· < ·) := by
  induction tags with
  | nil => simp [insertSorted]
  | cons head rest ih =>
    obtain ⟨hhead, hrest⟩ := List.pairwise_cons.mp h
    simp only [insertSorted]
    split
    · rename_i hlt
      refine List.pairwise_cons.mpr ⟨fun other hother => ?_, h⟩
      rcases List.mem_cons.mp hother with rfl | hmem
      · exact hlt
      · exact String.lt_trans hlt (hhead other hmem)
    · split
      · exact h
      · rename_i hlt hne
        refine List.pairwise_cons.mpr ⟨fun other hother => ?_, ih hrest⟩
        rcases mem_insertSorted.mp hother with rfl | hmem
        · exact Std.lt_of_le_of_ne (String.not_lt.mp hlt) (Ne.symm hne)
        · exact hhead other hmem

/-- No tags. -/
def empty : TagSet := ⟨[], .nil⟩

instance : EmptyCollection TagSet := ⟨empty⟩
instance : Inhabited TagSet := ⟨empty⟩

/-- The set with one more tag. -/
def insert (tag : String) (tags : TagSet) : TagSet :=
  ⟨insertSorted tag tags.toList, sorted_insertSorted tag tags.sorted⟩

instance : Membership String TagSet := ⟨fun tags tag => tag ∈ tags.toList⟩

instance (tag : String) (tags : TagSet) : Decidable (tag ∈ tags) :=
  inferInstanceAs (Decidable (tag ∈ tags.toList))

/-- The set of the tags of a list. -/
def ofList (tags : List String) : TagSet := tags.foldl (fun set tag => set.insert tag) empty

@[simp] theorem mem_insert {tag other : String} {tags : TagSet} :
    other ∈ tags.insert tag ↔ other = tag ∨ other ∈ tags :=
  mem_insertSorted

end TagSet

/-! ## Passing a state along a list -/

/-- Applies `f` to every element, a state passing from each to the next. -/
def thread {α β σ : Type} (f : α → σ → β × σ) : List α → σ → List β × σ
  | [], state => ([], state)
  | a :: rest, state =>
    let (b, state) := f a state
    let (bs, state) := thread f rest state
    (b :: bs, state)

/-! ## Methods -/

/-- A marker type applied to a method, with its arguments as written. -/
structure Attribute where
  type : TypeId
  args : List String := []
deriving DecidableEq, Inhabited

/-- A call that the compiler itself knows. -/
inductive Intrinsic where
  /-- Breaks into an attached debugger. -/
  | debuggerBreak
deriving DecidableEq, Inhabited

/-- A statement of a method body. -/
inductive Stmt where
  /-- An expression, kept verbatim. -/
  | expr (text : String)
  /-- A return, with the text of its value if it has one. -/
  | returns (value : Option String)
  | intrinsic (call : Intrinsic)
deriving DecidableEq, Inhabited

/-- A method. -/
structure Method where
  name : String
  attributes : List Attribute := []
  body : List Stmt := []
  /-- Marks left by editors. -/
  tags : TagSet := ∅
deriving DecidableEq, Inhabited

namespace Method

/-- Whether an editor left `tag` on the method. -/
def hasTag (method : Method) (tag : String) : Bool := tag ∈ method.tags

/-- Whether the type of one of its attributes satisfies `p`. -/
def isDecoratedWith (method : Method) (p : TypeId → Bool) : Bool :=
  method.attributes.any fun attr => p attr.type

end Method

/-! ## Types -/

/-- The declaration of a type. -/
structure TypeDecl where
  id : TypeId
  base : Option TypeId := none
  methods : List Method := []
deriving DecidableEq, Inhabited

namespace TypeDecl

/-- A marker type directly below the root. -/
def ofAttribute (id : TypeId) : TypeDecl := { id, base := some .attributeRoot }

/-- The declaration with `f` applied to its methods, a state passing from each
to the next. -/
def threadMethods {σ : Type} (f : TypeId → Method → σ → Method × σ) (decl : TypeDecl)
    (state : σ) : TypeDecl × σ :=
  let (methods, state) := thread (f decl.id) decl.methods state
  ({ decl with methods }, state)

@[simp] theorem threadMethods_id {σ : Type} (f : TypeId → Method → σ → Method × σ)
    (decl : TypeDecl) (state : σ) : (decl.threadMethods f state).1.id = decl.id := rfl

end TypeDecl

/-! ## Markers -/

/-- A request, declared on the whole program, for the editors of a kind of
marker.  Its arguments are not validated yet. -/
structure MarkerDecl where
  kind : String
  args : Json := .null
deriving Inhabited

end EditPipeline
