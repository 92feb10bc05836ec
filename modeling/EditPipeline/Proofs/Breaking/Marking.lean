import Mathlib.Data.List.Forall2
import EditPipeline.Breaking
import EditPipeline.Proofs.Program.Methods

/-!
# What the editor of debugger breaks does

`Breaking.edit` passes a tally from method to method, but what becomes of a method does
not hang on the tally: `edit_eq` splits the edit into `mark`, which is applied to each
method on its own, and a tally that can be read off the methods of the old program.

The laws of `mark` are those of a mark that is set once.  It never touches attributes, so
whether a method is tracked stays as it was; and a marked method is never marked again, so
marking for some types and then for others is marking for all of them
(`mark_mark`).  Hence any number of edits is one edit for all the types together
(`editAll_eq`).

`Touches` says what becomes of a method without the code that looks at it.
-/

namespace EditPipeline.Breaking

/-! ## Tracked methods -/

section Tracked

variable {tracked others : List TypeId} {method : Method}

theorem isTracked_iff :
    isTracked tracked method = true ↔ ∃ attr ∈ method.attributes, attr.type ∈ tracked := by
  simp [isTracked, Method.isDecoratedWith]

/-- Only the types count, not their order or number. -/
theorem isTracked_congr (hsame : ∀ type, type ∈ tracked ↔ type ∈ others) (method : Method) :
    isTracked tracked method = isTracked others method := by
  rw [Bool.eq_iff_iff, isTracked_iff, isTracked_iff]
  simp only [hsame]

@[simp] theorem isTracked_nil (method : Method) : isTracked [] method = false := by
  simp [isTracked, Method.isDecoratedWith]

@[simp] theorem isTracked_append (tracked others : List TypeId) (method : Method) :
    isTracked (tracked ++ others) method =
      (isTracked tracked method || isTracked others method) := by
  rw [Bool.eq_iff_iff, Bool.or_eq_true, isTracked_iff, isTracked_iff, isTracked_iff]
  simp only [List.mem_append, and_or_left, exists_or]

theorem isTracked_flatten (lists : List (List TypeId)) (method : Method) :
    isTracked lists.flatten method = lists.any (isTracked · method) := by
  induction lists with
  | nil => simp
  | cons tracked rest ih => simp [ih]

end Tracked

/-! ## Marking one method -/

/-- What becomes of a method when some types are tracked. -/
def mark (tracked : List TypeId) (method : Method) : Method :=
  if isTracked tracked method && !method.hasTag breakTag then instrument method else method

theorem hasTag_instrument (method : Method) : (instrument method).hasTag breakTag = true := by
  simp [instrument, Method.hasTag]

section Mark

variable {tracked others : List TypeId} {method : Method}

theorem mark_of_tagged (htag : method.hasTag breakTag = true) : mark tracked method = method := by
  simp [mark, htag]

theorem mark_of_untracked (huntracked : isTracked tracked method = false) :
    mark tracked method = method := by
  simp [mark, huntracked]

theorem mark_of_fresh (htracked : isTracked tracked method = true)
    (hfresh : method.hasTag breakTag = false) : mark tracked method = instrument method := by
  simp [mark, htracked, hfresh]

/-- A method is left as it is or instrumented. -/
theorem mark_eq_or (tracked : List TypeId) (method : Method) :
    mark tracked method = method ∨ mark tracked method = instrument method := by
  unfold mark
  split
  · exact .inr rfl
  · exact .inl rfl

@[simp] theorem name_mark (tracked : List TypeId) (method : Method) :
    (mark tracked method).name = method.name := by
  rcases mark_eq_or tracked method with h | h <;> rw [h]
  rfl

@[simp] theorem attributes_mark (tracked : List TypeId) (method : Method) :
    (mark tracked method).attributes = method.attributes := by
  rcases mark_eq_or tracked method with h | h <;> rw [h]
  rfl

@[simp] theorem isTracked_mark (tracked others : List TypeId) (method : Method) :
    isTracked others (mark tracked method) = isTracked others method := by
  simp [isTracked, Method.isDecoratedWith]

@[simp] theorem hasTag_mark (tracked : List TypeId) (method : Method) :
    (mark tracked method).hasTag breakTag =
      (method.hasTag breakTag || isTracked tracked method) := by
  cases htag : method.hasTag breakTag with
  | true => rw [mark_of_tagged htag, htag, Bool.true_or]
  | false =>
      cases htracked : isTracked tracked method with
      | true => rw [mark_of_fresh htracked htag, hasTag_instrument, Bool.or_true]
      | false => rw [mark_of_untracked htracked, htag, Bool.or_false]

/-- Marking twice is marking once for all the types. -/
theorem mark_mark (tracked others : List TypeId) (method : Method) :
    mark others (mark tracked method) = mark (tracked ++ others) method := by
  cases htag : method.hasTag breakTag with
  | true => rw [mark_of_tagged htag, mark_of_tagged htag, mark_of_tagged htag]
  | false =>
      cases htracked : isTracked tracked method with
      | true =>
          -- the first edit sets the tag, and the second one goes by it
          have hmarked : (mark tracked method).hasTag breakTag = true := by simp [htracked]
          rw [mark_of_tagged hmarked, mark_of_fresh htracked htag,
            mark_of_fresh (by simp [htracked]) htag]
      | false =>
          rw [mark_of_untracked htracked]
          simp [mark, htracked]

theorem mark_congr (hsame : ∀ type, type ∈ tracked ↔ type ∈ others) :
    mark tracked = mark others := by
  funext method
  unfold mark
  rw [isTracked_congr hsame]

end Mark

/-! ## The edit as a whole -/

/-- The name by which the report calls a method. -/
def fullName (entry : TypeId × Method) : String := entry.1.name ++ "." ++ entry.2.name

/-- How many methods are decorated with a tracked type. -/
def matched (tracked : List TypeId) (program : Program) : Nat :=
  program.methods.countP fun entry => isTracked tracked entry.2

/-- The methods that are decorated with a tracked type and not yet instrumented. -/
def pending (tracked : List TypeId) (program : Program) : List (TypeId × Method) :=
  program.methods.filter fun entry => isTracked tracked entry.2 && !entry.2.hasTag breakTag

/-- The program with every method marked. -/
def marked (tracked : List TypeId) (program : Program) : Program :=
  program.mapMethods fun _ => mark tracked

theorem fst_visit (tracked : List TypeId) (owner : TypeId) (method : Method) (tally : Tally) :
    (visit tracked owner method tally).1 = mark tracked method := by
  unfold visit mark
  cases isTracked tracked method <;> cases method.hasTag breakTag <;> rfl

theorem snd_visit (tracked : List TypeId) (entry : TypeId × Method) (tally : Tally) :
    (visit tracked entry.1 entry.2 tally).2 =
      { matched := tally.matched + if isTracked tracked entry.2 then 1 else 0
        instrumented := tally.instrumented ++
          if isTracked tracked entry.2 && !entry.2.hasTag breakTag then [fullName entry]
          else [] } := by
  unfold visit
  cases isTracked tracked entry.2 <;> cases entry.2.hasTag breakTag <;> simp [fullName]

theorem foldl_visit (tracked : List TypeId) (entries : List (TypeId × Method)) (tally : Tally) :
    entries.foldl (fun tally entry => (visit tracked entry.1 entry.2 tally).2) tally =
      { matched := tally.matched + entries.countP fun entry => isTracked tracked entry.2
        instrumented := tally.instrumented ++ (entries.filter fun entry =>
          isTracked tracked entry.2 && !entry.2.hasTag breakTag).map fullName } := by
  induction entries generalizing tally with
  | nil => simp
  | cons entry rest ih =>
      rw [List.foldl_cons, ih, snd_visit, List.countP_cons, List.filter_cons]
      cases isTracked tracked entry.2 <;> cases entry.2.hasTag breakTag <;>
        simp [Nat.add_assoc, Nat.add_comm 1]

/-- **One edit**: every method is marked on its own, and the tally is about the methods
of the program as it was. -/
theorem edit_eq (tracked : List TypeId) (program : Program) :
    edit tracked program = (marked tracked program,
      { matched := matched tracked program
        instrumented := (pending tracked program).map fullName }) := by
  refine Prod.ext ?_ ?_
  · exact Program.fst_threadMethods (fst_visit tracked) program ({} : Tally)
  · have hfold := foldl_visit tracked program.methods {}
    simp only [Nat.zero_add, List.nil_append] at hfold
    exact (Program.snd_threadMethods program ({} : Tally)).trans hfold

theorem methods_marked (tracked : List TypeId) (program : Program) :
    (marked tracked program).methods =
      program.methods.map fun entry => (entry.1, mark tracked entry.2) :=
  Program.methods_mapMethods _ program

theorem marked_marked (tracked others : List TypeId) (program : Program) :
    marked others (marked tracked program) = marked (tracked ++ others) program := by
  refine Program.mapMethods_mapMethods.trans (Program.mapMethods_congr fun entry _ => ?_)
  exact mark_mark tracked others entry.2

theorem marked_congr {tracked others : List TypeId}
    (hsame : ∀ type, type ∈ tracked ↔ type ∈ others) : marked tracked = marked others := by
  unfold marked
  rw [mark_congr hsame]

/-- Nothing is left to mark once every tracked method has its tag. -/
theorem marked_eq_self {tracked : List TypeId} {program : Program}
    (htagged : ∀ entry ∈ program.methods,
      isTracked tracked entry.2 = true → entry.2.hasTag breakTag = true) :
    marked tracked program = program := by
  refine Program.mapMethods_eq_self fun entry hentry => ?_
  cases htracked : isTracked tracked entry.2 with
  | true => exact mark_of_tagged (htagged entry hentry htracked)
  | false => exact mark_of_untracked htracked

/-! ## What is touched -/

section Touched

variable {tracked : List TypeId} {method : Method}

/-- What becomes of a method when some types are tracked. -/
structure Touches (tracked : List TypeId) (before after : Method) : Prop where
  differs_iff : after ≠ before ↔
    (∃ attr ∈ before.attributes, attr.type ∈ tracked) ∧ breakTag ∉ before.tags
  name : after.name = before.name
  attributes : after.attributes = before.attributes
  body : after ≠ before → after.body = .intrinsic .debuggerBreak :: before.body
  tags : after ≠ before → ∀ tag, tag ∈ after.tags ↔ tag = breakTag ∨ tag ∈ before.tags

theorem instrument_ne (method : Method) : instrument method ≠ method := by
  intro hsame
  have hlength := congrArg (fun method : Method => method.body.length) hsame
  simp [instrument] at hlength

theorem mark_ne_iff :
    mark tracked method ≠ method ↔
      isTracked tracked method = true ∧ method.hasTag breakTag = false := by
  cases htracked : isTracked tracked method with
  | false => simp [mark_of_untracked htracked]
  | true =>
      cases htag : method.hasTag breakTag with
      | true => simp [mark_of_tagged htag]
      | false => simp [mark_of_fresh htracked htag, instrument_ne]

theorem touches_mark (tracked : List TypeId) (method : Method) :
    Touches tracked method (mark tracked method) := by
  have hinstrumented (hne : mark tracked method ≠ method) :
      mark tracked method = instrument method := (mark_eq_or tracked method).resolve_left hne
  refine ⟨?_, name_mark tracked method, attributes_mark tracked method, fun hne => ?_,
    fun hne tag => ?_⟩
  · rw [mark_ne_iff, isTracked_iff, Method.hasTag, decide_eq_false_iff_not]
  · rw [hinstrumented hne]
    rfl
  · rw [hinstrumented hne]
    exact TagSet.mem_insert

/-- What becomes of a declaration. -/
structure TouchesDecl (tracked : List TypeId) (before after : TypeDecl) : Prop where
  id : after.id = before.id
  base : after.base = before.base
  methods : List.Forall₂ (Touches tracked) before.methods after.methods

theorem touchesDecl_mapMethods (tracked : List TypeId) (decl : TypeDecl) :
    TouchesDecl tracked decl (decl.mapMethods fun _ => mark tracked) where
  id := rfl
  base := rfl
  methods := by
    rw [TypeDecl.mapMethods, List.forall₂_map_right_iff, List.forall₂_same]
    exact fun method _ => touches_mark tracked method

theorem forall₂_touchesDecl (tracked : List TypeId) (program : Program) :
    List.Forall₂ (TouchesDecl tracked) program.types.toList
      (marked tracked program).types.toList := by
  have hdecls := Program.decls_mapMethods (fun _ => mark tracked) program
  show List.Forall₂ _ program.types.decls (marked tracked program).types.decls
  rw [marked, hdecls, List.forall₂_map_right_iff, List.forall₂_same]
  exact fun decl _ => touchesDecl_mapMethods tracked decl

end Touched

/-! ## Several edits -/

/-- The program after one edit for each of some lists of types. -/
def editAll (lists : List (List TypeId)) (program : Program) : Program :=
  lists.foldl (fun program tracked => (edit tracked program).1) program

/-- Any number of edits is one edit for all the types together. -/
theorem editAll_eq (lists : List (List TypeId)) (program : Program) :
    editAll lists program = marked lists.flatten program := by
  unfold editAll
  induction lists generalizing program with
  | nil => exact (marked_eq_self fun entry _ htracked => by simp at htracked).symm
  | cons tracked rest ih =>
      calc rest.foldl _ (edit tracked program).1
          = rest.foldl (fun program tracked => (edit tracked program).1)
              (marked tracked program) := by rw [edit_eq]
        _ = marked rest.flatten (marked tracked program) := ih _
        _ = marked (tracked :: rest).flatten program := marked_marked tracked rest.flatten program

end EditPipeline.Breaking
