import EditPipeline.Proofs.Program.Bases
import EditPipeline.Proofs.Program.Methods

/-!
# Edits go through the methods in their order

`Program.threadMethods` walks through a table of types and, in each type, through a list of
methods; `Program.methods` lists the methods of all types one after the other.  The two agree
call by call: the nested walk is one walk along that list (`Program.thread_methods`), and the
same state is handed from each method to the next.

An equation between walks holds of every function, so also of one that keeps a record of its
calls.  `logged f` is such a function, and from its record the calls of `f` can be read off:
each method of the list once, under its own type, in the order of the list.
-/

namespace EditPipeline

/-! ## Walks along a list -/

section Thread

variable {α β σ τ : Type} {f : α → σ → β × σ}

theorem thread_append (front back : List α) (state : σ) :
    thread f (front ++ back) state =
      ((thread f front state).1 ++ (thread f back (thread f front state).2).1,
        (thread f back (thread f front state).2).2) := by
  induction front generalizing state with
  | nil => rfl
  | cons a front ih => simp [thread, ih]

/-- A walk along a flattened list is a walk along its parts, if each part is walked through as
a whole. -/
theorem thread_flatMap {γ δ : Type} {g : γ → σ → δ × σ} {flat : γ → List α} {image : δ → List β}
    (hpart : ∀ c state, thread f (flat c) state = (image (g c state).1, (g c state).2))
    (list : List γ) (state : σ) :
    thread f (list.flatMap flat) state =
      ((thread g list state).1.flatMap image, (thread g list state).2) := by
  induction list generalizing state with
  | nil => rfl
  | cons c list ih => simp [thread, thread_append, hpart, ih]

/-- Notes that are taken beside a walk do not change it, and they stand in its order. -/
theorem thread_noting {g : α → List τ × σ → β × List τ × σ} {notes : α → List τ}
    (hstep : ∀ a held state, g a (held, state) = ((f a state).1, held ++ notes a, (f a state).2))
    (list : List α) (held : List τ) (state : σ) :
    thread g list (held, state) =
      ((thread f list state).1, held ++ list.flatMap notes, (thread f list state).2) := by
  induction list generalizing held state with
  | nil => simp [thread]
  | cons a list ih => simp [thread, hstep, ih]

end Thread

/-! ## The walk through a program -/

section Visits

variable {σ : Type}

/-- One call of `f`.  Its result stays under the type that declares the method. -/
def visit (f : TypeId → Method → σ → Method × σ) (entry : TypeId × Method) (state : σ) :
    (TypeId × Method) × σ :=
  ((entry.1, (f entry.1 entry.2 state).1), (f entry.1 entry.2 state).2)

/-- The function `f`, with a record of its calls beside its state. -/
def logged (f : TypeId → Method → σ → Method × σ) (owner : TypeId) (method : Method)
    (state : List (TypeId × Method) × σ) : Method × List (TypeId × Method) × σ :=
  ((f owner method state.2).1, state.1 ++ [(owner, method)], (f owner method state.2).2)

variable (f : TypeId → Method → σ → Method × σ)

namespace TypeDecl

variable (decl : TypeDecl)

theorem thread_owned (state : σ) :
    thread (visit f) decl.owned state =
      ((decl.threadMethods f state).1.owned, (decl.threadMethods f state).2) := by
  unfold owned threadMethods
  dsimp only
  generalize decl.methods = methods
  induction methods generalizing state with
  | nil => rfl
  | cons method methods ih => simp [thread, visit, ih]

theorem threadMethods_logged (calls : List (TypeId × Method)) (state : σ) :
    decl.threadMethods (logged f) (calls, state) =
      ((decl.threadMethods f state).1, calls ++ decl.owned, (decl.threadMethods f state).2) := by
  have hcall (method : Method) (calls : List (TypeId × Method)) (state : σ) :
      logged f decl.id method (calls, state) =
        ((f decl.id method state).1, calls ++ [(decl.id, method)], (f decl.id method state).2) := rfl
  unfold threadMethods owned
  dsimp only
  rw [thread_noting hcall, List.map_eq_flatMap]

end TypeDecl

namespace Program

variable (program : Program)

/-- The walk through the types is a walk along the list of all methods. -/
theorem thread_methods (state : σ) :
    thread (visit f) program.methods state =
      ((program.threadMethods f state).1.methods, (program.threadMethods f state).2) :=
  thread_flatMap (TypeDecl.thread_owned f) program.types.decls state

/-- The record holds the methods in the order of the list, and keeping it changes nothing. -/
theorem threadMethods_logged (calls : List (TypeId × Method)) (state : σ) :
    program.threadMethods (logged f) (calls, state) =
      ((program.threadMethods f state).1, calls ++ program.methods,
        (program.threadMethods f state).2) := by
  have hwalk := thread_noting (TypeDecl.threadMethods_logged f) program.types.decls calls state
  have htypes : (program.threadMethods (logged f) (calls, state)).1.types =
      (program.threadMethods f state).1.types :=
    TypeTable.eq_of_decls (congrArg Prod.fst hwalk)
  have hstate : (program.threadMethods (logged f) (calls, state)).2 =
      (calls ++ program.methods, (program.threadMethods f state).2) := congrArg Prod.snd hwalk
  exact Prod.ext (congrArg (fun types => { program with types }) htypes) hstate

/-! ## Main statement -/

/-- **Edits go through the methods in their order.**  Whatever an edit keeps in its state, it is
called once for each method, with the type that declares it and in the order of
`Program.methods`, and its state passes from each call to the next.  The methods of the next
program are its results, in that order and under the same types; nothing else of the program
changes.  So an edit that leaves every method as it is leaves the program as it is, and two
edits without a state, one after the other, are one. -/
theorem methods_edited_in_order (f : TypeId → Method → σ → Method × σ) (program : Program)
    (state : σ) :
    program.threadMethods (logged f) ([], state) =
      ((program.threadMethods f state).1, program.methods, (program.threadMethods f state).2) ∧
    (program.threadMethods f state).1.methods = (thread (visit f) program.methods state).1 ∧
    (program.threadMethods f state).2 = (thread (visit f) program.methods state).2 ∧
    (program.threadMethods f state).1.name = program.name ∧
    (program.threadMethods f state).1.markers = program.markers ∧
    (program.threadMethods f state).1.types.bases = program.types.bases ∧
    program.mapMethods (fun _ method => method) = program ∧
    ∀ g h : TypeId → Method → Method,
      (program.mapMethods g).methods =
          program.methods.map (fun entry => (entry.1, g entry.1 entry.2)) ∧
        (program.mapMethods g).mapMethods h =
          program.mapMethods fun owner method => h owner (g owner method) := by
  have hwalk := thread_methods f program state
  refine ⟨threadMethods_logged f program [] state, ?_, ?_, rfl, rfl,
    TypeTable.bases_threadMethods f program.types state, mapMethods_eq_self fun _ _ => rfl,
    fun g h => ⟨methods_mapMethods g program, mapMethods_mapMethods⟩⟩
  · rw [hwalk]
  · rw [hwalk]

end Program

end Visits

end EditPipeline
