import EditPipeline.Program

/-!
# Editing methods one by one

`Program.threadMethods` passes a state from method to method.  When what becomes of a
method does not hang on that state, the edit splits in two: the next program is the old
one with a function applied to every method, `Program.mapMethods`, and the final state is
a fold over `Program.methods`.

`Program.mapMethods` leaves everything but methods as it is.
-/

namespace EditPipeline

/-! ## Threading a state along a list -/

section Thread

variable {α β σ : Type} {f : α → σ → β × σ}

theorem fst_thread {g : α → β} (hf : ∀ a state, (f a state).1 = g a) (list : List α)
    (state : σ) : (thread f list state).1 = list.map g := by
  induction list generalizing state with
  | nil => rfl
  | cons a rest ih => simp [thread, hf, ih]

theorem snd_thread (list : List α) (state : σ) :
    (thread f list state).2 = list.foldl (fun state a => (f a state).2) state := by
  induction list generalizing state with
  | nil => rfl
  | cons a rest ih => simp [thread, ih]

end Thread

/-! ## Declarations -/

namespace TypeDecl

/-- The declaration with `g` applied to its methods. -/
def mapMethods (g : TypeId → Method → Method) (decl : TypeDecl) : TypeDecl :=
  { decl with methods := decl.methods.map (g decl.id) }

@[simp] theorem mapMethods_id (g : TypeId → Method → Method) (decl : TypeDecl) :
    (decl.mapMethods g).id = decl.id := rfl

@[simp] theorem mapMethods_base (g : TypeId → Method → Method) (decl : TypeDecl) :
    (decl.mapMethods g).base = decl.base := rfl

theorem mapMethods_mapMethods (f g : TypeId → Method → Method) (decl : TypeDecl) :
    (decl.mapMethods g).mapMethods f =
      decl.mapMethods fun owner method => f owner (g owner method) := by
  simp [mapMethods]

theorem mapMethods_congr {f g : TypeId → Method → Method} {decl : TypeDecl}
    (heq : ∀ method ∈ decl.methods, f decl.id method = g decl.id method) :
    decl.mapMethods f = decl.mapMethods g := by
  unfold mapMethods
  rw [List.map_congr_left heq]

theorem mapMethods_eq_self {f : TypeId → Method → Method} {decl : TypeDecl}
    (heq : ∀ method ∈ decl.methods, f decl.id method = method) : decl.mapMethods f = decl := by
  unfold mapMethods
  rw [List.map_congr_left heq, List.map_id']

/-- The methods of the declaration, each with the type that declares it. -/
def owned (decl : TypeDecl) : List (TypeId × Method) := decl.methods.map (decl.id, ·)

theorem owned_mapMethods (g : TypeId → Method → Method) (decl : TypeDecl) :
    (decl.mapMethods g).owned = decl.owned.map fun entry => (entry.1, g entry.1 entry.2) := by
  simp [owned, mapMethods]

variable {σ : Type} {f : TypeId → Method → σ → Method × σ}

theorem fst_threadMethods {g : TypeId → Method → Method}
    (hf : ∀ owner method state, (f owner method state).1 = g owner method) (decl : TypeDecl)
    (state : σ) : (decl.threadMethods f state).1 = decl.mapMethods g := by
  unfold threadMethods mapMethods
  dsimp only
  rw [fst_thread (hf decl.id)]

theorem snd_threadMethods (decl : TypeDecl) (state : σ) :
    (decl.threadMethods f state).2 =
      decl.owned.foldl (fun state entry => (f entry.1 entry.2 state).2) state := by
  unfold threadMethods owned
  dsimp only
  rw [snd_thread, List.foldl_map]

end TypeDecl

/-! ## Programs -/

theorem TypeTable.eq_of_decls {table other : TypeTable} (heq : table.decls = other.decls) :
    table = other := by
  cases table
  cases other
  simp_all

namespace Program

theorem methods_eq (program : Program) :
    program.methods = program.types.decls.flatMap TypeDecl.owned := rfl

section Thread

variable {σ : Type} {f : TypeId → Method → σ → Method × σ} {g : TypeId → Method → Method}

theorem decls_threadMethods (hf : ∀ owner method state, (f owner method state).1 = g owner method)
    (program : Program) (state : σ) :
    (program.threadMethods f state).1.types.decls =
      program.types.decls.map (TypeDecl.mapMethods g) :=
  fst_thread (fun decl state => decl.fst_threadMethods hf state) _ _

theorem decls_mapMethods (g : TypeId → Method → Method) (program : Program) :
    (program.mapMethods g).types.decls = program.types.decls.map (TypeDecl.mapMethods g) :=
  decls_threadMethods (f := fun owner method _ => (g owner method, ())) (fun _ _ _ => rfl)
    program ()

theorem fst_threadMethods (hf : ∀ owner method state, (f owner method state).1 = g owner method)
    (program : Program) (state : σ) :
    (program.threadMethods f state).1 = program.mapMethods g := by
  have htypes : (program.threadMethods f state).1.types = (program.mapMethods g).types :=
    TypeTable.eq_of_decls
      ((decls_threadMethods hf program state).trans (decls_mapMethods g program).symm)
  exact congrArg (fun types => { program with types }) htypes

theorem snd_threadMethods (program : Program) (state : σ) :
    (program.threadMethods f state).2 =
      program.methods.foldl (fun state entry => (f entry.1 entry.2 state).2) state := by
  have hdecl (state : σ) (decl : TypeDecl) : (decl.threadMethods f state).2 =
      decl.owned.foldl (fun state entry => (f entry.1 entry.2 state).2) state :=
    decl.snd_threadMethods state
  calc (program.threadMethods f state).2
      = program.types.decls.foldl (fun state decl => (decl.threadMethods f state).2) state :=
        snd_thread _ _
    _ = program.methods.foldl (fun state entry => (f entry.1 entry.2 state).2) state := by
        rw [methods_eq, List.foldl_flatMap]
        simp only [hdecl]

end Thread

variable (f g : TypeId → Method → Method) (program : Program)

@[simp] theorem name_mapMethods : (program.mapMethods g).name = program.name := rfl

@[simp] theorem markers_mapMethods : (program.mapMethods g).markers = program.markers := rfl

/-- What `g` makes of the methods are the methods, in their order. -/
theorem methods_mapMethods :
    (program.mapMethods g).methods =
      program.methods.map fun entry => (entry.1, g entry.1 entry.2) := by
  rw [methods_eq, methods_eq, decls_mapMethods, List.flatMap_map, List.map_flatMap]
  simp only [TypeDecl.owned_mapMethods]

theorem mem_methods {program : Program} {entry : TypeId × Method} :
    entry ∈ program.methods ↔
      ∃ decl ∈ program.types.decls, decl.id = entry.1 ∧ entry.2 ∈ decl.methods := by
  rw [methods_eq, List.mem_flatMap]
  refine exists_congr fun decl => and_congr_right fun hdecl => ?_
  rw [TypeDecl.owned, List.mem_map]
  constructor
  · rintro ⟨method, hmethod, rfl⟩
    exact ⟨rfl, hmethod⟩
  · rintro ⟨hid, hmethod⟩
    exact ⟨entry.2, hmethod, by rw [hid]⟩

variable {f g program}

/-- Programs that differ in their types only are equal if the declarations are. -/
theorem mapMethods_eq_of_decls {other : Program} (hname : other.name = program.name)
    (hmarkers : other.markers = program.markers)
    (hdecls : program.types.decls.map (TypeDecl.mapMethods g) = other.types.decls) :
    program.mapMethods g = other := by
  have htypes : (program.mapMethods g).types = other.types :=
    TypeTable.eq_of_decls ((decls_mapMethods g program).trans hdecls)
  obtain ⟨name, markers, types⟩ := other
  obtain rfl : name = program.name := hname
  obtain rfl : markers = program.markers := hmarkers
  exact congrArg (fun types => { program with types }) htypes

theorem mapMethods_congr
    (heq : ∀ entry ∈ program.methods, f entry.1 entry.2 = g entry.1 entry.2) :
    program.mapMethods f = program.mapMethods g := by
  refine mapMethods_eq_of_decls rfl rfl ?_
  rw [decls_mapMethods]
  refine List.map_congr_left fun decl hdecl => ?_
  refine TypeDecl.mapMethods_congr fun method hmethod => ?_
  exact heq (decl.id, method) (mem_methods.2 ⟨decl, hdecl, rfl, hmethod⟩)

theorem mapMethods_eq_self (heq : ∀ entry ∈ program.methods, f entry.1 entry.2 = entry.2) :
    program.mapMethods f = program := by
  refine mapMethods_eq_of_decls rfl rfl ?_
  refine (List.map_congr_left fun decl hdecl => ?_).trans (List.map_id _)
  refine TypeDecl.mapMethods_eq_self fun method hmethod => ?_
  exact heq (decl.id, method) (mem_methods.2 ⟨decl, hdecl, rfl, hmethod⟩)

theorem mapMethods_mapMethods :
    (program.mapMethods g).mapMethods f =
      program.mapMethods fun owner method => f owner (g owner method) := by
  refine mapMethods_eq_of_decls rfl rfl ?_
  rw [decls_mapMethods, decls_mapMethods, List.map_map]
  exact List.map_congr_left fun decl _ => decl.mapMethods_mapMethods f g

end Program

end EditPipeline
