import EditPipeline.Proofs.Breaking.Run

/-!
# Only the union of the tracked types counts

Passes that change a program do not commute in general.  These do: an edit goes by
attributes, which no edit touches, and by the tag, which an edit sets for good.  So what
edits for some lists of types come to is what one edit for all the types comes to, and the
lists may overlap, be repeated and stand in any order.

For runs this means that the types of the program that a run completes with tell nothing of
the markers but which types they name.
-/

namespace EditPipeline.Breaking

/-- At most one break was put in front of the method. -/
def BreaksOnce (before after : TypeId × Method) : Prop :=
  after.1 = before.1 ∧
    (after.2.body = before.2.body ∨
      after.2.body = .intrinsic .debuggerBreak :: before.2.body)

theorem breaksOnce_mark (tracked : List TypeId) (entry : TypeId × Method) :
    BreaksOnce entry (entry.1, mark tracked entry.2) := by
  refine ⟨rfl, ?_⟩
  rcases mark_eq_or tracked entry.2 with hmark | hmark
  · exact .inl (by rw [hmark])
  · exact .inr (by rw [hmark]; rfl)

theorem forall₂_breaksOnce (tracked : List TypeId) (program : Program) :
    List.Forall₂ BreaksOnce program.methods (marked tracked program).methods := by
  rw [methods_marked, List.forall₂_map_right_iff, List.forall₂_same]
  intro entry _
  exact breaksOnce_mark tracked entry

theorem types_marked_congr {tracked others : List TypeId} {program other : Program}
    (hsame : ∀ type, type ∈ others ↔ type ∈ tracked) (htypes : other.types = program.types) :
    (marked others other).types = (marked tracked program).types := by
  refine TypeTable.eq_of_decls ?_
  rw [marked_congr hsame, marked, marked, Program.decls_mapMethods, Program.decls_mapMethods,
    htypes]

/-! ## Main statement -/

/-- **Edits depend on the union of their types.**  Edits for some lists of types are one edit
for the union, so lists that name the same types, in whatever order and however often, give
the same program; and no method gets more than one break.  A run for debugger breaks
completes, and with whatever plugins and however it shares its memory, the types of the
program it completes with hang on the markers only through the types that they name. -/
theorem edits_depend_on_union (program : Program) (lists : List (List TypeId)) :
    (∀ union : List TypeId, (∀ type, type ∈ union ↔ ∃ tracked ∈ lists, type ∈ tracked) →
      editAll lists program = (edit union program).1) ∧
    (∀ others : List (List TypeId),
      (∀ type, (∃ tracked ∈ others, type ∈ tracked) ↔ ∃ tracked ∈ lists, type ∈ tracked) →
      editAll others program = editAll lists program) ∧
    List.Forall₂ BreaksOnce program.methods (editAll lists program).methods ∧
    (∀ (σ π : Type) (memory : σ) (watch : π) (breaks : List BreakOn),
      (({} : Pipeline π).run program (breaks.map BreakOn.toMarker) ⟨false, memory⟩
        watch).outcome.program? = some (editAll (breaks.map BreakOn.types) program)) ∧
    ∀ (σ σ' π π' : Type) (pipeline : Pipeline π) (pipeline' : Pipeline π') (other : Program)
      (breaks others : List BreakOn) (shared : Shared σ) (shared' : Shared σ') (watch : π)
      (watch' : π') (stopAt stopAt' : Option Nat) (final final' : Program)
      (findings findings' : Findings),
      other.types = program.types →
      (∀ type, (∃ marker ∈ others, type ∈ marker.types) ↔
        ∃ marker ∈ breaks, type ∈ marker.types) →
      (pipeline.run program (breaks.map BreakOn.toMarker) shared watch stopAt).outcome =
        .completed final findings →
      (pipeline'.run other (others.map BreakOn.toMarker) shared' watch' stopAt').outcome =
        .completed final' findings' →
      final'.types = final.types := by
  refine ⟨?_, ?_, ?_, ?_, ?_⟩
  · intro union hunion
    rw [editAll_eq, edit_eq]
    refine congrFun (marked_congr fun type => ?_) program
    rw [List.mem_flatten, hunion]
  · intro others hsame
    rw [editAll_eq, editAll_eq]
    refine congrFun (marked_congr fun type => ?_) program
    rw [List.mem_flatten, List.mem_flatten, hsame]
  · rw [editAll_eq]
    exact forall₂_breaksOnce lists.flatten program
  · intro σ π memory watch breaks
    rw [Pipeline.run_breaks]
    rfl
  · intro σ σ' π π' pipeline pipeline' other breaks others shared shared' watch watch' stopAt
      stopAt' final final' findings findings' htypes hsame hcompleted hcompleted'
    rw [Pipeline.final_of_breaks hcompleted, Pipeline.final_of_breaks hcompleted', editAll_eq,
      editAll_eq]
    refine types_marked_congr (fun type => ?_) htypes
    simpa [List.mem_flatten] using hsame type

/-- A method with these attributes, which does some work. -/
def working (name : String) (attributes : List String) : Method where
  name := name
  attributes := attributes.map fun type => { type := ⟨type⟩ }
  body := [.expr "Work()"]

/-- A service whose methods are decorated with the one, the other, both or neither of two
types; one of them breaks already. -/
def service : Program where
  name := "Demo"
  types := .ofList [
    .ofAttribute ⟨"X"⟩, .ofAttribute ⟨"Y"⟩,
    { id := ⟨"Service"⟩
      methods := [working "Foo" ["X"], working "Bar" ["Y", "X"],
        instrument (working "Baz" ["Y"]), working "Qux" []] }]

/-- Markers that overlap and repeat each other. -/
def overlapping : List BreakOn := [⟨[⟨"X"⟩]⟩, ⟨[⟨"Y"⟩, ⟨"X"⟩]⟩, ⟨[⟨"X"⟩]⟩]

/-- Three overlapping markers come to as much as one, whether a plugin watches or not. -/
theorem union_of_overlapping :
    editAll (overlapping.map BreakOn.types) service = (edit [⟨"Y"⟩, ⟨"X"⟩] service).1 ∧
    editAll [[⟨"Y"⟩], [⟨"X"⟩]] service = editAll (overlapping.map BreakOn.types) service ∧
    ∃ final final' findings findings',
      (({} : Pipeline Unit).run service (overlapping.map BreakOn.toMarker) ⟨false, ()⟩
        ()).outcome = .completed final findings ∧
      (({ plugins := [.quiet] } : Pipeline Unit).run { service with name := "Other" }
        ([⟨[⟨"Y"⟩, ⟨"X"⟩]⟩].map BreakOn.toMarker) ⟨false, ()⟩ ()).outcome =
          .completed final' findings' ∧
      final'.types = final.types := by
  have hsame : ∀ type, (∃ tracked ∈ [[⟨"Y"⟩], [⟨"X"⟩]], type ∈ tracked) ↔
      ∃ tracked ∈ overlapping.map BreakOn.types, type ∈ tracked := by
    intro type
    simp [overlapping]
    tauto
  have hunion : ∀ type : TypeId, type ∈ [⟨"Y"⟩, ⟨"X"⟩] ↔
      ∃ tracked ∈ overlapping.map BreakOn.types, type ∈ tracked := by
    intro type
    simp [overlapping]
    tauto
  have hnamed : ∀ type : TypeId,
      (∃ marker ∈ ([⟨[⟨"Y"⟩, ⟨"X"⟩]⟩] : List BreakOn), type ∈ marker.types) ↔
        ∃ marker ∈ overlapping, type ∈ marker.types := by
    intro type
    simp [overlapping]
    tauto
  obtain ⟨final, findings, hcompleted⟩ : ∃ final findings,
      (({} : Pipeline Unit).run service (overlapping.map BreakOn.toMarker) ⟨false, ()⟩
        ()).outcome = .completed final findings := ⟨_, _, rfl⟩
  obtain ⟨final', findings', hcompleted'⟩ : ∃ final findings,
      (({ plugins := [.quiet] } : Pipeline Unit).run { service with name := "Other" }
        ([⟨[⟨"Y"⟩, ⟨"X"⟩]⟩].map BreakOn.toMarker) ⟨false, ()⟩ ()).outcome =
          .completed final findings := ⟨_, _, rfl⟩
  obtain ⟨hedit, hedits, -, -, hruns⟩ :=
    edits_depend_on_union service (overlapping.map BreakOn.types)
  refine ⟨hedit _ hunion, hedits _ hsame, final, final', findings, findings', hcompleted,
    hcompleted', ?_⟩
  exact hruns Unit Unit Unit Unit {} { plugins := [.quiet] } { service with name := "Other" }
    overlapping _ _ _ _ _ none none final final' findings findings' rfl hnamed hcompleted
    hcompleted'

end EditPipeline.Breaking
