import EditPipeline.Proofs.Run.Ending

/-!
# Runs that complete

A run that completes has asked every marker, initialized every editor that the
markers gave, and called every edit that the editors registered, each of them
once and in this order: by marker, by editor of the marker, by registration.
The program goes from edit to edit, and so does the memory that all of them
share.
-/

namespace EditPipeline

variable {σ π : Type}

/-! ## The calls among the acts -/

@[simp] private theorem isCall_phases (phase : Phase) (start count : Nat) :
    (numbered (.phase · phase) start count).filter Event.isCall = [] :=
  filter_numbered_of_neg (fun _ => rfl) start count

@[simp] private theorem isCall_discoveries (start count : Nat) :
    (numbered (.discover · none) start count).filter Event.isCall =
      numbered (.discover · none) start count :=
  filter_numbered_of_pos (fun _ => rfl) start count

@[simp] private theorem isCall_befores (info : EditInfo) (program : Program)
    (start count : Nat) :
    (numbered (.before · info program none) start count).filter Event.isCall = [] :=
  filter_numbered_of_neg (fun _ => rfl) start count

@[simp] private theorem isCall_afters (info : EditInfo) (program : Program)
    (start count : Nat) :
    (numbered (.after · info program none) start count).filter Event.isCall = [] :=
  filter_numbered_of_neg (fun _ => rfl) start count

theorem filter_isCall_passActs (count start : Nat) (passed : List (Passing σ)) :
    (passActs count start passed).filter Event.isCall = edits start passed := by
  rw [edits, List.map_eq_flatMap]
  exact filter_passActs (fun passing index => [.edit index passing.program (.ok passing.next)])
    (fun _ _ => by simp [Passing.acts, Passing.work, List.filter_cons]) start passed

/-! ## Main statement -/

/-- **A completed run calls everything once, in order.**  `asked` are the calls of
markers, `joined` the initializations of editors, `passed` the calls of edits; the
journal has these calls and no others. -/
theorem calls_of_completed {pipeline : Pipeline π} {program final : Program}
    {markers : List (Marker σ)} {shared : Shared σ} {watch : π} {stopAt : Option Nat}
    {findings : Findings}
    (hcompleted : (pipeline.run program markers shared watch stopAt).outcome =
      .completed final findings) :
    ∃ (asked : List (Asking σ)) (joined : List (Joining σ)) (passed : List (Passing σ)),
      asked.map Asking.marker = markers ∧
      joined.map Joining.entry = roster 0 asked ∧
      (∀ joining ∈ joined, joining.program = program) ∧
      passed.map Passing.owned = registered joined ∧
      Relay program (passed.map Passing.programs) final ∧
      Relay shared.memory
        (asked.map Asking.memories ++ joined.map Joining.memories ++
          passed.map Passing.memories)
        (pipeline.run program markers shared watch stopAt).shared.memory ∧
      (pipeline.run program markers shared watch stopAt).journal.filter Event.isCall =
        numbered (.discover · none) 0 markers.length ++ setUps 0 joined ++ edits 0 passed := by
  have hends := pipeline.ends program markers shared watch stopAt
  generalize pipeline.run program markers shared watch stopAt = ended at hends hcompleted ⊢
  cases hends with
  | collecting hcollects => simp at hcompleted
  | executing hcollects hexecutes => simp at hcompleted
  | @completed collected after _ hcollects hexecutes =>
      simp only [Run.outcome_finish, Outcome.completed.injEq] at hcompleted
      obtain ⟨rfl, -⟩ := hcompleted
      cases hcollects with
      | @done asked joined between _ hgoes hmarkers hasks hroster hjoins =>
          cases hexecutes with
          | @all passed _ _ hlinks hpasses =>
              refine ⟨asked, joined, passed, hmarkers, hroster, hjoins.program_eq, ?_,
                hpasses.programs, ?_, ?_⟩
              · rw [hpasses.owners, hlinks, ← Pipeline.owners_collected hasks hjoins]
                simp [Run.names]
              · have hmemory := (Pipeline.memory_collected hasks hjoins).append
                  (by simpa using hpasses.memory)
                simpa using hmemory
              · have hsetUps : (joinActs 0 joined).filter Event.isCall = setUps 0 joined :=
                  filter_joinActs rfl (fun _ _ _ => rfl) 0 joined
                rw [← Ended.filter_acts Event.isAct_of_isCall, Run.acts_finish, hpasses.acts,
                  Run.acts_announce, Pipeline.acts_collected hasks hjoins]
                simp [hsetUps, filter_isCall_passActs, ← hmarkers]

/-- An editor whose only edit adds its name to that of the program. -/
def signing (name : String) : Editor Unit where
  name := name
  setUp _ shared := {
    result := .ok ()
    emitted := []
    edits := [fun program _ shared =>
      { result := .ok { program with name := program.name ++ name }, emitted := [], shared }]
    shared }

/-- Two markers with three such editors. -/
def signers : List (Marker Unit) := [
  ⟨"pair", fun shared => (.ok [signing "a", signing "b"], shared)⟩,
  ⟨"single", fun shared => (.ok [signing "c"], shared)⟩]

/-- The editors sign in the order of their markers, each once. -/
theorem calls_of_signers :
    ∃ (asked : List (Asking Unit)) (joined : List (Joining Unit)) (passed : List (Passing Unit)),
      asked.map Asking.marker = signers ∧
      joined.map Joining.entry = roster 0 asked ∧
      passed.map Passing.owned = registered joined ∧
      Relay { name := "p" } (passed.map Passing.programs) { name := "pabc" } ∧
      (({} : Pipeline Unit).run { name := "p" } signers ⟨false, ()⟩ ()).journal.filter
          Event.isCall =
        numbered (.discover · none) 0 2 ++ setUps 0 joined ++ edits 0 passed := by
  have hcompleted : (({} : Pipeline Unit).run { name := "p" } signers ⟨false, ()⟩ ()).outcome =
      .completed { name := "pabc" } ⟨[⟨"a", ⟨0, "pair"⟩, 1⟩, ⟨"b", ⟨0, "pair"⟩, 1⟩,
        ⟨"c", ⟨1, "single"⟩, 1⟩], []⟩ := rfl
  obtain ⟨asked, joined, passed, hmarkers, hroster, -, howned, hprograms, -, hcalls⟩ :=
    calls_of_completed hcompleted
  exact ⟨asked, joined, passed, hmarkers, hroster, howned, hprograms, hcalls⟩

end EditPipeline
