import EditPipeline.Proofs.Run.Ending

/-!
# What a failed run blames

The error of a run that failed names a marker, an editor or an edit, and that is
where the run stopped: everything before it was called once, in order, and
succeeded; nothing after it was called at all.  `MarkerBlamed`, `EditorBlamed` and
`EditBlamed` say this of the three kinds of errors, for a journal.
-/

namespace EditPipeline

variable {σ π : Type}

/-! ## Three kinds of blame -/

/-- Marker `origin` is the first one that failed, and no editor was initialized. -/
def MarkerBlamed (markers : List (Marker σ)) (memory : σ) (journal : Journal)
    (origin : MarkerOrigin) (failure : Failure) : Prop :=
  ∃ (asked : List (Asking σ)) (marker : Marker σ) (rest : List (Marker σ))
      (given left : Shared σ),
    asked.map Asking.marker ++ marker :: rest = markers ∧
    origin = ⟨asked.length, marker.kind⟩ ∧
    Relay memory (asked.map Asking.memories) given.memory ∧
    marker.editors given = (.error failure, left) ∧
    journal.filter Event.isWork =
      numbered (.discover · none) 0 asked.length ++ [.discover asked.length (some failure)]

/-- The editor called `name` of marker `origin` is the first one that failed, and
no edit was called. -/
def EditorBlamed (program : Program) (markers : List (Marker σ)) (memory : σ)
    (journal : Journal) (origin : MarkerOrigin) (name : String) (failure : Failure) : Prop :=
  ∃ (asked : List (Asking σ)) (joined : List (Joining σ)) (editor : Editor σ)
      (rest : List (MarkerOrigin × Editor σ)) (given : Shared σ),
    asked.map Asking.marker = markers ∧
    joined.map Joining.entry ++ (origin, editor) :: rest = roster 0 asked ∧
    editor.name = name ∧
    (∀ joining ∈ joined, joining.program = program) ∧
    Relay memory (asked.map Asking.memories ++ joined.map Joining.memories) given.memory ∧
    (editor.setUp program given).result = .error failure ∧
    failure.isCancelled = false ∧
    journal.filter Event.isWork =
      numbered (.discover · none) 0 markers.length ++ setUps 0 joined ++
        [.setUp joined.length name program (some failure)]

/-- Edit number `index`, registered by an editor called `stage`, is the first one
that failed or that a hook failed for. -/
def EditBlamed (plugins : List (Plugin π)) (program : Program) (markers : List (Marker σ))
    (memory : σ) (journal : Journal) (stage : String) (index : Nat) (failure : Failure) : Prop :=
  ∃ (asked : List (Asking σ)) (joined : List (Joining σ)) (passed : List (Passing σ))
      (edit : Edit σ) (rest : List (String × Edit σ)) (current : Program) (left : σ)
      (failing : Journal),
    asked.map Asking.marker = markers ∧
    joined.map Joining.entry = roster 0 asked ∧
    (∀ joining ∈ joined, joining.program = program) ∧
    passed.map Passing.owned ++ (stage, edit) :: rest = registered joined ∧
    passed.length = index ∧
    Relay program (passed.map Passing.programs) current ∧
    Relay memory
      (asked.map Asking.memories ++ joined.map Joining.memories ++ passed.map Passing.memories)
      left ∧
    Run.FailingEdit plugins ⟨index, stage⟩ edit current left (.editFailure stage index failure)
      failing ∧
    journal.filter Event.isWork =
      numbered (.discover · none) 0 markers.length ++ setUps 0 joined ++
        works plugins.length 0 passed ++ failing

/-! ## The calls among the acts -/

@[simp] private theorem isWork_phases (phase : Phase) (start count : Nat) :
    (numbered (.phase · phase) start count).filter Event.isWork = [] :=
  filter_numbered_of_neg (fun _ => rfl) start count

@[simp] private theorem isWork_discoveries (start count : Nat) :
    (numbered (.discover · none) start count).filter Event.isWork =
      numbered (.discover · none) start count :=
  filter_numbered_of_pos (fun _ => rfl) start count

@[simp] private theorem isWork_befores (info : EditInfo) (program : Program)
    (start count : Nat) :
    (numbered (.before · info program none) start count).filter Event.isWork =
      numbered (.before · info program none) start count :=
  filter_numbered_of_pos (fun _ => rfl) start count

@[simp] private theorem isWork_afters (info : EditInfo) (program : Program)
    (start count : Nat) :
    (numbered (.after · info program none) start count).filter Event.isWork =
      numbered (.after · info program none) start count :=
  filter_numbered_of_pos (fun _ => rfl) start count

@[simp] private theorem isWork_joinActs (start : Nat) (joined : List (Joining σ)) :
    (joinActs start joined).filter Event.isWork = setUps start joined :=
  filter_joinActs rfl (fun _ _ _ => rfl) start joined

@[simp] private theorem isWork_passActs (count start : Nat) (passed : List (Passing σ)) :
    (passActs count start passed).filter Event.isWork = works count start passed :=
  filter_passActs (fun passing index => passing.work count index)
    (fun _ _ => by simp [Passing.acts, Passing.work, List.filter_cons]) start passed

/-- The phases around it apart, the calls of a run are among what it did before it ended. -/
private theorem work_finish {α : Type} (plugins : List (Plugin π)) (outcome : Findings → α)
    (run : Run σ π) :
    (run.finish plugins outcome).journal.filter Event.isWork = run.acts.filter Event.isWork := by
  rw [← Ended.filter_acts Event.isAct_of_isWork, Run.acts_finish]
  simp

/-! ## Blame in the collecting phase -/

section Collecting

variable {pipeline : Pipeline π} {program : Program} {markers : List (Marker σ)}
  {shared : Shared σ} {watch : π} {stopAt : Option Nat} {after : Run σ π}

theorem markerBlamed_of_collects {origin : MarkerOrigin} {failure : Failure}
    {result : Except PipelineError Unit}
    (hcollects : (pipeline.start shared watch stopAt).Collects program markers result after)
    (hresult : result = .error (.stageInitialization origin none failure)) :
    MarkerBlamed markers shared.memory after.acts origin failure := by
  cases hcollects with
  | stopped hstops => simp at hresult
  | cut hgoes hmarkers hasks hroster hjoins hstops => simp at hresult
  | failed hgoes hmarkers hasks hroster hjoins hjoined hfails =>
      unfold Run.setupError at hresult
      split at hresult <;> simp at hresult
  | done hgoes hmarkers hasks hroster hjoins => simp at hresult
  | @refused asked marker rest before source left hgoes hmarkers hasks hfails =>
      simp only [Except.error.injEq, PipelineError.stageInitialization.injEq, true_and] at hresult
      obtain ⟨rfl, rfl⟩ := hresult
      have hmemory : Relay shared.memory (asked.map Asking.memories) before.shared.memory := by
        simpa using hasks.memory
      refine ⟨asked, marker, rest, before.sharing, left, hmarkers, rfl, hmemory, hfails, ?_⟩
      rw [Run.acts_called, hasks.acts]
      simp

theorem editorBlamed_of_collects {origin : MarkerOrigin} {name : String} {failure : Failure}
    {result : Except PipelineError Unit}
    (hcollects : (pipeline.start shared watch stopAt).Collects program markers result after)
    (hresult : result = .error (.stageInitialization origin (some name) failure)) :
    EditorBlamed program markers shared.memory after.acts origin name failure := by
  cases hcollects with
  | stopped hstops => simp at hresult
  | cut hgoes hmarkers hasks hroster hjoins hstops => simp at hresult
  | refused hgoes hmarkers hasks hfails => simp at hresult
  | done hgoes hmarkers hasks hroster hjoins => simp at hresult
  | @failed asked joined owner editor rest between before source hgoes hmarkers hasks hroster
      hjoins hjoined hfails =>
      unfold Run.setupError at hresult
      split at hresult
      · simp at hresult
      · rename_i hcause
        simp only [Except.error.injEq, PipelineError.stageInitialization.injEq,
          Option.some.injEq] at hresult
        obtain ⟨rfl, rfl, rfl⟩ := hresult
        refine ⟨asked, joined, editor, rest, before.poll.sharing, hmarkers, hroster, rfl,
          hjoins.program_eq, ?_, hfails, by simpa using hcause, ?_⟩
        · simpa using Pipeline.memory_collected hasks hjoins
        · have hstages : before.stages.length = joined.length := by
            simp [hjoins.stages, hasks.stages]
          rw [Run.acts_enroll, Run.acts_poll, Pipeline.acts_collected hasks hjoins, hfails]
          simp [hstages, ← hmarkers]

/-- Nothing is applied while collecting. -/
theorem no_editFailure_of_collects {stage : String} {index : Nat} {failure : Failure}
    {result : Except PipelineError Unit}
    (hcollects : (pipeline.start shared watch stopAt).Collects program markers result after) :
    result ≠ .error (.editFailure stage index failure) := by
  cases hcollects with
  | failed hgoes hmarkers hasks hroster hjoins hjoined hfails =>
      unfold Run.setupError
      split <;> simp
  | _ => simp

end Collecting

/-! ## Blame in the executing phase -/

private theorem isWork_failing {plugins : List (Plugin π)} {info : EditInfo} {edit : Edit σ}
    {program : Program} {memory : σ} {error : PipelineError} {failing : Journal}
    (hfailing : Run.FailingEdit plugins info edit program memory error failing) :
    failing.filter Event.isWork = failing := by
  cases hfailing <;> simp [List.filter_cons]

/-- Nothing is initialized while executing. -/
theorem no_stageInitialization_of_executes {plugins : List (Plugin π)} {index : Nat}
    {links : List (Link σ)} {program : Program} {run after : Run σ π}
    {result : Except PipelineError Program} {origin : MarkerOrigin} {name : Option String}
    {failure : Failure}
    (hexecutes : run.Executes plugins index links program result after) :
    result ≠ .error (.stageInitialization origin name failure) := by
  cases hexecutes with
  | all passed hlinks hpasses => simp
  | cut passed hlinks hpasses hstops => simp
  | failed passed hlinks hpasses hgoes happlies =>
      cases happlies with
      | editFailed hinfo hhears hfails =>
          unfold Run.editError
          split <;> simp
      | _ => simp

theorem editBlamed_of_executes {pipeline : Pipeline π} {program : Program}
    {markers : List (Marker σ)} {shared : Shared σ} {watch : π} {stopAt : Option Nat}
    {collected after : Run σ π} {error : PipelineError} {stage : String} {index : Nat}
    {failure : Failure}
    (hcollects : (pipeline.start shared watch stopAt).Collects program markers (.ok ()) collected)
    (hexecutes : (collected.announce .executing 0 pipeline.plugins).Executes pipeline.plugins 0
      collected.chain program (.error error) after)
    (herror : error = .editFailure stage index failure) :
    EditBlamed pipeline.plugins program markers shared.memory after.acts stage index failure := by
  cases hcollects with
  | @done asked joined between _ hgoes hmarkers hasks hroster hjoins =>
      cases hexecutes with
      | cut passed hlinks hpasses hstops => simp at herror
      | @failed passed link rest current before _ _ hlinks hpasses hgoes happlies =>
          subst herror
          obtain ⟨failing, hfailing, hacts⟩ := happlies.failing rfl
          obtain ⟨rfl, rfl⟩ := EditInfo.mk.inj hfailing.info_eq
          -- no edit renames a stage, so the failing one has the name it was registered under
          have hname : (before.poll.outbox link.stage).stage =
              collected.names.getD link.stage "" := by
            rw [Run.stage_outbox, show before.poll.names = before.names from rfl, hpasses.names]
            simp [Run.names]
          have howned : registered joined = passed.map Passing.owned ++
              ((before.poll.outbox link.stage).stage, link.edit) :: rest.map fun link =>
                (collected.names.getD link.stage "", link.edit) := by
            rw [← Pipeline.owners_collected hasks hjoins, ← hlinks, hpasses.owners, hname]
            simp [Run.names]
          refine ⟨asked, joined, passed, link.edit, _, current, before.shared.memory, failing,
            hmarkers, hroster, hjoins.program_eq, howned.symm, (Nat.zero_add _).symm,
            hpasses.programs, ?_, hfailing, ?_⟩
          · have hmemory := (Pipeline.memory_collected hasks hjoins).append
              (by simpa using hpasses.memory)
            simpa using hmemory
          · rw [hacts, Run.acts_poll, hpasses.acts, Run.acts_announce,
              Pipeline.acts_collected hasks hjoins]
            simp [isWork_failing hfailing, ← hmarkers]

/-! ## Main statement -/

/-- **A failed run blames the call that failed.**  Whichever marker, editor or edit
the error of a run names, the run called everything before it, once and in order,
and nothing after it. -/
theorem blame_of_aborted {pipeline : Pipeline π} {program : Program}
    {markers : List (Marker σ)} {shared : Shared σ} {watch : π} {stopAt : Option Nat}
    {error : PipelineError} {findings : Findings}
    (haborted : (pipeline.run program markers shared watch stopAt).outcome =
      .aborted error findings) :
    (∀ origin failure, error = .stageInitialization origin none failure →
      MarkerBlamed markers shared.memory
        (pipeline.run program markers shared watch stopAt).journal origin failure) ∧
    (∀ origin name failure, error = .stageInitialization origin (some name) failure →
      EditorBlamed program markers shared.memory
        (pipeline.run program markers shared watch stopAt).journal origin name failure) ∧
    (∀ stage index failure, error = .editFailure stage index failure →
      EditBlamed pipeline.plugins program markers shared.memory
        (pipeline.run program markers shared watch stopAt).journal stage index failure) := by
  have hends := pipeline.ends program markers shared watch stopAt
  generalize pipeline.run program markers shared watch stopAt = ended at hends haborted ⊢
  cases hends with
  | completed hcollects hexecutes => simp at haborted
  | collecting hcollects =>
      simp only [Run.outcome_finish, Outcome.aborted.injEq] at haborted
      obtain ⟨rfl, -⟩ := haborted
      unfold MarkerBlamed EditorBlamed
      rw [work_finish]
      refine ⟨?_, ?_, ?_⟩
      · rintro origin failure rfl
        exact markerBlamed_of_collects hcollects rfl
      · rintro origin name failure rfl
        exact editorBlamed_of_collects hcollects rfl
      · rintro stage index failure rfl
        exact absurd rfl (no_editFailure_of_collects hcollects)
  | executing hcollects hexecutes =>
      simp only [Run.outcome_finish, Outcome.aborted.injEq] at haborted
      obtain ⟨rfl, -⟩ := haborted
      refine ⟨?_, ?_, ?_⟩
      · rintro origin failure rfl
        exact absurd rfl (no_stageInitialization_of_executes hexecutes)
      · rintro origin name failure rfl
        exact absurd rfl (no_stageInitialization_of_executes hexecutes)
      · rintro stage index failure rfl
        unfold EditBlamed
        rw [work_finish]
        exact editBlamed_of_executes hcollects hexecutes rfl

/-- A marker whose only editor registers an edit that does nothing and one that fails. -/
def faulty : Marker Unit where
  kind := "faulty"
  editors shared := (.ok [{
    name := "a"
    setUp := fun _ shared => {
      result := .ok ()
      emitted := []
      edits := [
        fun program _ shared => { result := .ok program, emitted := [], shared },
        fun _ _ shared => { result := .error (.message "broken"), emitted := [], shared }]
      shared } }], shared)

/-- The second edit is blamed, after a plugin has heard of the first one twice. -/
theorem blame_of_faulty :
    EditBlamed [(Plugin.quiet : Plugin Unit)] { name := "p" } [faulty] ()
      (({ plugins := [.quiet] } : Pipeline Unit).run { name := "p" } [faulty] ⟨false, ()⟩
        ()).journal
      "a" 1 (.message "broken") := by
  have haborted : (({ plugins := [.quiet] } : Pipeline Unit).run { name := "p" } [faulty]
      ⟨false, ()⟩ ()).outcome =
      .aborted (.editFailure "a" 1 (.message "broken")) ⟨[⟨"a", ⟨0, "faulty"⟩, 2⟩], []⟩ := rfl
  exact (blame_of_aborted haborted).2.2 "a" 1 (.message "broken") rfl

end EditPipeline
