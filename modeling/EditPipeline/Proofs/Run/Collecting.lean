import EditPipeline.Proofs.Run.Acts

/-!
# The collecting phase

`Asks` and `Joins` follow a run through calls that all succeed: of markers, and
of the editors that these gave.  `collects` says how the phase can end: before it
began, at a marker that fails, at a look for cancellation, at an editor that
fails, or with every editor initialized.  In each case the run so far is told by
the calls that succeeded.
-/

namespace EditPipeline

/-! ## Calls that succeeded -/

/-- A marker that gave its editors. -/
structure Asking (σ : Type) where
  marker : Marker σ
  given : Shared σ
  editors : List (Editor σ)
  left : Shared σ
  gave : marker.editors given = (.ok editors, left)

/-- An editor that was initialized. -/
structure Joining (σ : Type) where
  origin : MarkerOrigin
  editor : Editor σ
  program : Program
  given : Shared σ
  succeeded : (editor.setUp program given).result = .ok ()

variable {σ π : Type}

namespace Asking

/-- The memory before and after the call. -/
def memories (asking : Asking σ) : σ × σ := (asking.given.memory, asking.left.memory)

/-- The call of the marker. -/
def inquiry (asking : Asking σ) : Inquiry σ := ⟨asking.marker, asking.given⟩

theorem answer_inquiry (asking : Asking σ) :
    asking.inquiry.answer = (.ok asking.editors, asking.left) := asking.gave

end Asking

/-- The editors that markers gave, counted from `start`, with their origins. -/
def roster (start : Nat) (asked : List (Asking σ)) : List (MarkerOrigin × Editor σ) :=
  (asked.zipIdx start).flatMap fun (asking, index) =>
    asking.editors.map (⟨index, asking.marker.kind⟩, ·)

namespace Joining

/-- What the initialization left behind. -/
def setup (joining : Joining σ) : Setup σ := joining.editor.setUp joining.program joining.given

/-- The editor with its origin. -/
def entry (joining : Joining σ) : MarkerOrigin × Editor σ := (joining.origin, joining.editor)

/-- The memory before and after the call. -/
def memories (joining : Joining σ) : σ × σ :=
  (joining.given.memory, joining.setup.shared.memory)

/-- What the run does for stage number `index`. -/
def acts (joining : Joining σ) (index : Nat) : Journal :=
  [.poll false, .setUp index joining.editor.name joining.program none]

/-- The stage that the editor adds. -/
def stage (joining : Joining σ) : Stage :=
  ⟨joining.origin, ({ stage := joining.editor.name } : Outbox).pushAll joining.setup.emitted⟩

/-- The call of the initialization. -/
def opening (joining : Joining σ) : Opening σ :=
  ⟨joining.origin, joining.editor, joining.program, joining.given⟩

/-- The edits that the editor registers, as links of stage number `index`. -/
def links (joining : Joining σ) (index : Nat) : List (Link σ) :=
  joining.setup.edits.map (Link.mk index)

@[simp] theorem name_stage (joining : Joining σ) :
    joining.stage.name = joining.editor.name := by
  simp [stage, Stage.name, Outbox.pushAll_eq]

end Joining

/-- All edits with the names of their editors, in the order of registration. -/
def registered (joined : List (Joining σ)) : List (String × Edit σ) :=
  joined.flatMap fun joining => joining.setup.edits.map (joining.editor.name, ·)

/-- The links of all edits, where `start` is the number of the first stage. -/
def linksFrom (start : Nat) (joined : List (Joining σ)) : List (Link σ) :=
  (joined.zipIdx start).flatMap fun (joining, index) => joining.links index

/-- What the run does for all stages, where `start` is the number of the first one. -/
def joinActs (start : Nat) (joined : List (Joining σ)) : Journal :=
  (joined.zipIdx start).flatMap fun (joining, index) => joining.acts index

/-- The initializations of all editors, where `start` is the number of the first stage. -/
def setUps (start : Nat) (joined : List (Joining σ)) : Journal :=
  (joined.zipIdx start).map fun (joining, index) =>
    .setUp index joining.editor.name joining.program none

/-- Looks for cancellation apart, what the run does for stages is to initialize
their editors. -/
theorem filter_joinActs {keep : Event → Bool} (hpoll : keep (.poll false) = false)
    (hsetUp : ∀ index name program, keep (.setUp index name program none) = true)
    (start : Nat) (joined : List (Joining σ)) :
    (joinActs start joined).filter keep = setUps start joined := by
  induction joined generalizing start with
  | nil => rfl
  | cons joining rest ih =>
      simp only [joinActs, setUps, List.zipIdx_cons, List.flatMap_cons, List.map_cons,
        List.filter_append] at ih ⊢
      rw [ih, Joining.acts, List.filter_cons_of_neg (by simp [hpoll]),
        List.filter_cons_of_pos (hsetUp _ _ _), List.filter_nil, List.singleton_append]

/-- Stage numbers find the names of the editors that registered the edits. -/
theorem linksFrom_names (stages : List Stage) (joined : List (Joining σ)) :
    (linksFrom stages.length joined).map (fun link =>
        (((stages ++ joined.map Joining.stage).map Stage.name).getD link.stage "", link.edit)) =
      registered joined := by
  induction joined generalizing stages with
  | nil => rfl
  | cons joining rest ih =>
      have hrest := ih (stages ++ [joining.stage])
      simp only [List.length_append, List.length_singleton, List.append_assoc,
        List.singleton_append] at hrest
      simp only [linksFrom, List.zipIdx_cons, List.flatMap_cons, List.map_append,
        List.map_cons, registered] at hrest ⊢
      rw [hrest]
      simp [Joining.links, Function.comp_def]

namespace Run

/-! ## Asking markers -/

/-- Asking markers, counted from `index`, leads from one run to another. -/
inductive Asks : Nat → Run σ π → List (Asking σ) → Run σ π → Prop where
  | nil (index : Nat) (run : Run σ π) : Asks index run [] run
  | cons {index : Nat} {run after : Run σ π} {asked : List (Asking σ)} (asking : Asking σ)
      (hgiven : asking.given = run.sharing)
      (hrest : Asks (index + 1) (run.called (.discover index none) asking.left) asked after) :
      Asks index run (asking :: asked) after

namespace Asks

variable {index : Nat} {run after : Run σ π} {asked : List (Asking σ)}

theorem acts (hasks : Asks index run asked after) :
    after.acts = run.acts ++ numbered (.discover · none) index asked.length := by
  induction hasks with
  | nil => simp
  | cons asking hgiven hrest ih => simp [ih, numbered_succ]

theorem stages (hasks : Asks index run asked after) : after.stages = run.stages := by
  induction hasks with
  | nil => rfl
  | cons asking hgiven hrest ih => simp [ih]

theorem chain (hasks : Asks index run asked after) : after.chain = run.chain := by
  induction hasks with
  | nil => rfl
  | cons asking hgiven hrest ih => simp [ih]

theorem memory (hasks : Asks index run asked after) :
    Relay run.shared.memory (asked.map Asking.memories) after.shared.memory := by
  induction hasks with
  | nil => rfl
  | cons asking hgiven hrest ih => exact ⟨by rw [hgiven]; rfl, ih⟩

theorem covers (plugins : List (Plugin π)) (hasks : Asks index run asked after) :
    Covers plugins run (Act.asks index (asked.map Asking.inquiry)) [] after := by
  induction hasks with
  | nil => exact .refl plugins _
  | @cons index run after asked asking hgiven hrest ih =>
      have hask : Does plugins run (.ask index asking.inquiry)
          (run.called (.discover index none) asking.left) := by
        have hdoes : Does plugins run (.ask index asking.inquiry) _ := .ask index _ hgiven
        rwa [Inquiry.event, asking.answer_inquiry] at hdoes
      exact hask.covers.trans ih

end Asks

/-- How asking markers can end. -/
inductive Discovers (index : Nat) (markers : List (Marker σ)) (run : Run σ π) :
    Except PipelineError (List (MarkerOrigin × Editor σ)) → Run σ π → Prop where
  | all (asked : List (Asking σ)) {after : Run σ π}
      (hmarkers : asked.map Asking.marker = markers) (hasks : Asks index run asked after) :
      Discovers index markers run (.ok (roster index asked)) after
  | refused (asked : List (Asking σ)) {marker : Marker σ} {rest : List (Marker σ)}
      {before : Run σ π} {source : Failure} {shared : Shared σ}
      (hmarkers : asked.map Asking.marker ++ marker :: rest = markers)
      (hasks : Asks index run asked before)
      (hfails : marker.editors before.sharing = (.error source, shared)) :
      Discovers index markers run
        (.error (.stageInitialization ⟨index + asked.length, marker.kind⟩ none source))
        (before.called (.discover (index + asked.length) (some source)) shared)

theorem discovers (index : Nat) (markers : List (Marker σ)) (run : Run σ π) :
    Discovers index markers run (discover index markers run).1 (discover index markers run).2 := by
  induction markers generalizing index run with
  | nil => exact .all [] rfl (.nil index run)
  | cons marker rest ih =>
      unfold discover
      cases hcall : marker.editors run.sharing with
      | mk result shared =>
          cases result with
          | error source => exact .refused [] rfl (.nil index run) hcall
          | ok editors =>
              -- the marker succeeds, and the rest tells how asking ends
              let asking : Asking σ := ⟨marker, run.sharing, editors, shared, hcall⟩
              have hdiscovers := ih (index + 1) (run.called (.discover index none) shared)
              dsimp only
              generalize discover (index + 1) rest _ = discovered at hdiscovers ⊢
              obtain ⟨result, after⟩ := discovered
              cases hdiscovers with
              | all asked hmarkers hasks =>
                  exact .all (asking :: asked) (by simp [hmarkers, asking])
                    (.cons asking rfl hasks)
              | refused asked hmarkers hasks hfails =>
                  have hcount : index + 1 + asked.length = index + (asking :: asked).length := by
                    simp only [List.length_cons]
                    omega
                  dsimp only
                  rw [hcount]
                  exact .refused (asking :: asked) (by rw [← hmarkers]; rfl)
                    (.cons asking rfl hasks) hfails

/-! ## Initializing editors -/

/-- Initializing editors leads from one run to another. -/
inductive Joins (program : Program) : Run σ π → List (Joining σ) → Run σ π → Prop where
  | nil (run : Run σ π) : Joins program run [] run
  | cons {run after : Run σ π} {joined : List (Joining σ)} (joining : Joining σ)
      (hgoes : run.cancelled = false) (hprogram : joining.program = program)
      (hgiven : joining.given = run.poll.sharing)
      (hrest : Joins program
        (run.poll.enroll joining.origin joining.editor.name program joining.setup) joined after) :
      Joins program run (joining :: joined) after

namespace Joins

variable {program : Program} {run after : Run σ π} {joined : List (Joining σ)}

theorem program_eq (hjoins : Joins program run joined after) :
    ∀ joining ∈ joined, joining.program = program := by
  induction hjoins with
  | nil => simp
  | cons joining hgoes hprogram hgiven hrest ih => simpa [hprogram] using ih

theorem stages (hjoins : Joins program run joined after) :
    after.stages = run.stages ++ joined.map Joining.stage := by
  induction hjoins with
  | nil => simp
  | cons joining hgoes hprogram hgiven hrest ih => simp [ih, Joining.stage]

theorem acts (hjoins : Joins program run joined after) :
    after.acts = run.acts ++ joinActs run.stages.length joined := by
  induction hjoins with
  | nil => simp [joinActs]
  | cons joining hgoes hprogram hgiven hrest ih =>
      have hsucceeded : joining.setup.result = .ok () := joining.succeeded
      simp [ih, joinActs, List.zipIdx_cons, Joining.acts, hgoes, hsucceeded, Failure.of?, hprogram]

theorem chain (hjoins : Joins program run joined after) :
    after.chain = run.chain ++ linksFrom run.stages.length joined := by
  induction hjoins with
  | nil => simp [linksFrom]
  | cons joining hgoes hprogram hgiven hrest ih =>
      simp [ih, linksFrom, List.zipIdx_cons, Joining.links]

/-- In a run that had no stages, the links of the chain tell who registered them. -/
theorem owners (hjoins : Joins program run joined after) (hstages : run.stages = [])
    (hchain : run.chain = []) :
    after.chain.map (fun link => (after.names.getD link.stage "", link.edit)) =
      registered joined := by
  have hlinks := linksFrom_names [] joined
  rw [hjoins.chain, names, hjoins.stages, hstages, hchain]
  simpa using hlinks

theorem memory (hjoins : Joins program run joined after) :
    Relay run.shared.memory (joined.map Joining.memories) after.shared.memory := by
  induction hjoins with
  | nil => rfl
  | cons joining hgoes hprogram hgiven hrest ih => exact ⟨by rw [hgiven]; rfl, ih⟩

theorem covers (plugins : List (Plugin π)) (hjoins : Joins program run joined after) :
    Covers plugins run (Act.setUps run.stages.length (joined.map Joining.opening))
      (List.replicate joined.length false) after := by
  induction hjoins with
  | nil => exact .refl plugins _
  | @cons run after joined joining hgoes hprogram hgiven hrest ih =>
      subst hprogram
      have hlook : Does plugins run (.look false) run.poll := hgoes ▸ .look
      have hsetUp : Does plugins run.poll (.setUp run.stages.length joining.opening) _ :=
        .setUp joining.opening hgiven
      rw [stages_enroll, List.length_append] at ih
      exact (hlook.covers.trans hsetUp.covers).trans ih

end Joins

/-- How initializing editors can end. -/
inductive SetsUp (program : Program) (entries : List (MarkerOrigin × Editor σ))
    (run : Run σ π) : Except PipelineError Unit → Run σ π → Prop where
  | all (joined : List (Joining σ)) {after : Run σ π}
      (hentries : joined.map Joining.entry = entries) (hjoins : Joins program run joined after) :
      SetsUp program entries run (.ok ()) after
  | cut (joined : List (Joining σ)) {entry : MarkerOrigin × Editor σ}
      {rest : List (MarkerOrigin × Editor σ)} {before : Run σ π}
      (hentries : joined.map Joining.entry ++ entry :: rest = entries)
      (hjoins : Joins program run joined before) (hstops : before.cancelled = true) :
      SetsUp program entries run (.error .cancelled) before.poll
  | failed (joined : List (Joining σ)) {origin : MarkerOrigin} {editor : Editor σ}
      {rest : List (MarkerOrigin × Editor σ)} {before : Run σ π} {failure : Failure}
      (hentries : joined.map Joining.entry ++ (origin, editor) :: rest = entries)
      (hjoins : Joins program run joined before) (hgoes : before.cancelled = false)
      (hfails : (editor.setUp program before.poll.sharing).result = .error failure) :
      SetsUp program entries run (.error (setupError origin editor.name failure))
        (before.poll.enroll origin editor.name program
          (editor.setUp program before.poll.sharing))

theorem setsUp (program : Program) (entries : List (MarkerOrigin × Editor σ))
    (run : Run σ π) :
    SetsUp program entries run (setUpAll program entries run).1
      (setUpAll program entries run).2 := by
  induction entries generalizing run with
  | nil => exact .all [] rfl (.nil run)
  | cons entry rest ih =>
      obtain ⟨origin, editor⟩ := entry
      unfold setUpAll
      cases hcancelled : run.cancelled with
      | true => exact .cut [] rfl (.nil run) hcancelled
      | false =>
          cases hcall : (editor.setUp program run.poll.sharing).result with
          | error failure =>
              simp only [hcall, Bool.false_eq_true, if_false]
              exact .failed [] rfl (.nil run) hcancelled hcall
          | ok done =>
              let joining : Joining σ := ⟨origin, editor, program, run.poll.sharing, hcall⟩
              have hsetsUp := ih (run.poll.enroll origin editor.name program joining.setup)
              simp only [hcall, Bool.false_eq_true, if_false]
              change SetsUp program _ run (setUpAll program rest (enroll _ _ _ joining.setup _)).1
                (setUpAll program rest (enroll _ _ _ joining.setup _)).2
              generalize setUpAll program rest _ = ended at hsetsUp ⊢
              obtain ⟨result, after⟩ := ended
              have hjoin {joined : List (Joining σ)} {after : Run σ π}
                  (hjoins : Joins program
                    (run.poll.enroll origin editor.name program joining.setup) joined after) :
                  Joins program run (joining :: joined) after :=
                .cons joining hcancelled rfl rfl hjoins
              cases hsetsUp with
              | all joined hentries hjoins =>
                  exact .all (joining :: joined) (by rw [← hentries]; rfl) (hjoin hjoins)
              | cut joined hentries hjoins hstops =>
                  exact .cut (joining :: joined) (by rw [← hentries]; rfl) (hjoin hjoins)
                    hstops
              | failed joined hentries hjoins hgoes hfails =>
                  exact .failed (joining :: joined) (by rw [← hentries]; rfl)
                    (hjoin hjoins) hgoes hfails

/-! ## The phase as a whole -/

/-- How collecting can end. -/
inductive Collects (program : Program) (markers : List (Marker σ)) (run : Run σ π) :
    Except PipelineError Unit → Run σ π → Prop where
  /-- Cancellation had been requested before. -/
  | stopped (hstops : run.cancelled = true) :
      Collects program markers run (.error .cancelled) run.poll
  /-- A marker failed. -/
  | refused {asked : List (Asking σ)} {marker : Marker σ} {rest : List (Marker σ)}
      {before : Run σ π} {source : Failure} {shared : Shared σ}
      (hgoes : run.cancelled = false)
      (hmarkers : asked.map Asking.marker ++ marker :: rest = markers)
      (hasks : Asks 0 run.poll asked before)
      (hfails : marker.editors before.sharing = (.error source, shared)) :
      Collects program markers run
        (.error (.stageInitialization ⟨asked.length, marker.kind⟩ none source))
        (before.called (.discover asked.length (some source)) shared)
  /-- Cancellation had been requested before one of the editors. -/
  | cut {asked : List (Asking σ)} {joined : List (Joining σ)}
      {entry : MarkerOrigin × Editor σ} {rest : List (MarkerOrigin × Editor σ)}
      {between before : Run σ π}
      (hgoes : run.cancelled = false)
      (hmarkers : asked.map Asking.marker = markers) (hasks : Asks 0 run.poll asked between)
      (hroster : joined.map Joining.entry ++ entry :: rest = roster 0 asked)
      (hjoins : Joins program between joined before) (hstops : before.cancelled = true) :
      Collects program markers run (.error .cancelled) before.poll
  /-- An editor failed. -/
  | failed {asked : List (Asking σ)} {joined : List (Joining σ)} {origin : MarkerOrigin}
      {editor : Editor σ} {rest : List (MarkerOrigin × Editor σ)} {between before : Run σ π}
      {failure : Failure}
      (hgoes : run.cancelled = false)
      (hmarkers : asked.map Asking.marker = markers) (hasks : Asks 0 run.poll asked between)
      (hroster : joined.map Joining.entry ++ (origin, editor) :: rest = roster 0 asked)
      (hjoins : Joins program between joined before) (hjoined : before.cancelled = false)
      (hfails : (editor.setUp program before.poll.sharing).result = .error failure) :
      Collects program markers run (.error (setupError origin editor.name failure))
        (before.poll.enroll origin editor.name program
          (editor.setUp program before.poll.sharing))
  /-- Every editor was initialized. -/
  | done {asked : List (Asking σ)} {joined : List (Joining σ)} {between after : Run σ π}
      (hgoes : run.cancelled = false)
      (hmarkers : asked.map Asking.marker = markers) (hasks : Asks 0 run.poll asked between)
      (hroster : joined.map Joining.entry = roster 0 asked)
      (hjoins : Joins program between joined after) :
      Collects program markers run (.ok ()) after

theorem collects (program : Program) (markers : List (Marker σ)) (run : Run σ π) :
    Collects program markers run (run.collect program markers).1
      (run.collect program markers).2 := by
  unfold collect
  cases hcancelled : run.cancelled with
  | true => exact .stopped hcancelled
  | false =>
      simp only [Bool.false_eq_true, if_false]
      have hdiscovers := discovers 0 markers run.poll
      generalize discover 0 markers run.poll = discovered at hdiscovers ⊢
      obtain ⟨found, between⟩ := discovered
      cases hdiscovers with
      | refused asked hmarkers hasks hfails =>
          simp only [Nat.zero_add]
          exact .refused hcancelled hmarkers hasks hfails
      | all asked hmarkers hasks =>
          have hsetsUp := setsUp program (roster 0 asked) between
          dsimp only
          generalize setUpAll program (roster 0 asked) between = ended at hsetsUp ⊢
          obtain ⟨result, after⟩ := ended
          cases hsetsUp with
          | all joined hroster hjoins => exact .done hcancelled hmarkers hasks hroster hjoins
          | cut joined hroster hjoins hstops =>
              exact .cut hcancelled hmarkers hasks hroster hjoins hstops
          | failed joined hroster hjoins hgoes hfails =>
              exact .failed hcancelled hmarkers hasks hroster hjoins hgoes hfails

end Run

end EditPipeline
