import EditPipeline.Proofs.Run.Looks
import EditPipeline.Proofs.Run.Transcript

/-!
# What plugins hear of a run

All plugins hear of all phases, and of every edit before and after it, in the order
in which they are listed, until one of them fails.  The calls of a run to its plugins,
with the calls of edits in between, make up its trace.  `EditTrace` and `RunTrace` are
the grammar of traces; they also say which trace goes with which outcome.

The grammar is one of entries in the journal.  By `Ended.Heard` each of them is a call that
was made: the plugin with that number got it, and remembers what it made of it when the next
one is called.
-/

namespace EditPipeline

variable {σ π : Type}

/-- Whether an event is something that a plugin heard, or a call of an edit. -/
@[simp] def Event.isTraced : Event → Bool
  | .phase .. => true
  | .before .. => true
  | .edit .. => true
  | .after .. => true
  | _ => false

theorem Event.isAct_of_isTraced (event : Event) (htraced : event.isTraced = true) :
    event.isAct = true := by
  cases event <;> simp_all

/-! ## The grammar -/

/-- The first `count` plugins hear of a phase. -/
def phases (phase : Phase) (count : Nat) : Journal := numbered (.phase · phase) 0 count

/-- The first `count` plugins hear of an edit and the program that it is about to get. -/
def befores (info : EditInfo) (program : Program) (count : Nat) : Journal :=
  numbered (.before · info program none) 0 count

/-- The first `count` plugins hear of an edit and the program that it gave. -/
def afters (info : EditInfo) (next : Program) (count : Nat) : Journal :=
  numbered (.after · info next none) 0 count

/-- Traces of a chain from edit number `index` on, and what they lead to.  The edits
were registered by editors with these names, the first one is to get `program`, and
`count` plugins watch. -/
inductive EditTrace (count : Nat) : Nat → List String → Program → Journal →
    Except PipelineError Program → Prop where
  /-- No edit is left. -/
  | done (index : Nat) (program : Program) : EditTrace count index [] program [] (.ok program)
  /-- Cancellation had been requested before the edit, and nobody hears of it. -/
  | cancelled (index : Nat) (stage : String) (names : List String) (program : Program) :
      EditTrace count index (stage :: names) program [] (.error .cancelled)
  /-- Plugin number `failing` fails before the edit. -/
  | beforeFailed {index failing : Nat} {stage : String} {names : List String}
      {program : Program} {failure : Failure} (hfailing : failing < count) :
      EditTrace count index (stage :: names) program
        (befores ⟨index, stage⟩ program failing ++
          [.before failing ⟨index, stage⟩ program (some failure)])
        (.error (.editFailure stage index failure))
  /-- The edit fails. -/
  | editFailed {index : Nat} {stage : String} {names : List String} {program : Program}
      {failure : Failure} :
      EditTrace count index (stage :: names) program
        (befores ⟨index, stage⟩ program count ++ [.edit index program (.error failure)])
        (.error (Run.editError ⟨index, stage⟩ failure))
  /-- Plugin number `failing` fails after the edit. -/
  | afterFailed {index failing : Nat} {stage : String} {names : List String}
      {program next : Program} {failure : Failure} (hfailing : failing < count) :
      EditTrace count index (stage :: names) program
        (befores ⟨index, stage⟩ program count ++ .edit index program (.ok next) ::
          (afters ⟨index, stage⟩ next failing ++
            [.after failing ⟨index, stage⟩ next (some failure)]))
        (.error (.editFailure stage index failure))
  /-- The edit and all hooks around it succeed, and the next edit gets what it gave. -/
  | passed {index : Nat} {stage : String} {names : List String} {program next : Program}
      {rest : Journal} {result : Except PipelineError Program}
      (hrest : EditTrace count (index + 1) names next rest result) :
      EditTrace count index (stage :: names) program
        (befores ⟨index, stage⟩ program count ++ .edit index program (.ok next) ::
          (afters ⟨index, stage⟩ next count ++ rest))
        result

/-- Traces of a run that collected with this result, and then had a chain registered
by editors with these names. -/
inductive RunTrace (count : Nat) (program : Program) (names : List String) :
    Except PipelineError Unit → Journal → Outcome → Prop where
  | collecting {error : PipelineError} {findings : Findings} :
      RunTrace count program names (.error error) (phases .collecting count ++ phases .done count)
        (.aborted error findings)
  | executing {edits : Journal} {outcome : Outcome}
      (hedits : EditTrace count 0 names program edits outcome.result) :
      RunTrace count program names (.ok ())
        (phases .collecting count ++ phases .executing count ++ edits ++ phases .done count)
        outcome

/-- The trace of a run is that of its acts, as far as they reach. -/
def Ended.Heard {α : Type} (ended : Ended σ π α) (plugins : List (Plugin π)) (shared : Shared σ)
    (watch : π) (stopAt : Option Nat) (reached : Extent σ → Prop) : Prop :=
  ∃ (extent : Extent σ) (acts : List (Act σ π)),
    reached extent ∧ ended.Transcript plugins shared watch stopAt extent acts ∧
    ended.journal.filter Event.isTraced = (acts.map Act.event).filter Event.isTraced

/-! ## Traces of the executing phase -/

namespace Run

/-- The trace of the run so far. -/
def trace (run : Run σ π) : Journal := run.acts.filter Event.isTraced

/-- The names of the editors that registered the edits of the chain. -/
def owners (run : Run σ π) : List String :=
  run.chain.map fun link => (run.outbox link.stage).stage

@[simp] private theorem isTraced_befores (info : EditInfo) (program : Program)
    (start count : Nat) :
    (numbered (.before · info program none) start count).filter Event.isTraced =
      numbered (.before · info program none) start count :=
  filter_numbered_of_pos (fun _ => rfl) start count

@[simp] private theorem isTraced_afters (info : EditInfo) (next : Program)
    (start count : Nat) :
    (numbered (.after · info next none) start count).filter Event.isTraced =
      numbered (.after · info next none) start count :=
  filter_numbered_of_pos (fun _ => rfl) start count

@[simp] private theorem isTraced_phases (phase : Phase) (start count : Nat) :
    (numbered (.phase · phase) start count).filter Event.isTraced =
      numbered (.phase · phase) start count :=
  filter_numbered_of_pos (fun _ => rfl) start count

@[simp] private theorem isTraced_discoveries (start count : Nat) :
    (numbered (.discover · none) start count).filter Event.isTraced = [] :=
  filter_numbered_of_neg (fun _ => rfl) start count

@[simp] private theorem isTraced_joinActs (start : Nat) (joined : List (Joining σ)) :
    (joinActs start joined).filter Event.isTraced = [] := by
  refine List.filter_eq_nil_iff.2 fun event hevent => ?_
  obtain ⟨⟨joining, index⟩, -, hevent⟩ := List.mem_flatMap.1 hevent
  simp only [Joining.acts, List.mem_cons, List.not_mem_nil, or_false] at hevent
  rcases hevent with rfl | rfl <;> simp

@[simp] private theorem isTraced_passActs (count start : Nat) (passed : List (Passing σ)) :
    (passActs count start passed).filter Event.isTraced = works count start passed :=
  filter_passActs (fun passing index => passing.work count index)
    (fun _ _ => by simp [Passing.acts, Passing.work, List.filter_cons]) start passed

theorem FailingEdit.trace {plugins : List (Plugin π)} {info : EditInfo} {edit : Edit σ}
    {program : Program} {memory : σ} {error : PipelineError} {failing : Journal}
    (hfailing : FailingEdit plugins info edit program memory error failing)
    (names : List String) :
    EditTrace plugins.length info.index (info.stage :: names) program failing (.error error) ∧
      failing.filter Event.isTraced = failing := by
  have hlt {done rest : List (Plugin π)} {plugin : Plugin π}
      (hplugins : done ++ plugin :: rest = plugins) : done.length < plugins.length := by
    rw [← hplugins, List.length_append, List.length_cons]
    omega
  cases hfailing with
  | before hplugins hfails =>
      exact ⟨.beforeFailed (hlt hplugins), by simp [List.filter_cons]⟩
  | @edit outbox given failure hstage hmemory hfails hcause =>
      have herror : editError info failure = .editFailure info.stage info.index failure := by
        simp [editError, hcause]
      rw [← herror]
      exact ⟨.editFailed, by simp [List.filter_cons]⟩
  | @cancelled outbox given failure hstage hmemory hfails hcause =>
      have herror : editError info failure = .cancelled := by simp [editError, hcause]
      rw [← herror]
      exact ⟨.editFailed, by simp [List.filter_cons]⟩
  | after hstage hmemory hedit hplugins hfails =>
      exact ⟨.afterFailed (hlt hplugins), by simp [List.filter_cons]⟩

/-- Edits that succeed come before what is left of the chain. -/
theorem Passes.trace {plugins : List (Plugin π)} {index : Nat} {program current : Program}
    {run after : Run σ π} {passed : List (Passing σ)} {names : List String} {rest : Journal}
    {result : Except PipelineError Program}
    (hpasses : Passes plugins index program run passed current after)
    (hrest : EditTrace plugins.length (index + passed.length) names current rest result) :
    EditTrace plugins.length index (passed.map (·.outbox.stage) ++ names) program
      (works plugins.length index passed ++ rest) result := by
  induction hpasses with
  | nil => exact hrest
  | @cons index final run ready settled after passed passing hgoes houtbox hbefore hgiven hafter
      hpasses ih =>
      have hcount : index + (passing :: passed).length = index + 1 + passed.length := by
        rw [List.length_cons]
        omega
      rw [hcount] at hrest
      have hpassed : EditTrace plugins.length index
          (passing.outbox.stage :: (passed.map (·.outbox.stage) ++ names)) passing.program
          (befores (passing.info index) passing.program plugins.length ++
            .edit index passing.program (.ok passing.next) ::
              (afters (passing.info index) passing.next plugins.length ++
                (works plugins.length (index + 1) passed ++ rest))) result :=
        .passed (ih hrest)
      simpa [works, List.zipIdx_cons, Passing.work, befores, afters] using hpassed

/-- **Executing leaves a trace of its chain.** -/
theorem Executes.trace {plugins : List (Plugin π)} {links : List (Link σ)} {program : Program}
    {run after : Run σ π} {result : Except PipelineError Program}
    (hexecutes : Executes plugins 0 links program run result after) :
    ∃ edits, EditTrace plugins.length 0 (links.map fun link => (run.outbox link.stage).stage)
      program edits result ∧ after.trace = run.trace ++ edits := by
  have htrace {current : Program} {before : Run σ π} {passed : List (Passing σ)}
      (hpasses : Passes plugins 0 program run passed current before) :
      before.trace = run.trace ++ works plugins.length 0 passed := by
    simp [Run.trace, hpasses.acts]
  cases hexecutes with
  | @all passed final after hlinks hpasses =>
      refine ⟨works plugins.length 0 passed, ?_, htrace hpasses⟩
      rw [← hlinks, hpasses.stageNames]
      simpa using hpasses.trace (.done _ final)
  | @cut passed link rest current before hlinks hpasses hstops =>
      refine ⟨works plugins.length 0 passed, ?_, ?_⟩
      · rw [← hlinks, List.map_append, hpasses.stageNames]
        simpa using hpasses.trace (.cancelled _ _ _ current)
      · simpa [Run.trace] using htrace hpasses
  | @failed passed link rest current before after error hlinks hpasses hgoes happlies =>
      obtain ⟨failing, hfailing, hacts⟩ := happlies.failing rfl
      -- no edit renames a stage, so the failing one has the name it was registered under
      have hname : (before.poll.outbox link.stage).stage = (run.outbox link.stage).stage :=
        hpasses.stage link.stage
      rw [hname] at hfailing
      obtain ⟨hedits, htraced⟩ :=
        hfailing.trace (rest.map fun link => (run.outbox link.stage).stage)
      refine ⟨works plugins.length 0 passed ++ failing, ?_, ?_⟩
      · rw [← hlinks, List.map_append, hpasses.stageNames]
        exact hpasses.trace hedits
      · rw [← List.append_assoc, ← htrace hpasses]
        simp [Run.trace, hacts, htraced]

/-! ## Traces of the other parts of a run -/

/-- Collecting leaves no trace. -/
theorem Collects.trace {program : Program} {markers : List (Marker σ)} {run after : Run σ π}
    {result : Except PipelineError Unit} (hcollects : Collects program markers run result after) :
    after.trace = run.trace := by
  have hasked {asked : List (Asking σ)} {between : Run σ π}
      (hasks : Asks 0 run.poll asked between) : between.trace = run.trace := by
    simp [Run.trace, hasks.acts]
  have hjoined {joined : List (Joining σ)} {asked : List (Asking σ)} {between before : Run σ π}
      (hasks : Asks 0 run.poll asked between) (hjoins : Joins program between joined before) :
      before.trace = run.trace := by
    rw [← hasked hasks]
    simp [Run.trace, hjoins.acts]
  cases hcollects with
  | stopped hstops => simp [Run.trace]
  | refused hgoes hmarkers hasks hfails =>
      rw [← hasked hasks]
      simp [Run.trace]
  | cut hgoes hmarkers hasks hroster hjoins hstops =>
      rw [← hjoined hasks hjoins]
      simp [Run.trace]
  | failed hgoes hmarkers hasks hroster hjoins hbefore hfails =>
      rw [← hjoined hasks hjoins]
      simp [Run.trace]
  | done hgoes hmarkers hasks hroster hjoins => exact hjoined hasks hjoins

theorem trace_announce (phase : Phase) (plugins : List (Plugin π)) (run : Run σ π) :
    (run.announce phase 0 plugins).trace = run.trace ++ phases phase plugins.length := by
  simp [Run.trace, phases]

theorem trace_finish {α : Type} (plugins : List (Plugin π)) (outcome : Findings → α)
    (run : Run σ π) :
    (run.finish plugins outcome).journal.filter Event.isTraced =
      run.trace ++ phases .done plugins.length := by
  rw [← Ended.filter_acts Event.isAct_of_isTraced, acts_finish]
  simp [Run.trace, phases]

theorem result_conclude (plugins : List (Plugin π)) (result : Except PipelineError Program)
    (run : Run σ π) : (run.conclude plugins result).outcome.result = result := by
  cases result <;> simp [conclude, Outcome.result]

theorem trace_conclude (plugins : List (Plugin π)) (result : Except PipelineError Program)
    (run : Run σ π) :
    (run.conclude plugins result).journal.filter Event.isTraced =
      run.trace ++ phases .done plugins.length := by
  cases result <;> exact trace_finish plugins _ run

end Run

/-! ## Traces and calls -/

section Heard

variable (pipeline : Pipeline π) (program : Program) (markers : List (Marker σ))
  (shared : Shared σ) (watch : π) (stopAt : Option Nat)

theorem Pipeline.heard_run :
    (pipeline.run program markers shared watch stopAt).Heard pipeline.plugins shared watch stopAt
      (Extent.Reached pipeline.plugins program markers
        (pipeline.run program markers shared watch stopAt).outcome.result) := by
  obtain ⟨extent, acts, hreached, htranscript⟩ :=
    pipeline.transcript_run program markers shared watch stopAt
  exact ⟨extent, acts, hreached, htranscript, htranscript.filter_journal Event.isAct_of_isTraced⟩

theorem Pipeline.heard_collect :
    (pipeline.collect program markers shared watch stopAt).Heard pipeline.plugins shared watch
      stopAt (Extent.Collected markers
        (pipeline.collect program markers shared watch stopAt).outcome.1) := by
  obtain ⟨extent, acts, hcollected, htranscript⟩ :=
    pipeline.transcript_collect program markers shared watch stopAt
  exact ⟨extent, acts, hcollected, htranscript,
    htranscript.filter_journal Event.isAct_of_isTraced⟩

end Heard

/-! ## Main statement -/

/-- **Plugins hear of a run by the grammar.**  The trace of a run is what the grammar has
for the result of its collecting phase, its chain and its outcome; collecting alone
announces that it begins and that it is done.  Both traces are those of real calls. -/
theorem trace_of_run (pipeline : Pipeline π) (program : Program) (markers : List (Marker σ))
    (shared : Shared σ) (watch : π) (stopAt : Option Nat) :
    RunTrace pipeline.plugins.length program
      ((pipeline.start shared watch stopAt).collect program markers).2.owners
      ((pipeline.start shared watch stopAt).collect program markers).1
      ((pipeline.run program markers shared watch stopAt).journal.filter Event.isTraced)
      (pipeline.run program markers shared watch stopAt).outcome ∧
    (pipeline.collect program markers shared watch stopAt).journal.filter Event.isTraced =
      phases .collecting pipeline.plugins.length ++ phases .done pipeline.plugins.length ∧
    (pipeline.run program markers shared watch stopAt).Heard pipeline.plugins shared watch stopAt
      (Extent.Reached pipeline.plugins program markers
        (pipeline.run program markers shared watch stopAt).outcome.result) ∧
    (pipeline.collect program markers shared watch stopAt).Heard pipeline.plugins shared watch
      stopAt
      (Extent.Collected markers
        (pipeline.collect program markers shared watch stopAt).outcome.1) := by
  have hran := pipeline.heard_run program markers shared watch stopAt
  have hlooked := pipeline.heard_collect program markers shared watch stopAt
  have hstart : (pipeline.start shared watch stopAt).trace =
      phases .collecting pipeline.plugins.length := by
    rw [Pipeline.start, Run.trace_announce]
    rfl
  have hcollects := Run.collects program markers (pipeline.start shared watch stopAt)
  cases hended : (pipeline.start shared watch stopAt).collect program markers with
  | mk result collected =>
      rw [hended] at hcollects
      have hcollected : collected.trace = phases .collecting pipeline.plugins.length :=
        hcollects.trace.trans hstart
      have hdone : (pipeline.collect program markers shared watch stopAt).journal.filter
          Event.isTraced =
            phases .collecting pipeline.plugins.length ++ phases .done pipeline.plugins.length := by
        rw [← hcollected, Pipeline.collect, hended]
        cases result <;> exact Run.trace_finish pipeline.plugins _ collected
      refine ⟨?_, hdone, hran, hlooked⟩
      cases result with
      | error error =>
          unfold Pipeline.run
          simp only [hended, Run.outcome_finish, Run.trace_finish, hcollected]
          exact .collecting
      | ok done =>
          rw [pipeline.run_conclude program markers shared watch stopAt hended]
          have hexecutes := Run.executes pipeline.plugins 0 collected.chain program
            (collected.announce .executing 0 pipeline.plugins)
          obtain ⟨edits, hedits, htrace⟩ := hexecutes.trace
          have houtbox (stage : Nat) :
              ((collected.announce .executing 0 pipeline.plugins).outbox stage).stage =
                (collected.outbox stage).stage := by
            simp [Run.outbox]
          simp only [houtbox] at hedits
          rw [Run.trace_announce, hcollected] at htrace
          rw [Run.trace_conclude, htrace]
          exact .executing (by rwa [Run.result_conclude])

end EditPipeline
