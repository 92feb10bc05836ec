import EditPipeline.Proofs.Run.Acts

/-!
# The executing phase

`Hears` follows a run through the hooks of plugins, and `Passes` through edits
with the hooks around them, as long as all of them succeed.  `executes` says how
the phase can end: at a look for cancellation, at an edit, or with every edit
applied; and `applies` says how one edit can fail: in a hook before it, by
itself, or in a hook after it.
-/

namespace EditPipeline

variable {σ π : Type}

/-! ## Calls that succeeded -/

/-- An edit that gave a program. -/
structure Passing (σ : Type) where
  link : Link σ
  program : Program
  outbox : Outbox
  given : Shared σ
  next : Program
  succeeded : (link.edit program outbox given).result = .ok next

namespace Passing

/-- What the edit left behind. -/
def reply (passing : Passing σ) : Reply σ :=
  passing.link.edit passing.program passing.outbox passing.given

/-- The call of the edit. -/
def editing (passing : Passing σ) : Editing σ :=
  ⟨passing.link, passing.program, passing.outbox, passing.given⟩

/-- What hooks are told about the edit. -/
def info (passing : Passing σ) (index : Nat) : EditInfo := ⟨index, passing.outbox.stage⟩

/-- The program that the edit got and the one that it gave. -/
def programs (passing : Passing σ) : Program × Program := (passing.program, passing.next)

/-- The memory before and after the call. -/
def memories (passing : Passing σ) : σ × σ :=
  (passing.given.memory, passing.reply.shared.memory)

/-- The edit with the name of its editor. -/
def owned (passing : Passing σ) : String × Edit σ := (passing.outbox.stage, passing.link.edit)

/-- The calls of edit number `index` and of the hooks of `count` plugins around it. -/
def work (count : Nat) (passing : Passing σ) (index : Nat) : Journal :=
  numbered (.before · (passing.info index) passing.program none) 0 count ++
    .edit index passing.program (.ok passing.next) ::
      numbered (.after · (passing.info index) passing.next none) 0 count

/-- What the run does for edit number `index`, watched by `count` plugins. -/
def acts (count : Nat) (passing : Passing σ) (index : Nat) : Journal :=
  .poll false :: passing.work count index

end Passing

/-- The calls of edits, counted from `start`. -/
def edits (start : Nat) (passed : List (Passing σ)) : Journal :=
  (passed.zipIdx start).map fun (passing, index) =>
    .edit index passing.program (.ok passing.next)

/-- The calls of edits, counted from `start`, and of the hooks around them. -/
def works (count start : Nat) (passed : List (Passing σ)) : Journal :=
  (passed.zipIdx start).flatMap fun (passing, index) => passing.work count index

/-- What the run does for edits, counted from `start`. -/
def passActs (count start : Nat) (passed : List (Passing σ)) : Journal :=
  (passed.zipIdx start).flatMap fun (passing, index) => passing.acts count index

/-- What is kept of the acts for all edits is what is kept of those for each. -/
theorem filter_passActs {keep : Event → Bool} {count : Nat} (kept : Passing σ → Nat → Journal)
    (hkept : ∀ passing index, (passing.acts count index).filter keep = kept passing index)
    (start : Nat) (passed : List (Passing σ)) :
    (passActs count start passed).filter keep =
      (passed.zipIdx start).flatMap fun (passing, index) => kept passing index := by
  rw [passActs, List.filter_flatMap]
  exact congrArg (passed.zipIdx start).flatMap (funext fun entry => hkept entry.1 entry.2)

/-- News comes to plugins through a hook, and the journal has it as `event`. -/
def News.Through (news : News) (hook : Plugin π → Hook π) (event : Nat → Option Failure → Event)
    (info : EditInfo) (program : Program) : Prop :=
  ∀ plugin given number,
    (Telling.mk plugin news given).answer = hook plugin info program given ∧
    (Telling.mk plugin news given).event number =
      event number (Failure.of? (hook plugin info program given).1)

theorem News.through_before (info : EditInfo) (program : Program) :
    (News.before info program).Through (π := π) Plugin.beforeEdit (.before · info program ·) info
      program := fun _ _ _ => ⟨rfl, rfl⟩

theorem News.through_after (info : EditInfo) (program : Program) :
    (News.after info program).Through (π := π) Plugin.afterEdit (.after · info program ·) info
      program := fun _ _ _ => ⟨rfl, rfl⟩

/-- To call a hook is to tell its plugin, whatever comes of it. -/
theorem News.Through.does {news : News} {hook : Plugin π → Hook π}
    {event : Nat → Option Failure → Event} {info : EditInfo} {program : Program}
    (hnews : news.Through hook event info program) {plugins : List (Plugin π)}
    {plugin : Plugin π} {number : Nat} (hplugin : plugins[number]? = some plugin) {run : Run σ π}
    {result : Except Failure Unit} {shared : Shared π}
    (hcall : hook plugin info program run.watching = (result, shared)) :
    Run.Does plugins run (.tell number ⟨plugin, news, run.watching⟩)
      (run.watched (event number (Failure.of? result)) shared) := by
  obtain ⟨hanswer, hevent⟩ := hnews plugin run.watching number
  have hdoes : Run.Does plugins run (.tell number ⟨plugin, news, run.watching⟩) _ :=
    .tell number _ hplugin rfl
  rwa [hevent, hanswer, hcall] at hdoes

namespace Run

/-! ## Hooks -/

/-- Calling a hook of plugins, counted from `index`, leads from one run to another. -/
inductive Hears (hook : Plugin π → Hook π) (event : Nat → Option Failure → Event)
    (info : EditInfo) (program : Program) : Nat → Run σ π → List (Plugin π) → Run σ π → Prop where
  | nil (index : Nat) (run : Run σ π) : Hears hook event info program index run [] run
  | cons {index : Nat} {run after : Run σ π} {plugin : Plugin π} {rest : List (Plugin π)}
      {shared : Shared π}
      (hcall : hook plugin info program run.watching = (.ok (), shared))
      (hrest : Hears hook event info program (index + 1)
        (run.watched (event index none) shared) rest after) :
      Hears hook event info program index run (plugin :: rest) after

/-- The hooks before an edit. -/
abbrev HearsBefore (info : EditInfo) (program : Program) :
    Nat → Run σ π → List (Plugin π) → Run σ π → Prop :=
  Hears Plugin.beforeEdit (.before · info program ·) info program

/-- The hooks after an edit. -/
abbrev HearsAfter (info : EditInfo) (next : Program) :
    Nat → Run σ π → List (Plugin π) → Run σ π → Prop :=
  Hears Plugin.afterEdit (.after · info next ·) info next

namespace Hears

variable {hook : Plugin π → Hook π} {event : Nat → Option Failure → Event} {info : EditInfo}
  {program : Program} {index : Nat} {run after : Run σ π} {plugins : List (Plugin π)}

theorem acts (hevent : ∀ index failure, (event index failure).isAct = true)
    (hhears : Hears hook event info program index run plugins after) :
    after.acts = run.acts ++ numbered (event · none) index plugins.length := by
  induction hhears with
  | nil => simp
  | cons hcall hrest ih =>
      rw [ih, acts_watched, if_pos (hevent _ none), List.append_assoc]
      rfl

theorem stages (hhears : Hears hook event info program index run plugins after) :
    after.stages = run.stages := by
  induction hhears with
  | nil => rfl
  | cons hcall hrest ih => simp [ih]

theorem memory (hhears : Hears hook event info program index run plugins after) :
    after.shared.memory = run.shared.memory := by
  induction hhears with
  | nil => rfl
  | cons hcall hrest ih => simp [ih]

theorem outbox (hhears : Hears hook event info program index run plugins after) (stage : Nat) :
    after.outbox stage = run.outbox stage := by
  unfold Run.outbox
  rw [hhears.stages]

theorem names (hhears : Hears hook event info program index run plugins after) :
    after.names = run.names := by
  unfold Run.names
  rw [hhears.stages]

theorem stageInfos (hhears : Hears hook event info program index run plugins after) :
    after.stageInfos = run.stageInfos := by
  induction hhears with
  | nil => rfl
  | cons hcall hrest ih => exact ih

/-- Calling hooks calls nothing but plugins. -/
theorem covers {news : News} {all : List (Plugin π)} (hnews : news.Through hook event info program)
    (hplugins : plugins <+: all.drop index)
    (hhears : Hears hook event info program index run plugins after) :
    Covers all run [] [] after := by
  induction hhears with
  | nil => exact .refl all _
  | cons hcall hrest ih =>
      obtain ⟨hplugin, hplugins⟩ := numbers_of_prefix hplugins
      exact (hnews.does hplugin hcall).covers.trans (ih hplugins)

end Hears

/-- The hooks before an edit, and then the edit. -/
theorem Hears.covers_edit {info : EditInfo} {program : Program} {plugins : List (Plugin π)}
    {run ready : Run σ π} (hbefore : HearsBefore info program 0 run plugins ready)
    (index : Nat) (editing : Editing σ) (houtbox : editing.outbox = run.outbox editing.link.stage)
    (hgiven : editing.given = ready.sharing) :
    Covers plugins run [.edit index editing] []
      (ready.absorb editing.link.stage index editing.program editing.reply) := by
  have hheard := hbefore.covers (News.through_before _ _) (List.prefix_refl plugins)
  have hedit : Does plugins ready (.edit index editing) _ :=
    .edit index editing (houtbox.trans (hbefore.outbox _).symm) hgiven
  exact hheard.trans hedit.covers

/-- How calling hooks can end. -/
inductive Calls (hook : Plugin π → Hook π) (event : Nat → Option Failure → Event)
    (info : EditInfo) (program : Program) (index : Nat) (run : Run σ π)
    (plugins : List (Plugin π)) : Except Failure Unit → Run σ π → Prop where
  | all {after : Run σ π} (hhears : Hears hook event info program index run plugins after) :
      Calls hook event info program index run plugins (.ok ()) after
  | failed (done : List (Plugin π)) {rest : List (Plugin π)} {plugin : Plugin π}
      {before : Run σ π}
      {failure : Failure} {shared : Shared π}
      (hplugins : done ++ plugin :: rest = plugins)
      (hhears : Hears hook event info program index run done before)
      (hfails : hook plugin info program before.watching = (.error failure, shared)) :
      Calls hook event info program index run plugins (.error failure)
        (before.watched (event (index + done.length) (some failure)) shared)

theorem calls (hook : Plugin π → Hook π) (event : Nat → Option Failure → Event)
    (info : EditInfo) (program : Program) (index : Nat) (run : Run σ π)
    (plugins : List (Plugin π)) :
    Calls hook event info program index run plugins
      (callHooks hook event info program index plugins run).1
      (callHooks hook event info program index plugins run).2 := by
  induction plugins generalizing index run with
  | nil => exact .all (.nil index run)
  | cons plugin rest ih =>
      unfold callHooks
      cases hcall : hook plugin info program run.watching with
      | mk result shared =>
          cases result with
          | error failure => exact .failed [] rfl (.nil index run) hcall
          | ok done =>
              have hcalls := ih (index + 1) (run.watched (event index none) shared)
              dsimp only
              generalize callHooks hook event info program (index + 1) rest _ = ended at hcalls ⊢
              obtain ⟨result, after⟩ := ended
              cases hcalls with
              | all hhears => exact .all (.cons hcall hhears)
              | failed done hplugins hhears hfails =>
                  have hcount : index + 1 + done.length = index + (plugin :: done).length := by
                    simp only [List.length_cons]
                    omega
                  dsimp only
                  rw [hcount]
                  exact .failed (plugin :: done) (by rw [← hplugins]; rfl) (.cons hcall hhears)
                    hfails

/-! ## One edit -/

/-- How applying one edit can end. -/
inductive Applies (plugins : List (Plugin π)) (index : Nat) (link : Link σ) (program : Program)
    (run : Run σ π) : Except PipelineError Program → Run σ π → Prop where
  /-- A hook before the edit failed. -/
  | beforeFailed {info : EditInfo} {done rest : List (Plugin π)} {plugin : Plugin π}
      {ready : Run σ π} {failure : Failure} {shared : Shared π}
      (hinfo : info = ⟨index, (run.outbox link.stage).stage⟩)
      (hplugins : done ++ plugin :: rest = plugins)
      (hhears : HearsBefore info program 0 run done ready)
      (hfails : plugin.beforeEdit info program ready.watching = (.error failure, shared)) :
      Applies plugins index link program run (.error (.editFailure info.stage index failure))
        (ready.watched (.before done.length info program (some failure)) shared)
  /-- The edit failed. -/
  | editFailed {info : EditInfo} {ready : Run σ π} {failure : Failure}
      (hinfo : info = ⟨index, (run.outbox link.stage).stage⟩)
      (hhears : HearsBefore info program 0 run plugins ready)
      (hfails : (link.edit program (run.outbox link.stage) ready.sharing).result =
        .error failure) :
      Applies plugins index link program run (.error (editError info failure))
        (ready.absorb link.stage index program
          (link.edit program (run.outbox link.stage) ready.sharing))
  /-- A hook after the edit failed. -/
  | afterFailed (passing : Passing σ) {done rest : List (Plugin π)} {plugin : Plugin π}
      {ready heard : Run σ π} {failure : Failure} {shared : Shared π}
      (hlink : passing.link = link) (hprogram : passing.program = program)
      (houtbox : passing.outbox = run.outbox link.stage)
      (hbefore : HearsBefore (passing.info index) program 0 run plugins ready)
      (hgiven : passing.given = ready.sharing)
      (hplugins : done ++ plugin :: rest = plugins)
      (hafter : HearsAfter (passing.info index) passing.next 0
        (ready.absorb link.stage index program passing.reply) done heard)
      (hfails : plugin.afterEdit (passing.info index) passing.next heard.watching =
        (.error failure, shared)) :
      Applies plugins index link program run
        (.error (.editFailure passing.outbox.stage index failure))
        (heard.watched (.after done.length (passing.info index) passing.next (some failure))
          shared)
  /-- The edit and all hooks around it succeeded. -/
  | passed (passing : Passing σ) {ready after : Run σ π}
      (hlink : passing.link = link) (hprogram : passing.program = program)
      (houtbox : passing.outbox = run.outbox link.stage)
      (hbefore : HearsBefore (passing.info index) program 0 run plugins ready)
      (hgiven : passing.given = ready.sharing)
      (hafter : HearsAfter (passing.info index) passing.next 0
        (ready.absorb link.stage index program passing.reply) plugins after) :
      Applies plugins index link program run (.ok passing.next) after

theorem applies (plugins : List (Plugin π)) (index : Nat) (link : Link σ) (program : Program)
    (run : Run σ π) :
    Applies plugins index link program run (applyLink plugins index link program run).1
      (applyLink plugins index link program run).2 := by
  unfold applyLink
  have hcalls := calls Plugin.beforeEdit
    (.before · ⟨index, (run.outbox link.stage).stage⟩ program ·)
    ⟨index, (run.outbox link.stage).stage⟩ program 0 run plugins
  dsimp only at hcalls ⊢
  generalize callHooks Plugin.beforeEdit _ _ program 0 plugins run = ended at hcalls ⊢
  obtain ⟨result, ready⟩ := ended
  cases hcalls with
  | failed done hplugins hhears hfails =>
      simp only [Nat.zero_add]
      exact .beforeFailed rfl hplugins hhears hfails
  | all hbefore =>
      -- hooks do not touch the outbox, so the edit still sees the one of its stage
      simp only [hbefore.outbox]
      cases hcall : (link.edit program (run.outbox link.stage) ready.sharing).result with
      | error failure => exact .editFailed rfl hbefore hcall
      | ok next =>
          let passing : Passing σ :=
            ⟨link, program, run.outbox link.stage, ready.sharing, next, hcall⟩
          have hcalls := calls Plugin.afterEdit
            (.after · ⟨index, (run.outbox link.stage).stage⟩ next ·)
            ⟨index, (run.outbox link.stage).stage⟩ next 0
            (ready.absorb link.stage index program
              (link.edit program (run.outbox link.stage) ready.sharing)) plugins
          dsimp only at hcalls ⊢
          generalize callHooks Plugin.afterEdit _ _ next 0 plugins _ = ended at hcalls ⊢
          obtain ⟨result, after⟩ := ended
          cases hcalls with
          | failed done hplugins hhears hfails =>
              simp only [Nat.zero_add]
              exact .afterFailed passing rfl rfl rfl hbefore rfl hplugins hhears hfails
          | all hafter => exact .passed passing rfl rfl rfl hbefore rfl hafter

theorem Applies.stageInfos {plugins : List (Plugin π)} {index : Nat} {link : Link σ}
    {program : Program} {run after : Run σ π} {result : Except PipelineError Program}
    (happlies : Applies plugins index link program run result after) :
    after.stageInfos = run.stageInfos := by
  cases happlies with
  | beforeFailed hinfo hplugins hhears hfails => exact hhears.stageInfos
  | editFailed hinfo hhears hfails => rw [stageInfos_absorb, hhears.stageInfos]
  | afterFailed passing hlink hprogram houtbox hbefore hgiven hplugins hafter hfails =>
      have hheard := hafter.stageInfos
      rw [stageInfos_absorb, hbefore.stageInfos] at hheard
      exact hheard
  | passed passing hlink hprogram houtbox hbefore hgiven hafter =>
      rw [hafter.stageInfos, stageInfos_absorb, hbefore.stageInfos]

/-- How one edit, with the hooks around it, can fail: the error, and the calls up to
the one that fails.  The edit finds `memory`. -/
inductive FailingEdit (plugins : List (Plugin π)) (info : EditInfo) (edit : Edit σ)
    (program : Program) (memory : σ) : PipelineError → Journal → Prop where
  /-- A hook before the edit fails. -/
  | before {done rest : List (Plugin π)} {plugin : Plugin π} {watched left : Shared π}
      {failure : Failure}
      (hplugins : done ++ plugin :: rest = plugins)
      (hfails : plugin.beforeEdit info program watched = (.error failure, left)) :
      FailingEdit plugins info edit program memory (.editFailure info.stage info.index failure)
        (numbered (.before · info program none) 0 done.length ++
          [.before done.length info program (some failure)])
  /-- The edit fails. -/
  | edit {outbox : Outbox} {given : Shared σ} {failure : Failure}
      (hstage : outbox.stage = info.stage) (hmemory : given.memory = memory)
      (hfails : (edit program outbox given).result = .error failure)
      (hcause : failure.isCancelled = false) :
      FailingEdit plugins info edit program memory (.editFailure info.stage info.index failure)
        (numbered (.before · info program none) 0 plugins.length ++
          [.edit info.index program (.error failure)])
  /-- The edit fails because of a cancellation. -/
  | cancelled {outbox : Outbox} {given : Shared σ} {failure : Failure}
      (hstage : outbox.stage = info.stage) (hmemory : given.memory = memory)
      (hfails : (edit program outbox given).result = .error failure)
      (hcause : failure.isCancelled = true) :
      FailingEdit plugins info edit program memory .cancelled
        (numbered (.before · info program none) 0 plugins.length ++
          [.edit info.index program (.error failure)])
  /-- A hook after the edit fails. -/
  | after {done rest : List (Plugin π)} {plugin : Plugin π} {watched left : Shared π}
      {outbox : Outbox} {given : Shared σ} {next : Program} {failure : Failure}
      (hstage : outbox.stage = info.stage) (hmemory : given.memory = memory)
      (hedit : (edit program outbox given).result = .ok next)
      (hplugins : done ++ plugin :: rest = plugins)
      (hfails : plugin.afterEdit info next watched = (.error failure, left)) :
      FailingEdit plugins info edit program memory (.editFailure info.stage info.index failure)
        (numbered (.before · info program none) 0 plugins.length ++
          .edit info.index program (.ok next) ::
            (numbered (.after · info next none) 0 done.length ++
              [.after done.length info next (some failure)]))

/-- The error names the edit. -/
theorem FailingEdit.info_eq {plugins : List (Plugin π)} {info : EditInfo} {edit : Edit σ}
    {program : Program} {memory : σ} {stage : String} {index : Nat} {failure : Failure}
    {failing : Journal}
    (hfailing : FailingEdit plugins info edit program memory (.editFailure stage index failure)
      failing) : info = ⟨index, stage⟩ := by
  cases hfailing <;> rfl

/-- An edit that fails adds its own calls and those of the hooks to the acts. -/
theorem Applies.failing {plugins : List (Plugin π)} {index : Nat} {link : Link σ}
    {program : Program} {run after : Run σ π} {result : Except PipelineError Program}
    {error : PipelineError} (happlies : Applies plugins index link program run result after)
    (hresult : result = .error error) :
    ∃ failing, FailingEdit plugins ⟨index, (run.outbox link.stage).stage⟩ link.edit program
      run.shared.memory error failing ∧ after.acts = run.acts ++ failing := by
  cases happlies with
  | passed passing hlink hprogram houtbox hbefore hgiven hafter => cases hresult
  | beforeFailed hinfo hplugins hhears hfails =>
      subst hinfo
      cases hresult
      refine ⟨_, .before hplugins hfails, ?_⟩
      rw [acts_watched, hhears.acts fun _ _ => rfl]
      simp
  | @editFailed info ready failure hinfo hhears hfails =>
      subst hinfo
      cases hresult
      have hmemory : ready.sharing.memory = run.shared.memory := hhears.memory
      unfold editError
      cases hcause : failure.isCancelled with
      | true =>
          refine ⟨_, .cancelled rfl hmemory hfails hcause, ?_⟩
          rw [acts_absorb, hhears.acts fun _ _ => rfl, hfails]
          simp
      | false =>
          refine ⟨_, .edit rfl hmemory hfails hcause, ?_⟩
          rw [acts_absorb, hhears.acts fun _ _ => rfl, hfails]
          simp
  | afterFailed passing hlink hprogram houtbox hbefore hgiven hplugins hafter hfails =>
      subst hlink hprogram
      cases hresult
      have hsucceeded : passing.reply.result = .ok passing.next := passing.succeeded
      have hmemory : passing.given.memory = run.shared.memory := by
        rw [hgiven]
        exact hbefore.memory
      -- the edit was announced under the name that its outbox carries
      unfold Passing.info at hfails hbefore hafter
      rw [houtbox] at hfails hbefore hafter ⊢
      refine ⟨_, .after rfl hmemory (houtbox ▸ passing.succeeded) hplugins hfails, ?_⟩
      rw [acts_watched, hafter.acts fun _ _ => rfl, acts_absorb, hbefore.acts fun _ _ => rfl,
        hsucceeded]
      simp [Passing.info, houtbox]

/-! ## The phase as a whole -/

/-- Applying edits, counted from `index`, leads from one program and run to others. -/
inductive Passes (plugins : List (Plugin π)) :
    Nat → Program → Run σ π → List (Passing σ) → Program → Run σ π → Prop where
  | nil (index : Nat) (program : Program) (run : Run σ π) :
      Passes plugins index program run [] program run
  | cons {index : Nat} {final : Program} {run ready settled after : Run σ π}
      {passed : List (Passing σ)} (passing : Passing σ)
      (hgoes : run.cancelled = false)
      (houtbox : passing.outbox = run.outbox passing.link.stage)
      (hbefore : HearsBefore (passing.info index) passing.program 0 run.poll plugins ready)
      (hgiven : passing.given = ready.sharing)
      (hafter : HearsAfter (passing.info index) passing.next 0
        (ready.absorb passing.link.stage index passing.program passing.reply) plugins settled)
      (hrest : Passes plugins (index + 1) passing.next settled passed final after) :
      Passes plugins index passing.program run (passing :: passed) final after

namespace Passes

variable {plugins : List (Plugin π)} {index : Nat} {program final : Program}
  {run after : Run σ π} {passed : List (Passing σ)}

theorem programs (hpasses : Passes plugins index program run passed final after) :
    Relay program (passed.map Passing.programs) final := by
  induction hpasses with
  | nil => rfl
  | cons passing hgoes houtbox hbefore hgiven hafter hrest ih => exact ⟨rfl, ih⟩

theorem memory (hpasses : Passes plugins index program run passed final after) :
    Relay run.shared.memory (passed.map Passing.memories) after.shared.memory := by
  induction hpasses with
  | nil => rfl
  | cons passing hgoes houtbox hbefore hgiven hafter hrest ih =>
      refine ⟨?_, ?_⟩
      · rw [hgiven]
        exact hbefore.memory
      · rw [hafter.memory] at ih
        exact ih

theorem names (hpasses : Passes plugins index program run passed final after) :
    after.names = run.names := by
  induction hpasses with
  | nil => rfl
  | cons passing hgoes houtbox hbefore hgiven hafter hrest ih =>
      rw [ih, hafter.names, names_absorb, hbefore.names]
      rfl

theorem stage (hpasses : Passes plugins index program run passed final after) (stage : Nat) :
    (after.outbox stage).stage = (run.outbox stage).stage := by
  rw [stage_outbox, stage_outbox, hpasses.names]

/-- Each edit is announced under the name of the stage that its link tells. -/
theorem owners (hpasses : Passes plugins index program run passed final after) :
    passed.map Passing.owned =
      (passed.map Passing.link).map fun link => (run.names.getD link.stage "", link.edit) := by
  induction hpasses with
  | nil => rfl
  | cons passing hgoes houtbox hbefore hgiven hafter hrest ih =>
      rw [hafter.names, names_absorb, hbefore.names] at ih
      rw [List.map_cons, ih, Passing.owned, houtbox, stage_outbox]
      rfl

theorem stageNames (hpasses : Passes plugins index program run passed final after) :
    (passed.map Passing.link).map (fun link => (run.outbox link.stage).stage) =
      passed.map (·.outbox.stage) := by
  calc (passed.map Passing.link).map (fun link => (run.outbox link.stage).stage)
      = ((passed.map Passing.link).map fun link =>
          (run.names.getD link.stage "", link.edit)).map Prod.fst := by
        simp [stage_outbox]
    _ = (passed.map Passing.owned).map Prod.fst := by rw [hpasses.owners]
    _ = passed.map (·.outbox.stage) := by simp [Passing.owned]

theorem acts (hpasses : Passes plugins index program run passed final after) :
    after.acts = run.acts ++ passActs plugins.length index passed := by
  induction hpasses with
  | nil => simp [passActs]
  | cons passing hgoes houtbox hbefore hgiven hafter hrest ih =>
      have hresult : passing.reply.result = .ok passing.next := passing.succeeded
      rw [ih, hafter.acts fun _ _ => rfl, acts_absorb, hbefore.acts fun _ _ => rfl]
      simp [passActs, List.zipIdx_cons, Passing.acts, Passing.work, hgoes, hresult]

theorem stageInfos (hpasses : Passes plugins index program run passed final after) :
    after.stageInfos = run.stageInfos := by
  induction hpasses with
  | nil => rfl
  | cons passing hgoes houtbox hbefore hgiven hafter hrest ih =>
      rw [ih, hafter.stageInfos, stageInfos_absorb, hbefore.stageInfos]
      rfl

theorem covers (hpasses : Passes plugins index program run passed final after) :
    Covers plugins run (Act.edits index (passed.map Passing.editing))
      (List.replicate passed.length false) after := by
  induction hpasses with
  | nil => exact .refl plugins _
  | @cons index final run ready settled after passed passing hgoes houtbox hbefore hgiven hafter
      hrest ih =>
      have hlook : Does plugins run (.look false) run.poll := hgoes ▸ .look
      have hedit := hbefore.covers_edit index passing.editing houtbox hgiven
      have hheard := hafter.covers (News.through_after _ _) (List.prefix_refl plugins)
      exact ((hlook.covers.trans hedit).trans hheard).trans ih

end Passes

/-- How executing can end. -/
inductive Executes (plugins : List (Plugin π)) (index : Nat) (links : List (Link σ))
    (program : Program) (run : Run σ π) : Except PipelineError Program → Run σ π → Prop where
  /-- Every edit was applied. -/
  | all (passed : List (Passing σ)) {final : Program} {after : Run σ π}
      (hlinks : passed.map Passing.link = links)
      (hpasses : Passes plugins index program run passed final after) :
      Executes plugins index links program run (.ok final) after
  /-- Cancellation had been requested before one of the edits. -/
  | cut (passed : List (Passing σ)) {link : Link σ} {rest : List (Link σ)}
      {current : Program} {before : Run σ π}
      (hlinks : passed.map Passing.link ++ link :: rest = links)
      (hpasses : Passes plugins index program run passed current before)
      (hstops : before.cancelled = true) :
      Executes plugins index links program run (.error .cancelled) before.poll
  /-- An edit, or a hook around it, failed. -/
  | failed (passed : List (Passing σ)) {link : Link σ} {rest : List (Link σ)}
      {current : Program} {before after : Run σ π} {error : PipelineError}
      (hlinks : passed.map Passing.link ++ link :: rest = links)
      (hpasses : Passes plugins index program run passed current before)
      (hgoes : before.cancelled = false)
      (happlies : Applies plugins (index + passed.length) link current before.poll
        (.error error) after) :
      Executes plugins index links program run (.error error) after

theorem executes (plugins : List (Plugin π)) (index : Nat) (links : List (Link σ))
    (program : Program) (run : Run σ π) :
    Executes plugins index links program run (execute plugins index links program run).1
      (execute plugins index links program run).2 := by
  induction links generalizing index program run with
  | nil => exact .all [] rfl (.nil index program run)
  | cons link rest ih =>
      unfold execute
      cases hcancelled : run.cancelled with
      | true => exact .cut [] rfl (.nil index program run) hcancelled
      | false =>
          simp only [Bool.false_eq_true, if_false]
          have happlies := applies plugins index link program run.poll
          generalize applyLink plugins index link program run.poll = applied at happlies ⊢
          obtain ⟨result, settled⟩ := applied
          cases result with
          | error error =>
              exact .failed [] rfl (.nil index program run) hcancelled happlies
          | ok next =>
              have hexecutes := ih (index + 1) next settled
              dsimp only
              generalize execute plugins (index + 1) rest next settled = ended at hexecutes ⊢
              obtain ⟨result, after⟩ := ended
              cases happlies with
              | passed passing hlink hprogram houtbox hbefore hgiven hafter =>
                  subst hlink hprogram
                  have hpass {passed : List (Passing σ)} {final : Program} {after : Run σ π}
                      (hpasses : Passes plugins (index + 1) passing.next settled passed final
                        after) :
                      Passes plugins index passing.program run (passing :: passed) final after :=
                    .cons passing hcancelled houtbox hbefore hgiven hafter hpasses
                  cases hexecutes with
                  | all passed hlinks hpasses =>
                      exact .all (passing :: passed) (by rw [← hlinks]; rfl)
                        (hpass hpasses)
                  | cut passed hlinks hpasses hstops =>
                      exact .cut (passing :: passed) (by rw [← hlinks]; rfl)
                        (hpass hpasses) hstops
                  | failed passed hlinks hpasses hgoes happlies =>
                      have hcount :
                          index + 1 + passed.length = index + (passing :: passed).length := by
                        simp only [List.length_cons]
                        omega
                      rw [hcount] at happlies
                      exact .failed (passing :: passed) (by rw [← hlinks]; rfl)
                        (hpass hpasses) hgoes happlies

/-- Executing leaves what is listed of the stages as it is. -/
theorem Executes.stageInfos {plugins : List (Plugin π)} {index : Nat} {links : List (Link σ)}
    {program : Program} {run after : Run σ π} {result : Except PipelineError Program}
    (hexecutes : Executes plugins index links program run result after) :
    after.stageInfos = run.stageInfos := by
  cases hexecutes with
  | all passed hlinks hpasses => exact hpasses.stageInfos
  | cut passed hlinks hpasses hstops => exact hpasses.stageInfos
  | failed passed hlinks hpasses hgoes happlies =>
      exact happlies.stageInfos.trans hpasses.stageInfos

end Run

end EditPipeline
