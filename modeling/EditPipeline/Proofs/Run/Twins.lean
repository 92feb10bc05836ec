import EditPipeline.Proofs.Run.Mirror

/-!
# Two runs that are watched alike

Two runs are twins if they have done the same so far: their journals are equal, and so are
their stages.  What their code remembers, and what their plugins remember, may differ.  As long
as the plugins of the one answer as those of the other do, and the edits do, every step keeps
this, and requests for cancellation from outside come at the same time in both.

The plugins of the first run may fail where those of the other do not.  A run that fails so is
*broken off*, and nothing is said of it: everything here is either about a run that is broken
off, or about twins (`GoesAlike`).
-/

namespace EditPipeline

variable {σ π π' : Type}

/-! ## What is answered alike -/

/-- Two calls of an edit that left the same to see, and memories that are alike. -/
structure Reply.Alike (like : Likeness σ) (reply other : Reply σ) : Prop where
  result : reply.result = other.result
  emitted : reply.emitted = other.emitted
  cancelled : reply.shared.cancelled = other.shared.cancelled
  memory : like.memory reply.shared.memory other.shared.memory

/-- Edits that are alike answer alike whenever the memories are. -/
def Likeness.Lawful (like : Likeness σ) : Prop :=
  ∀ edit other, like.edit edit other → ∀ program outbox cancelled memory memory',
    like.memory memory memory' →
    (edit program outbox ⟨cancelled, memory⟩).Alike like (other program outbox ⟨cancelled, memory'⟩)

theorem Likeness.lawful_same (σ : Type) : (Likeness.same σ).Lawful := by
  intro edit other hedit program outbox cancelled memory memory' hmemory
  obtain rfl : edit = other := hedit
  obtain rfl : memory = memory' := hmemory
  exact ⟨rfl, rfl, rfl, rfl⟩

/-- One marker, asked twice, failed alike, or it gave editors that are alike; `rest` tells how
the memories are to compare then. -/
inductive AnswersAlike (like : Likeness σ) (rest : σ → σ → Prop) :
    Except Failure (List (Editor σ)) × Shared σ →
      Except Failure (List (Editor σ)) × Shared σ → Prop where
  | refused (failure : Failure) (requested : Bool) (left left' : σ) :
      AnswersAlike like rest (.error failure, ⟨requested, left⟩) (.error failure, ⟨requested, left'⟩)
  | gave {editors editors' : List (Editor σ)} (requested : Bool) {left left' : σ}
      (heditors : List.Forall₂ (Editor.Alike like) editors editors') (hrest : rest left left') :
      AnswersAlike like rest (.ok editors, ⟨requested, left⟩) (.ok editors', ⟨requested, left'⟩)

/-- Asked with either memory, one after the other, the markers answer alike, whenever
cancellation is requested. -/
def AskedAlike (like : Likeness σ) : List (Marker σ) → σ → σ → Prop
  | [], memory, memory' => like.memory memory memory'
  | marker :: rest, memory, memory' => ∀ cancelled,
      AnswersAlike like (AskedAlike like rest) (marker.editors ⟨cancelled, memory⟩)
        (marker.editors ⟨cancelled, memory'⟩)

/-- With the same memory, markers give the same answers. -/
theorem askedAlike_same (markers : List (Marker σ)) (memory : σ) :
    AskedAlike (.same σ) markers memory memory := by
  induction markers generalizing memory with
  | nil => rfl
  | cons marker rest ih =>
      intro cancelled
      cases marker.editors ⟨cancelled, memory⟩ with
      | mk answer shared =>
          cases answer with
          | error failure => exact .refused failure _ _ _
          | ok editors =>
              exact .gave _ (List.forall₂_same.2 fun editor _ => editor.alike_same) (ih _)

/-- The first hook failed, or the other one did the same. -/
def FollowsCall (call : Except Failure Unit × Shared π) (other : Except Failure Unit × Shared π') :
    Prop :=
  (∃ failure, call.1 = .error failure) ∨
    (call.1 = other.1 ∧ call.2.cancelled = other.2.cancelled)

/-- Whatever the two plugins remember, the other one does what the first does, if that does not
fail. -/
structure Plugin.Follows (plugin : Plugin π) (other : Plugin π') : Prop where
  onPhase : ∀ phase cancelled memory memory',
    (plugin.onPhase phase ⟨cancelled, memory⟩).cancelled =
      (other.onPhase phase ⟨cancelled, memory'⟩).cancelled
  beforeEdit : ∀ info program cancelled memory memory',
    FollowsCall (plugin.beforeEdit info program ⟨cancelled, memory⟩)
      (other.beforeEdit info program ⟨cancelled, memory'⟩)
  afterEdit : ∀ info program cancelled memory memory',
    FollowsCall (plugin.afterEdit info program ⟨cancelled, memory⟩)
      (other.afterEdit info program ⟨cancelled, memory'⟩)

/-- One of the hooks of the plugin can fail. -/
def Plugin.MayFail (plugin : Plugin π) : Prop :=
  ∃ info program shared failure, (plugin.beforeEdit info program shared).1 = .error failure ∨
    (plugin.afterEdit info program shared).1 = .error failure

namespace Run

/-! ## Twins -/

/-- The runs have done the same so far. -/
structure Twins (like : Likeness σ) (run : Run σ π) (other : Run σ π') : Prop where
  stopAt : run.stopAt = other.stopAt
  requested : run.shared.cancelled = other.shared.cancelled
  stages : run.stages = other.stages
  chain : List.Forall₂ (Link.Alike like) run.chain other.chain
  journal : run.journal = other.journal

/-- Two runs that went on alike, unless the first one was broken off: both failed with the same
error, or they came to values that are `alike`, and to memories that are. -/
inductive GoesAlike (like : Likeness σ) (broken : Prop) {ε α : Type} (alike : α → α → Prop) :
    Except ε α × Run σ π → Except ε α × Run σ π' → Prop where
  | broken (hbroken : broken) (error : ε) (run : Run σ π) (ended : Except ε α × Run σ π') :
      GoesAlike like broken alike (.error error, run) ended
  | failed (error : ε) {run : Run σ π} {other : Run σ π'} (htwins : run.Twins like other) :
      GoesAlike like broken alike (.error error, run) (.error error, other)
  | gave {value value' : α} {run : Run σ π} {other : Run σ π'} (hvalues : alike value value')
      (htwins : run.Twins like other)
      (hmemory : like.memory run.shared.memory other.shared.memory) :
      GoesAlike like broken alike (.ok value, run) (.ok value', other)

variable {like : Likeness σ} {run : Run σ π} {other : Run σ π'}
  {plugins : List (Plugin π)} {others : List (Plugin π')}

namespace Twins

theorem cancelled (htwins : run.Twins like other) : run.cancelled = other.cancelled := by
  rw [Run.cancelled, Run.cancelled, htwins.stopAt, htwins.requested, htwins.journal]

theorem outbox (htwins : run.Twins like other) (stage : Nat) :
    run.outbox stage = other.outbox stage := by
  rw [Run.outbox, Run.outbox, htwins.stages]

theorem findings (htwins : run.Twins like other) : run.findings = other.findings := by
  have hcount (index : Nat) : (run.chain.countP fun link => link.stage = index) =
      other.chain.countP fun link => link.stage = index := by
    have hstages := congrArg (List.countP fun stage => stage = index)
      (stages_of_alike htwins.chain)
    rwa [List.countP_map, List.countP_map] at hstages
  simp only [Run.findings, Run.stageInfos, Run.diagnostics, htwins.stages, hcount]

theorem note (htwins : run.Twins like other) (event : Event) (cancelled : Bool) :
    (run.note event cancelled).Twins like (other.note event cancelled) where
  stopAt := htwins.stopAt
  requested := by simp [Run.note, htwins.cancelled]
  stages := htwins.stages
  chain := htwins.chain
  journal := by simp only [Run.note, htwins.journal, htwins.cancelled]

theorem poll (htwins : run.Twins like other) : run.poll.Twins like other.poll := by
  unfold Run.poll
  rw [htwins.cancelled]
  exact htwins.note _ _

theorem called (htwins : run.Twins like other) (event : Event) {shared shared' : Shared σ}
    (hrequested : shared.cancelled = shared'.cancelled) :
    (run.called event shared).Twins like (other.called event shared') := by
  have hnote := htwins.note event shared.cancelled
  unfold Run.called
  rw [← hrequested]
  exact ⟨hnote.stopAt, hnote.requested, hnote.stages, hnote.chain, hnote.journal⟩

theorem watched (htwins : run.Twins like other) (event : Event) {shared : Shared π}
    {shared' : Shared π'} (hrequested : shared.cancelled = shared'.cancelled) :
    (run.watched event shared).Twins like (other.watched event shared') := by
  have hnote := htwins.note event shared.cancelled
  unfold Run.watched
  rw [← hrequested]
  exact ⟨hnote.stopAt, hnote.requested, hnote.stages, hnote.chain, hnote.journal⟩

theorem emit (htwins : run.Twins like other) (stage : Nat) (diagnostics : List Diagnostic) :
    (run.emit stage diagnostics).Twins like (other.emit stage diagnostics) where
  stopAt := htwins.stopAt
  requested := htwins.requested
  stages := htwins.stages
  chain := htwins.chain
  journal := by simp only [Run.emit, htwins.journal]

theorem enroll (htwins : run.Twins like other) (origin : MarkerOrigin) (name : String)
    (program : Program) {setup setup' : Setup σ} (hsetup : setup.Alike like setup') :
    (run.enroll origin name program setup).Twins like
      (other.enroll origin name program setup') := by
  have hcalled := htwins.called
    (.setUp other.stages.length name program (Failure.of? setup.result)) hsetup.cancelled
  have hemit := hcalled.emit other.stages.length setup.emitted
  have hlinks : List.Forall₂ (Link.Alike like) (setup.edits.map (Link.mk other.stages.length))
      (setup'.edits.map (Link.mk other.stages.length)) :=
    List.forall₂_map_left_iff.2 (List.forall₂_map_right_iff.2
      (hsetup.edits.imp fun _ _ hedit => ⟨rfl, hedit⟩))
  unfold Run.enroll
  rw [htwins.stages, ← hsetup.result, ← hsetup.emitted]
  exact ⟨hemit.stopAt, hemit.requested, rfl, List.rel_append htwins.chain hlinks, hemit.journal⟩

theorem absorb (htwins : run.Twins like other) (stage index : Nat) (program : Program)
    {reply reply' : Reply σ} (hreply : reply.Alike like reply') :
    (run.absorb stage index program reply).Twins like
      (other.absorb stage index program reply') := by
  have hcalled := htwins.called (.edit index program reply.result) hreply.cancelled
  have hemit := hcalled.emit stage reply.emitted
  unfold Run.absorb
  rw [htwins.stages, ← hreply.result, ← hreply.emitted]
  exact ⟨hemit.stopAt, hemit.requested, rfl, hemit.chain, hemit.journal⟩

theorem announce (hfollows : List.Forall₂ Plugin.Follows plugins others)
    (htwins : run.Twins like other) (phase : Phase) (index : Nat) :
    (run.announce phase index plugins).Twins like (other.announce phase index others) := by
  induction hfollows generalizing run other index with
  | nil => exact htwins
  | @cons plugin follower rest more hplugin hrest ih =>
      refine ih (htwins.watched _ ?_) (index + 1)
      unfold Run.watching
      rw [htwins.cancelled]
      exact hplugin.onPhase phase other.cancelled run.watch other.watch

/-! ## Collecting -/

/-- Two editors from the same marker that are alike. -/
def EntriesAlike (like : Likeness σ) (entries entries' : List (MarkerOrigin × Editor σ)) : Prop :=
  List.Forall₂ (fun entry entry' => entry.1 = entry'.1 ∧ entry.2.Alike like entry'.2) entries entries'

theorem discover (broken : Prop) {markers : List (Marker σ)} (htwins : run.Twins like other)
    (hasked : AskedAlike like markers run.shared.memory other.shared.memory) (index : Nat) :
    GoesAlike like broken (EntriesAlike like) (run.discover index markers)
      (other.discover index markers) := by
  induction markers generalizing run other index with
  | nil => exact .gave .nil htwins hasked
  | cons marker rest ih =>
      have hanswers := hasked other.cancelled
      have hsharing : run.sharing = ⟨other.cancelled, run.shared.memory⟩ := by
        rw [Run.sharing, htwins.cancelled]
      unfold Run.discover
      rw [hsharing, Run.sharing]
      generalize marker.editors ⟨other.cancelled, run.shared.memory⟩ = answer at hanswers ⊢
      generalize marker.editors ⟨other.cancelled, other.shared.memory⟩ = answer' at hanswers ⊢
      cases hanswers with
      | refused failure requested left left' => exact .failed _ (htwins.called _ rfl)
      | @gave editors editors' requested left left' heditors hrest =>
          have hcalled : (run.called (.discover index none) ⟨requested, left⟩).Twins like
              (other.called (.discover index none) ⟨requested, left'⟩) := htwins.called _ rfl
          have hfound := ih hcalled hrest (index + 1)
          dsimp only
          generalize Run.discover (index + 1) rest (run.called _ _) = found at hfound ⊢
          generalize Run.discover (index + 1) rest (other.called _ _) = found' at hfound ⊢
          cases hfound with
          | broken hbroken => exact .broken hbroken _ _ _
          | failed error hafter => exact .failed error hafter
          | gave hmore hafter hmemory =>
              refine .gave (List.rel_append ?_ hmore) hafter hmemory
              exact List.forall₂_map_left_iff.2 (List.forall₂_map_right_iff.2
                (heditors.imp fun _ _ heditor => ⟨rfl, heditor⟩))

theorem setUpAll (broken : Prop) (program : Program) {entries entries' : List (MarkerOrigin × Editor σ)}
    (hentries : EntriesAlike like entries entries') (htwins : run.Twins like other)
    (hmemory : like.memory run.shared.memory other.shared.memory) :
    GoesAlike like broken Eq (run.setUpAll program entries) (other.setUpAll program entries') := by
  induction hentries generalizing run other with
  | nil => exact .gave rfl htwins hmemory
  | @cons entry entry' rest rest' hentry hrest ih =>
      obtain ⟨origin, editor⟩ := entry
      obtain ⟨_, editor'⟩ := entry'
      obtain ⟨rfl, heditor⟩ := hentry
      unfold Run.setUpAll
      rw [htwins.cancelled, ← heditor.name]
      cases other.cancelled with
      | true => exact .failed _ htwins.poll
      | false =>
          have hsetup : (editor.setUp program run.poll.sharing).Alike like
              (editor'.setUp program other.poll.sharing) := by
            unfold Run.sharing
            rw [htwins.poll.cancelled]
            exact heditor.setUp program _ _ _ hmemory
          have henrolled := htwins.poll.enroll origin editor.name program hsetup
          simp only [Bool.false_eq_true, if_false]
          rw [hsetup.result]
          cases (editor'.setUp program other.poll.sharing).result with
          | error failure => exact .failed _ henrolled
          | ok done => exact ih henrolled hsetup.memory

/-- **Collecting goes alike** if the markers answer alike. -/
theorem collect (broken : Prop) (program : Program) {markers : List (Marker σ)}
    (hasked : AskedAlike like markers run.shared.memory other.shared.memory)
    (htwins : run.Twins like other) :
    GoesAlike like broken Eq (run.collect program markers) (other.collect program markers) := by
  unfold Run.collect
  rw [htwins.cancelled]
  cases other.cancelled with
  | true => exact .failed _ htwins.poll
  | false =>
      have hfound := Twins.discover broken htwins.poll hasked 0
      simp only [Bool.false_eq_true, if_false]
      generalize Run.discover 0 markers run.poll = found at hfound ⊢
      generalize Run.discover 0 markers other.poll = found' at hfound ⊢
      cases hfound with
      | broken hbroken => exact .broken hbroken _ _ _
      | failed error hafter => exact .failed _ hafter
      | gave hentries hafter hmemory => exact hafter.setUpAll broken program hentries hmemory

/-! ## Executing -/

/-- Hooks of plugins that follow each other go alike. -/
theorem callHooks (broken : Prop) (hook : Plugin π → Hook π) (hook' : Plugin π' → Hook π')
    (event : Nat → Option Failure → Event) (info : EditInfo) (program : Program) (index : Nat)
    (hbroken : ∀ plugin ∈ plugins, ∀ shared failure,
      (hook plugin info program shared).1 = .error failure → broken)
    (hfollows : List.Forall₂ (fun plugin follower => ∀ cancelled memory memory',
      FollowsCall (hook plugin info program ⟨cancelled, memory⟩)
        (hook' follower info program ⟨cancelled, memory'⟩)) plugins others)
    (htwins : run.Twins like other)
    (hmemory : like.memory run.shared.memory other.shared.memory) :
    GoesAlike like broken Eq (run.callHooks hook event info program index plugins)
      (other.callHooks hook' event info program index others) := by
  induction hfollows generalizing run other index with
  | nil => exact .gave rfl htwins hmemory
  | @cons plugin follower rest more hplugin hrest ih =>
      have hcall := hplugin other.cancelled run.watch other.watch
      have hbreaks := hbroken plugin List.mem_cons_self ⟨other.cancelled, run.watch⟩
      unfold Run.callHooks Run.watching
      rw [htwins.cancelled]
      generalize hook plugin info program ⟨other.cancelled, run.watch⟩ = call at hcall hbreaks ⊢
      generalize hook' follower info program ⟨other.cancelled, other.watch⟩ = call' at hcall ⊢
      obtain ⟨result, shared⟩ := call
      obtain ⟨result', shared'⟩ := call'
      rcases hcall with ⟨failure, hfails⟩ | ⟨hresult, hrequested⟩
      · obtain rfl : result = .error failure := hfails
        exact .broken (hbreaks failure rfl) _ _ _
      · obtain rfl : result = result' := hresult
        cases result with
        | error failure => exact .failed _ (htwins.watched _ hrequested)
        | ok done =>
            exact ih (index + 1) (fun other hother => hbroken other (List.mem_cons_of_mem plugin hother))
              (htwins.watched _ hrequested) hmemory

theorem applyLink (hlawful : like.Lawful) (hfollows : List.Forall₂ Plugin.Follows plugins others)
    (index : Nat) {link link' : Link σ} (hlink : link.Alike like link') (program : Program)
    (htwins : run.Twins like other)
    (hmemory : like.memory run.shared.memory other.shared.memory) :
    GoesAlike like (∃ plugin ∈ plugins, plugin.MayFail) Eq
      (run.applyLink plugins index link program) (other.applyLink others index link' program) := by
  let info : EditInfo := ⟨index, (other.outbox link'.stage).stage⟩
  have hbefore := callHooks (∃ plugin ∈ plugins, plugin.MayFail) Plugin.beforeEdit
    Plugin.beforeEdit (.before · info program ·) info program 0 (fun plugin hplugin shared failure hfails =>
      ⟨plugin, hplugin, info, program, shared, failure, .inl hfails⟩)
    (hfollows.imp fun plugin follower hplugin => hplugin.beforeEdit info program) htwins hmemory
  unfold Run.applyLink
  rw [htwins.outbox, hlink.stage]
  dsimp only
  generalize run.callHooks Plugin.beforeEdit (.before · info program ·) info program 0 plugins =
    heard at hbefore ⊢
  generalize other.callHooks Plugin.beforeEdit (.before · info program ·) info program 0 others =
    heard' at hbefore ⊢
  cases hbefore with
  | broken hbroken => exact .broken hbroken _ _ _
  | failed failure hafter => exact .failed _ hafter
  | @gave _ _ ready ready' _ hready hmemory =>
      -- the edits see the same, so they reply alike
      have hreply : (link.edit program (ready.outbox link'.stage) ready.sharing).Alike like
          (link'.edit program (ready'.outbox link'.stage) ready'.sharing) := by
        unfold Run.sharing
        rw [hready.outbox, hready.cancelled]
        exact hlawful _ _ hlink.edit program _ _ _ _ hmemory
      have habsorbed := hready.absorb link'.stage index program hreply
      dsimp only
      rw [hreply.result]
      cases (link'.edit program (ready'.outbox link'.stage) ready'.sharing).result with
      | error failure => exact .failed _ habsorbed
      | ok next =>
          have hafter := callHooks (∃ plugin ∈ plugins, plugin.MayFail) Plugin.afterEdit
            Plugin.afterEdit (.after · info next ·) info next 0 (fun plugin hplugin shared failure hfails =>
              ⟨plugin, hplugin, info, next, shared, failure, .inr hfails⟩)
            (hfollows.imp fun plugin follower hplugin => hplugin.afterEdit info next) habsorbed
            hreply.memory
          dsimp only
          generalize Run.callHooks Plugin.afterEdit _ _ next 0 plugins _ = heard at hafter ⊢
          generalize Run.callHooks Plugin.afterEdit _ _ next 0 others _ = heard' at hafter ⊢
          cases hafter with
          | broken hbroken => exact .broken hbroken _ _ _
          | failed failure hafter => exact .failed _ hafter
          | gave _ hafter hmemory => exact .gave rfl hafter hmemory

theorem execute (hlawful : like.Lawful) (hfollows : List.Forall₂ Plugin.Follows plugins others)
    (index : Nat) {links links' : List (Link σ)}
    (hlinks : List.Forall₂ (Link.Alike like) links links') (program : Program)
    (htwins : run.Twins like other)
    (hmemory : like.memory run.shared.memory other.shared.memory) :
    GoesAlike like (∃ plugin ∈ plugins, plugin.MayFail) Eq
      (run.execute plugins index links program) (other.execute others index links' program) := by
  induction hlinks generalizing run other index program with
  | nil => exact .gave rfl htwins hmemory
  | @cons link link' rest rest' hlink hrest ih =>
      unfold Run.execute
      rw [htwins.cancelled]
      cases other.cancelled with
      | true => exact .failed _ htwins.poll
      | false =>
          have happlied := applyLink hlawful hfollows index hlink program htwins.poll hmemory
          simp only [Bool.false_eq_true, if_false]
          generalize run.poll.applyLink plugins index link program = applied at happlied ⊢
          generalize other.poll.applyLink others index link' program = applied' at happlied ⊢
          cases happlied with
          | broken hbroken => exact .broken hbroken _ _ _
          | failed error hafter => exact .failed _ hafter
          | @gave next next' after after' hnext hafter hmemory =>
              obtain rfl : next = next' := hnext
              exact ih (index + 1) next hafter hmemory

theorem finish {α : Type} (hfollows : List.Forall₂ Plugin.Follows plugins others)
    (outcome : Findings → α) (htwins : run.Twins like other) :
    (run.finish plugins outcome).outcome = (other.finish others outcome).outcome ∧
      (run.finish plugins outcome).journal = (other.finish others outcome).journal := by
  rw [Run.outcome_finish, Run.outcome_finish, htwins.findings]
  exact ⟨rfl, (htwins.announce hfollows .done 0).journal⟩

end Twins

end Run

/-! ## Whole runs -/

namespace Pipeline

variable {like : Likeness σ} {plugins : List (Plugin π)} {others : List (Plugin π')}
  {memory memory' : σ}

/-- Two runs that have just entered the collecting phase are twins. -/
theorem start_twins (like : Likeness σ) (hfollows : List.Forall₂ Plugin.Follows plugins others)
    (cancelled : Bool) (memory memory' : σ) (watch : π) (watch' : π') (stopAt : Option Nat) :
    (({ plugins } : Pipeline π).start ⟨cancelled, memory⟩ watch stopAt).Twins like
      (({ plugins := others } : Pipeline π').start ⟨cancelled, memory'⟩ watch' stopAt) := by
  have hnew : ({ shared := ⟨cancelled, memory⟩, watch, stopAt } : Run σ π).Twins like
      ({ shared := ⟨cancelled, memory'⟩, watch := watch', stopAt } : Run σ π') :=
    ⟨rfl, rfl, rfl, .nil, rfl⟩
  exact hnew.announce hfollows .collecting 0

theorem collect_twins (broken : Prop) (hfollows : List.Forall₂ Plugin.Follows plugins others)
    (program : Program) {markers : List (Marker σ)} (hasked : AskedAlike like markers memory memory')
    (cancelled : Bool) (watch : π) (watch' : π') (stopAt : Option Nat) :
    Run.GoesAlike like broken Eq
      ((({ plugins } : Pipeline π).start ⟨cancelled, memory⟩ watch stopAt).collect program markers)
      ((({ plugins := others } : Pipeline π').start ⟨cancelled, memory'⟩ watch' stopAt).collect
        program markers) := by
  refine (start_twins like hfollows cancelled memory memory' watch watch' stopAt).collect broken
    program ?_
  rwa [memory_start, memory_start]

/-- **Runs that are watched alike go alike.**  Either the first one is broken off by a plugin
that fails, or the two have the same outcome and the same journal. -/
theorem run_twins (hlawful : like.Lawful) (hfollows : List.Forall₂ Plugin.Follows plugins others)
    (program : Program) {markers : List (Marker σ)} (hasked : AskedAlike like markers memory memory')
    (cancelled : Bool) (watch : π) (watch' : π') (stopAt : Option Nat) :
    let ran := ({ plugins } : Pipeline π).run program markers ⟨cancelled, memory⟩ watch stopAt
    let other := ({ plugins := others } : Pipeline π').run program markers ⟨cancelled, memory'⟩
      watch' stopAt
    ((∃ plugin ∈ plugins, plugin.MayFail) ∧ ran.outcome.isCompleted = false) ∨
      (ran.outcome = other.outcome ∧ ran.journal = other.journal) := by
  have hcollect := collect_twins (∃ plugin ∈ plugins, plugin.MayFail) hfollows program hasked
    cancelled watch watch' stopAt
  unfold run
  dsimp only
  generalize Run.collect program markers (Pipeline.start ⟨plugins⟩ _ watch stopAt) = collected
    at hcollect ⊢
  generalize Run.collect program markers (Pipeline.start ⟨others⟩ _ watch' stopAt) = collected'
    at hcollect ⊢
  cases hcollect with
  | broken hbroken error run => exact .inl ⟨hbroken, by simp [Outcome.isCompleted]⟩
  | failed error htwins => exact .inr (htwins.finish hfollows _)
  | @gave done done' entered entered' _ htwins hmemory =>
      have hannounced := htwins.announce hfollows .executing 0
      have hexecute := Run.Twins.execute hlawful hfollows 0 hannounced.chain program hannounced (by
        rwa [Run.memory_announce, Run.memory_announce])
      dsimp only
      generalize Run.execute plugins 0 _ program _ = executed at hexecute ⊢
      generalize Run.execute others 0 _ program _ = executed' at hexecute ⊢
      cases hexecute with
      | broken hbroken error run => exact .inl ⟨hbroken, by simp [Outcome.isCompleted]⟩
      | failed error htwins => exact .inr (htwins.finish hfollows _)
      | @gave next next' after after' hnext htwins hmemory =>
          obtain rfl : next = next' := hnext
          exact .inr (htwins.finish hfollows _)

end Pipeline

end EditPipeline
