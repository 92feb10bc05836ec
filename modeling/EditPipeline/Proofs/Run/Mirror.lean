import Mathlib.Data.List.Forall2
import EditPipeline.Proofs.Run.Looks

/-!
# Two runs that go alike

A run without plugins is the mirror of a run that plugins watch: as long as none of them
requests cancellation, what they do shows only in what they remember and hear.  The two
runs may also start with different memories of the code that they call, provided that
the markers make their editors afresh.

`Mirrors` says that the runs agree in all that an outcome shows, and `Matches` that the
memories are alike as well.  Each step of the collecting phase keeps this.  What counts
as alike is a parameter; with `Likeness.same` the runs have the same memory and the same
chain, and nothing is asked of the markers.

Nobody outside requests cancellation in these runs: such requests come by the number
of events, and plugins make for more events.
-/

namespace EditPipeline

variable {σ π : Type}

/-- The plugin never requests cancellation. -/
structure Plugin.NeverCancels (plugin : Plugin π) : Prop where
  onPhase : ∀ phase shared,
    (plugin.onPhase phase shared).cancelled = true → shared.cancelled = true
  beforeEdit : ∀ info program shared,
    (plugin.beforeEdit info program shared).2.cancelled = true → shared.cancelled = true
  afterEdit : ∀ info program shared,
    (plugin.afterEdit info program shared).2.cancelled = true → shared.cancelled = true

/-! ## Journals without plugins -/

/-- A journal without what plugins heard. -/
def unheard (journal : Journal) : Journal := journal.filter fun event => !event.isHeard

theorem unheard_append (journal more : Journal) :
    unheard (journal ++ more) = unheard journal ++ unheard more := List.filter_append _ _

theorem unheard_cons {event : Event} (hheard : event.isHeard = false) (rest : Journal) :
    unheard (event :: rest) = event :: unheard rest :=
  List.filter_cons_of_pos (by rw [hheard]; rfl)

theorem unheard_heard {event : Event} (hheard : event.isHeard = true) : unheard [event] = [] :=
  List.filter_cons_of_neg (by rw [hheard]; simp)

theorem emissions_unheard (journal : Journal) :
    emissions (unheard journal) = emissions journal := by
  induction journal with
  | nil => rfl
  | cons event rest ih =>
      rw [← List.singleton_append, unheard_append, emissions_append, emissions_append, ih]
      congr 1
      cases event <;> rfl

theorem toldBy_unheard (stages : List StageInfo) (journal : Journal) :
    toldBy stages (unheard journal) = toldBy stages journal := by
  rw [toldBy, toldBy, emissions_unheard]

/-! ## What is alike -/

/-- Which memories and which edits are alike. -/
structure Likeness (σ : Type) where
  memory : σ → σ → Prop
  edit : Edit σ → Edit σ → Prop

/-- Only what is the same is alike. -/
def Likeness.same (σ : Type) : Likeness σ := ⟨Eq, Eq⟩

variable (like : Likeness σ)

/-- Two initializations that left the same to see, and memories and edits that are alike. -/
structure Setup.Alike (setup other : Setup σ) : Prop where
  result : setup.result = other.result
  emitted : setup.emitted = other.emitted
  edits : List.Forall₂ like.edit setup.edits other.edits
  cancelled : setup.shared.cancelled = other.shared.cancelled
  memory : like.memory setup.shared.memory other.shared.memory

/-- Two editors whose initializations are alike whenever the memories are. -/
structure Editor.Alike (editor other : Editor σ) : Prop where
  name : editor.name = other.name
  setUp : ∀ program cancelled memory memory', like.memory memory memory' →
    (editor.setUp program ⟨cancelled, memory⟩).Alike like
      (other.setUp program ⟨cancelled, memory'⟩)

/-- Asked with either memory, one after the other, the markers fail alike, or they give
editors that are alike and leave memories that are. -/
inductive MadeAfresh : List (Marker σ) → Bool → σ → σ → Prop where
  | done {cancelled : Bool} {memory memory' : σ} (hmemory : like.memory memory memory') :
      MadeAfresh [] cancelled memory memory'
  | refused {marker : Marker σ} {rest : List (Marker σ)} {cancelled requested : Bool}
      {memory memory' left left' : σ} {failure : Failure}
      (hfails : marker.editors ⟨cancelled, memory⟩ = (.error failure, ⟨requested, left⟩))
      (hfails' : marker.editors ⟨cancelled, memory'⟩ = (.error failure, ⟨requested, left'⟩)) :
      MadeAfresh (marker :: rest) cancelled memory memory'
  | gave {marker : Marker σ} {rest : List (Marker σ)} {cancelled requested : Bool}
      {memory memory' left left' : σ} {editors editors' : List (Editor σ)}
      (hgives : marker.editors ⟨cancelled, memory⟩ = (.ok editors, ⟨requested, left⟩))
      (hgives' : marker.editors ⟨cancelled, memory'⟩ = (.ok editors', ⟨requested, left'⟩))
      (heditors : List.Forall₂ (Editor.Alike like) editors editors')
      (hrest : MadeAfresh rest (cancelled || requested) left left') :
      MadeAfresh (marker :: rest) cancelled memory memory'

/-- Two links of one stage with edits that are alike. -/
structure Link.Alike (link other : Link σ) : Prop where
  stage : link.stage = other.stage
  edit : like.edit link.edit other.edit

theorem Editor.alike_same (editor : Editor σ) : editor.Alike (.same σ) editor where
  name := rfl
  setUp program cancelled memory memory' hmemory := by
    obtain rfl : memory = memory' := hmemory
    exact ⟨rfl, rfl, List.forall₂_same.2 fun _ _ => rfl, rfl, rfl⟩

/-- With the same memory, markers give the same editors. -/
theorem madeAfresh_same (markers : List (Marker σ)) (cancelled : Bool) (memory : σ) :
    MadeAfresh (.same σ) markers cancelled memory memory := by
  induction markers generalizing cancelled memory with
  | nil => exact .done rfl
  | cons marker rest ih =>
      cases hcall : marker.editors ⟨cancelled, memory⟩ with
      | mk answer shared =>
          cases answer with
          | error failure => exact .refused hcall hcall
          | ok editors =>
              exact .gave hcall hcall (List.forall₂_same.2 fun editor _ => editor.alike_same)
                (ih _ _)

variable {like}

/-- Chains that are alike have links of the same stages. -/
theorem stages_of_alike {chain other : List (Link σ)}
    (hchain : List.Forall₂ (Link.Alike like) chain other) :
    chain.map Link.stage = other.map Link.stage := by
  induction hchain with
  | nil => rfl
  | cons hlink hrest ih => rw [List.map_cons, List.map_cons, ih, hlink.stage]

theorem eq_of_alike_same {chain other : List (Link σ)}
    (hchain : List.Forall₂ (Link.Alike (.same σ)) chain other) : chain = other := by
  induction hchain with
  | nil => rfl
  | @cons link other chain others hlink hrest ih =>
      obtain ⟨stage, edit⟩ := link
      obtain ⟨hstage, hedit⟩ := hlink
      obtain rfl : stage = other.stage := hstage
      obtain rfl : edit = other.edit := hedit
      rw [ih]

namespace Run

/-! ## Runs that are alike -/

/-- The runs agree in all that an outcome shows, but plugins only watch one of them. -/
structure Mirrors (like : Likeness σ) (run : Run σ π) (alone : Run σ Unit) : Prop where
  stopAt : run.stopAt = none
  stopAt_alone : alone.stopAt = none
  requested : run.shared.cancelled = alone.shared.cancelled
  stages : run.stages = alone.stages
  chain : List.Forall₂ (Link.Alike like) run.chain alone.chain
  journal : unheard run.journal = alone.journal

/-- The memories are alike as well. -/
structure Matches (like : Likeness σ) (run : Run σ π) (alone : Run σ Unit) : Prop
    extends Mirrors like run alone where
  memory : like.memory run.shared.memory alone.shared.memory

variable {run after : Run σ π} {alone : Run σ Unit}

theorem cancelled_of_stopAt (hstopAt : run.stopAt = none) :
    run.cancelled = run.shared.cancelled := by
  simp [cancelled, hstopAt]

namespace Mirrors

theorem cancelled (hmirrors : run.Mirrors like alone) : run.cancelled = alone.cancelled := by
  rw [cancelled_of_stopAt hmirrors.stopAt, cancelled_of_stopAt hmirrors.stopAt_alone,
    hmirrors.requested]

theorem outbox (hmirrors : run.Mirrors like alone) (stage : Nat) :
    run.outbox stage = alone.outbox stage := by
  rw [Run.outbox, Run.outbox, hmirrors.stages]

theorem findings (hmirrors : run.Mirrors like alone) : run.findings = alone.findings := by
  have hcount (index : Nat) : (run.chain.countP fun link => link.stage = index) =
      alone.chain.countP fun link => link.stage = index := by
    have hstages := congrArg (List.countP fun stage => stage = index)
      (stages_of_alike hmirrors.chain)
    rwa [List.countP_map, List.countP_map] at hstages
  simp only [Run.findings, Run.stageInfos, Run.diagnostics, hmirrors.stages, hcount]

theorem note (hmirrors : run.Mirrors like alone) (event : Event)
    (hheard : event.isHeard = false) (cancelled : Bool) :
    (run.note event cancelled).Mirrors like (alone.note event cancelled) where
  stopAt := hmirrors.stopAt
  stopAt_alone := hmirrors.stopAt_alone
  requested := by simp [Run.note, hmirrors.cancelled]
  stages := hmirrors.stages
  chain := hmirrors.chain
  journal := by
    simp only [Run.note, unheard_append, unheard_cons hheard, hmirrors.cancelled,
      hmirrors.journal]
    split <;> rfl

theorem poll (hmirrors : run.Mirrors like alone) : run.poll.Mirrors like alone.poll := by
  unfold Run.poll
  rw [hmirrors.cancelled]
  exact hmirrors.note _ rfl _

theorem called (hmirrors : run.Mirrors like alone) (event : Event)
    (hheard : event.isHeard = false) {shared shared' : Shared σ}
    (hrequested : shared.cancelled = shared'.cancelled) :
    (run.called event shared).Mirrors like (alone.called event shared') := by
  have hnote := hmirrors.note event hheard shared.cancelled
  unfold Run.called
  rw [← hrequested]
  exact ⟨hnote.stopAt, hnote.stopAt_alone, hnote.requested, hnote.stages, hnote.chain,
    hnote.journal⟩

theorem emit (hmirrors : run.Mirrors like alone) (stage : Nat)
    (diagnostics : List Diagnostic) :
    (run.emit stage diagnostics).Mirrors like (alone.emit stage diagnostics) where
  stopAt := hmirrors.stopAt
  stopAt_alone := hmirrors.stopAt_alone
  requested := hmirrors.requested
  stages := hmirrors.stages
  chain := hmirrors.chain
  journal := by
    have hemitted : unheard (diagnostics.map (.emit stage)) = diagnostics.map (.emit stage) :=
      List.filter_eq_self.2 (by simp)
    simp only [Run.emit, unheard_append, hmirrors.journal, hemitted]

theorem enroll (hmirrors : run.Mirrors like alone) (origin : MarkerOrigin) (name : String)
    (program : Program) {setup setup' : Setup σ} (hsetup : setup.Alike like setup') :
    (run.enroll origin name program setup).Mirrors like
      (alone.enroll origin name program setup') := by
  have hcalled := hmirrors.called
    (.setUp alone.stages.length name program (Failure.of? setup.result)) rfl hsetup.cancelled
  have hemit := hcalled.emit alone.stages.length setup.emitted
  have hlinks : List.Forall₂ (Link.Alike like) (setup.edits.map (Link.mk alone.stages.length))
      (setup'.edits.map (Link.mk alone.stages.length)) :=
    List.forall₂_map_left_iff.2 (List.forall₂_map_right_iff.2
      (hsetup.edits.imp fun _ _ hedit => ⟨rfl, hedit⟩))
  -- the new stage has the same number in both runs, so it hears the same
  unfold Run.enroll
  rw [hmirrors.stages, ← hsetup.result, ← hsetup.emitted]
  exact ⟨hemit.stopAt, hemit.stopAt_alone, hemit.requested, rfl,
    List.rel_append hmirrors.chain hlinks, hemit.journal⟩

/-- What a plugin does shows nowhere in the run alone. -/
theorem watched (hmirrors : run.Mirrors like alone) {event : Event}
    (hheard : event.isHeard = true) {shared : Shared π}
    (hquiet : shared.cancelled = true → run.cancelled = true) :
    (run.watched event shared).Mirrors like alone where
  stopAt := hmirrors.stopAt
  stopAt_alone := hmirrors.stopAt_alone
  requested := by
    have hknown : (run.cancelled || shared.cancelled) = run.cancelled :=
      Bool.or_eq_left_iff_imp.2 hquiet
    change (run.cancelled || shared.cancelled) = _
    rw [hknown, cancelled_of_stopAt hmirrors.stopAt, hmirrors.requested]
  stages := hmirrors.stages
  chain := hmirrors.chain
  journal := by
    have hnew : (shared.cancelled && !run.cancelled) = false := by
      cases hshared : shared.cancelled with
      | false => rfl
      | true => simp [hquiet hshared]
    simp only [Run.watched, Run.note, hnew, Bool.false_eq_true, if_false, unheard_append,
      unheard_heard hheard, List.append_nil, hmirrors.journal]

theorem announce {plugins : List (Plugin π)} (hnever : ∀ plugin ∈ plugins, plugin.NeverCancels)
    (hmirrors : run.Mirrors like alone) (phase : Phase) (index : Nat) :
    (run.announce phase index plugins).Mirrors like alone := by
  induction plugins generalizing index run with
  | nil => exact hmirrors
  | cons plugin rest ih =>
      have hfirst := hnever plugin List.mem_cons_self
      refine ih (fun other hother => hnever other (List.mem_cons_of_mem plugin hother)) ?_ _
      exact hmirrors.watched rfl (hfirst.onPhase phase run.watching)

end Mirrors

/-! ## Collecting -/

/-- Asking markers ended alike: they were refused, or gave editors that are alike. -/
inductive FoundAlike (like : Likeness σ) :
    Except PipelineError (List (MarkerOrigin × Editor σ)) × Run σ π →
      Except PipelineError (List (MarkerOrigin × Editor σ)) × Run σ Unit → Prop where
  | refused (error : PipelineError) {run : Run σ π} {alone : Run σ Unit}
      (hmirrors : run.Mirrors like alone) :
      FoundAlike like (.error error, run) (.error error, alone)
  | gave {entries others : List (MarkerOrigin × Editor σ)} {run : Run σ π} {alone : Run σ Unit}
      (hentries : List.Forall₂ (fun entry other => entry.1 = other.1 ∧ entry.2.Alike like other.2)
        entries others)
      (hmatches : run.Matches like alone) : FoundAlike like (.ok entries, run) (.ok others, alone)

theorem Mirrors.discover {markers : List (Marker σ)} {cancelled : Bool} {memory memory' : σ}
    (hfresh : MadeAfresh like markers cancelled memory memory')
    (hmirrors : run.Mirrors like alone) (hcancelled : alone.cancelled = cancelled)
    (hmemory : run.shared.memory = memory) (hmemory' : alone.shared.memory = memory')
    (index : Nat) :
    FoundAlike like (run.discover index markers) (alone.discover index markers) := by
  have hsharing : run.sharing = ⟨cancelled, memory⟩ := by
    rw [Run.sharing, hmirrors.cancelled, hcancelled, hmemory]
  have hsharing' : alone.sharing = ⟨cancelled, memory'⟩ := by
    rw [Run.sharing, hcancelled, hmemory']
  -- along the answers of the markers: in between, the memories need not be alike
  induction hfresh generalizing index run alone with
  | done hlike => exact .gave .nil ⟨hmirrors, by rwa [hmemory, hmemory']⟩
  | refused hfails hfails' =>
      unfold Run.discover
      rw [hsharing, hsharing', hfails, hfails']
      exact .refused _ (hmirrors.called _ rfl rfl)
  | @gave marker rest cancelled requested memory memory' left left' editors editors' hgives
      hgives' heditors hrest ih =>
      unfold Run.discover
      rw [hsharing, hsharing', hgives, hgives']
      have hcalled : (run.called (.discover index none) ⟨requested, left⟩).Mirrors like
          (alone.called (.discover index none) ⟨requested, left'⟩) := hmirrors.called _ rfl rfl
      have hrequested : (alone.called (.discover index none) ⟨requested, left'⟩).cancelled =
          (cancelled || requested) := by
        rw [cancelled_of_stopAt hcalled.stopAt_alone, ← hcancelled]
        rfl
      have hfound := ih hcalled hrequested rfl rfl (index + 1)
        (by rw [Run.sharing, hcalled.cancelled, hrequested]; rfl)
        (by rw [Run.sharing, hrequested]; rfl)
      dsimp only
      generalize Run.discover (index + 1) rest (run.called _ _) = watched at hfound ⊢
      generalize Run.discover (index + 1) rest (alone.called _ _) = quiet at hfound ⊢
      cases hfound with
      | refused error hmirrors => exact .refused error hmirrors
      | gave hentries hmatches =>
          refine .gave (List.rel_append ?_ hentries) hmatches
          exact List.forall₂_map_left_iff.2 (List.forall₂_map_right_iff.2
            (heditors.imp fun _ _ heditor => ⟨rfl, heditor⟩))

namespace Matches

theorem poll (hmatches : run.Matches like alone) : run.poll.Matches like alone.poll :=
  ⟨hmatches.toMirrors.poll, hmatches.memory⟩

theorem setUpAll (program : Program) {entries others : List (MarkerOrigin × Editor σ)}
    (hentries : List.Forall₂ (fun entry other => entry.1 = other.1 ∧ entry.2.Alike like other.2)
      entries others) (hmatches : run.Matches like alone) :
    (run.setUpAll program entries).1 = (alone.setUpAll program others).1 ∧
      (run.setUpAll program entries).2.Matches like (alone.setUpAll program others).2 := by
  induction hentries generalizing run alone with
  | nil => exact ⟨rfl, hmatches⟩
  | @cons entry other rest others hentry hrest ih =>
      obtain ⟨origin, editor⟩ := entry
      obtain ⟨_, editor'⟩ := other
      obtain ⟨rfl, heditor⟩ := hentry
      unfold Run.setUpAll
      rw [hmatches.cancelled, ← heditor.name]
      cases alone.cancelled with
      | true => exact ⟨rfl, hmatches.poll⟩
      | false =>
          have hsetup : (editor.setUp program run.poll.sharing).Alike like
              (editor'.setUp program alone.poll.sharing) := by
            unfold Run.sharing
            rw [hmatches.poll.cancelled]
            exact heditor.setUp program _ _ _ hmatches.memory
          have henrolled := hmatches.poll.enroll origin editor.name program hsetup
          simp only [Bool.false_eq_true, if_false]
          rw [hsetup.result]
          cases (editor'.setUp program alone.poll.sharing).result with
          | error failure => exact ⟨rfl, henrolled, hsetup.memory⟩
          | ok done => exact ih ⟨henrolled, hsetup.memory⟩

end Matches

/-- **Collecting goes alike** if the markers make their editors afresh. -/
theorem Mirrors.collect (program : Program) {markers : List (Marker σ)}
    (hfresh : MadeAfresh like markers alone.cancelled run.shared.memory alone.shared.memory)
    (hmirrors : run.Mirrors like alone) :
    (run.collect program markers).1 = (alone.collect program markers).1 ∧
      (run.collect program markers).2.Mirrors like (alone.collect program markers).2 ∧
      ((run.collect program markers).1 = .ok () →
        (run.collect program markers).2.Matches like (alone.collect program markers).2) := by
  unfold Run.collect
  rw [hmirrors.cancelled]
  cases hcancelled : alone.cancelled with
  | true => exact ⟨rfl, hmirrors.poll, nofun⟩
  | false =>
      rw [hcancelled] at hfresh
      have hpolled : alone.poll.cancelled = false := by
        rw [cancelled_of_stopAt hmirrors.poll.stopAt_alone]
        change (alone.cancelled || alone.cancelled) = false
        rw [hcancelled, Bool.or_false]
      have hfound := hmirrors.poll.discover hfresh hpolled rfl rfl 0
      simp only [Bool.false_eq_true, if_false]
      generalize Run.discover 0 markers run.poll = watched at hfound ⊢
      generalize Run.discover 0 markers alone.poll = quiet at hfound ⊢
      cases hfound with
      | refused error hmirrors => exact ⟨rfl, hmirrors, nofun⟩
      | gave hentries hmatches =>
          obtain ⟨hresult, hafter⟩ := hmatches.setUpAll program hentries
          exact ⟨hresult, hafter.toMirrors, fun _ => hafter⟩

/-! ## Executing with the same memory -/

namespace Matches

theorem chain_eq (hmatches : run.Matches (.same σ) alone) : run.chain = alone.chain :=
  eq_of_alike_same hmatches.chain

theorem sharing (hmatches : run.Matches (.same σ) alone) : run.sharing = alone.sharing := by
  have hmemory : run.shared.memory = alone.shared.memory := hmatches.memory
  rw [Run.sharing, Run.sharing, hmatches.cancelled, hmemory]

theorem absorb (hmatches : run.Matches (.same σ) alone) (stage index : Nat) (program : Program)
    (reply : Reply σ) :
    (run.absorb stage index program reply).Matches (.same σ)
      (alone.absorb stage index program reply) := by
  have hcalled := hmatches.called (.edit index program reply.result) rfl
    (rfl : reply.shared.cancelled = reply.shared.cancelled)
  have hemit := hcalled.emit stage reply.emitted
  unfold Run.absorb
  rw [hmatches.stages]
  exact ⟨⟨hemit.stopAt, hemit.stopAt_alone, hemit.requested, rfl, hemit.chain, hemit.journal⟩, rfl⟩

variable {plugins : List (Plugin π)}

theorem announce (hnever : ∀ plugin ∈ plugins, plugin.NeverCancels)
    (hmatches : run.Matches like alone) (phase : Phase) (index : Nat) :
    (run.announce phase index plugins).Matches like alone :=
  ⟨hmatches.toMirrors.announce hnever phase index, by simpa using hmatches.memory⟩

/-- Hooks that succeed show nowhere in the run alone. -/
theorem hears {hook : Plugin π → Hook π} {event : Nat → Option Failure → Event}
    {info : EditInfo} {program : Program} {index : Nat}
    (hevent : ∀ index failure, (event index failure).isHeard = true)
    (hquiet : ∀ plugin ∈ plugins, ∀ shared,
      (hook plugin info program shared).2.cancelled = true → shared.cancelled = true)
    (hhears : Hears hook event info program index run plugins after)
    (hmatches : run.Matches like alone) : after.Matches like alone := by
  induction hhears with
  | nil => exact hmatches
  | @cons index run after plugin rest shared hcall hrest ih =>
      have hwatched : (run.watched (event index none) shared).Mirrors like alone := by
        refine hmatches.watched (hevent _ _) fun hcancelled => ?_
        refine hquiet plugin List.mem_cons_self run.watching ?_
        rw [hcall]
        exact hcancelled
      exact ih (fun other hother => hquiet other (List.mem_cons_of_mem plugin hother))
        ⟨hwatched, hmatches.memory⟩

theorem hearsBefore {info : EditInfo} {program : Program} {index : Nat}
    (hnever : ∀ plugin ∈ plugins, plugin.NeverCancels)
    (hhears : HearsBefore info program index run plugins after)
    (hmatches : run.Matches like alone) : after.Matches like alone :=
  hmatches.hears (fun _ _ => rfl)
    (fun plugin hplugin => (hnever plugin hplugin).beforeEdit info program) hhears

theorem hearsAfter {info : EditInfo} {next : Program} {index : Nat}
    (hnever : ∀ plugin ∈ plugins, plugin.NeverCancels)
    (hhears : HearsAfter info next index run plugins after)
    (hmatches : run.Matches like alone) : after.Matches like alone :=
  hmatches.hears (fun _ _ => rfl)
    (fun plugin hplugin => (hnever plugin hplugin).afterEdit info next) hhears

end Matches

end Run

namespace Pipeline

variable {pipeline : Pipeline π} {cancelled : Bool} {memory memory' : σ}

/-- Entering the collecting phase shows in the journal only. -/
theorem start_mirrors (hnever : ∀ plugin ∈ pipeline.plugins, plugin.NeverCancels)
    (like : Likeness σ) (cancelled : Bool) (memory memory' : σ) (watch : π) :
    (pipeline.start ⟨cancelled, memory⟩ watch).Mirrors like
      (({} : Pipeline Unit).start ⟨cancelled, memory'⟩ ()) := by
  have hfresh : ({ shared := ⟨cancelled, memory⟩, watch } : Run σ π).Mirrors like
      { shared := ⟨cancelled, memory'⟩, watch := () } :=
    ⟨rfl, rfl, rfl, rfl, .nil, rfl⟩
  exact hfresh.announce hnever .collecting 0

/-- A collecting phase with plugins goes like the one without. -/
theorem collect_mirrors (hnever : ∀ plugin ∈ pipeline.plugins, plugin.NeverCancels)
    (program : Program) {markers : List (Marker σ)}
    (hfresh : MadeAfresh like markers cancelled memory memory') (watch : π)
    {result other : Except PipelineError Unit} {run : Run σ π} {alone : Run σ Unit}
    (hrun : (pipeline.start ⟨cancelled, memory⟩ watch).collect program markers = (result, run))
    (halone : (({} : Pipeline Unit).start ⟨cancelled, memory'⟩ ()).collect program markers =
      (other, alone)) :
    result = other ∧ run.Mirrors like alone ∧ (result = .ok () → run.Matches like alone) := by
  have hstart := start_mirrors hnever like cancelled memory memory' watch
  have hcancelled : (({} : Pipeline Unit).start ⟨cancelled, memory'⟩ ()).cancelled = cancelled :=
    Bool.or_false cancelled
  have hfresh' : MadeAfresh like markers
      (({} : Pipeline Unit).start ⟨cancelled, memory'⟩ ()).cancelled
      (pipeline.start ⟨cancelled, memory⟩ watch).shared.memory
      (({} : Pipeline Unit).start ⟨cancelled, memory'⟩ ()).shared.memory := by
    rwa [memory_start, memory_start, hcancelled]
  have hcollect := hstart.collect program hfresh'
  rwa [hrun, halone] at hcollect

end Pipeline

end EditPipeline
