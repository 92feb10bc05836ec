import EditPipeline.Proofs.Run.Steps

/-!
# What a run does

A run looks for cancellation, and it calls plugins, markers, editors and edits; these are its
acts.  An act has what was called and what it was called with, so whatever came of the call can
be read off it, and so can what the journal should have of it (`Act.notes`).

The journal is written by the run itself.  `Does` ties it to the calls: it is one act of a run,
on what the run has at that time, and `Moves` is any number of them.  What every act preserves
holds after any number of them, by the one induction on `Moves`.
-/

namespace EditPipeline

variable {σ π : Type}

/-! ## Calls -/

/-- A call of a marker, whatever came of it. -/
structure Inquiry (σ : Type) where
  marker : Marker σ
  given : Shared σ

/-- A call of the initialization of an editor, whatever came of it. -/
structure Opening (σ : Type) where
  origin : MarkerOrigin
  editor : Editor σ
  program : Program
  given : Shared σ

/-- A call of an edit, whatever came of it. -/
structure Editing (σ : Type) where
  link : Link σ
  program : Program
  outbox : Outbox
  given : Shared σ

/-- What a plugin can hear of. -/
inductive News where
  | phase (phase : Phase)
  | before (info : EditInfo) (program : Program)
  | after (info : EditInfo) (program : Program)

/-- A call of a plugin, whatever came of it. -/
structure Telling (π : Type) where
  plugin : Plugin π
  news : News
  given : Shared π

namespace Inquiry

/-- What the marker gave. -/
def answer (inquiry : Inquiry σ) : Except Failure (List (Editor σ)) × Shared σ :=
  inquiry.marker.editors inquiry.given

/-- The call as the journal notes it, for marker number `index`. -/
def event (inquiry : Inquiry σ) (index : Nat) : Event :=
  .discover index (Failure.of? inquiry.answer.1)

end Inquiry

namespace Opening

/-- What the initialization left behind. -/
def setup (opening : Opening σ) : Setup σ := opening.editor.setUp opening.program opening.given

/-- The editor with its origin. -/
def entry (opening : Opening σ) : MarkerOrigin × Editor σ := (opening.origin, opening.editor)

/-- The call as the journal notes it, for stage number `index`. -/
def event (opening : Opening σ) (index : Nat) : Event :=
  .setUp index opening.editor.name opening.program (Failure.of? opening.setup.result)

/-- The calls of initializations, as the journal notes them. -/
def events (opened : List (Opening σ)) : Journal :=
  opened.zipIdx.map fun (opening, index) => opening.event index

end Opening

namespace Editing

/-- What the edit left behind. -/
def reply (editing : Editing σ) : Reply σ :=
  editing.link.edit editing.program editing.outbox editing.given

/-- The call as the journal notes it, for edit number `index`. -/
def event (editing : Editing σ) (index : Nat) : Event :=
  .edit index editing.program editing.reply.result

/-- The calls of edits, as the journal notes them. -/
def events (edited : List (Editing σ)) : Journal :=
  edited.zipIdx.map fun (editing, index) => editing.event index

end Editing

namespace Telling

/-- What the plugin made of the news.  A phase is nothing that it could object to. -/
def answer (telling : Telling π) : Except Failure Unit × Shared π :=
  match telling.news with
  | .phase phase => (.ok (), telling.plugin.onPhase phase telling.given)
  | .before info program => telling.plugin.beforeEdit info program telling.given
  | .after info program => telling.plugin.afterEdit info program telling.given

/-- The call as the journal notes it, for plugin number `number`. -/
def event (telling : Telling π) (number : Nat) : Event :=
  match telling.news with
  | .phase phase => .phase number phase
  | .before info program => .before number info program (Failure.of? telling.answer.1)
  | .after info program => .after number info program (Failure.of? telling.answer.1)

end Telling

/-- The chain that editors registered. -/
def linksOf (opened : List (Opening σ)) : List (Link σ) :=
  opened.zipIdx.flatMap fun (opening, index) => opening.setup.edits.map (Link.mk index)

/-! ## Acts -/

/-- Something that a run does. -/
inductive Act (σ π : Type) where
  /-- It looks whether cancellation has been requested. -/
  | look (seen : Bool)
  /-- It asks marker number `index` for its editors. -/
  | ask (index : Nat) (inquiry : Inquiry σ)
  /-- It initializes the editor of stage number `stage`. -/
  | setUp (stage : Nat) (opening : Opening σ)
  /-- It calls edit number `index`. -/
  | edit (index : Nat) (editing : Editing σ)
  /-- It calls plugin number `number`. -/
  | tell (number : Nat) (telling : Telling π)

namespace Act

/-- The act itself, as the journal notes it. -/
def event : Act σ π → Event
  | .look seen => .poll seen
  | .ask index inquiry => inquiry.event index
  | .setUp stage opening => opening.event stage
  | .edit index editing => editing.event index
  | .tell number telling => telling.event number

/-- Whether cancellation has been requested by the time of the act. -/
def knows : Act σ π → Bool
  | .look seen => seen
  | .ask _ inquiry => inquiry.given.cancelled
  | .setUp _ opening => opening.given.cancelled
  | .edit _ editing => editing.given.cancelled
  | .tell _ telling => telling.given.cancelled

/-- Whether the code that was called says that it has been requested. -/
def leaves : Act σ π → Bool
  | .look seen => seen
  | .ask _ inquiry => inquiry.answer.2.cancelled
  | .setUp _ opening => opening.setup.shared.cancelled
  | .edit _ editing => editing.reply.shared.cancelled
  | .tell _ telling => telling.answer.2.cancelled

/-- Whether the code that was called has requested cancellation, and was the first to do so. -/
def requests (act : Act σ π) : Bool := act.leaves && !act.knows

/-- What the editor said to whom the code belongs that was called. -/
def said : Act σ π → Journal
  | .setUp stage opening => opening.setup.emitted.map (.emit stage)
  | .edit _ editing => editing.reply.emitted.map (.emit editing.link.stage)
  | _ => []

/-- All that the journal has of an act. -/
def notes (act : Act σ π) : Journal :=
  act.event :: (if act.requests then [.request] else []) ++ act.said

/-- The memory of markers, editors and edits before and after a call of one of them. -/
def memories : Act σ π → List (σ × σ)
  | .ask _ inquiry => [(inquiry.given.memory, inquiry.answer.2.memory)]
  | .setUp _ opening => [(opening.given.memory, opening.setup.shared.memory)]
  | .edit _ editing => [(editing.given.memory, editing.reply.shared.memory)]
  | _ => []

/-- The memory of plugins before and after a call of one of them. -/
def watches : Act σ π → List (π × π)
  | .tell _ telling => [(telling.given.memory, telling.answer.2.memory)]
  | _ => []

/-- Whether the act is a call of a marker, an editor or an edit. -/
@[simp] def isCall : Act σ π → Bool
  | .ask .. => true
  | .setUp .. => true
  | .edit .. => true
  | _ => false

/-- What a look for cancellation saw, if the act is one. -/
@[simp] def looks : Act σ π → List Bool
  | .look seen => [seen]
  | _ => []

/-- The acts of asking markers, counted from `start`. -/
def asks (start : Nat) (asked : List (Inquiry σ)) : List (Act σ π) :=
  (asked.zipIdx start).map fun (inquiry, index) => .ask index inquiry

/-- The acts of initializing editors, counted from `start`. -/
def setUps (start : Nat) (opened : List (Opening σ)) : List (Act σ π) :=
  (opened.zipIdx start).map fun (opening, index) => .setUp index opening

/-- The acts of calling edits, counted from `start`. -/
def edits (start : Nat) (edited : List (Editing σ)) : List (Act σ π) :=
  (edited.zipIdx start).map fun (editing, index) => .edit index editing

/-- What only calls have can be read off the calls. -/
theorem flatMap_calls {α : Type} {part : Act σ π → List α}
    (hpart : ∀ act, act.isCall = false → part act = []) (acts : List (Act σ π)) :
    (acts.filter isCall).flatMap part = acts.flatMap part := by
  induction acts with
  | nil => rfl
  | cons act rest ih =>
      cases hcall : act.isCall with
      | true => rw [List.filter_cons_of_pos hcall, List.flatMap_cons, List.flatMap_cons, ih]
      | false =>
          rw [List.filter_cons_of_neg (Bool.not_eq_true _ ▸ hcall), List.flatMap_cons,
            hpart act hcall, ih, List.nil_append]

theorem isAct_event (act : Act σ π) : act.event.isAct = true := by
  cases act with
  | tell number telling =>
      obtain ⟨plugin, news, given⟩ := telling
      cases news <;> rfl
  | _ => rfl

/-- Behind the act itself there are only a request and diagnostics. -/
theorem isAct_behind (act : Act σ π) :
    ∀ event ∈ (if act.requests then [Event.request] else []) ++ act.said, event.isAct = false := by
  intro event hevent
  rcases List.mem_append.1 hevent with hrequest | hsaid
  · split at hrequest
    · rw [List.mem_singleton.1 hrequest]
      rfl
    · cases hrequest
  · cases act with
    | setUp stage opening =>
        obtain ⟨diagnostic, -, rfl⟩ := List.mem_map.1 hsaid
        rfl
    | edit index editing =>
        obtain ⟨diagnostic, -, rfl⟩ := List.mem_map.1 hsaid
        rfl
    | _ => cases hsaid

/-- What the journal has of acts of some kind is the acts of that kind. -/
theorem filter_notes {keep : Event → Bool} (hkeep : ∀ event, keep event = true → event.isAct = true)
    (acts : List (Act σ π)) : (acts.flatMap notes).filter keep = (acts.map event).filter keep := by
  have hnotes (act : Act σ π) : act.notes.filter keep = [act.event].filter keep := by
    have hbehind : ((if act.requests then [Event.request] else []) ++ act.said).filter keep = [] :=
      List.filter_eq_nil_iff.2 fun event hevent hkept =>
        Bool.false_ne_true ((act.isAct_behind event hevent).symm.trans (hkeep event hkept))
    rw [notes, List.cons_append, ← List.singleton_append, List.filter_append, hbehind,
      List.append_nil]
  induction acts with
  | nil => rfl
  | cons act rest ih =>
      rw [List.flatMap_cons, List.filter_append, hnotes, ih, ← List.filter_append]
      rfl

theorem isCall_event (act : Act σ π) : act.event.isCall = act.isCall := by
  cases act with
  | tell number telling =>
      obtain ⟨plugin, news, given⟩ := telling
      cases news <;> rfl
  | _ => rfl

/-- And if only calls can be of that kind, they can be read off the calls. -/
theorem filter_calls {keep : Event → Bool}
    (hkeep : ∀ event, keep event = true → event.isCall = true) (acts : List (Act σ π)) :
    (acts.map event).filter keep = ((acts.filter isCall).map event).filter keep := by
  rw [List.filter_map, List.filter_map, List.filter_filter]
  refine congrArg (List.map event) (List.filter_congr fun act _ => ?_)
  cases hkept : keep act.event with
  | false => simp [hkept]
  | true =>
      have hcall : act.isCall = true := act.isCall_event.symm.trans (hkeep act.event hkept)
      rw [Function.comp_apply, hkept, hcall]
      rfl

/-- A look is noted as a look, and no other act is. -/
theorem knows_of_event {act : Act σ π} {seen : Bool} (hevent : act.event = .poll seen) :
    act.knows = seen := by
  cases act with
  | look other => exact Event.poll.inj hevent
  | tell number telling =>
      obtain ⟨plugin, news, given⟩ := telling
      cases news <;> cases hevent
  | _ => cases hevent

/-- The journal has a request of an act if the act was the first to make one. -/
theorem request_mem_notes {act : Act σ π} : .request ∈ act.notes ↔ act.requests = true := by
  have hevent : Event.request ≠ act.event := fun hsame =>
    Bool.false_ne_true (hsame ▸ act.isAct_event : Event.isAct .request = true)
  have hsaid : Event.request ∉ act.said := by
    cases act <;> simp [said]
  simp [notes, hevent, hsaid]

end Act

namespace Run

/-! ## One act -/

/-- A run does something. -/
inductive Does (plugins : List (Plugin π)) (run : Run σ π) : Act σ π → Run σ π → Prop where
  | look : Does plugins run (.look run.cancelled) run.poll
  | ask (index : Nat) (inquiry : Inquiry σ) (hgiven : inquiry.given = run.sharing) :
      Does plugins run (.ask index inquiry) (run.called (inquiry.event index) inquiry.answer.2)
  | setUp (opening : Opening σ) (hgiven : opening.given = run.sharing) :
      Does plugins run (.setUp run.stages.length opening)
        (run.enroll opening.origin opening.editor.name opening.program opening.setup)
  | edit (index : Nat) (editing : Editing σ)
      (houtbox : editing.outbox = run.outbox editing.link.stage)
      (hgiven : editing.given = run.sharing) :
      Does plugins run (.edit index editing)
        (run.absorb editing.link.stage index editing.program editing.reply)
  | tell (number : Nat) (telling : Telling π)
      (hplugin : plugins[number]? = some telling.plugin)
      (hgiven : telling.given = run.watching) :
      Does plugins run (.tell number telling)
        (run.watched (telling.event number) telling.answer.2)

namespace Does

variable {plugins : List (Plugin π)} {run after : Run σ π} {act : Act σ π}

/-- An act knows of a request if the run does. -/
theorem knows (hdoes : Does plugins run act after) : act.knows = run.cancelled := by
  cases hdoes with
  | look => rfl
  | ask index inquiry hgiven => exact congrArg Shared.cancelled hgiven
  | setUp opening hgiven => exact congrArg Shared.cancelled hgiven
  | edit index editing houtbox hgiven => exact congrArg Shared.cancelled hgiven
  | tell number telling hplugin hgiven => exact congrArg Shared.cancelled hgiven

/-- The journal gets what it should have of the act. -/
theorem journal (hdoes : Does plugins run act after) :
    after.journal = run.journal ++ act.notes := by
  have hknows := hdoes.knows
  cases hdoes with
  | look => simp [poll, note, Act.notes, Act.event, Act.requests, Act.leaves, Act.knows, Act.said]
  | ask index inquiry hgiven =>
      simp [called, note, Act.notes, Act.event, Act.requests, Act.leaves, Act.said, hknows]
  | setUp opening hgiven =>
      simp [enroll, emit, called, note, Act.notes, Act.event, Opening.event, Act.requests,
        Act.leaves, Act.said, hknows]
  | edit index editing houtbox hgiven =>
      simp [absorb, emit, called, note, Act.notes, Act.event, Editing.event, Act.requests,
        Act.leaves, Act.said, hknows]
  | tell number telling hplugin hgiven =>
      simp [watched, note, Act.notes, Act.event, Act.requests, Act.leaves, Act.said, hknows]

/-- The run learns of a request from the code that it calls, and forgets none. -/
theorem cancelled_shared (hdoes : Does plugins run act after) :
    after.shared.cancelled = (run.cancelled || act.leaves) := by
  cases hdoes <;> rfl

theorem stopAt_eq (hdoes : Does plugins run act after) : after.stopAt = run.stopAt := by
  cases hdoes <;> rfl

/-- What the code that is called remembers goes from call to call. -/
theorem memory (hdoes : Does plugins run act after) :
    Relay run.shared.memory act.memories after.shared.memory := by
  cases hdoes with
  | look => rfl
  | ask index inquiry hgiven => exact ⟨by rw [hgiven]; rfl, rfl⟩
  | setUp opening hgiven => exact ⟨by rw [hgiven]; rfl, rfl⟩
  | edit index editing houtbox hgiven => exact ⟨by rw [hgiven]; rfl, rfl⟩
  | tell number telling hplugin hgiven => rfl

/-- And so does what the plugins remember. -/
theorem watch (hdoes : Does plugins run act after) : Relay run.watch act.watches after.watch := by
  cases hdoes with
  | tell number telling hplugin hgiven => exact ⟨by rw [hgiven]; rfl, rfl⟩
  | _ => rfl

end Does

/-! ## Any number of acts -/

/-- Some acts lead from one run to another. -/
inductive Moves (plugins : List (Plugin π)) : Run σ π → List (Act σ π) → Run σ π → Prop where
  | refl (run : Run σ π) : Moves plugins run [] run
  | snoc {run between after : Run σ π} {acts : List (Act σ π)} {act : Act σ π}
      (hmoves : Moves plugins run acts between) (hdoes : Does plugins between act after) :
      Moves plugins run (acts ++ [act]) after

theorem Does.moves {plugins : List (Plugin π)} {run after : Run σ π} {act : Act σ π}
    (hdoes : Does plugins run act after) : Moves plugins run [act] after :=
  .snoc (.refl run) hdoes

namespace Moves

variable {plugins : List (Plugin π)} {run between after : Run σ π} {acts more : List (Act σ π)}

theorem trans (hfirst : Moves plugins run acts between) (hlast : Moves plugins between more after) :
    Moves plugins run (acts ++ more) after := by
  induction hlast with
  | refl => rwa [List.append_nil]
  | snoc hmoves hdoes ih =>
      rw [← List.append_assoc]
      exact .snoc ih hdoes

theorem journal (hmoves : Moves plugins run acts after) :
    after.journal = run.journal ++ acts.flatMap Act.notes := by
  induction hmoves with
  | refl => simp
  | snoc hmoves hdoes ih => simp [hdoes.journal, ih]

/-- What is in the journal stays there. -/
theorem journal_prefix (hmoves : Moves plugins run acts after) : run.journal <+: after.journal :=
  ⟨_, hmoves.journal.symm⟩

theorem memory (hmoves : Moves plugins run acts after) :
    Relay run.shared.memory (acts.flatMap Act.memories) after.shared.memory := by
  induction hmoves with
  | refl => rfl
  | snoc hmoves hdoes ih =>
      rw [List.flatMap_append, List.flatMap_singleton]
      exact ih.append hdoes.memory

theorem watch (hmoves : Moves plugins run acts after) :
    Relay run.watch (acts.flatMap Act.watches) after.watch := by
  induction hmoves with
  | refl => rfl
  | snoc hmoves hdoes ih =>
      rw [List.flatMap_append, List.flatMap_singleton]
      exact ih.append hdoes.watch

/-- Acts can be parted at each of them. -/
theorem part {act : Act σ π} {done rest : List (Act σ π)}
    (hmoves : Moves plugins run acts after) (hacts : acts = done ++ act :: rest) :
    ∃ between next, Moves plugins run done between ∧ Does plugins between act next := by
  induction hmoves generalizing rest with
  | refl => simp at hacts
  | @snoc between after acts last hmoves hdoes ih =>
      rcases List.eq_nil_or_concat rest with rfl | ⟨rest, other, rfl⟩
      · obtain ⟨rfl, hlast⟩ := List.append_inj' hacts rfl
        obtain rfl := List.singleton_inj.1 hlast
        exact ⟨between, after, hmoves, hdoes⟩
      · rw [List.concat_eq_append, ← List.cons_append, ← List.append_assoc] at hacts
        exact ih (List.append_inj' hacts rfl).1

/-- A plugin is called under its number. -/
theorem plugin_eq (hmoves : Moves plugins run acts after) {number : Nat} {telling : Telling π}
    (htelling : .tell number telling ∈ acts) : plugins[number]? = some telling.plugin := by
  obtain ⟨done, rest, hacts⟩ := List.append_of_mem htelling
  obtain ⟨between, next, -, hdoes⟩ := hmoves.part hacts
  cases hdoes with
  | tell number telling hplugin hgiven => exact hplugin

end Moves

/-- Plugins that stand from `index` on in a list have the numbers from `index` on. -/
theorem numbers_of_prefix {plugins rest : List (Plugin π)} {plugin : Plugin π} {index : Nat}
    (hrest : plugin :: rest <+: plugins.drop index) :
    plugins[index]? = some plugin ∧ rest <+: plugins.drop (index + 1) := by
  obtain ⟨later, hlater⟩ := hrest
  constructor
  · rw [← Nat.add_zero index, ← List.getElem?_drop, ← hlater]
    rfl
  · rw [← List.tail_drop, ← hlater]
    exact List.prefix_append rest later

/-! ## Calls and looks

How a part of a run goes is mostly told by two of the things that it does: what it calls apart
from plugins, and what it sees when it looks for cancellation. -/

/-- The acts that lead from one run to another have these calls and these looks. -/
def Covers (plugins : List (Plugin π)) (run : Run σ π) (calls : List (Act σ π))
    (looks : List Bool) (after : Run σ π) : Prop :=
  ∃ acts, Moves plugins run acts after ∧ acts.filter Act.isCall = calls ∧
    acts.flatMap Act.looks = looks

theorem Does.covers {plugins : List (Plugin π)} {run after : Run σ π} {act : Act σ π}
    (hdoes : Does plugins run act after) :
    Covers plugins run ([act].filter Act.isCall) act.looks after :=
  ⟨[act], hdoes.moves, rfl, List.flatMap_singleton ..⟩

theorem Covers.refl (plugins : List (Plugin π)) (run : Run σ π) : Covers plugins run [] [] run :=
  ⟨[], .refl run, rfl, rfl⟩

theorem Covers.trans {plugins : List (Plugin π)} {run between after : Run σ π}
    {calls more : List (Act σ π)} {looks later : List Bool}
    (hfirst : Covers plugins run calls looks between)
    (hlast : Covers plugins between more later after) :
    Covers plugins run (calls ++ more) (looks ++ later) after := by
  obtain ⟨acts, hacts, rfl, rfl⟩ := hfirst
  obtain ⟨others, hothers, rfl, rfl⟩ := hlast
  exact ⟨acts ++ others, hacts.trans hothers, List.filter_append .., List.flatMap_append⟩

/-- What the journal has of calls of some kind is the calls of that kind. -/
theorem Covers.filter_journal {plugins : List (Plugin π)} {run after : Run σ π}
    {calls : List (Act σ π)} {looks : List Bool} {keep : Event → Bool}
    (hcovers : Covers plugins run calls looks after)
    (hkeep : ∀ event, keep event = true → event.isCall = true) :
    after.journal.filter keep =
      run.journal.filter keep ++ (calls.map Act.event).filter keep := by
  obtain ⟨acts, hmoves, rfl, rfl⟩ := hcovers
  have hact (event : Event) (hkept : keep event = true) : event.isAct = true :=
    event.isAct_of_isCall (hkeep event hkept)
  rw [hmoves.journal, List.filter_append, Act.filter_notes hact, Act.filter_calls hkeep]

/-- Telling plugins of a phase calls nothing else. -/
theorem covers_announce {plugins rest : List (Plugin π)} (phase : Phase) {index : Nat}
    (hrest : rest <+: plugins.drop index) (run : Run σ π) :
    Covers plugins run [] [] (run.announce phase index rest) := by
  induction rest generalizing index run with
  | nil => exact .refl plugins run
  | cons plugin rest ih =>
      obtain ⟨hplugin, hrest⟩ := numbers_of_prefix hrest
      let telling : Telling π := ⟨plugin, .phase phase, run.watching⟩
      have htell : Does plugins run (.tell index telling) _ := .tell index telling hplugin rfl
      exact htell.covers.trans (ih hrest _)

theorem Covers.announce {plugins : List (Plugin π)} {run after : Run σ π}
    {calls : List (Act σ π)} {looks : List Bool} (hcovers : Covers plugins run calls looks after)
    (phase : Phase) : Covers plugins run calls looks (after.announce phase 0 plugins) := by
  simpa using hcovers.trans (covers_announce phase (List.prefix_refl plugins) after)

end Run

end EditPipeline
