import EditPipeline.Proofs.Run.Mirror

/-!
# Executing with and without plugins

Executing with plugins that never request cancellation is executing without them, as long
as no hook fails.  A hook that fails ends the watched run only: what it has done by then is
what the run alone had done at that point, and `Compares` says where that is.
-/

namespace EditPipeline

variable {σ π : Type}

/-! ## Hooks that failed -/

/-- The hooks that failed. -/
def failedHooks (journal : Journal) : Journal :=
  journal.filter fun event => event.isHeard && event.failure?.isSome

theorem failedHooks_append (journal more : Journal) :
    failedHooks (journal ++ more) = failedHooks journal ++ failedHooks more :=
  List.filter_append _ _

namespace Run

variable {run after : Run σ π} {alone : Run σ Unit}

theorem failedHooks_note (event : Event) (cancelled : Bool) (run : Run σ π) :
    failedHooks (run.note event cancelled).journal =
      failedHooks run.journal ++ failedHooks [event] := by
  have hrequest (requested : Bool) : failedHooks (if requested then [.request] else []) = [] := by
    cases requested <;> rfl
  rw [note, failedHooks_append, ← List.singleton_append, failedHooks_append, hrequest,
    List.append_nil]

theorem failedHooks_poll (run : Run σ π) :
    failedHooks run.poll.journal = failedHooks run.journal :=
  (failedHooks_note _ _ run).trans (List.append_nil _)

theorem failedHooks_watched (event : Event) (shared : Shared π) (run : Run σ π) :
    failedHooks (run.watched event shared).journal =
      failedHooks run.journal ++ failedHooks [event] :=
  failedHooks_note event shared.cancelled run

theorem failedHooks_absorb (stage index : Nat) (program : Program) (reply : Reply σ)
    (run : Run σ π) :
    failedHooks (run.absorb stage index program reply).journal = failedHooks run.journal := by
  have hsaid : failedHooks (reply.emitted.map (.emit stage)) = [] :=
    List.filter_eq_nil_iff.2 (by simp)
  change failedHooks ((run.note _ _).journal ++ _) = _
  rw [failedHooks_append, failedHooks_note, hsaid, List.append_nil]
  exact List.append_nil _

theorem failedHooks_announce (phase : Phase) (index : Nat) (plugins : List (Plugin π))
    (run : Run σ π) :
    failedHooks (run.announce phase index plugins).journal = failedHooks run.journal := by
  induction plugins generalizing index run with
  | nil => rfl
  | cons plugin rest ih =>
      rw [announce, ih, failedHooks_watched]
      exact List.append_nil _

theorem Hears.failedHooks {hook : Plugin π → Hook π} {event : Nat → Option Failure → Event}
    {info : EditInfo} {program : Program} {index : Nat} {plugins : List (Plugin π)}
    (hevent : ∀ index, EditPipeline.failedHooks [event index none] = [])
    (hhears : Hears hook event info program index run plugins after) :
    failedHooks after.journal = failedHooks run.journal := by
  induction hhears with
  | nil => rfl
  | cons hcall hrest ih =>
      rw [ih, failedHooks_watched, hevent, List.append_nil]

theorem Passes.failedHooks {plugins : List (Plugin π)} {index : Nat} {program current : Program}
    {passed : List (Passing σ)} (hpasses : Passes plugins index program run passed current after) :
    failedHooks after.journal = failedHooks run.journal := by
  induction hpasses with
  | nil => rfl
  | cons passing hgoes houtbox hbefore hgiven hafter hrest ih =>
      rw [ih, hafter.failedHooks fun _ => rfl, failedHooks_absorb,
        hbefore.failedHooks fun _ => rfl, failedHooks_poll]

/-! ## Executing alone -/

/-- An edit that nobody hears of. -/
theorem applyLink_alone (index : Nat) (link : Link σ) (program : Program) (alone : Run σ Unit) :
    applyLink [] index link program alone =
      ((link.edit program (alone.outbox link.stage) alone.sharing).result.mapError
          (editError ⟨index, (alone.outbox link.stage).stage⟩),
        alone.absorb link.stage index program
          (link.edit program (alone.outbox link.stage) alone.sharing)) := by
  unfold applyLink callHooks
  dsimp only
  cases (link.edit program (alone.outbox link.stage) alone.sharing).result <;> rfl

/-- An edit gets the same outbox and the same memory in both runs. -/
theorem Matches.reply {passing : Passing σ} {ready : Run σ π}
    (hmatches : run.Matches (.same σ) alone) (hready : ready.Matches (.same σ) alone.poll)
    (houtbox : passing.outbox = run.poll.outbox passing.link.stage)
    (hgiven : passing.given = ready.sharing) :
    passing.link.edit passing.program (alone.poll.outbox passing.link.stage) alone.poll.sharing =
      passing.reply := by
  rw [← hmatches.poll.outbox, ← hready.sharing, ← houtbox, ← hgiven]
  rfl

/-- Edits that succeed in the watched run succeed in the run alone. -/
theorem Passes.matches {plugins : List (Plugin π)} {index : Nat} {program current : Program}
    {passed : List (Passing σ)} (hnever : ∀ plugin ∈ plugins, plugin.NeverCancels)
    (hpasses : Passes plugins index program run passed current after)
    (hmatches : run.Matches (.same σ) alone) :
    ∃ settled : Run σ Unit, after.Matches (.same σ) settled ∧
      ∀ rest, execute [] index (passed.map Passing.link ++ rest) program alone =
        execute [] (index + passed.length) rest current settled := by
  induction hpasses generalizing alone with
  | nil => exact ⟨alone, hmatches, fun rest => rfl⟩
  | @cons index final run ready heard after passed passing hgoes houtbox hbefore hgiven hafter
      hrest ih =>
      have hready := hmatches.poll.hearsBefore hnever hbefore
      have habsorbed := hready.absorb passing.link.stage index passing.program passing.reply
      obtain ⟨settled, hsettled, hexecute⟩ := ih (habsorbed.hearsAfter hnever hafter)
      refine ⟨settled, hsettled, fun rest => ?_⟩
      have hreply := hmatches.reply hready houtbox hgiven
      have hsucceeded : passing.reply.result = .ok passing.next := passing.succeeded
      have hcount : index + (passing :: passed).length = index + 1 + passed.length := by
        rw [List.length_cons]
        omega
      rw [List.map_cons, List.cons_append, execute, ← hmatches.cancelled, hgoes, applyLink_alone,
        hreply, hsucceeded, hcount]
      exact hexecute rest

/-- The journal goes on with an act of the run, if it goes on. -/
theorem execute_goesOn (plugins : List (Plugin π)) (index : Nat) (links : List (Link σ))
    (program : Program) (run : Run σ π) :
    ∃ late, (execute plugins index links program run).2.journal = run.journal ++ late ∧
      ∀ event ∈ late.head?, event.isAct = true := by
  obtain ⟨edited, looks, -, acts, hmoves, -⟩ := (executes plugins index links program run).covers
  refine ⟨acts.flatMap Act.notes, hmoves.journal, ?_⟩
  cases acts with
  | nil => simp
  | cons act rest =>
      intro event hevent
      rw [← Option.some.inj hevent]
      exact act.isAct_event

theorem journal_absorb (stage index : Nat) (program : Program) (reply : Reply σ)
    (run : Run σ π) :
    ∃ said, (run.absorb stage index program reply).journal =
        run.journal ++ .edit index program reply.result :: said ∧
      ∀ event ∈ said, event.isAct = false := by
  refine ⟨_, List.append_assoc _ _ _, fun event hevent => ?_⟩
  rcases List.mem_append.1 hevent with hevent | hevent
  · split at hevent
    · rw [List.mem_singleton.1 hevent]
      rfl
    · simp at hevent
  · obtain ⟨diagnostic, -, rfl⟩ := List.mem_map.1 hevent
    rfl

/-! ## How the two runs compare -/

/-- How executing `links` from `start` on ended in the watched run, and in the run alone. -/
inductive Compares (plugins : List (Plugin π)) (start : Run σ π) (links : List (Link σ)) :
    Except PipelineError Program → Run σ π → Except PipelineError Program → Run σ Unit → Prop where
  /-- No hook failed, and the runs ended alike. -/
  | whole {result : Except PipelineError Program} {after : Run σ π} {settled : Run σ Unit}
      (hfailed : failedHooks after.journal = failedHooks start.journal)
      (hmirrors : after.Mirrors (.same σ) settled) :
      Compares plugins start links result after result settled
  /-- A hook failed before an edit, which the run alone called next. -/
  | cutBefore (number : Nat) {plugin : Plugin π} {watching left : Shared π} {index : Nat}
      {link : Link σ} {stage : String} {program : Program} {failure : Failure}
      {after : Run σ π} {cut settled : Run σ Unit} {given : Except Failure Program}
      {other : Except PipelineError Program} {late : Journal}
      (hplugin : plugins[number]? = some plugin)
      (hfails : plugin.beforeEdit ⟨index, stage⟩ program watching = (.error failure, left))
      (hfailed : failedHooks after.journal = failedHooks start.journal ++
        [.before number ⟨index, stage⟩ program (some failure)])
      (hlink : links[index]? = some link) (hstage : stage = (start.outbox link.stage).stage)
      (hmirrors : after.Mirrors (.same σ) cut)
      (hjournal : settled.journal = cut.journal ++ .edit index program given :: late) :
      Compares plugins start links (.error (.editFailure stage index failure)) after other settled
  /-- A hook failed after an edit, and the run alone went on after what that edit said. -/
  | cutAfter (number : Nat) {plugin : Plugin π} {watching left : Shared π} {index : Nat}
      {link : Link σ} {stage : String} {program next : Program} {failure : Failure}
      {after : Run σ π} {cut settled : Run σ Unit} {other : Except PipelineError Program}
      {early said late : Journal}
      (hplugin : plugins[number]? = some plugin)
      (hfails : plugin.afterEdit ⟨index, stage⟩ next watching = (.error failure, left))
      (hfailed : failedHooks after.journal = failedHooks start.journal ++
        [.after number ⟨index, stage⟩ next (some failure)])
      (hlink : links[index]? = some link) (hstage : stage = (start.outbox link.stage).stage)
      (hmirrors : after.Mirrors (.same σ) cut)
      (hcut : cut.journal = early ++ .edit index program (.ok next) :: said)
      (hsaid : ∀ event ∈ said, event.isAct = false)
      (hjournal : settled.journal = cut.journal ++ late)
      (hlate : ∀ event ∈ late.head?, event.isAct = true) :
      Compares plugins start links (.error (.editFailure stage index failure)) after other settled

/-- The run alone calls the edit that comes next, whatever comes of it. -/
theorem execute_alone (hgoes : alone.cancelled = false) (index : Nat) (link : Link σ)
    (rest : List (Link σ)) (program : Program) :
    ∃ late, (execute [] index (link :: rest) program alone).2.journal =
        (alone.poll.absorb link.stage index program
          (link.edit program (alone.poll.outbox link.stage) alone.poll.sharing)).journal ++ late ∧
      ∀ event ∈ late.head?, event.isAct = true := by
  rw [execute, hgoes, applyLink_alone]
  simp only [Bool.false_eq_true, if_false]
  cases (link.edit program (alone.poll.outbox link.stage) alone.poll.sharing).result with
  | error failure => exact ⟨[], (List.append_nil _).symm, by simp⟩
  | ok next => exact execute_goesOn [] (index + 1) rest next _

/-- The edit that ends the watched run, or the hook that does. -/
theorem Applies.compares {plugins : List (Plugin π)} {index : Nat} {link : Link σ}
    {links rest : List (Link σ)} {program : Program} {start : Run σ π} {error : PipelineError}
    {result : Except PipelineError Program} (hnever : ∀ plugin ∈ plugins, plugin.NeverCancels)
    (happlies : Applies plugins index link program run.poll result after)
    (hresult : result = .error error) (hgoes : run.cancelled = false)
    (hmatches : run.Matches (.same σ) alone) (hlink : links[index]? = some link)
    (hname : (run.poll.outbox link.stage).stage = (start.outbox link.stage).stage)
    (hstart : failedHooks run.journal = failedHooks start.journal) :
    Compares plugins start links result after (execute [] index (link :: rest) program alone).1
      (execute [] index (link :: rest) program alone).2 := by
  have hdone {done others : List (Plugin π)} {plugin : Plugin π}
      (hplugins : done ++ plugin :: others = plugins) :
      (∀ other ∈ done, other.NeverCancels) ∧ plugin.NeverCancels ∧
        plugins[done.length]? = some plugin := by
    subst hplugins
    exact ⟨fun other hother => hnever other (List.mem_append_left _ hother),
      hnever plugin (by simp), by simp⟩
  have hgoesAlone : alone.cancelled = false := hmatches.cancelled.symm.trans hgoes
  obtain ⟨late, hjournal, hlate⟩ := execute_alone hgoesAlone index link rest program
  cases happlies with
  | passed passing hlink hprogram houtbox hbefore hgiven hafter => cases hresult
  | @beforeFailed info done others plugin ready failure shared hinfo hplugins hhears hfails =>
      -- the run alone has polled by then, and calls the edit next
      obtain ⟨hquiet, hplugin, hnumber⟩ := hdone hplugins
      have hready := hmatches.poll.hearsBefore hquiet hhears
      have hasked := hplugin.beforeEdit info program ready.watching
      rw [hfails] at hasked
      have hafter : (ready.watched (.before done.length info program (some failure))
          shared).Mirrors (.same σ) alone.poll := hready.watched rfl hasked
      obtain ⟨said, hsaid, -⟩ := journal_absorb link.stage index program
        (link.edit program (alone.poll.outbox link.stage) alone.poll.sharing) alone.poll
      rw [hsaid, List.append_assoc, List.cons_append] at hjournal
      subst hinfo
      refine .cutBefore done.length hnumber hfails ?_ hlink hname hafter hjournal
      rw [failedHooks_watched, hhears.failedHooks fun _ => rfl, failedHooks_poll, hstart]
      rfl
  | @editFailed info ready failure hinfo hhears hfails =>
      have hready := hmatches.poll.hearsBefore hnever hhears
      have hreply : link.edit program (alone.poll.outbox link.stage) alone.poll.sharing =
          link.edit program (run.poll.outbox link.stage) ready.sharing := by
        rw [hmatches.poll.outbox, hready.sharing]
      rw [execute, hgoesAlone, applyLink_alone, hreply, hfails, ← hmatches.poll.outbox, ← hinfo]
      refine .whole ?_ (hready.absorb _ _ _ _).toMirrors
      rw [failedHooks_absorb, hhears.failedHooks fun _ => rfl, failedHooks_poll, hstart]
  | @afterFailed passing done others plugin ready heard failure shared hlink' hprogram houtbox
      hbefore hgiven hplugins hafter hfails =>
      -- the run alone has called the edit by then, with success
      subst hlink' hprogram
      obtain ⟨hquiet, hplugin, hnumber⟩ := hdone hplugins
      have hready := hmatches.poll.hearsBefore hnever hbefore
      have hheard := (hready.absorb passing.link.stage index passing.program
        passing.reply).hearsAfter hquiet hafter
      have hasked := hplugin.afterEdit (passing.info index) passing.next heard.watching
      rw [hfails] at hasked
      have hended : (heard.watched (.after done.length (passing.info index) passing.next
          (some failure)) shared).Mirrors (.same σ)
            (alone.poll.absorb passing.link.stage index passing.program passing.reply) :=
        hheard.watched rfl hasked
      have hreply := hmatches.reply hready houtbox hgiven
      have hsucceeded : passing.reply.result = .ok passing.next := passing.succeeded
      rw [hreply] at hjournal
      obtain ⟨said, hcut, hsaid⟩ := journal_absorb passing.link.stage index passing.program
        passing.reply alone.poll
      rw [hsucceeded] at hcut
      refine .cutAfter done.length hnumber hfails ?_ hlink (houtbox ▸ hname) hended hcut hsaid
        hjournal hlate
      rw [failedHooks_watched, hafter.failedHooks fun _ => rfl, failedHooks_absorb,
        hbefore.failedHooks fun _ => rfl, failedHooks_poll, hstart]
      rfl

/-- **Executing is the same without plugins, up to a hook that fails.** -/
theorem Executes.compares {plugins : List (Plugin π)} {links : List (Link σ)} {program : Program}
    {result : Except PipelineError Program} (hnever : ∀ plugin ∈ plugins, plugin.NeverCancels)
    (hexecutes : Executes plugins 0 links program run result after)
    (hmatches : run.Matches (.same σ) alone) :
    Compares plugins run links result after (execute [] 0 links program alone).1
      (execute [] 0 links program alone).2 := by
  -- up to the edit that ends the watched run, the run alone does the same
  cases hexecutes with
  | @all passed final after hlinks hpasses =>
      obtain ⟨settled, hsettled, hexecute⟩ := hpasses.matches hnever hmatches
      have halone := hexecute []
      rw [List.append_nil, hlinks, execute] at halone
      rw [halone]
      exact .whole hpasses.failedHooks hsettled.toMirrors
  | @cut passed link rest current before hlinks hpasses hstops =>
      obtain ⟨settled, hsettled, hexecute⟩ := hpasses.matches hnever hmatches
      have halone := hexecute (link :: rest)
      rw [hlinks, execute, ← hsettled.cancelled, hstops, if_pos rfl] at halone
      rw [halone]
      exact .whole ((failedHooks_poll before).trans hpasses.failedHooks) hsettled.poll.toMirrors
  | @failed passed link rest current before after error hlinks hpasses hgoes happlies =>
      obtain ⟨settled, hsettled, hexecute⟩ := hpasses.matches hnever hmatches
      have halone := hexecute (link :: rest)
      rw [hlinks] at halone
      rw [halone]
      exact happlies.compares hnever rfl hgoes hsettled (by simp [← hlinks])
        (hpasses.stage link.stage) hpasses.failedHooks

end Run

end EditPipeline
