import EditPipeline.Proofs.Recording
import EditPipeline.Proofs.Run.Twins

/-!
# Snapshots and runs

What a recorder kept of a run tells how far its edits came: there is one snapshot for each edit
that gave a program, and whatever stopped the run did so before or in the edit whose number
comes next (`Tells`).

A recorder may go on from run to run.  If the markers of each run make their editors afresh,
then nothing of an earlier run can be seen in a later one but the snapshots: each run is the twin
of the run that the same markers would have had alone.
-/

namespace EditPipeline

variable {σ π : Type}

/-- A pipeline that is watched by a recorder only. -/
def recording (directory : Option Path) : Pipeline Gallery :=
  { plugins := [Gallery.recorder directory] }

/-! ## How far a run came -/

/-- What comes after the edits before number `index`, and the result: either there is no such
edit, or it is not reached, or it fails.  The edits were registered by editors with the names
`owners`, and edit number `index` is to get `current`. -/
inductive Halts (owners : List String) (index : Nat) (current : Program) :
    Journal → Except PipelineError Program → Prop where
  | completed (hall : index = owners.length) : Halts owners index current [] (.ok current)
  | cut (hleft : index < owners.length) :
      Halts owners index current [.poll true] (.error .cancelled)
  | failed {name : String} {failure : Failure} (hname : owners[index]? = some name)
      (hcause : failure.isCancelled = false) :
      Halts owners index current
        [.poll false, .before 0 ⟨index, name⟩ current none, .edit index current (.error failure)]
        (.error (.editFailure name index failure))
  | quit {name : String} {failure : Failure} (hname : owners[index]? = some name)
      (hcause : failure.isCancelled = true) :
      Halts owners index current
        [.poll false, .before 0 ⟨index, name⟩ current none, .edit index current (.error failure)]
        (.error .cancelled)

/-- An edit that fails gives no program. -/
theorem Halts.applied {owners : List String} {index : Nat} {current : Program} {tail : Journal}
    {result : Except PipelineError Program} (hhalts : Halts owners index current tail result) :
    applied owners tail = [] := by
  cases hhalts <;> rfl

namespace Run

/-- The same editors registered the edits of twins. -/
theorem Twins.owners {like : Likeness σ} {π' : Type} {run : Run σ π} {other : Run σ π'}
    (htwins : run.Twins like other) : run.owners = other.owners := by
  have hnames (chain : List (Link σ)) : chain.map (fun link => (other.outbox link.stage).stage) =
      (chain.map Link.stage).map fun stage => (other.outbox stage).stage := by
    rw [List.map_map]
    rfl
  simp only [Run.owners, htwins.outbox]
  rw [hnames, hnames, stages_of_alike htwins.chain]

theorem GoesAlike.owners {like : Likeness σ} {ε α π' : Type} {alike : α → α → Prop}
    {ended : Except ε α × Run σ π} {ended' : Except ε α × Run σ π'}
    (hgoes : GoesAlike like False alike ended ended') : ended.2.owners = ended'.2.owners := by
  cases hgoes with
  | broken hbroken => exact hbroken.elim
  | failed error htwins => exact htwins.owners
  | gave hvalues htwins hmemory => exact htwins.owners

/-- Without a directory, the recorder lets edits fail and nothing else. -/
theorem FailingEdit.halts {owners : List String} {info : EditInfo} {edit : Edit σ}
    {program : Program} {memory : σ} {error : PipelineError} {failing : Journal}
    (hname : owners[info.index]? = some info.stage)
    (hfailing : FailingEdit [Gallery.recorder none] info edit program memory error failing) :
    Halts owners info.index program (.poll false :: failing) (.error error) := by
  have hrecorder {done rest : List (Plugin Gallery)} {plugin : Plugin Gallery}
      (hplugins : done ++ plugin :: rest = [Gallery.recorder none]) :
      plugin = Gallery.recorder none :=
    List.mem_singleton.1 (hplugins ▸ List.mem_append_cons_self)
  cases hfailing with
  | before hplugins hfails =>
      obtain rfl := hrecorder hplugins
      cases hfails
  | edit hstage hmemory hfails hcause => exact .failed hname hcause
  | cancelled hstage hmemory hfails hcause => exact .quit hname hcause
  | after hstage hmemory hedit hplugins hfails =>
      obtain rfl := hrecorder hplugins
      cases hfails

/-- Executing passes some of the edits and halts. -/
theorem Executes.halts {links : List (Link σ)} {program : Program} {run after : Run σ Gallery}
    {result : Except PipelineError Program}
    (hexecutes : Executes [Gallery.recorder none] 0 links program run result after) :
    ∃ passed current before tail, passed.map Passing.link <+: links ∧
      Passes [Gallery.recorder none] 0 program run passed current before ∧
      after.acts = run.acts ++ (passActs 1 0 passed ++ tail) ∧
      Halts (links.map fun link => (run.outbox link.stage).stage) passed.length current tail
        result := by
  cases hexecutes with
  | @all passed final after hlinks hpasses =>
      refine ⟨passed, final, after, [], ⟨[], by rw [hlinks, List.append_nil]⟩, hpasses, ?_,
        .completed ?_⟩
      · rw [hpasses.acts, List.append_nil]
        rfl
      · rw [← hlinks, List.length_map, List.length_map]
  | @cut passed link rest current before hlinks hpasses hstops =>
      refine ⟨passed, current, before, [.poll true], ⟨link :: rest, hlinks⟩, hpasses, ?_, .cut ?_⟩
      · rw [acts_poll, hpasses.acts, hstops, List.append_assoc]
        rfl
      · rw [← hlinks, List.length_map, List.length_append, List.length_map, List.length_cons]
        omega
  | @failed passed link rest current before after error hlinks hpasses hgoes happlies =>
      rw [Nat.zero_add] at happlies
      obtain ⟨failing, hfailing, hacts⟩ := happlies.failing rfl
      have hname : (before.poll.outbox link.stage).stage = (run.outbox link.stage).stage :=
        hpasses.stage link.stage
      rw [hname] at hfailing
      refine ⟨passed, current, before, .poll false :: failing, ⟨link :: rest, hlinks⟩, hpasses, ?_,
        hfailing.halts ?_⟩
      · rw [hacts, acts_poll, hpasses.acts, hgoes, List.append_assoc, List.append_assoc]
        rfl
      · rw [← hlinks, List.map_append, List.getElem?_append_right (by simp)]
        simp

/-- The last program of edits that succeed is the last one of the snapshots. -/
theorem Passes.last {plugins : List (Plugin π)} {program final : Program} {run after : Run σ π}
    {passed : List (Passing σ)} {index : Nat}
    (hpasses : Passes plugins index program run passed final after) (owners : List String) :
    ((shots owners index passed).getLast?.map Snapshot.program).getD program = final := by
  induction hpasses with
  | nil => rfl
  | cons passing hgoes houtbox hbefore hgiven hafter hrest ih =>
      rename_i index final run ready settled after passed
      have hparts : shots owners index (passing :: passed) =
          ⟨index, owners.getD index "", passing.next⟩ :: shots owners (index + 1) passed := rfl
      rw [hparts, List.getLast?_cons, Option.map_some, Option.getD_some, ← ih]
      cases (shots owners (index + 1) passed).getLast? <;> rfl

end Run

/-- What a recorder that was new keeps of a run. -/
inductive Tells (program : Program) (markers : List (Marker σ)) (started : Run σ Gallery)
    (ran : Ended σ Gallery Outcome) : Prop where
  /-- The run does not come to execute edits. -/
  | collecting {error : PipelineError} {collected : Run σ Gallery}
      (hcollected : started.collect program markers = (.error error, collected))
      (houtcome : ran.outcome = .aborted error collected.findings)
      (hnone : applied collected.owners ran.journal = [])
      (hsnapshots : ran.watch.snapshots = []) : Tells program markers started ran
  /-- The run passes some edits and halts. -/
  | executing {collected after : Run σ Gallery} {passed : List (Passing σ)} {current : Program}
      {tail : Journal}
      (hcollected : started.collect program markers = (.ok (), collected))
      (hlinks : passed.map Passing.link <+: collected.chain)
      (hpasses : (collected.announce .executing 0 [Gallery.recorder none]).Passes
        [Gallery.recorder none] 0 program passed current after)
      (hacts : ran.acts = collected.acts ++ .phase 0 .executing ::
        (passActs 1 0 passed ++ tail ++ [.phase 0 .done]))
      (hhalts : Halts collected.owners passed.length current tail ran.outcome.result)
      (hall : applied collected.owners ran.journal = shots collected.owners 0 passed)
      (hsnapshots : ran.watch.snapshots = shots collected.owners 0 passed)
      (hlast : (ran.watch.snapshots.getLast?.map Snapshot.program).getD program = current) :
      Tells program markers started ran

namespace Pipeline

/-- What the recorder keeps can be read off the journal, whatever it kept before. -/
theorem snapshots_recording (program : Program) (markers : List (Marker σ)) (shared : Shared σ)
    (gallery : Gallery) (stopAt : Option Nat) :
    ((recording none).run program markers shared gallery stopAt).watch.snapshots =
      gallery.snapshots ++
        applied (((recording none).start shared gallery stopAt).collect program markers).2.owners
          ((recording none).run program markers shared gallery stopAt).journal :=
  snapshots_run rfl program markers shared gallery stopAt

/-- The recorder tells how far a run came. -/
theorem tells (program : Program) (markers : List (Marker σ)) (shared : Shared σ)
    (files : FileSystem) (stopAt : Option Nat) :
    Tells program markers ((recording none).start shared { files } stopAt)
      ((recording none).run program markers shared { files } stopAt) := by
  have hsnapshots := snapshots_recording program markers shared { files } stopAt
  have hcollects := Run.collects program markers ((recording none).start shared { files } stopAt)
  cases hended : ((recording none).start shared { files } stopAt).collect program markers with
  | mk result collected =>
      rw [hended] at hsnapshots hcollects
      rw [List.nil_append] at hsnapshots
      have hbefore : collected.applied collected.owners = [] := by
        rw [Run.applied_of_trace hcollects.trace]
        exact Run.applied_announce collected.owners .collecting _ _
      cases result with
      | error error =>
          have hrun : (recording none).run program markers shared { files } stopAt =
              collected.finish (recording none).plugins (Outcome.aborted error) := by
            unfold run
            rw [hended]
          rw [hrun] at hsnapshots ⊢
          have hnone : applied collected.owners
              (collected.finish (recording none).plugins (Outcome.aborted error)).journal = [] :=
            (Run.applied_announce collected.owners .done _ collected).trans hbefore
          exact .collecting hended (Run.outcome_finish _ _ _) hnone (hsnapshots.trans hnone)
      | ok done =>
          have hrun := run_conclude (recording none) program markers shared { files } stopAt hended
          have hexecutes := Run.executes (recording none).plugins 0 collected.chain program
            (collected.announce .executing 0 (recording none).plugins)
          generalize Run.execute (recording none).plugins 0 collected.chain program _ = executed
            at hrun hexecutes
          obtain ⟨result, after⟩ := executed
          obtain ⟨passed, current, before, tail, hlinks, hpasses, hafter, hhalts⟩ := hexecutes.halts
          have howners : (collected.chain.map fun link =>
              ((collected.announce .executing 0 (recording none).plugins).outbox link.stage).stage) =
                collected.owners := by
            simp [Run.owners, Run.outbox]
          rw [howners] at hhalts
          rw [hrun] at hsnapshots ⊢
          have hacts : (after.conclude (recording none).plugins result).acts = collected.acts ++
              .phase 0 .executing :: (passActs 1 0 passed ++ tail ++ [.phase 0 .done]) := by
            have hended : (after.conclude (recording none).plugins result).acts =
                after.acts ++ [.phase 0 .done] := by
              cases result <;> exact Run.acts_finish _ _ after
            rw [hended, hafter, Run.acts_announce, List.append_assoc, List.append_assoc]
            rfl
          have hall : applied collected.owners
              (after.conclude (recording none).plugins result).journal =
                shots collected.owners 0 passed := by
            calc applied collected.owners (after.conclude (recording none).plugins result).journal
                = applied collected.owners (after.conclude (recording none).plugins result).acts :=
                  (applied_filter collected.owners (fun _ _ _ => rfl) _).symm
              _ = applied collected.owners collected.acts ++
                    (applied collected.owners (passActs 1 0 passed) ++
                      applied collected.owners tail) := by
                  have hphase (phase : Phase) (rest : Journal) :
                      applied collected.owners (.phase 0 phase :: rest) =
                        applied collected.owners rest := rfl
                  rw [hacts, applied_append, hphase, applied_append, applied_append, hphase]
                  exact congrArg _ (List.append_nil _)
              _ = applied collected.owners collected.acts ++ shots collected.owners 0 passed := by
                  rw [applied_passActs, hhalts.applied, List.append_nil]
              _ = collected.applied collected.owners ++ shots collected.owners 0 passed :=
                  congrArg (· ++ _) (applied_filter collected.owners (fun _ _ _ => rfl) _)
              _ = shots collected.owners 0 passed := by rw [hbefore, List.nil_append]
          refine .executing hended hlinks hpasses hacts ?_ hall (hsnapshots.trans hall) ?_
          · rwa [Run.result_conclude]
          · rw [hsnapshots, hall]
            exact hpasses.last collected.owners

end Pipeline

/-! ## Runs one after the other -/

/-- What one run is about, and when cancellation is requested from outside. -/
structure Turn (σ : Type) where
  program : Program
  markers : List (Marker σ)
  cancelled : Bool := false
  stopAt : Option Nat := none

namespace Turn

/-- The run itself. -/
def run (turn : Turn σ) (pipeline : Pipeline π) (memory : σ) (watch : π) : Ended σ π Outcome :=
  pipeline.run turn.program turn.markers ⟨turn.cancelled, memory⟩ watch turn.stopAt

/-- The markers make their editors afresh: whatever is remembered when they are asked, they
answer alike, with editors that cannot tell either. -/
def Fresh (turn : Turn σ) : Prop :=
  ∃ like : Likeness σ, like.Lawful ∧ ∀ memory memory', AskedAlike like turn.markers memory memory'

end Turn

/-- The runs of one pipeline, each of which goes on with what the run before remembered. -/
def Pipeline.runEach (pipeline : Pipeline π) : List (Turn σ) → σ → π → List (Ended σ π Outcome)
  | [], _, _ => []
  | turn :: rest, memory, watch =>
    let ended := turn.run pipeline memory watch
    ended :: pipeline.runEach rest ended.shared.memory ended.watch

namespace Gallery

/-- A recorder that writes does what one does that only keeps, unless a file cannot be
written. -/
theorem follows (directory : Option Path) : (recorder directory).Follows (recorder none) where
  onPhase _ _ _ _ := rfl
  beforeEdit _ _ _ _ _ := .inr ⟨rfl, rfl⟩
  afterEdit info program cancelled gallery gallery' := by
    change FollowsCall
      (((gallery.record directory ⟨info.index, info.stage, program⟩).1.mapError _), ⟨cancelled, _⟩)
      (.ok (), ⟨cancelled, _⟩)
    cases (gallery.record directory ⟨info.index, info.stage, program⟩).1 with
    | error fault => exact .inl ⟨_, rfl⟩
    | ok done => exact .inr ⟨rfl, rfl⟩

/-- A recorder that only keeps never fails. -/
theorem not_mayFail : ¬ (recorder none).MayFail := by
  rintro ⟨info, program, shared, failure, hfails | hfails⟩ <;> cases hfails

end Gallery

namespace Turn

variable {turn : Turn σ}

/-- Nothing of what was before can be seen in a run whose markers make their editors afresh, and
the recorder keeps what it would have kept of the run alone. -/
theorem run_eq (hfresh : turn.Fresh) (memory memory' : σ) (gallery : Gallery)
    (files : FileSystem) :
    (turn.run (recording none) memory gallery).outcome =
      (turn.run (recording none) memory' { files }).outcome ∧
    (turn.run (recording none) memory gallery).journal =
      (turn.run (recording none) memory' { files }).journal ∧
    (turn.run (recording none) memory gallery).watch.snapshots =
      gallery.snapshots ++ (turn.run (recording none) memory' { files }).watch.snapshots := by
  obtain ⟨like, hlawful, hasked⟩ := hfresh
  have hfollows : List.Forall₂ Plugin.Follows [Gallery.recorder none] [Gallery.recorder none] :=
    .cons (Gallery.follows none) .nil
  have hruns := Pipeline.run_twins hlawful hfollows turn.program (hasked memory memory')
    turn.cancelled gallery { files } turn.stopAt
  have hcollects := Pipeline.collect_twins False hfollows turn.program
    (hasked memory memory') turn.cancelled gallery { files } turn.stopAt
  have howners :
      (((recording none).start ⟨turn.cancelled, memory⟩ gallery turn.stopAt).collect turn.program
        turn.markers).2.owners =
      (((recording none).start ⟨turn.cancelled, memory'⟩ { files } turn.stopAt).collect turn.program
        turn.markers).2.owners := hcollects.owners
  rcases hruns with ⟨⟨plugin, hplugin, hfails⟩, -⟩ | ⟨houtcome, hjournal⟩
  · obtain rfl := List.mem_singleton.1 hplugin
    exact absurd hfails Gallery.not_mayFail
  · refine ⟨houtcome, hjournal, ?_⟩
    have hnow := Pipeline.snapshots_recording turn.program turn.markers ⟨turn.cancelled, memory⟩
      gallery turn.stopAt
    have halone := Pipeline.snapshots_recording turn.program turn.markers
      ⟨turn.cancelled, memory'⟩ { files } turn.stopAt
    unfold run
    rw [hnow, halone, howners]
    exact congrArg (gallery.snapshots ++ applied _ ·) hjournal

end Turn

namespace Pipeline

theorem length_runEach (pipeline : Pipeline π) (turns : List (Turn σ)) (memory : σ) (watch : π) :
    (pipeline.runEach turns memory watch).length = turns.length := by
  induction turns generalizing memory watch with
  | nil => rfl
  | cons turn rest ih => exact congrArg (· + 1) (ih _ _)

/-- Each of the runs is as it would be alone, and the snapshots are those of all runs so far. -/
theorem runEach_recording {turns : List (Turn σ)} (hfresh : ∀ turn ∈ turns, turn.Fresh)
    (memory alone : σ) (files : FileSystem) (gallery : Gallery) {index : Nat} {turn : Turn σ}
    {ended : Ended σ Gallery Outcome} (hturn : turns[index]? = some turn)
    (hended : ((recording none).runEach turns memory gallery)[index]? = some ended) :
    ended.outcome = (turn.run (recording none) alone { files }).outcome ∧
      ended.journal = (turn.run (recording none) alone { files }).journal ∧
      ended.watch.snapshots = gallery.snapshots ++ (turns.take (index + 1)).flatMap fun turn =>
        (turn.run (recording none) alone { files }).watch.snapshots := by
  induction turns generalizing memory gallery index with
  | nil => cases hturn
  | cons first rest ih =>
      obtain ⟨houtcome, hjournal, hsnapshots⟩ :=
        Turn.run_eq (hfresh first List.mem_cons_self) memory alone gallery files
      cases index with
      | zero =>
          obtain rfl : first = turn := Option.some.inj hturn
          obtain rfl : first.run (recording none) memory gallery = ended := Option.some.inj hended
          refine ⟨houtcome, hjournal, ?_⟩
          rw [hsnapshots]
          simp
      | succ index =>
          obtain ⟨hsame, hdone, hkept⟩ := ih
            (fun turn hturn => hfresh turn (List.mem_cons_of_mem first hturn)) _ _ hturn hended
          refine ⟨hsame, hdone, ?_⟩
          rw [hkept, hsnapshots, List.append_assoc, List.take_succ_cons, List.flatMap_cons]

end Pipeline

/-! ## Main statement -/

/-- **A recorder tells of each run how far its edits came, and of many runs one after the
other.**  Of one run it keeps a snapshot for each edit that gave a program.  If the markers of
each run make their editors afresh, a recorder that serves many runs ends up with the snapshots
of all of them, and none of them takes another course because of those before it. -/
theorem snapshots_tell_of_runs :
    (∀ (program : Program) (markers : List (Marker σ)) (shared : Shared σ) (files : FileSystem)
        (stopAt : Option Nat),
      Tells program markers ((recording none).start shared { files } stopAt)
        ((recording none).run program markers shared { files } stopAt)) ∧
    ∀ (turns : List (Turn σ)) (memory alone : σ) (files : FileSystem),
      (∀ turn ∈ turns, turn.Fresh) →
      let each := (recording none).runEach turns memory { files }
      each.length = turns.length ∧
      ∀ (index : Nat) (turn : Turn σ) (ended : Ended σ Gallery Outcome),
        turns[index]? = some turn → each[index]? = some ended →
        ended.outcome = (turn.run (recording none) alone { files }).outcome ∧
        ended.journal = (turn.run (recording none) alone { files }).journal ∧
        ended.watch.snapshots = (turns.take (index + 1)).flatMap fun turn =>
          (turn.run (recording none) alone { files }).watch.snapshots := by
  refine ⟨Pipeline.tells, ?_⟩
  intro turns memory alone files hfresh
  refine ⟨Pipeline.length_runEach _ turns memory _, ?_⟩
  intro index turn ended hturn hended
  exact Pipeline.runEach_recording hfresh memory alone files { files } hturn hended

/-- An edit that counts its calls, and stops when it is called for the third time. -/
def tallying : Edit Nat := fun program _ shared => {
  result := if shared.memory = 2 then .error .cancelled
    else .ok { program with name := program.name ++ toString shared.memory }
  emitted := []
  shared := { shared with memory := shared.memory + 1 } }

/-- A marker whose editor counts from zero whenever it is made, with so many edits. -/
def tallies (count : Nat) : Marker Nat := ⟨"tally", fun shared => (.ok [{
  name := "tally"
  setUp _ shared := ⟨.ok (), [], List.replicate count tallying, shared⟩ }],
  { shared with memory := 0 })⟩

/-- Three runs of one recorder: the first one completes, the second one is cancelled in its last
edit, and the third one completes as it would alone. -/
theorem snapshots_of_tallies :
    let turns : List (Turn Nat) :=
      [⟨{ name := "p" }, [tallies 2], false, none⟩, ⟨{ name := "q" }, [tallies 3], false, none⟩,
        ⟨{ name := "r" }, [tallies 1], false, none⟩]
    (∀ turn ∈ turns, turn.Fresh) ∧
    ∃ ended, ((recording none).runEach turns 7 {})[2]? = some ended ∧
      ended.outcome = .completed { name := "r0" } ⟨[⟨"tally", ⟨0, "tally"⟩, 1⟩], []⟩ ∧
      ended.watch.snapshots = [⟨0, "tally", { name := "p0" }⟩, ⟨1, "tally", { name := "p01" }⟩,
        ⟨0, "tally", { name := "q0" }⟩, ⟨1, "tally", { name := "q01" }⟩,
        ⟨0, "tally", { name := "r0" }⟩] := by
  intro turns
  have hfresh (program : Program) (count : Nat) :
      (⟨program, [tallies count], false, none⟩ : Turn Nat).Fresh := by
    refine ⟨.same Nat, Likeness.lawful_same Nat, fun memory memory' cancelled => ?_⟩
    exact .gave cancelled (.cons (Editor.alike_same _) .nil) rfl
  have hturns : ∀ turn ∈ turns, turn.Fresh := by
    simp only [turns, List.forall_mem_cons]
    exact ⟨hfresh _ 2, hfresh _ 3, hfresh _ 1, nofun⟩
  obtain ⟨-, heach⟩ := snapshots_tell_of_runs.2 turns 7 0 {} hturns
  obtain ⟨ended, hended⟩ : ∃ ended, ((recording none).runEach turns 7 {})[2]? = some ended :=
    ⟨_, rfl⟩
  obtain ⟨houtcome, -, hsnapshots⟩ := heach 2 _ ended rfl hended
  exact ⟨hturns, ended, hended, houtcome, hsnapshots⟩

end EditPipeline
