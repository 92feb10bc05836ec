import EditPipeline.Proofs.Run.Ending
import Mathlib.Algebra.GroupWithZero.Nat

/-!
# Stages and the edits they own

A link of the chain has a number to tell which stage registered it, and nothing else.  While a
run collects, stages and chain grow together: a stage is there before its first link, all its
links come before those of the next stage, and no stage is taken away.  So the numbers along the
chain never decrease (`pairwise_linksFrom`), counting the links of a number gives back what one
editor registered (`countP_linksFrom`), and whoever looks up a number while the run executes
finds the stage of that editor (`Passes.finds`).
-/

namespace EditPipeline

variable {σ π : Type}

/-! ## Registering -/

namespace Context

theorem foldl_register (edits : List (Edit σ)) (context : Context σ) :
    edits.foldl register context =
      ⟨context.stage, context.chain ++ edits.map (Link.mk context.stage)⟩ := by
  induction edits generalizing context with
  | nil => simp
  | cons edit rest ih => simp [ih, register]

/-- If no link is of the stage yet, then what is counted are the calls. -/
theorem registered_foldl {context : Context σ}
    (hnew : ∀ link ∈ context.chain, link.stage ≠ context.stage) (edits : List (Edit σ)) :
    (edits.foldl register context).registered = edits.length := by
  have hold : context.chain.countP (fun link => link.stage = context.stage) = 0 := by
    refine List.countP_eq_zero.2 fun link hlink => ?_
    simpa using hnew link hlink
  have hmade : (edits.map (Link.mk context.stage)).countP
      (fun link => link.stage = context.stage) = edits.length := by
    simp [List.countP_map, Function.comp_def]
  rw [foldl_register, registered, List.countP_append, hold, hmade, Nat.zero_add]

end Context

/-! ## Numbered blocks

The links of all stages and the editors of all markers are put together in one way: each item
gives a block, and all of a block carries the number of the item. -/

/-- Numbers never decrease from block to block. -/
theorem pairwise_blocks {α β : Type} {block : α × Nat → List β} (number : β → Nat)
    (hnumber : ∀ item, ∀ element ∈ block item, number element = item.2) (items : List α)
    (start : Nat) : (((items.zipIdx start).flatMap block).map number).Pairwise (· ≤ ·) := by
  rw [List.pairwise_map, List.pairwise_flatMap]
  constructor
  · intro item _
    refine List.pairwise_of_forall_mem_list fun first hfirst second hsecond => ?_
    exact Nat.le_of_eq ((hnumber item first hfirst).trans (hnumber item second hsecond).symm)
  · have hcounted : ((items.zipIdx start).map Prod.snd).Pairwise (· ≤ ·) := by
      rw [List.zipIdx_map_snd]
      exact List.pairwise_le_range' 1
    refine (List.pairwise_map.1 hcounted).imp ?_
    intro item other hle first hfirst second hsecond
    calc number first = item.2 := hnumber item first hfirst
      _ ≤ other.2 := hle
      _ = number second := (hnumber other second hsecond).symm

/-- The number of an element finds the item that gave it. -/
theorem mem_blocks {α β : Type} {block : α × Nat → List β} (number : β → Nat)
    (hnumber : ∀ item, ∀ element ∈ block item, number element = item.2) {items : List α}
    {element : β} (helement : element ∈ items.zipIdx.flatMap block) :
    ∃ item, items[number element]? = some item ∧ element ∈ block (item, number element) := by
  obtain ⟨⟨item, index⟩, hitem, hgiven⟩ := List.mem_flatMap.1 helement
  have hindex : number element = index := hnumber _ _ hgiven
  rw [hindex]
  exact ⟨item, (List.mk_mem_zipIdx_iff_getElem?).1 hitem, hgiven⟩

/-- The links of a stage have its number. -/
theorem stage_of_mem_links {joining : Joining σ} {index : Nat} {link : Link σ}
    (hlink : link ∈ joining.links index) : link.stage = index := by
  obtain ⟨edit, -, rfl⟩ := List.mem_map.1 hlink
  rfl

/-- Each link was registered by the editor of its stage. -/
theorem mem_linksFrom {joined : List (Joining σ)} {link : Link σ}
    (hlink : link ∈ linksFrom 0 joined) :
    ∃ joining, joined[link.stage]? = some joining ∧ link.edit ∈ joining.setup.edits := by
  obtain ⟨joining, hjoining, hgiven⟩ :=
    mem_blocks Link.stage (fun _ _ => stage_of_mem_links) hlink
  obtain ⟨edit, hedit, hsame⟩ := List.mem_map.1 hgiven
  exact ⟨joining, hjoining, hsame ▸ hedit⟩

/-- The stage numbers along the chain never decrease. -/
theorem pairwise_linksFrom (start : Nat) (joined : List (Joining σ)) :
    ((linksFrom start joined).map Link.stage).Pairwise (· ≤ ·) :=
  pairwise_blocks Link.stage (fun _ _ => stage_of_mem_links) joined start

/-- Counting the links of a number gives what its editor registered. -/
theorem countP_linksFrom (start : Nat) {index : Nat} {joined : List (Joining σ)}
    {joining : Joining σ} (hjoining : joined[index]? = some joining) :
    (linksFrom start joined).countP (fun link => link.stage = start + index) =
      joining.setup.edits.length := by
  induction joined generalizing start index with
  | nil => cases hjoining
  | cons first rest ih =>
      have hparts : linksFrom start (first :: rest) =
          first.links start ++ linksFrom (start + 1) rest := rfl
      rw [hparts, List.countP_append]
      cases index with
      | zero =>
          obtain rfl : first = joining := Option.some.inj hjoining
          -- the stages that come later have greater numbers
          have hlater : (linksFrom (start + 1) rest).countP
              (fun link => link.stage = start + 0) = 0 := by
            refine List.countP_eq_zero.2 fun link hlink => ?_
            obtain ⟨⟨joining, later⟩, hitem, hgiven⟩ := List.mem_flatMap.1 hlink
            have hstart := (List.mk_mem_zipIdx_iff_le_and_getElem?_sub.1 hitem).1
            have hstage := stage_of_mem_links hgiven
            simp only [decide_eq_true_eq]
            omega
          rw [hlater, Joining.links, List.countP_map]
          simp [Function.comp_def]
      | succ index =>
          have hother : (first.links start).countP
              (fun link => link.stage = start + (index + 1)) = 0 := by
            refine List.countP_eq_zero.2 fun link hlink => ?_
            have hstage := stage_of_mem_links hlink
            simp only [decide_eq_true_eq]
            omega
          have hrest := ih (start + 1) hjoining
          rw [Nat.add_right_comm, Nat.add_assoc] at hrest
          rw [hother, Nat.zero_add, hrest]

theorem length_linksFrom (start : Nat) (joined : List (Joining σ)) :
    (linksFrom start joined).length = (joined.map fun joining => joining.setup.edits.length).sum := by
  induction joined generalizing start with
  | nil => rfl
  | cons joining rest ih =>
      calc (linksFrom start (joining :: rest)).length
          = (joining.links start).length + (linksFrom (start + 1) rest).length :=
            List.length_append
        _ = joining.setup.edits.length + (linksFrom (start + 1) rest).length := by
            rw [Joining.links, List.length_map]
        _ = _ := by rw [ih, List.map_cons, List.sum_cons]

/-- Each editor has the place and the kind of the marker that gave it. -/
theorem mem_roster {asked : List (Asking σ)} {entry : MarkerOrigin × Editor σ}
    (hentry : entry ∈ roster 0 asked) :
    ∃ asking, asked[entry.1.index]? = some asking ∧ asking.marker.kind = entry.1.kind ∧
      entry.2 ∈ asking.editors := by
  obtain ⟨asking, hasking, hgiven⟩ := mem_blocks (fun entry => entry.1.index) (by
    intro item entry hentry
    obtain ⟨editor, -, rfl⟩ := List.mem_map.1 hentry
    rfl) hentry
  obtain ⟨editor, heditor, hsame⟩ := List.mem_map.1 hgiven
  rw [← hsame]
  exact ⟨asking, hsame ▸ hasking, rfl, heditor⟩

/-- Editors come in the order of their markers. -/
theorem pairwise_roster (start : Nat) (asked : List (Asking σ)) :
    ((roster start asked).map (·.1.index)).Pairwise (· ≤ ·) := by
  refine pairwise_blocks (fun entry : MarkerOrigin × Editor σ => entry.1.index) ?_ asked start
  intro item entry hentry
  obtain ⟨editor, -, rfl⟩ := List.mem_map.1 hentry
  rfl

/-! ## Stages of a run -/

/-- What an outcome lists for the editor. -/
def Joining.info (joining : Joining σ) : StageInfo :=
  ⟨joining.editor.name, joining.origin, joining.setup.edits.length⟩

/-- What is listed for an editor names the marker that gave it. -/
theorem marker_of_info {asked : List (Asking σ)} {joined : List (Joining σ)} {info : StageInfo}
    (hroster : joined.map Joining.entry = roster 0 asked)
    (hinfo : info ∈ joined.map Joining.info) :
    ((asked.map Asking.marker)[info.marker.index]?).map Marker.kind = some info.marker.kind := by
  obtain ⟨joining, hjoining, rfl⟩ := List.mem_map.1 hinfo
  have hentry : joining.entry ∈ roster 0 asked := hroster ▸ List.mem_map_of_mem hjoining
  obtain ⟨asking, hasking, hkind, -⟩ := mem_roster hentry
  calc ((asked.map Asking.marker)[joining.origin.index]?).map Marker.kind
      = (asked[joining.origin.index]?).map fun asking => asking.marker.kind := by
        rw [List.getElem?_map, Option.map_map]
        rfl
    _ = some asking.marker.kind := congrArg (Option.map fun asking => asking.marker.kind) hasking
    _ = some joining.origin.kind := congrArg some hkind

namespace Run

variable {program : Program} {run between after : Run σ π} {joined : List (Joining σ)}

/-- One stage is listed for each editor, with the number of edits that it registered. -/
theorem Joins.stageInfos (hjoins : Joins program run joined after) (hstages : run.stages = [])
    (hchain : run.chain = []) : after.stageInfos = joined.map Joining.info := by
  refine List.ext_getElem? fun index => ?_
  rw [Run.stageInfos, hjoins.stages, hjoins.chain, hstages, hchain, List.nil_append,
    List.nil_append, List.getElem?_mapIdx, List.getElem?_map, List.getElem?_map]
  cases hjoining : joined[index]? with
  | none => rfl
  | some joining =>
      have hcount := countP_linksFrom 0 hjoining
      rw [Nat.zero_add] at hcount
      have hname : joining.stage.name = joining.editor.name := joining.name_stage
      rw [Option.map_some, Option.map_some, Option.map_some, List.length_nil, hcount, hname]
      rfl

/-- A chain that begins empty is that of the editors. -/
theorem Joins.chain_linksFrom (hjoins : Joins program run joined after)
    (hstages : run.stages = []) (hchain : run.chain = []) : after.chain = linksFrom 0 joined := by
  rw [hjoins.chain, hstages, hchain]
  rfl

/-- Initializing editors one after the other can be parted at each of them. -/
theorem Joins.part {joining : Joining σ} {done rest : List (Joining σ)}
    (hjoins : Joins program run (done ++ joining :: rest) after) :
    ∃ before, Joins program run done before ∧ before.cancelled = false ∧
      joining.given = before.poll.sharing ∧
      Joins program (before.poll.enroll joining.origin joining.editor.name program joining.setup)
        rest after := by
  induction done generalizing run with
  | nil =>
      cases hjoins with
      | cons joining hgoes hprogram hgiven hrest => exact ⟨run, .nil run, hgoes, hgiven, hrest⟩
  | cons first done ih =>
      cases hjoins with
      | cons first hgoes hprogram hgiven hrest =>
          obtain ⟨before, hbefore, hafter⟩ := ih hrest
          exact ⟨before, .cons first hgoes hprogram hgiven hbefore, hafter⟩

/-- While an editor initializes, the chain holds as many links with its number as it has
registered edits, for the editors before it have other numbers. -/
theorem Joins.registers {joining : Joining σ} {done rest : List (Joining σ)}
    (hjoins : Joins program run (done ++ joining :: rest) after) (hstages : run.stages = [])
    (hchain : run.chain = []) :
    ∃ before : Run σ π, Joins program run done before ∧
      (∀ made, made <+: joining.setup.edits →
        (made.foldl Context.register ⟨done.length, before.chain⟩).registered = made.length) ∧
      (joining.setup.edits.foldl Context.register ⟨done.length, before.chain⟩).chain =
        (before.poll.enroll joining.origin joining.editor.name program joining.setup).chain := by
  obtain ⟨before, hbefore, -⟩ := hjoins.part
  have hcount : before.stages.length = done.length := by
    rw [hbefore.stages, hstages, List.nil_append, List.length_map]
  have hearlier : ∀ link ∈ before.chain, link.stage ≠ done.length := by
    intro link hlink
    rw [hbefore.chain_linksFrom hstages hchain] at hlink
    obtain ⟨earlier, hother, -⟩ := mem_linksFrom hlink
    exact Nat.ne_of_lt (List.getElem?_eq_some_iff.1 hother).1
  refine ⟨before, hbefore, ?_, ?_⟩
  · intro made hmade
    exact Context.registered_foldl hearlier made
  · rw [Context.foldl_register, Run.chain_enroll, Run.chain_poll, Run.stages_poll, hcount]

/-- While an edit waits for its turn, its stage number finds the stage of the editor that
registered it. -/
theorem Passes.finds {plugins : List (Plugin π)} {current : Program} {before : Run σ π}
    {passed : List (Passing σ)} {link : Link σ} {index : Nat}
    (hjoins : Joins program between joined after) (hstages : between.stages = [])
    (hchain : between.chain = []) (hlink : link ∈ after.chain)
    (hpasses : (after.announce .executing 0 plugins).Passes plugins index program passed current
      before) :
    ∃ stage joining, before.stages[link.stage]? = some stage ∧
      joined[link.stage]? = some joining ∧ stage.name = joining.editor.name ∧
      stage.origin = joining.origin ∧ link.edit ∈ joining.setup.edits := by
  rw [hjoins.chain_linksFrom hstages hchain] at hlink
  obtain ⟨joining, hjoining, hedit⟩ := mem_linksFrom hlink
  -- edits do not change what is listed of the stages, so the stage is still there
  have hinfos : before.stageInfos = joined.map Joining.info := by
    rw [hpasses.stageInfos, stageInfos_announce, hjoins.stageInfos hstages hchain]
  have hinfo := congrArg (·[link.stage]?) hinfos
  simp only [Run.stageInfos, List.getElem?_mapIdx, List.getElem?_map, hjoining,
    Option.map_some] at hinfo
  obtain ⟨stage, hstage, hsame⟩ := Option.map_eq_some_iff.1 hinfo
  injection hsame with hname horigin
  exact ⟨stage, joining, hstage, hjoining, hname, horigin, hedit⟩

end Run

namespace Pipeline

variable (pipeline : Pipeline π) (program : Program) (markers : List (Marker σ))
  (shared : Shared σ) (watch : π) (stopAt : Option Nat)

/-- A run that collected lists its stages as they were then, whether it completes or not. -/
theorem stages_run {collected : Run σ π}
    (hcollected : (pipeline.start shared watch stopAt).collect program markers =
      (.ok (), collected)) :
    (pipeline.run program markers shared watch stopAt).outcome.findings.stages =
      collected.stageInfos := by
  rw [pipeline.run_conclude program markers shared watch stopAt hcollected, Run.findings_conclude]
  have hexecutes := Run.executes pipeline.plugins 0 collected.chain program
    (collected.announce .executing 0 pipeline.plugins)
  exact hexecutes.stageInfos.trans (Run.stageInfos_announce .executing 0 pipeline.plugins collected)

/-- Only a run that collected completes. -/
theorem collected_of_completed
    (hcompleted : (pipeline.run program markers shared watch stopAt).outcome.isCompleted = true) :
    ((pipeline.start shared watch stopAt).collect program markers).1 = .ok () := by
  cases hended : (pipeline.start shared watch stopAt).collect program markers with
  | mk result collected =>
      cases result with
      | ok done => rfl
      | error error =>
          unfold run at hcompleted
          rw [hended] at hcompleted
          simp [Outcome.isCompleted] at hcompleted

/-- Collecting alone finds no error exactly if it collected. -/
theorem collect_eq_none_iff :
    (pipeline.collect program markers shared watch stopAt).outcome.1 = none ↔
      ((pipeline.start shared watch stopAt).collect program markers).1 = .ok () := by
  unfold collect
  cases (pipeline.start shared watch stopAt).collect program markers with
  | mk result collected => cases result <;> simp

theorem stages_collect {collected : Run σ π}
    (hcollected : (pipeline.start shared watch stopAt).collect program markers =
      (.ok (), collected)) :
    (pipeline.collect program markers shared watch stopAt).outcome.2.stages =
      collected.stageInfos := by
  unfold collect
  rw [hcollected]
  simp [Run.findings]

end Pipeline

/-! ## Main statement -/

/-- **Every stage stands for one editor, and owns the edits that it registered.**  A run that
goes beyond collecting, and collecting alone if it succeeds, lists one stage for each editor
that the markers gave, in their order. -/
theorem stages_stand_for_editors (pipeline : Pipeline π) (program : Program)
    (markers : List (Marker σ)) (shared : Shared σ) (watch : π) (stopAt : Option Nat) :
    let started := pipeline.start shared watch stopAt
    let ran := pipeline.run program markers shared watch stopAt
    let looked := pipeline.collect program markers shared watch stopAt
    (ran.outcome.isCompleted = true → (started.collect program markers).1 = .ok ()) ∧
    (looked.outcome.1 = none ↔ (started.collect program markers).1 = .ok ()) ∧
    ∀ collected : Run σ π, started.collect program markers = (.ok (), collected) →
      ∃ (asked : List (Asking σ)) (joined : List (Joining σ)) (between : Run σ π),
        let infos := joined.map Joining.info
        asked.map Asking.marker = markers ∧ Run.Asks 0 started.poll asked between ∧
        joined.map Joining.entry = roster 0 asked ∧ Run.Joins program between joined collected ∧
        ran.outcome.findings.stages = infos ∧ looked.outcome.2.stages = infos ∧
        (infos.map (·.marker.index)).Pairwise (· ≤ ·) ∧
        (∀ info ∈ infos, (markers[info.marker.index]?).map Marker.kind = some info.marker.kind) ∧
        -- at any time of its initialization, an editor can ask how much it has registered
        (∀ done joining rest, joined = done ++ joining :: rest →
          ∃ before : Run σ π, Run.Joins program between done before ∧
            (∀ made, made <+: joining.setup.edits →
              (made.foldl Context.register ⟨done.length, before.chain⟩).registered =
                made.length) ∧
            (joining.setup.edits.foldl Context.register ⟨done.length, before.chain⟩).chain =
              (before.poll.enroll joining.origin joining.editor.name program
                joining.setup).chain) ∧
        (infos.map (·.edits)).sum = collected.chain.length ∧
        (collected.chain.map Link.stage).Pairwise (· ≤ ·) ∧
        -- whenever an edit's turn comes, its number finds the stage of its editor
        ∀ passed link rest current before,
          passed.map Passing.link ++ link :: rest = collected.chain →
          (collected.announce .executing 0 pipeline.plugins).Passes pipeline.plugins 0 program
            passed current before →
          ∃ stage joining, before.poll.stages[link.stage]? = some stage ∧
            joined[link.stage]? = some joining ∧ stage.name = joining.editor.name ∧
            stage.origin = joining.origin ∧ link.edit ∈ joining.setup.edits := by
  dsimp only
  refine ⟨pipeline.collected_of_completed program markers shared watch stopAt,
    pipeline.collect_eq_none_iff program markers shared watch stopAt, ?_⟩
  intro collected hcollected
  have hcollects := Run.collects program markers (pipeline.start shared watch stopAt)
  rw [hcollected] at hcollects
  cases hcollects with
  | @done asked joined between after hgoes hmarkers hasks hroster hjoins =>
      have hstages : between.stages = [] := by simpa using hasks.stages
      have hchain : between.chain = [] := by simpa using hasks.chain
      have hlinks : collected.chain = linksFrom 0 joined :=
        hjoins.chain_linksFrom hstages hchain
      have hinfos : collected.stageInfos = joined.map Joining.info :=
        hjoins.stageInfos hstages hchain
      have hindices : (joined.map Joining.info).map (·.marker.index) =
          (roster 0 asked).map (·.1.index) := by
        rw [← hroster, List.map_map, List.map_map]
        rfl
      refine ⟨asked, joined, between, hmarkers, hasks, hroster, hjoins, ?_, ?_, ?_, ?_, ?_, ?_,
        ?_, ?_⟩
      · exact (pipeline.stages_run program markers shared watch stopAt hcollected).trans hinfos
      · exact (pipeline.stages_collect program markers shared watch stopAt hcollected).trans hinfos
      · rw [hindices]
        exact pairwise_roster 0 asked
      · intro info hinfo
        rw [← hmarkers]
        exact marker_of_info hroster hinfo
      · rintro done joining rest rfl
        exact hjoins.registers hstages hchain
      · rw [hlinks, length_linksFrom, List.map_map]
        rfl
      · rw [hlinks]
        exact pairwise_linksFrom 0 joined
      · intro passed link rest current before hsplit hpasses
        have hlink : link ∈ collected.chain := hsplit ▸ List.mem_append_cons_self
        obtain ⟨stage, joining, hstage, hfound⟩ := hpasses.finds hjoins hstages hchain hlink
        exact ⟨stage, joining, hstage, hfound⟩

/-- An editor that registers these edits. -/
def registrar (name : String) (edits : List (Edit Unit)) : Editor Unit where
  name := name
  setUp _ shared := { result := .ok (), emitted := [], edits := edits, shared := shared }

/-- An edit that adds to the name of the program. -/
def extending (suffix : String) : Edit Unit := fun program _ shared =>
  { result := .ok { program with name := program.name ++ suffix }, emitted := [], shared := shared }

/-- Two markers with three editors of one name. -/
def namesakes : List (Marker Unit) :=
  [⟨"first", fun shared =>
      (.ok [registrar "pass" [extending "a", extending "b"], registrar "pass" []], shared)⟩,
    ⟨"second", fun shared => (.ok [registrar "pass" [extending "c"]], shared)⟩]

/-- The editors of one name are told apart by their numbers. -/
theorem stages_of_namesakes :
    (({} : Pipeline Unit).run { name := "p" } namesakes ⟨false, ()⟩ ()).outcome =
      .completed { name := "pabc" }
        ⟨[⟨"pass", ⟨0, "first"⟩, 2⟩, ⟨"pass", ⟨0, "first"⟩, 0⟩, ⟨"pass", ⟨1, "second"⟩, 1⟩], []⟩ ∧
    ∃ collected : Run Unit Unit,
      (({} : Pipeline Unit).start ⟨false, ()⟩ ()).collect { name := "p" } namesakes =
        (.ok (), collected) ∧
      collected.chain.map Link.stage = [0, 0, 2] ∧
      (collected.chain.map Link.stage).Pairwise (· ≤ ·) := by
  obtain ⟨-, -, hstages⟩ := stages_stand_for_editors {} { name := "p" } namesakes ⟨false, ()⟩ ()
    none
  obtain ⟨asked, joined, between, -, -, -, -, -, -, -, -, -, -, hpairwise, -⟩ := hstages _ rfl
  exact ⟨rfl, _, rfl, rfl, hpairwise⟩

end EditPipeline
