import Mathlib.Data.List.Basic
import EditPipeline.Proofs.Run.Acts

/-!
# What editors say in a run

Editors give diagnostics while they are initialized and while their edits are
applied.  The journal has all of them in the order of time: this is the log.  The
outcome has them stage by stage, from the outboxes of the stages.

`Keeps` ties the two together.  It says which editors a run has called, and that
each outbox holds what the log has from its stage.  Each act of a run preserves
this, so any number of acts do, and what the outcome has at the end is the log
`grouped` by stages.
-/

namespace EditPipeline

variable {σ π : Type}

/-! ## The log -/

/-- The number of the stage and the diagnostic, if an event is one. -/
@[simp] def Event.emission? : Event → Option (Nat × Diagnostic)
  | .emit stage diagnostic => some (stage, diagnostic)
  | _ => none

/-- The diagnostics that a journal notes, with the numbers of their stages. -/
def emissions (journal : Journal) : List (Nat × Diagnostic) := journal.filterMap Event.emission?

/-- What a log has from stage number `index`, under the name of its editor. -/
def ofStage (name : String) (index : Nat) (log : List (Nat × Diagnostic)) : List Diagnostic :=
  (log.filter (·.1 = index)).map fun entry => { entry.2 with stage := name }

/-- A log stage by stage, where the editors have these names. -/
def grouped (names : List String) (log : List (Nat × Diagnostic)) : List Diagnostic :=
  names.zipIdx.flatMap fun (name, index) => ofStage name index log

theorem emissions_append (journal more : Journal) :
    emissions (journal ++ more) = emissions journal ++ emissions more :=
  List.filterMap_append

theorem emissions_cons {event : Event} (hact : event.isAct = true) (rest : Journal) :
    emissions (event :: rest) = emissions rest := by
  have hnone : event.emission? = none := by cases event <;> simp_all
  exact List.filterMap_cons_none hnone

theorem emissions_emit (stage : Nat) (diagnostics : List Diagnostic) :
    emissions (diagnostics.map (.emit stage)) = diagnostics.map (stage, ·) := by
  simp [emissions, List.filterMap_map, Function.comp_def]

theorem ofStage_append (name : String) (index : Nat) (log more : List (Nat × Diagnostic)) :
    ofStage name index (log ++ more) = ofStage name index log ++ ofStage name index more := by
  simp [ofStage]

theorem ofStage_prefix (name : String) (index : Nat) {log more : List (Nat × Diagnostic)}
    (hlog : log <+: more) : ofStage name index log <+: ofStage name index more := by
  obtain ⟨later, rfl⟩ := hlog
  rw [ofStage_append]
  exact List.prefix_append _ _

theorem ofStage_own (name : String) (index : Nat) (diagnostics : List Diagnostic) :
    ofStage name index (diagnostics.map (index, ·)) =
      diagnostics.map fun diagnostic => { diagnostic with stage := name } := by
  have hall : ∀ entry ∈ diagnostics.map (index, ·), decide (entry.1 = index) = true := by simp
  rw [ofStage, List.filter_eq_self.2 hall, List.map_map]
  rfl

theorem ofStage_eq_nil (name : String) {index : Nat} {log : List (Nat × Diagnostic)}
    (hlog : ∀ entry ∈ log, entry.1 ≠ index) : ofStage name index log = [] := by
  have hnone : log.filter (·.1 = index) = [] :=
    List.filter_eq_nil_iff.2 fun entry hentry => by simpa using hlog entry hentry
  rw [ofStage, hnone, List.map_nil]

theorem ofStage_other (name : String) {index stage : Nat} (hne : stage ≠ index)
    (diagnostics : List Diagnostic) :
    ofStage name index (diagnostics.map (stage, ·)) = [] :=
  ofStage_eq_nil name (by simpa using fun _ _ => hne)

/-- Stages from `start` on, with these names, share out what the log has from there on. -/
private theorem perm_groups (names : List String) (start : Nat) (log : List (Nat × Diagnostic))
    (hlog : ∀ entry ∈ log, entry.1 < start + names.length) :
    ((names.zipIdx start).flatMap fun (name, index) => ofStage name index log).Perm
      ((log.filter (start ≤ ·.1)).map fun entry =>
        { entry.2 with stage := names.getD (entry.1 - start) "" }) := by
  induction names generalizing start with
  | nil =>
      have hnone : log.filter (start ≤ ·.1) = [] :=
        List.filter_eq_nil_iff.2 fun entry hentry => by simpa using hlog entry hentry
      simp [hnone]
  | cons name rest ih =>
      have hrest := ih (start + 1) fun entry hentry => by
        have hlt := hlog entry hentry
        rw [List.length_cons] at hlt
        omega
      -- what the log has from `start` on is what it has from `start`, and from later stages
      have hsplit := (List.filter_append_perm (fun entry : Nat × Diagnostic => entry.1 = start)
        (log.filter (start ≤ ·.1))).symm
      have hfirst : (log.filter (start ≤ ·.1)).filter (·.1 = start) = log.filter (·.1 = start) := by
        rw [List.filter_filter]
        refine List.filter_congr fun entry _ => ?_
        by_cases h : entry.1 = start <;> simp [h]
      have hlater : (log.filter (start ≤ ·.1)).filter (fun entry => !decide (entry.1 = start)) =
          log.filter (start + 1 ≤ ·.1) := by
        rw [List.filter_filter]
        refine List.filter_congr fun entry _ => ?_
        rw [Bool.eq_iff_iff]
        simp only [Bool.and_eq_true, Bool.not_eq_true', decide_eq_false_iff_not, decide_eq_true_eq]
        omega
      rw [hfirst, hlater] at hsplit
      refine List.Perm.trans ?_ (hsplit.map _).symm
      rw [List.zipIdx_cons, List.flatMap_cons, List.map_append]
      refine List.Perm.append (.of_eq ?_) (hrest.trans (.of_eq ?_))
      · refine List.map_congr_left fun entry hentry => ?_
        have hstart : entry.1 = start := by simpa using (List.mem_filter.1 hentry).2
        simp [hstart]
      · refine List.map_congr_left fun entry hentry => ?_
        have hstart : start + 1 ≤ entry.1 := by simpa using (List.mem_filter.1 hentry).2
        have hshift : entry.1 - start = (entry.1 - (start + 1)) + 1 := by omega
        rw [hshift, List.getD_cons_succ]

/-- Grouping a log loses nothing and makes nothing up. -/
theorem grouped_perm {names : List String} {log : List (Nat × Diagnostic)}
    (hlog : ∀ entry ∈ log, entry.1 < names.length) :
    (grouped names log).Perm
      (log.map fun entry => { entry.2 with stage := names.getD entry.1 "" }) := by
  have hperm := perm_groups names 0 log (by simpa using hlog)
  have hall : log.filter (0 ≤ ·.1) = log := List.filter_eq_self.2 (by simp)
  simpa [grouped, hall] using hperm

/-! ## What acts say -/

namespace Act

/-- The editors that an act initializes, whatever comes of it. -/
@[simp] def openings : Act σ π → List (Opening σ)
  | .setUp _ opening => [opening]
  | _ => []

/-- What an act adds to the log. -/
def emitted : Act σ π → List (Nat × Diagnostic)
  | .setUp stage opening => opening.setup.emitted.map (stage, ·)
  | .edit _ editing => editing.reply.emitted.map (editing.link.stage, ·)
  | _ => []

theorem openings_of_not_isCall (act : Act σ π) (hcall : act.isCall = false) :
    act.openings = [] := by
  cases act <;> simp_all

theorem emitted_of_not_isCall (act : Act σ π) (hcall : act.isCall = false) :
    act.emitted = [] := by
  cases act <;> simp_all [emitted]

theorem emissions_notes (act : Act σ π) : emissions act.notes = act.emitted := by
  have hrequest : emissions (if act.requests then [.request] else []) = [] := by
    split <;> rfl
  have hsaid : emissions act.said = act.emitted := by
    cases act with
    | setUp stage opening => exact emissions_emit stage _
    | edit index editing => exact emissions_emit editing.link.stage _
    | _ => rfl
  rw [notes, List.cons_append, emissions_cons act.isAct_event, emissions_append, hrequest, hsaid,
    List.nil_append]

end Act

/-- Whether an event is an initialization of an editor. -/
@[simp] def Event.isSetUp : Event → Bool
  | .setUp .. => true
  | _ => false

theorem Event.isAct_of_isSetUp (event : Event) (hsetUp : event.isSetUp = true) :
    event.isAct = true := by
  cases event <;> simp_all

theorem Opening.events_concat (opened : List (Opening σ)) (opening : Opening σ) :
    events (opened ++ [opening]) = events opened ++ [opening.event opened.length] := by
  simp [events, List.zipIdx_append]

theorem stage_lt_of_mem_linksOf {opened : List (Opening σ)} {link : Link σ}
    (hlink : link ∈ linksOf opened) : link.stage < opened.length := by
  obtain ⟨⟨opening, index⟩, hopening, hlink⟩ := List.mem_flatMap.1 hlink
  obtain ⟨edit, -, rfl⟩ := List.mem_map.1 hlink
  exact (List.mem_zipIdx' hopening).1

theorem linksOf_concat (opened : List (Opening σ)) (opening : Opening σ) :
    linksOf (opened ++ [opening]) =
      linksOf opened ++ opening.setup.edits.map (Link.mk opened.length) := by
  simp [linksOf, List.zipIdx_append]

namespace Run

/-! ## What a run keeps -/

/-- The run has called these editors, and has kept all that it was told. -/
structure Keeps (run : Run σ π) (opened : List (Opening σ)) : Prop where
  /-- The journal has their initializations and no others. -/
  setUps : run.journal.filter Event.isSetUp = Opening.events opened
  /-- Whoever spoke has a stage. -/
  known : ∀ entry ∈ emissions run.journal, entry.1 < opened.length
  /-- Each outbox has what the log has from its stage. -/
  outboxes : ∀ index, run.stages[index]?.map Stage.outbox = opened[index]?.map fun opening =>
    ⟨opening.editor.name, ofStage opening.editor.name index (emissions run.journal)⟩
  chain : run.chain = linksOf opened

theorem Does.emissions {plugins : List (Plugin π)} {run after : Run σ π} {act : Act σ π}
    (hdoes : Does plugins run act after) :
    emissions after.journal = emissions run.journal ++ act.emitted := by
  rw [hdoes.journal, emissions_append, act.emissions_notes]

theorem Does.setUps {plugins : List (Plugin π)} {run after : Run σ π} {act : Act σ π}
    (hdoes : Does plugins run act after) :
    after.journal.filter Event.isSetUp =
      run.journal.filter Event.isSetUp ++ [act.event].filter Event.isSetUp := by
  have hnotes := Act.filter_notes Event.isAct_of_isSetUp [act]
  rw [List.flatMap_singleton] at hnotes
  rw [hdoes.journal, List.filter_append, hnotes]
  rfl

namespace Keeps

variable {run after : Run σ π} {opened : List (Opening σ)}

theorem length_stages (hkeeps : run.Keeps opened) : run.stages.length = opened.length := by
  have hopened := hkeeps.outboxes opened.length
  have hstages := hkeeps.outboxes run.stages.length
  rw [List.getElem?_eq_none (Nat.le_refl _), Option.map_none] at hopened hstages
  rw [Option.map_eq_none_iff, List.getElem?_eq_none_iff] at hopened
  rw [eq_comm, Option.map_eq_none_iff, List.getElem?_eq_none_iff] at hstages
  exact Nat.le_antisymm hopened hstages

/-- No stage is there before an editor was called. -/
theorem stages_eq_nil (hkeeps : run.Keeps []) : run.stages = [] :=
  List.length_eq_zero_iff.1 hkeeps.length_stages

/-- An act that nobody says anything in changes nothing. -/
theorem quiet (hkeeps : run.Keeps opened)
    (hsetUps : after.journal.filter Event.isSetUp = run.journal.filter Event.isSetUp)
    (hlog : emissions after.journal = emissions run.journal)
    (hstages : after.stages = run.stages) (hchain : after.chain = run.chain) :
    after.Keeps opened where
  setUps := hsetUps.trans hkeeps.setUps
  known := by rw [hlog]; exact hkeeps.known
  outboxes := by rw [hlog, hstages]; exact hkeeps.outboxes
  chain := by rw [hchain, hkeeps.chain]

/-- The outbox of a new stage has what its editor has said, for nobody knew the stage
before. -/
theorem enroll (hkeeps : run.Keeps opened) (opening : Opening σ)
    (hafter : after =
      run.enroll opening.origin opening.editor.name opening.program opening.setup)
    (hsetUps : after.journal.filter Event.isSetUp =
      run.journal.filter Event.isSetUp ++ [opening.event opened.length])
    (hlog : emissions after.journal =
      emissions run.journal ++ opening.setup.emitted.map (opened.length, ·)) :
    after.Keeps (opened ++ [opening]) where
  setUps := by rw [hsetUps, hkeeps.setUps, Opening.events_concat]
  known := by
    intro entry hentry
    rw [hlog, List.mem_append, List.mem_map] at hentry
    rw [List.length_append, List.length_singleton]
    rcases hentry with hold | ⟨diagnostic, -, rfl⟩
    · exact Nat.lt_succ_of_lt (hkeeps.known entry hold)
    · exact Nat.lt_succ_self _
  outboxes := by
    intro index
    rw [hlog, hafter, stages_enroll]
    rcases Nat.lt_trichotomy index opened.length with hlt | rfl | hgt
    · have hlt' : index < run.stages.length := hkeeps.length_stages ▸ hlt
      rw [List.getElem?_append_left hlt', List.getElem?_append_left hlt, hkeeps.outboxes]
      simp only [ofStage_append, ofStage_other _ (Nat.ne_of_gt hlt), List.append_nil]
    · have hnone : ∀ entry ∈ emissions run.journal, entry.1 ≠ opened.length :=
        fun entry hentry => Nat.ne_of_lt (hkeeps.known entry hentry)
      rw [← hkeeps.length_stages, List.getElem?_concat_length, hkeeps.length_stages,
        List.getElem?_concat_length]
      simp [Outbox.pushAll_eq, Outbox.stamp, ofStage_append, ofStage_own, ofStage_eq_nil _ hnone]
    · rw [List.getElem?_eq_none, List.getElem?_eq_none]
      · rfl
      · rw [List.length_append]
        exact hgt
      · rw [List.length_append, hkeeps.length_stages]
        exact hgt
  chain := by rw [hafter, chain_enroll, hkeeps.chain, linksOf_concat, hkeeps.length_stages]

/-- Only the outbox of the stage that registered the edit has more than before. -/
theorem absorb (hkeeps : run.Keeps opened) {index : Nat} (editing : Editing σ)
    (hstage : editing.link.stage < opened.length)
    (hafter : after =
      run.absorb editing.link.stage index editing.program editing.reply)
    (hsetUps : after.journal.filter Event.isSetUp = run.journal.filter Event.isSetUp)
    (hlog : emissions after.journal =
      emissions run.journal ++ editing.reply.emitted.map (editing.link.stage, ·)) :
    after.Keeps opened where
  setUps := hsetUps.trans hkeeps.setUps
  known := by
    intro entry hentry
    rw [hlog, List.mem_append, List.mem_map] at hentry
    rcases hentry with hold | ⟨diagnostic, -, rfl⟩
    · exact hkeeps.known entry hold
    · exact hstage
  outboxes := by
    intro index
    have hold := hkeeps.outboxes index
    rw [hlog, hafter]
    simp only [Run.absorb, List.getElem?_modify, Option.map_eq_map, Option.map_map]
    cases hrun : run.stages[index]? with
    | none =>
        rw [hrun, Option.map_none, eq_comm, Option.map_eq_none_iff] at hold
        simp [hold]
    | some stage =>
        rw [hrun, Option.map_some, eq_comm, Option.map_eq_some_iff] at hold
        obtain ⟨opening, hopening, houtbox⟩ := hold
        rw [hopening]
        by_cases h : editing.link.stage = index
        · subst h
          simp [← houtbox, Outbox.pushAll_eq, Outbox.stamp, ofStage_append, ofStage_own]
        · simp [h, ← houtbox, ofStage_append, ofStage_other _ h]
  chain := by rw [hafter]; exact hkeeps.chain

end Keeps

/-- **Every act preserves what a run keeps**, if an edit belongs to a stage that is there. -/
theorem Does.keeps {plugins : List (Plugin π)} {run after : Run σ π} {act : Act σ π}
    {opened : List (Opening σ)} (hdoes : Does plugins run act after) (hkeeps : run.Keeps opened)
    (hedit : ∀ index editing, act = .edit index editing → editing.link.stage < opened.length) :
    after.Keeps (opened ++ act.openings) := by
  have hlog := hdoes.emissions
  have hsetUps := hdoes.setUps
  cases hdoes with
  | setUp opening hgiven =>
      rw [hkeeps.length_stages] at hlog hsetUps
      exact hkeeps.enroll opening rfl hsetUps hlog
  | edit index editing houtbox hgiven =>
      have hsame := hsetUps.trans (List.append_nil _)
      simpa using hkeeps.absorb editing (hedit index editing rfl) rfl hsame hlog
  | tell number telling hplugin hgiven =>
      have hnone : [telling.event number].filter Event.isSetUp = [] := by
        obtain ⟨plugin, news, given⟩ := telling
        cases news <;> rfl
      rw [Act.event, hnone, List.append_nil] at hsetUps
      simpa using hkeeps.quiet hsetUps (hlog.trans (List.append_nil _)) rfl rfl
  | _ =>
      have hsame := hsetUps.trans (List.append_nil _)
      simpa using hkeeps.quiet hsame (hlog.trans (List.append_nil _)) rfl rfl

theorem Moves.keeps {plugins : List (Plugin π)} {run after : Run σ π} {acts : List (Act σ π)}
    {opened : List (Opening σ)} (hmoves : Moves plugins run acts after) (hkeeps : run.Keeps opened)
    (hedits : ∀ index editing, .edit index editing ∈ acts →
      editing.link.stage < opened.length) :
    after.Keeps (opened ++ acts.flatMap Act.openings) := by
  induction hmoves with
  | refl => simpa using hkeeps
  | @snoc between after acts act hmoves hdoes ih =>
      have hbetween := ih fun index editing hediting =>
        hedits index editing (List.mem_append_left _ hediting)
      have hafter := hdoes.keeps hbetween fun index editing hediting => by
        rw [List.length_append]
        exact Nat.lt_add_right _ (hedits index editing (by simp [hediting]))
      rwa [List.append_assoc, ← List.flatMap_singleton Act.openings act,
        ← List.flatMap_append] at hafter

/-! ## What the run has at the end -/

theorem Covers.emissions {plugins : List (Plugin π)} {run after : Run σ π}
    {calls : List (Act σ π)} {looks : List Bool} (hcovers : Covers plugins run calls looks after) :
    emissions after.journal = emissions run.journal ++ calls.flatMap Act.emitted := by
  obtain ⟨acts, hmoves, rfl, rfl⟩ := hcovers
  rw [Act.flatMap_calls Act.emitted_of_not_isCall]
  induction hmoves with
  | refl => simp
  | snoc hmoves hdoes ih => simp [hdoes.emissions, ih]

theorem emissions_announce (phase : Phase) (plugins : List (Plugin π)) (run : Run σ π) :
    EditPipeline.emissions (run.announce phase 0 plugins).journal =
      EditPipeline.emissions run.journal := by
  simpa using ((Covers.refl plugins run).announce phase).emissions

namespace Keeps

variable {run : Run σ π} {opened : List (Opening σ)}

theorem map_outbox (hkeeps : run.Keeps opened) :
    run.stages.map Stage.outbox = opened.zipIdx.map fun (opening, index) =>
      ⟨opening.editor.name, ofStage opening.editor.name index (emissions run.journal)⟩ := by
  refine List.ext_getElem? fun index => ?_
  rw [List.getElem?_map, hkeeps.outboxes, List.getElem?_map, List.getElem?_zipIdx]
  cases opened[index]? <;> simp

theorem names (hkeeps : run.Keeps opened) :
    run.names = opened.map fun opening => opening.editor.name := by
  have hnames : run.names = (run.stages.map Stage.outbox).map Outbox.stage := by
    rw [List.map_map]
    rfl
  rw [hnames, hkeeps.map_outbox]
  refine List.ext_getElem? fun index => ?_
  simp only [List.getElem?_map, List.getElem?_zipIdx]
  cases opened[index]? <;> rfl

/-- **The diagnostics of a run are what was said, stage by stage.** -/
theorem diagnostics (hkeeps : run.Keeps opened) :
    run.diagnostics = grouped run.names (emissions run.journal) := by
  have hdiagnostics :
      run.diagnostics = (run.stages.map Stage.outbox).flatMap Outbox.diagnostics := by
    rw [List.flatMap_map]
    rfl
  rw [hdiagnostics, hkeeps.map_outbox, hkeeps.names, grouped, List.zipIdx_map,
    List.flatMap_map, List.flatMap_map]
  rfl

end Keeps

theorem names_stageInfos (run : Run σ π) : run.stageInfos.map StageInfo.name = run.names := by
  refine List.ext_getElem? fun index => ?_
  simp only [stageInfos, names, List.getElem?_map, List.getElem?_mapIdx]
  cases run.stages[index]? <;> rfl

end Run

/-- What a journal has from stages, as diagnostics of an outcome. -/
def toldBy (stages : List StageInfo) (journal : Journal) : List Diagnostic :=
  grouped (stages.map StageInfo.name) (emissions journal)

theorem Run.Keeps.findings {run : Run σ π} {opened : List (Opening σ)}
    (hkeeps : run.Keeps opened) :
    run.findings.diagnostics = toldBy run.findings.stages run.journal := by
  change run.diagnostics = grouped (run.stageInfos.map StageInfo.name) _
  rw [hkeeps.diagnostics, Run.names_stageInfos]

end EditPipeline
