import EditPipeline.Proofs.Run.Looks
import EditPipeline.Proofs.Run.Transcript

/-!
# The diagnostics of an outcome

What editors say comes in two waves: all of them speak while they are initialized,
and later their edits speak in the order of the chain.  Each stage has an outbox of
its own, so the outcome does not have the diagnostics in that order.  It has the log
of the run `grouped` by stages: stage after stage in the order of initialization,
and within a stage in the order of time.

The log is what the editors and edits said that the run called, and which these are
follows from the outcome: all of them, in order, if the run completes, and otherwise
those up to the call or the look that ended it (`Extent.Reached`).  So nothing can be
lost without a call being lost, and that the calls were made is in the transcript.

The stages are told apart by their numbers, not by names, which several editors may
share.  What the editor that ends the run has said is in the log like the rest.
-/

namespace EditPipeline

variable {σ π : Type}

/-! ## The log of an extent -/

namespace Extent

/-- The names of the editors that were called. -/
def names (extent : Extent σ) : List String :=
  extent.opened.map fun opening => opening.editor.name

/-- The initializations and then the calls of edits, as the journal notes them. -/
def steps (extent : Extent σ) : Journal :=
  Opening.events extent.opened ++ Editing.events extent.edited

/-- What the initializations said and then the edits, with the numbers of their stages. -/
def log (extent : Extent σ) : List (Nat × Diagnostic) :=
  extent.opened.zipIdx.flatMap (fun (opening, index) => opening.setup.emitted.map (index, ·)) ++
    extent.edited.flatMap fun editing => editing.reply.emitted.map (editing.link.stage, ·)

theorem steps_eq (extent : Extent σ) :
    ((extent.calls : List (Act σ π)).map Act.event).filter Event.isStep = extent.steps := by
  have hasked : ((Act.asks 0 extent.asked : List (Act σ π)).map Act.event).filter
      Event.isStep = [] := by
    rw [Act.asks, List.map_map]
    exact List.filter_eq_nil_iff.2 (List.forall_mem_map.2 fun _ _ => Bool.false_ne_true)
  have hopened : ((Act.setUps 0 extent.opened : List (Act σ π)).map Act.event).filter
      Event.isStep = Opening.events extent.opened := by
    rw [Act.setUps, List.map_map]
    exact List.filter_eq_self.2 (List.forall_mem_map.2 fun _ _ => rfl)
  have hedited : ((Act.edits 0 extent.edited : List (Act σ π)).map Act.event).filter
      Event.isStep = Editing.events extent.edited := by
    rw [Act.edits, List.map_map]
    exact List.filter_eq_self.2 (List.forall_mem_map.2 fun _ _ => rfl)
  rw [calls, List.map_append, List.map_append, List.filter_append, List.filter_append, hasked,
    hopened, hedited, List.nil_append, steps]

theorem log_eq (extent : Extent σ) :
    (extent.calls : List (Act σ π)).flatMap Act.emitted = extent.log := by
  have hasked : (Act.asks 0 extent.asked : List (Act σ π)).flatMap Act.emitted = [] :=
    List.flatMap_eq_nil_iff.2 (List.forall_mem_map.2 fun _ _ => rfl)
  have hopened : (Act.setUps 0 extent.opened : List (Act σ π)).flatMap Act.emitted =
      extent.opened.zipIdx.flatMap fun (opening, index) =>
        opening.setup.emitted.map (index, ·) := List.flatMap_map ..
  have hedited : (Act.edits 0 extent.edited : List (Act σ π)).flatMap Act.emitted =
      extent.edited.flatMap fun editing =>
        editing.reply.emitted.map (editing.link.stage, ·) := by
    rw [Act.edits, List.flatMap_map]
    conv_rhs => rw [← List.zipIdx_map_fst 0 extent.edited, List.flatMap_map]
    rfl
  rw [calls, List.flatMap_append, List.flatMap_append, hasked, hopened, hedited, List.nil_append,
    log]

/-- The diagnostics are what was said by the end, stage by stage. -/
structure GroupedByStage (program : Program) (extent : Extent σ) (journal : Journal)
    (diagnostics : List Diagnostic) : Prop where
  /-- Every editor was called with the program of the run. -/
  programs : ∀ opening ∈ extent.opened, opening.program = program
  /-- The journal has the calls of the extent and no others. -/
  steps : journal.filter Event.isStep = extent.steps
  /-- Its log is what these calls said. -/
  log : emissions journal = extent.log
  /-- No stage is unknown, so grouping only changes the order. -/
  known : ∀ entry ∈ extent.log, entry.1 < extent.names.length
  /-- The outcome has the log of one stage after that of the other. -/
  byStage : diagnostics = grouped extent.names extent.log
  /-- So it has all of the log, each entry under the name of the editor that spoke. -/
  perm : diagnostics.Perm (extent.log.map fun entry =>
    { entry.2 with stage := extent.names.getD entry.1 "" })

end Extent

/-- A run that covers an extent has its log, and an outcome has the log by stages. -/
theorem Pipeline.groupedByStage {α : Type} (pipeline : Pipeline π) {program : Program}
    {shared : Shared σ} {watch : π} {stopAt : Option Nat} {ended : Ended σ π α}
    {extent : Extent σ} {looks : List Bool} {after : Run σ π} {findings : Findings}
    (hprograms : ∀ opening ∈ extent.opened, opening.program = program)
    (hcovers : (pipeline.start shared watch stopAt).poll.Covers pipeline.plugins extent.calls looks
      after)
    (hkeeps : after.Keeps extent.opened) (hleaves : after.Leaves ended findings) :
    extent.GroupedByStage program ended.journal findings.diagnostics := by
  have hcovers := pipeline.covers_of_poll hcovers
  have hsteps : ended.journal.filter Event.isStep = extent.steps := by
    have hcall (event : Event) (hstep : event.isStep = true) : event.isCall = true := by
      cases event <;> simp_all
    rw [hleaves.journal, hcovers.filter_journal hcall, extent.steps_eq]
    rfl
  have hlog : emissions after.journal = extent.log := by
    rw [hcovers.emissions, extent.log_eq]
    rfl
  have hknown : ∀ entry ∈ extent.log, entry.1 < extent.names.length := by
    rw [← hlog, Extent.names, List.length_map]
    exact hkeeps.known
  have hgrouped : findings.diagnostics = grouped extent.names extent.log := by
    have hnames : after.names = extent.names := hkeeps.names
    rw [hleaves.findings, ← hnames, ← hlog]
    exact hkeeps.diagnostics
  exact ⟨hprograms, hsteps, hleaves.journal ▸ hlog, hknown, hgrouped,
    hgrouped ▸ grouped_perm hknown⟩

/-! ## Main statement -/

/-- **An outcome has what was said, stage by stage.**  Whatever an editor does with
its outbox adds diagnostics at the end, under the name of the editor; and whether a
run completes, aborts or only collects, its diagnostics are its log grouped by the
stages that spoke.  The log is that of all calls that such an outcome takes. -/
theorem diagnostics_by_stage (pipeline : Pipeline π) (program : Program)
    (markers : List (Marker σ)) (shared : Shared σ) (watch : π) (stopAt : Option Nat) :
    let ran := pipeline.run program markers shared watch stopAt
    let looked := pipeline.collect program markers shared watch stopAt
    (∀ (outbox : Outbox) (remarks : List Remark),
      remarks.foldl Outbox.accept outbox =
          outbox.pushAll (remarks.map (·.diagnostic outbox.stage)) ∧
        remarks.foldl Outbox.accept outbox =
          { outbox with diagnostics := outbox.diagnostics ++ remarks.map fun remark =>
            { remark.diagnostic outbox.stage with stage := outbox.stage } }) ∧
    (∃ (extent : Extent σ) (acts : List (Act σ π)),
      extent.Reached pipeline.plugins program markers ran.outcome.result ∧
      ran.Transcript pipeline.plugins shared watch stopAt extent acts ∧
      extent.GroupedByStage program ran.journal ran.outcome.findings.diagnostics) ∧
    ∃ (extent : Extent σ) (acts : List (Act σ π)),
      extent.Collected markers looked.outcome.1 ∧
      looked.Transcript pipeline.plugins shared watch stopAt extent acts ∧
      extent.GroupedByStage program looked.journal looked.outcome.2.diagnostics := by
  refine ⟨fun outbox remarks => ⟨outbox.foldl_accept remarks, ?_⟩, ?_, ?_⟩
  · rw [Outbox.foldl_accept, Outbox.pushAll_eq, List.map_map]
    rfl
  · obtain ⟨extent, looks, after, hreached, hprograms, hlooks, hcovers, hkeeps, hleaves⟩ :=
      (pipeline.ends program markers shared watch stopAt).covers
        (pipeline.keeps_start shared watch stopAt)
    obtain ⟨acts, htranscript⟩ :=
      pipeline.transcript_of_covers shared watch stopAt hlooks hcovers hleaves
    exact ⟨extent, acts, hreached, htranscript,
      pipeline.groupedByStage hprograms hcovers hkeeps hleaves⟩
  · obtain ⟨extent, looks, after, hcollected, hprograms, -, hlooks, hcovers, hkeeps, hleaves⟩ :=
      pipeline.covers_collect program markers shared watch stopAt
    obtain ⟨acts, htranscript⟩ :=
      pipeline.transcript_of_covers shared watch stopAt hlooks hcovers hleaves
    exact ⟨extent, acts, hcollected, htranscript,
      pipeline.groupedByStage hprograms hcovers hkeeps hleaves⟩

/-- Two editors of one name stay apart, and a name that a diagnostic came with is lost. -/
example :
    grouped ["a", "a"] [(0, ⟨.info, "a", "first", none⟩), (1, ⟨.error, "b", "second", none⟩),
        (0, ⟨.warning, "a", "third", some "M"⟩)] =
      [⟨.info, "a", "first", none⟩, ⟨.warning, "a", "third", some "M"⟩,
        ⟨.error, "a", "second", none⟩] := by
  decide

end EditPipeline
