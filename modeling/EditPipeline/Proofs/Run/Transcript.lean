import EditPipeline.Proofs.Run.Requests

/-!
# Transcripts

A journal is what a run writes about itself.  A `Transcript` is what stands behind it: the acts
of the run, each with the code that was called and with what it was given.  The journal has what
these acts should leave in it and nothing else, each act finds cancellation requested exactly if
it was by then, and the memory of the code that is called, like that of the plugins, goes from
call to call until the run has ended.

So an entry of the journal is no mere claim of the run, and neither is an entry that is missing.
-/

namespace EditPipeline

variable {σ π : Type}

/-- The acts of a run that has ended, watched by `plugins`.  It began with what it shares, with
the memory of the plugins, and with someone outside to request cancellation after `stopAt`
events. -/
structure Ended.Transcript {α : Type} (ended : Ended σ π α) (plugins : List (Plugin π))
    (shared : Shared σ) (watch : π) (stopAt : Option Nat) (extent : Extent σ)
    (acts : List (Act σ π)) : Prop where
  /-- The journal has what it should have of the acts. -/
  journal : ended.journal = acts.flatMap Act.notes
  /-- Plugins apart, the acts call what the extent has. -/
  calls : acts.filter Act.isCall = extent.calls
  /-- They look for cancellation as often as the extent has it, and see the same. -/
  looks : acts.flatMap Act.looks = extent.looks
  /-- A plugin is called under its number. -/
  plugins : ∀ number telling, .tell number telling ∈ acts →
    plugins[number]? = some telling.plugin
  /-- An act knows of a request for cancellation exactly if there has been one before it. -/
  knows : ∀ before act after, acts = before ++ act :: after →
    (act.knows = true ↔ Requested shared.cancelled stopAt (before.flatMap Act.notes))
  /-- The memory goes from call to call, until the run has ended. -/
  memory : Relay shared.memory (acts.flatMap Act.memories) ended.shared.memory
  /-- The memory of the plugins goes from plugin to plugin. -/
  watch : Relay watch (acts.flatMap Act.watches) ended.watch

/-- What the journal has of the run itself is what the acts are. -/
theorem Ended.Transcript.filter_journal {α : Type} {ended : Ended σ π α}
    {plugins : List (Plugin π)} {shared : Shared σ} {watch : π} {stopAt : Option Nat}
    {extent : Extent σ} {acts : List (Act σ π)}
    (htranscript : ended.Transcript plugins shared watch stopAt extent acts)
    {keep : Event → Bool} (hkeep : ∀ event, keep event = true → event.isAct = true) :
    ended.journal.filter keep = (acts.map Act.event).filter keep := by
  rw [htranscript.journal, Act.filter_notes hkeep]

namespace Pipeline

variable (pipeline : Pipeline π) (program : Program) (markers : List (Marker σ))
  (shared : Shared σ) (watch : π) (stopAt : Option Nat)

/-- A run that ends has a transcript. -/
theorem transcript_of_covers {α : Type} {ended : Ended σ π α} {extent : Extent σ}
    {looks : List Bool} {after : Run σ π} {findings : Findings}
    (hlooks : extent.looks = (pipeline.start shared watch stopAt).cancelled :: looks)
    (hcovers : (pipeline.start shared watch stopAt).poll.Covers pipeline.plugins extent.calls looks
      after)
    (hleaves : after.Leaves ended findings) :
    ∃ acts : List (Act σ π),
      ended.Transcript pipeline.plugins shared watch stopAt extent acts := by
  obtain ⟨acts, hmoves, hcalls, hseen⟩ := pipeline.covers_of_poll hcovers
  refine ⟨acts, ?_, hcalls, hseen.trans hlooks.symm, fun number telling => hmoves.plugin_eq, ?_,
    ?_, ?_⟩
  · rw [hleaves.journal, hmoves.journal]
    rfl
  · intro before act rest hacts
    obtain ⟨between, next, hbefore, hdoes⟩ := hmoves.part hacts
    have hjournal : between.journal = before.flatMap Act.notes := by
      rw [hbefore.journal]
      rfl
    rw [hdoes.knows, ← hjournal]
    exact (hbefore.aware (Run.aware_fresh shared watch stopAt)).knows
  · rw [hleaves.shared]
    exact hmoves.memory
  · rw [hleaves.watch]
    exact hmoves.watch

/-- **Every run has a transcript**, and the extent that goes with its outcome. -/
theorem transcript_run :
    ∃ (extent : Extent σ) (acts : List (Act σ π)),
      extent.Reached pipeline.plugins program markers
        (pipeline.run program markers shared watch stopAt).outcome.result ∧
      (pipeline.run program markers shared watch stopAt).Transcript pipeline.plugins shared watch
        stopAt extent acts := by
  obtain ⟨extent, looks, after, hreached, -, hlooks, hcovers, -, hleaves⟩ :=
    (pipeline.ends program markers shared watch stopAt).covers
      (pipeline.keeps_start shared watch stopAt)
  obtain ⟨acts, htranscript⟩ :=
    pipeline.transcript_of_covers shared watch stopAt hlooks hcovers hleaves
  exact ⟨extent, acts, hreached, htranscript⟩

/-- And so has collecting alone. -/
theorem transcript_collect :
    ∃ (extent : Extent σ) (acts : List (Act σ π)),
      extent.Collected markers (pipeline.collect program markers shared watch stopAt).outcome.1 ∧
      (pipeline.collect program markers shared watch stopAt).Transcript pipeline.plugins shared
        watch stopAt extent acts := by
  obtain ⟨extent, looks, after, hcollected, -, -, hlooks, hcovers, -, hleaves⟩ :=
    pipeline.covers_collect program markers shared watch stopAt
  obtain ⟨acts, htranscript⟩ :=
    pipeline.transcript_of_covers shared watch stopAt hlooks hcovers hleaves
  exact ⟨extent, acts, hcollected, htranscript⟩

end Pipeline

end EditPipeline
