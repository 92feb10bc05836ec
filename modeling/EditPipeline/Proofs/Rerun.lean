import EditPipeline.Proofs.Breaking.Report
import EditPipeline.Proofs.Files.Written
import EditPipeline.Proofs.Observation
import EditPipeline.Proofs.Program.RoundTrip

/-!
# Running again over what a run gave

A run for debugger breaks leaves nothing for a second one.  Three facts come together here.

* The edits change methods only, so the markers of the edited program are resolved as those
  of the program were (`Host.resolve_mapMethods`).
* Every decorated method of the edited program has its tag, so every edit leaves it as it is,
  and every stage that has seen a decorated method says that there was nothing to do
  (`Breaking.getElem?_reports_again`).
* The tags are part of the format: a program that is written comes back with them
  (`Host.loadProgram_of_writeProgram`).

Plugins play no part in this as long as they let a run take its course.
-/

namespace EditPipeline

variable {σ π : Type}

/-! ## Plugins that let a run take its course -/

/-- The plugin never requests cancellation, and none of its hooks fails. -/
structure Plugin.LetsRun (plugin : Plugin π) : Prop where
  never : plugin.NeverCancels
  beforeEdit : ∀ info program shared, (plugin.beforeEdit info program shared).1 = .ok ()
  afterEdit : ∀ info program shared, (plugin.afterEdit info program shared).1 = .ok ()

namespace Pipeline

variable {pipeline : Pipeline π}

/-- With such plugins a run ends as it does without any. -/
theorem outcome_of_letsRun (hlets : ∀ plugin ∈ pipeline.plugins, plugin.LetsRun)
    (program : Program) (markers : List (Marker σ)) (shared : Shared σ) (watch : π) :
    (pipeline.run program markers shared watch).outcome =
      (({} : Pipeline Unit).run program markers shared ()).outcome := by
  have hobserved := Pipeline.observed (fun plugin hplugin => (hlets plugin hplugin).never) program
    markers shared watch
  cases hobserved with
  | whole hfailed houtcome hjournal => exact houtcome
  | @cutBefore number plugin watching left info program failure given late hplugin hfails =>
      have hsucceeds := (hlets plugin (List.mem_of_getElem? hplugin)).beforeEdit info program watching
      rw [hfails] at hsucceeds
      cases hsucceeds
  | @cutAfter number plugin watching left info program next failure early said late hplugin hfails =>
      have hsucceeds := (hlets plugin (List.mem_of_getElem? hplugin)).afterEdit info next watching
      rw [hfails] at hsucceeds
      cases hsucceeds

end Pipeline

/-! ## What the stages of a second run say -/

namespace Breaking

/-- What a stage says that has seen no decorated method. -/
def unmatched : Diagnostic :=
  ⟨.warning, "breaking", "no methods are decorated with a tracked marker type", none⟩

/-- What a stage says that has seen this many decorated methods, all instrumented. -/
def settled (matched : Nat) : Diagnostic :=
  ⟨.info, "breaking", toString matched ++ " method(s) already break into the debugger", none⟩

/-- How the words of a stage that has seen `matched` decorated methods go with those of the
same stage in a second run. -/
structure Settles (matched : Nat) (said again : Diagnostic) : Prop where
  unmatched_iff : again = unmatched ↔ said = unmatched
  settles : said ≠ unmatched → again = settled matched

theorem diagnostic_eq_unmatched_iff (tally : Tally) :
    tally.diagnostic = unmatched ↔ tally.matched = 0 := by
  unfold Tally.diagnostic
  split
  · rename_i hnone
    exact iff_of_true rfl hnone
  · rename_i hsome
    split
    · exact iff_of_false nofun hsome
    · exact iff_of_false nofun hsome

theorem settles_tally (tally : Tally) :
    Settles tally.matched tally.diagnostic (Tally.mk tally.matched []).diagnostic where
  unmatched_iff := by rw [diagnostic_eq_unmatched_iff, diagnostic_eq_unmatched_iff]
  settles hsaid := by
    rw [Ne, diagnostic_eq_unmatched_iff] at hsaid
    exact if_neg hsaid

/-- Once all edits are made, nothing is left for any of them. -/
theorem fresh_marked {lists : List (List TypeId)} {tracked : List TypeId} (hlisted : tracked ∈ lists)
    (earlier : List (List TypeId)) (program : Program) :
    fresh earlier tracked (marked lists.flatten program) = [] := by
  refine List.filter_eq_nil_iff.2 fun entry hentry hfresh => ?_
  simp only [Bool.and_eq_true, Bool.not_eq_true'] at hfresh
  have htag := hasTag_of_mem_marked hentry ⟨tracked, hlisted, hfresh.1.1⟩
  rw [hfresh.1.2] at htag
  cases htag

/-- A stage of the second run counts what it counted in the first one, and finds nothing to
instrument. -/
theorem getElem?_reports_again (lists : List (List TypeId)) (program : Program) (index : Nat) :
    (reports lists (marked lists.flatten program))[index]? =
      lists[index]?.map fun tracked => (Tally.mk (matched tracked program) []).diagnostic := by
  rw [getElem?_reports]
  cases htracked : lists[index]? with
  | none => rfl
  | some tracked =>
      have hlisted : tracked ∈ lists := List.mem_of_getElem? htracked
      rw [Option.map_some, Option.map_some, tally, matched_marked, fresh_marked hlisted]
      rfl

/-- The edited program is the one that the edits leave as it is. -/
theorem marked_again (tracked : List TypeId) (program : Program) :
    marked tracked (marked tracked program) = marked tracked program := by
  rw [marked_marked]
  exact congrFun (marked_congr fun type => by simp) program

end Breaking

/-! ## The written program -/

namespace Host

variable {program : Program} {path : Path} {files after : FileSystem}

theorem read_of_writeProgram (hwritten : writeProgram path program files = (.ok (), after)) :
    after.read path = .ok program.toJson.prettyText := by
  unfold writeProgram at hwritten
  split at hwritten
  · cases hwritten
  · split at hwritten
    · cases hwritten
    · rename_i hwrite
      cases hwritten
      exact FileSystem.read_of_write hwrite

/-- A program is loaded from a file that holds its text. -/
theorem loadProgram_of_read
    (hargs : ∀ marker ∈ program.markers,
      marker.args.Canonical ∧ marker.args.FloatFree ∧ marker.args.depth ≤ 124)
    (hread : after.read path = .ok program.toJson.prettyText) :
    loadProgram path after = .ok program := by
  have hback : Program.ofText program.toJson.prettyText = .ok program :=
    (Program.ofText_written (fun marker hmarker =>
        ⟨(hargs marker hmarker).1, (hargs marker hmarker).2.2⟩)
      fun marker hmarker => (hargs marker hmarker).2.1).2
  unfold loadProgram
  rw [hread]
  show (Program.ofText program.toJson.prettyText).mapError _ = _
  rw [hback]
  rfl

end Host

/-! ## Main statement -/

open Breaking (Settles matched)

/-- **A run leaves nothing for a second one.**  Let `next` be the program that a run
completes with whose markers name the types `tracked`.  Its markers are resolved as they
were, and a run over it completes with `next` itself.  A stage of that run warns that no
method is decorated exactly if it did in the first run, and says otherwise that all
decorated methods are instrumented already.  Since `next` is what is loaded after it was
written, this holds of the loaded program too. -/
theorem output_is_fixed (program : Program) (markers : List (Marker σ))
    (hresolved : Host.resolve σ program = .ok markers) :
    ∃ (tracked : List (List TypeId)) (next : Program) (stages : List StageInfo)
        (said again : List Diagnostic),
      List.Forall₂ BreakOn.Tracks program.markers tracked ∧
      -- the first run
      (∀ (pipeline : Pipeline π) (memory : σ) (watch : π),
        (∀ plugin ∈ pipeline.plugins, plugin.LetsRun) →
        (pipeline.run program markers ⟨false, memory⟩ watch).outcome =
          .completed next ⟨stages, said⟩) ∧
      -- the second run
      Host.resolve σ next = .ok markers ∧ List.Forall₂ BreakOn.Tracks next.markers tracked ∧
      (∀ (pipeline : Pipeline π) (memory : σ) (watch : π),
        (∀ plugin ∈ pipeline.plugins, plugin.LetsRun) →
        (pipeline.run next markers ⟨false, memory⟩ watch).outcome =
          .completed next ⟨stages, again⟩) ∧
      said.length = program.markers.length ∧ again.length = program.markers.length ∧
      (∀ (index : Nat) (types : List TypeId) (first second : Diagnostic),
        tracked[index]? = some types → said[index]? = some first → again[index]? = some second →
        Settles (matched types program) first second) ∧
      -- the program in between, written and loaded
      ((∀ marker ∈ program.markers,
          marker.args.Canonical ∧ marker.args.FloatFree ∧ marker.args.depth ≤ 124) →
        ∀ (path : Path) (files after : FileSystem),
          Host.writeProgram path next files = (.ok (), after) →
          Host.loadProgram path after = .ok next) := by
  obtain ⟨breaks, rfl, htracks⟩ := Host.resolve_eq_ok hresolved
  let tracked : List (List TypeId) := breaks.map BreakOn.types
  let next : Program := Breaking.marked tracked.flatten program
  have hlength : program.markers.length = tracked.length := htracks.length_eq
  have hruns : ∀ (before : Program) (pipeline : Pipeline π) (memory : σ) (watch : π),
      (∀ plugin ∈ pipeline.plugins, plugin.LetsRun) →
      (pipeline.run before (breaks.map BreakOn.toMarker) ⟨false, memory⟩ watch).outcome =
        .completed (Breaking.marked tracked.flatten before)
          ⟨(List.range breaks.length).map fun index =>
              ⟨Breaking.editorName, ⟨index, BreakOn.kind⟩, 1⟩,
            Breaking.reports tracked before⟩ := by
    intro before pipeline memory watch hlets
    rw [Pipeline.outcome_of_letsRun hlets, Pipeline.run_breaks, Breaking.editAll_eq]
  refine ⟨tracked, next, _, Breaking.reports tracked program, Breaking.reports tracked next,
    htracks, hruns program, ?_, htracks, ?_, ?_, ?_, ?_, ?_⟩
  · rw [← hresolved]
    exact Host.resolve_mapMethods _ program
  · intro pipeline memory watch hlets
    have hagain := hruns next pipeline memory watch hlets
    rwa [show Breaking.marked tracked.flatten next = next from
      Breaking.marked_again tracked.flatten program] at hagain
  · rw [Breaking.length_reports, hlength]
  · rw [Breaking.length_reports, hlength]
  · intro index types first second htypes hfirst hsecond
    rw [Breaking.getElem?_reports, htypes, Option.map_some, Option.some.injEq] at hfirst
    rw [Breaking.getElem?_reports_again, htypes, Option.map_some, Option.some.injEq] at hsecond
    rw [← hfirst, ← hsecond]
    exact Breaking.settles_tally (Breaking.tally (tracked.take index) types program)
  · intro hargs path files after hwritten
    exact Host.loadProgram_of_read hargs (Host.read_of_writeProgram hwritten)

/-- A pipeline whose runs are recorded. -/
def recorded : Pipeline Gallery := { plugins := [Gallery.recorder none] }

theorem fixed_of_overlapping :
    ∃ (markers : List (Marker Unit)) (tracked : List (List TypeId)) (next : Program)
        (stages : List StageInfo) (said again : List Diagnostic) (after : FileSystem),
      Host.resolve Unit markedService = .ok markers ∧
      List.Forall₂ BreakOn.Tracks markedService.markers tracked ∧
      (∀ plugin ∈ recorded.plugins, plugin.LetsRun) ∧
      (recorded.run markedService markers ⟨false, ()⟩ {}).outcome =
        .completed next ⟨stages, said⟩ ∧
      (recorded.run next markers ⟨false, ()⟩ {}).outcome = .completed next ⟨stages, again⟩ ∧
      (∀ (index : Nat) (types : List TypeId) (first second : Diagnostic),
        tracked[index]? = some types → said[index]? = some first → again[index]? = some second →
        Settles (matched types markedService) first second) ∧
      (∀ marker ∈ markedService.markers,
        marker.args.Canonical ∧ marker.args.FloatFree ∧ marker.args.depth ≤ 124) ∧
      Host.writeProgram ⟨"/next.json"⟩ next {} = (.ok (), after) ∧
      Host.loadProgram ⟨"/next.json"⟩ after = .ok next := by
  obtain ⟨markers, hresolved⟩ : ∃ markers, Host.resolve Unit markedService = .ok markers :=
    ⟨_, rfl⟩
  have hlets : ∀ plugin ∈ recorded.plugins, plugin.LetsRun :=
    List.forall_mem_singleton.2
      ⟨Gallery.recorder_neverCancels none, fun _ _ _ => rfl, fun _ _ _ => rfl⟩
  have hargs : ∀ marker ∈ markedService.markers,
      marker.args.Canonical ∧ marker.args.FloatFree ∧ marker.args.depth ≤ 124 := by
    simp [markedService, Json.Canonical, Json.CanonicalItems, Json.CanonicalMembers,
      Json.FloatFree, Json.FloatFreeItems, Json.FloatFreeMembers, Json.depth, Json.depthItems,
      Json.depthMembers]
  obtain ⟨tracked, next, stages, said, again, htracks, hfirst, -, -, hsecond, -, -, hsettles,
    hloaded⟩ := output_is_fixed markedService markers hresolved
  -- whatever is written to it, the file can be made
  obtain ⟨after, hwritten⟩ :
      ∃ after, Host.writeProgram ⟨"/next.json"⟩ next {} = (.ok (), after) := ⟨_, rfl⟩
  exact ⟨markers, tracked, next, stages, said, again, after, hresolved, htracks, hlets,
    hfirst recorded () {} hlets, hsecond recorded () {} hlets, hsettles, hargs, hwritten,
    hloaded hargs _ _ _ hwritten⟩

end EditPipeline
