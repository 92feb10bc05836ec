import EditPipeline.Proofs.Breaking.Union
import EditPipeline.Proofs.Validation

/-!
# What a run for debugger breaks reports

The markers of a program are validated before a run, so nothing is left that could fail: a
run over them completes, with one stage and one diagnostic for each declaration.

The stage of a declaration looks at a program that earlier stages have edited.  What it
says can be told from the program that the run got all the same: it counts every method
that is decorated with one of its types, and it names those that had no tag and are not
decorated with a type of an earlier declaration.
-/

namespace EditPipeline

variable {σ π : Type}

namespace Breaking

/-! ## The words of a stage -/

/-- What a stage says that found `matched` decorated methods and instrumented those of
these names. -/
def Says (matched : Nat) (names : List String) (diagnostic : Diagnostic) : Prop :=
  (matched = 0 → diagnostic =
    ⟨.warning, "breaking", "no methods are decorated with a tracked marker type", none⟩) ∧
  (0 < names.length → diagnostic =
    ⟨.info, "breaking", "instrumented " ++ toString names.length
      ++ " method(s) with debugger breaks: " ++ ", ".intercalate names, none⟩) ∧
  (0 < matched → names.length = 0 → diagnostic =
    ⟨.info, "breaking", toString matched ++ " method(s) already break into the debugger", none⟩)

/-- Only decorated methods are instrumented. -/
theorem length_fresh_le (earlier : List (List TypeId)) (tracked : List TypeId)
    (program : Program) : (fresh earlier tracked program).length ≤ matched tracked program := by
  unfold fresh matched
  rw [← List.countP_eq_length_filter]
  refine List.countP_mono_left fun entry _ hfresh => ?_
  simp only [Bool.and_eq_true] at hfresh
  exact hfresh.1.1

theorem says_tally (earlier : List (List TypeId)) (tracked : List TypeId) (program : Program) :
    Says (matched tracked program) ((fresh earlier tracked program).map fullName)
      (tally earlier tracked program).diagnostic := by
  have hle := length_fresh_le earlier tracked program
  unfold Says Tally.diagnostic tally
  dsimp only
  refine ⟨?_, ?_, ?_⟩
  · intro hnone
    rw [if_pos hnone]
    rfl
  · intro hsome
    rw [List.length_map] at hsome
    rw [if_neg (by omega), if_neg (by simpa [List.isEmpty_iff] using List.ne_nil_of_length_pos hsome)]
    rfl
  · intro hmatched hnone
    rw [List.length_map, List.length_eq_zero_iff] at hnone
    rw [if_neg (by omega), hnone]
    rfl

/-! ## The program -/

section Marked

variable {lists : List (List TypeId)} {program : Program} {entry : TypeId × Method}

theorem mem_methods_marked (hentry : entry ∈ (marked lists.flatten program).methods) :
    ∃ before ∈ program.methods, entry = (before.1, mark lists.flatten before.2) := by
  rw [methods_marked] at hentry
  obtain ⟨before, hbefore, rfl⟩ := List.mem_map.1 hentry
  exact ⟨before, hbefore, rfl⟩

/-- After the edits, a method is tagged if it was or if it is decorated. -/
theorem hasTag_of_mem_marked (hentry : entry ∈ (marked lists.flatten program).methods)
    (htracked : ∃ tracked ∈ lists, isTracked tracked entry.2 = true) :
    entry.2.hasTag breakTag = true := by
  obtain ⟨before, -, rfl⟩ := mem_methods_marked hentry
  obtain ⟨tracked, htypes, hdecorated⟩ := htracked
  have hany : lists.any (isTracked · before.2) = true :=
    List.any_eq_true.2 ⟨tracked, htypes, by simpa using hdecorated⟩
  simp [isTracked_flatten, hany]

/-- If the tag told the truth before the edits, it does after them. -/
theorem head?_body_of_mem_marked (hentry : entry ∈ (marked lists.flatten program).methods)
    (htrue : ∀ entry ∈ program.methods, entry.2.hasTag breakTag = true →
      entry.2.body.head? = some (.intrinsic .debuggerBreak))
    (htag : entry.2.hasTag breakTag = true) :
    entry.2.body.head? = some (.intrinsic .debuggerBreak) := by
  obtain ⟨before, hbefore, rfl⟩ := mem_methods_marked hentry
  cases hwas : before.2.hasTag breakTag with
  | true =>
      rw [mark_of_tagged hwas]
      exact htrue before hbefore hwas
  | false =>
      rw [hasTag_mark, hwas, Bool.false_or] at htag
      rw [mark_of_fresh htag hwas]
      rfl

end Marked

end Breaking

open Breaking (Says matched fresh fullName isTracked breakTag instrument)

/-! ## Main statement -/

/-- **What a run for debugger breaks reports.**  Let `tracked` be the types that the markers
of a program name.  The run completes with one stage and one diagnostic for each marker, in
order; each diagnostic is told by the program that the run got.  The program that it
completes with is that one with exactly those methods instrumented that are decorated and
had no tag, so every decorated method has the tag, and begins with a break if those that
had the tag before did. -/
theorem breaks_reported (program : Program) (markers : List (Marker σ))
    (hresolved : Host.resolve σ program = .ok markers) (memory : σ) (watch : π) :
    ∃ (tracked : List (List TypeId)) (final : Program) (diagnostics : List Diagnostic),
      List.Forall₂ BreakOn.Tracks program.markers tracked ∧
      (({} : Pipeline π).run program markers ⟨false, memory⟩ watch).outcome =
        .completed final
          ⟨(List.range program.markers.length).map fun index =>
            ⟨"breaking", ⟨index, "break-on"⟩, 1⟩, diagnostics⟩ ∧
      diagnostics.length = program.markers.length ∧
      (∀ (index : Nat) (types : List TypeId) (diagnostic : Diagnostic),
        tracked[index]? = some types → diagnostics[index]? = some diagnostic →
        Says (matched types program) ((fresh (tracked.take index) types program).map fullName)
          diagnostic) ∧
      final = program.mapMethods (fun _ method =>
        if tracked.any (isTracked · method) && !method.hasTag breakTag then instrument method
        else method) ∧
      (∀ entry ∈ final.methods, (∃ types ∈ tracked, isTracked types entry.2 = true) →
        entry.2.hasTag breakTag = true) ∧
      ((∀ entry ∈ program.methods, entry.2.hasTag breakTag = true →
          entry.2.body.head? = some (.intrinsic .debuggerBreak)) →
        ∀ entry ∈ final.methods, (∃ types ∈ tracked, isTracked types entry.2 = true) →
          entry.2.body.head? = some (.intrinsic .debuggerBreak)) := by
  obtain ⟨breaks, rfl, htracks⟩ := Host.resolve_eq_ok hresolved
  have hlength : program.markers.length = breaks.length := by
    simpa using htracks.length_eq
  refine ⟨breaks.map BreakOn.types, Breaking.marked (breaks.map BreakOn.types).flatten program,
    Breaking.reports (breaks.map BreakOn.types) program, htracks, ?_, ?_, ?_, ?_, ?_, ?_⟩
  · rw [Pipeline.run_breaks, Breaking.editAll_eq, hlength]
    rfl
  · rw [Breaking.length_reports, List.length_map, hlength]
  · intro index types diagnostic htypes hdiagnostic
    rw [Breaking.getElem?_reports, htypes, Option.map_some, Option.some.injEq] at hdiagnostic
    rw [← hdiagnostic]
    exact Breaking.says_tally _ types program
  · refine Program.mapMethods_congr fun entry _ => ?_
    rw [Breaking.mark, Breaking.isTracked_flatten]
  · intro entry hentry htracked
    exact Breaking.hasTag_of_mem_marked hentry htracked
  · intro htrue entry hentry htracked
    exact Breaking.head?_body_of_mem_marked hentry htrue
      (Breaking.hasTag_of_mem_marked hentry htracked)

/-- The service with three markers: the second one comes too late for what the first one
tracks and finds the rest tagged, the third one finds nothing. -/
def markedService : Program := { Breaking.service with
  markers := [["X"], ["Y", "X"], ["System.Attribute"]].map fun types =>
    { kind := "break-on", args := .object [("types", .array (types.map .string))] } }

theorem reported_of_overlapping :
    ∃ (markers : List (Marker Unit)) (tracked : List (List TypeId)) (final : Program)
        (diagnostics : List Diagnostic),
      Host.resolve Unit markedService = .ok markers ∧
      List.Forall₂ BreakOn.Tracks markedService.markers tracked ∧
      (({} : Pipeline Unit).run markedService markers ⟨false, ()⟩ ()).outcome =
        .completed final ⟨[⟨"breaking", ⟨0, "break-on"⟩, 1⟩, ⟨"breaking", ⟨1, "break-on"⟩, 1⟩,
          ⟨"breaking", ⟨2, "break-on"⟩, 1⟩], diagnostics⟩ ∧
      (∀ (index : Nat) (types : List TypeId) (diagnostic : Diagnostic),
        tracked[index]? = some types → diagnostics[index]? = some diagnostic →
        Says (matched types markedService)
          ((fresh (tracked.take index) types markedService).map fullName) diagnostic) ∧
      (∀ entry ∈ final.methods, (∃ types ∈ tracked, isTracked types entry.2 = true) →
        entry.2.body.head? = some (.intrinsic .debuggerBreak)) := by
  obtain ⟨markers, hresolved⟩ : ∃ markers, Host.resolve Unit markedService = .ok markers :=
    ⟨_, rfl⟩
  have htrue : ∀ entry ∈ markedService.methods, entry.2.hasTag breakTag = true →
      entry.2.body.head? = some (.intrinsic .debuggerBreak) := by decide
  obtain ⟨tracked, final, diagnostics, htracks, houtcome, -, hsays, -, -, hbreaks⟩ :=
    breaks_reported markedService markers hresolved () ()
  exact ⟨markers, tracked, final, diagnostics, hresolved, htracks, houtcome, hsays, hbreaks htrue⟩

end EditPipeline
