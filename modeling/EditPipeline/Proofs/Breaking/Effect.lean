import EditPipeline.Proofs.Breaking.Report

/-!
# What one edit does and says

An edit for debugger breaks touches the methods that are decorated with a tracked type and
have no tag yet, and nothing else in the program.  What it says is about what it really did:
`changed` compares the two programs method by method, and the report names exactly the methods
that come out, in the order of their declaration.

The three forms of the report exclude each other, so each of them tells which case it was: the
warning is the only one that is no note, and of the two notes one begins with a number.
-/

namespace EditPipeline.Breaking

/-! ## What is different -/

/-- The methods of a program that are different in the next one. -/
def changed (before after : Program) : List (TypeId × Method) :=
  ((before.methods.zip after.methods).filter fun (old, new) => new.2 ≠ old.2).map Prod.fst

theorem changed_marked (tracked : List TypeId) (program : Program) :
    changed program (marked tracked program) = pending tracked program := by
  unfold changed pending
  rw [methods_marked, ← List.map_prod_left_eq_zip, List.filter_map, List.map_map]
  refine (List.map_id _).trans (List.filter_congr fun entry _ => ?_)
  rw [Bool.eq_iff_iff]
  simp [mark_ne_iff]

/-! ## The report -/

/-- What an editor called `stage` says that has seen `matched` decorated methods and has
instrumented those of these names. -/
structure Reports (stage : String) (matched : Nat) (names : List String)
    (said : Diagnostic) : Prop where
  warns_iff : said =
      ⟨.warning, stage, "no methods are decorated with a tracked marker type", none⟩ ↔ matched = 0
  lists_iff : said =
      ⟨.info, stage, "instrumented " ++ toString names.length
        ++ " method(s) with debugger breaks: " ++ ", ".intercalate names, none⟩ ↔ 0 < names.length
  settles_iff : said =
      ⟨.info, stage, toString matched ++ " method(s) already break into the debugger", none⟩ ↔
    0 < matched ∧ names.length = 0
  isWarning_iff : said.isWarning = true ↔ matched = 0

/-- The two notes begin differently: one with a number, the other one with a letter. -/
theorem settled_ne_listed (number : Nat) (settled listed : String) :
    toString number ++ settled ≠ "instrumented " ++ listed := by
  intro hsame
  obtain ⟨c, digits, htext⟩ : ∃ c digits, Nat.toDigits 10 number = c :: digits :=
    List.exists_cons_of_ne_nil Nat.toDigits_ne_nil
  have hdigit : c.isDigit = true :=
    Nat.isDigit_of_mem_toDigits (by decide) (by decide) (htext ▸ List.mem_cons_self)
  have hchars : c :: digits ++ settled.toList = "instrumented ".toList ++ listed.toList := by
    rw [← htext, ← Nat.toList_repr, ← String.toList_append, ← String.toList_append]
    exact congrArg String.toList hsame
  obtain ⟨rfl, -⟩ := List.cons.inj hchars
  revert hdigit
  decide

theorem reports_diagnostic {tally : Tally} (hle : tally.instrumented.length ≤ tally.matched)
    (stage : String) :
    Reports stage tally.matched tally.instrumented { tally.diagnostic with stage } := by
  unfold Tally.diagnostic
  split
  · rename_i hnone
    refine ⟨iff_of_true rfl hnone, iff_of_false nofun (by omega), iff_of_false nofun (by omega),
      iff_of_true rfl hnone⟩
  · rename_i hsome
    split
    · rename_i hempty
      have hlength : tally.instrumented.length = 0 := by simpa using hempty
      refine ⟨iff_of_false nofun hsome, iff_of_false (fun hsame => ?_) (by omega),
        iff_of_true rfl (by omega), iff_of_false nofun hsome⟩
      have hmessage := congrArg Diagnostic.message hsame
      simp only [String.append_assoc] at hmessage
      exact settled_ne_listed _ _ _ hmessage
    · rename_i hlisted
      have hlength : 0 < tally.instrumented.length :=
        List.length_pos_iff.2 (by simpa using hlisted)
      refine ⟨iff_of_false nofun hsome, iff_of_true rfl hlength,
        iff_of_false (fun hsame => ?_) (by omega), iff_of_false nofun hsome⟩
      have hmessage := congrArg Diagnostic.message hsame
      simp only [String.append_assoc] at hmessage
      exact settled_ne_listed _ _ _ hmessage.symm

theorem length_pending_le (tracked : List TypeId) (program : Program) :
    (pending tracked program).length ≤ matched tracked program := by
  have hfresh : fresh [] tracked program = pending tracked program := by simp [fresh, pending]
  exact hfresh ▸ length_fresh_le [] tracked program

/-! ## Main statement -/

/-- **What one edit does and says.**  The edit never fails and leaves what it shares alone.
The next program has the name and the markers of the old one, and its declarations and methods
stand where they stood; a method is different if and only if it is decorated with a tracked
type and has no tag, and then it is the old one with a break in front and the tag.  One
diagnostic goes to the outbox; it is about the decorated methods and about those that are
different. -/
theorem edit_effect {σ : Type} (tracked : List TypeId) (program : Program) (outbox : Outbox)
    (shared : Shared σ) :
    ∃ (next : Program) (emitted : List Diagnostic) (said : Diagnostic),
      asEdit tracked program outbox shared = ⟨.ok next, emitted, shared⟩ ∧
      next.name = program.name ∧
      next.markers = program.markers ∧
      List.Forall₂ (TouchesDecl tracked) program.types.toList next.types.toList ∧
      outbox.pushAll emitted = { outbox with diagnostics := outbox.diagnostics ++ [said] } ∧
      Reports outbox.stage (matched tracked program) ((changed program next).map fullName) said := by
  let tally : Tally := ⟨matched tracked program, (pending tracked program).map fullName⟩
  have hle : tally.instrumented.length ≤ tally.matched := by
    show ((pending tracked program).map fullName).length ≤ _
    rw [List.length_map]
    exact length_pending_le tracked program
  refine ⟨marked tracked program, [tally.diagnostic], outbox.stamp tally.diagnostic, ?_, rfl, rfl,
    forall₂_touchesDecl tracked program, rfl, ?_⟩
  · rw [asEdit, edit_eq]
  · rw [changed_marked]
    exact reports_diagnostic hle outbox.stage

end EditPipeline.Breaking
