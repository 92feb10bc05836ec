import EditPipeline.Program.Decode
import EditPipeline.Proofs.Json.Records
import EditPipeline.Proofs.Success

/-!
# The types that a text lists

A program that is read from a text has the table of the declarations that its tree lists
(`Program.types_of_read`, `Program.types_of_ofText`).  `Program.Lists` says which these are, from the tree alone: those of
the member `types`, or those in the third place of an array.

An object may have its members in any order, and a draft is filled member by member.  A second
member of the name would be refused, so the types of the last draft come from the one that there
is (`GivesTypes`).  An array fills the fields in their order (`types_of_fillItems`).
-/

namespace EditPipeline

open Json (Tree Record)

namespace Program

/-- The declarations that the tree of a program lists.  They stand in its member `types`, or in
the third place if the program is written as an array; without that part there are none. -/
def Lists : Tree → List TypeDecl → Prop
  | .object members _, decls =>
      (∀ member ∈ members, member.1.value = .ok "types" →
        member.2.toList TypeDecl.record.read = .ok decls) ∧
      ((∀ member ∈ members, member.1.value ≠ .ok "types") → decls = [])
  | .array items _, decls =>
      (∀ item ∈ items[2]?, item.toList TypeDecl.record.read = .ok decls) ∧
      (items.length ≤ 2 → decls = [])
  | _, _ => False

variable {members : List (Json.Lexeme String × Tree)} {member : Json.Lexeme String × Tree}
  {draft mid next : Draft}

/-- The members lead from one draft to the next: the types come from the one member of that
name, if there is one. -/
structure GivesTypes (members : List (Json.Lexeme String × Tree)) (draft next : Draft) : Prop where
  named : ∀ member ∈ members, member.1.value = .ok "types" → draft.types = none ∧
    ∃ decls, next.types = some decls ∧ member.2.toList TypeDecl.record.read = .ok decls
  unnamed : (∀ member ∈ members, member.1.value ≠ .ok "types") → next.types = draft.types

/-- A member of another name leaves the types of the draft alone. -/
theorem GivesTypes.skip (hgives : GivesTypes members mid next) (hmid : mid.types = draft.types)
    (hname : member.1.value ≠ .ok "types") : GivesTypes (member :: members) draft next where
  named := by
    refine List.forall_mem_cons.2 ⟨fun hsame => absurd hsame hname, ?_⟩
    rw [← hmid]
    exact hgives.named
  unnamed hnone := (hgives.unnamed (List.forall_mem_cons.1 hnone).2).trans hmid

/-- After the member of that name no other one follows. -/
theorem GivesTypes.take {decls : List TypeDecl} (hgives : GivesTypes members mid next)
    (hdraft : draft.types = none) (hmid : mid.types = some decls)
    (hname : member.1.value = .ok "types")
    (hread : member.2.toList TypeDecl.record.read = .ok decls) :
    GivesTypes (member :: members) draft next := by
  have hnone : ∀ member ∈ members, member.1.value ≠ .ok "types" := by
    intro member hmember hsame
    have hempty := (hgives.named member hmember hsame).1
    rw [hmid] at hempty
    cases hempty
  refine ⟨List.forall_mem_cons.2 ⟨fun _ => ⟨hdraft, decls, ?_, hread⟩, ?_⟩, fun hall => ?_⟩
  · rw [hgives.unnamed hnone, hmid]
  · exact fun member hmember hsame => absurd hsame (hnone member hmember)
  · exact absurd hname (List.forall_mem_cons.1 hall).1

theorem givesTypes (hfill : record.fillMembers members draft = .ok next) :
    GivesTypes members draft next := by
  induction members generalizing draft with
  | nil =>
      cases hfill
      exact ⟨List.forall_mem_nil _, fun _ => rfl⟩
  | cons member members ih =>
      rw [Record.fillMembers] at hfill
      obtain ⟨name, hname, hfill⟩ := bind_eq_ok_iff.1 hfill
      have hvalue : member.1.value = .ok name := Json.Lexeme.get_eq_ok hname
      have hother (hne : name ≠ "types") : member.1.value ≠ .ok "types" := by
        rw [hvalue]
        exact fun hsame => hne (Except.ok.inj hsame)
      split at hfill
      · rename_i hfield
        obtain ⟨-, -, hrest⟩ := bind_eq_ok_iff.1 hfill
        refine (ih hrest).skip rfl (hother ?_)
        rintro rfl
        cases hfield
      · rename_i field hfield
        obtain rfl : field.name = name := by simpa using List.find?_some hfield
        split at hfill
        · cases hfill
        · rename_i hfilled
          obtain ⟨mid, hmid, hrest⟩ := bind_eq_ok_iff.1 hfill
          have hfields := List.mem_of_find?_eq_some hfield
          simp only [record, List.mem_cons, List.not_mem_nil, or_false] at hfields
          rcases hfields with rfl | rfl | rfl
          · obtain ⟨text, -, hmid⟩ := bind_eq_ok_iff.1 hmid
            cases hmid
            exact (ih hrest).skip rfl (hother (by decide))
          · obtain ⟨markers, -, hmid⟩ := bind_eq_ok_iff.1 hmid
            cases hmid
            exact (ih hrest).skip rfl (hother (by decide))
          · obtain ⟨decls, hdecls, hmid⟩ := bind_eq_ok_iff.1 hmid
            cases hmid
            exact (ih hrest).take (by simpa using hfilled) rfl hvalue hdecls

/-- Items fill the fields in their order, so the third one gives the types. -/
theorem types_of_fillItems {items : List Tree} {left : Option (List Tree)}
    (hfill : Record.fillItems record.fields items record.blank = .ok (draft, left)) :
    (∀ item ∈ items[2]?, ∃ decls, draft.types = some decls ∧
      item.toList TypeDecl.record.read = .ok decls) ∧
    (items.length ≤ 2 → draft.types = none) := by
  match items with
  | [] =>
      cases hfill
      exact ⟨nofun, fun _ => rfl⟩
  | [name] =>
      obtain ⟨filled, hname, hfill⟩ := bind_eq_ok_iff.1 hfill
      obtain ⟨text, -, hname⟩ := bind_eq_ok_iff.1 hname
      cases hname
      cases hfill
      exact ⟨nofun, fun _ => rfl⟩
  | [name, markers] =>
      obtain ⟨filled, hname, hfill⟩ := bind_eq_ok_iff.1 hfill
      obtain ⟨text, -, hname⟩ := bind_eq_ok_iff.1 hname
      cases hname
      obtain ⟨filled, hmarkers, hfill⟩ := bind_eq_ok_iff.1 hfill
      obtain ⟨list, -, hmarkers⟩ := bind_eq_ok_iff.1 hmarkers
      cases hmarkers
      cases hfill
      exact ⟨nofun, fun _ => rfl⟩
  | name :: markers :: types :: rest =>
      obtain ⟨filled, -, hfill⟩ := bind_eq_ok_iff.1 hfill
      obtain ⟨filled, -, hfill⟩ := bind_eq_ok_iff.1 hfill
      obtain ⟨filled, htypes, hfill⟩ := bind_eq_ok_iff.1 hfill
      obtain ⟨decls, hdecls, htypes⟩ := bind_eq_ok_iff.1 htypes
      cases htypes
      cases hfill
      refine ⟨fun item hitem => ?_, fun hfew => absurd hfew (by simp)⟩
      cases hitem
      exact ⟨decls, rfl, hdecls⟩

theorem types_of_finish {program : Program} (hmade : record.finish draft = .ok program) :
    program.types = TypeTable.ofList (draft.types.getD []) := by
  obtain ⟨name, markers, types⟩ := draft
  cases name with
  | none => cases hmade
  | some name =>
      cases hmade
      rfl

/-- A program that was read has the table of the declarations that its tree lists. -/
theorem types_of_read {node : Tree} {program : Program} (hread : record.read node = .ok program) :
    ∃ decls, Lists node decls ∧ program.types = TypeTable.ofList decls := by
  cases node with
  | object members ending =>
      obtain ⟨draft, hdraft, hmade⟩ := Record.finish_of_read_object hread
      have hgives := givesTypes hdraft
      refine ⟨draft.types.getD [], ⟨fun member hmember hname => ?_, fun hnone => ?_⟩,
        types_of_finish hmade⟩
      · obtain ⟨-, decls, htypes, hdecls⟩ := hgives.named member hmember hname
        rw [hdecls, htypes]
        rfl
      · rw [hgives.unnamed hnone]
        rfl
  | array items ending =>
      obtain ⟨draft, left, hdraft, hmade⟩ := Record.finish_of_read_array hread
      obtain ⟨hthird, hfew⟩ := types_of_fillItems hdraft
      refine ⟨draft.types.getD [], ⟨fun item hitem => ?_, fun hlength => ?_⟩,
        types_of_finish hmade⟩
      · obtain ⟨decls, htypes, hdecls⟩ := hthird item hitem
        rw [hdecls, htypes]
        rfl
      · rw [hfew hlength]
        rfl
  | _ => cases hread

theorem Lists.unique {node : Tree} {decls others : List TypeDecl} (hdecls : Lists node decls)
    (hothers : Lists node others) : decls = others := by
  cases node with
  | object members ending =>
      by_cases hnamed : ∃ member ∈ members, member.1.value = .ok "types"
      · obtain ⟨member, hmember, hname⟩ := hnamed
        have hsame := (hdecls.1 member hmember hname).symm.trans (hothers.1 member hmember hname)
        exact Except.ok.inj hsame
      · have hnone : ∀ member ∈ members, member.1.value ≠ .ok "types" :=
          fun member hmember hname => hnamed ⟨member, hmember, hname⟩
        rw [hdecls.2 hnone, hothers.2 hnone]
  | array items ending =>
      cases hitem : items[2]? with
      | some item => exact Except.ok.inj ((hdecls.1 item hitem).symm.trans (hothers.1 item hitem))
      | none =>
          have hfew : items.length ≤ 2 := List.getElem?_eq_none_iff.1 hitem
          rw [hdecls.2 hfew, hothers.2 hfew]
  | _ => cases hdecls

/-- Whatever declarations the tree of a text lists, the program that is read has their table. -/
theorem types_of_ofText {text : String} {program : Program} {decls : List TypeDecl}
    (hread : Program.ofText text = .ok program)
    (hlists : Lists (Json.Document.ofText text).root decls) :
    program.types = TypeTable.ofList decls := by
  obtain ⟨others, hothers, htypes⟩ := types_of_read (Json.read_of_decode hread)
  rw [htypes, hothers.unique hlists]

end Program

end EditPipeline
