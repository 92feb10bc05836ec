import EditPipeline.Program.Encode
import EditPipeline.Proofs.Json.Values
import EditPipeline.Proofs.Success
import Mathlib.Data.List.Forall2
import Mathlib.Data.List.Nodup

/-!
# Records in any layout

An object shows a record if its members are those of the fields, in any order, without any of
those whose value is the default, and with any others of names that no field has
(`ShowsFields`).  What a field may hold is a `Slot`.

A reader takes the members as they come, so its draft cannot be told from how many it has read.
It is told from the names of the fields that it has read, whatever their order: `draft names` is
the same for each order of `names`.  One member adds its name or, if no field has it, leaves the
draft alone (`fillMembers_of_known`, `fillMembers_of_unknown`), and no name comes twice, so at
the end the draft has every field but some of those with a default.
-/

namespace EditPipeline.Json

/-! ## What a tree shows -/

section Values

variable {α : Type}

/-- A tree of a string. -/
def ShowsText (s : String) (node : Tree) : Prop := node = .string (.ok s)

/-- A tree of a value, or `null` where there is none. -/
def ShowsOption (shows : α → Tree → Prop) : Option α → Tree → Prop
  | none, node => node = .null
  | some a, node => shows a node

/-- A tree of a list of values. -/
inductive ShowsList (shows : α → Tree → Prop) (values : List α) : Tree → Prop
  | mk {items : List Tree} (hitems : List.Forall₂ shows values items) :
      ShowsList shows values (.array items none)

end Values

/-- A field of a record as an object shows it. -/
structure Slot where
  name : String
  /-- The field may be left out, since its value is the default. -/
  optional : Prop
  /-- What may stand under the name. -/
  shows : Tree → Prop

/-- The members that an object has for a field. -/
inductive Slot.Members (slot : Slot) : List (Lexeme String × Tree) → Prop
  | written {node : Tree} (hnode : slot.shows node) : slot.Members [(.ok slot.name, node)]
  | omitted (hoptional : slot.optional) : slot.Members []

/-- A member of a name that no field has. -/
def Unknown (slots : List Slot) (member : Lexeme String × Tree) : Prop :=
  ∃ name, member.1 = .ok name ∧ ∀ slot ∈ slots, slot.name ≠ name

/-- An object shows fields: its members are theirs and others of unknown names, in any order. -/
inductive ShowsFields (slots : List Slot) : Tree → Prop
  | mk {parts : List (List (Lexeme String × Tree))} {unknown members : List (Lexeme String × Tree)}
      (hparts : List.Forall₂ Slot.Members slots parts)
      (hunknown : ∀ member ∈ unknown, Unknown slots member)
      (hmembers : members.Perm (parts.flatten ++ unknown)) :
      ShowsFields slots (.object members none)

theorem Lexeme.ok_inj {α : Type} {a b : α} (heq : Lexeme.ok a = Lexeme.ok b) : a = b :=
  Except.ok.inj (congrArg Lexeme.value heq)

/-! ## Trees without faults -/

section Faults

theorem firstFault_eq_none_iff {a b : Option Fault} :
    Tree.firstFault a b = none ↔ a = none ∧ b = none := by
  cases a <;> simp [Tree.firstFault]

theorem fault?_array {items : List Tree} :
    (Tree.array items none).fault? = none ↔ ∀ item ∈ items, item.fault? = none := by
  rw [Tree.fault?, firstFault_eq_none_iff, and_iff_left rfl]
  induction items with
  | nil => simp [Tree.faultItems?]
  | cons item items ih =>
      rw [Tree.faultItems?, firstFault_eq_none_iff, ih, List.forall_mem_cons]

theorem fault?_of_mem_object {members : List (Lexeme String × Tree)}
    (hobject : (Tree.object members none).fault? = none) :
    ∀ member ∈ members, member.2.fault? = none := by
  rw [Tree.fault?, firstFault_eq_none_iff] at hobject
  replace hobject := hobject.1
  induction members with
  | nil => exact List.forall_mem_nil _
  | cons member members ih =>
      obtain ⟨name, node⟩ := member
      rw [Tree.faultMembers?, firstFault_eq_none_iff, firstFault_eq_none_iff] at hobject
      exact List.forall_mem_cons.2 ⟨hobject.2.1, ih hobject.2.2⟩

end Faults

/-! ## Reading values -/

section Lists

variable {α : Type} {decode : Tree → Except Problem α} {shows : α → Tree → Prop}
  {values : List α} {node : Tree}

/-- A list is read if each of its elements is. -/
theorem ShowsList.toList_eq (hnode : ShowsList shows values node) (hsound : node.fault? = none)
    (hread : ∀ value ∈ values, ∀ item, shows value item → item.fault? = none →
      decode item = .ok value) : node.toList decode = .ok values := by
  cases hnode with
  | @mk items hitems =>
      rw [fault?_array] at hsound
      have hvalues : items.mapM decode = .ok values := by
        induction hitems with
        | nil => rfl
        | @cons value item values items hitem hmore ih =>
            rw [List.forall_mem_cons] at hsound hread
            rw [List.mapM_cons, hread.1 item hitem hsound.1, ih hread.2 hsound.2]
            rfl
      unfold Tree.toList
      dsimp only
      rw [hvalues]
      rfl

theorem ShowsText.toText_eq {s : String} (hnode : ShowsText s node) : node.toText = .ok s := by
  rw [hnode]
  rfl

theorem ShowsList.toStrings_eq {strings : List String} (hnode : ShowsList ShowsText strings node)
    (hsound : node.fault? = none) : node.toList Tree.toText = .ok strings :=
  hnode.toList_eq hsound fun _ _ _ hitem _ => hitem.toText_eq

theorem ShowsOption.toOption_eq {s : Option String} (hnode : ShowsOption ShowsText s node) :
    node.toOption Tree.toText = .ok s := by
  cases s <;> rw [hnode] <;> rfl

end Lists

/-! ## Written values -/

theorem showsText_tree (s : String) : ShowsText s (tree (.string s)) := rfl

section Written

variable {α : Type} {encode : α → Json} {shows : α → Tree → Prop} {values : List α}

theorem showsList_tree (hshows : ∀ value ∈ values, shows value (tree (encode value))) :
    ShowsList shows values (tree (.array (values.map encode))) := by
  have hitems : List.Forall₂ shows values (itemTrees (values.map encode)) := by
    induction values with
    | nil => exact .nil
    | cons value values ih =>
        rw [List.forall_mem_cons] at hshows
        exact .cons hshows.1 (ih hshows.2)
  exact .mk hitems

/-- A list that is left out if it is empty. -/
theorem members_optionalMember (name : String)
    (hshows : ∀ value ∈ values, shows value (tree (encode value))) :
    Slot.Members ⟨name, values = [], ShowsList shows values⟩
      (memberTrees (optionalMember name encode values)) := by
  cases values with
  | nil => exact .omitted rfl
  | cons first values => exact .written (showsList_tree hshows)

theorem memberTrees_append (members more : List (String × Json)) :
    memberTrees (members ++ more) = memberTrees members ++ memberTrees more := by
  induction members with
  | nil => rfl
  | cons member members ih => rw [List.cons_append, memberTrees, memberTrees, ih]; rfl

/-- The members of the fields in their order show them. -/
theorem showsFields_flatten (slots : List Slot) {parts : List (List (Lexeme String × Tree))}
    (hparts : List.Forall₂ Slot.Members slots parts) :
    ShowsFields slots (.object parts.flatten none) :=
  .mk hparts (List.forall_mem_nil _) (by rw [List.append_nil])

end Written

/-! ## Fields that were read -/

section Given

variable {α : Type} {names : List String} {name : String} {a b : α}

/-- The value of a field, if its name is among those that were read. -/
def given (names : List String) (name : String) (a : α) : Option α :=
  if name ∈ names then some a else none

theorem given_of_mem (hname : name ∈ names) : given names name a = some a := if_pos hname

/-- A field that was not read has its default. -/
theorem getD_given (hname : a = b ∨ name ∈ names) : (given names name a).getD b = a := by
  unfold given
  split
  · rfl
  · next hmissing => exact (hname.resolve_right hmissing).symm

end Given

/-! ## Reading a record -/

namespace Record

variable {ρ α : Type} {record : Record ρ α} {slots : List Slot} {draft : List String → ρ}
  {names : List String} {members : List (Lexeme String × Tree)} {node : Tree}

/-- A field adds its name to those that were read if it gets what its slot shows. -/
def Takes (draft : List String → ρ) (field : Field ρ) (slot : Slot) : Prop :=
  field.name = slot.name ∧ ∀ names, slot.name ∉ names →
    field.filled (draft names) = false ∧
      ∀ node, slot.shows node → node.fault? = none →
        field.fill node (draft names) = .ok (draft (slot.name :: names))

/-- A reader of a record whose draft is told from the names of the fields that were read. -/
structure Follows (record : Record ρ α) (slots : List Slot) (draft : List String → ρ) : Prop where
  distinct : (slots.map Slot.name).Nodup
  blank : draft [] = record.blank
  takes : List.Forall₂ (Takes draft) record.fields slots

/-- A field whose value is only put in its place takes what its slot shows. -/
theorem takes_bind {β : Type} {name : String} {read : Tree → Except Problem β} {put : ρ → β → ρ}
    {filled : ρ → Bool} {optional : Prop} {shows : Tree → Prop} (b : β)
    (hempty : ∀ names, name ∉ names → filled (draft names) = false)
    (hput : ∀ names, put (draft names) b = draft (name :: names))
    (hread : ∀ node, shows node → node.fault? = none → read node = .ok b) :
    Takes draft ⟨name, filled, fun node draft => read node >>= fun b => pure (put draft b)⟩
      ⟨name, optional, shows⟩ :=
  ⟨rfl, fun names hnew => ⟨hempty names hnew, fun node hshows hsound => by
    rw [← hput]
    exact bind_pure_of_eq_ok _ (hread node hshows hsound)⟩⟩

theorem find?_of_takes {fields : List (Field ρ)} (htakes : List.Forall₂ (Takes draft) fields slots)
    (hdistinct : (slots.map Slot.name).Nodup) {slot : Slot} (hslot : slot ∈ slots) :
    ∃ field, fields.find? (·.name = slot.name) = some field ∧ Takes draft field slot := by
  induction htakes with
  | nil => cases hslot
  | @cons field first fields slots hfirst hmore ih =>
      rw [List.map_cons, List.nodup_cons] at hdistinct
      rcases List.mem_cons.1 hslot with rfl | hlater
      · exact ⟨field, List.find?_cons_of_pos (decide_eq_true hfirst.1), hfirst⟩
      · have hne : ¬ field.name = slot.name := fun heq =>
          hdistinct.1 (hfirst.1 ▸ heq ▸ List.mem_map_of_mem hlater)
        rw [List.find?_cons_of_neg (by simpa using hne)]
        exact ih hdistinct.2 hlater

theorem find?_of_unknown {fields : List (Field ρ)} (htakes : List.Forall₂ (Takes draft) fields slots)
    {name : String} (hname : ∀ slot ∈ slots, slot.name ≠ name) :
    fields.find? (·.name = name) = none := by
  induction htakes with
  | nil => rfl
  | @cons field first fields slots hfirst hmore ih =>
      rw [List.forall_mem_cons] at hname
      rw [List.find?_cons_of_neg (by simpa [hfirst.1] using hname.1)]
      exact ih hname.2

/-- A member of a field that was not read yet adds its name. -/
theorem fillMembers_of_known (hfollows : record.Follows slots draft) {slot : Slot}
    (hslot : slot ∈ slots) (hnew : slot.name ∉ names) (hshows : slot.shows node)
    (hsound : node.fault? = none) :
    record.fillMembers ((.ok slot.name, node) :: members) (draft names) =
      record.fillMembers members (draft (slot.name :: names)) := by
  obtain ⟨field, hfield, -, htakes⟩ := find?_of_takes hfollows.takes hfollows.distinct hslot
  obtain ⟨hfilled, hfill⟩ := htakes names hnew
  have hname : (Lexeme.ok slot.name).get = .ok slot.name := rfl
  rw [fillMembers, hname, ok_bind, hfield]
  dsimp only
  rw [hfilled, if_neg (by decide), hfill node hshows hsound]
  rfl

/-- A member of an unknown name is skipped. -/
theorem fillMembers_of_unknown (hfollows : record.Follows slots draft) {name : String}
    (hname : ∀ slot ∈ slots, slot.name ≠ name) (hsound : node.fault? = none) :
    record.fillMembers ((.ok name, node) :: members) (draft names) =
      record.fillMembers members (draft names) := by
  have hget : (Lexeme.ok name).get = .ok name := rfl
  rw [fillMembers, hget, ok_bind, find?_of_unknown hfollows.takes hname]
  dsimp only
  rw [hsound]
  rfl

/-- A member of a field, with what may stand there. -/
def Known (slots : List Slot) (member : Lexeme String × Tree) : Prop :=
  ∃ slot ∈ slots, member.1 = .ok slot.name ∧ slot.shows member.2

/-- Two members are not of one field. -/
def Apart (slots : List Slot) (first second : Lexeme String × Tree) : Prop :=
  ∀ slot ∈ slots, first.1 = .ok slot.name → second.1 ≠ .ok slot.name

/-- Member after member, the draft gets every field that one of them is of. -/
theorem fillMembers_follows (hfollows : record.Follows slots draft)
    (hmembers : ∀ member ∈ members, Known slots member ∨ Unknown slots member)
    (hapart : members.Pairwise (Apart slots))
    (hsound : ∀ member ∈ members, member.2.fault? = none)
    (hnew : ∀ member ∈ members, ∀ slot ∈ slots, member.1 = .ok slot.name → slot.name ∉ names) :
    ∃ read, record.fillMembers members (draft names) = .ok (draft read) ∧ names ⊆ read ∧
      ∀ slot ∈ slots, (∃ member ∈ members, member.1 = .ok slot.name) → slot.name ∈ read := by
  induction members generalizing names with
  | nil => exact ⟨names, rfl, List.Subset.refl _, fun _ _ hmember => by simp at hmember⟩
  | cons member members ih =>
      rw [List.forall_mem_cons] at hmembers hsound hnew
      rw [List.pairwise_cons] at hapart
      obtain ⟨name, node⟩ := member
      rcases hmembers.1 with ⟨slot, hslot, rfl, hshows⟩ | ⟨other, rfl, hother⟩
      · have hlater : ∀ member ∈ members, ∀ later ∈ slots, member.1 = .ok later.name →
            later.name ∉ slot.name :: names := by
          intro member hmember later hlater hname hmem
          rcases List.mem_cons.1 hmem with heq | hread
          · exact hapart.1 member hmember slot hslot rfl (heq ▸ hname)
          · exact hnew.2 member hmember later hlater hname hread
        obtain ⟨read, hfill, hsub, hall⟩ := ih hmembers.2 hapart.2 hsound.2 hlater
        refine ⟨read, ?_, fun _ hname => hsub (List.mem_cons_of_mem _ hname), ?_⟩
        · rw [fillMembers_of_known hfollows hslot (hnew.1 slot hslot rfl) hshows hsound.1, hfill]
        · rintro later hlater ⟨member, hmember, hname⟩
          rcases List.mem_cons.1 hmember with rfl | hmore
          · rw [← Lexeme.ok_inj hname]
            exact hsub List.mem_cons_self
          · exact hall later hlater ⟨member, hmore, hname⟩
      · obtain ⟨read, hfill, hsub, hall⟩ := ih hmembers.2 hapart.2 hsound.2 hnew.2
        refine ⟨read, ?_, hsub, ?_⟩
        · rw [fillMembers_of_unknown hfollows hother hsound.1, hfill]
        · rintro later hlater ⟨member, hmember, hname⟩
          rcases List.mem_cons.1 hmember with rfl | hmore
          · exact absurd (Lexeme.ok_inj hname).symm (hother later hlater)
          · exact hall later hlater ⟨member, hmore, hname⟩

/-! ### The members that show a record -/

theorem known_of_members {slot : Slot} {part : List (Lexeme String × Tree)} (hslot : slot ∈ slots)
    (hpart : slot.Members part) : ∀ member ∈ part, Known slots member := by
  cases hpart with
  | written hnode => exact List.forall_mem_singleton.2 ⟨slot, hslot, rfl, hnode⟩
  | omitted _ => exact List.forall_mem_nil _

theorem name_of_members {slot : Slot} {part : List (Lexeme String × Tree)}
    (hpart : slot.Members part) : ∀ member ∈ part, member.1 = .ok slot.name := by
  cases hpart with
  | written _ => exact List.forall_mem_singleton.2 rfl
  | omitted _ => exact List.forall_mem_nil _

theorem exists_slot_of_parts {parts : List (List (Lexeme String × Tree))}
    (hparts : List.Forall₂ Slot.Members slots parts) {member : Lexeme String × Tree}
    (hmember : member ∈ parts.flatten) : ∃ slot ∈ slots, ∃ part, slot.Members part ∧ member ∈ part := by
  induction hparts with
  | nil => simp at hmember
  | @cons slot part slots parts hpart hmore ih =>
      rw [List.flatten_cons, List.mem_append] at hmember
      rcases hmember with hhere | hlater
      · exact ⟨slot, List.mem_cons_self, part, hpart, hhere⟩
      · obtain ⟨other, hother, more⟩ := ih hlater
        exact ⟨other, List.mem_cons_of_mem _ hother, more⟩

theorem Apart.symm {first second : Lexeme String × Tree} (hapart : Apart slots first second) :
    Apart slots second first :=
  fun slot hslot hsecond hfirst => hapart slot hslot hfirst hsecond

/-- No two members of the fields are of one field. -/
theorem pairwise_flatten {parts : List (List (Lexeme String × Tree))} {all : List Slot}
    (hparts : List.Forall₂ Slot.Members slots parts) (hdistinct : (slots.map Slot.name).Nodup) :
    parts.flatten.Pairwise (Apart all) := by
  induction hparts with
  | nil => exact .nil
  | @cons slot part slots parts hpart hmore ih =>
      rw [List.map_cons, List.nodup_cons] at hdistinct
      rw [List.flatten_cons, List.pairwise_append]
      refine ⟨?_, ih hdistinct.2, fun first hfirst second hsecond => ?_⟩
      · cases hpart with
        | written _ => exact List.pairwise_singleton _ _
        | omitted _ => exact .nil
      · obtain ⟨other, hother, piece, hpiece, hmem⟩ := exists_slot_of_parts hmore hsecond
        intro one _ hone htwo
        rw [name_of_members hpart first hfirst] at hone
        rw [name_of_members hpiece second hmem] at htwo
        have hnames : slot.name = other.name := Lexeme.ok_inj (hone.trans htwo.symm)
        exact hdistinct.1 (hnames ▸ List.mem_map_of_mem hother)

theorem present_of_parts {parts : List (List (Lexeme String × Tree))}
    (hparts : List.Forall₂ Slot.Members slots parts) :
    ∀ slot ∈ slots, slot.optional ∨ ∃ member ∈ parts.flatten, member.1 = .ok slot.name := by
  induction hparts with
  | nil => exact List.forall_mem_nil _
  | @cons slot part slots parts hpart hmore ih =>
      refine List.forall_mem_cons.2 ⟨?_, fun other hother => ?_⟩
      · cases hpart with
        | written _ => exact .inr ⟨_, List.mem_append_left _ List.mem_cons_self, rfl⟩
        | omitted hoptional => exact .inl hoptional
      · refine (ih other hother).imp_right ?_
        rintro ⟨member, hmember, hname⟩
        exact ⟨member, List.mem_append_right _ hmember, hname⟩

/-- **A record is read in any layout of its members.**  It is enough that the draft can be
finished which has every field but some of those that may be left out. -/
theorem read_of_shows (hfollows : record.Follows slots draft) (hnode : ShowsFields slots node)
    (hsound : node.fault? = none) {made : α}
    (hfinish : ∀ names, (∀ slot ∈ slots, slot.optional ∨ slot.name ∈ names) →
      record.finish (draft names) = .ok made) : record.read node = .ok made := by
  cases hnode with
  | @mk parts unknown members hparts hunknown hperm =>
      have hkinds : ∀ member ∈ members, Known slots member ∨ Unknown slots member := by
        intro member hmember
        rcases List.mem_append.1 (hperm.subset hmember) with hpart | hother
        · obtain ⟨slot, hslot, part, hpart, hmem⟩ := exists_slot_of_parts hparts hpart
          exact .inl (known_of_members hslot hpart member hmem)
        · exact .inr (hunknown member hother)
      have hapart : members.Pairwise (Apart slots) := by
        rw [hperm.pairwise_iff Apart.symm, List.pairwise_append]
        refine ⟨pairwise_flatten hparts hfollows.distinct, ?_, ?_⟩
        · refine List.pairwise_of_forall_mem_list fun first hfirst second _ => ?_
          obtain ⟨name, hname, hnone⟩ := hunknown first hfirst
          exact fun slot hslot heq => absurd (Lexeme.ok_inj (heq.symm.trans hname)) (hnone slot hslot)
        · intro first _ second hsecond slot hslot _ heq
          obtain ⟨name, hname, hnone⟩ := hunknown second hsecond
          exact hnone slot hslot (Lexeme.ok_inj (heq.symm.trans hname))
      obtain ⟨names, hfill, -, hall⟩ := fillMembers_follows hfollows hkinds hapart
        (fault?_of_mem_object hsound) fun _ _ _ _ _ => List.not_mem_nil
      have hpresent : ∀ slot ∈ slots, slot.optional ∨ slot.name ∈ names := by
        intro slot hslot
        refine (present_of_parts hparts slot hslot).imp_right ?_
        rintro ⟨member, hmember, hname⟩
        exact hall slot hslot ⟨member, hperm.symm.subset (List.mem_append_left _ hmember), hname⟩
      unfold read
      dsimp only
      rw [← hfollows.blank, hfill, ok_bind, checkFault, ok_bind, hfinish names hpresent]
      rfl

end Record

end EditPipeline.Json
