import EditPipeline.Proofs.Json.Reading

/-!
# What a record is made of

A record makes a value only out of what its fields were given.  So a property that every field
keeps holds of the draft that is finished (`Record.read_invariant`), whichever of its two forms
the record is written in.
-/

namespace EditPipeline.Json

/-! ## Lists -/

section Lists

variable {α : Type} {read : Tree → Except Problem α} {values : List α}

/-- What is read into a list has the property that every element has. -/
theorem forall_mem_of_toList {node : Tree} (hread : node.toList read = .ok values)
    {P : α → Prop} (hsound : node.Sound)
    (helement : ∀ {item : Tree} {value : α}, item.Sound → read item = .ok value → P value) :
    ∀ value ∈ values, P value := by
  cases node with
  | array items ending =>
      obtain ⟨found, hfound, hrest⟩ := bind_eq_ok_iff.1 hread
      obtain ⟨-, -, hvalues⟩ := bind_eq_ok_iff.1 hrest
      cases hvalues
      rw [Tree.sound_array] at hsound
      clear hread hrest
      induction items generalizing values with
      | nil =>
          cases hfound
          exact List.forall_mem_nil _
      | cons item items ih =>
          obtain ⟨hitem, hitems⟩ := List.forall_mem_cons.1 hsound
          rw [List.mapM_cons] at hfound
          obtain ⟨value, hvalue, hrest⟩ := bind_eq_ok_iff.1 hfound
          obtain ⟨more, hmore, hall⟩ := bind_eq_ok_iff.1 hrest
          cases hall
          exact List.forall_mem_cons.2 ⟨helement hitem hvalue, ih hitems hmore⟩
  | _ => cases hread

end Lists

/-- What is read from a text is read from the root of its tree. -/
theorem read_of_decode {α : Type} {read : Tree → Except Problem α} {text : String} {a : α}
    (hread : decode read text = .ok a) : read (Document.ofText text).root = .ok a := by
  obtain ⟨made, hmade, hrest⟩ := bind_eq_ok_iff.1 hread
  split at hrest
  · cases hrest
  · cases hrest
    exact hmade

namespace Record

variable {ρ α β : Type} {record : Record ρ β} {name : String}

/-! ## The draft that is finished -/

/-- An object is read into a draft, member by member, and the draft is finished. -/
theorem finish_of_read_object {members : List (Lexeme String × Tree)} {ending : Option Fault}
    {made : β} (hread : record.read (.object members ending) = .ok made) :
    ∃ draft, record.fillMembers members record.blank = .ok draft ∧
      record.finish draft = .ok made := by
  obtain ⟨draft, hdraft, hrest⟩ := bind_eq_ok_iff.1 hread
  obtain ⟨-, -, hmade⟩ := bind_eq_ok_iff.1 hrest
  refine ⟨draft, hdraft, ?_⟩
  split at hmade
  · cases hmade
    assumption
  · cases hmade

/-- So is an array, item by item. -/
theorem finish_of_read_array {items : List Tree} {ending : Option Fault} {made : β}
    (hread : record.read (.array items ending) = .ok made) :
    ∃ draft left, fillItems record.fields items record.blank = .ok (draft, left) ∧
      record.finish draft = .ok made := by
  obtain ⟨⟨draft, left⟩, hdraft, hmade⟩ := bind_eq_ok_iff.1 hread
  refine ⟨draft, left, hdraft, ?_⟩
  cases left with
  | none =>
      obtain ⟨-, -, hmade⟩ := bind_eq_ok_iff.1 hmade
      split at hmade
      · cases hmade
        assumption
      · cases hmade
  | some more =>
      dsimp only at hmade
      split at hmade
      · split at hmade
        · obtain ⟨-, -, hmade⟩ := bind_eq_ok_iff.1 hmade
          cases hmade
          assumption
        · cases hmade
      · cases hmade

/-- A property of drafts that every field keeps which reads a sound tree. -/
def Keeps (field : Field ρ) (P : ρ → Prop) : Prop :=
  ∀ (node : Tree) (draft next : ρ), node.Sound → P draft → field.fill node draft = .ok next → P next

section Invariant

variable {P : ρ → Prop}

/-- A field keeps a property if putting what it reads in its place does. -/
theorem keeps_bind {read : Tree → Except Problem α} {put : ρ → α → ρ} {filled : ρ → Bool}
    (hput : ∀ (node : Tree) (draft : ρ) (a : α), node.Sound → P draft → read node = .ok a →
      P (put draft a)) :
    Keeps ⟨name, filled, fun node draft => read node >>= fun a => pure (put draft a)⟩ P := by
  intro node draft next hsound hdraft hfill
  obtain ⟨a, ha, hnext⟩ := bind_eq_ok_iff.1 hfill
  cases hnext
  exact hput node draft a hsound hdraft ha

theorem fillMembers_invariant (hkeeps : ∀ field ∈ record.fields, Keeps field P)
    {members : List (Lexeme String × Tree)} {draft next : ρ}
    (hmembers : ∀ member ∈ members, member.2.Sound) (hdraft : P draft)
    (hfill : record.fillMembers members draft = .ok next) : P next := by
  induction members generalizing draft with
  | nil =>
      cases hfill
      exact hdraft
  | cons member members ih =>
      obtain ⟨hmember, hrest⟩ := List.forall_mem_cons.1 hmembers
      rw [fillMembers] at hfill
      obtain ⟨name, -, hfill⟩ := bind_eq_ok_iff.1 hfill
      split at hfill
      -- a member of an unknown name leaves the draft alone
      · obtain ⟨-, -, hfill⟩ := bind_eq_ok_iff.1 hfill
        exact ih hrest hdraft hfill
      · rename_i field hfield
        split at hfill
        · cases hfill
        · obtain ⟨filled, hfilled, hfill⟩ := bind_eq_ok_iff.1 hfill
          have hnext := hkeeps field (List.mem_of_find?_eq_some hfield) _ _ _ hmember hdraft hfilled
          exact ih hrest hnext hfill

theorem fillItems_invariant {fields : List (Field ρ)} (hkeeps : ∀ field ∈ fields, Keeps field P)
    {items : List Tree} {draft next : ρ} {left : Option (List Tree)}
    (hitems : ∀ item ∈ items, item.Sound) (hdraft : P draft)
    (hfill : fillItems fields items draft = .ok (next, left)) : P next := by
  induction fields generalizing items draft with
  | nil =>
      cases hfill
      exact hdraft
  | cons field fields ih =>
      obtain ⟨hfield, hfields⟩ := List.forall_mem_cons.1 hkeeps
      cases items with
      | nil =>
          cases hfill
          exact hdraft
      | cons item items =>
          obtain ⟨hitem, hrest⟩ := List.forall_mem_cons.1 hitems
          obtain ⟨filled, hfilled, hfill⟩ := bind_eq_ok_iff.1 hfill
          exact ih hfields hrest (hfield _ _ _ hitem hdraft hfilled) hfill

/-- A record is finished from a draft that has every property which its fields keep. -/
theorem read_invariant (hblank : P record.blank) (hkeeps : ∀ field ∈ record.fields, Keeps field P)
    {node : Tree} {made : β} (hsound : node.Sound) (hread : record.read node = .ok made) :
    ∃ draft, P draft ∧ record.finish draft = .ok made := by
  cases node with
  | object members ending =>
      obtain ⟨draft, hdraft, hmade⟩ := finish_of_read_object hread
      exact ⟨draft, fillMembers_invariant hkeeps (Tree.sound_object.1 hsound) hblank hdraft, hmade⟩
  | array items ending =>
      obtain ⟨draft, left, hdraft, hmade⟩ := finish_of_read_array hread
      exact ⟨draft, fillItems_invariant hkeeps (Tree.sound_array.1 hsound) hblank hdraft, hmade⟩
  | _ => cases hread

end Invariant

end Record

end EditPipeline.Json
