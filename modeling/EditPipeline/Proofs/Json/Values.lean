import EditPipeline.Proofs.Json.Layouts

/-!
# Values that are read back from their trees

A value `Fits` a number of levels if it is canonical and opens no more arrays and objects
than that at once.  Exactly such values can come out of a reader of values, and each of
them is read back from its own tree.  The members of an object are put where their names
belong, so it matters that the names of the value are increasing: every member then
belongs behind those that were read before it.
-/

namespace EditPipeline.Json

/-! ## Values that a reader can give -/

/-- The value is canonical, and at most `levels` arrays and objects are open at once. -/
def Fits (levels : Nat) (value : Json) : Prop := Canonical value ∧ depth value ≤ levels

theorem fits_null (levels : Nat) : Fits levels .null := ⟨trivial, Nat.zero_le levels⟩

theorem canonicalItems_iff (items : List Json) :
    CanonicalItems items ↔ ∀ item ∈ items, Canonical item := by
  induction items with
  | nil => simp [CanonicalItems]
  | cons item items ih => rw [CanonicalItems, ih, List.forall_mem_cons]

theorem canonicalMembers_iff (members : List (String × Json)) :
    CanonicalMembers members ↔ ∀ member ∈ members, Canonical member.2 := by
  induction members with
  | nil => simp [CanonicalMembers]
  | cons member members ih => rw [CanonicalMembers, ih, List.forall_mem_cons]

theorem depthItems_le_iff {levels : Nat} (items : List Json) :
    depthItems items ≤ levels ↔ ∀ item ∈ items, depth item ≤ levels := by
  induction items with
  | nil => simp [depthItems]
  | cons item items ih => rw [depthItems, Nat.max_le, ih, List.forall_mem_cons]

theorem depthMembers_le_iff {levels : Nat} (members : List (String × Json)) :
    depthMembers members ≤ levels ↔ ∀ member ∈ members, depth member.2 ≤ levels := by
  induction members with
  | nil => simp [depthMembers]
  | cons member members ih => rw [depthMembers, Nat.max_le, ih, List.forall_mem_cons]

section Fits

variable {levels : Nat}

theorem fits_array {items : List Json} :
    Fits (levels + 1) (.array items) ↔ ∀ item ∈ items, Fits levels item := by
  unfold Fits
  rw [Canonical, depth, canonicalItems_iff, Nat.add_le_add_iff_right, depthItems_le_iff,
    ← forall₂_and]

theorem fits_object {members : List (String × Json)} :
    Fits (levels + 1) (.object members) ↔
      (members.map Prod.fst).Pairwise (· < ·) ∧ ∀ member ∈ members, Fits levels member.2 := by
  unfold Fits
  rw [Canonical, depth, canonicalMembers_iff, Nat.add_le_add_iff_right, depthMembers_le_iff,
    and_assoc, ← forall₂_and]

theorem not_fits_zero_array (items : List Json) : ¬ Fits 0 (.array items) :=
  fun hfits => absurd hfits.2 (Nat.not_succ_le_zero _)

theorem not_fits_zero_object (members : List (String × Json)) : ¬ Fits 0 (.object members) :=
  fun hfits => absurd hfits.2 (Nat.not_succ_le_zero _)

end Fits

/-! ## Putting members where they belong -/

section Insert

variable {name : String} {value : Json} {held : List (String × Json)}

/-- A name that is greater than all others belongs behind them. -/
theorem insertMember_append (hgreater : ∀ member ∈ held, member.1 < name) :
    insertMember name value held = held ++ [(name, value)] := by
  induction held with
  | nil => rfl
  | cons member held ih =>
      obtain ⟨hfirst, hrest⟩ := List.forall_mem_cons.1 hgreater
      have hne : name ≠ member.1 := by
        rintro rfl
        exact String.lt_irrefl _ hfirst
      rw [insertMember, if_neg (String.lt_asymm hfirst), if_neg hne, ih hrest]
      rfl

/-- The inserted member is there, and nothing else is new. -/
theorem mem_insertMember {member : String × Json} (hmember : member ∈ insertMember name value held) :
    member = (name, value) ∨ member ∈ held := by
  induction held with
  | nil => exact Or.inl (List.mem_singleton.1 hmember)
  | cons first held ih =>
      unfold insertMember at hmember
      split_ifs at hmember with hless heq
      · rcases List.mem_cons.1 hmember with hnew | hold
        · exact Or.inl hnew
        · exact Or.inr hold
      · rcases List.mem_cons.1 hmember with hnew | hold
        · exact Or.inl hnew
        · exact Or.inr (List.mem_cons_of_mem _ hold)
      · rcases List.mem_cons.1 hmember with hfirst | hlater
        · exact Or.inr (hfirst ▸ List.mem_cons_self)
        · exact (ih hlater).imp_right (List.mem_cons_of_mem _)

/-- The names stay in increasing order. -/
theorem sorted_insertMember (hsorted : (held.map Prod.fst).Pairwise (· < ·)) :
    ((insertMember name value held).map Prod.fst).Pairwise (· < ·) := by
  induction held with
  | nil => simp [insertMember]
  | cons first held ih =>
      rw [List.map_cons, List.pairwise_cons] at hsorted
      obtain ⟨hfirst, hheld⟩ := hsorted
      unfold insertMember
      split_ifs with hless heq
      · rw [List.map_cons, List.map_cons, List.pairwise_cons]
        refine ⟨fun other hother => ?_, List.pairwise_cons.2 ⟨hfirst, hheld⟩⟩
        rcases List.mem_cons.1 hother with rfl | hlater
        · exact hless
        · exact String.lt_trans hless (hfirst other hlater)
      · rw [List.map_cons, List.pairwise_cons]
        exact ⟨heq ▸ hfirst, hheld⟩
      · have hafter : first.1 < name :=
          Std.lt_of_le_of_ne (String.not_lt.1 hless) (Ne.symm heq)
        rw [List.map_cons, List.pairwise_cons]
        refine ⟨fun other hother => ?_, ih hheld⟩
        obtain ⟨member, hmember, rfl⟩ := List.mem_map.1 hother
        rcases mem_insertMember hmember with rfl | hold
        · exact hafter
        · exact hfirst member.1 (List.mem_map_of_mem hold)

end Insert

/-! ## Reading a value back -/

open EditPipeline.Json.Tree (toJson toJsonItems toJsonMembers)

mutual

/-- A value that fits is read back from its tree. -/
theorem toJson_tree : ∀ (levels : Nat) (value : Json), Fits levels value →
    toJson levels (tree value) = .ok value
  | _, .null, _ => rfl
  | _, .bool _, _ => rfl
  | _, .number _, _ => rfl
  | _, .string _, _ => rfl
  | 0, .array items, hfits => absurd hfits (not_fits_zero_array items)
  | levels + 1, .array items, hfits => by
      rw [tree, toJson, toJsonItems_trees levels items (fits_array.1 hfits)]
      rfl
  | 0, .object members, hfits => absurd hfits (not_fits_zero_object members)
  | levels + 1, .object members, hfits => by
      obtain ⟨hsorted, hmembers⟩ := fits_object.1 hfits
      rw [tree, toJson, toJsonMembers_trees levels members [] hsorted hmembers]
      rfl

theorem toJsonItems_trees : ∀ (levels : Nat) (items : List Json),
    (∀ item ∈ items, Fits levels item) → toJsonItems levels (itemTrees items) = .ok items
  | _, [], _ => rfl
  | levels, item :: items, hfits => by
      obtain ⟨hitem, hitems⟩ := List.forall_mem_cons.1 hfits
      rw [itemTrees, toJsonItems, toJson_tree levels item hitem,
        toJsonItems_trees levels items hitems]
      rfl

/-- Members in increasing order are put behind those that were read before. -/
theorem toJsonMembers_trees : ∀ (levels : Nat) (members held : List (String × Json)),
    ((held ++ members).map Prod.fst).Pairwise (· < ·) →
      (∀ member ∈ members, Fits levels member.2) →
        toJsonMembers levels held (memberTrees members) = .ok (held ++ members)
  | _, [], held, _, _ => by
      rw [List.append_nil]
      rfl
  | levels, (name, value) :: members, held, hsorted, hfits => by
      obtain ⟨hvalue, hmembers⟩ := List.forall_mem_cons.1 hfits
      have hgreater : ∀ member ∈ held, member.1 < name := by
        intro member hmember
        rw [List.map_append, List.pairwise_append] at hsorted
        exact hsorted.2.2 member.1 (List.mem_map_of_mem hmember) name List.mem_cons_self
      -- so the member joins those that were read, and the rest goes on behind it
      have hmove : held ++ (name, value) :: members = held ++ [(name, value)] ++ members := by simp
      rw [hmove] at hsorted ⊢
      rw [memberTrees, toJsonMembers, toJson_tree levels value hvalue]
      show toJsonMembers levels (insertMember name value held) _ = _
      rw [insertMember_append hgreater]
      exact toJsonMembers_trees levels members _ hsorted hmembers

end

end EditPipeline.Json
