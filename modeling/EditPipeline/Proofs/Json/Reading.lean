import EditPipeline.Proofs.Json.Values
import EditPipeline.Proofs.Success

/-!
# What a reader of values can give

A value that is read from a text fits the levels that the reader allows: its integers fit
into 64 bits, its members are in increasing order of their names, and it is not nested
deeper.  The first part needs an invariant on the way from the characters to the tree.  A
number that is too large for a word is scanned as a double, so every number among the
tokens is `Sound`, and arranging tokens neither makes nor changes a number.
-/

namespace EditPipeline.Json

/-! ## Numbers of a text -/

/-- If the literal stands for an integer, this fits into 64 bits. -/
def Lexeme.Sound (literal : Lexeme Number) : Prop :=
  ∀ n : Int, literal.value = .ok (.integer n) → IsWord n

theorem Numeral.isWord_of_value {x : Numeral} {n : Int} (hvalue : x.value = some (.integer n)) :
    IsWord n := by
  have hfloat : x.float ≠ some (.integer n) := by
    unfold Numeral.float
    intro h
    obtain ⟨y, -, hy⟩ := Option.map_eq_some_iff.1 h
    cases hy
  unfold Numeral.value at hvalue
  dsimp only at hvalue
  unfold IsWord
  split_ifs at hvalue with hplain hnegative hsmall hsmall
  · cases hvalue
    omega
  · exact absurd hvalue hfloat
  · cases hvalue
    omega
  · exact absurd hvalue hfloat
  · exact absurd hvalue hfloat

theorem Numeral.sound_lexeme (x : Numeral) : x.lexeme.Sound := by
  intro n hn
  unfold Numeral.lexeme at hn
  cases hvalue : x.value with
  | none =>
      rw [hvalue] at hn
      cases hn
  | some y =>
      rw [hvalue] at hn
      cases hn
      exact Numeral.isWord_of_value hvalue

theorem sound_brokenNumber (ending : Numeral.Break) : (brokenNumber ending).Sound := by
  intro n hn
  cases ending <;> cases hn

/-! ## Sound tokens -/

/-- A number among tokens is sound. -/
def Token.Sound : Token → Prop
  | .number literal => literal.Sound
  | _ => True

theorem sound_scannedNumber (text : List Char) : (scannedNumber text).token.Sound := by
  unfold scannedNumber
  split
  · exact Numeral.sound_lexeme _
  · exact sound_brokenNumber _

theorem sound_scannedWord {token : Token} (htoken : token.Sound) (word text : List Char) :
    (scannedWord token word text).token.Sound := by
  unfold scannedWord
  split
  · exact htoken
  · trivial

theorem sound_scanToken (c : Char) (text : List Char) : (scanToken c text).token.Sound := by
  unfold scanToken
  split
  case h_8 => exact sound_scannedWord (show Token.Sound .null from trivial) _ _
  case h_9 => exact sound_scannedWord (show Token.Sound (.bool true) from trivial) _ _
  case h_10 => exact sound_scannedWord (show Token.Sound (.bool false) from trivial) _ _
  case h_11 =>
    split
    · exact sound_scannedNumber _
    · trivial
  all_goals trivial

theorem sound_scan (text : List Char) : ∀ token ∈ scan text, token.Sound := by
  fun_induction scan text with
  | case1 => exact List.forall_mem_nil _
  | case2 c text hspace ih => exact ih
  | case3 c text hspace ih => exact List.forall_mem_cons.2 ⟨sound_scanToken c text, ih⟩

/-! ## Sound trees -/

mutual

/-- Every number of the tree is sound. -/
def Tree.Sound : Tree → Prop
  | .number literal => literal.Sound
  | .array items _ => SoundItems items
  | .object members _ => SoundMembers members
  | _ => True

/-- Every number of the items is sound. -/
def Tree.SoundItems : List Tree → Prop
  | [] => True
  | item :: rest => item.Sound ∧ SoundItems rest

/-- Every number of the members is sound. -/
def Tree.SoundMembers : List (Lexeme String × Tree) → Prop
  | [] => True
  | (_, node) :: rest => node.Sound ∧ SoundMembers rest

end

theorem Tree.soundItems_iff (items : List Tree) :
    SoundItems items ↔ ∀ item ∈ items, item.Sound := by
  induction items with
  | nil => simp [SoundItems]
  | cons item items ih => rw [SoundItems, ih, List.forall_mem_cons]

theorem Tree.soundMembers_iff (members : List (Lexeme String × Tree)) :
    SoundMembers members ↔ ∀ member ∈ members, member.2.Sound := by
  induction members with
  | nil => simp [SoundMembers]
  | cons member members ih => rw [SoundMembers, ih, List.forall_mem_cons]

theorem Tree.sound_array {items : List Tree} {ending : Option Fault} :
    (Tree.array items ending).Sound ↔ ∀ item ∈ items, item.Sound :=
  Tree.soundItems_iff items

theorem Tree.sound_object {members : List (Lexeme String × Tree)} {ending : Option Fault} :
    (Tree.object members ending).Sound ↔ ∀ member ∈ members, member.2.Sound :=
  Tree.soundMembers_iff members

/-- Every number of an open container is sound. -/
def Frame.Sound : Frame → Prop
  | .array items => ∀ item ∈ items, item.Sound
  | .object members _ => ∀ member ∈ members, member.2.Sound

/-- Every number that is kept beside the open containers is sound. -/
def Expecting.Sound : Expecting → Prop
  | .name members => ∀ member ∈ members, member.2.Sound
  | .colon members _ => ∀ member ∈ members, member.2.Sound
  | .next node => node.Sound
  | _ => True

theorem Frame.sound_close {frame : Frame} {node : Tree} (hframe : frame.Sound) (hnode : node.Sound)
    (ending : Option Fault) : (frame.close node ending).Sound := by
  cases frame with
  | array items =>
      refine Tree.sound_array.2 fun item hitem => ?_
      rcases List.mem_append.1 hitem with hheld | hnew
      · exact hframe item (List.mem_reverse.1 hheld)
      · exact List.mem_singleton.1 hnew ▸ hnode
  | object members name =>
      refine Tree.sound_object.2 fun member hmember => ?_
      rcases List.mem_append.1 hmember with hheld | hnew
      · exact hframe member (List.mem_reverse.1 hheld)
      · exact List.mem_singleton.1 hnew ▸ hnode

theorem sound_abandon {node : Tree} {stack : List Frame} (hnode : node.Sound)
    (hstack : ∀ frame ∈ stack, frame.Sound) : (abandon node stack).root.Sound := by
  induction stack generalizing node with
  | nil => exact hnode
  | cons frame stack ih =>
      obtain ⟨hframe, hrest⟩ := List.forall_mem_cons.1 hstack
      exact ih (Frame.sound_close hframe hnode none) hrest

theorem Document.sound_begin {token : Token} (htoken : token.Sound) :
    (Document.begin token).Sound := by
  cases token with
  | number literal => exact htoken
  | _ => trivial

/-- The members of an object that is broken off hold no number but those before. -/
theorem Tree.sound_brokenObject {members : List (Lexeme String × Tree)}
    (hmembers : ∀ member ∈ members, member.2.Sound) (name : Lexeme String) (fault : Fault) :
    (Tree.object (members.reverse ++ [(name, .absent fault)]) none).Sound :=
  Frame.sound_close (show (Frame.object members name).Sound from hmembers)
    (show Tree.Sound (.absent fault) from trivial) none

section Arrange

variable {expecting : Expecting} {stack : List Frame} {row : List Token}

/-- One token after the other, everything that is kept stays sound. -/
theorem Document.sound_arrange (hexpecting : expecting.Sound)
    (hstack : ∀ frame ∈ stack, frame.Sound) (hrow : ∀ token ∈ row, token.Sound) :
    (Document.arrange expecting stack row).root.Sound := by
  -- the cases go by what is expected, and for each by the token that comes
  fun_induction Document.arrange expecting stack row with
  | case1 => exact sound_abandon trivial hstack
  | case2 stack token rest ih =>
      obtain ⟨htoken, hrest⟩ := List.forall_mem_cons.1 hrow
      exact ih (sound_begin htoken) hstack hrest
  | case3 => exact sound_abandon trivial hstack
  | case4 stack rest ih => exact ih trivial hstack (List.forall_mem_cons.1 hrow).2
  | case5 stack token rest hitem ih =>
      obtain ⟨htoken, hrest⟩ := List.forall_mem_cons.1 hrow
      exact ih (sound_begin htoken) (List.forall_mem_cons.2 ⟨List.forall_mem_nil _, hstack⟩) hrest
  | case6 => exact sound_abandon trivial hstack
  | case7 stack rest ih => exact ih trivial hstack (List.forall_mem_cons.1 hrow).2
  | case8 stack name rest ih =>
      exact ih (List.forall_mem_nil _) hstack (List.forall_mem_cons.1 hrow).2
  | case9 => exact sound_abandon trivial hstack
  | case10 members stack name rest ih =>
      exact ih hexpecting hstack (List.forall_mem_cons.1 hrow).2
  | case11 => exact sound_abandon (Tree.sound_brokenObject hexpecting _ _) hstack
  | case12 => exact sound_abandon (Tree.sound_brokenObject hexpecting _ _) hstack
  | case13 members name stack rest ih =>
      exact ih trivial (List.forall_mem_cons.2 ⟨hexpecting, hstack⟩)
        (List.forall_mem_cons.1 hrow).2
  | case14 => exact sound_abandon (Tree.sound_brokenObject hexpecting _ _) hstack
  | case15 => exact sound_abandon (Tree.sound_brokenObject hexpecting _ _) hstack
  | case16 => exact hexpecting
  | case17 node items stack rest ih =>
      obtain ⟨hframe, hbelow⟩ := List.forall_mem_cons.1 hstack
      have hitems : (Frame.array (node :: items)).Sound :=
        List.forall_mem_cons.2 ⟨hexpecting, hframe⟩
      exact ih trivial (List.forall_mem_cons.2 ⟨hitems, hbelow⟩) (List.forall_mem_cons.1 hrow).2
  | case18 node items stack rest ih =>
      obtain ⟨hframe, hbelow⟩ := List.forall_mem_cons.1 hstack
      exact ih (Frame.sound_close hframe hexpecting none) hbelow (List.forall_mem_cons.1 hrow).2
  | case19 node members name stack rest ih =>
      obtain ⟨hframe, hbelow⟩ := List.forall_mem_cons.1 hstack
      exact ih (List.forall_mem_cons.2 ⟨hexpecting, hframe⟩) hbelow
        (List.forall_mem_cons.1 hrow).2
  | case20 node members name stack rest ih =>
      obtain ⟨hframe, hbelow⟩ := List.forall_mem_cons.1 hstack
      exact ih (Frame.sound_close hframe hexpecting none) hbelow (List.forall_mem_cons.1 hrow).2
  | case21 node frame stack =>
      obtain ⟨hframe, hbelow⟩ := List.forall_mem_cons.1 hstack
      exact sound_abandon (Frame.sound_close hframe hexpecting _) hbelow
  | case22 node frame stack =>
      obtain ⟨hframe, hbelow⟩ := List.forall_mem_cons.1 hstack
      exact sound_abandon (Frame.sound_close hframe hexpecting _) hbelow

end Arrange

/-- Every number of the tree of a text is sound. -/
theorem Document.sound_ofText (text : String) : (Document.ofText text).root.Sound :=
  Document.sound_arrange trivial (List.forall_mem_nil _) (sound_scan text.toList)

/-! ## Values -/

section Values

variable {levels : Nat}

open EditPipeline.Json.Tree (toJson toJsonItems toJsonMembers)

theorem Lexeme.get_eq_ok {α : Type} {literal : Lexeme α} {a : α} (hget : literal.get = .ok a) :
    literal.value = .ok a := by
  unfold Lexeme.get at hget
  split at hget
  · rename_i hvalue
    cases hget
    exact hvalue
  · cases hget

mutual

/-- A value that is read from a sound tree fits the levels of the reader. -/
theorem fits_of_toJson : ∀ (levels : Nat) (node : Tree) {value : Json}, node.Sound →
    toJson levels node = .ok value → Fits levels value
  | levels, .null, _, _, hread => by
      cases hread
      exact fits_null levels
  | levels, .bool b, _, _, hread => by
      cases hread
      exact ⟨trivial, Nat.zero_le levels⟩
  | levels, .number literal, value, hsound, hread => by
      obtain ⟨number, hnumber, rfl⟩ := map_eq_ok_iff.1 hread
      refine ⟨?_, Nat.zero_le levels⟩
      cases number with
      | integer n => exact hsound n (Lexeme.get_eq_ok hnumber)
      | float x => trivial
  | levels, .string literal, value, _, hread => by
      obtain ⟨s, -, rfl⟩ := map_eq_ok_iff.1 hread
      exact ⟨trivial, Nat.zero_le levels⟩
  | 0, .array items ending, _, _, hread => nomatch hread
  | levels + 1, .array items ending, value, hsound, hread => by
      obtain ⟨values, hvalues, hrest⟩ := bind_eq_ok_iff.1 hread
      obtain ⟨-, -, hvalue⟩ := bind_eq_ok_iff.1 hrest
      cases hvalue
      exact fits_array.2 (fits_of_toJsonItems levels items hsound hvalues)
  | 0, .object members ending, _, _, hread => nomatch hread
  | levels + 1, .object members ending, value, hsound, hread => by
      obtain ⟨values, hvalues, hrest⟩ := bind_eq_ok_iff.1 hread
      obtain ⟨-, -, hvalue⟩ := bind_eq_ok_iff.1 hrest
      cases hvalue
      exact fits_object.2 (fits_of_toJsonMembers levels members hsound .nil
        (List.forall_mem_nil _) hvalues)

theorem fits_of_toJsonItems : ∀ (levels : Nat) (items : List Tree) {values : List Json},
    Tree.SoundItems items → toJsonItems levels items = .ok values →
      ∀ value ∈ values, Fits levels value
  | _, [], _, _, hread => by
      cases hread
      exact List.forall_mem_nil _
  | levels, item :: items, _, hsound, hread => by
      obtain ⟨value, hvalue, hrest⟩ := bind_eq_ok_iff.1 hread
      obtain ⟨values, hvalues, hall⟩ := bind_eq_ok_iff.1 hrest
      cases hall
      exact List.forall_mem_cons.2 ⟨fits_of_toJson levels item hsound.1 hvalue,
        fits_of_toJsonItems levels items hsound.2 hvalues⟩

/-- The members that were read before are in order and fit, and so are all. -/
theorem fits_of_toJsonMembers : ∀ (levels : Nat) (members : List (Lexeme String × Tree))
    {held values : List (String × Json)}, Tree.SoundMembers members →
      (held.map Prod.fst).Pairwise (· < ·) → (∀ member ∈ held, Fits levels member.2) →
        toJsonMembers levels held members = .ok values →
          (values.map Prod.fst).Pairwise (· < ·) ∧ ∀ member ∈ values, Fits levels member.2
  | _, [], _, _, _, hsorted, hheld, hread => by
      cases hread
      exact ⟨hsorted, hheld⟩
  | levels, (literal, node) :: members, held, _, hsound, hsorted, hheld, hread => by
      obtain ⟨name, -, hrest⟩ := bind_eq_ok_iff.1 hread
      obtain ⟨value, hvalue, hvalues⟩ := bind_eq_ok_iff.1 hrest
      have hfits := fits_of_toJson levels node hsound.1 hvalue
      refine fits_of_toJsonMembers levels members hsound.2 (sorted_insertMember hsorted) ?_ hvalues
      intro member hmember
      rcases mem_insertMember hmember with rfl | hold
      · exact hfits
      · exact hheld member hold

end

end Values

end EditPipeline.Json
