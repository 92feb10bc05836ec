import EditPipeline.Proofs.Json.Grammar
import Mathlib.Data.List.Forall2

/-!
# The two layouts are JSON texts

Both layouts of a value are texts of the grammar, and of the same tree, `tree value`: they
differ in spaces only.  This is proved along the value, once for each layout.  The layouts put
their pieces between brackets and with commas between them, so the two lemmas
`itemsText_separated` and `membersText_separated` carry both.

The numbers of the value must be `Exact`: a double need not be scanned back, and an integer
that does not fit into 64 bits is scanned as a double.  Nothing is asked of the order of
members, since a record is written in the order of its fields.
-/

namespace EditPipeline.Json

/-! ## Values whose numbers come back -/

mutual

/-- Every number of the value is an integer that fits into 64 bits. -/
def Exact : Json → Prop
  | .number (.integer n) => IsWord n
  | .number (.float _) => False
  | .array items => ExactItems items
  | .object members => ExactMembers members
  | _ => True

/-- Every number of the items is such an integer. -/
def ExactItems : List Json → Prop
  | [] => True
  | item :: rest => Exact item ∧ ExactItems rest

/-- Every number of the members' values is such an integer. -/
def ExactMembers : List (String × Json) → Prop
  | [] => True
  | (_, value) :: rest => Exact value ∧ ExactMembers rest

end

theorem exactItems_iff (items : List Json) : ExactItems items ↔ ∀ item ∈ items, Exact item := by
  induction items with
  | nil => simp [ExactItems]
  | cons item items ih => rw [ExactItems, ih, List.forall_mem_cons]

theorem exactMembers_iff (members : List (String × Json)) :
    ExactMembers members ↔ ∀ member ∈ members, Exact member.2 := by
  induction members with
  | nil => simp [ExactMembers]
  | cons member members ih => rw [ExactMembers, ih, List.forall_mem_cons]

theorem exact_array {items : List Json} : Exact (.array items) ↔ ∀ item ∈ items, Exact item :=
  exactItems_iff items

theorem exact_object {members : List (String × Json)} :
    Exact (.object members) ↔ ∀ member ∈ members, Exact member.2 :=
  exactMembers_iff members

mutual

/-- The numbers of a canonical value come back if none is a double. -/
theorem exact_of_canonical : ∀ {value : Json}, Canonical value → FloatFree value → Exact value
  | .null, _, _ => trivial
  | .bool _, _, _ => trivial
  | .number (.integer _), hword, _ => hword
  | .number (.float _), _, hfree => hfree.elim
  | .string _, _, _ => trivial
  | .array _, hcanonical, hfree => exactItems_of_canonical hcanonical hfree
  | .object _, hcanonical, hfree => exactMembers_of_canonical hcanonical.2 hfree

theorem exactItems_of_canonical : ∀ {items : List Json}, CanonicalItems items →
    FloatFreeItems items → ExactItems items
  | [], _, _ => trivial
  | _ :: _, hcanonical, hfree =>
      ⟨exact_of_canonical hcanonical.1 hfree.1, exactItems_of_canonical hcanonical.2 hfree.2⟩

theorem exactMembers_of_canonical : ∀ {members : List (String × Json)}, CanonicalMembers members →
    FloatFreeMembers members → ExactMembers members
  | [], _, _ => trivial
  | (_, _) :: _, hcanonical, hfree =>
      ⟨exact_of_canonical hcanonical.1 hfree.1, exactMembers_of_canonical hcanonical.2 hfree.2⟩

end

/-! ## The tree of a value -/

mutual

/-- The tree of a value that was written, without any fault. -/
def tree : Json → Tree
  | .null => .null
  | .bool b => .bool b
  | .number n => .number (.ok n)
  | .string s => .string (.ok s)
  | .array items => .array (itemTrees items) none
  | .object members => .object (memberTrees members) none

/-- The tree of each item. -/
def itemTrees : List Json → List Tree
  | [] => []
  | item :: rest => tree item :: itemTrees rest

/-- The name and the tree of each member. -/
def memberTrees : List (String × Json) → List (Lexeme String × Tree)
  | [] => []
  | (name, value) :: rest => (.ok name, tree value) :: memberTrees rest

end

/-! ## Pieces between brackets -/

section Pieces

variable {blank before after : List Char}

/-- Items with a comma and spaces between each two of them. -/
theorem itemsText_separated (hblank : Blank blank) {pieces : List (List Char)} {items : List Tree}
    (hpieces : List.Forall₂ ValueText pieces items) (hbefore : Blank before) (hafter : Blank after)
    (hne : pieces ≠ []) :
    ItemsText (before ++ (separated (',' :: blank) pieces ++ after)) items := by
  induction hpieces generalizing before with
  | nil => exact absurd rfl hne
  | @cons piece item pieces items hpiece hmore ih =>
      cases hmore with
      | nil => exact .last hbefore hpiece hafter
      | cons hsecond hmore =>
          have hrest := ih hblank (List.cons_ne_nil _ _)
          have htext := ItemsText.cons hbefore hpiece blank_nil hrest
          simpa [separated] using htext

/-- A member of an object that begins where its name does. -/
inductive MemberText : List Char → Lexeme String × Tree → Prop
  | mk {front text : List Char} {name : Lexeme String} {node : Tree}
      (hname : NameText front name) (htext : ValueText text node) :
      MemberText (front ++ text) (name, node)

theorem NameText.blank_append {text : List Char} {name : Lexeme String} (hname : NameText text name)
    (hblank : Blank blank) : NameText (blank ++ text) name := by
  cases hname with
  | mk hbefore htext hbetween hafter =>
      rw [← List.append_assoc]
      exact .mk (List.forall_mem_append.2 ⟨hblank, hbefore⟩) htext hbetween hafter

/-- Members with a comma and spaces between each two of them. -/
theorem membersText_separated (hblank : Blank blank) {pieces : List (List Char)}
    {members : List (Lexeme String × Tree)} (hpieces : List.Forall₂ MemberText pieces members)
    (hbefore : Blank before) (hafter : Blank after) (hne : pieces ≠ []) :
    MembersText (before ++ (separated (',' :: blank) pieces ++ after)) members := by
  induction hpieces generalizing before with
  | nil => exact absurd rfl hne
  | @cons piece member pieces members hpiece hmore ih =>
      obtain ⟨hname, htext⟩ := hpiece
      have hname := hname.blank_append hbefore
      cases hmore with
      | nil => simpa [separated] using MembersText.last hname htext hafter
      | cons hsecond hmore =>
          have hrest := ih hblank (List.cons_ne_nil _ _)
          have htext := MembersText.cons hname htext blank_nil hrest
          simpa [separated] using htext

theorem memberText_quote {text : List Char} {node : Tree} (name : String) (hblank : Blank blank)
    (htext : ValueText text node) :
    MemberText (quote name ++ ':' :: (blank ++ text)) (.ok name, node) := by
  have hname : NameText ([] ++ (quote name ++ ([] ++ ':' :: blank))) (.ok name) :=
    .mk blank_nil (stringText_quote name) blank_nil hblank
  simpa using MemberText.mk hname htext

end Pieces

/-! ## The layout without spaces -/

mutual

theorem valueText_compact : ∀ {value : Json}, Exact value → ValueText (compact value) (tree value)
  | .null, _ => .null
  | .bool true, _ => .bool_true
  | .bool false, _ => .bool_false
  | .number (.integer n), hword => by
      have htext := ValueText.number (numberText_intChars n)
      rwa [Numeral.lexeme_ofInt hword] at htext
  | .string s, _ => .string (stringText_quote s)
  | .array [], _ => .emptyArray blank_nil
  | .array (item :: items), hexact => by
      have hitems := itemsText_separated blank_nil (itemTexts_compact hexact) blank_nil blank_nil
        (List.cons_ne_nil _ _)
      simpa [compact, tree] using ValueText.array hitems
  | .object [], _ => .emptyObject blank_nil
  | .object (member :: members), hexact => by
      have hmembers := membersText_separated blank_nil (memberTexts_compact hexact) blank_nil
        blank_nil (List.cons_ne_nil _ _)
      simpa [compact, tree] using ValueText.object hmembers

theorem itemTexts_compact : ∀ {items : List Json}, ExactItems items →
    List.Forall₂ ValueText (compactItems items) (itemTrees items)
  | [], _ => .nil
  | _ :: _, hexact => .cons (valueText_compact hexact.1) (itemTexts_compact hexact.2)

theorem memberTexts_compact : ∀ {members : List (String × Json)}, ExactMembers members →
    List.Forall₂ MemberText (compactMembers members) (memberTrees members)
  | [], _ => .nil
  | (name, _) :: _, hexact =>
      .cons (memberText_quote name blank_nil (valueText_compact hexact.1))
        (memberTexts_compact hexact.2)

end

/-! ## The indented layout -/

theorem blank_lineBreak (level : Nat) : Blank (lineBreak level) := by
  intro c hc
  rcases List.mem_cons.1 hc with rfl | hspace
  · rfl
  · rw [List.eq_of_mem_replicate hspace]
    rfl

theorem blank_space : Blank [' '] := by
  intro c hc
  rw [List.mem_singleton.1 hc]
  rfl

mutual

theorem valueText_prettyAt : ∀ (level : Nat) {value : Json}, Exact value →
    ValueText (prettyAt level value) (tree value)
  | _, .null, _ => .null
  | _, .bool true, _ => .bool_true
  | _, .bool false, _ => .bool_false
  | _, .number (.integer n), hword => by
      have htext := ValueText.number (numberText_intChars n)
      rwa [Numeral.lexeme_ofInt hword] at htext
  | _, .string s, _ => .string (stringText_quote s)
  | _, .array [], _ => .emptyArray blank_nil
  | level, .array (item :: items), hexact => by
      have hitems := itemsText_separated (blank_lineBreak (level + 1))
        (itemTexts_pretty (level + 1) hexact) (blank_lineBreak (level + 1))
        (blank_lineBreak level) (List.cons_ne_nil _ _)
      simpa [prettyAt, block, prettyItems, tree] using ValueText.array hitems
  | _, .object [], _ => .emptyObject blank_nil
  | level, .object (member :: members), hexact => by
      have hmembers := membersText_separated (blank_lineBreak (level + 1))
        (memberTexts_pretty (level + 1) hexact) (blank_lineBreak (level + 1))
        (blank_lineBreak level) (List.cons_ne_nil _ _)
      simpa [prettyAt, block, prettyMembers, tree] using ValueText.object hmembers

theorem itemTexts_pretty : ∀ (level : Nat) {items : List Json}, ExactItems items →
    List.Forall₂ ValueText (prettyItems level items) (itemTrees items)
  | _, [], _ => .nil
  | level, _ :: _, hexact =>
      .cons (valueText_prettyAt level hexact.1) (itemTexts_pretty level hexact.2)

theorem memberTexts_pretty : ∀ (level : Nat) {members : List (String × Json)},
    ExactMembers members →
      List.Forall₂ MemberText (prettyMembers level members) (memberTrees members)
  | _, [], _ => .nil
  | level, (name, _) :: _, hexact =>
      .cons (memberText_quote name blank_space (valueText_prettyAt level hexact.1))
        (memberTexts_pretty level hexact.2)

end

/-! ## Whole texts -/

theorem jsonText_ofList {text : List Char} {node : Tree} (htext : ValueText text node) :
    JsonText (String.ofList text) node :=
  .mk blank_nil htext blank_nil (by simp)

/-- The text without spaces is a text of the value's tree. -/
theorem jsonText_compactText {value : Json} (hexact : Exact value) :
    JsonText value.compactText (tree value) :=
  jsonText_ofList (valueText_compact hexact)

/-- So is the indented text. -/
theorem jsonText_prettyText {value : Json} (hexact : Exact value) :
    JsonText value.prettyText (tree value) :=
  jsonText_ofList (valueText_prettyAt 0 hexact)

end EditPipeline.Json
