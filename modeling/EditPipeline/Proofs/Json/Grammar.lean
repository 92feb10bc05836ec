import EditPipeline.Json.Decode
import EditPipeline.Proofs.Json.Literals

/-!
# The grammar of JSON texts

`ValueText text node` says that a text is a JSON value, and which tree it stands for.  Space
may stand between any two tokens, members may come in any order and their names more than once,
and a literal may be one that has no value.  `JsonText` is the grammar of a whole text.

Every text of the grammar is arranged into its tree, whatever containers are open around it and
whatever follows it (`ValueText.reads`).  Values, items and members prove this of each other,
along the derivation of the text.  Nothing can be wrong with such a tree for a reader that skips
it (`ValueText.fault?_eq_none`), not even a number that is too large.
-/

namespace EditPipeline.Json

/-! ## Space and marks -/

/-- A text of spaces. -/
def Blank (text : List Char) : Prop := ∀ c ∈ text, isSpace c = true

theorem blank_nil : Blank [] := fun _ hc => absurd hc List.not_mem_nil

theorem scan_blank {text : List Char} (hblank : Blank text) (rest : List Char) :
    scan (text ++ rest) = scan rest := by
  induction text with
  | nil => rfl
  | cons c text ih =>
      obtain ⟨hc, htext⟩ := List.forall_mem_cons.1 hblank
      rw [List.cons_append, scan, if_pos hc, ih htext]

theorem endsNumber_of_isSpace {c : Char} (hc : isSpace c = true) (rest : List Char) :
    EndsNumber (c :: rest) := by
  refine endsNumber_cons rest ?_
  unfold isSpace at hc
  simp only [Bool.or_eq_true, decide_eq_true_eq] at hc
  rcases hc with ((rfl | rfl) | rfl) | rfl <;> decide

/-- A number ends before spaces if it does before what stands after them. -/
theorem endsNumber_blank {text rest : List Char} (hblank : Blank text) (hrest : EndsNumber rest) :
    EndsNumber (text ++ rest) := by
  cases text with
  | nil => exact hrest
  | cons c text => exact endsNumber_of_isSpace (hblank c List.mem_cons_self) _

/-- A character that is a token by itself. -/
def IsMark (c : Char) (token : Token) : Prop :=
  isSpace c = false ∧ ∀ rest, scanToken c rest = ⟨token, rest⟩

theorem scan_mark {c : Char} {token : Token} (hmark : IsMark c token) (rest : List Char) :
    scan (c :: rest) = token :: scan rest := by
  rw [scan, hmark.1, if_neg (by decide), hmark.2]

theorem isMark_comma : IsMark ',' .comma := ⟨rfl, fun _ => rfl⟩
theorem isMark_colon : IsMark ':' .colon := ⟨rfl, fun _ => rfl⟩
theorem isMark_openArray : IsMark '[' .openArray := ⟨rfl, fun _ => rfl⟩
theorem isMark_closeArray : IsMark ']' .closeArray := ⟨rfl, fun _ => rfl⟩
theorem isMark_openObject : IsMark '\x7b' .openObject := ⟨rfl, fun _ => rfl⟩
theorem isMark_closeObject : IsMark '\x7d' .closeObject := ⟨rfl, fun _ => rfl⟩

/-! ## The grammar -/

/-- The text of a member's name, with the colon after it. -/
inductive NameText : List Char → Lexeme String → Prop
  | mk {before text between after : List Char} {name : Lexeme String} (hbefore : Blank before)
      (htext : StringText text name) (hbetween : Blank between) (hafter : Blank after) :
      NameText (before ++ (text ++ (between ++ ':' :: after))) name

mutual

/-- A value, without space around it. -/
inductive ValueText : List Char → Tree → Prop
  | null : ValueText ['n', 'u', 'l', 'l'] .null
  | bool_true : ValueText ['t', 'r', 'u', 'e'] (.bool true)
  | bool_false : ValueText ['f', 'a', 'l', 's', 'e'] (.bool false)
  | number {text : List Char} {x : Numeral} (htext : NumberText text x) :
      ValueText text (.number x.lexeme)
  | string {text : List Char} {s : Lexeme String} (htext : StringText text s) :
      ValueText text (.string s)
  | emptyArray {gap : List Char} (hgap : Blank gap) : ValueText ('[' :: (gap ++ [']'])) (.array [] none)
  | array {text : List Char} {items : List Tree} (hitems : ItemsText text items) :
      ValueText ('[' :: (text ++ [']'])) (.array items none)
  | emptyObject {gap : List Char} (hgap : Blank gap) :
      ValueText ('\x7b' :: (gap ++ ['\x7d'])) (.object [] none)
  | object {text : List Char} {members : List (Lexeme String × Tree)}
      (hmembers : MembersText text members) :
      ValueText ('\x7b' :: (text ++ ['\x7d'])) (.object members none)

/-- The items of an array, at least one. -/
inductive ItemsText : List Char → List Tree → Prop
  | last {before text after : List Char} {node : Tree} (hbefore : Blank before)
      (htext : ValueText text node) (hafter : Blank after) :
      ItemsText (before ++ (text ++ after)) [node]
  | cons {before text after more : List Char} {node : Tree} {items : List Tree}
      (hbefore : Blank before) (htext : ValueText text node) (hafter : Blank after)
      (hmore : ItemsText more items) :
      ItemsText (before ++ (text ++ (after ++ ',' :: more))) (node :: items)

/-- The members of an object, at least one. -/
inductive MembersText : List Char → List (Lexeme String × Tree) → Prop
  | last {front text after : List Char} {name : Lexeme String} {node : Tree}
      (hname : NameText front name) (htext : ValueText text node) (hafter : Blank after) :
      MembersText (front ++ (text ++ after)) [(name, node)]
  | cons {front text after more : List Char} {name : Lexeme String} {node : Tree}
      {members : List (Lexeme String × Tree)} (hname : NameText front name)
      (htext : ValueText text node) (hafter : Blank after) (hmore : MembersText more members) :
      MembersText (front ++ (text ++ (after ++ ',' :: more))) ((name, node) :: members)

end

/-- A whole text: a value with space around it. -/
inductive JsonText : String → Tree → Prop
  | mk {document : String} {before text after : List Char} {node : Tree} (hbefore : Blank before)
      (htext : ValueText text node) (hafter : Blank after)
      (hdocument : document.toList = before ++ (text ++ after)) : JsonText document node

/-! ## Arranging a value

A value is read with the containers `stack` around it and the text `rest` after it. -/

open Document (arrange)

section Arrange

variable {text : List Char} {node : Tree}

theorem scan_name {name : Lexeme String} (hname : NameText text name) (rest : List Char) :
    scan (text ++ rest) = .string name :: .colon :: scan rest := by
  cases hname with
  | @mk before quoted between after _ hbefore hquoted hbetween hafter =>
      calc scan (before ++ (quoted ++ (between ++ ':' :: after)) ++ rest)
          = scan (before ++ (quoted ++ (between ++ ':' :: (after ++ rest)))) := by simp
        _ = .string name :: .colon :: scan rest := by
            rw [scan_blank hbefore, scan_string hquoted, scan_blank hbetween,
              scan_mark isMark_colon, scan_blank hafter]

/-- A literal is one token. -/
theorem arrange_literal (token : Token) {rest : List Char} (stack : List Frame)
    (hscan : scan (text ++ rest) = token :: scan rest)
    (hbegin : Document.begin token = .next node) :
    arrange .value stack (scan (text ++ rest)) = arrange (.next node) stack (scan rest) := by
  rw [hscan, arrange, hbegin]

theorem scan_word {c : Char} {word : List Char} (token : Token) (hspace : isSpace c = false)
    (htoken : ∀ rest, scanToken c (word ++ rest) = ⟨token, rest⟩) (rest : List Char) :
    scan (c :: word ++ rest) = token :: scan rest := by
  rw [List.cons_append, scan, hspace, if_neg (by decide), htoken]

/-- No value begins with the end of an array. -/
theorem ValueText.first_token (htext : ValueText text node) {rest : List Char}
    (hrest : EndsNumber rest) :
    ∃ token row, scan (text ++ rest) = token :: row ∧ token ≠ .closeArray := by
  cases htext with
  | null => exact ⟨_, _, scan_word .null rfl (fun _ => rfl) rest, nofun⟩
  | bool_true => exact ⟨_, _, scan_word (.bool true) rfl (fun _ => rfl) rest, nofun⟩
  | bool_false => exact ⟨_, _, scan_word (.bool false) rfl (fun _ => rfl) rest, nofun⟩
  | number htext => exact ⟨_, _, scan_number htext hrest, nofun⟩
  | string htext => exact ⟨_, _, scan_string htext rest, nofun⟩
  | emptyArray _ => exact ⟨_, _, scan_mark isMark_openArray _, nofun⟩
  | array _ => exact ⟨_, _, scan_mark isMark_openArray _, nofun⟩
  | emptyObject _ => exact ⟨_, _, scan_mark isMark_openObject _, nofun⟩
  | object _ => exact ⟨_, _, scan_mark isMark_openObject _, nofun⟩

theorem arrange_firstItem {token : Token} (htoken : token ≠ .closeArray) (stack : List Frame)
    (row : List Token) :
    arrange .firstItem stack (token :: row) = arrange .value (.array [] :: stack) (token :: row) := by
  cases token with
  | closeArray => exact absurd rfl htoken
  | _ => rfl

/-- The first item of an array is a value. -/
theorem ItemsText.first_item {items : List Tree} (hitems : ItemsText text items)
    (stack : List Frame) (rest : List Char) :
    arrange .firstItem stack (scan (text ++ ']' :: rest)) =
      arrange .value (.array [] :: stack) (scan (text ++ ']' :: rest)) := by
  have hclose : EndsNumber (']' :: rest) := endsNumber_cons rest (by decide)
  cases hitems with
  | @last before item after node hbefore hitem hafter =>
      obtain ⟨token, row, hscan, htoken⟩ := hitem.first_token (endsNumber_blank hafter hclose)
      rw [List.append_assoc, scan_blank hbefore, List.append_assoc, hscan,
        arrange_firstItem htoken]
  | @cons before item after more node items hbefore hitem hafter hmore =>
      have hcomma : EndsNumber (after ++ ',' :: (more ++ ']' :: rest)) :=
        endsNumber_blank hafter (endsNumber_cons _ (by decide))
      obtain ⟨token, row, hscan, htoken⟩ := hitem.first_token hcomma
      rw [List.append_assoc, scan_blank hbefore, List.append_assoc, List.append_assoc,
        List.cons_append, hscan, arrange_firstItem htoken]

/-- The first member of an object is like any other one. -/
theorem MembersText.first_member {members : List (Lexeme String × Tree)}
    (hmembers : MembersText text members) (stack : List Frame) (rest : List Char) :
    arrange .firstName stack (scan (text ++ rest)) =
      arrange (.name []) stack (scan (text ++ rest)) := by
  cases hmembers with
  | last hname _ _ => rw [List.append_assoc, scan_name hname]; rfl
  | cons hname _ _ _ => rw [List.append_assoc, scan_name hname]; rfl

mutual

/-- A value is arranged into its tree. -/
theorem ValueText.reads : ∀ {text : List Char} {node : Tree}, ValueText text node →
    ∀ (stack : List Frame) {rest : List Char}, EndsNumber rest →
      arrange .value stack (scan (text ++ rest)) = arrange (.next node) stack (scan rest)
  | _, _, .null, stack, rest, _ =>
      arrange_literal _ stack (scan_word .null rfl (fun _ => rfl) rest) rfl
  | _, _, .bool_true, stack, rest, _ =>
      arrange_literal _ stack (scan_word (.bool true) rfl (fun _ => rfl) rest) rfl
  | _, _, .bool_false, stack, rest, _ =>
      arrange_literal _ stack (scan_word (.bool false) rfl (fun _ => rfl) rest) rfl
  | _, _, .number htext, stack, _, hrest => arrange_literal _ stack (scan_number htext hrest) rfl
  | _, _, .string htext, stack, rest, _ => arrange_literal _ stack (scan_string htext rest) rfl
  | _, _, @ValueText.emptyArray gap hgap, stack, rest, _ => by
      rw [List.cons_append, List.append_assoc, List.singleton_append, scan_mark isMark_openArray,
        scan_blank hgap, scan_mark isMark_closeArray]
      rfl
  | _, _, @ValueText.array text items hitems, stack, rest, _ => by
      rw [List.cons_append, List.append_assoc, List.singleton_append, scan_mark isMark_openArray]
      show arrange .firstItem stack (scan (text ++ ']' :: rest)) = _
      rw [hitems.first_item, hitems.reads]
      rfl
  | _, _, @ValueText.emptyObject gap hgap, stack, rest, _ => by
      rw [List.cons_append, List.append_assoc, List.singleton_append, scan_mark isMark_openObject,
        scan_blank hgap, scan_mark isMark_closeObject]
      rfl
  | _, _, @ValueText.object text members hmembers, stack, rest, _ => by
      rw [List.cons_append, List.append_assoc, List.singleton_append, scan_mark isMark_openObject]
      show arrange .firstName stack (scan (text ++ '\x7d' :: rest)) = _
      rw [hmembers.first_member, hmembers.reads]
      rfl

/-- Items are put behind those that are held. -/
theorem ItemsText.reads : ∀ {text : List Char} {items : List Tree}, ItemsText text items →
    ∀ (held : List Tree) (stack : List Frame) (rest : List Char),
      arrange .value (.array held :: stack) (scan (text ++ ']' :: rest)) =
        arrange (.next (.array (held.reverse ++ items) none)) stack (scan rest)
  | _, _, @ItemsText.last before text after node hbefore htext hafter, held, stack, rest => by
      have hclose : EndsNumber (after ++ ']' :: rest) :=
        endsNumber_blank hafter (endsNumber_cons rest (by decide))
      rw [List.append_assoc, scan_blank hbefore, List.append_assoc, htext.reads _ hclose,
        scan_blank hafter, scan_mark isMark_closeArray]
      rfl
  | _, _, @ItemsText.cons before text after more node items hbefore htext hafter hmore, held, stack,
      rest => by
      have hcomma : EndsNumber (after ++ ',' :: (more ++ ']' :: rest)) :=
        endsNumber_blank hafter (endsNumber_cons _ (by decide))
      rw [List.append_assoc, scan_blank hbefore, List.append_assoc, List.append_assoc,
        List.cons_append, htext.reads _ hcomma, scan_blank hafter, scan_mark isMark_comma]
      show arrange .value (.array (node :: held) :: stack) _ = _
      rw [hmore.reads, List.reverse_cons, List.append_assoc, List.singleton_append]

/-- So are members. -/
theorem MembersText.reads : ∀ {text : List Char} {members : List (Lexeme String × Tree)},
    MembersText text members →
    ∀ (held : List (Lexeme String × Tree)) (stack : List Frame) (rest : List Char),
      arrange (.name held) stack (scan (text ++ '\x7d' :: rest)) =
        arrange (.next (.object (held.reverse ++ members) none)) stack (scan rest)
  | _, _, @MembersText.last front text after name node hname htext hafter, held, stack, rest => by
      have hclose : EndsNumber (after ++ '\x7d' :: rest) :=
        endsNumber_blank hafter (endsNumber_cons rest (by decide))
      rw [List.append_assoc, scan_name hname, List.append_assoc]
      show arrange .value (.object held name :: stack) _ = _
      rw [htext.reads _ hclose, scan_blank hafter, scan_mark isMark_closeObject]
      rfl
  | _, _, @MembersText.cons front text after more name node members hname htext hafter hmore, held,
      stack, rest => by
      have hcomma : EndsNumber (after ++ ',' :: (more ++ '\x7d' :: rest)) :=
        endsNumber_blank hafter (endsNumber_cons _ (by decide))
      rw [List.append_assoc, scan_name hname, List.append_assoc, List.append_assoc,
        List.cons_append]
      show arrange .value (.object held name :: stack) _ = _
      rw [htext.reads _ hcomma, scan_blank hafter, scan_mark isMark_comma]
      show arrange (.name ((name, node) :: held)) stack _ = _
      rw [hmore.reads, List.reverse_cons, List.append_assoc, List.singleton_append]

end

end Arrange

/-! ## Skipping a value -/

theorem Numeral.skipped_lexeme (x : Numeral) : x.lexeme.skipped = none := by
  unfold Numeral.lexeme
  split <;> rfl

theorem StringText.skipped {text : List Char} {s : Lexeme String} (htext : StringText text s) :
    s.skipped = none := by
  cases htext
  rfl

theorem NameText.skipped {text : List Char} {name : Lexeme String} (hname : NameText text name) :
    name.skipped = none := by
  cases hname with
  | mk _ htext _ _ => exact htext.skipped

mutual

/-- A reader that skips a value accepts every text of the grammar. -/
theorem ValueText.fault?_eq_none : ∀ {text : List Char} {node : Tree}, ValueText text node →
    node.fault? = none
  | _, _, .null => rfl
  | _, _, .bool_true => rfl
  | _, _, .bool_false => rfl
  | _, _, .number (x := x) _ => x.skipped_lexeme
  | _, _, .string htext => htext.skipped
  | _, _, .emptyArray _ => rfl
  | _, _, .array hitems => by
      rw [Tree.fault?, hitems.faultItems?_eq_none]
      rfl
  | _, _, .emptyObject _ => rfl
  | _, _, .object hmembers => by
      rw [Tree.fault?, hmembers.faultMembers?_eq_none]
      rfl

theorem ItemsText.faultItems?_eq_none : ∀ {text : List Char} {items : List Tree},
    ItemsText text items → Tree.faultItems? items = none
  | _, _, .last _ htext _ => by
      rw [Tree.faultItems?, htext.fault?_eq_none]
      rfl
  | _, _, .cons _ htext _ hmore => by
      rw [Tree.faultItems?, htext.fault?_eq_none, hmore.faultItems?_eq_none]
      rfl

theorem MembersText.faultMembers?_eq_none : ∀ {text : List Char}
    {members : List (Lexeme String × Tree)}, MembersText text members →
      Tree.faultMembers? members = none
  | _, _, .last hname htext _ => by
      rw [Tree.faultMembers?, hname.skipped, htext.fault?_eq_none]
      rfl
  | _, _, .cons hname htext _ hmore => by
      rw [Tree.faultMembers?, hname.skipped, htext.fault?_eq_none, hmore.faultMembers?_eq_none]
      rfl

end

/-! ## Whole texts -/

/-- A reader of whole texts reads the root where nothing follows it. -/
theorem decode_eq_read {α : Type} {text : String} {root : Tree}
    (hdocument : Document.ofText text = ⟨root, false⟩) (read : Tree → Except Problem α) :
    decode read text = read root := by
  unfold decode
  rw [hdocument]
  dsimp only
  cases read root <;> rfl

theorem JsonText.ofText {text : String} {node : Tree} (htext : JsonText text node) :
    Document.ofText text = ⟨node, false⟩ := by
  cases htext with
  | @mk before inner after _ hbefore hinner hafter hdocument =>
      have hend : scan after = [] := by
        have hblank := scan_blank hafter []
        rwa [List.append_nil, scan] at hblank
      have hends : EndsNumber after := by
        have hblank := endsNumber_blank hafter endsNumber_nil
        rwa [List.append_nil] at hblank
      unfold Document.ofText Document.ofTokens
      rw [hdocument, scan_blank hbefore, hinner.reads [] hends, hend]
      rfl

/-- A reader gets the tree of a text. -/
theorem JsonText.decode {α : Type} {text : String} {node : Tree} (htext : JsonText text node)
    (read : Tree → Except Problem α) : decode read text = read node :=
  decode_eq_read htext.ofText read

theorem JsonText.fault?_eq_none {text : String} {node : Tree} (htext : JsonText text node) :
    node.fault? = none := by
  cases htext with
  | mk _ hinner _ _ => exact hinner.fault?_eq_none

end EditPipeline.Json
