import EditPipeline.Proofs.Toml.Lines
import EditPipeline.Text.Blank

/-!
# The first word of a line

What tokens there are at the front of a line of which only the characters are known: blank ones,
then a word or a bracket.  More characters are blank than the space that the parser knows.  The
others stand in atoms, and an atom that holds one is no key and no scalar (`BeginsOdd`), so where
the text is a document the word is an atom of its own (`BeginsWord`).

No number, date or constant begins with the names of tables and keys (`IsWord`).  Where such a
word is followed by an equals sign it is therefore a key (`Stands.key`), and behind a bracket it
is the name in a header (`Stands.header`), unless the line begins inside a string.
-/

namespace EditPipeline.Toml

variable {tokens more rest : List Lexed} {offset : Nat} {lead gap gap' text word tail : List Char}
  {c : Char} {lexed : Lexed}

/-! ## Characters -/

theorem isBare_cases (hc : isBare c) :
    c.isUpper ∨ c.isLower ∨ c.isDigit ∨ c = '-' ∨ c = '_' := by
  simp only [isBare, Char.isAlphanum, Bool.or_eq_true, decide_eq_true_eq] at hc
  rcases hc with ((halpha | hdigit) | rfl) | rfl
  · rcases (Bool.or_eq_true _ _).mp (halpha : (c.isUpper || c.isLower) = true) with hupper | hlower
    · exact .inl hupper
    · exact .inr (.inl hlower)
  · exact .inr (.inr (.inl hdigit))
  · simp
  · simp

theorem toNat_of_isBare (hc : isBare c) : 45 ≤ c.toNat ∧ c.toNat ≤ 122 := by
  have hbetween : ∀ {low high : Char}, low.val ≤ c.val ∧ c.val ≤ high.val →
      low.toNat ≤ c.toNat ∧ c.toNat ≤ high.toNat := id
  rcases isBare_cases hc with hupper | hlower | hdigit | rfl | rfl
  · obtain ⟨hlow, hhigh⟩ := @hbetween 'A' 'Z' (of_decide_eq_true hupper)
    exact ⟨Nat.le_trans (by decide) hlow, Nat.le_trans hhigh (by decide)⟩
  · obtain ⟨hlow, hhigh⟩ := (Bool.and_eq_true _ _).mp hlower
    obtain ⟨hlow, hhigh⟩ := @hbetween 'a' 'z' ⟨of_decide_eq_true hlow, of_decide_eq_true hhigh⟩
    exact ⟨Nat.le_trans (by decide) hlow, Nat.le_trans hhigh (by decide)⟩
  · obtain ⟨hlow, hhigh⟩ := (Bool.and_eq_true _ _).mp hdigit
    obtain ⟨hlow, hhigh⟩ := @hbetween '0' '9' ⟨of_decide_eq_true hlow, of_decide_eq_true hhigh⟩
    exact ⟨Nat.le_trans (by decide) hlow, Nat.le_trans hhigh (by decide)⟩
  · decide
  · decide

theorem not_isBare_of_isBlank (hc : Text.isBlank c) : isBare c = false := by
  by_contra h
  have hbounds := toNat_of_isBare (Bool.not_eq_false _ ▸ h)
  simp only [Text.isBlank, Bool.or_eq_true, Bool.and_eq_true, decide_eq_true_eq,
    beq_iff_eq] at hc
  omega

/-- A blank character is space, or breaks a line, or begins an atom. -/
theorem isBlank_cases (hc : Text.isBlank c) :
    isSpace c ∨ c = '\n' ∨ c = '\r' ∨ endsAtom c = false := by
  by_contra h
  simp only [not_or, Bool.not_eq_false] at h
  obtain ⟨hspace, hline, hreturn, hends⟩ := h
  simp [endsAtom] at hends
  rcases hends with rfl | rfl | rfl | rfl | rfl | rfl | rfl | rfl | rfl | rfl | rfl | rfl | rfl |
    rfl
  all_goals contradiction

theorem not_endsAtom_of_isBare (hc : isBare c) : endsAtom c = false := by
  by_contra h
  rw [Bool.not_eq_false] at h
  simp [endsAtom] at h
  rcases h with rfl | rfl | rfl | rfl | rfl | rfl | rfl | rfl | rfl | rfl | rfl | rfl | rfl | rfl
  all_goals exact absurd hc (by decide)

theorem isBlank_of_isSpace (hc : isSpace c) : Text.isBlank c := by
  simp only [isSpace, Bool.or_eq_true, decide_eq_true_eq] at hc
  rcases hc with rfl | rfl
  all_goals rfl

/-! ## Blank characters at the front -/

theorem token?_return (h : ∀ more, text ≠ '\n' :: more) : token? ('\r' :: text) = none := by
  unfold token?
  split
  case h_10 hcons => exact absurd (List.cons.inj hcons).2 (h _)
  case h_11 => rfl
  all_goals
    rename_i hcons
    cases hcons
  contradiction

/-- Blank characters that are no space stand in an atom, which can be no key. -/
def BeginsOdd (tokens : List Lexed) : Prop :=
  ∃ c text span more, tokens = ⟨.atom (c :: text), span⟩ :: more ∧ Text.isBlank c

theorem Tiles.blank_front (h : Tiles offset (lead ++ c :: text) tokens)
    (hlead : ∀ d ∈ lead, Text.isBlank d) (hbreak : '\n' ∉ lead) (hc : Text.isBlank c = false) :
    Tiles (offset + byteSize lead) (c :: text) (skipSpace tokens) ∨
      BeginsOdd (skipSpace tokens) := by
  have hspace : isSpace c = false := by
    by_contra hspace
    rw [isBlank_of_isSpace (Bool.not_eq_false _ ▸ hspace)] at hc
    cases hc
  have hafter := h.afterSpace
  cases hodd : lead.dropWhile isSpace with
  | nil =>
      left
      have hall : ∀ d ∈ lead, isSpace d := List.dropWhile_eq_nil_iff.1 hodd
      rw [List.takeWhile_append_of_pos hall, List.dropWhile_append_of_pos hall,
        List.takeWhile_cons_of_neg (by simp [hspace]), List.append_nil,
        List.dropWhile_cons_of_neg (by simp [hspace])] at hafter
      exact hafter
  | cons b odd =>
      right
      have hb : b ∈ lead := (List.dropWhile_suffix _).mem (hodd ▸ List.mem_cons_self)
      have hkept : (lead ++ c :: text).dropWhile isSpace = b :: (odd ++ c :: text) := by
        rw [List.dropWhile_append, hodd]
        rfl
      rw [hkept] at hafter
      rcases isBlank_cases (hlead b hb) with hspace | rfl | rfl | hends
      · have hhead := List.head?_dropWhile_not isSpace lead
        rw [hodd] at hhead
        exact absurd hspace (Bool.not_eq_true _ ▸ hhead)
      · exact absurd hb hbreak
      · -- a return without a line feed is no token
        obtain ⟨token, rest, hreads⟩ := hafter.exists_token
        rw [token?_return] at hreads
        · cases hreads
        · intro more hmore
          cases odd with
          | nil =>
              rw [(List.cons.inj hmore).1] at hc
              cases hc
          | cons d odd =>
              have hd : d ∈ lead := (List.dropWhile_suffix _).mem (by rw [hodd]; simp)
              rw [(List.cons.inj hmore).1] at hd
              exact hbreak hd
      · obtain ⟨piece, more, -, -, htokens, -⟩ := hafter.uncons (token?_atom hends)
        exact ⟨b, _, _, more, htokens, hlead b hb⟩

/-! ## Words -/

/-- The characters that may stand behind a word and the space after it. -/
def Stops (tail : List Char) : Prop := ∀ c ∈ tail.head?, c = '=' ∨ c = ']' ∨ c = '\n'

/-- An atom that begins with a word is the first token.  If it can be a key, then it is the word
alone, and no dot leads on. -/
def BeginsWord (offset : Nat) (word : List Char) (tokens : List Lexed) : Prop :=
  ∃ text span more, tokens = ⟨.atom text, span⟩ :: more ∧ span.start = offset ∧ word <+: text ∧
    (text.all isBare → text = word ∧ ∀ dot rest, skipSpace more ≠ ⟨.dot, dot⟩ :: rest)

theorem Tiles.beginsWord (h : Tiles offset (word ++ (gap ++ tail)) tokens) (hne : word ≠ [])
    (hword : ∀ c ∈ word, isBare c) (hgap : ∀ c ∈ gap, Text.isBlank c) (htail : Stops tail) :
    BeginsWord offset word tokens := by
  obtain ⟨first, later, rfl⟩ := List.exists_cons_of_ne_nil hne
  have hwhole : ∀ c ∈ first :: later, (!endsAtom c) = true := by
    intro c hc
    rw [not_endsAtom_of_isBare (hword c hc)]
    rfl
  have hfirst : endsAtom first = false := not_endsAtom_of_isBare (hword first List.mem_cons_self)
  have hlater : ∀ c ∈ later, (!endsAtom c) = true :=
    fun c hc => hwhole c (List.mem_cons_of_mem first hc)
  rw [List.cons_append] at h
  obtain ⟨piece, more, -, -, rfl, hmore⟩ := h.uncons (token?_atom hfirst)
  rw [List.takeWhile_append_of_pos hlater, ← List.cons_append]
  refine ⟨_, _, more, rfl, rfl, List.prefix_append _ _, fun hbare => ?_⟩
  -- what is taken after the word is blank, and no key has blank characters
  have hnone : (gap ++ tail).takeWhile (!endsAtom ·) = [] := by
    cases hbehind : gap ++ tail with
    | nil => rfl
    | cons d behind =>
        by_cases hends : endsAtom d
        · rw [List.takeWhile_cons_of_neg (by simp [hends])]
        · have hd : isBare d := by
            refine List.all_eq_true.1 hbare d (List.mem_append_right _ ?_)
            rw [hbehind, List.takeWhile_cons_of_pos (by simp [hends])]
            exact List.mem_cons_self
          cases gap with
          | nil =>
              rw [List.nil_append] at hbehind
              rcases htail d (by rw [hbehind]; rfl) with rfl | rfl | rfl
              all_goals exact absurd rfl hends
          | cons e gap =>
              obtain ⟨rfl, -⟩ := List.cons.inj hbehind
              rw [not_isBare_of_isBlank (hgap e List.mem_cons_self)] at hd
              cases hd
  have hbehind : (later ++ (gap ++ tail)).dropWhile (!endsAtom ·) = gap ++ tail := by
    rw [List.dropWhile_append_of_pos hlater]
    conv_rhs => rw [← List.takeWhile_append_dropWhile (p := (!endsAtom ·)) (l := gap ++ tail)]
    rw [hnone, List.nil_append]
  rw [hnone, List.append_nil]
  refine ⟨rfl, fun dot rest hdot => ?_⟩
  have hafter := hmore.afterSpace
  rw [hdot, hbehind] at hafter
  obtain ⟨⟨below, hbelow⟩, -⟩ := hafter.sign rfl
  rw [List.dropWhile_append] at hbelow
  split at hbelow
  · cases tail with
    | nil => cases hbelow
    | cons d tail =>
        rcases htail d rfl with rfl | rfl | rfl
        all_goals exact absurd hbelow (by simp [isSpace])
  · next hkept =>
      cases hrest : gap.dropWhile isSpace with
      | nil => exact hkept (by rw [hrest]; rfl)
      | cons d gap' =>
          rw [hrest] at hbelow
          have hd : d ∈ gap := (List.dropWhile_suffix _).mem (by rw [hrest]; simp)
          have hblank := hgap d hd
          rw [(List.cons.inj hbelow).1] at hblank
          cases hblank

/-! ## Readers at a word -/

theorem exists_of_keyPath?_atom {span : Span} {path : KeyPath}
    (h : keyPath? (⟨.atom text, span⟩ :: more) = some (path, rest)) :
    text.all isBare ∧ moreKeys (more.length + 1) ⟨[], ⟨String.ofList text, span⟩⟩ more =
      some (path, rest) := by
  simp only [keyPath?, key?] at h
  split at h
  · next hbare => exact ⟨hbare, h⟩
  · cases h

theorem BeginsWord.path_eq {path : KeyPath} (h : BeginsWord offset word tokens)
    (hpath : keyPath? tokens = some (path, rest)) :
    ∃ span, path = ⟨[], ⟨String.ofList word, span⟩⟩ ∧ span.start = offset ∧
      ⟨.atom word, span⟩ ∈ tokens := by
  obtain ⟨text, span, more, rfl, hstart, -, hbare⟩ := h
  obtain ⟨hall, hmore⟩ := exists_of_keyPath?_atom hpath
  obtain ⟨rfl, hdot⟩ := hbare hall
  refine ⟨span, ?_, hstart, List.mem_cons_self⟩
  unfold moreKeys at hmore
  split at hmore
  · next hfound => exact absurd hfound (hdot _ _)
  · cases hmore
    rfl

theorem exists_scalarText (tokens : List Lexed) :
    ∃ after, (scalarText tokens).1 = (unbroken tokens).1 ++ after := by
  unfold scalarText
  dsimp only
  split
  · split
    · exact ⟨_, rfl⟩
    · exact ⟨[], (List.append_nil _).symm⟩
  · exact ⟨[], (List.append_nil _).symm⟩

theorem scalar?_of_value?_atom {levels fuel : Nat} {found : Span × Value} {span : Span}
    (h : value? levels fuel (⟨.atom text, span⟩ :: more) = some (found, rest)) :
    ∃ after value, scalar? (text ++ after) = some value := by
  cases fuel with
  | zero => simp [value?] at h
  | succ fuel =>
      rcases value?_cases h with ⟨_, _, _, htokens, -⟩ | ⟨_, _, _, -, htokens, -⟩ |
        ⟨_, _, _, -, htokens, -⟩ | ⟨lexed, inner, -, hscalar, -⟩
      · cases htokens
      · cases htokens
      · cases htokens
      · obtain ⟨after, hafter⟩ := exists_scalarText (⟨.atom text, span⟩ :: more)
        rw [hafter, unbroken, List.append_assoc] at hscalar
        exact ⟨_, _, hscalar⟩

theorem BeginsWord.not_value {levels fuel : Nat} {found : Span × Value}
    (h : BeginsWord offset word tokens) (hword : ∀ after, scalar? (word ++ after) = none) :
    value? levels fuel tokens ≠ some (found, rest) := by
  obtain ⟨text, span, more, rfl, -, ⟨behind, rfl⟩, -⟩ := h
  intro hvalue
  obtain ⟨after, value, hscalar⟩ := scalar?_of_value?_atom hvalue
  rw [List.append_assoc, hword] at hscalar
  cases hscalar

theorem BeginsOdd.not_key {path : KeyPath} (h : BeginsOdd tokens) :
    keyPath? tokens ≠ some (path, rest) := by
  obtain ⟨c, text, span, more, rfl, hblank⟩ := h
  intro hpath
  obtain ⟨hall, -⟩ := exists_of_keyPath?_atom hpath
  rw [List.all_cons, not_isBare_of_isBlank hblank] at hall
  cases hall

theorem BeginsOdd.not_value {levels fuel : Nat} {found : Span × Value} (h : BeginsOdd tokens) :
    value? levels fuel tokens ≠ some (found, rest) := by
  obtain ⟨c, text, span, more, rfl, hblank⟩ := h
  intro hvalue
  obtain ⟨after, value, hscalar⟩ := scalar?_of_value?_atom hvalue
  have hdigit : c.isDigit = false := by
    have hbare := not_isBare_of_isBlank hblank
    simp only [isBare, Char.isAlphanum, Bool.or_eq_false_iff] at hbare
    exact hbare.1.1.2
  have hother : ∀ d, Text.isBlank d = false → c ≠ d := by
    rintro d hd rfl
    rw [hblank] at hd
    cases hd
  have hword : ∀ d below, Text.isBlank d = false → c :: (text ++ after) ≠ d :: below :=
    fun d below hd hsame => hother d hd (List.cons.inj hsame).1
  rw [List.cons_append, scalar?_of_word hdigit ⟨hother '+' rfl, hother '-' rfl⟩ (hword 't' _ rfl)
    (hword 'f' _ rfl) (hword 'i' _ rfl) (hword 'n' _ rfl)] at hscalar
  cases hscalar

theorem BeginsOdd.not_continues (h : BeginsOdd tokens) : ¬ Continues tokens := by
  rintro (hvalue | hkey | hmark)
  · exact h.not_value hvalue
  · exact h.not_key hkey
  · obtain ⟨c, text, span, more, htokens, -⟩ := h
    cases htokens
    rcases hmark with hmark | hmark | hmark
    all_goals cases hmark

/-! ## Lines that begin with a word or a bracket -/

/-- A word that can be a key and that no number, date or constant begins with. -/
structure IsWord (word : List Char) : Prop where
  nonempty : word ≠ []
  bare : ∀ c ∈ word, isBare c
  noScalar : ∀ after, scalar? (word ++ after) = none

theorem IsWord.noBlank (h : IsWord word) : ∀ c ∈ word, Text.isBlank c = false := by
  intro c hc
  by_contra hblank
  have hbare := not_isBare_of_isBlank (Bool.not_eq_false _ ▸ hblank)
  rw [h.bare c hc] at hbare
  cases hbare

theorem skipLines_of_skipSpace (h : skipSpace tokens = lexed :: more)
    (hcomment : lexed.token ≠ .comment) (hbreak : lexed.token ≠ .newline) :
    skipLines tokens = lexed :: more := by
  fun_induction skipSpace tokens with
  | case1 text span rest ih => exact ih h
  | case2 tokens hspace =>
      subst h
      refine skipLines_cons_of_kept ?_ hcomment hbreak
      rintro text htoken
      rcases lexed with ⟨token, span⟩
      obtain rfl : token = .space text := htoken
      exact hspace text span more rfl

theorem BeginsOdd.skipLines (h : BeginsOdd (skipSpace tokens)) :
    Toml.skipLines tokens = skipSpace tokens := by
  obtain ⟨c, text, span, more, htokens, -⟩ := h
  rw [htokens]
  exact skipLines_of_skipSpace htokens (by simp) (by simp)

theorem BeginsWord.skipLines (h : BeginsWord offset word (skipSpace tokens)) :
    Toml.skipLines tokens = skipSpace tokens := by
  obtain ⟨text, span, more, htokens, -⟩ := h
  rw [htokens]
  exact skipLines_of_skipSpace htokens (by simp) (by simp)

/-- After space, a word is there as it stands in the text, or no key and no value is. -/
theorem Tiles.word_front (h : Tiles offset (lead ++ (word ++ (gap ++ tail))) tokens)
    (hword : IsWord word) (hlead : ∀ c ∈ lead, Text.isBlank c) (hbreak : '\n' ∉ lead)
    (hgap : ∀ c ∈ gap, Text.isBlank c) (htail : Stops tail) :
    BeginsWord (offset + byteSize lead) word (skipSpace tokens) ∨
      BeginsOdd (skipSpace tokens) := by
  obtain ⟨first, later, hfirst⟩ := List.exists_cons_of_ne_nil hword.nonempty
  have hc : Text.isBlank first = false := hword.noBlank first (by simp [hfirst])
  rw [hfirst, List.cons_append] at h
  rcases h.blank_front hlead hbreak hc with htiles | hodd
  · rw [← List.cons_append, ← hfirst] at htiles
    exact .inl (htiles.beginsWord hword.nonempty hword.bare hgap htail)
  · exact .inr hodd

theorem Lays.statement {statements : List Statement} (h : Lays tokens statements)
    (hkept : skipLines tokens ≠ []) :
    ∃ statement below rest, statements = statement :: below ∧
      statement? (skipLines tokens) = some (statement, rest) := by
  cases h with
  | done hblank => exact absurd hblank hkept
  | next hreads hends htail => exact ⟨_, _, _, rfl, hreads⟩

/-- A line inside a value can begin with a word only where a key stands. -/
theorem BeginsWord.of_continues (h : BeginsWord offset word tokens) (hword : IsWord word)
    (hcontinues : Continues tokens) :
    ∃ span, span.start = offset ∧ ⟨.atom word, span⟩ ∈ tokens := by
  rcases hcontinues with hvalue | hpath | hmark
  · exact absurd hvalue (h.not_value hword.noScalar)
  · obtain ⟨span, -, hstart, hmem⟩ := h.path_eq hpath
    exact ⟨span, hstart, hmem⟩
  · obtain ⟨text, span, more, htokens, -⟩ := h
    cases htokens
    rcases hmark with hmark | hmark | hmark
    all_goals cases hmark

section Statements

variable {statements : List Statement} {statement : Statement} {span : Span}

theorem assignment_of_atom (h : statement? (⟨.atom text, span⟩ :: more) = some (statement, rest)) :
    ∃ path below place value, keyPath? (⟨.atom text, span⟩ :: more) = some (path, below) ∧
      value.Closed ∧ statement = .assignment path place value := by
  rcases statement?_cases h with ⟨_, _, _, _, _, _, htokens, -⟩ | ⟨_, _, _, _, htokens, -⟩ |
    ⟨path, equals, below, place, value, fuel, hpath, hvalue, hstatement⟩
  · cases htokens
  · cases htokens
  · exact ⟨path, _, place, value, hpath, closed_of_value? hvalue, hstatement⟩

theorem Stands.not_odd (h : Stands tokens statements) : ¬ BeginsOdd (skipSpace tokens) := by
  intro hodd
  cases h with
  | between hlays =>
      obtain ⟨c, text, span, more, htokens, -⟩ := id hodd
      obtain ⟨statement, below, rest, -, hreads⟩ := hlays.statement (by
        rw [hodd.skipLines, htokens]
        exact List.cons_ne_nil _ _)
      rw [hodd.skipLines, htokens] at hreads
      obtain ⟨path, rest', place, value, hpath, -, -⟩ := assignment_of_atom hreads
      rw [← htokens] at hpath
      exact hodd.not_key hpath
  | within hlong hcontinues =>
      rw [hodd.skipLines] at hcontinues
      exact hodd.not_continues hcontinues

/-- On a line that begins with a word and an equals sign stands a key, of a statement or inside
the value of one. -/
theorem Stands.key (h : Stands tokens statements)
    (htiles : Tiles offset (lead ++ (word ++ (gap ++ tail))) tokens) (hword : IsWord word)
    (hlead : ∀ c ∈ lead, Text.isBlank c) (hbreak : '\n' ∉ lead)
    (hgap : ∀ c ∈ gap, Text.isBlank c) (htail : Stops tail) :
    ∃ span, span.start = offset + byteSize lead ∧ ⟨.atom word, span⟩ ∈ tokens ∧
      ((∃ place value below, value.Closed ∧
        statements = .assignment ⟨[], ⟨String.ofList word, span⟩⟩ place value :: below) ∨
      ∃ statement below, statements = statement :: below ∧ statement.Long) := by
  rcases htiles.word_front hword hlead hbreak hgap htail with hbegins | hodd
  · have hsuffix : skipSpace tokens <:+ tokens :=
      (reads_skipSpace tokens : Reads (fun _ => False) _ _).suffix
    have hlines := hbegins.skipLines
    cases h with
    | between hlays =>
        obtain ⟨text, span, more, htokens, -⟩ := id hbegins
        obtain ⟨statement, below, rest, rfl, hreads⟩ := hlays.statement (by
          rw [hlines, htokens]
          exact List.cons_ne_nil _ _)
        rw [hlines, htokens] at hreads
        obtain ⟨path, rest', place, value, hpath, hclosed, rfl⟩ := assignment_of_atom hreads
        rw [← htokens] at hpath
        obtain ⟨span, rfl, hstart, hmem⟩ := hbegins.path_eq hpath
        exact ⟨span, hstart, hsuffix.mem hmem, .inl ⟨place, value, below, hclosed, rfl⟩⟩
    | @within statement below hlong hcontinues =>
        rw [hlines] at hcontinues
        obtain ⟨span, hstart, hmem⟩ := hbegins.of_continues hword hcontinues
        exact ⟨span, hstart, hsuffix.mem hmem, .inr ⟨statement, below, rfl, hlong⟩⟩
  · exact absurd hodd h.not_odd

theorem not_keyPath?_bracket {path : KeyPath} :
    keyPath? (⟨.openBracket, span⟩ :: more) ≠ some (path, rest) := by
  simp [keyPath?, key?]

theorem scalar?_nil : scalar? [] = none := rfl

/-- Where a word stands behind a bracket, no array begins, for the word is no value. -/
theorem not_value?_bracket {levels fuel : Nat} {found : Span × Value}
    (hword : ∀ {levels fuel found rest},
      value? levels fuel (skipLines more) ≠ some (found, rest))
    (hclose : ∀ {last rest}, skipLines more ≠ ⟨.closeBracket, last⟩ :: rest) :
    value? levels fuel (⟨.openBracket, span⟩ :: more) ≠ some (found, rest) := by
  intro h
  cases fuel with
  | zero => simp [value?] at h
  | succ fuel =>
      rcases value?_cases h with ⟨_, _, _, htokens, -⟩ | ⟨inner, first, more', -, htokens, hitems⟩ |
        ⟨_, _, _, -, htokens, -⟩ | ⟨_, _, -, hscalar, -⟩
      · cases htokens
      · cases htokens
        cases fuel with
        | zero => simp [items?] at hitems
        | succ fuel =>
            rcases items?_cases hitems with ⟨last, hlast, -⟩ | ⟨item, after, hvalue, -⟩
            · exact hclose hlast
            · exact hword hvalue
      · cases htokens
      · have hempty : (scalarText (⟨.openBracket, span⟩ :: more)).1 = [] := rfl
        rw [hempty, scalar?_nil] at hscalar
        cases hscalar

/-- On a line that begins with a bracket and the name of a table stands a header. -/
theorem Stands.header (h : Stands tokens statements)
    (htiles : Tiles offset (lead ++ '[' :: (gap' ++ (word ++ (gap ++ tail)))) tokens)
    (hword : IsWord word) (hlead : ∀ c ∈ lead, Text.isBlank c) (hbreak : '\n' ∉ lead)
    (hgap' : ∀ c ∈ gap', Text.isBlank c) (hbreak' : '\n' ∉ gap')
    (hgap : ∀ c ∈ gap, Text.isBlank c) (htail : Stops tail) :
    ∃ key span below, statements = .table ⟨[], key⟩ span :: below ∧
      key.name = String.ofList word ∧ span.start = offset + byteSize lead ∧
      Lays tokens statements := by
  rcases htiles.blank_front hlead hbreak rfl with hbracket | hodd
  · obtain ⟨piece, more, -, -, htokens, hmore⟩ :=
      hbracket.uncons (rfl : token? ('[' :: (gap' ++ (word ++ (gap ++ tail)))) = some (_, _))
    have hlines := skipLines_of_skipSpace htokens (by simp) (by simp)
    have hfront := hmore.word_front hword hgap' hbreak' hgap htail
    -- behind the bracket stands an atom
    obtain ⟨text, place, inner, hatom⟩ :
        ∃ text place inner, skipSpace more = ⟨.atom text, place⟩ :: inner := by
      rcases hfront with ⟨text, place, inner, hatom, -⟩ | ⟨c, text, place, inner, hatom, -⟩
      · exact ⟨text, place, inner, hatom⟩
      · exact ⟨_, place, inner, hatom⟩
    have hinner : skipLines more = skipSpace more :=
      hfront.elim BeginsWord.skipLines BeginsOdd.skipLines
    have hvalue : ∀ {levels fuel found rest},
        value? levels fuel (skipLines more) ≠ some (found, rest) := by
      intro levels fuel found rest
      rw [hinner]
      exact hfront.elim (fun hbegins => hbegins.not_value hword.noScalar) BeginsOdd.not_value
    have hclose : ∀ {last rest}, skipLines more ≠ ⟨.closeBracket, last⟩ :: rest := by
      intro last rest hlast
      rw [hinner, hatom] at hlast
      cases hlast
    cases h with
    | between hlays =>
        obtain ⟨statement, below, rest, rfl, hreads⟩ := hlays.statement (by
          rw [hlines]
          exact List.cons_ne_nil _ _)
        rw [hlines] at hreads
        rcases statement?_cases hreads with ⟨_, _, second, _, _, below', hsame, -⟩ |
          ⟨path, first, last, below', hsame, -, hpath, rfl⟩ |
          ⟨path, _, _, _, _, _, hpath, -⟩
        · obtain ⟨-, rfl⟩ := List.cons.inj hsame
          rw [skipSpace_cons_of_kept (by simp)] at hatom
          cases hatom
        · obtain ⟨hfirst, rfl⟩ := List.cons.inj hsame
          rcases hfront with hbegins | hodd
          · obtain ⟨place, rfl, -⟩ := hbegins.path_eq hpath
            refine ⟨_, _, below, rfl, rfl, ?_, hlays⟩
            cases hfirst
            rfl
          · exact absurd hpath hodd.not_key
        · exact absurd hpath not_keyPath?_bracket
    | within hlong hcontinues =>
        rw [hlines] at hcontinues
        rcases hcontinues with hcontinues | hpath | hmark
        · exact absurd hcontinues (not_value?_bracket hvalue hclose)
        · exact absurd hpath not_keyPath?_bracket
        · rcases hmark with hmark | hmark | hmark
          all_goals cases hmark
  · exact absurd hodd h.not_odd

end Statements

end EditPipeline.Toml
