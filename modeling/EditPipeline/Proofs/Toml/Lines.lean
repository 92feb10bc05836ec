import EditPipeline.Proofs.Toml.Scalars
import EditPipeline.Proofs.Toml.Tokens
import EditPipeline.Toml.Statement

/-!
# Where statements and values break

A line of a document may begin between two statements, or inside a value that goes on over
several lines.  Which of the two is told from how the readers pass line breaks: the ones for
keys, headers and scalars pass none, and those for arrays and inline tables pass space, comments
and line breaks at once, each time before something that goes on with the value (`Reads`,
`Continues`).  So every line that begins between two tokens stands before the statements that
are left, or inside one whose value is no string (`Lays.at_break`).

A header, as the first token of a statement, has nothing but space before it on its line
(`Lays.leads_header`), and the headers of later statements stand behind it (`Lays.start_lt`).
-/

namespace EditPipeline.Toml

variable {tokens rest before after : List Lexed} {lexed : Lexed} {P : List Lexed → Prop}

/-! ## Skipped tokens -/

theorem skipLines_cons_of_kept (hspace : ∀ text, lexed.token ≠ .space text)
    (hcomment : lexed.token ≠ .comment) (hbreak : lexed.token ≠ .newline) :
    skipLines (lexed :: tokens) = lexed :: tokens := by
  unfold skipLines
  split
  · next heq => cases heq; exact absurd rfl (hspace _)
  · next heq => cases heq; exact absurd rfl hcomment
  · next heq => cases heq; exact absurd rfl hbreak
  · rfl

theorem suffix_skipLines (tokens : List Lexed) : skipLines tokens <:+ tokens := by
  fun_induction skipLines tokens with
  | case1 text span rest ih => exact ih.trans (List.suffix_cons _ _)
  | case2 span rest ih => exact ih.trans (List.suffix_cons _ _)
  | case3 span rest ih => exact ih.trans (List.suffix_cons _ _)
  | case4 tokens => exact List.suffix_refl tokens

/-- A line break is skipped with all that stands before it, or kept with what follows. -/
theorem skipLines_at_break {newline : Lexed} (hbreak : newline.token = .newline)
    (before after : List Lexed) :
    skipLines (before ++ newline :: after) = skipLines after ∨
      ∃ mid, mid <:+ before ∧ skipLines (before ++ newline :: after) = mid ++ newline :: after := by
  induction before with
  | nil =>
      left
      rcases newline with ⟨token, span⟩
      obtain rfl : token = .newline := hbreak
      rfl
  | cons lexed before ih =>
      rcases lexed with ⟨token, span⟩
      have hlater : skipLines (before ++ newline :: after) = skipLines after ∨
          ∃ mid, mid <:+ ⟨token, span⟩ :: before ∧
            skipLines (before ++ newline :: after) = mid ++ newline :: after := by
        rcases ih with hall | ⟨mid, hsuffix, hmid⟩
        · exact .inl hall
        · exact .inr ⟨mid, hsuffix.trans (List.suffix_cons _ _), hmid⟩
      cases token
      case space => exact hlater
      case comment => exact hlater
      case newline => exact hlater
      all_goals
        refine .inr ⟨_, List.suffix_refl _, ?_⟩
        exact skipLines_cons_of_kept (by simp) (by simp) (by simp)

/-! ## Reading -/

/-- How a reader gets from some tokens to the rest: over tokens that break no line, and over
space, comments and line breaks at once if `P` holds of what follows them. -/
inductive Reads (P : List Lexed → Prop) : List Lexed → List Lexed → Prop
  | refl (tokens : List Lexed) : Reads P tokens tokens
  | token {lexed : Lexed} {tokens rest : List Lexed} (unbroken : lexed.token ≠ .newline)
      (more : Reads P tokens rest) : Reads P (lexed :: tokens) rest
  | lines {tokens rest : List Lexed} (here : P (skipLines tokens))
      (more : Reads P (skipLines tokens) rest) : Reads P tokens rest

theorem Reads.trans {middle : List Lexed} (h : Reads P tokens middle) (h' : Reads P middle rest) :
    Reads P tokens rest := by
  induction h with
  | refl tokens => exact h'
  | token hunbroken hmore ih => exact .token hunbroken (ih h')
  | lines hhere hmore ih => exact .lines hhere (ih h')

theorem Reads.suffix (h : Reads P tokens rest) : rest <:+ tokens := by
  induction h with
  | refl tokens => exact List.suffix_refl tokens
  | token hunbroken hmore ih => exact ih.trans (List.suffix_cons _ _)
  | lines hhere hmore ih => exact ih.trans (suffix_skipLines _)

theorem Reads.mono {Q : List Lexed → Prop} (hmono : ∀ tokens, P tokens → Q tokens)
    (h : Reads P tokens rest) : Reads Q tokens rest := by
  induction h with
  | refl tokens => exact .refl tokens
  | token hunbroken hmore ih => exact .token hunbroken ih
  | lines hhere hmore ih => exact .lines (hmono _ hhere) ih

/-- Nothing that a reader may not pass a line break for is passed with one. -/
theorem Reads.unbroken (h : Reads (fun _ => False) tokens rest) :
    ∃ used, tokens = used ++ rest ∧ ∀ lexed ∈ used, lexed.token ≠ .newline := by
  induction h with
  | refl tokens => exact ⟨[], rfl, by simp⟩
  | @token lexed tokens rest hunbroken hmore ih =>
      obtain ⟨used, rfl, hused⟩ := ih
      exact ⟨lexed :: used, rfl, List.forall_mem_cons.2 ⟨hunbroken, hused⟩⟩
  | lines hhere hmore ih => exact hhere.elim

/-- After each line break that a reader passes, `P` holds of what follows space, comments and
further line breaks. -/
theorem Reads.after_break (h : Reads P tokens rest) (htokens : tokens = before ++ lexed :: after)
    (hbreak : lexed.token = .newline) (hrest : rest.length ≤ after.length) :
    P (skipLines after) := by
  induction h generalizing before with
  | refl tokens =>
      rw [htokens, List.length_append, List.length_cons] at hrest
      omega
  | @token first tokens rest hunbroken hmore ih =>
      cases before with
      | nil =>
          obtain ⟨rfl, -⟩ := List.cons.inj htokens
          exact absurd hbreak hunbroken
      | cons second before =>
          obtain ⟨-, htokens⟩ := List.cons.inj htokens
          exact ih htokens hrest
  | @lines tokens rest hhere hmore ih =>
      rw [htokens] at hhere
      rcases skipLines_at_break hbreak before after with hall | ⟨mid, -, hmid⟩
      · rwa [hall] at hhere
      · exact ih (htokens ▸ hmid) hrest

/-! ## What each reader passes -/

theorem reads_skipSpace (tokens : List Lexed) : Reads P tokens (skipSpace tokens) := by
  fun_induction skipSpace tokens with
  | case1 text span rest ih => exact .token (by simp) ih
  | case2 => exact .refl _

theorem expectToken?_eq_some {token : Token} {span : Span} :
    expectToken? token tokens = some (span, rest) ↔ tokens = ⟨token, span⟩ :: rest := by
  cases tokens with
  | nil => simp [expectToken?]
  | cons lexed tokens =>
      rcases lexed with ⟨token', span'⟩
      simp only [expectToken?]
      split
      · next htoken => simp [htoken]
      · next htoken => simp [htoken]

theorem reads_key? {key : Key} (h : key? tokens = some (key, rest)) : Reads P tokens rest := by
  unfold key? at h
  split at h
  · split at h
    · cases h
      exact .token (by simp) (.refl _)
    · cases h
  · cases h
    exact .token (by simp) (.refl _)
  · cases h

theorem reads_moreKeys {fuel : Nat} {path path' : KeyPath}
    (h : moreKeys fuel path tokens = some (path', rest)) : Reads P tokens rest := by
  induction fuel generalizing path tokens with
  | zero => cases h
  | succ fuel ih =>
      refine (reads_skipSpace tokens).trans ?_
      unfold moreKeys at h
      split at h
      · next more hdot =>
          simp only [Option.bind_eq_bind, Option.bind_eq_some_iff, Prod.exists] at h
          obtain ⟨key, after, hkey, hmore⟩ := h
          rw [hdot]
          exact .token (by simp) (((reads_skipSpace more).trans (reads_key? hkey)).trans (ih hmore))
      · cases h
        exact .refl _

theorem reads_keyPath? {path : KeyPath} (h : keyPath? tokens = some (path, rest)) :
    Reads P tokens rest := by
  simp only [keyPath?, Option.bind_eq_bind, Option.bind_eq_some_iff, Prod.exists] at h
  obtain ⟨key, after, hkey, hmore⟩ := h
  exact (reads_key? hkey).trans (reads_moreKeys hmore)

theorem reads_unbroken (tokens : List Lexed) : Reads P tokens (unbroken tokens).2 := by
  fun_induction unbroken tokens with
  | case1 text span rest ih => exact .token (by simp) ih
  | case2 span rest ih => exact .token (by simp) ih
  | case3 => exact .refl _

theorem reads_scalarText (tokens : List Lexed) : Reads P tokens (scalarText tokens).2 := by
  have hfirst : Reads P tokens (unbroken tokens).2 := reads_unbroken tokens
  unfold scalarText
  dsimp only
  split
  · next c more span' after hrest =>
      split
      · refine hfirst.trans ?_
        rw [hrest]
        exact .token (by simp) (reads_unbroken _)
      · exact hfirst
  · exact hfirst

/-! ## Values -/

section Values

variable {levels fuel : Nat} {first : Span} {found : Span × Value}

theorem value?_cases (h : value? levels (fuel + 1) tokens = some (found, rest)) :
    (∃ text multiline span, tokens = ⟨.string text multiline, span⟩ :: rest ∧
      found = (span, .string (String.ofList text))) ∨
    (∃ inner first more, levels = inner + 1 ∧ tokens = ⟨.openBracket, first⟩ :: more ∧
      items? inner first fuel [] (skipLines more) = some (found, rest)) ∨
    (∃ inner first more, levels = inner + 1 ∧ tokens = ⟨.openBrace, first⟩ :: more ∧
      members? inner first fuel [] (skipLines more) = some (found, rest)) ∨
    (∃ lexed more, tokens = lexed :: more ∧ scalar? (scalarText tokens).1 = some found.2 ∧
      rest = (scalarText tokens).2) := by
  unfold value? at h
  split at h
  · cases h
  · cases h
    exact .inl ⟨_, _, _, rfl, rfl⟩
  · split at h
    · cases h
    · exact .inr (.inl ⟨_, _, _, rfl, rfl, h⟩)
  · split at h
    · cases h
    · exact .inr (.inr (.inl ⟨_, _, _, rfl, rfl, h⟩))
  · simp only [Option.bind_eq_bind, Option.bind_eq_some_iff] at h
    obtain ⟨value, hvalue, hfound⟩ := h
    cases hfound
    exact .inr (.inr (.inr ⟨_, _, rfl, hvalue, rfl⟩))

theorem items?_cases {held : List (Span × Value)}
    (h : items? levels first (fuel + 1) held tokens = some (found, rest)) :
    (∃ last, tokens = ⟨.closeBracket, last⟩ :: rest ∧
      found = (first.through last, .array false held)) ∨
    ∃ item after, value? levels fuel tokens = some (item, after) ∧
      ((∃ comma more, skipLines after = ⟨.comma, comma⟩ :: more ∧
        items? levels first fuel (held ++ [item]) (skipLines more) = some (found, rest)) ∨
      ∃ last, skipLines after = ⟨.closeBracket, last⟩ :: rest ∧
        found = (first.through last, .array false (held ++ [item]))) := by
  unfold items? at h
  split at h
  · cases h
  · cases h
    exact .inl ⟨_, rfl, rfl⟩
  · next hfuel _ =>
      cases hfuel
      simp only [Option.bind_eq_bind, Option.bind_eq_some_iff, Prod.exists] at h
      obtain ⟨span, value, after, hvalue, h⟩ := h
      refine .inr ⟨(span, value), after, hvalue, ?_⟩
      split at h
      · next comma more hmore => exact .inl ⟨comma, more, hmore, h⟩
      · simp only [Option.bind_eq_some_iff, Prod.exists] at h
        obtain ⟨last, after', hclose, hfound⟩ := h
        cases hfound
        exact .inr ⟨last, expectToken?_eq_some.1 hclose, rfl⟩

theorem members?_cases {held : Entries}
    (h : members? levels first (fuel + 1) held tokens = some (found, rest)) :
    (∃ last, tokens = ⟨.closeBrace, last⟩ :: rest ∧
      found = (first.through last, .table .inline held)) ∨
    ∃ path equals afterPath afterEquals member after next,
      keyPath? tokens = some (path, afterPath) ∧ afterPath = ⟨.equals, equals⟩ :: afterEquals ∧
      value? levels fuel (skipSpace afterEquals) = some (member, after) ∧
      ((∃ comma more, skipLines after = ⟨.comma, comma⟩ :: more ∧
        members? levels first fuel next (skipLines more) = some (found, rest)) ∨
      ∃ last, skipLines after = ⟨.closeBrace, last⟩ :: rest ∧
        found = (first.through last, .table .inline next)) := by
  unfold members? at h
  split at h
  · cases h
  · cases h
    exact .inl ⟨_, rfl, rfl⟩
  · next hfuel _ =>
      cases hfuel
      simp only [Option.bind_eq_bind, Option.bind_eq_some_iff, Prod.exists] at h
      obtain ⟨path, afterPath, hpath, equals, afterEquals, hequals, span, value, after, hvalue,
        next, -, h⟩ := h
      refine .inr ⟨path, equals, afterPath, afterEquals, (span, value), after, next, hpath,
        expectToken?_eq_some.1 hequals, hvalue, ?_⟩
      split at h
      · next comma more hmore => exact .inl ⟨comma, more, hmore, h⟩
      · simp only [Option.bind_eq_some_iff, Prod.exists] at h
        obtain ⟨last, after', hclose, hfound⟩ := h
        cases hfound
        exact .inr ⟨last, expectToken?_eq_some.1 hclose, rfl⟩

/-- What a line that begins inside a value goes on with. -/
inductive Continues : List Lexed → Prop
  | value {levels fuel : Nat} {found : Span × Value} {tokens rest : List Lexed}
      (reads : value? levels fuel tokens = some (found, rest)) : Continues tokens
  | key {path : KeyPath} {tokens rest : List Lexed} (reads : keyPath? tokens = some (path, rest)) :
      Continues tokens
  | mark {lexed : Lexed} {rest : List Lexed}
      (isMark : lexed.token = .comma ∨ lexed.token = .closeBracket ∨ lexed.token = .closeBrace) :
      Continues (lexed :: rest)

theorem Reads.toMark {token : Token} {span : Span}
    (hmark : token = .comma ∨ token = .closeBracket ∨ token = .closeBrace)
    (hafter : skipLines after = ⟨token, span⟩ :: rest) : Reads Continues after rest := by
  refine .lines (hafter ▸ .mark hmark) ?_
  rw [hafter]
  refine .token ?_ (.refl rest)
  rcases hmark with rfl | rfl | rfl
  all_goals simp

/-- The three readers of values pass line breaks between their parts only. -/
structure ReadsValues (fuel : Nat) : Prop where
  value : ∀ {levels found tokens rest},
    value? levels fuel tokens = some (found, rest) → Reads Continues tokens rest
  items : ∀ {levels first held found tokens rest},
    items? levels first fuel held tokens = some (found, rest) →
      Continues tokens ∧ Reads Continues tokens rest
  members : ∀ {levels first held found tokens rest},
    members? levels first fuel held tokens = some (found, rest) →
      Continues tokens ∧ Reads Continues tokens rest

theorem readsValues (fuel : Nat) : ReadsValues fuel := by
  induction fuel with
  | zero =>
      constructor
      · intro levels found tokens rest h
        simp [value?] at h
      · intro levels first held found tokens rest h
        simp [items?] at h
      · intro levels first held found tokens rest h
        simp [members?] at h
  | succ fuel ih =>
      constructor
      · intro levels found tokens rest h
        rcases value?_cases h with ⟨text, multiline, span, rfl, -⟩ |
          ⟨inner, first, more, -, rfl, hitems⟩ | ⟨inner, first, more, -, rfl, hmembers⟩ |
          ⟨lexed, more, -, -, rfl⟩
        · exact .token (by simp) (.refl rest)
        · obtain ⟨hcontinues, hreads⟩ := ih.items hitems
          exact .token (by simp) (.lines hcontinues hreads)
        · obtain ⟨hcontinues, hreads⟩ := ih.members hmembers
          exact .token (by simp) (.lines hcontinues hreads)
        · exact reads_scalarText tokens
      · intro levels first held found tokens rest h
        rcases items?_cases h with ⟨last, rfl, -⟩ |
          ⟨item, after, hvalue, ⟨comma, more, hcomma, hmore⟩ | ⟨last, hlast, -⟩⟩
        · exact ⟨.mark (.inr (.inl rfl)), .token (by simp) (.refl rest)⟩
        · obtain ⟨hcontinues, hreads⟩ := ih.items hmore
          refine ⟨.value hvalue, (ih.value hvalue).trans ?_⟩
          exact (Reads.toMark (.inl rfl) hcomma).trans (.lines hcontinues hreads)
        · exact ⟨.value hvalue, (ih.value hvalue).trans (Reads.toMark (.inr (.inl rfl)) hlast)⟩
      · intro levels first held found tokens rest h
        rcases members?_cases h with ⟨last, rfl, -⟩ |
          ⟨path, equals, afterPath, afterEquals, member, after, next, hpath, rfl, hvalue, htail⟩
        · exact ⟨.mark (.inr (.inr rfl)), .token (by simp) (.refl rest)⟩
        · have hmember : Reads Continues tokens after :=
            (reads_keyPath? hpath).trans
              (.token (by simp) ((reads_skipSpace afterEquals).trans (ih.value hvalue)))
          rcases htail with ⟨comma, more, hcomma, hmore⟩ | ⟨last, hlast, -⟩
          · obtain ⟨hcontinues, hreads⟩ := ih.members hmore
            refine ⟨.key hpath, hmember.trans ?_⟩
            exact (Reads.toMark (.inl rfl) hcomma).trans (.lines hcontinues hreads)
          · exact ⟨.key hpath, hmember.trans (Reads.toMark (.inr (.inr rfl)) hlast)⟩

theorem items?_array {held : List (Span × Value)}
    (h : items? levels first fuel held tokens = some (found, rest)) :
    ∃ items, found.2 = .array false items := by
  induction fuel generalizing held tokens with
  | zero => simp [items?] at h
  | succ fuel ih =>
      rcases items?_cases h with ⟨last, -, rfl⟩ |
        ⟨item, after, -, ⟨comma, more, -, hmore⟩ | ⟨last, -, rfl⟩⟩
      · exact ⟨_, rfl⟩
      · exact ih hmore
      · exact ⟨_, rfl⟩

theorem members?_table {held : Entries}
    (h : members? levels first fuel held tokens = some (found, rest)) :
    ∃ entries, found.2 = .table .inline entries := by
  induction fuel generalizing held tokens with
  | zero => simp [members?] at h
  | succ fuel ih =>
      rcases members?_cases h with ⟨last, -, rfl⟩ |
        ⟨-, -, -, -, -, -, next, -, -, -, ⟨comma, more, -, hmore⟩ | ⟨last, -, rfl⟩⟩
      · exact ⟨_, rfl⟩
      · exact ih hmore
      · exact ⟨_, rfl⟩

theorem closed_of_value? (h : value? levels fuel tokens = some (found, rest)) :
    found.2.Closed := by
  cases fuel with
  | zero => simp [value?] at h
  | succ fuel =>
      rcases value?_cases h with ⟨text, multiline, span, -, rfl⟩ |
        ⟨inner, first, more, -, -, hitems⟩ | ⟨inner, first, more, -, -, hmembers⟩ |
        ⟨lexed, more, -, hscalar, -⟩
      · trivial
      · obtain ⟨items, harray⟩ := items?_array hitems
        rw [harray]
        rfl
      · obtain ⟨entries, htable⟩ := members?_table hmembers
        rw [htable]
        rfl
      · exact closed_of_scalar? hscalar

/-- A string is read without passing a line break. -/
theorem reads_value?_string {s : String} (hstring : found.2 = .string s)
    (h : value? levels fuel tokens = some (found, rest)) : Reads P tokens rest := by
  cases fuel with
  | zero => simp [value?] at h
  | succ fuel =>
      rcases value?_cases h with ⟨text, multiline, span, rfl, -⟩ |
        ⟨inner, first, more, -, rfl, hitems⟩ | ⟨inner, first, more, -, rfl, hmembers⟩ |
        ⟨lexed, more, -, -, rfl⟩
      · exact .token (by simp) (.refl rest)
      · obtain ⟨items, harray⟩ := items?_array hitems
        rw [hstring] at harray
        cases harray
      · obtain ⟨entries, htable⟩ := members?_table hmembers
        rw [hstring] at htable
        cases htable
      · exact reads_scalarText tokens

end Values

/-! ## Statements -/

/-- The place of a header. -/
def Statement.header? : Statement → Option Span
  | .table _ span => some span
  | .element _ span => some span
  | .assignment .. => none

theorem statement?_cases {statement : Statement} (h : statement? tokens = some (statement, rest)) :
    (∃ path first second last close more,
      tokens = ⟨.openBracket, first⟩ :: ⟨.openBracket, second⟩ :: more ∧
      keyPath? (skipSpace more) =
        some (path, ⟨.closeBracket, close⟩ :: ⟨.closeBracket, last⟩ :: rest) ∧
      statement = .element path (first.through last)) ∨
    (∃ path first last more, tokens = ⟨.openBracket, first⟩ :: more ∧
      (∀ second inner, more ≠ ⟨.openBracket, second⟩ :: inner) ∧
      keyPath? (skipSpace more) = some (path, ⟨.closeBracket, last⟩ :: rest) ∧
      statement = .table path (first.through last)) ∨
    ∃ path equals more span value fuel,
      keyPath? tokens = some (path, ⟨.equals, equals⟩ :: more) ∧
      value? maxLevels fuel (skipSpace more) = some ((span, value), rest) ∧
      statement = .assignment path span value := by
  unfold statement? at h
  split at h
  · simp only [Option.bind_eq_bind, Option.bind_eq_some_iff, Prod.exists,
      expectToken?_eq_some] at h
    obtain ⟨path, _, hpath, close, _, rfl, last, _, rfl, hstatement⟩ := h
    cases hstatement
    exact .inl ⟨path, _, _, last, close, _, rfl, hpath, rfl⟩
  · next hsingle =>
      simp only [Option.bind_eq_bind, Option.bind_eq_some_iff, Prod.exists,
        expectToken?_eq_some] at h
      obtain ⟨path, _, hpath, last, _, rfl, hstatement⟩ := h
      cases hstatement
      refine .inr (.inl ⟨path, _, last, _, rfl, ?_, hpath, rfl⟩)
      rintro second inner rfl
      exact hsingle _ _ rfl
  · simp only [Option.bind_eq_bind, Option.bind_eq_some_iff, Prod.exists,
      expectToken?_eq_some] at h
    obtain ⟨path, _, hpath, equals, more, rfl, span, value, _, hvalue, hstatement⟩ := h
    cases hstatement
    exact .inr (.inr ⟨path, equals, more, span, value, _, hpath, hvalue, rfl⟩)

theorem header_begins {statement : Statement} {span : Span}
    (h : statement? tokens = some (statement, rest)) (hheader : statement.header? = some span) :
    ∃ first more, tokens = ⟨.openBracket, first⟩ :: more ∧ first.start = span.start := by
  rcases statement?_cases h with ⟨path, first, second, last, close, more, rfl, -, rfl⟩ |
    ⟨path, first, last, more, rfl, -, -, rfl⟩ | ⟨path, equals, more, place, value, fuel, -, -, rfl⟩
  · cases hheader
    exact ⟨first, _, rfl, rfl⟩
  · cases hheader
    exact ⟨first, _, rfl, rfl⟩
  · cases hheader

/-- A value may reach over several lines if it is no string. -/
def Statement.Long (statement : Statement) : Prop :=
  ∃ path span value, statement = .assignment path span value ∧ value.Closed ∧
    ∀ s, value ≠ .string s

/-- A header passes no line break, and an assignment passes them in its value only. -/
theorem reads_statement? {statement : Statement} (h : statement? tokens = some (statement, rest)) :
    Reads (fun tokens => Continues tokens ∧ statement.Long) tokens rest := by
  rcases statement?_cases h with ⟨path, first, second, last, close, more, rfl, hpath, rfl⟩ |
    ⟨path, first, last, more, rfl, -, hpath, rfl⟩ |
    ⟨path, equals, more, span, value, fuel, hpath, hvalue, rfl⟩
  · refine .token (by simp) (.token (by simp) ?_)
    refine ((reads_skipSpace more).trans (reads_keyPath? hpath)).trans ?_
    exact .token (by simp) (.token (by simp) (.refl rest))
  · refine .token (by simp) ?_
    refine ((reads_skipSpace more).trans (reads_keyPath? hpath)).trans ?_
    exact .token (by simp) (.refl rest)
  · refine (reads_keyPath? hpath).trans (.token (by simp) ((reads_skipSpace more).trans ?_))
    by_cases hstring : ∃ s, value = .string s
    · obtain ⟨s, rfl⟩ := hstring
      exact reads_value?_string rfl hvalue
    · refine ((readsValues fuel).value hvalue).mono fun tokens hcontinues => ⟨hcontinues, ?_⟩
      refine ⟨path, span, value, rfl, closed_of_value? hvalue, ?_⟩
      intro s hs
      exact hstring ⟨s, hs⟩

/-- After a statement, nothing stands on the line but space and a comment. -/
theorem endLine?_cases (h : endLine? tokens = some rest) :
    ((∀ lexed ∈ tokens, lexed.token ≠ .newline) ∧ rest = []) ∨
      ∃ before newline, tokens = before ++ newline :: rest ∧ newline.token = .newline ∧
        ∀ lexed ∈ before, lexed.token ≠ .newline := by
  have hreads : ∀ {after}, skipSpace tokens = after ∨
      (∃ span, skipSpace tokens = ⟨.comment, span⟩ :: after) →
        Reads (fun _ => False) tokens after := by
    intro after hafter
    refine (reads_skipSpace tokens).trans ?_
    rcases hafter with hafter | ⟨span, hafter⟩
    · rw [hafter]
      exact .refl after
    · rw [hafter]
      exact .token (by simp) (.refl after)
  unfold endLine? at h
  dsimp only at h
  split at h
  · next hblank =>
      cases h
      left
      obtain ⟨used, hused, hunbroken⟩ : ∃ used, tokens = used ++ [] ∧
          ∀ lexed ∈ used, lexed.token ≠ .newline := by
        split at hblank
        · next hcomment => exact (hreads (.inr ⟨_, hcomment.trans (by rw [hblank])⟩)).unbroken
        · exact (hreads (.inl hblank)).unbroken
      rw [List.append_nil] at hused
      exact ⟨hused ▸ hunbroken, rfl⟩
  · next span more hbreak =>
      cases h
      right
      obtain ⟨used, hused, hunbroken⟩ : ∃ used, tokens = used ++ ⟨.newline, span⟩ :: rest ∧
          ∀ lexed ∈ used, lexed.token ≠ .newline := by
        split at hbreak
        · next hcomment => exact (hreads (.inr ⟨_, hcomment.trans (by rw [hbreak])⟩)).unbroken
        · exact (hreads (.inl hbreak)).unbroken
      exact ⟨used, _, hused, rfl, hunbroken⟩
  · cases h

/-! ## Documents -/

/-- Statements that tokens lay out line by line. -/
inductive Lays : List Lexed → List Statement → Prop
  | done {tokens : List Lexed} (blank : skipLines tokens = []) : Lays tokens []
  | next {tokens rest below : List Lexed} {statement : Statement} {more : List Statement}
      (reads : statement? (skipLines tokens) = some (statement, rest))
      (ends : endLine? rest = some below) (tail : Lays below more) :
      Lays tokens (statement :: more)

theorem lays_of_statementsFrom? {fuel : Nat} {statements : List Statement}
    (h : statementsFrom? fuel tokens = some statements) : Lays tokens statements := by
  induction fuel generalizing tokens statements with
  | zero => cases h
  | succ fuel ih =>
      unfold statementsFrom? at h
      split at h
      · next hblank =>
          cases h
          exact .done hblank
      · simp only [Option.bind_eq_bind, Option.bind_eq_some_iff, Prod.exists] at h
        obtain ⟨statement, rest, hreads, below, hends, more, hmore, hstatements⟩ := h
        cases hstatements
        exact .next hreads hends (ih hmore)

/-- Where a line begins among the statements that are not made before it. -/
inductive Stands (after : List Lexed) : List Statement → Prop
  | between {more : List Statement} (lays : Lays after more) : Stands after more
  | within {statement : Statement} {more : List Statement} (long : statement.Long)
      (continues : Continues (skipLines after)) : Stands after (statement :: more)

/-- Two ways to cut a list at a token that breaks a line, where the first has none before. -/
theorem cut_at_break {front mid below : List Lexed} {newline other : Lexed}
    (h : front ++ newline :: below = mid ++ other :: after)
    (hfront : ∀ lexed ∈ front, lexed.token ≠ .newline) (hother : other.token = .newline) :
    below = after ∨ ∃ later, below = later ++ other :: after ∧ later <:+ mid := by
  rcases List.append_eq_append_iff.1 h with ⟨later, rfl, hlater⟩ | ⟨later, rfl, hlater⟩
  · cases later with
    | nil => exact .inl (List.cons.inj hlater).2
    | cons first later =>
        refine .inr ⟨later, (List.cons.inj hlater).2, ?_⟩
        exact (List.suffix_cons first later).trans (List.suffix_append front _)
  · cases later with
    | nil => exact .inl (List.cons.inj hlater).2.symm
    | cons first later =>
        obtain ⟨rfl, -⟩ := List.cons.inj hlater
        exact absurd hother (hfront _ (by simp))

/-- What is left of a list, and longer than what stands behind an element, has the element in it. -/
theorem exists_of_longer {mid : List Lexed} {other : Lexed} (h : rest <:+ mid ++ other :: after)
    (hlength : after.length < rest.length) :
    ∃ later, rest = later ++ other :: after ∧ later <:+ mid := by
  obtain ⟨used, hused⟩ := h
  rcases List.append_eq_append_iff.1 hused with ⟨later, rfl, hlater⟩ | ⟨later, rfl, hlater⟩
  · exact ⟨later, hlater, List.suffix_append used later⟩
  · cases later with
    | nil => exact ⟨[], hlater.symm, List.nil_suffix⟩
    | cons first later =>
        have hlengths := congrArg List.length hlater
        simp only [List.length_append, List.length_cons] at hlengths
        omega

theorem forall_mem_of_suffix {mid : List Lexed} {newline : Lexed} {Q : Lexed → Prop}
    (h : mid <:+ before) (hbefore : ∀ lexed ∈ before ++ [newline], Q lexed) :
    ∀ lexed ∈ mid ++ [newline], Q lexed := by
  intro lexed hmem
  apply hbefore
  rcases List.mem_append.1 hmem with hmem | hmem
  · exact List.mem_append_left _ (h.mem hmem)
  · exact List.mem_append_right _ hmem

/-- A header begins with the first token of its statement. -/
theorem header_start_lt {statement : Statement} {span : Span} {newline : Lexed} {place : Nat}
    (h : statement? (before ++ newline :: after) = some (statement, rest))
    (hpast : ∀ lexed ∈ before ++ [newline], lexed.span.start < place)
    (hheader : statement.header? = some span) : span.start < place := by
  obtain ⟨first, inner, hfirst, hstart⟩ := header_begins h hheader
  rw [← hstart]
  cases before with
  | nil =>
      obtain ⟨rfl, -⟩ := List.cons.inj hfirst
      exact hpast _ List.mem_cons_self
  | cons second before =>
      obtain ⟨rfl, -⟩ := List.cons.inj hfirst
      exact hpast _ List.mem_cons_self

/-- Every line that begins between tokens begins between statements or in a long value. -/
theorem Lays.at_break {statements : List Statement} {newline : Lexed} {place : Nat}
    (h : Lays tokens statements) (htokens : tokens = before ++ newline :: after)
    (hbreak : newline.token = .newline)
    (hpast : ∀ lexed ∈ before ++ [newline], lexed.span.start < place) :
    ∃ done more, statements = done ++ more ∧
      (∀ statement ∈ done, ∀ span, statement.header? = some span → span.start < place) ∧
      Stands after more := by
  induction h generalizing before with
  | @done tokens hblank =>
      rcases skipLines_at_break hbreak before after with hall | ⟨mid, -, hmid⟩
      · exact ⟨[], [], rfl, by simp, .between (.done (by rw [← hall, ← htokens, hblank]))⟩
      · rw [← htokens, hblank] at hmid
        simp at hmid
  | @next tokens rest below statement more hreads hends htail ih =>
      rcases skipLines_at_break hbreak before after with hall | ⟨mid, hsuffix, hmid⟩
      · rw [htokens, hall] at hreads
        exact ⟨[], _, rfl, by simp, .between (.next hreads hends htail)⟩
      · rw [htokens, hmid] at hreads
        have hpastMid := forall_mem_of_suffix hsuffix hpast
        by_cases hlength : rest.length ≤ after.length
        · -- the line begins inside this statement
          obtain ⟨hcontinues, hlong⟩ := (reads_statement? hreads).after_break rfl hbreak hlength
          exact ⟨[], _, rfl, by simp, .within hlong hcontinues⟩
        · -- the line begins after this statement, right behind it or among the later ones
          obtain ⟨later, rfl, hlater⟩ :=
            exists_of_longer (reads_statement? hreads).suffix (Nat.lt_of_not_le hlength)
          have hheader : ∀ span, statement.header? = some span → span.start < place := by
            intro span hspan
            exact header_start_lt hreads hpastMid hspan
          rcases endLine?_cases hends with ⟨hnone, -⟩ | ⟨front, other, hcut, hother, hfront⟩
          · exact absurd hbreak (hnone newline (by simp))
          · rcases cut_at_break hcut.symm hfront hbreak with rfl | ⟨deeper, rfl, hdeeper⟩
            · exact ⟨[statement], more, rfl, by simpa using hheader, .between htail⟩
            · obtain ⟨done, left, rfl, hdone, hstands⟩ :=
                ih rfl (forall_mem_of_suffix (hdeeper.trans hlater) hpastMid)
              refine ⟨statement :: done, left, rfl, ?_, hstands⟩
              exact List.forall_mem_cons.2 ⟨hheader, hdone⟩

/-! ## The text of skipped tokens -/

section Text

variable {text : List Char} {offset : Nat}

theorem skipSpace_cons_of_kept (hspace : ∀ text, lexed.token ≠ .space text) :
    skipSpace (lexed :: tokens) = lexed :: tokens := by
  unfold skipSpace
  split
  · next heq =>
      cases heq
      exact absurd rfl (hspace _)
  · rfl

theorem Tiles.afterSpace (h : Tiles offset text tokens) :
    Tiles (offset + byteSize (text.takeWhile isSpace)) (text.dropWhile isSpace)
      (skipSpace tokens) := by
  induction h with
  | nil => exact .nil
  | @cons offset token piece rest tokens hpiece hreads hspelled htail ih =>
      by_cases hspace : ∃ blank, token = .space blank
      · obtain ⟨blank, rfl⟩ := hspace
        have hblank : ∀ c ∈ piece, isSpace c := by
          cases hspelled with
          | mark hsign => cases hsign
          | space hblank => exact hblank
        rw [List.takeWhile_append_of_pos hblank, List.dropWhile_append_of_pos hblank,
          byteSize_append, ← Nat.add_assoc]
        exact ih
      · obtain ⟨c, inner, rfl⟩ := List.exists_cons_of_ne_nil hpiece
        have hc : ¬ isSpace c := by
          intro hc
          have hread := hreads.symm.trans (token?_space hc)
          exact hspace ⟨_, (Prod.mk.inj (Option.some.inj hread)).1⟩
        rw [skipSpace_cons_of_kept fun blank hblank => hspace ⟨blank, hblank⟩, List.cons_append,
          List.takeWhile_cons_of_neg hc, List.dropWhile_cons_of_neg hc]
        exact .cons hpiece hreads hspelled htail

theorem skipLines_kept {more : List Lexed} (h : skipLines tokens = lexed :: more) :
    lexed.token ≠ .newline := by
  fun_induction skipLines tokens with
  | case1 text span rest ih => exact ih h
  | case2 span rest ih => exact ih h
  | case3 span rest ih => exact ih h
  | case4 tokens hspace hcomment hbreak =>
      intro hnewline
      rcases lexed with ⟨token, span⟩
      obtain rfl : token = .newline := hnewline
      exact hbreak span more h

/-- A text that is empty or ends where a line ends. -/
def EndsLine (text : List Char) : Prop := text = [] ∨ ∃ most, text = most ++ ['\n']

theorem EndsLine.behind {front : List Char} (h : EndsLine text) (hfront : EndsLine front) :
    EndsLine (front ++ text) := by
  rcases h with rfl | ⟨most, rfl⟩
  · rwa [List.append_nil]
  · exact .inr ⟨front ++ most, (List.append_assoc _ _ _).symm⟩

/-- A token stands on a line with nothing but space before it, `front` being the lines before. -/
structure Leads (offset : Nat) (text front lead rest : List Char) (tokens : List Lexed) :
    Prop where
  text_eq : text = front ++ lead ++ rest
  endsLine : EndsLine front
  blank : ∀ c ∈ lead, isSpace c
  tiles : Tiles (offset + byteSize (front ++ lead)) rest tokens

theorem Leads.behind {piece front lead rest : List Char}
    (h : Leads (offset + byteSize piece) text front lead rest tokens)
    (hends : EndsLine (piece ++ front)) :
    Leads offset (piece ++ text) (piece ++ front) lead rest tokens where
  text_eq := by rw [h.text_eq]; simp only [List.append_assoc]
  endsLine := hends
  blank := h.blank
  tiles := by
    have htiles := h.tiles
    rwa [Nat.add_assoc, ← byteSize_append, ← List.append_assoc] at htiles

/-- A token that is no line break does not stand where a line ends. -/
theorem Leads.not_break {lead rest : List Char} {more : List Lexed}
    (h : Leads offset text [] lead rest (lexed :: more)) (hbreak : lexed.token ≠ .newline) :
    ¬ (text = [] ∨ (∃ below, text = '\n' :: below) ∨ ∃ below, text = '\r' :: '\n' :: below) := by
  obtain ⟨htext, -, hblank, htiles⟩ := h
  rw [List.nil_append] at htext
  have hlead : ∀ {c below}, text = c :: below → isSpace c = false → text = rest := by
    intro c below hc hspace
    cases lead with
    | nil => exact htext
    | cons d lead =>
        rw [hc] at htext
        rw [(List.cons.inj htext).1, hblank d List.mem_cons_self] at hspace
        cases hspace
  have hnewline : ∀ {below}, token? rest = some (.newline, below) → False := by
    intro below hreads
    obtain ⟨piece, inner, -, -, htokens, -⟩ := htiles.uncons hreads
    rw [(List.cons.inj htokens).1] at hbreak
    exact hbreak rfl
  rintro (rfl | ⟨below, hbelow⟩ | ⟨below, hbelow⟩)
  · obtain ⟨-, hrest⟩ := List.append_eq_nil_iff.1 htext.symm
    exact htiles.ne_nil hrest
  · rw [hlead hbelow rfl] at hbelow
    exact hnewline (by rw [hbelow]; rfl)
  · rw [hlead hbelow rfl] at hbelow
    exact hnewline (by rw [hbelow]; rfl)

/-- After space, comments and line breaks, the next token stands on a line with nothing but
space before it. -/
theorem Tiles.exists_leads {more : List Lexed} (h : Tiles offset text tokens)
    (hkept : skipLines tokens = lexed :: more) :
    ∃ front lead rest, Leads offset text front lead rest (lexed :: more) := by
  induction h with
  | nil => cases hkept
  | @cons offset token piece rest tokens hpiece hreads hspelled htail ih =>
      have htiles : Tiles offset (piece ++ rest) (⟨token, ⟨offset, byteSize piece⟩⟩ :: tokens) :=
        .cons hpiece hreads hspelled htail
      have hhere : (∀ blank, token ≠ .space blank) → token ≠ .comment → token ≠ .newline →
          ∃ front lead after, Leads offset (piece ++ rest) front lead after (lexed :: more) := by
        intro hspace hcomment hbreak
        rw [skipLines_cons_of_kept hspace hcomment hbreak] at hkept
        exact ⟨[], [], piece ++ rest, rfl, .inl rfl, by simp, hkept ▸ htiles⟩
      cases hspelled with
      | space hblank =>
          obtain ⟨front, lead, after, hleads⟩ := ih hkept
          rcases hleads.endsLine with rfl | ⟨most, rfl⟩
          · refine ⟨[], piece ++ lead, after, ?_, .inl rfl, ?_, ?_⟩
            · rw [hleads.text_eq]
              simp
            · intro c hc
              exact (List.mem_append.1 hc).elim (hblank c) (hleads.blank c)
            · have hafter := hleads.tiles
              rwa [Nat.add_assoc, ← byteSize_append, List.nil_append] at hafter
          · exact ⟨_, lead, after, hleads.behind (.inr ⟨piece ++ most, by simp⟩)⟩
      | newline =>
          obtain ⟨front, lead, after, hleads⟩ := ih hkept
          exact ⟨_, lead, after, hleads.behind (hleads.endsLine.behind (.inr ⟨[], rfl⟩))⟩
      | «return» =>
          obtain ⟨front, lead, after, hleads⟩ := ih hkept
          exact ⟨_, lead, after, hleads.behind (hleads.endsLine.behind (.inr ⟨['\r'], rfl⟩))⟩
      | @comment plain rest hplain hends =>
          obtain ⟨front, lead, after, hleads⟩ := ih hkept
          rcases hleads.endsLine with rfl | ⟨most, rfl⟩
          · -- a line break ends the comment, and it would have been skipped
            exact absurd hends (hleads.not_break (skipLines_kept hkept))
          · exact ⟨_, lead, after, hleads.behind (.inr ⟨'#' :: plain ++ most, by simp⟩)⟩
      | mark hsign =>
          refine hhere ?_ ?_ ?_
          · rintro blank rfl
            cases hsign
          · rintro rfl
            cases hsign
          · rintro rfl
            cases hsign
      | string => exact hhere (by simp) (by simp) (by simp)
      | multiline => exact hhere (by simp) (by simp) (by simp)
      | atom => exact hhere (by simp) (by simp) (by simp)

end Text

/-! ## The places of headers -/

section Headers

variable {text : List Char} {offset : Nat} {statement : Statement} {span : Span}
  {statements more : List Statement}

/-- Where more statements follow a statement, they begin on a line of their own. -/
theorem Lays.breaks_below {below inner : List Lexed} (htiles : Tiles offset text tokens)
    (hkept : skipLines tokens = lexed :: inner)
    (hreads : statement? (lexed :: inner) = some (statement, rest))
    (hends : endLine? rest = some below) (htail : Lays below more) (hmore : more ≠ []) :
    ∃ front back before newline, text = front ++ '\n' :: back ∧
      Breaks tokens (offset + byteSize (front ++ ['\n'])) back before newline below ∧
      lexed ∈ before := by
  rcases endLine?_cases hends with ⟨-, rfl⟩ | ⟨mid, newline, hrest, hbreak, -⟩
  · cases htail with
    | done hblank => exact absurd rfl hmore
    | next hreads hends htail => simp [skipLines, statement?, keyPath?, key?] at hreads
  · obtain ⟨used, hused⟩ := (reads_statement? hreads).suffix
    obtain ⟨skipped, hskipped⟩ := suffix_skipLines tokens
    rw [hrest, ← List.append_assoc] at hused
    have htokens : tokens = skipped ++ (used ++ mid) ++ newline :: below := by
      rw [List.append_assoc, hused, ← hkept, hskipped]
    obtain ⟨front, back, htext, hbreaks⟩ := htiles.breaks htokens hbreak
    refine ⟨front, back, _, newline, htext, hbreaks, List.mem_append_right _ ?_⟩
    cases hfront : used ++ mid with
    | nil =>
        rw [hfront] at hused
        obtain ⟨rfl, -⟩ := List.cons.inj hused
        exact absurd hbreak (skipLines_kept hkept)
    | cons first front =>
        rw [hfront] at hused
        obtain ⟨rfl, -⟩ := List.cons.inj hused
        exact List.mem_cons_self

/-- A header stands on a line with nothing but space before it. -/
theorem Lays.leads_header (htiles : Tiles offset text tokens) (h : Lays tokens statements)
    (hmem : statement ∈ statements) (hheader : statement.header? = some span) :
    ∃ front lead below first inner,
      Leads offset text front lead below (⟨.openBracket, first⟩ :: inner) ∧
        first.start = span.start := by
  induction h generalizing offset text with
  | done hblank => cases hmem
  | @next tokens rest below first more hreads hends htail ih =>
      rcases List.mem_cons.1 hmem with rfl | hmem
      · obtain ⟨place, inner, hkept, hstart⟩ := header_begins hreads hheader
        obtain ⟨front, lead, after, hleads⟩ := htiles.exists_leads hkept
        exact ⟨front, lead, after, place, inner, hleads, hstart⟩
      · cases hkept : skipLines tokens with
        | nil => simp [hkept, statement?, keyPath?, key?] at hreads
        | cons lexed inner =>
            rw [hkept] at hreads
            obtain ⟨front, back, before, newline, rfl, hbreaks, -⟩ :=
              Lays.breaks_below htiles hkept hreads hends htail (List.ne_nil_of_mem hmem)
            obtain ⟨front', lead, after, place, inner', hleads, hstart⟩ := ih hbreaks.tiles hmem
            refine ⟨front ++ ['\n'] ++ front', lead, after, place, inner', ?_, hstart⟩
            rw [List.append_cons]
            exact hleads.behind (hleads.endsLine.behind (.inr ⟨front, rfl⟩))

/-- Headers stand in the order of their statements. -/
theorem Lays.start_lt {first : Statement} {place : Span} (htiles : Tiles offset text tokens)
    (h : Lays tokens (first :: more)) (hfirst : first.header? = some place)
    (hmem : statement ∈ more) (hheader : statement.header? = some span) :
    place.start < span.start := by
  cases h with
  | @next _ rest below _ _ hreads hends htail =>
      obtain ⟨open', inner, hkept, hstart⟩ := header_begins hreads hfirst
      rw [hkept] at hreads
      obtain ⟨front, back, before, newline, -, hbreaks, hbefore⟩ :=
        Lays.breaks_below htiles hkept hreads hends htail (List.ne_nil_of_mem hmem)
      obtain ⟨front', lead, after, place', inner', hleads, hstart'⟩ :=
        htail.leads_header hbreaks.tiles hmem hheader
      have hle := hleads.tiles.start_le List.mem_cons_self
      have hlt := (hbreaks.past _ (List.mem_append_left _ hbefore)).1
      dsimp only at hle hlt
      omega

end Headers

end EditPipeline.Toml
