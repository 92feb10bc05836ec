import EditPipeline.Toml.Token
import Mathlib.Data.List.Basic
import Mathlib.Data.List.TakeWhile

/-!
# The text of a token

A token is the reading of a piece of the text (`Token.Spelled`), and the pieces stand side by
side (`Tiles`).  The only pieces with a line break in them are line breaks themselves, where the
break comes last, and strings in three quotes, where a quote does.  So after a line break in the
text stands the front of a token or the rest of such a string (`Tiles.at_break`).
-/

namespace EditPipeline.Toml

variable {text rest front back piece : List Char} {token : Token} {tokens : List Lexed}
  {offset : Nat}

/-! ## How tokens are written -/

/-- The sign that a mark of punctuation is written with. -/
def Token.sign? : Token → Option Char
  | .openBracket => some '['
  | .closeBracket => some ']'
  | .openBrace => some '\x7b'
  | .closeBrace => some '\x7d'
  | .dot => some '.'
  | .comma => some ','
  | .equals => some '='
  | _ => none

/-- How a token is written, where `rest` follows. -/
inductive Token.Spelled : Token → List Char → List Char → Prop
  | mark {token : Token} {c : Char} {rest : List Char} (sign : token.sign? = some c) :
      Spelled token [c] rest
  | newline {rest : List Char} : Spelled .newline ['\n'] rest
  | return {rest : List Char} : Spelled .newline ['\r', '\n'] rest
  | space {text rest : List Char} (blank : ∀ c ∈ text, isSpace c) : Spelled (.space text) text rest
  | comment {text rest : List Char} (plain : ∀ c ∈ text, isPlain c)
      (ends : rest = [] ∨ (∃ more, rest = '\n' :: more) ∨ ∃ more, rest = '\r' :: '\n' :: more) :
      Spelled .comment ('#' :: text) rest
  | string {value text rest : List Char} (noBreak : '\n' ∉ text) :
      Spelled (.string value false) text rest
  | multiline {value text rest : List Char} {quote : Char} (isQuote : quote = '"' ∨ quote = '\'') :
      Spelled (.string value true) (text ++ [quote]) rest
  | atom {text rest : List Char} (whole : ∀ c ∈ text, endsAtom c = false) :
      Spelled (.atom text) text rest

theorem push_eq_some {c : Char} {found : Option (List Char × List Char)} {value : List Char} :
    push c found = some (value, rest) ↔
      ∃ inner, found = some (inner, rest) ∧ value = c :: inner := by
  rw [push, Option.map_eq_some_iff]
  constructor
  · rintro ⟨⟨inner, after⟩, hfound, hpair⟩
    cases hpair
    exact ⟨inner, hfound, rfl⟩
  · rintro ⟨inner, hfound, rfl⟩
    exact ⟨(inner, rest), hfound, rfl⟩

theorem push?_eq_some {c : Option Char} {found : Option (List Char × List Char)}
    {value : List Char} :
    push? c found = some (value, rest) ↔
      ∃ d inner, c = some d ∧ found = some (inner, rest) ∧ value = d :: inner := by
  unfold push?
  cases c with
  | none => simp
  | some d => simp [push_eq_some]

theorem noBreak_of_codePoint? {digits : List Char} {c : Char} (h : codePoint? digits = some c) :
    '\n' ∉ digits := by
  intro hmem
  have hfold : ∀ (digits : List Char) (n : Nat), '\n' ∈ digits →
      digits.foldlM (fun n c => (return 16 * n + (← Text.digitOf? 16 c) : Option Nat)) n =
        none := by
    intro digits
    induction digits with
    | nil => intro n hmem; cases hmem
    | cons d digits ih =>
        intro n hmem
        rw [List.foldlM_cons]
        rcases List.mem_cons.1 hmem with rfl | hmem
        · rfl
        · cases Text.digitOf? 16 d with
          | none => rfl
          | some value => exact ih _ hmem
  unfold codePoint? at h
  rw [hfold digits 0 hmem] at h
  cases h

theorem noBreak_of_shortEscape? {c d : Char} (h : shortEscape? c = some d) : c ≠ '\n' := by
  rintro rfl
  cases h

/-- A reader has taken the text before `rest`, which has no line break in it. -/
def TakesOneLine (text rest : List Char) : Prop :=
  ∃ taken, text = taken ++ rest ∧ '\n' ∉ taken

theorem TakesOneLine.after (front : List Char) (h : TakesOneLine text rest)
    (hfront : '\n' ∉ front) :
    TakesOneLine (front ++ text) rest := by
  obtain ⟨taken, rfl, htaken⟩ := h
  refine ⟨front ++ taken, (List.append_assoc _ _ _).symm, ?_⟩
  rw [List.mem_append, not_or]
  exact ⟨hfront, htaken⟩

theorem takesOneLine_escape {letter : Char} (digits : List Char) {value : List Char}
    {found : Option (List Char × List Char)} (hletter : letter ≠ '\n')
    (h : push? (codePoint? digits) found = some (value, rest))
    (ih : ∀ {value}, found = some (value, rest) → TakesOneLine text rest) :
    TakesOneLine ('\\' :: letter :: digits ++ text) rest := by
  obtain ⟨d, inner, hd, hfound, -⟩ := push?_eq_some.1 h
  refine (ih hfound).after _ ?_
  have hdigits := noBreak_of_codePoint? hd
  simp only [List.mem_cons, not_or]
  exact ⟨by decide, hletter.symm, hdigits⟩

theorem takesOneLine_of_basic? {value : List Char} (h : basic? text = some (value, rest)) :
    TakesOneLine text rest := by
  fun_induction basic? text generalizing value with
  | case1 => cases h
  | case2 more =>
      cases h
      exact ⟨['"'], rfl, by decide⟩
  | case3 a b more ih => exact takesOneLine_escape [a, b] (by decide) h ih
  | case4 a b c d more ih => exact takesOneLine_escape [a, b, c, d] (by decide) h ih
  | case5 a b c d e f g i more ih =>
      exact takesOneLine_escape [a, b, c, d, e, f, g, i] (by decide) h ih
  | case6 c more _ _ _ ih =>
      obtain ⟨d, inner, hd, hfound, -⟩ := push?_eq_some.1 h
      have hc := noBreak_of_shortEscape? hd
      exact (ih hfound).after ['\\', c] (by simp [Ne.symm hc])
  | case7 c more _ _ _ _ _ hplain ih =>
      obtain ⟨inner, hfound, -⟩ := push_eq_some.1 h
      refine (ih hfound).after [c] fun hmem => ?_
      rw [← List.mem_singleton.1 hmem] at hplain
      cases hplain
  | case8 => cases h

theorem takesOneLine_of_literal? {value : List Char} (h : literal? text = some (value, rest)) :
    TakesOneLine text rest := by
  fun_induction literal? text generalizing value with
  | case1 => cases h
  | case2 more =>
      cases h
      exact ⟨['\''], rfl, by decide⟩
  | case3 c more _ hplain ih =>
      obtain ⟨inner, hfound, -⟩ := push_eq_some.1 h
      refine (ih hfound).after [c] fun hmem => ?_
      rw [← List.mem_singleton.1 hmem] at hplain
      cases hplain
  | case4 => cases h

/-- A reader has taken the text before `rest`, which ends in a quote. -/
def TakesToQuote (text rest : List Char) : Prop :=
  ∃ taken quote, text = taken ++ quote :: rest ∧ (quote = '"' ∨ quote = '\'')

theorem TakesToQuote.cons {c : Char} (h : TakesToQuote text rest) :
    TakesToQuote (c :: text) rest := by
  obtain ⟨taken, quote, rfl, hquote⟩ := h
  exact ⟨c :: taken, quote, rfl, hquote⟩

theorem takesToQuote_of_multilineBasic? {margin : Margin} {value : List Char}
    (h : multilineBasic? margin text = some (value, rest)) : TakesToQuote text rest := by
  fun_induction multilineBasic? margin text generalizing value
  case case1 | case5 | case23 => cases h
  -- the quotes that close the string
  case case10 =>
    cases h
    exact ⟨['"', '"', '"', '"'], '"', rfl, .inl rfl⟩
  case case11 =>
    cases h
    exact ⟨['"', '"', '"'], '"', rfl, .inl rfl⟩
  case case12 =>
    cases h
    exact ⟨['"', '"'], '"', rfl, .inl rfl⟩
  -- line breaks and space that do not count
  case case2 ih | case6 ih | case7 ih | case8 ih => exact (ih h).cons
  case case4 ih => exact (ih h).cons
  case case3 ih | case9 ih | case13 ih | case14 ih | case15 ih => exact (ih h).cons.cons
  case case16 ih => exact (ih h).cons.cons.cons
  -- escapes
  case case17 ih =>
    obtain ⟨_, _, -, hfound, -⟩ := push?_eq_some.1 h
    exact (ih hfound).cons.cons.cons.cons
  case case18 ih =>
    obtain ⟨_, _, -, hfound, -⟩ := push?_eq_some.1 h
    exact (ih hfound).cons.cons.cons.cons.cons.cons
  case case19 ih =>
    obtain ⟨_, _, -, hfound, -⟩ := push?_eq_some.1 h
    exact (ih hfound).cons.cons.cons.cons.cons.cons.cons.cons.cons.cons
  case case20 ih =>
    obtain ⟨_, _, -, hfound, -⟩ := push?_eq_some.1 h
    exact (ih hfound).cons.cons
  -- characters of the value
  case case21 ih =>
    obtain ⟨_, houter, -⟩ := push_eq_some.1 h
    obtain ⟨_, hfound, -⟩ := push_eq_some.1 houter
    exact (ih hfound).cons.cons
  case case22 ih =>
    obtain ⟨_, hfound, -⟩ := push_eq_some.1 h
    exact (ih hfound).cons

theorem takesToQuote_of_multilineLiteral? {value : List Char}
    (h : multilineLiteral? text = some (value, rest)) : TakesToQuote text rest := by
  fun_induction multilineLiteral? text generalizing value
  case case1 | case7 => cases h
  case case2 =>
    cases h
    exact ⟨['\'', '\'', '\'', '\''], '\'', rfl, .inr rfl⟩
  case case3 =>
    cases h
    exact ⟨['\'', '\'', '\''], '\'', rfl, .inr rfl⟩
  case case4 =>
    cases h
    exact ⟨['\'', '\''], '\'', rfl, .inr rfl⟩
  case case5 ih =>
    obtain ⟨_, houter, -⟩ := push_eq_some.1 h
    obtain ⟨_, hfound, -⟩ := push_eq_some.1 houter
    exact (ih hfound).cons.cons
  case case6 ih =>
    obtain ⟨_, hfound, -⟩ := push_eq_some.1 h
    exact (ih hfound).cons

theorem TakesToQuote.of_skipBreak (h : TakesToQuote (skipBreak text) rest) :
    TakesToQuote text rest := by
  unfold skipBreak at h
  split at h
  · exact h.cons
  · exact h.cons.cons
  · exact h

/-! ## Tokens at the front of a text -/

theorem token?_space {c : Char} (hc : isSpace c) :
    token? (c :: rest) = some (.space (c :: rest.takeWhile isSpace), rest.dropWhile isSpace) := by
  simp only [isSpace, Bool.or_eq_true, decide_eq_true_eq] at hc
  rcases hc with rfl | rfl <;> rfl

theorem token?_atom {c : Char} (hc : endsAtom c = false) :
    token? (c :: rest) =
      some (.atom (c :: rest.takeWhile (!endsAtom ·)), rest.dropWhile (!endsAtom ·)) := by
  have hspace : isSpace c = false := by
    by_contra hspace
    rw [Bool.not_eq_false, isSpace, Bool.or_eq_true, decide_eq_true_eq, decide_eq_true_eq] at hspace
    rcases hspace with rfl | rfl <;> cases hc
  unfold token?
  split
  case h_1 hcons => cases hcons
  -- no sign and no quote stands in an atom
  all_goals
    rename_i hcons
    obtain ⟨rfl, rfl⟩ := List.cons.inj hcons
  case h_17 => rw [if_neg (by rw [hspace]; decide)]
  all_goals cases hc

theorem asString_eq_some {multiline : Bool} {found : Option (List Char × List Char)} :
    asString multiline found = some (token, rest) ↔
      ∃ value, found = some (value, rest) ∧ token = .string value multiline := by
  rw [asString, Option.map_eq_some_iff]
  constructor
  · rintro ⟨⟨value, after⟩, hfound, hpair⟩
    cases hpair
    exact ⟨value, hfound, rfl⟩
  · rintro ⟨value, hfound, rfl⟩
    exact ⟨(value, rest), hfound, rfl⟩

theorem comment?_eq_some (h : comment? text = some (token, rest)) :
    token = .comment ∧ rest = text.dropWhile isPlain ∧
      (rest = [] ∨ (∃ more, rest = '\n' :: more) ∨ ∃ more, rest = '\r' :: '\n' :: more) := by
  unfold comment? at h
  dsimp only at h
  split at h
  · next hrest =>
      cases h
      exact ⟨rfl, rfl, .inl hrest⟩
  · next more hrest =>
      cases h
      exact ⟨rfl, rfl, .inr (.inl ⟨more, hrest⟩)⟩
  · next more hrest =>
      cases h
      exact ⟨rfl, rfl, .inr (.inr ⟨more, hrest⟩)⟩
  · cases h

/-- A token is written at the front of the text, and some text is written for it. -/
theorem spelled_of_token? (h : token? text = some (token, rest)) :
    ∃ piece, text = piece ++ rest ∧ piece ≠ [] ∧ token.Spelled piece rest := by
  unfold token? at h
  split at h
  case h_1 => cases h
  case h_2 | h_3 | h_4 | h_5 | h_6 | h_7 | h_8 =>
    cases h
    exact ⟨_, rfl, List.cons_ne_nil _ _, .mark rfl⟩
  case h_9 =>
    cases h
    exact ⟨_, rfl, List.cons_ne_nil _ _, .newline⟩
  case h_10 =>
    cases h
    exact ⟨_, rfl, List.cons_ne_nil _ _, .return⟩
  case h_11 => cases h
  case h_12 more =>
    obtain ⟨rfl, rfl, hends⟩ := comment?_eq_some h
    refine ⟨'#' :: more.takeWhile isPlain, ?_, List.cons_ne_nil _ _, .comment ?_ hends⟩
    · rw [List.cons_append, List.takeWhile_append_dropWhile]
    · exact fun c hc => List.mem_takeWhile_imp hc
  case h_13 more =>
    obtain ⟨value, hfound, rfl⟩ := asString_eq_some.1 h
    obtain ⟨taken, quote, hmore, hquote⟩ :=
      (takesToQuote_of_multilineBasic? hfound).of_skipBreak
    refine ⟨'"' :: '"' :: '"' :: taken ++ [quote], ?_, by simp, .multiline hquote⟩
    rw [hmore]
    simp
  case h_14 more _ =>
    obtain ⟨value, hfound, rfl⟩ := asString_eq_some.1 h
    obtain ⟨taken, rfl, htaken⟩ := takesOneLine_of_basic? hfound
    exact ⟨'"' :: taken, rfl, List.cons_ne_nil _ _, .string (by simp [htaken])⟩
  case h_15 more =>
    obtain ⟨value, hfound, rfl⟩ := asString_eq_some.1 h
    obtain ⟨taken, quote, hmore, hquote⟩ :=
      (takesToQuote_of_multilineLiteral? hfound).of_skipBreak
    refine ⟨'\'' :: '\'' :: '\'' :: taken ++ [quote], ?_, by simp, .multiline hquote⟩
    rw [hmore]
    simp
  case h_16 more _ =>
    obtain ⟨value, hfound, rfl⟩ := asString_eq_some.1 h
    obtain ⟨taken, rfl, htaken⟩ := takesOneLine_of_literal? hfound
    exact ⟨'\'' :: taken, rfl, List.cons_ne_nil _ _, .string (by simp [htaken])⟩
  case h_17 c more _ _ _ _ _ _ _ _ _ _ _ _ _ _ _ =>
    split at h
    · next hc =>
        cases h
        refine ⟨c :: more.takeWhile isSpace, ?_, List.cons_ne_nil _ _, .space ?_⟩
        · rw [List.cons_append, List.takeWhile_append_dropWhile]
        · exact List.forall_mem_cons.2 ⟨hc, fun d hd => List.mem_takeWhile_imp hd⟩
    · next hc =>
        cases h
        have hends : endsAtom c = false := by
          by_contra hends
          simp only [isSpace, Bool.or_eq_true, decide_eq_true_eq, not_or] at hc
          simp [endsAtom, hc] at hends
          grind
        refine ⟨c :: more.takeWhile (!endsAtom ·), ?_, List.cons_ne_nil _ _, .atom ?_⟩
        · rw [List.cons_append, List.takeWhile_append_dropWhile]
        · refine List.forall_mem_cons.2 ⟨hends, fun d hd => ?_⟩
          simpa using List.mem_takeWhile_imp hd

/-! ## Tokens side by side -/

/-- Tokens stand side by side in a text that begins `offset` bytes into the document. -/
inductive Tiles : Nat → List Char → List Lexed → Prop
  | nil {offset : Nat} : Tiles offset [] []
  | cons {offset : Nat} {token : Token} {piece rest : List Char} {tokens : List Lexed}
      (nonempty : piece ≠ []) (reads : token? (piece ++ rest) = some (token, rest))
      (spelled : token.Spelled piece rest) (tail : Tiles (offset + byteSize piece) rest tokens) :
      Tiles offset (piece ++ rest) (⟨token, ⟨offset, byteSize piece⟩⟩ :: tokens)

theorem tiles_of_scanFrom? {fuel : Nat} (h : scanFrom? fuel offset text = some tokens) :
    Tiles offset text tokens := by
  induction fuel generalizing offset text tokens with
  | zero =>
      cases text with
      | nil =>
          cases h
          exact .nil
      | cons c text => cases h
  | succ fuel ih =>
      cases text with
      | nil =>
          cases h
          exact .nil
      | cons c text =>
          simp only [scanFrom?, Option.bind_eq_bind, Option.bind_eq_some_iff, Prod.exists] at h
          obtain ⟨token, rest, hreads, more, hmore, htokens⟩ := h
          obtain ⟨piece, htext, hpiece, hspelled⟩ := spelled_of_token? hreads
          cases htokens
          have hlength : (c :: text).take ((c :: text).length - rest.length) = piece := by
            rw [htext, List.length_append, Nat.add_sub_cancel, List.take_left]
          rw [hlength] at hmore ⊢
          rw [htext] at hreads ⊢
          exact .cons hpiece hreads hspelled (ih hmore)

theorem Tiles.uncons (h : Tiles offset text tokens) (hreads : token? text = some (token, rest)) :
    ∃ piece more, text = piece ++ rest ∧ token.Spelled piece rest ∧
      tokens = ⟨token, ⟨offset, byteSize piece⟩⟩ :: more ∧
      Tiles (offset + byteSize piece) rest more := by
  cases h with
  | nil => cases hreads
  | @cons _ token' piece rest' more hpiece hreads' hspelled htail =>
      cases hreads'.symm.trans hreads
      exact ⟨piece, more, rfl, hspelled, rfl, htail⟩

theorem Tiles.exists_token {c : Char} (h : Tiles offset (c :: text) tokens) :
    ∃ token rest, token? (c :: text) = some (token, rest) := by
  generalize htext : c :: text = whole at h
  cases h with
  | nil => cases htext
  | cons hpiece hreads hspelled htail => exact ⟨_, _, hreads⟩

theorem Tiles.ne_nil {lexed : Lexed} (h : Tiles offset text (lexed :: tokens)) : text ≠ [] := by
  cases h with
  | cons hpiece hreads hspelled htail => simp [hpiece]

theorem byteSize_pos (h : text ≠ []) : 0 < byteSize text := by
  cases text with
  | nil => exact absurd rfl h
  | cons c text =>
      have hc := c.utf8Size_pos
      rw [byteSize]
      omega

theorem Tiles.start_le (h : Tiles offset text tokens) {lexed : Lexed} (hmem : lexed ∈ tokens) :
    offset ≤ lexed.span.start := by
  induction h with
  | nil => cases hmem
  | cons hpiece hreads hspelled htail ih =>
      rcases List.mem_cons.1 hmem with rfl | hmem
      · exact Nat.le_refl _
      · have hle := ih hmem
        omega

/-- A mark of punctuation stands where its token says. -/
theorem Tiles.sign {span : Span} {c : Char} (hsign : token.sign? = some c)
    (h : Tiles offset text (⟨token, span⟩ :: tokens)) :
    (∃ rest, text = c :: rest) ∧ span.start = offset := by
  generalize htokens : (⟨token, span⟩ :: tokens : List Lexed) = lexed at h
  cases h with
  | nil => cases htokens
  | @cons _ token' piece rest tokens' hpiece hreads hspelled htail =>
      cases htokens
      cases hspelled with
      | mark hsign' =>
          cases hsign.symm.trans hsign'
          exact ⟨⟨rest, rfl⟩, rfl⟩
      | _ => cases hsign

/-- The tokens of a document stand side by side behind its byte order mark, if it has one. -/
theorem exists_tiles_of_scan? (h : scan? text = some tokens) :
    ∃ mark body, text = mark ++ body ∧ (mark = [] ∨ mark = ['\uFEFF']) ∧
      Tiles (byteSize mark) body tokens := by
  unfold scan? at h
  split at h
  · next body => exact ⟨['\uFEFF'], body, rfl, .inr rfl, tiles_of_scanFrom? h⟩
  · exact ⟨[], text, rfl, .inl rfl, tiles_of_scanFrom? h⟩

/-! ## Where lines begin -/

/-- A place is inside a string that may reach over several lines. -/
def InString (tokens : List Lexed) (place : Nat) : Prop :=
  ∃ value span, ⟨.string value true, span⟩ ∈ tokens ∧ span.start < place ∧ place < span.stop

/-- Whether a token is such a string. -/
def Token.isLong : Token → Bool
  | .string _ multiline => multiline
  | _ => false

theorem not_inString {tokens : List Lexed}
    (hshort : ∀ lexed ∈ tokens, lexed.token.isLong = false) (place : Nat) :
    ¬ InString tokens place := by
  rintro ⟨value, span, hmem, -⟩
  exact Bool.false_ne_true (hshort _ hmem).symm

/-- At a place inside such a string, after which `back` follows: what is left of the string, with
its last quote, is what `back` begins with. -/
def LeavesString (tokens : List Lexed) (place : Nat) (back : List Char) : Prop :=
  ∃ value span taken quote rest, ⟨.string value true, span⟩ ∈ tokens ∧ span.start < place ∧
    back = taken ++ quote :: rest ∧ (quote = '"' ∨ quote = '\'') ∧
    span.stop = place + byteSize (taken ++ [quote])

/-- Between tokens, right after a line break. -/
structure Breaks (tokens : List Lexed) (place : Nat) (back : List Char)
    (before : List Lexed) (newline : Lexed) (after : List Lexed) : Prop where
  tokens_eq : tokens = before ++ newline :: after
  isBreak : newline.token = .newline
  tiles : Tiles place back after
  past : ∀ lexed ∈ before ++ [newline], lexed.span.start < place ∧ lexed.span.stop ≤ place

theorem Token.Spelled.at_break (h : token.Spelled (front ++ '\n' :: back) rest) :
    token = .newline ∧ back = [] ∨
      ∃ value taken quote, token = .string value true ∧ back = taken ++ [quote] ∧
        (quote = '"' ∨ quote = '\'') := by
  generalize hpiece : front ++ '\n' :: back = piece at h
  have hmem : '\n' ∈ piece := by
    rw [← hpiece]
    exact List.mem_append_right _ List.mem_cons_self
  cases h with
  | @mark token c rest hsign =>
      rw [← List.mem_singleton.1 hmem] at hsign
      cases token <;> cases hsign
  | newline =>
      left
      refine ⟨rfl, ?_⟩
      cases front with
      | nil => exact (List.cons.inj hpiece).2
      | cons c front => simp at hpiece
  | «return» =>
      left
      refine ⟨rfl, ?_⟩
      rcases front with - | ⟨c, - | ⟨d, front⟩⟩
      · simp at hpiece
      · exact (List.cons.inj (List.cons.inj hpiece).2).2
      · simp at hpiece
  | space hblank => cases hblank _ hmem
  | comment hplain hends =>
      rcases List.mem_cons.1 hmem with hbreak | hmem
      · cases hbreak
      · cases hplain _ hmem
  | string hnoBreak => exact absurd hmem hnoBreak
  | @multiline value taken rest quote hquote =>
      right
      rcases List.eq_nil_or_concat' back with rfl | ⟨taken', last, rfl⟩
      · have hlast := List.append_inj_right' hpiece rfl
        cases hlast
        rcases hquote with hquote | hquote <;> cases hquote
      · rw [← List.cons_append, ← List.append_assoc] at hpiece
        have hlast := List.append_inj_right' hpiece rfl
        cases hlast
        exact ⟨value, taken', quote, rfl, rfl, hquote⟩
  | atom hwhole => cases hwhole _ hmem

theorem Breaks.cons {before after : List Lexed} {newline lexed : Lexed} {place : Nat}
    (h : Breaks tokens place back before newline after)
    (hpast : lexed.span.start < place ∧ lexed.span.stop ≤ place) :
    Breaks (lexed :: tokens) place back (lexed :: before) newline after where
  tokens_eq := by rw [h.tokens_eq, List.cons_append]
  isBreak := h.isBreak
  tiles := h.tiles
  past := List.forall_mem_cons.2 ⟨hpast, h.past⟩

theorem Breaks.here (hpiece : piece ≠ []) (h : Tiles (offset + byteSize piece) back tokens) :
    Breaks (⟨.newline, ⟨offset, byteSize piece⟩⟩ :: tokens) (offset + byteSize piece) back []
      ⟨.newline, ⟨offset, byteSize piece⟩⟩ tokens where
  tokens_eq := rfl
  isBreak := rfl
  tiles := h
  past := by
    have hpos := byteSize_pos hpiece
    rw [List.nil_append]
    refine List.forall_mem_singleton.2 ⟨?_, Nat.le_refl _⟩
    dsimp only
    omega

theorem LeavesString.cons {lexed : Lexed} {place : Nat} (h : LeavesString tokens place back) :
    LeavesString (lexed :: tokens) place back := by
  obtain ⟨value, span, taken, quote, rest, hmem, hparts⟩ := h
  exact ⟨value, span, taken, quote, rest, List.mem_cons_of_mem lexed hmem, hparts⟩

/-- A line begins between tokens, or inside a string. -/
theorem Tiles.at_break (h : Tiles offset text tokens) (htext : text = front ++ '\n' :: back) :
    (∃ before newline after,
      Breaks tokens (offset + byteSize (front ++ ['\n'])) back before newline after) ∨
    LeavesString tokens (offset + byteSize (front ++ ['\n'])) back := by
  induction h generalizing front with
  | nil => simp at htext
  | @cons offset token piece rest tokens hpiece hreads hspelled htail ih =>
      -- the line break is in this token's text, or in what follows
      have hcases : (∃ later, front = piece ++ later ∧ rest = later ++ '\n' :: back) ∨
          ∃ taken, piece = front ++ '\n' :: taken ∧ back = taken ++ rest := by
        rcases List.append_eq_append_iff.1 htext with ⟨later, hfront, hrest⟩ |
          ⟨taken, hfront, hback⟩
        · exact .inl ⟨later, hfront, hrest⟩
        · cases taken with
          | nil => exact .inl ⟨[], by simpa using hfront.symm, hback.symm⟩
          | cons c taken =>
              obtain ⟨rfl, rfl⟩ := List.cons.inj hback
              exact .inr ⟨taken, hfront, rfl⟩
      rcases hcases with ⟨later, rfl, hrest⟩ | ⟨taken, rfl, rfl⟩
      · have hplace : offset + byteSize (piece ++ later ++ ['\n']) =
            offset + byteSize piece + byteSize (later ++ ['\n']) := by
          rw [List.append_assoc, byteSize_append piece, Nat.add_assoc]
        have hpos := byteSize_pos hpiece
        rw [hplace]
        rcases ih hrest with ⟨before, newline, after, hbreaks⟩ | hleaves
        · refine .inl ⟨_, newline, after, hbreaks.cons ⟨?_, Nat.le_add_right _ _⟩⟩
          dsimp only
          omega
        · exact .inr hleaves.cons
      · rcases hspelled.at_break with ⟨rfl, rfl⟩ | ⟨value, taken, quote, rfl, rfl, hquote⟩
        · exact .inl ⟨[], _, tokens, .here hpiece htail⟩
        · refine .inr ⟨value, _, taken, quote, rest, List.mem_cons_self, ?_, by simp, hquote, ?_⟩
          · exact Nat.lt_add_of_pos_right (byteSize_pos (by simp))
          · show offset + byteSize (front ++ '\n' :: (taken ++ [quote])) = _
            rw [List.append_cons, byteSize_append, Nat.add_assoc]

/-- After a token that is a line break, a line begins. -/
theorem Tiles.breaks {before after : List Lexed} {newline : Lexed} (h : Tiles offset text tokens)
    (htokens : tokens = before ++ newline :: after) (hbreak : newline.token = .newline) :
    ∃ front back, text = front ++ '\n' :: back ∧
      Breaks tokens (offset + byteSize (front ++ ['\n'])) back before newline after := by
  induction h generalizing before with
  | nil => simp at htokens
  | @cons offset token piece rest tokens hpiece hreads hspelled htail ih =>
      cases before with
      | nil =>
          obtain ⟨rfl, rfl⟩ := List.cons.inj htokens
          obtain rfl : token = .newline := hbreak
          have hfront : ∃ front, piece = front ++ ['\n'] := by
            cases hspelled with
            | mark hsign => cases hsign
            | newline => exact ⟨[], rfl⟩
            | «return» => exact ⟨['\r'], rfl⟩
          obtain ⟨front, rfl⟩ := hfront
          exact ⟨front, rest, by simp, .here hpiece htail⟩
      | cons first before =>
          obtain ⟨rfl, hmore⟩ := List.cons.inj htokens
          obtain ⟨front, back, rfl, hbreaks⟩ := ih hmore
          have hpos := byteSize_pos hpiece
          refine ⟨piece ++ front, back, by simp, ?_⟩
          have hplace : offset + byteSize (piece ++ front ++ ['\n']) =
              offset + byteSize piece + byteSize (front ++ ['\n']) := by
            rw [List.append_assoc, byteSize_append piece, Nat.add_assoc]
          rw [hplace]
          refine hbreaks.cons ⟨?_, Nat.le_add_right _ _⟩
          dsimp only
          omega

/-- Characters that are no quotes leave the place in the string. -/
theorem LeavesString.inString {place : Nat} (lead : List Char)
    (h : LeavesString tokens place (lead ++ rest))
    (hlead : ∀ d ∈ lead, d ≠ '"' ∧ d ≠ '\'') : InString tokens (place + byteSize lead) := by
  obtain ⟨value, span, taken, quote, more, hmem, hstart, hback, hquote, hstop⟩ := h
  refine ⟨value, span, hmem, by omega, ?_⟩
  rw [hstop]
  rcases List.append_eq_append_iff.1 hback with ⟨later, rfl, -⟩ | ⟨later, rfl, hmore⟩
  · have hpos : 0 < byteSize [quote] := byteSize_pos (by simp)
    rw [byteSize_append, byteSize_append]
    omega
  · cases later with
    | nil =>
        have hpos : 0 < byteSize [quote] := byteSize_pos (by simp)
        rw [List.append_nil, byteSize_append]
        omega
    | cons d later =>
        obtain ⟨rfl, -⟩ := List.cons.inj hmore
        have hother := hlead quote (by simp)
        exact absurd hquote (by simp [hother])

/-- No string reaches over a place between two tokens. -/
theorem Breaks.not_inString {before after : List Lexed} {newline : Lexed} {place : Nat}
    (h : Breaks tokens place back before newline after) : ¬ InString tokens place := by
  rintro ⟨value, span, hmem, hstart, hstop⟩
  rw [h.tokens_eq, List.append_cons] at hmem
  rcases List.mem_append.1 hmem with hbefore | hafter
  · obtain ⟨-, hle⟩ := h.past _ hbefore
    dsimp only at hle
    omega
  · have hle := h.tiles.start_le hafter
    dsimp only at hle
    omega

end EditPipeline.Toml
