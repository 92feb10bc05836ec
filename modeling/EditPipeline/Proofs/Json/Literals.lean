import EditPipeline.Json.Printer
import EditPipeline.Json.Token
import Mathlib.Tactic.IntervalCases
import Mathlib.Tactic.SplitIfs

/-!
# Literals anywhere in a text

The texts of strings and of numbers, as the JSON grammar has them, and the tokens that they
are scanned into whatever stands after them.  For a number that needs a condition: no
character may follow that it can go on with.  `EndsNumber` says so, and every character that
may stand after a value fulfils it.

A string is read in pieces, and the grammar allows pieces that make no string: an escape may
be one half of a pair by itself.  Such a literal can only be skipped.  What `quote` writes
always makes the string again.  A control character without a letter of its own comes back by
its number, which is never one half of a pair, so `Piece.StandsFor` does not depend on what
follows it.
-/

namespace EditPipeline.Json

/-! ## Strings -/

/-- The letters of the short escapes, and the characters that they stand for. -/
def shortEscapes : List (Char × Char) :=
  [('"', '"'), ('\\', '\\'), ('/', '/'), ('b', '\x08'), ('f', '\x0c'), ('n', '\n'), ('r', '\r'),
    ('t', '\t')]

/-- The digits of the escapes by number. -/
def hexDigits : List Char := "0123456789abcdefABCDEF".toList

/-- The text of one piece of a string. -/
inductive PieceText : List Char → Piece → Prop
  | plain {c : Char} (hquote : c ≠ '"') (hslash : c ≠ '\\') (hplain : 0x20 ≤ c.toNat) :
      PieceText [c] (.char c)
  | short {letter c : Char} (hshort : (letter, c) ∈ shortEscapes) :
      PieceText ['\\', letter] (.char c)
  | unit {a b c d : Char} (ha : a ∈ hexDigits) (hb : b ∈ hexDigits) (hc : c ∈ hexDigits)
      (hd : d ∈ hexDigits) :
      PieceText ['\\', 'u', a, b, c, d] (.unit ((hexUnit? a b c d).getD 0))

/-- What stands between the quotes of a string. -/
inductive BodyText : List Char → List Piece → Prop
  | nil : BodyText [] []
  | cons {text more : List Char} {piece : Piece} {pieces : List Piece}
      (hpiece : PieceText text piece) (hmore : BodyText more pieces) :
      BodyText (text ++ more) (piece :: pieces)

/-- The text of a string, quotes included. -/
inductive StringText : List Char → Lexeme String → Prop
  | mk {body : List Char} {pieces : List Piece} (hbody : BodyText body pieces) :
      StringText ('"' :: body ++ ['"']) ⟨(joinPieces none pieces).map String.ofList, none⟩

/-! ### Scanning a string -/

theorem shortEscape?_of_mem : ∀ pair ∈ shortEscapes, shortEscape? pair.1 = some pair.2 := by
  decide

theorem exists_digitOf? {digit : Char} (hdigit : digit ∈ hexDigits) :
    ∃ n, Text.digitOf? 16 digit = some n := by
  have hall : hexDigits.all (fun digit => (Text.digitOf? 16 digit).isSome) = true := by decide
  exact Option.isSome_iff_exists.1 (List.all_eq_true.1 hall digit hdigit)

theorem exists_hexUnit? {a b c d : Char} (ha : a ∈ hexDigits) (hb : b ∈ hexDigits)
    (hc : c ∈ hexDigits) (hd : d ∈ hexDigits) : ∃ n, hexUnit? a b c d = some n := by
  obtain ⟨na, ha⟩ := exists_digitOf? ha
  obtain ⟨nb, hb⟩ := exists_digitOf? hb
  obtain ⟨nc, hc⟩ := exists_digitOf? hc
  obtain ⟨nd, hd⟩ := exists_digitOf? hd
  unfold hexUnit?
  rw [ha, hb, hc, hd]
  exact ⟨_, rfl⟩

theorem scanBody_piece {text : List Char} {piece : Piece} (hpiece : PieceText text piece)
    (rest : List Char) : scanBody (text ++ rest) = (scanBody rest).cons piece := by
  cases hpiece with
  | @plain c hquote hslash hplain =>
      show scanBody (c :: rest) = _
      rw [scanBody]
      · rw [if_neg (Nat.not_lt.2 hplain)]
      all_goals intros; contradiction
  | @short letter c hshort =>
      have hletter : shortEscape? letter = some c := shortEscape?_of_mem _ hshort
      have hu : letter ≠ 'u' := by
        rintro rfl
        cases hletter
      show scanBody ('\\' :: letter :: rest) = _
      rw [scanBody]
      · rw [hletter]
      all_goals
        intros
        simp_all
  | @unit a b c d ha hb hc hd =>
      obtain ⟨n, hn⟩ := exists_hexUnit? ha hb hc hd
      show scanBody ('\\' :: 'u' :: a :: b :: c :: d :: rest) = _
      rw [scanBody, hn]
      rfl

theorem scanBody_text {body : List Char} {pieces : List Piece} (hbody : BodyText body pieces)
    (rest : List Char) : scanBody (body ++ '"' :: rest) = ⟨pieces, .ok rest⟩ := by
  induction hbody with
  | nil => rfl
  | cons hpiece hmore ih => rw [List.append_assoc, scanBody_piece hpiece, ih]; rfl

/-- A string is scanned into what its pieces make. -/
theorem scan_string {text : List Char} {s : Lexeme String} (htext : StringText text s)
    (rest : List Char) : scan (text ++ rest) = .string s :: scan rest := by
  cases htext with
  | @mk body pieces hbody =>
      have hstring : scannedString (body ++ '"' :: rest) =
          ⟨.string ⟨(joinPieces none pieces).map String.ofList, none⟩, rest⟩ := by
        unfold scannedString
        rw [scanBody_text hbody]
        rfl
      have hquotes : '"' :: body ++ ['"'] ++ rest = '"' :: (body ++ '"' :: rest) := by simp
      rw [hquotes, scan, if_neg (by decide)]
      show (scannedString _).token :: scan (scannedString _).rest = _
      rw [hstring]

/-! ### Strings as they are written -/

/-- A piece of a string gives this character, whatever pieces follow it. -/
def Piece.StandsFor (piece : Piece) (c : Char) : Prop :=
  ∀ (ending : Option Fault) (rest : List Piece),
    joinPieces ending (piece :: rest) = (joinPieces ending rest).map (c :: ·)

theorem Piece.standsFor_char (c : Char) : (Piece.char c).StandsFor c :=
  fun _ _ => rfl

/-- A number below the pairs is the number of a character. -/
theorem Piece.standsFor_unit {n : Nat} (hn : n < 0xD800) :
    (Piece.unit n).StandsFor (Char.ofNat n) := by
  intro ending rest
  have hleading : ¬ IsLeading n := fun h => absurd h.1 (by omega)
  have htrailing : ¬ IsTrailing n := fun h => absurd h.1 (by omega)
  rw [joinPieces.eq_def]
  split
  · rename_i heq
    cases heq
  · rename_i heq
    cases heq
  · rename_i heq
    cases heq
    rw [if_neg hleading, if_neg htrailing]
  · rename_i heq
    cases heq
    rw [if_neg hleading, if_neg htrailing]

/-- The four digits of a control character. -/
theorem hexUnit?_control : ∀ n < 0x20,
    hexDigit (n / 16) ∈ hexDigits ∧ hexDigit (n % 16) ∈ hexDigits ∧
      hexUnit? '0' '0' (hexDigit (n / 16)) (hexDigit (n % 16)) = some n := by
  decide

/-- Every character stands between quotes as a piece that gives it back. -/
theorem pieceText_escape (c : Char) :
    ∃ piece : Piece, piece.StandsFor c ∧ PieceText (escape c) piece := by
  unfold escape
  split_ifs with hquote hslash hb hf hn hr ht hcontrol
  · exact ⟨_, Piece.standsFor_char c, .short (by rw [hquote]; decide)⟩
  · exact ⟨_, Piece.standsFor_char c, .short (by rw [hslash]; decide)⟩
  · exact ⟨_, Piece.standsFor_char c, .short (by rw [hb]; decide)⟩
  · exact ⟨_, Piece.standsFor_char c, .short (by rw [hf]; decide)⟩
  · exact ⟨_, Piece.standsFor_char c, .short (by rw [hn]; decide)⟩
  · exact ⟨_, Piece.standsFor_char c, .short (by rw [hr]; decide)⟩
  · exact ⟨_, Piece.standsFor_char c, .short (by rw [ht]; decide)⟩
  · obtain ⟨hhigh, hlow, hvalue⟩ := hexUnit?_control c.toNat hcontrol
    have hstands := Piece.standsFor_unit (n := c.toNat) (by omega)
    rw [Char.ofNat_toNat] at hstands
    have hzero : '0' ∈ hexDigits := by decide
    have hpiece := PieceText.unit hzero hzero hhigh hlow
    rw [hvalue] at hpiece
    exact ⟨.unit c.toNat, hstands, hpiece⟩
  · exact ⟨_, Piece.standsFor_char c, .plain hquote hslash (Nat.le_of_not_lt hcontrol)⟩

theorem bodyText_escape (chars : List Char) :
    ∃ pieces, joinPieces none pieces = .ok chars ∧ BodyText (chars.flatMap escape) pieces := by
  induction chars with
  | nil => exact ⟨[], rfl, .nil⟩
  | cons c chars ih =>
      obtain ⟨pieces, hjoin, hbody⟩ := ih
      obtain ⟨piece, hstands, hpiece⟩ := pieceText_escape c
      refine ⟨piece :: pieces, ?_, .cons hpiece hbody⟩
      rw [hstands, hjoin]
      rfl

/-- A string is made again from its text. -/
theorem stringText_quote (s : String) : StringText (quote s) (.ok s) := by
  obtain ⟨pieces, hjoin, hbody⟩ := bodyText_escape s.toList
  have htext := StringText.mk hbody
  rw [hjoin] at htext
  simpa [quote, Except.map, Lexeme.ok] using htext

/-! ## Numbers -/

/-- A row of digits, at least one. -/
def IsDigits (text : List Char) : Prop := text ≠ [] ∧ ∀ c ∈ text, c.isDigit = true

/-- The digits before a point, which begin with a zero only if that is all. -/
def IsWhole (text : List Char) : Prop := IsDigits text ∧ (text.head? = some '0' → text = ['0'])

/-- The text of a fraction, and its digits. -/
inductive FractionText : List Char → List Char → Prop
  | none : FractionText [] []
  | some {digits : List Char} (hdigits : IsDigits digits) : FractionText ('.' :: digits) digits

/-- The text of a sign, and whether it is a minus. -/
inductive SignText : List Char → Bool → Prop
  | none : SignText [] false
  | plus : SignText ['+'] false
  | minus : SignText ['-'] true

/-- The text of an exponent, and the exponent. -/
inductive ExponentText : List Char → Option (Bool × List Char) → Prop
  | none : ExponentText [] none
  | some {mark : Char} {sign digits : List Char} {negative : Bool} (hmark : mark = 'e' ∨ mark = 'E')
      (hsign : SignText sign negative) (hdigits : IsDigits digits) :
      ExponentText (mark :: (sign ++ digits)) (some (negative, digits))

/-- The text of a number, and the numeral that it is. -/
inductive NumberText : List Char → Numeral → Prop
  | mk {x : Numeral} {fraction exponent : List Char} (hwhole : IsWhole x.whole)
      (hfraction : FractionText fraction x.fraction) (hexponent : ExponentText exponent x.exponent) :
      NumberText ((if x.negative then ['-'] else []) ++ (x.whole ++ (fraction ++ exponent))) x

/-! ### Scanning a number -/

/-- A text that begins with nothing that a numeral could go on with. -/
def EndsNumber (rest : List Char) : Prop :=
  ∀ c ∈ rest.head?, c.isDigit = false ∧ c ≠ '.' ∧ c ≠ 'e' ∧ c ≠ 'E'

theorem endsNumber_nil : EndsNumber [] := by
  intro c hc
  cases hc

theorem endsNumber_cons {c : Char} (rest : List Char)
    (hc : c.isDigit = false ∧ c ≠ '.' ∧ c ≠ 'e' ∧ c ≠ 'E') : EndsNumber (c :: rest) := by
  intro d hd
  cases hd
  exact hc

section Numerals

variable {text ds rest : List Char} {n : Nat}

/-- Digits end where something else begins. -/
theorem digits_append (hdigits : IsDigits ds) (hrest : ∀ c ∈ rest.head?, c.isDigit = false) :
    Numeral.digits (ds ++ rest) = .ok (ds, rest) := by
  obtain ⟨hne, hall⟩ := hdigits
  have htake : rest.takeWhile Char.isDigit = [] := by
    cases rest with
    | nil => rfl
    | cons d rest => exact List.takeWhile_cons_of_neg (by simp [hrest d rfl])
  have hdrop : rest.dropWhile Char.isDigit = rest := by
    cases rest with
    | nil => rfl
    | cons d rest => exact List.dropWhile_cons_of_neg (by simp [hrest d rfl])
  have hfirst : Numeral.digits (ds ++ rest) =
      .ok ((ds ++ rest).takeWhile Char.isDigit, (ds ++ rest).dropWhile Char.isDigit) := by
    obtain ⟨c, more, rfl⟩ := List.exists_cons_of_ne_nil hne
    exact if_pos (hall c List.mem_cons_self)
  rw [hfirst, List.takeWhile_append_of_pos hall, List.dropWhile_append_of_pos hall, htake, hdrop,
    List.append_nil]

theorem scanWhole_append (hwhole : IsWhole ds) (hrest : ∀ c ∈ rest.head?, c.isDigit = false) :
    Numeral.scanWhole (ds ++ rest) = .ok (ds, rest) := by
  have hdigits := digits_append hwhole.1 hrest
  unfold Numeral.scanWhole
  split
  · next c more htext =>
      -- a zero in front is all there is
      obtain ⟨d, left, rfl⟩ := List.exists_cons_of_ne_nil hwhole.1.1
      obtain ⟨rfl, -⟩ := List.cons.inj htext
      rw [hwhole.2 rfl] at htext ⊢
      obtain rfl := (List.cons.inj htext).2
      rw [if_neg (by simp [hrest c rfl])]
  · exact hdigits

theorem scanFraction_append (htext : FractionText text ds)
    (hrest : ∀ c ∈ rest.head?, c.isDigit = false ∧ c ≠ '.') :
    Numeral.scanFraction (text ++ rest) = .ok (ds, rest) := by
  cases htext with
  | none =>
      rw [List.nil_append]
      unfold Numeral.scanFraction
      split
      · exact absurd rfl (hrest _ rfl).2
      · rfl
  | some hdigits => exact digits_append hdigits fun c hc => (hrest c hc).1

theorem scanSign_append {sign : List Char} {negative : Bool} (hsign : SignText sign negative)
    (hdigits : IsDigits ds) : Numeral.scanSign (sign ++ (ds ++ rest)) = (negative, ds ++ rest) := by
  cases hsign with
  | none =>
      obtain ⟨c, more, rfl⟩ := List.exists_cons_of_ne_nil hdigits.1
      have hc : c.isDigit = true := hdigits.2 c List.mem_cons_self
      rw [List.nil_append, List.cons_append]
      unfold Numeral.scanSign
      split
      · next heq =>
          obtain ⟨rfl, -⟩ := List.cons.inj heq
          exact absurd hc (by decide)
      · next heq =>
          obtain ⟨rfl, -⟩ := List.cons.inj heq
          exact absurd hc (by decide)
      · rfl
  | plus => rfl
  | minus => rfl

theorem scanExponent_append {exponent : Option (Bool × List Char)}
    (htext : ExponentText text exponent) (hends : EndsNumber rest) :
    Numeral.scanExponent (text ++ rest) = .ok (exponent, rest) := by
  cases htext with
  | none =>
      rw [List.nil_append]
      unfold Numeral.scanExponent
      split
      · rw [if_neg (not_or.2 (hends _ rfl).2.2)]
      · rfl
  | @some mark sign digits negative hmark hsign hdigits =>
      rw [List.cons_append, List.append_assoc, Numeral.scanExponent, if_pos hmark,
        scanSign_append hsign hdigits]
      dsimp only
      rw [digits_append hdigits fun c hc => (hends c hc).1]
      rfl

theorem head?_exponent {exponent : Option (Bool × List Char)} (htext : ExponentText text exponent)
    (hends : EndsNumber rest) : ∀ c ∈ (text ++ rest).head?, c.isDigit = false ∧ c ≠ '.' := by
  intro c hc
  cases htext with
  | none => exact ⟨(hends c hc).1, (hends c hc).2.1⟩
  | some hmark hsign hdigits =>
      cases hc
      rcases hmark with rfl | rfl <;> decide

theorem head?_fraction (htext : FractionText text ds)
    (hrest : ∀ c ∈ rest.head?, c.isDigit = false) :
    ∀ c ∈ (text ++ rest).head?, c.isDigit = false := by
  intro c hc
  cases htext with
  | none => exact hrest c hc
  | some hdigits =>
      cases hc
      rfl

theorem scanMinus_append (negative : Bool) (hdigits : IsDigits ds) (rest : List Char) :
    Numeral.scanMinus ((if negative then ['-'] else []) ++ (ds ++ rest)) = (negative, ds ++ rest) := by
  cases negative with
  | true => rfl
  | false =>
      obtain ⟨c, more, rfl⟩ := List.exists_cons_of_ne_nil hdigits.1
      have hc : c.isDigit = true := hdigits.2 c List.mem_cons_self
      show Numeral.scanMinus (c :: (more ++ rest)) = _
      unfold Numeral.scanMinus
      split
      · next heq =>
          obtain ⟨rfl, -⟩ := List.cons.inj heq
          exact absurd hc (by decide)
      · rfl

theorem scan_numeral {x : Numeral} (htext : NumberText text x) (hends : EndsNumber rest) :
    Numeral.scan (text ++ rest) = .ok (x, rest) := by
  cases htext with
  | @mk x fraction exponent hwhole hfraction hexponent =>
      have hafter := head?_exponent hexponent hends
      have hpoint := head?_fraction hfraction fun c hc => (hafter c hc).1
      simp only [List.append_assoc]
      unfold Numeral.scan
      rw [scanMinus_append x.negative hwhole.1]
      show (Numeral.scanWhole (x.whole ++ (fraction ++ (exponent ++ rest))) >>= _) = _
      rw [scanWhole_append hwhole hpoint]
      show (Numeral.scanFraction (fraction ++ (exponent ++ rest)) >>= _) = _
      rw [scanFraction_append hfraction hafter]
      show (Numeral.scanExponent (exponent ++ rest) >>= _) = _
      rw [scanExponent_append hexponent hends]
      rfl

/-- The first character of a number. -/
theorem exists_cons_of_numberText {x : Numeral} (htext : NumberText text x) :
    ∃ (c : Char) (more : List Char), text = c :: more ∧ (c = '-' ∨ c.isDigit = true) := by
  cases htext with
  | @mk x fraction exponent hwhole hfraction hexponent =>
      obtain ⟨c, more, hdigits⟩ := List.exists_cons_of_ne_nil hwhole.1.1
      have hc : c.isDigit = true := hwhole.1.2 c (hdigits ▸ List.mem_cons_self)
      rw [hdigits]
      cases x.negative with
      | true => exact ⟨'-', _, rfl, .inl rfl⟩
      | false => exact ⟨c, _, rfl, .inr hc⟩

theorem scanToken_number {c : Char} (hc : c = '-' ∨ c.isDigit = true) (rest : List Char) :
    scanToken c rest = scannedNumber (c :: rest) := by
  unfold scanToken
  split
  case h_11 => exact if_pos hc
  all_goals exact absurd hc (by decide)

theorem isSpace_number {c : Char} (hc : c = '-' ∨ c.isDigit = true) : isSpace c = false := by
  rcases hc with rfl | hdigit
  · rfl
  · unfold isSpace
    simp only [Bool.or_eq_false_iff, decide_eq_false_iff_not]
    refine ⟨⟨⟨?_, ?_⟩, ?_⟩, ?_⟩
    all_goals
      rintro rfl
      exact absurd hdigit (by decide)

/-- A number is scanned into what its numeral stands for. -/
theorem scan_number {x : Numeral} (htext : NumberText text x) (hends : EndsNumber rest) :
    scan (text ++ rest) = .number x.lexeme :: scan rest := by
  obtain ⟨c, more, hcons, hc⟩ := exists_cons_of_numberText htext
  have hnumber : scannedNumber (c :: (more ++ rest)) = ⟨.number x.lexeme, rest⟩ := by
    unfold scannedNumber
    rw [← List.cons_append, ← hcons, scan_numeral htext hends]
  rw [hcons, List.cons_append, scan, isSpace_number hc, if_neg (by decide), scanToken_number hc,
    hnumber]

/-! ### Integers as they are written -/

theorem isDigit_of_mem_natChars {c : Char} (hc : c ∈ natChars n) : c.isDigit = true :=
  Nat.isDigit_of_mem_toDigits (by decide) (by decide) hc

theorem natOfDigits_natChars (n : Nat) : Numeral.natOfDigits (natChars n) = n :=
  Nat.ofDigitChars_toDigits (by decide) (by decide)

/-- The first digit, which is zero only in the text of zero itself. -/
theorem natChars_eq_cons (n : Nat) :
    ∃ (c : Char) (digits : List Char), natChars n = c :: digits ∧ (0 < n → c ≠ '0') := by
  induction n using Nat.strong_induction_on with
  | _ n ih =>
      unfold natChars Decimal.digitsOf at ih ⊢
      by_cases hsmall : n < 10
      · refine ⟨n.digitChar, [], Nat.toDigits_of_lt_base hsmall, fun hpos => ?_⟩
        interval_cases n <;> decide
      · -- the last digit does not matter, and without it the number is not zero yet
        obtain ⟨c, digits, htext, hzero⟩ := ih (n / 10) (by omega)
        refine ⟨c, digits ++ [(n % 10).digitChar], ?_, fun _ => hzero (by omega)⟩
        rw [Nat.toDigits_eq_if (by decide), if_neg hsmall, htext]
        rfl

theorem isWhole_natChars (n : Nat) : IsWhole (natChars n) := by
  obtain ⟨c, digits, htext, hzero⟩ := natChars_eq_cons n
  refine ⟨⟨htext ▸ List.cons_ne_nil c digits, fun _ => isDigit_of_mem_natChars⟩, fun hhead => ?_⟩
  obtain rfl : n = 0 := by
    rw [htext] at hhead
    exact Nat.eq_zero_of_not_pos fun hpos => hzero hpos (Option.some.inj hhead)
  rfl

end Numerals

/-- The numeral that an integer is written as. -/
def Numeral.ofInt (n : Int) : Numeral := { negative := n < 0, whole := natChars n.natAbs }

theorem numberText_intChars (n : Int) : NumberText (intChars n) (.ofInt n) := by
  have htext := NumberText.mk (x := Numeral.ofInt n) (isWhole_natChars n.natAbs) .none .none
  cases n with
  | ofNat n =>
      have hsign : ¬ (n : Int) < 0 := Int.not_lt.2 (Int.natCast_nonneg n)
      simpa [Numeral.ofInt, hsign, intChars] using htext
  | negSucc n => simpa [Numeral.ofInt, Int.negSucc_lt_zero, intChars] using htext

theorem Numeral.value_ofInt {n : Int} (hword : IsWord n) : (ofInt n).value = some (.integer n) := by
  obtain ⟨hlow, hhigh⟩ := hword
  have hnat : natOfDigits (ofInt n).whole = n.natAbs := natOfDigits_natChars _
  have hplain : ((ofInt n).fraction.isEmpty && (ofInt n).exponent.isNone) = true := rfl
  unfold Numeral.value
  rw [if_pos hplain]
  dsimp only
  rw [hnat]
  by_cases hneg : n < 0
  · have habs : -(n.natAbs : Int) = n := by omega
    rw [if_pos (by simpa [ofInt] using hneg), if_pos (by omega), habs]
  · have habs : (n.natAbs : Int) = n := by omega
    rw [if_neg (by simpa [ofInt] using hneg), if_pos (by omega), habs]

theorem Numeral.lexeme_ofInt {n : Int} (hword : IsWord n) : (ofInt n).lexeme = .ok (.integer n) := by
  rw [Numeral.lexeme, Numeral.value_ofInt hword]

end EditPipeline.Json
