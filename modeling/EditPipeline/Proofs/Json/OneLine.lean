import EditPipeline.Proofs.Json.Literals

/-!
# The compact layout stands on one line

No value has a line feed in its compact text, not even a value with line feeds in its strings:
a string writes them as an escape, and nothing else of the layout is a control character.  That
holds of doubles as well, without a word about their digits: whatever decimal is written, it is
made of digits, a point, an exponent and signs.
-/

namespace EditPipeline.Json

/-! ## Numbers -/

theorem newline_notMem_natChars (n : Nat) : '\n' ∉ natChars n :=
  fun hmem => absurd (isDigit_of_mem_natChars hmem) (by decide)

theorem newline_notMem_intChars : ∀ n : Int, '\n' ∉ intChars n
  | .ofNat n => newline_notMem_natChars n
  | .negSucc n => List.not_mem_cons_of_ne_of_not_mem (by decide) (newline_notMem_natChars (n + 1))

/-- A point and zeros are all that a decimal without an exponent adds to its digits. -/
theorem newline_notMem_positional {digits : List Char} (hdigits : '\n' ∉ digits) (exponent : Int) :
    '\n' ∉ Decimal.positional digits exponent := by
  have hzeros (n : Nat) : '\n' ∉ List.replicate n '0' :=
    fun hmem => absurd (List.eq_of_mem_replicate hmem) (by decide)
  have htake (n : Nat) : '\n' ∉ digits.take n := fun hmem => hdigits (List.mem_of_mem_take hmem)
  have hdrop (n : Nat) : '\n' ∉ digits.drop n := fun hmem => hdigits (List.mem_of_mem_drop hmem)
  unfold Decimal.positional
  dsimp only
  split_ifs
  · simp [hdigits, hzeros]
  · simp [htake, hdrop]
  · simp [hdigits, hzeros]

theorem newline_notMem_magnitudeChars (x : Decimal.Scientific) : '\n' ∉ magnitudeChars x := by
  have hdigits : '\n' ∉ Decimal.digitsOf x.digits := newline_notMem_natChars x.digits
  unfold magnitudeChars
  dsimp only
  split_ifs with hplain hnegative
  · exact newline_notMem_positional hdigits x.exponent
  all_goals
    rw [List.mem_append, not_or]
    refine ⟨?_, by simp [newline_notMem_natChars]⟩
    split
    · next htext =>
        rw [htext] at hdigits
        simpa using hdigits
    · exact hdigits

theorem newline_notMem_floatChars (x : Float) : '\n' ∉ floatChars x := by
  unfold floatChars
  dsimp only
  split_ifs <;> simp [newline_notMem_magnitudeChars]

theorem newline_notMem_number : ∀ n : Number, '\n' ∉ n.chars
  | .integer n => newline_notMem_intChars n
  | .float x => newline_notMem_floatChars x

/-! ## Strings -/

/-- No piece of a string has a line feed in its text; one that stands for a line feed is an
escape. -/
theorem PieceText.newline_notMem {text : List Char} {piece : Piece} (htext : PieceText text piece) :
    '\n' ∉ text := by
  have hdigit {digit : Char} (hmem : digit ∈ hexDigits) : '\n' ≠ digit := by
    rintro rfl
    exact absurd hmem (by decide)
  cases htext with
  | plain hquote hslash hplain =>
      rw [List.mem_singleton]
      rintro rfl
      exact absurd hplain (by decide)
  | @short letter c hshort =>
      have hletters : ∀ pair ∈ shortEscapes, '\n' ≠ pair.1 := by decide
      simp [hletters _ hshort]
  | unit ha hb hc hd => simp [hdigit ha, hdigit hb, hdigit hc, hdigit hd]

theorem newline_notMem_escape (c : Char) : '\n' ∉ escape c := by
  obtain ⟨piece, -, htext⟩ := pieceText_escape c
  exact htext.newline_notMem

theorem newline_notMem_quote (s : String) : '\n' ∉ quote s := by
  simp [quote, newline_notMem_escape]

/-! ## Values -/

/-- What stands in a row of pieces stands in one of them or between them. -/
theorem mem_separated {c : Char} {separator : List Char} {pieces : List (List Char)}
    (hmem : c ∈ separated separator pieces) : c ∈ separator ∨ ∃ piece ∈ pieces, c ∈ piece := by
  induction pieces with
  | nil => cases hmem
  | cons piece pieces ih =>
      cases pieces with
      | nil => exact .inr ⟨piece, List.mem_cons_self, hmem⟩
      | cons second pieces =>
          obtain (hpiece | hsep) | hrest := (List.mem_append.1 hmem).imp_left List.mem_append.1
          · exact .inr ⟨piece, List.mem_cons_self, hpiece⟩
          · exact .inl hsep
          · exact (ih hrest).imp_right fun ⟨other, hother, hc⟩ =>
              ⟨other, List.mem_cons_of_mem _ hother, hc⟩

/-- A container of pieces on one line stands on one line. -/
theorem newline_notMem_container {opening closing : Char} {pieces : List (List Char)}
    (hopening : '\n' ≠ opening) (hclosing : '\n' ≠ closing)
    (hpieces : ∀ piece ∈ pieces, '\n' ∉ piece) :
    '\n' ∉ opening :: separated [','] pieces ++ [closing] := by
  have hseparated : '\n' ∉ separated [','] pieces := fun hmem => by
    obtain hcomma | ⟨piece, hpiece, hmem⟩ := mem_separated hmem
    · exact absurd hcomma (by decide)
    · exact hpieces piece hpiece hmem
  simp [hopening, hclosing, hseparated]

mutual

/-- **The compact text of a value is one line.** -/
theorem newline_notMem_compact : ∀ value : Json, '\n' ∉ compact value
  | .null => by decide
  | .bool true => by decide
  | .bool false => by decide
  | .number n => newline_notMem_number n
  | .string s => newline_notMem_quote s
  | .array items =>
      newline_notMem_container (by decide) (by decide) (newline_notMem_compactItems items)
  | .object members =>
      newline_notMem_container (by decide) (by decide) (newline_notMem_compactMembers members)

theorem newline_notMem_compactItems :
    ∀ items : List Json, ∀ piece ∈ compactItems items, '\n' ∉ piece
  | [] => fun _ hpiece => absurd hpiece List.not_mem_nil
  | item :: items =>
      List.forall_mem_cons.2 ⟨newline_notMem_compact item, newline_notMem_compactItems items⟩

theorem newline_notMem_compactMembers :
    ∀ members : List (String × Json), ∀ piece ∈ compactMembers members, '\n' ∉ piece
  | [] => fun _ hpiece => absurd hpiece List.not_mem_nil
  | (name, value) :: members =>
      List.forall_mem_cons.2 ⟨by simp [newline_notMem_quote, newline_notMem_compact value],
        newline_notMem_compactMembers members⟩

end

end EditPipeline.Json
