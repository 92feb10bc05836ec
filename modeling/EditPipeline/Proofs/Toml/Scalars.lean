import EditPipeline.Toml.Scalar

/-!
# What scalars can be

Nothing can be added to a scalar later (`closed_of_scalar?`).  Numbers, dates and times begin
with a digit or a sign, so a text that begins otherwise is a scalar only if it is one of four
words (`scalar?_of_word`).
-/

namespace EditPipeline.Toml

variable {c : Char} {text rest : List Char} {value : Value}

/-! ## Values that are finished -/

/-- A value to which nothing can be added. -/
def Value.Closed : Value → Prop
  | .array ofTables _ => ofTables = false
  | .table kind _ => kind = .inline
  | _ => True

theorem exists_integer (h : integer? text = some value) : ∃ n, value = .integer n := by
  have hword : ∀ {found : Option Nat} {make : Nat → Int},
      (found.bind fun n => word? (make n)) = some value → ∃ n, value = .integer n := by
    intro found make h
    obtain ⟨n, -, hn⟩ := Option.bind_eq_some_iff.1 h
    unfold word? at hn
    split at hn
    · exact ⟨_, (Option.some.inj hn).symm⟩
    · cases hn
  unfold integer? at h
  split at h
  all_goals exact hword h

theorem exists_float (h : float? text = some value) : ∃ x, value = .float x := by
  unfold float? at h
  obtain ⟨x, -, hx⟩ := Option.map_eq_some_iff.1 h
  exact ⟨_, hx.symm⟩

theorem closed_of_scalar? (h : scalar? text = some value) : value.Closed := by
  unfold scalar? at h
  split at h
  · cases h
    trivial
  · split at h
    · cases h
      trivial
    · split at h
      · cases h
        trivial
      · rcases Option.or_eq_some_iff.1 h with hinteger | ⟨-, hfloat⟩
        · obtain ⟨n, rfl⟩ := exists_integer hinteger
          trivial
        · obtain ⟨x, rfl⟩ := exists_float hfloat
          trivial

/-! ## Words -/

theorem digitOf?_ten (hc : c.isDigit = false) : Text.digitOf? 10 c = none := by
  unfold Text.digitOf?
  simp only [hc, Bool.false_eq_true, if_false]
  refine if_neg ?_
  split
  · omega
  · split
    · omega
    · omega

theorem decimal?_of_other (hc : c.isDigit = false) : decimal? (c :: rest) = none := by
  have hgo : digits?.go 10 false 0 (c :: rest) = none := by
    unfold digits?.go
    split
    · next heq => cases heq
    · rfl
    · next heq =>
        obtain ⟨rfl, rfl⟩ := List.cons.inj heq
        rw [digitOf?_ten hc]
        rfl
  exact hgo

theorem whole?_of_other (hc : c.isDigit = false) (hfront : text <+: c :: rest) :
    whole? text = none := by
  cases text with
  | nil => rfl
  | cons d text =>
      obtain ⟨rfl, -⟩ := List.cons_prefix_cons.1 hfront
      unfold whole?
      split
      · next heq =>
          rw [(List.cons.inj heq).1] at hc
      · exact decimal?_of_other hc

theorem prefix_splitAt? (p : Char → Bool) (text : List Char) : (splitAt? p text).1 <+: text := by
  unfold splitAt?
  split
  · exact List.prefix_refl text
  · exact List.takeWhile_prefix _

theorem fixed?_of_other (count : Nat) (hc : c.isDigit = false) :
    fixed? (count + 1) (c :: rest) = none := by
  unfold fixed?
  dsimp only
  rw [if_neg]
  rintro ⟨-, hall, -⟩
  rw [List.take_succ_cons, List.all_cons, hc] at hall
  cases hall

theorem isDatetime_of_other (hc : c.isDigit = false) : isDatetime (c :: rest) = false := by
  have hdate : date? (c :: rest) = none := by
    unfold date?
    rw [fixed?_of_other 3 hc]
    rfl
  have htime : time? (c :: rest) = none := by
    unfold time? clock?
    rw [fixed?_of_other 1 hc]
    rfl
  unfold isDatetime
  rw [hdate, htime]
  rfl

/-- What begins like a word and is none of the four that stand for something stands for
nothing. -/
theorem scalar?_of_word (hc : c.isDigit = false) (hsign : c ≠ '+' ∧ c ≠ '-')
    (htrue : c :: rest ≠ ['t', 'r', 'u', 'e']) (hfalse : c :: rest ≠ ['f', 'a', 'l', 's', 'e'])
    (hinf : c :: rest ≠ ['i', 'n', 'f']) (hnan : c :: rest ≠ ['n', 'a', 'n']) :
    scalar? (c :: rest) = none := by
  have hunsigned : sign (c :: rest) = (false, c :: rest) := by
    unfold sign
    split
    · next heq => exact absurd (List.cons.inj heq).1 hsign.2
    · next heq => exact absurd (List.cons.inj heq).1 hsign.1
    · rfl
  have hinteger : integer? (c :: rest) = none := by
    unfold integer?
    split
    · next heq => cases heq; cases hc
    · next heq => cases heq; cases hc
    · next heq => cases heq; cases hc
    · rw [hunsigned]
      dsimp only
      rw [whole?_of_other hc (List.prefix_refl _)]
      rfl
  have hmagnitude : magnitude? (c :: rest) = none := by
    unfold magnitude?
    rw [if_neg hinf, if_neg hnan]
    dsimp only
    split
    · rfl
    · rw [whole?_of_other hc ((prefix_splitAt? _ _).trans (prefix_splitAt? _ _))]
      rfl
  unfold scalar?
  rw [if_neg htrue, if_neg hfalse, isDatetime_of_other hc, hinteger, float?, hunsigned]
  dsimp only
  rw [hmagnitude]
  rfl

end EditPipeline.Toml
