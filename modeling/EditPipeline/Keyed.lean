/-!
# Lists with one element for each key

The types of a program and the kinds of a registry are kept in lists in which no
key occurs twice.  A new element takes the place of the one that has its key, or
goes to the end.
-/

namespace EditPipeline.Keyed

variable {α κ : Type} [DecidableEq κ] {key : α → κ} {a : α} {held : List α}

/-- The list with `a` in the place of the element that has its key, or at the end
if there is none. -/
def put (key : α → κ) (a : α) : List α → List α
  | [] => [a]
  | other :: rest => if key other = key a then a :: rest else other :: put key a rest

/-- Putting an element adds its key at the end, or no key. -/
theorem map_put (key : α → κ) (a : α) (held : List α) :
    (put key a held).map key =
      if key a ∈ held.map key then held.map key else held.map key ++ [key a] := by
  induction held with
  | nil => simp [put]
  | cons other rest ih =>
    by_cases h : key other = key a
    · simp [put, h]
    · simp only [put, if_neg h, List.map_cons, ih, List.mem_cons, Ne.symm h, false_or]
      split <;> simp

theorem nodup_put (hnodup : (held.map key).Nodup) : ((put key a held).map key).Nodup := by
  rw [map_put]
  split
  · exact hnodup
  · rename_i hnew
    refine List.nodup_append.2 ⟨hnodup, by simp, fun k hk other hother hsame => hnew ?_⟩
    rwa [← List.mem_singleton.1 hother, ← hsame]

/-- An element whose key is new goes to the end. -/
theorem put_append (hnew : key a ∉ held.map key) : put key a held = held ++ [a] := by
  induction held with
  | nil => rfl
  | cons other rest ih =>
    rw [List.map_cons, List.mem_cons, not_or] at hnew
    rw [put, if_neg (Ne.symm hnew.1), ih hnew.2]
    rfl

end EditPipeline.Keyed
