import EditPipeline.Keyed
import Mathlib.Data.List.Induction
import Mathlib.Data.List.Nodup

/-!
# What lists with one element for each key hold

The first element of a key decides on its place in such a list, and the last one is what is
found there: `Keyed.Settled` says so of a list and of the elements that were put into it, and
every element that is put keeps it (`Keyed.Settled.put`).
-/

namespace EditPipeline.Keyed

variable {α κ : Type} [DecidableEq κ] {key : α → κ} {a : α} {held inserted : List α} {k : κ}

/-- The last of the elements that have the key. -/
def latest (key : α → κ) (k : κ) (inserted : List α) : Option α :=
  (inserted.filter fun a => key a = k).getLast?

theorem latest_append (k : κ) (front back : List α) :
    latest key k (front ++ back) = (latest key k back).or (latest key k front) := by
  rw [latest, List.filter_append, List.getLast?_append]
  rfl

theorem latest_singleton (k : κ) (a : α) :
    latest key k [a] = if key a = k then some a else none := by
  by_cases h : key a = k <;> simp [latest, h]

/-! ## Finding -/

/-- An element is found under its own key, and nothing else is. -/
theorem find?_eq_some_iff (hnodup : (held.map key).Nodup) :
    held.find? (fun a => key a = k) = some a ↔ a ∈ held ∧ key a = k := by
  have hsound {found : α} (hfound : held.find? (fun a => key a = k) = some found) :
      found ∈ held ∧ key found = k :=
    ⟨List.mem_of_find?_eq_some hfound, by simpa using List.find?_some hfound⟩
  refine ⟨hsound, ?_⟩
  rintro ⟨hmem, hkey⟩
  have hsome : (held.find? fun a => key a = k).isSome = true := by
    rw [List.find?_isSome]
    exact ⟨a, hmem, decide_eq_true hkey⟩
  obtain ⟨found, hfound⟩ := Option.isSome_iff_exists.1 hsome
  -- no key stands twice in the list
  have hsame : found = a :=
    List.inj_on_of_nodup_map hnodup (hsound hfound).1 hmem ((hsound hfound).2.trans hkey.symm)
  rw [hfound, hsame]

theorem find?_put (a : α) (held : List α) (k : κ) :
    (put key a held).find? (fun a => key a = k) =
      if key a = k then some a else held.find? fun a => key a = k := by
  induction held with
  | nil => by_cases h : key a = k <;> simp [put, h]
  | cons other rest ih =>
      by_cases hsame : key other = key a
      · by_cases h : key a = k <;> simp [put, h, hsame]
      · rw [put, if_neg hsame, List.find?_cons, List.find?_cons, ih]
        by_cases h : key a = k
        · have hother : key other ≠ k := fun hkey => hsame (hkey.trans h.symm)
          simp [h, hother]
        · simp [h]

/-! ## First places and last elements -/

/-- The list is what putting these elements leaves: each key in the place of its first element,
with its last one. -/
structure Settled (key : α → κ) (held inserted : List α) : Prop where
  keys : held.map key = (inserted.map key).eraseDups
  nodup : (held.map key).Nodup
  last : ∀ k, held.find? (fun a => key a = k) = latest key k inserted

namespace Settled

theorem empty : Settled key [] [] := ⟨rfl, .nil, fun _ => rfl⟩

theorem mem_keys (hsettled : Settled key held inserted) :
    k ∈ held.map key ↔ k ∈ inserted.map key := by
  rw [hsettled.keys, List.mem_eraseDups]

theorem put (hsettled : Settled key held inserted) (a : α) :
    Settled key (put key a held) (inserted ++ [a]) where
  keys := by
    rw [map_put, List.map_append, List.eraseDups_append, ← hsettled.keys]
    by_cases hknown : key a ∈ inserted.map key
    · have hnone : [key a].removeAll (inserted.map key) = [] := by
        simpa [List.removeAll] using hknown
      rw [if_pos (hsettled.mem_keys.2 hknown), List.map_singleton, hnone, List.eraseDups_nil,
        List.append_nil]
    · have hnew : [key a].removeAll (inserted.map key) = [key a] := by
        simpa [List.removeAll] using hknown
      rw [if_neg (mt hsettled.mem_keys.1 hknown), List.map_singleton, hnew]
      rfl
  nodup := nodup_put hsettled.nodup
  last k := by
    rw [find?_put, latest_append, latest_singleton, ← hsettled.last]
    by_cases h : key a = k <;> simp [h]

/-- An empty list into which elements are put one after the other. -/
theorem foldl (inserted : List α) :
    Settled key (inserted.foldl (fun held a => Keyed.put key a held) []) inserted := by
  induction inserted using List.reverseRecOn with
  | nil => exact empty
  | append_singleton inserted a ih =>
      rw [List.foldl_append]
      exact ih.put a

theorem mem_iff (hsettled : Settled key held inserted) :
    a ∈ held ↔ latest key (key a) inserted = some a := by
  rw [← hsettled.last, find?_eq_some_iff hsettled.nodup, and_iff_left rfl]

end Settled

end EditPipeline.Keyed
