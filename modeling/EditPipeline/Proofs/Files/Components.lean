import EditPipeline.Files.Path
import Mathlib.Data.List.Basic

/-!
# Components of paths that are joined

Below a base that is not empty, a relative path adds its components to those of the base,
and the dot that it may begin with is lost (`components_join`).  So two paths with different
components can come to have the same ones below a base.

The segments of a path are the pieces of its text between slashes.  `split_cut` says what
segments a text has that is cut anywhere.
-/

namespace EditPipeline

namespace Path

variable {path base : Path} {text more name : List Char} {segments : List (List Char)}

/-! ## Segments -/

theorem split_append_slash (text more : List Char) :
    split (text ++ '/' :: more) = split text ++ split more := by
  induction text with
  | nil => simp [split]
  | cons c text ih =>
      rw [List.cons_append, split, split]
      by_cases hslash : c = '/'
      · rw [if_pos hslash, if_pos hslash, ih, List.cons_append]
      · rw [if_neg hslash, if_neg hslash, ih]
        cases hsplit : split text with
        | nil => exact absurd hsplit (split_ne_nil text)
        | cons segment rest => rfl

theorem split_of_noSlash (hslash : '/' ∉ text) : split text = [text] := by
  induction text with
  | nil => rfl
  | cons c text ih =>
      rw [List.mem_cons, not_or] at hslash
      rw [split, if_neg (Ne.symm hslash.1), ih hslash.2]

theorem noSlash_of_mem_split {segment : List Char} (hsegment : segment ∈ split text) :
    '/' ∉ segment := by
  induction text generalizing segment with
  | nil =>
      rw [split, List.mem_singleton] at hsegment
      simp [hsegment]
  | cons c text ih =>
      rw [split] at hsegment
      by_cases hslash : c = '/'
      · rw [if_pos hslash] at hsegment
        rcases List.mem_cons.1 hsegment with rfl | hsegment
        · simp
        · exact ih hsegment
      · rw [if_neg hslash] at hsegment
        cases hsplit : split text with
        | nil => exact absurd hsplit (split_ne_nil text)
        | cons first rest =>
            rw [hsplit] at hsegment ih
            rcases List.mem_cons.1 hsegment with rfl | hsegment
            · rw [List.mem_cons, not_or]
              exact ⟨Ne.symm hslash, ih (List.mem_cons_self ..)⟩
            · exact ih (List.mem_cons_of_mem _ hsegment)

theorem split_unsplit (hsegments : segments ≠ []) (hslash : ∀ segment ∈ segments, '/' ∉ segment) :
    split (unsplit segments) = segments := by
  induction segments with
  | nil => exact absurd rfl hsegments
  | cons segment rest ih =>
      rw [List.forall_mem_cons] at hslash
      cases rest with
      | nil => exact split_of_noSlash hslash.1
      | cons second rest =>
          rw [unsplit, split_append_slash, split_of_noSlash hslash.1,
            ih (List.cons_ne_nil _ _) hslash.2, List.singleton_append]
          exact List.cons_ne_nil _ _

/-- A text that is cut has the segments before the cut and a part of the one that was cut. -/
theorem split_cut (hstart : text <+: more) :
    ∃ (front back : List (List Char)) (cut whole : List Char),
      split more = front ++ whole :: back ∧ split text = front ++ [cut] ∧ cut <+: whole := by
  induction text generalizing more with
  | nil =>
      cases hsplit : split more with
      | nil => exact absurd hsplit (split_ne_nil more)
      | cons whole back => exact ⟨[], back, [], whole, rfl, rfl, List.nil_prefix⟩
  | cons c text ih =>
      obtain ⟨rest, rfl⟩ := hstart
      obtain ⟨front, back, cut, whole, hmore, htext, hcut⟩ := ih (List.prefix_append text rest)
      rw [List.cons_append, split, split, hmore, htext]
      by_cases hslash : c = '/'
      · rw [if_pos hslash, if_pos hslash]
        exact ⟨[] :: front, back, cut, whole, rfl, rfl, hcut⟩
      · rw [if_neg hslash, if_neg hslash]
        cases front with
        | nil => exact ⟨[], back, c :: cut, c :: whole, rfl, rfl, List.prefix_cons_inj c |>.2 hcut⟩
        | cons first front => exact ⟨(c :: first) :: front, back, cut, whole, rfl, rfl, hcut⟩

theorem segments_ne_nil (path : Path) : path.segments ≠ [] := split_ne_nil _

theorem noSlash_of_mem_segments {segment : List Char} (hsegment : segment ∈ path.segments) :
    '/' ∉ segment := noSlash_of_mem_split hsegment

theorem segments_ofSegments (hsegments : segments ≠ [])
    (hslash : ∀ segment ∈ segments, '/' ∉ segment) : (ofSegments segments).segments = segments := by
  unfold Path.segments ofSegments
  rw [String.toList_ofList]
  exact split_unsplit hsegments hslash

/-! ## Components -/

theorem ofSegment?_eq_none_iff {segment : List Char} :
    Component.ofSegment? segment = none ↔ segment = [] ∨ segment = ['.'] := by
  unfold Component.ofSegment?
  split
  · rename_i hskipped
    exact iff_of_true rfl hskipped
  · rename_i hskipped
    split <;> exact iff_of_false nofun hskipped

theorem ofSegment?_eq_name_iff {segment : List Char} :
    Component.ofSegment? segment = some (.name name) ↔
      segment = name ∧ name ≠ [] ∧ name ≠ ['.'] ∧ name ≠ ['.', '.'] := by
  unfold Component.ofSegment?
  split
  · rename_i hskipped
    constructor
    · intro h
      cases h
    · rintro ⟨rfl, hfilled, hdot, -⟩
      exact absurd hskipped (not_or.2 ⟨hfilled, hdot⟩)
  · rename_i hskipped
    rw [not_or] at hskipped
    split
    · rename_i hparent
      constructor
      · intro h
        cases h
      · rintro ⟨rfl, -, -, hdots⟩
        exact absurd hparent hdots
    · rename_i hparent
      rw [Option.some.injEq, Component.name.injEq]
      constructor
      · rintro rfl
        exact ⟨rfl, hskipped.1, hskipped.2, hparent⟩
      · rintro ⟨rfl, -⟩
        rfl

/-- A segment never stands for the dot at the front. -/
theorem ofSegment?_ne_here (segment : List Char) :
    Component.ofSegment? segment ≠ some .here := by
  unfold Component.ofSegment?
  split
  · simp
  · split <;> simp

theorem components_of_segments {first : List Char} {rest : List (List Char)}
    (hsegments : path.segments = first :: rest) :
    path.components = (Component.ofFirst? path.isAbsolute first).toList ++
      rest.filterMap Component.ofSegment? := by
  unfold components
  rw [hsegments]

/-! ## Joining -/

/-- A relative path has the components that its segments stand for, and may begin with a
dot. -/
theorem components_of_relative (hrelative : path.isAbsolute = false) :
    path.components = path.segments.filterMap Component.ofSegment? ∨
      path.components = .here :: path.segments.filterMap Component.ofSegment? := by
  cases hsegments : path.segments with
  | nil => exact absurd hsegments path.segments_ne_nil
  | cons first rest =>
      rw [components_of_segments hsegments, hrelative, Component.ofFirst?,
        if_neg Bool.false_ne_true, List.filterMap_cons]
      by_cases hdot : first = ['.']
      · subst hdot
        exact .inr rfl
      · rw [if_neg hdot]
        cases Component.ofSegment? first <;> exact .inl rfl

/-- Only the dot at the front is no part of what the segments stand for. -/
theorem filterMap_segments (hrelative : path.isAbsolute = false) :
    path.segments.filterMap Component.ofSegment? = path.components.filter (· ≠ .here) := by
  have hkept : (path.segments.filterMap Component.ofSegment?).filter (· ≠ .here) =
      path.segments.filterMap Component.ofSegment? := by
    refine List.filter_eq_self.2 fun component hcomponent => ?_
    obtain ⟨segment, -, hsegment⟩ := List.mem_filterMap.1 hcomponent
    rw [decide_eq_true_iff]
    rintro rfl
    exact ofSegment?_ne_here segment hsegment
  rcases components_of_relative hrelative with hplain | hdot
  · rw [hplain, hkept]
  · rw [hdot, List.filter_cons_of_neg (by simp), hkept]

/-- The segments of a path below a base are those of the base, apart from the empty one
after a slash at its end, and those of the path. -/
theorem segments_join (hrelative : path.isAbsolute = false) (hbase : base.text ≠ "") :
    ∃ front, front ≠ [] ∧ (base.join path).segments = front ++ path.segments ∧
      (base.segments = front ∨ base.segments = front ++ [[]]) := by
  unfold join
  rw [hrelative, if_neg Bool.false_ne_true]
  by_cases hslash : base.text.toList.getLast? = some '/'
  · obtain ⟨front, hfront⟩ := List.getLast?_eq_some_iff.1 hslash
    rw [if_pos (.inr hslash)]
    refine ⟨split front, split_ne_nil front, ?_, .inr ?_⟩
    · unfold Path.segments
      rw [String.toList_append, hfront, List.append_assoc, List.singleton_append,
        split_append_slash]
    · unfold Path.segments
      rw [hfront, split_append_slash]
      rfl
  · rw [if_neg (not_or.2 ⟨hbase, hslash⟩)]
    refine ⟨base.segments, base.segments_ne_nil, ?_, .inl rfl⟩
    unfold Path.segments
    rw [String.toList_append, String.toList_append, List.append_assoc]
    exact split_append_slash _ _

theorem isAbsolute_join (hrelative : path.isAbsolute = false) (hbase : base.text ≠ "") :
    (base.join path).isAbsolute = base.isAbsolute := by
  have hfilled : base.text.toList ≠ [] := fun h => hbase (String.toList_eq_nil_iff.1 h)
  unfold join
  rw [hrelative, if_neg Bool.false_ne_true]
  unfold isAbsolute
  split
  · rw [String.toList_append, List.head?_append_of_ne_nil _ hfilled]
  · rw [String.toList_append, String.toList_append, List.append_assoc,
      List.head?_append_of_ne_nil _ hfilled]

theorem components_join (hrelative : path.isAbsolute = false) (hbase : base.text ≠ "") :
    (base.join path).components = base.components ++ path.components.filter (· ≠ .here) := by
  obtain ⟨front, hfront, hjoined, hsegments⟩ := segments_join hrelative hbase
  cases front with
  | nil => exact absurd rfl hfront
  | cons first rest =>
      rw [List.cons_append] at hjoined hsegments
      rw [components_of_segments hjoined, isAbsolute_join hrelative hbase, List.filterMap_append,
        filterMap_segments hrelative, ← List.append_assoc]
      congr 1
      rcases hsegments with hsegments | hsegments
      · rw [components_of_segments hsegments]
      · rw [components_of_segments hsegments, List.filterMap_append]
        exact (congrArg _ (List.append_nil _)).symm

/-- Below an empty base a path stays as it is, and so does an absolute one anywhere. -/
theorem join_eq_self (hstays : path.isAbsolute = true ∨ base.text = "") :
    base.join path = path := by
  unfold join
  rcases hstays with habsolute | hbase
  · rw [if_pos habsolute]
  · split
    · rfl
    · rw [hbase, String.empty_append, if_pos (.inl rfl)]

end Path

end EditPipeline
