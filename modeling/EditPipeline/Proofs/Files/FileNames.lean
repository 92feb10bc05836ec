import EditPipeline.Proofs.Files.Components
import Mathlib.Data.List.TakeWhile

/-!
# File names and extensions

A file name is the last component of a path, if that is a name (`fileName?_eq_some_iff`).  A
new extension with a dot in it gives another file name (`getLast?_components_withExtension`).

The old extension is cut off by its number of bytes, from the very end of the text.  Slashes
and dots may stand there that do not count, so the cut can leave a part of the extension, or
all of it; in no case does it reach into the stem (`stem_of_cut`).
-/

namespace EditPipeline

namespace Path

variable {path : Path} {text name : List Char}

/-! ## The last component -/

/-- The path ends in a segment that counts, and nothing counts of what stands after it. -/
structure EndsIn (path : Path) (above : List (List Char)) (last : List Char) : Prop where
  segments : ∃ tail, path.segments = above ++ last :: tail ∧
    ∀ segment ∈ tail, Component.ofSegment? segment = none
  counts : Component.ofSegment? last ≠ none

theorem trimEnd_cons {first : List Char} {tail : List (List Char)}
    (htail : ∀ segment ∈ tail, Component.ofSegment? segment = none) :
    trimEnd (first :: tail) = [first] := by
  let skipped := fun segment => (Component.ofSegment? segment).isNone
  have hskipped : ∀ segment ∈ tail.reverse, skipped segment = true := fun segment hsegment =>
    Option.isNone_iff_eq_none.2 (htail segment (List.mem_reverse.1 hsegment))
  show first :: (tail.reverse.dropWhile skipped).reverse = [first]
  rw [List.dropWhile_eq_nil_iff.2 hskipped, List.reverse_nil]

theorem trimEnd_append {above tail : List (List Char)}
    (hname : Component.ofSegment? name ≠ none)
    (htail : ∀ segment ∈ tail, Component.ofSegment? segment = none) :
    trimEnd (above ++ name :: tail) = above ++ [name] := by
  let skipped := fun segment => (Component.ofSegment? segment).isNone
  have hskipped : ∀ segment ∈ tail.reverse, skipped segment = true := fun segment hsegment =>
    Option.isNone_iff_eq_none.2 (htail segment (List.mem_reverse.1 hsegment))
  cases above with
  | nil => exact trimEnd_cons htail
  | cons first front =>
      have hkept : ¬ skipped name = true := by simpa [skipped] using hname
      show first :: ((front ++ name :: tail).reverse.dropWhile skipped).reverse = _
      rw [List.reverse_append, List.reverse_cons, List.append_assoc,
        List.dropWhile_append_of_pos hskipped, List.singleton_append,
        List.dropWhile_cons_of_neg hkept]
      simp

/-- An absolute path begins with an empty segment. -/
theorem isAbsolute_of_segments {first : List Char} {rest : List (List Char)}
    (hsegments : path.segments = first :: rest) (hfirst : first ≠ []) :
    path.isAbsolute = false := by
  unfold isAbsolute
  unfold Path.segments at hsegments
  cases htext : path.text.toList with
  | nil => rfl
  | cons c text =>
      rw [htext, split] at hsegments
      by_cases hslash : c = '/'
      · rw [if_pos hslash, List.cons.injEq] at hsegments
        exact absurd hsegments.1.symm hfirst
      · simp [hslash]

namespace EndsIn

variable {above : List (List Char)} {last : List Char}

theorem filled (hends : path.EndsIn above last) : last ≠ [] ∧ last ≠ ['.'] := by
  rw [← not_or, ← ofSegment?_eq_none_iff]
  exact hends.counts

theorem splitLast? (hends : path.EndsIn above last) : path.splitLast? = some (above, last) := by
  obtain ⟨tail, hsegments, htail⟩ := hends.segments
  have htrim : trimEnd path.segments = above ++ [last] := by
    rw [hsegments, trimEnd_append hends.counts htail]
  unfold Path.splitLast?
  rw [htrim]
  cases above with
  | nil => simp [isAbsolute_of_segments hsegments hends.filled.1, hends.filled.1]
  | cons first front =>
      cases hkept : front ++ [last] with
      | nil => simp at hkept
      | cons second rest =>
          rw [List.cons_append, hkept]
          dsimp only
          rw [← hkept, ← List.cons_append, List.dropLast_concat, List.getLastD_eq_getLast?,
            List.getLast?_concat, Option.getD_some]

theorem components (hends : path.EndsIn above last) :
    path.components.getLast? = Component.ofSegment? last := by
  obtain ⟨tail, hsegments, htail⟩ := hends.segments
  obtain ⟨component, hcomponent⟩ := Option.ne_none_iff_exists'.1 hends.counts
  have hnone : tail.filterMap Component.ofSegment? = [] := List.filterMap_eq_nil_iff.2 htail
  cases above with
  | nil =>
      rw [components_of_segments hsegments, hnone,
        isAbsolute_of_segments hsegments hends.filled.1, Component.ofFirst?,
        if_neg Bool.false_ne_true, if_neg hends.filled.2, hcomponent]
      rfl
  | cons first front =>
      rw [components_of_segments hsegments]
      simp [List.filterMap_append, hcomponent, hnone]

theorem fileName?_eq_some_iff (hends : path.EndsIn above last) :
    path.fileName? = some name ↔ path.components.getLast? = some (.name name) := by
  rw [hends.components]
  unfold Path.fileName?
  rw [hends.splitLast?]
  dsimp only
  cases hlast : Component.ofSegment? last with
  | none => exact absurd hlast hends.counts
  | some component => cases component <;> simp

end EndsIn

/-- A path ends in a segment that counts, or only its front can. -/
theorem exists_endsIn (path : Path) :
    (∃ above last, path.EndsIn above last) ∨
      path.fileName? = none ∧ ∀ name, path.components.getLast? ≠ some (.name name) := by
  cases hsegments : path.segments with
  | nil => exact absurd hsegments path.segments_ne_nil
  | cons first rest =>
      cases hrest : (rest.filterMap Component.ofSegment?).getLast? with
      | some component =>
          left
          obtain ⟨early, hearly⟩ := List.getLast?_eq_some_iff.1 hrest
          obtain ⟨front, back, rfl, -, hback⟩ := List.filterMap_eq_append_iff.1 hearly
          obtain ⟨skipped, last, tail, rfl, -, hlast, htail⟩ := List.filterMap_eq_cons_iff.1 hback
          refine ⟨first :: (front ++ skipped), last, ⟨tail, ?_, List.filterMap_eq_nil_iff.1 htail⟩,
            by simp [hlast]⟩
          rw [hsegments, List.cons_append, List.append_assoc]
      | none =>
          have hnone := List.getLast?_eq_none_iff.1 hrest
          have hskipped := List.filterMap_eq_nil_iff.1 hnone
          by_cases hfirst : Component.ofSegment? first = none
          · right
            have htrim : trimEnd path.segments = [first] := by rw [hsegments, trimEnd_cons hskipped]
            rw [components_of_segments hsegments, hnone, List.append_nil]
            rcases ofSegment?_eq_none_iff.1 hfirst with rfl | rfl
            · constructor
              · simp [fileName?, splitLast?, htrim]
              · intro name
                unfold Component.ofFirst?
                split <;> simp [Component.ofSegment?]
            · have hrelative := isAbsolute_of_segments hsegments (List.cons_ne_nil _ _)
              constructor
              · simp [fileName?, splitLast?, htrim, hrelative, hfirst]
              · simp [Component.ofFirst?, hrelative]
          · exact .inl ⟨[], first, ⟨rest, hsegments, hskipped⟩, hfirst⟩

/-- **A file name is the last component, if that is a name.** -/
theorem fileName?_eq_some_iff :
    path.fileName? = some name ↔ path.components.getLast? = some (.name name) := by
  rcases path.exists_endsIn with ⟨above, last, hends⟩ | ⟨hnone, hlast⟩
  · exact hends.fileName?_eq_some_iff
  · simp [hnone, hlast]

/-! ## Stems and extensions -/

theorem takeWhile_ne_dot (hdot : '.' ∉ text) :
    text.reverse.takeWhile (· ≠ '.') = text.reverse := by
  refine List.takeWhile_eq_self_iff.2 fun c hc => ?_
  rw [decide_eq_true_iff]
  rintro rfl
  exact hdot (List.mem_reverse.1 hc)

/-- A name is split at its last dot, unless that is its first character. -/
theorem splitName_of_dot {stem extension : List Char} (hdot : '.' ∉ extension) :
    splitName (stem ++ '.' :: extension) =
      if stem = [] then (stem ++ '.' :: extension, none) else (stem, some extension) := by
  have hafter : ((stem ++ '.' :: extension).reverse.takeWhile (· ≠ '.')).reverse = extension := by
    have hstop : ('.' :: stem.reverse).takeWhile (· ≠ '.') = [] :=
      List.takeWhile_cons_of_neg (by simp)
    rw [List.reverse_append, List.reverse_cons, List.append_assoc, List.singleton_append,
      List.takeWhile_append, takeWhile_ne_dot hdot, if_pos rfl, hstop, List.append_nil,
      List.reverse_reverse]
  have hlength : (stem ++ '.' :: extension).length - extension.length = (stem ++ ['.']).length := by
    simp only [List.length_append, List.length_cons, List.length_nil]
    omega
  have hbefore : ((stem ++ '.' :: extension).take (stem ++ ['.']).length).dropLast = stem := by
    rw [List.append_cons stem '.' extension, List.take_left, List.dropLast_concat]
  have hlonger : extension.length ≠ (stem ++ '.' :: extension).length := by
    simp only [List.length_append, List.length_cons]
    omega
  unfold splitName
  dsimp only
  rw [hafter, hlength, hbefore]
  simp only [hlonger, false_or]

/-- A name has a stem and an extension, or it has no extension. -/
theorem splitName_cases (name : List Char) :
    (∃ stem extension, stem ≠ [] ∧ '.' ∉ extension ∧ name = stem ++ '.' :: extension ∧
      splitName name = (stem, some extension)) ∨ splitName name = (name, none) := by
  by_cases hdot : '.' ∈ name
  · -- the last dot is the first one from behind
    obtain ⟨after, before, hname, hlast⟩ := List.eq_append_cons_of_mem (List.mem_reverse.2 hdot)
    have hextension : '.' ∉ after.reverse := fun h => hlast (List.mem_reverse.1 h)
    obtain rfl : name = before.reverse ++ '.' :: after.reverse := by
      rw [← List.reverse_reverse name, hname]
      simp
    have hsplit : splitName (before.reverse ++ '.' :: after.reverse) = _ :=
      splitName_of_dot hextension
    by_cases hstem : before.reverse = []
    · rw [if_pos hstem] at hsplit
      exact .inr hsplit
    · rw [if_neg hstem] at hsplit
      exact .inl ⟨_, _, hstem, hextension, rfl, hsplit⟩
  · right
    unfold splitName
    dsimp only
    rw [takeWhile_ne_dot hdot, List.reverse_reverse, if_pos (.inl rfl)]

/-! ## Another extension -/

theorem byteSize_reverse (text : List Char) : byteSize text.reverse = byteSize text := by
  induction text with
  | nil => rfl
  | cons c text ih =>
      rw [List.reverse_cons, byteSize_append, ih, byteSize, Nat.add_comm]
      rfl

theorem dropBytes_go_append {bytes : Nat} {last : List Char} (first : List Char)
    (hbytes : bytes ≤ byteSize last) :
    ∃ kept, kept <:+ last ∧ dropBytes.go bytes (last ++ first) = kept ++ first := by
  induction last generalizing bytes with
  | nil =>
      obtain rfl : bytes = 0 := Nat.le_zero.1 hbytes
      refine ⟨[], List.suffix_refl _, ?_⟩
      cases first <;> simp [dropBytes.go]
  | cons c last ih =>
      rw [List.cons_append, dropBytes.go]
      by_cases hstop : bytes = 0 ∨ bytes < c.utf8Size
      · rw [if_pos hstop]
        exact ⟨c :: last, List.suffix_refl _, rfl⟩
      · rw [if_neg hstop]
        rw [byteSize] at hbytes
        obtain ⟨kept, hkept, hdropped⟩ := ih (Nat.sub_le_iff_le_add'.2 hbytes)
        exact ⟨kept, hkept.trans (List.suffix_cons c last), hdropped⟩

/-- Fewer bytes than a part at the end has are cut off that part only. -/
theorem dropBytes_append {bytes : Nat} {last : List Char} (first : List Char)
    (hbytes : bytes ≤ byteSize last) :
    ∃ kept, kept <+: last ∧ dropBytes bytes (first ++ last) = first ++ kept := by
  rw [← byteSize_reverse] at hbytes
  obtain ⟨kept, hkept, hdropped⟩ := dropBytes_go_append first.reverse hbytes
  refine ⟨kept.reverse, ?_, ?_⟩
  · rw [← List.reverse_suffix, List.reverse_reverse]
    exact hkept
  · rw [dropBytes, List.reverse_append, hdropped, List.reverse_append, List.reverse_reverse]

/-- A text before the rest of a path, which adds segments in front. -/
theorem exists_unsplit_append {above : List (List Char)} (hslash : ∀ segment ∈ above, '/' ∉ segment) :
    ∃ front, (∀ {rest : List (List Char)}, rest ≠ [] →
        unsplit (above ++ rest) = front ++ unsplit rest) ∧
      ∀ text, split (front ++ text) = above ++ split text := by
  induction above with
  | nil => exact ⟨[], fun _ => rfl, fun _ => rfl⟩
  | cons segment above ih =>
      rw [List.forall_mem_cons] at hslash
      obtain ⟨front, hunsplit, hsplit⟩ := ih hslash.2
      refine ⟨segment ++ '/' :: front, fun {rest} hrest => ?_, fun text => ?_⟩
      · cases hmore : above ++ rest with
        | nil => exact absurd (List.append_eq_nil_iff.1 hmore).2 hrest
        | cons second more =>
            rw [List.cons_append, hmore, unsplit, ← hmore, hunsplit hrest, List.append_assoc,
              List.cons_append]
            exact hmore ▸ List.cons_ne_nil _ _
      · rw [List.append_assoc, List.cons_append, split_append_slash, split_of_noSlash hslash.1,
          hsplit, List.singleton_append, List.cons_append]

theorem unsplit_cons (segment : List Char) (rest : List (List Char)) :
    ∃ after, unsplit (segment :: rest) = segment ++ after := by
  cases rest with
  | nil => exact ⟨[], (List.append_nil _).symm⟩
  | cons second rest => exact ⟨'/' :: unsplit (second :: rest), rfl⟩

theorem ofSegment?_of_cut {cut whole : List Char} (hcut : cut <+: whole)
    (hwhole : Component.ofSegment? whole = none) : Component.ofSegment? cut = none := by
  rw [ofSegment?_eq_none_iff] at hwhole ⊢
  rcases hwhole with rfl | rfl
  · exact .inl (List.prefix_nil.1 hcut)
  · rcases List.prefix_cons_iff.1 hcut with rfl | ⟨rest, rfl, hrest⟩
    · exact .inl rfl
    · rw [List.prefix_nil.1 hrest]
      exact .inr rfl

theorem EndsIn.stem {above : List (List Char)} {stem extension : List Char}
    (hends : path.EndsIn above (stem ++ '.' :: extension)) (hstem : stem ≠ [])
    (hdot : '.' ∉ extension) (hname : path.fileName? = some name) :
    name = stem ++ '.' :: extension ∧ (splitName name).1 = stem := by
  rw [hends.fileName?_eq_some_iff, hends.components] at hname
  obtain rfl := (ofSegment?_eq_name_iff.1 hname).1
  exact ⟨rfl, by rw [splitName_of_dot hdot, if_neg hstem]⟩

/-- If as many bytes as the extension has are cut off a path, at its very end, the dot before
the extension stays. -/
theorem segments_of_cut {above tail : List (List Char)} {stem old : List Char}
    (hsegments : path.segments = above ++ (stem ++ '.' :: old) :: tail) :
    ∃ kept, stem ++ '.' :: kept <+: unsplit ((stem ++ '.' :: old) :: tail) ∧
      Path.segments ⟨String.ofList (dropBytes (byteSize old) path.text.toList)⟩ =
        above ++ split (stem ++ '.' :: kept) := by
  have hslash : ∀ segment ∈ above, '/' ∉ segment := by
    intro segment hsegment
    refine noSlash_of_mem_segments (show segment ∈ path.segments from ?_)
    rw [hsegments]
    exact List.mem_append_left _ hsegment
  obtain ⟨front, hunsplit, hsplit⟩ := exists_unsplit_append hslash
  obtain ⟨after, hafter⟩ := unsplit_cons (stem ++ '.' :: old) tail
  have htext : path.text.toList = (front ++ (stem ++ ['.'])) ++ (old ++ after) := by
    rw [← unsplit_split path.text.toList, ← Path.segments, hsegments,
      hunsplit (List.cons_ne_nil _ _), hafter]
    simp
  have hbytes : byteSize old ≤ byteSize (old ++ after) := by
    rw [byteSize_append]
    exact Nat.le_add_right _ _
  obtain ⟨kept, hkept, hdropped⟩ := dropBytes_append (front ++ (stem ++ ['.'])) hbytes
  refine ⟨kept, ?_, ?_⟩
  · rw [hafter, List.append_assoc, List.cons_append]
    exact (List.prefix_append_right_inj stem).2 ((List.prefix_cons_inj '.').2 hkept)
  · rw [htext, hdropped, Path.segments, String.toList_ofList, ← hsplit]
    simp

/-- The file name that is left after such a cut, if one is, has the stem that it had. -/
theorem stem_of_cut {above : List (List Char)} {stem old : List Char}
    (hends : path.EndsIn above (stem ++ '.' :: old)) (hstem : stem ≠ []) (hdot : '.' ∉ old)
    (hname : Path.fileName? ⟨String.ofList (dropBytes (byteSize old) path.text.toList)⟩ =
      some name) :
    (splitName name).1 = stem := by
  obtain ⟨tail, hsegments, htail⟩ := hends.segments
  obtain ⟨kept, hstart, hleft⟩ := segments_of_cut hsegments
  generalize (⟨String.ofList (dropBytes (byteSize old) path.text.toList)⟩ : Path) = cut
    at hname hleft
  have hslash : ∀ segment ∈ (stem ++ '.' :: old) :: tail, '/' ∉ segment := by
    intro segment hsegment
    refine noSlash_of_mem_segments (show segment ∈ path.segments from ?_)
    rw [hsegments]
    exact List.mem_append_right _ hsegment
  -- the cut goes through the file name or through what stands behind it
  obtain ⟨before, back, part, whole, hwhole, hpart, hcut⟩ := split_cut hstart
  rw [split_unsplit (List.cons_ne_nil _ _) hslash] at hwhole
  rw [hpart] at hleft
  cases before with
  | nil =>
      rw [List.nil_append, List.cons.injEq] at hwhole
      obtain ⟨rfl, rfl⟩ := hwhole
      obtain rfl : stem ++ '.' :: kept = part := by
        rw [← unsplit_split (stem ++ '.' :: kept), hpart]
        rfl
      have hless : kept <+: old :=
        (List.prefix_cons_inj '.').1 ((List.prefix_append_right_inj stem).1 hcut)
      have hcounts : Component.ofSegment? (stem ++ '.' :: kept) ≠ none := by
        rw [Ne, ofSegment?_eq_none_iff]
        cases stem with
        | nil => exact absurd rfl hstem
        | cons c stem => simp
      have hends' : cut.EndsIn above (stem ++ '.' :: kept) := ⟨⟨[], hleft, by simp⟩, hcounts⟩
      exact (hends'.stem hstem (fun h => hdot (hless.subset h)) hname).2
  | cons first before =>
      rw [List.cons_append, List.cons.injEq] at hwhole
      obtain ⟨rfl, rfl⟩ := hwhole
      rw [List.forall_mem_append, List.forall_mem_cons] at htail
      have hskipped : ∀ segment ∈ before ++ [part], Component.ofSegment? segment = none :=
        List.forall_mem_append.2
          ⟨htail.1, List.forall_mem_singleton.2 (ofSegment?_of_cut hcut htail.2.1)⟩
      have hends' : cut.EndsIn above (stem ++ '.' :: old) :=
        ⟨⟨before ++ [part], hleft, hskipped⟩, hends.counts⟩
      exact (hends'.stem hstem hdot hname).2

theorem endsIn_of_fileName? (hname : path.fileName? = some name) :
    ∃ above, path.EndsIn above name ∧ Component.ofSegment? name = some (.name name) := by
  rcases path.exists_endsIn with ⟨above, last, hends⟩ | ⟨hnone, -⟩
  · have hlast := hname
    rw [hends.fileName?_eq_some_iff, hends.components] at hlast
    obtain rfl := (ofSegment?_eq_name_iff.1 hlast).1
    exact ⟨above, hends, hlast⟩
  · rw [hname] at hnone
    cases hnone

/-- The stem of a name is a part of the name, and not empty. -/
theorem stem_part (hname : name ≠ []) :
    (splitName name).1 ≠ [] ∧ (splitName name).1 <+: name := by
  rcases splitName_cases name with ⟨stem, extension, hstem, -, rfl, hsplit⟩ | hsplit
  · rw [hsplit]
    exact ⟨hstem, List.prefix_append stem _⟩
  · rw [hsplit]
    exact ⟨hname, List.prefix_refl name⟩

theorem setExtension_eq_self {extension : String} (hname : path.fileName? = none) :
    path.setExtension extension = path := by
  unfold setExtension
  rw [hname]
  cases path.splitLast? <;> rfl

/-- The new file name has the new extension after the old stem. -/
theorem getLast?_components_setExtension {extension : String} (hname : path.fileName? = some name)
    (hfilled : extension.toList ≠ []) (hslash : '/' ∉ extension.toList) :
    (path.setExtension extension).components.getLast? =
      some (.name ((splitName name).1 ++ '.' :: extension.toList)) := by
  obtain ⟨above, hends, hplain⟩ := endsIn_of_fileName? hname
  obtain ⟨tail, hsegments, -⟩ := hends.segments
  obtain ⟨hstem, hpart⟩ := stem_part (ofSegment?_eq_name_iff.1 hplain).2.1
  let next := (splitName name).1 ++ '.' :: extension.toList
  have hnext : path.setExtension extension = ofSegments (above ++ [next]) := by
    unfold setExtension
    rw [hname, hends.splitLast?]
  have hold : ∀ segment ∈ above ++ name :: tail, '/' ∉ segment := by
    rw [← hsegments]
    exact fun segment => noSlash_of_mem_segments
  rw [List.forall_mem_append, List.forall_mem_cons] at hold
  have hnew : '/' ∉ next := by
    simp only [next, List.mem_append, List.mem_cons, not_or]
    exact ⟨fun h => hold.2.1 (hpart.subset h), by decide, hslash⟩
  have hplain' : Component.ofSegment? next = some (.name next) := by
    have hlength : 3 ≤ next.length := by
      have hpos := List.length_pos_iff.2 hstem
      have hpos' := List.length_pos_iff.2 hfilled
      simp only [next, List.length_append, List.length_cons]
      omega
    refine ofSegment?_eq_name_iff.2 ⟨rfl, ?_, ?_, ?_⟩
    · rintro h
      simp [h] at hlength
    · rintro h
      simp [h] at hlength
    · rintro h
      simp [h] at hlength
  have hends' : (path.setExtension extension).EndsIn above next := by
    refine ⟨⟨[], ?_, by simp⟩, by simp [hplain']⟩
    rw [hnext, segments_ofSegments (by simp)]
    exact List.forall_mem_append.2 ⟨hold.1, List.forall_mem_singleton.2 hnew⟩
  rw [hends'.components, hplain']

theorem withExtension_eq_self {extension : String} (hname : path.fileName? = none) :
    path.withExtension extension = path := by
  unfold withExtension
  rw [hname]
  exact setExtension_eq_self hname

/-- **A new extension with a dot in it changes the file name**, if there is one. -/
theorem getLast?_components_withExtension {extension : String}
    (hname : path.fileName? = some name) (hdot : '.' ∈ extension.toList)
    (hslash : '/' ∉ extension.toList) :
    (path.withExtension extension).components.getLast? ≠ some (.name name) := by
  have hfilled : extension.toList ≠ [] := List.ne_nil_of_mem hdot
  obtain ⟨above, hends, -⟩ := endsIn_of_fileName? hname
  unfold withExtension
  rw [hname, Option.bind_some]
  rcases splitName_cases name with ⟨stem, old, hstem, hold, rfl, hsplit⟩ | hsplit
  · rw [hsplit]
    dsimp only
    generalize hcut : (⟨String.ofList (dropBytes (byteSize old) path.text.toList)⟩ : Path) = cut
    cases hleft : cut.fileName? with
    | none =>
        -- only dots may be left of the name, and then they stay
        rw [setExtension_eq_self hleft]
        intro hlast
        rw [fileName?_eq_some_iff.2 hlast] at hleft
        cases hleft
    | some left =>
        have hsame : (splitName left).1 = stem :=
          stem_of_cut hends hstem hold (hcut.symm ▸ hleft)
        rw [getLast?_components_setExtension hleft hfilled hslash, hsame]
        intro hlast
        simp only [Option.some.injEq, Component.name.injEq, List.append_cancel_left_eq,
          List.cons.injEq, true_and] at hlast
        exact hold (hlast ▸ hdot)
  · rw [hsplit]
    dsimp only
    rw [getLast?_components_setExtension hname hfilled hslash, hsplit]
    intro hlast
    simp at hlast

end Path

end EditPipeline
