import EditPipeline.Proofs.Files.Landing

/-!
# Directories that are there

A directory that is there can be made again: nothing changes and nothing fails
(`createDirAll_of_isDir`).  After a directory was made it is there, and it stays there whatever
is written (`createDirAll_again`).  A path may end in slashes, which a walk goes through without
moving; so the segments of a path are parted before the empty ones at its end (`Parted`).
-/

namespace EditPipeline

theorem Path.ancestors_eq_cons (path : Path) : ∃ above, path.ancestors = path :: above := by
  unfold ancestors
  cases path.segments.length with
  | zero => exact ⟨[], rfl⟩
  | succ count => exact ⟨_, rfl⟩

namespace FileSystem

variable {fs after later : FileSystem} {path : Path} {location current last : Location}

/-! ## Walks in parts -/

/-- A walk that succeeds can be parted anywhere. -/
theorem walk_part {segments more : List (List Char)}
    (hwalk : fs.walk current (segments ++ more) = .ok last) :
    ∃ between, fs.walk current segments = .ok between ∧ fs.walk between more = .ok last := by
  induction segments generalizing current with
  | nil => exact ⟨current, rfl, hwalk⟩
  | cons segment rest ih =>
      rw [List.cons_append, walk] at hwalk
      rw [walk]
      split at hwalk
      · exact ih hwalk
      · cases hwalk

theorem directory_of_step {segment : List Char} (hstep : fs.step current segment = .ok last) :
    fs.node? current = some .directory := by
  unfold step at hstep
  split at hstep
  · assumption
  · cases hstep

/-- Empty segments lead nowhere. -/
theorem walk_empty (hdirectory : fs.node? current = some .directory) {segments : List (List Char)}
    (hempty : ∀ segment ∈ segments, segment = []) : fs.walk current segments = .ok current := by
  induction segments with
  | nil => rfl
  | cons segment rest ih =>
      have hstep : fs.step current segment = .ok current := by
        unfold step
        rw [hdirectory, hempty segment List.mem_cons_self]
        exact if_pos (.inl rfl)
      rw [walk, hstep]
      exact ih fun other hother => hempty other (List.mem_cons_of_mem segment hother)

/-- The name that a step leads to, if it leads to one. -/
theorem name_of_step {segment : List Char} (hstep : fs.step current segment = .ok last)
    (hfilled : segment ≠ []) (hdot : segment ≠ ['.']) (hdots : segment ≠ ['.', '.']) :
    ¬ maxNameBytes < (String.ofList segment).utf8ByteSize ∧
      (fs.node? (current ++ [String.ofList segment])).isSome := by
  unfold step at hstep
  rw [directory_of_step hstep] at hstep
  dsimp only at hstep
  rw [if_neg (not_or.2 ⟨hfilled, hdot⟩), if_neg hdots] at hstep
  split at hstep
  · cases hstep
  · rename_i hshort
    split at hstep
    · rename_i hthere
      exact ⟨hshort, hthere⟩
    · cases hstep

/-! ## Slashes at the end -/

/-- The segments of a path in two parts: those up to the last one that is not empty, and the
empty ones behind it. -/
structure Parted (segments kept empty : List (List Char)) : Prop where
  whole : segments = kept ++ empty
  empty : ∀ segment ∈ empty, segment = []
  kept : kept.getLast? ≠ some []

theorem parted (segments : List (List Char)) :
    ∃ empty, Parted segments (segments.reverse.dropWhile (· = [])).reverse empty := by
  refine ⟨(segments.reverse.takeWhile (· = [])).reverse, ?_, ?_, ?_⟩
  · rw [← List.reverse_append, List.takeWhile_append_dropWhile, List.reverse_reverse]
  · intro segment hsegment
    have hall := List.all_takeWhile (p := fun other : List Char => decide (other = []))
      (l := segments.reverse)
    exact of_decide_eq_true (List.all_eq_true.1 hall segment (List.mem_reverse.1 hsegment))
  · intro hlast
    rw [List.getLast?_reverse] at hlast
    have hhead := List.head?_dropWhile_not (· = []) segments.reverse
    rw [hlast] at hhead
    exact absurd rfl (of_decide_eq_false hhead)

/-- What there is to say about the place that a path leads to, slashes at its end or not. -/
theorem parted_of_target {target : Target} (htarget : fs.target path = .ok target) :
    ∃ kept empty, Parted path.segments kept empty ∧ target.last = kept.getLast? ∧
      checkPath path = .ok () ∧ fs.walk (fs.origin path) kept.dropLast = .ok target.parent ∧
      fs.node? target.parent = some .directory := by
  obtain ⟨empty, hparted⟩ := parted path.segments
  obtain ⟨checked, hcheck, htarget⟩ := bind_eq_ok_iff.1 htarget
  obtain ⟨parent, hwalk, htarget⟩ := bind_eq_ok_iff.1 htarget
  split at htarget
  · rename_i hdirectory
    cases htarget
    exact ⟨_, empty, hparted, rfl, hcheck, hwalk, hdirectory⟩
  · cases htarget

/-- A name that the last segment stands for. -/
theorem segment_of_name {target : Target} {kept : List (List Char)} {name : String}
    (hlast : target.last = kept.getLast?) (hkept : kept.getLast? ≠ some [])
    (hname : target.name? = some name) :
    ∃ segment, kept = kept.dropLast ++ [segment] ∧ segment ≠ [] ∧ segment ≠ ['.'] ∧
      segment ≠ ['.', '.'] ∧ name = String.ofList segment := by
  unfold Target.name? at hname
  split at hname
  · cases hname
  · rename_i segment hsegment
    split at hname
    · cases hname
    · rename_i hdots
      rw [hlast] at hsegment
      refine ⟨segment, (List.dropLast_append_getLast? segment hsegment).symm, ?_,
        fun h => hdots (.inl h), fun h => hdots (.inr h), (Option.some.inj hname).symm⟩
      rintro rfl
      exact hkept hsegment

/-! ## Making what is there -/

/-- What exists has a place. -/
theorem target_of_locate (hlocate : fs.locate path = .ok location) :
    ∃ target, fs.target path = .ok target := by
  obtain ⟨checked, hcheck, hwalk⟩ := bind_eq_ok_iff.1 hlocate
  obtain ⟨empty, hparted⟩ := parted path.segments
  unfold target
  rw [hcheck, ok_bind]
  dsimp only
  generalize (path.segments.reverse.dropWhile (· = [])).reverse = kept at hparted ⊢
  -- after all segments but the last one, at least one step is left
  obtain ⟨first, rest, hsegments⟩ : ∃ first rest, path.segments = kept.dropLast ++ first :: rest := by
    rw [hparted.whole]
    rcases List.eq_nil_or_concat kept with rfl | ⟨front, segment, rfl⟩
    · cases empty with
      | nil => exact absurd hparted.whole (Path.split_ne_nil path.text.toList)
      | cons first rest => exact ⟨first, rest, rfl⟩
    · rw [List.concat_eq_append, List.dropLast_concat, List.append_assoc]
      exact ⟨segment, empty, rfl⟩
  rw [hsegments] at hwalk
  obtain ⟨parent, hparent, hrest⟩ := walk_part hwalk
  rw [hparent, ok_bind]
  have hdirectory : fs.node? parent = some .directory := by
    rw [walk] at hrest
    split at hrest
    · rename_i next hstep
      exact directory_of_step hstep
    · cases hrest
  rw [hdirectory]
  exact ⟨_, rfl⟩

/-- What is there is not made. -/
theorem createDir_of_isDir (hdir : fs.isDir path = true) :
    fs.createDir path = .error .alreadyExists := by
  unfold isDir at hdir
  split at hdir
  · rename_i location hlocate
    obtain ⟨target, htarget⟩ := target_of_locate hlocate
    obtain ⟨kept, empty, hparted, hlast, -, hwalk, -⟩ := parted_of_target htarget
    unfold createDir
    rw [htarget, ok_bind]
    cases hname : target.name? with
    | none => rfl
    | some name =>
        obtain ⟨segment, hkept, hfilled, hdot, hdots, rfl⟩ :=
          segment_of_name hlast hparted.kept hname
        obtain ⟨checked, -, hwhole⟩ := bind_eq_ok_iff.1 hlocate
        rw [hparted.whole, hkept, List.append_assoc, walk_append hwalk, List.singleton_append,
          walk] at hwhole
        split at hwhole
        · rename_i next hstep
          obtain ⟨hshort, hthere⟩ := name_of_step hstep hfilled hdot hdots
          dsimp only
          rw [if_neg hshort]
          exact if_pos hthere
        · cases hwhole
  · cases hdir

theorem createDirs_of_isDir {above : List Path} (hdir : fs.isDir path = true) :
    createDirs (path :: above) fs = (.ok (), fs) := by
  unfold createDirs
  by_cases hempty : path.text = ""
  · exact if_pos hempty
  · rw [if_neg hempty, createDir_of_isDir hdir]
    dsimp only
    rw [if_pos hdir]

/-- Making a directory that is there changes nothing. -/
theorem createDirAll_of_isDir (hdir : fs.isDir path = true) :
    fs.createDirAll path = (.ok (), fs) := by
  obtain ⟨above, habove⟩ := path.ancestors_eq_cons
  rw [createDirAll, habove]
  exact createDirs_of_isDir hdir

/-! ## What is there once it was made -/

theorem isDir_of_createDir (hmade : fs.createDir path = .ok after) : after.isDir path = true := by
  obtain ⟨target, htarget, hmade⟩ := bind_eq_ok_iff.1 hmade
  obtain ⟨kept, empty, hparted, hlast, hcheck, hwalk, hdirectory⟩ := parted_of_target htarget
  split at hmade
  · cases hmade
  rename_i name hname
  obtain ⟨segment, hkept, hfilled, hdot, hdots, rfl⟩ := segment_of_name hlast hparted.kept hname
  by_cases hlong : maxNameBytes < (String.ofList segment).utf8ByteSize
  · rw [if_pos hlong] at hmade
    cases hmade
  rw [if_neg hlong] at hmade
  by_cases hthere : (fs.node? (target.parent ++ [String.ofList segment])).isSome
  · dsimp only at hmade
    rw [if_pos hthere] at hmade
    cases hmade
  dsimp only at hmade
  rw [if_neg hthere] at hmade
  cases hmade
  let made := fs.put (target.parent ++ [String.ofList segment]) .directory
  have hgrows : fs.Grows made := by
    refine grows_put ?_
    rw [Option.not_isSome_iff_eq_none.1 hthere]
    nofun
  have hnode : made.node? (target.parent ++ [String.ofList segment]) = some .directory :=
    node?_put_self (by simp)
  have hlocate : made.locate path = .ok (target.parent ++ [String.ofList segment]) := by
    unfold locate
    rw [hcheck, ok_bind]
    change made.walk (fs.origin path) path.segments = _
    rw [hparted.whole, hkept, List.append_assoc, walk_append (hgrows.walk hwalk),
      List.singleton_append, walk, step_put_self hdirectory hfilled hdot hdots hlong]
    exact walk_empty hnode hparted.empty
  change made.isDir path = true
  unfold isDir
  rw [hlocate]
  exact decide_eq_true hnode

/-- A directory that was made is there.  Nothing is made for the empty path. -/
theorem isDir_of_createDirAll (hmade : fs.createDirAll path = (.ok (), after)) :
    path.text = "" ∨ after.isDir path = true := by
  obtain ⟨above, habove⟩ := path.ancestors_eq_cons
  rw [createDirAll, habove, createDirs] at hmade
  by_cases hempty : path.text = ""
  · exact .inl hempty
  have hthere {fault : FileFault} {fs : FileSystem}
      (hmade : (if fs.isDir path = true then Except.ok () else Except.error fault, fs) =
        (.ok (), after)) : after.isDir path = true := by
    by_cases hdir : fs.isDir path = true
    · rw [if_pos hdir] at hmade
      cases hmade
      exact hdir
    · rw [if_neg hdir] at hmade
      cases hmade
  rw [if_neg hempty] at hmade
  refine .inr ?_
  split at hmade
  · rename_i made hdone
    cases hmade
    exact isDir_of_createDir hdone
  · split at hmade
    · cases hmade
    · split at hmade
      · rename_i made hdone
        cases hmade
        exact isDir_of_createDir hdone
      · exact hthere hmade
  · exact hthere hmade

namespace Grows

theorem isDir (hgrows : fs.Grows after) (hdir : fs.isDir path = true) : after.isDir path = true := by
  unfold FileSystem.isDir at hdir ⊢
  split at hdir
  · rename_i location hlocate
    rw [hgrows.locate hlocate]
    exact decide_eq_true (hgrows.directory (of_decide_eq_true hdir))
  · cases hdir

end Grows

/-- A directory that was made stays, so it can be made again, and that changes nothing. -/
theorem createDirAll_again (hmade : fs.createDirAll path = (.ok (), after))
    (hgrows : after.Grows later) : later.createDirAll path = (.ok (), later) := by
  rcases isDir_of_createDirAll hmade with hempty | hdir
  · obtain ⟨above, habove⟩ := path.ancestors_eq_cons
    rw [createDirAll, habove, createDirs]
    exact if_pos hempty
  · exact createDirAll_of_isDir (hgrows.isDir hdir)

/-! ## Files -/

/-- The same files stand at the same places, byte for byte. -/
def SameFiles (fs after : FileSystem) : Prop :=
  ∀ location content, fs.node? location = some (.file content) ↔
    after.node? location = some (.file content)

theorem SameFiles.refl (fs : FileSystem) : fs.SameFiles fs := fun _ _ => Iff.rfl

theorem SameFiles.trans (hfirst : fs.SameFiles after) (hlast : after.SameFiles later) :
    fs.SameFiles later := fun location content =>
  (hfirst location content).trans (hlast location content)

theorem sameFiles_of_createDir (hmade : fs.createDir path = .ok after) : fs.SameFiles after := by
  intro location content
  refine ⟨(extendsTo_of_createDir hmade).kept, fun hfile => ?_⟩
  obtain ⟨target, -, hmade⟩ := bind_eq_ok_iff.1 hmade
  split at hmade
  · cases hmade
  rename_i name hname
  dsimp only at hmade
  split at hmade
  · cases hmade
  · split at hmade
    · cases hmade
    · cases hmade
      by_cases hplace : location = target.parent ++ [name]
      · rw [hplace, node?_put_self (by simp)] at hfile
        cases hfile
      · rwa [node?_put_of_ne hplace] at hfile

/-- Whether directories can be made or not, no file appears. -/
theorem sameFiles_createDirs (paths : List Path) (fs : FileSystem) :
    fs.SameFiles (createDirs paths fs).2 := by
  induction paths generalizing fs with
  | nil => exact .refl fs
  | cons path above ih =>
      unfold createDirs
      split
      · exact .refl fs
      · split
        · rename_i made hmade
          exact sameFiles_of_createDir hmade
        · have hmore := ih fs
          generalize createDirs above fs = around at hmore ⊢
          obtain ⟨result, grown⟩ := around
          cases result with
          | error fault => exact hmore
          | ok done =>
              dsimp only
              split
              · rename_i made hmade
                exact hmore.trans (sameFiles_of_createDir hmade)
              · exact hmore
        · exact .refl fs

theorem sameFiles_createDirAll (path : Path) (fs : FileSystem) :
    fs.SameFiles (fs.createDirAll path).2 := sameFiles_createDirs path.ancestors fs

end FileSystem

end EditPipeline
