import EditPipeline.Proofs.Files.Written

/-!
# Where a path lands

Paths that are spelled differently can lead to the same file.  No directory here has a
second name, so the place can be worked out without looking at what there is: a name goes
in, two dots go out (`Path.landing`).  Writing a text changes what is read from the paths
that land where it was written, and nothing else (`read_write`); making directories changes
nothing that is read (`read_createDirAll`).
-/

namespace EditPipeline

/-- One step along a path, whatever there is. -/
def Location.enter (current : Location) (segment : List Char) : Location :=
  if segment = [] ∨ segment = ['.'] then current
  else if segment = ['.', '.'] then current.dropLast
  else current ++ [String.ofList segment]

/-- The place that a path leads to from the directory `home`. -/
def Path.landing (home : Location) (path : Path) : Location :=
  path.segments.foldl Location.enter (if path.isAbsolute then [] else home)

namespace FileSystem

variable {fs after : FileSystem} {path other : Path} {location : Location} {node : Node}
  {text : String}

theorem eq_enter_of_step {current next : Location} {segment : List Char}
    (hstep : fs.step current segment = .ok next) : next = current.enter segment := by
  unfold step at hstep
  unfold Location.enter
  split at hstep
  · by_cases hstays : segment = [] ∨ segment = ['.']
    · rw [if_pos hstays] at hstep ⊢
      exact (Except.ok.inj hstep).symm
    rw [if_neg hstays] at hstep ⊢
    by_cases hup : segment = ['.', '.']
    · rw [if_pos hup] at hstep ⊢
      exact (Except.ok.inj hstep).symm
    rw [if_neg hup] at hstep ⊢
    dsimp only at hstep
    split at hstep
    · cases hstep
    · split at hstep
      · exact (Except.ok.inj hstep).symm
      · cases hstep
  · cases hstep

theorem eq_foldl_of_walk {current last : Location} {segments : List (List Char)}
    (hwalk : fs.walk current segments = .ok last) :
    last = segments.foldl Location.enter current := by
  induction segments generalizing current with
  | nil =>
      cases hwalk
      rfl
  | cons segment rest ih =>
      unfold walk at hwalk
      split at hwalk
      · rename_i next hstep
        rw [List.foldl_cons, ← eq_enter_of_step hstep]
        exact ih hwalk
      · cases hwalk

/-- What exists is where its path lands. -/
theorem eq_landing_of_locate (hlocate : fs.locate path = .ok location) :
    location = path.landing fs.home := by
  obtain ⟨checked, -, hwalk⟩ := bind_eq_ok_iff.1 hlocate
  exact eq_foldl_of_walk hwalk

/-- A text is written where its path lands. -/
theorem eq_put_of_write (hwrite : fs.write path text = .ok after) :
    path.landing fs.home ≠ [] ∧ fs.node? (path.landing fs.home) ≠ some .directory ∧
      after = fs.put (path.landing fs.home) (.file text.toUTF8) := by
  obtain ⟨location, hroot, hplace, rfl, hlocate⟩ := locate_of_write hwrite
  have hlands := eq_landing_of_locate hlocate
  change location = path.landing fs.home at hlands
  subst hlands
  exact ⟨hroot, hplace, rfl⟩

/-- **Writing changes what is read where it lands**, and nothing else. -/
theorem read_write {old : String} (hread : fs.read other = .ok old)
    (hwrite : fs.write path text = .ok after) :
    after.read other =
      .ok (if path.landing fs.home = other.landing fs.home then text else old) := by
  obtain ⟨hroot, hplace, rfl⟩ := eq_put_of_write hwrite
  obtain ⟨location, content, hlocate, hnode, hold⟩ := read_eq_ok_iff.1 hread
  have hgrows : fs.Grows (fs.put (path.landing fs.home) (.file text.toUTF8)) := grows_put hplace
  have hfound := hgrows.locate hlocate
  obtain rfl : location = other.landing fs.home := eq_landing_of_locate hlocate
  refine read_eq_ok_iff.2 ⟨_, if path.landing fs.home = other.landing fs.home then text.toUTF8
    else content, hfound, ?_, ?_⟩
  · by_cases hsame : path.landing fs.home = other.landing fs.home
    · rw [if_pos hsame, ← hsame, node?_put_self hroot]
    · rw [if_neg hsame, node?_put_of_ne (Ne.symm hsame), hnode]
  · by_cases hsame : path.landing fs.home = other.landing fs.home
    · rw [if_pos hsame, if_pos hsame, fromUTF8?_toUTF8]
    · rw [if_neg hsame, if_neg hsame, hold]

/-! ## Making directories -/

/-- All that a file system has is in another one too. -/
structure ExtendsTo (fs after : FileSystem) : Prop where
  home : after.home = fs.home
  kept {location : Location} {node : Node} (hnode : fs.node? location = some node) :
    after.node? location = some node

namespace ExtendsTo

theorem refl (fs : FileSystem) : fs.ExtendsTo fs := ⟨rfl, id⟩

theorem trans {middle : FileSystem} (hfirst : fs.ExtendsTo middle)
    (hlast : middle.ExtendsTo after) : fs.ExtendsTo after :=
  ⟨hlast.home.trans hfirst.home, fun hnode => hlast.kept (hfirst.kept hnode)⟩

theorem grows (hextends : fs.ExtendsTo after) : fs.Grows after where
  home := hextends.home
  stands hsome := by
    obtain ⟨node, hnode⟩ := Option.isSome_iff_exists.1 hsome
    rw [hextends.kept hnode]
    rfl
  directory := hextends.kept

theorem read (hextends : fs.ExtendsTo after) (hread : fs.read path = .ok text) :
    after.read path = .ok text := by
  obtain ⟨location, content, hlocate, hnode, htext⟩ := read_eq_ok_iff.1 hread
  exact read_eq_ok_iff.2
    ⟨location, content, hextends.grows.locate hlocate, hextends.kept hnode, htext⟩

end ExtendsTo

theorem extendsTo_put (hplace : fs.node? location = none) :
    fs.ExtendsTo (fs.put location node) where
  home := rfl
  kept {other held} hnode := by
    have hne : other ≠ location := by
      rintro rfl
      rw [hplace] at hnode
      cases hnode
    rwa [node?_put_of_ne hne]

theorem extendsTo_of_createDir (hmade : fs.createDir path = .ok after) : fs.ExtendsTo after := by
  obtain ⟨target, -, hmade⟩ := bind_eq_ok_iff.1 hmade
  split at hmade
  · cases hmade
  rename_i name hname
  by_cases hlong : maxNameBytes < name.utf8ByteSize
  · rw [if_pos hlong] at hmade
    cases hmade
  rw [if_neg hlong] at hmade
  by_cases hthere : (fs.node? (target.parent ++ [name])).isSome
  · dsimp only at hmade
    rw [if_pos hthere] at hmade
    cases hmade
  dsimp only at hmade
  rw [if_neg hthere] at hmade
  cases hmade
  exact extendsTo_put (Option.not_isSome_iff_eq_none.1 hthere)

/-- Whether they can be made or not, no directory takes the place of anything. -/
theorem extendsTo_createDirs (paths : List Path) (fs : FileSystem) :
    fs.ExtendsTo (createDirs paths fs).2 := by
  induction paths generalizing fs with
  | nil => exact .refl fs
  | cons path above ih =>
      unfold createDirs
      by_cases hempty : path.text = ""
      · rw [if_pos hempty]
        exact .refl fs
      rw [if_neg hempty]
      split
      · rename_i made hmade
        exact extendsTo_of_createDir hmade
      · have hmore := ih fs
        generalize createDirs above fs = around at hmore ⊢
        obtain ⟨result, grown⟩ := around
        cases result with
        | error fault => exact hmore
        | ok done =>
            dsimp only
            split
            · rename_i made hmade
              exact hmore.trans (extendsTo_of_createDir hmade)
            · exact hmore
      · exact .refl fs

theorem extendsTo_createDirAll (path : Path) (fs : FileSystem) :
    fs.ExtendsTo (fs.createDirAll path).2 := extendsTo_createDirs path.ancestors fs

/-- Making directories changes nothing that is read. -/
theorem read_createDirAll (directory : Path) (hread : fs.read path = .ok text) :
    (fs.createDirAll directory).2.read path = .ok text :=
  (extendsTo_createDirAll directory fs).read hread

end FileSystem

end EditPipeline
