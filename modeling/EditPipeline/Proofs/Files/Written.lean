import EditPipeline.Files.FileSystem
import EditPipeline.Proofs.Success
import Mathlib.Data.List.Basic

/-!
# A file that was written is read

After a text was written to a path, reading from that path gives the text.  The path is
followed once for writing and once for reading, and in between one node has changed: the
file itself.  That does not lead the second walk astray, since a walk goes through
directories only, and where the file now stands there was none (`grows_put`).
-/

namespace EditPipeline

/-- A text is read back from its encoding. -/
theorem fromUTF8?_toUTF8 (text : String) : String.fromUTF8? text.toUTF8 = some text := by
  unfold String.fromUTF8?
  rw [String.toUTF8_eq_toByteArray, dif_pos text.isValidUTF8]
  rfl

namespace FileSystem

variable {fs : FileSystem} {location : Location} {node : Node}

/-! ## One node more -/

theorem lookup_setNode (location other : Location) (node : Node) (nodes : List (Location × Node)) :
    (setNode location node nodes).lookup other =
      if other = location then some node else nodes.lookup other := by
  have hcons : ∀ (first : Location) (held : Node) (rest : List (Location × Node)),
      ((first, held) :: rest).lookup other =
        if other = first then some held else rest.lookup other := by
    intro first held rest
    rw [List.lookup_cons]
    by_cases hsame : other = first
    · rw [if_pos hsame, beq_iff_eq.2 hsame]
    · rw [if_neg hsame, beq_eq_false_iff_ne.2 hsame]
  induction nodes with
  | nil => exact hcons location node []
  | cons entry nodes ih =>
      obtain ⟨first, held⟩ := entry
      unfold setNode
      by_cases hfirst : first = location
      · rw [if_pos hfirst, hcons, hcons]
        by_cases hother : other = location
        · rw [if_pos hother, if_pos hother]
        · rw [if_neg hother, if_neg hother, if_neg (hfirst ▸ hother)]
      · rw [if_neg hfirst, hcons, hcons, ih]
        by_cases hother : other = first
        · rw [if_pos hother, if_pos hother, if_neg (hother ▸ hfirst)]
        · rw [if_neg hother, if_neg hother]

theorem node?_put_self (hroot : location ≠ []) : (fs.put location node).node? location = some node := by
  unfold node? put
  rw [if_neg hroot, lookup_setNode, if_pos rfl]

theorem node?_put_of_ne {other : Location} (hne : other ≠ location) :
    (fs.put location node).node? other = fs.node? other := by
  unfold node? put
  rw [lookup_setNode, if_neg hne]

theorem isSome_node?_put {other : Location} (hsome : (fs.node? other).isSome) :
    ((fs.put location node).node? other).isSome := by
  by_cases hsame : other = location
  · subst hsame
    by_cases hroot : other = []
    · simp [hroot, node?]
    · simp [node?_put_self hroot]
  · rwa [node?_put_of_ne hsame]

/-! ## The way to the file -/

/-- A file system has grown: nothing is gone, and its directories are directories still. -/
structure Grows (fs after : FileSystem) : Prop where
  home : after.home = fs.home
  stands {location : Location} (hsome : (fs.node? location).isSome) :
    (after.node? location).isSome
  directory {location : Location} (hdirectory : fs.node? location = some .directory) :
    after.node? location = some .directory

/-- It grows when a node appears where no directory was. -/
theorem grows_put (hplace : fs.node? location ≠ some .directory) :
    fs.Grows (fs.put location node) where
  home := rfl
  stands := isSome_node?_put
  directory {other} hdirectory := by
    have hne : other ≠ location := by
      rintro rfl
      exact hplace hdirectory
    rwa [node?_put_of_ne hne]

namespace Grows

variable {after : FileSystem}

/-- A step goes on as it did before. -/
theorem step (hgrows : fs.Grows after) {current next : Location} {segment : List Char}
    (hstep : fs.step current segment = .ok next) : after.step current segment = .ok next := by
  unfold FileSystem.step at hstep ⊢
  split at hstep
  · rename_i hdirectory
    rw [hgrows.directory hdirectory]
    dsimp only at hstep ⊢
    by_cases hstays : segment = [] ∨ segment = ['.']
    · rwa [if_pos hstays] at hstep ⊢
    rw [if_neg hstays] at hstep ⊢
    by_cases hup : segment = ['.', '.']
    · rwa [if_pos hup] at hstep ⊢
    rw [if_neg hup] at hstep ⊢
    by_cases hlong : maxNameBytes < (String.ofList segment).utf8ByteSize
    · rw [if_pos hlong] at hstep
      cases hstep
    rw [if_neg hlong] at hstep ⊢
    by_cases hthere : (fs.node? (current ++ [String.ofList segment])).isSome
    · rw [if_pos hthere] at hstep
      rwa [if_pos (hgrows.stands hthere)]
    · rw [if_neg hthere] at hstep
      cases hstep
  · cases hstep

/-- So does a walk. -/
theorem walk (hgrows : fs.Grows after) {current last : Location} {segments : List (List Char)}
    (hwalk : fs.walk current segments = .ok last) : after.walk current segments = .ok last := by
  induction segments generalizing current with
  | nil => exact hwalk
  | cons segment rest ih =>
      unfold FileSystem.walk at hwalk ⊢
      split at hwalk
      · rename_i next hstep
        rw [hgrows.step hstep]
        exact ih hwalk
      · cases hwalk

/-- What exists is found where it was. -/
theorem locate (hgrows : fs.Grows after) {path : Path} (hlocate : fs.locate path = .ok location) :
    after.locate path = .ok location := by
  obtain ⟨checked, hcheck, hwalk⟩ := bind_eq_ok_iff.1 hlocate
  unfold FileSystem.locate
  rw [hcheck, ok_bind, origin, hgrows.home]
  exact hgrows.walk hwalk

end Grows

theorem walk_append {current between : Location} {segments more : List (List Char)}
    (hwalk : fs.walk current segments = .ok between) :
    fs.walk current (segments ++ more) = fs.walk between more := by
  induction segments generalizing current with
  | nil =>
      cases hwalk
      rfl
  | cons segment rest ih =>
      rw [walk] at hwalk
      rw [List.cons_append, walk]
      split at hwalk
      · rename_i next hstep
        exact ih hwalk
      · cases hwalk

/-! ## Writing -/

/-- The segments without the empty ones at the end, if no slashes follow the last one. -/
theorem kept_eq_segments {segments : List (List Char)}
    (hslashed : ¬ ((segments.reverse.dropWhile (· = [])).reverse).length < segments.length) :
    (segments.reverse.dropWhile (· = [])).reverse = segments := by
  have hsuffix := List.dropWhile_suffix (l := segments.reverse) (· = [])
  have hlength := hsuffix.length_le
  rw [List.length_reverse] at hslashed hlength
  have hall := hsuffix.eq_of_length (by rw [List.length_reverse]; omega)
  rw [hall, List.reverse_reverse]

/-- The last segment of a path that a file can have is the name of the file, and the others
lead to its directory. -/
theorem segments_of_target {path : Path} {target : Target} {name : String}
    (htarget : fs.target path = .ok target) (hname : target.name? = some name)
    (hslashed : target.slashed = false) :
    ∃ (above : List (List Char)) (segment : List Char), path.segments = above ++ [segment] ∧
      checkPath path = .ok () ∧ fs.walk (fs.origin path) above = .ok target.parent ∧
      fs.node? target.parent = some .directory ∧ segment ≠ [] ∧ segment ≠ ['.'] ∧
      segment ≠ ['.', '.'] ∧ name = String.ofList segment := by
  obtain ⟨checked, hcheck, htarget⟩ := bind_eq_ok_iff.1 htarget
  obtain ⟨parent, hwalk, htarget⟩ := bind_eq_ok_iff.1 htarget
  split at htarget
  · rename_i hdirectory
    cases htarget
    have hkept := kept_eq_segments (of_decide_eq_false hslashed)
    unfold Target.name? at hname
    dsimp only at hname
    split at hname
    · cases hname
    · rename_i segment hlast
      split at hname
      · cases hname
      · rename_i hdots
        cases hname
        have hsegments := List.dropLast_append_getLast? segment hlast
        have hfilled : segment ≠ [] := by
          have hhead := List.head?_dropWhile_not (· = []) path.segments.reverse
          rw [← List.getLast?_reverse, hlast] at hhead
          exact of_decide_eq_false hhead
        rw [hkept] at hsegments hwalk
        exact ⟨_, segment, hsegments.symm, hcheck, hwalk, hdirectory, hfilled,
          fun h => hdots (Or.inl h), fun h => hdots (Or.inr h), rfl⟩
  · cases htarget

/-- The step to a file from the directory that it stands in. -/
theorem step_put_self {parent : Location} {segment : List Char}
    (hdirectory : fs.node? parent = some .directory) (hfilled : segment ≠ [])
    (hdot : segment ≠ ['.']) (hdots : segment ≠ ['.', '.'])
    (hshort : ¬ maxNameBytes < (String.ofList segment).utf8ByteSize) :
    (fs.put (parent ++ [String.ofList segment]) node).step parent segment =
      .ok (parent ++ [String.ofList segment]) := by
  have hne : parent ≠ parent ++ [String.ofList segment] := by simp
  have hthere : ((fs.put (parent ++ [String.ofList segment]) node).node?
      (parent ++ [String.ofList segment])).isSome := by
    rw [node?_put_self (by simp)]
    rfl
  unfold step
  rw [node?_put_of_ne hne, hdirectory]
  dsimp only
  rw [if_neg (not_or.2 ⟨hfilled, hdot⟩), if_neg hdots, if_neg hshort, if_pos hthere]

/-- What there is to say about a text that was written: where it went, and that no directory
stood there. -/
theorem write_eq_ok {path : Path} {text : String} {after : FileSystem}
    (hwrite : fs.write path text = .ok after) :
    ∃ (target : Target) (name : String), fs.target path = .ok target ∧
      target.name? = some name ∧ target.slashed = false ∧
      ¬ maxNameBytes < name.utf8ByteSize ∧
      fs.node? (target.parent ++ [name]) ≠ some .directory ∧
      after = fs.put (target.parent ++ [name]) (.file text.toUTF8) := by
  obtain ⟨target, htarget, hwrite⟩ := bind_eq_ok_iff.1 hwrite
  split at hwrite
  · cases hwrite
  rename_i name hname
  by_cases hslashed : target.slashed = true
  · rw [if_pos hslashed] at hwrite
    cases hwrite
  rw [if_neg hslashed] at hwrite
  by_cases hlong : maxNameBytes < name.utf8ByteSize
  · rw [if_pos hlong] at hwrite
    cases hwrite
  rw [if_neg hlong] at hwrite
  dsimp only at hwrite
  split at hwrite
  · cases hwrite
  rename_i hplace
  cases hwrite
  exact ⟨target, name, htarget, hname, Bool.eq_false_iff.2 hslashed, hlong, hplace, rfl⟩

/-- A text that was written has become the file to which its path leads. -/
theorem locate_of_write {path : Path} {text : String} {after : FileSystem}
    (hwrite : fs.write path text = .ok after) :
    ∃ location : Location, location ≠ [] ∧ fs.node? location ≠ some .directory ∧
      after = fs.put location (.file text.toUTF8) ∧ after.locate path = .ok location := by
  obtain ⟨target, name, htarget, hname, hslashed, hshort, hplace, rfl⟩ := write_eq_ok hwrite
  obtain ⟨above, segment, hsegments, hcheck, hwalk, hdirectory, hfilled, hdot, hdots, rfl⟩ :=
    segments_of_target htarget hname hslashed
  refine ⟨_, by simp, hplace, rfl, ?_⟩
  have hgrows : fs.Grows (fs.put (target.parent ++ [String.ofList segment])
      (.file text.toUTF8)) := grows_put hplace
  have hgrown := hgrows.walk hwalk
  unfold locate
  rw [hcheck, ok_bind]
  show FileSystem.walk _ (fs.origin path) path.segments = _
  rw [hsegments, walk_append hgrown, walk,
    step_put_self hdirectory hfilled hdot hdots hshort]
  rfl

/-- A text is read from a path that leads to a file with the text. -/
theorem read_eq_ok_iff {path : Path} {text : String} :
    fs.read path = .ok text ↔ ∃ (location : Location) (content : ByteArray),
      fs.locate path = .ok location ∧ fs.node? location = some (.file content) ∧
        String.fromUTF8? content = some text := by
  unfold read readBytes
  rw [bind_eq_ok_iff]
  constructor
  · rintro ⟨content, hbytes, htext⟩
    obtain ⟨location, hlocate, hnode⟩ := bind_eq_ok_iff.1 hbytes
    refine ⟨location, content, hlocate, ?_, ?_⟩
    · split at hnode <;> cases hnode
      assumption
    · split at htext <;> cases htext
      assumption
  · rintro ⟨location, content, hlocate, hnode, htext⟩
    refine ⟨content, ?_, ?_⟩
    · rw [hlocate, ok_bind, hnode]
      rfl
    · rw [htext]
      rfl

/-- A text that was written to a path is read from it. -/
theorem read_of_write {path : Path} {text : String} {after : FileSystem}
    (hwrite : fs.write path text = .ok after) : after.read path = .ok text := by
  obtain ⟨location, hroot, hplace, rfl, hlocate⟩ := locate_of_write hwrite
  exact read_eq_ok_iff.2 ⟨location, text.toUTF8, hlocate, node?_put_self hroot,
    fromUTF8?_toUTF8 text⟩

end FileSystem

end EditPipeline
