import EditPipeline.Proofs.Files.Components
import EditPipeline.Proofs.Files.Landing
import EditPipeline.Snapshot

/-!
# The files of snapshots

Two snapshots of one run differ in their numbers, and the number begins the name of the file.
A name may hold anything after its number, slashes included, so what two names have in common
is not settled by their texts alone: it is the first segment that is always a name, and that
tells the number (`components_join_ne`).  If the editor's name has no slash, the file stands
right in the directory (`landing_join_of_noSlash`).
-/

namespace EditPipeline

namespace Snapshot

/-! ## Numbers -/

/-- Zeros in front do not change a number. -/
theorem ofDigitChars_zeros (count : Nat) (digits : List Char) :
    Nat.ofDigitChars 10 (List.replicate count '0' ++ digits) 0 = Nat.ofDigitChars 10 digits 0 := by
  induction count with
  | zero => rfl
  | succ count ih =>
      rw [List.replicate_succ, List.cons_append, Nat.ofDigitChars_cons]
      exact ih

theorem ofDigitChars_padded (n : Nat) : Nat.ofDigitChars 10 (padded n).toList 0 = n := by
  unfold padded
  rw [String.toList_ofList, ofDigitChars_zeros]
  exact Nat.ofDigitChars_toDigits (by decide) (by decide)

theorem isDigit_of_mem_padded {n : Nat} {c : Char} (hc : c ∈ (padded n).toList) :
    c.isDigit = true := by
  unfold padded at hc
  rw [String.toList_ofList, List.mem_append] at hc
  rcases hc with hc | hc
  · rw [List.eq_of_mem_replicate hc]
    rfl
  · exact Nat.isDigit_of_mem_toDigits (by decide) (by decide) hc

/-- What begins with a number and a dash tells the number. -/
theorem eq_of_padded_dash {n m : Nat} {rest more : List Char}
    (hsame : (padded n).toList ++ '-' :: rest = (padded m).toList ++ '-' :: more) : n = m := by
  have htake (n : Nat) (rest : List Char) :
      ((padded n).toList ++ '-' :: rest).takeWhile Char.isDigit = (padded n).toList := by
    rw [List.takeWhile_append_of_pos fun c hc => isDigit_of_mem_padded hc,
      List.takeWhile_cons_of_neg (by decide), List.append_nil]
  have hdigits : (padded n).toList = (padded m).toList := by
    rw [← htake n rest, hsame, htake]
  rw [← ofDigitChars_padded n, hdigits, ofDigitChars_padded]

/-! ## Names -/

theorem toList_fileName (snapshot : Snapshot) :
    snapshot.fileName.toList =
      (padded snapshot.index).toList ++ '-' :: (snapshot.stage ++ ".json").toList := by
  unfold fileName
  rw [String.append_assoc, String.append_assoc, String.toList_append, String.toList_append]
  rfl

/-- The first segment of a name is a name, and begins with the number. -/
theorem segments_fileName (snapshot : Snapshot) :
    ∃ (rest : List Char) (back : List (List Char)), (Path.mk snapshot.fileName).segments =
      ((padded snapshot.index).toList ++ '-' :: rest) :: back := by
  have hslash : '/' ∉ (padded snapshot.index).toList ++ ['-'] := by
    rw [List.mem_append, not_or]
    refine ⟨fun hmem => ?_, by simp⟩
    cases isDigit_of_mem_padded hmem
  have hstart : (padded snapshot.index).toList ++ ['-'] <+: snapshot.fileName.toList := by
    refine ⟨(snapshot.stage ++ ".json").toList, ?_⟩
    rw [toList_fileName, List.append_assoc, List.singleton_append]
  obtain ⟨front, back, cut, whole, hsplit, hfront, rest, rfl⟩ := Path.split_cut hstart
  rw [Path.split_of_noSlash hslash] at hfront
  obtain ⟨rfl, hcut⟩ := List.append_inj' (hfront.symm.trans (List.nil_append _).symm) rfl
  rw [List.singleton_inj] at hcut
  refine ⟨rest, back, hsplit.trans ?_⟩
  rw [hcut, List.append_assoc]
  rfl

theorem relative_fileName (snapshot : Snapshot) : (Path.mk snapshot.fileName).isAbsolute = false := by
  unfold Path.isAbsolute
  rw [toList_fileName, decide_eq_false_iff_not]
  cases hdigits : (padded snapshot.index).toList with
  | nil => simp
  | cons c rest =>
      intro hslash
      obtain rfl : c = '/' := Option.some.inj hslash
      have hdigit := isDigit_of_mem_padded (hdigits ▸ List.mem_cons_self)
      cases hdigit

/-- **Snapshots with different numbers have different files.** -/
theorem components_join_ne {snapshot other : Snapshot} (directory : Path)
    (hindex : snapshot.index ≠ other.index) :
    (directory.join ⟨snapshot.fileName⟩).components ≠
      (directory.join ⟨other.fileName⟩).components := by
  intro hsame
  have hparts : (Path.mk snapshot.fileName).segments.filterMap Path.Component.ofSegment? =
      (Path.mk other.fileName).segments.filterMap Path.Component.ofSegment? := by
    rw [Path.filterMap_segments snapshot.relative_fileName,
      Path.filterMap_segments other.relative_fileName]
    by_cases hempty : directory.text = ""
    · rw [Path.join_eq_self (.inr hempty), Path.join_eq_self (.inr hempty)] at hsame
      rw [hsame]
    · rw [Path.components_join snapshot.relative_fileName hempty,
        Path.components_join other.relative_fileName hempty] at hsame
      exact List.append_cancel_left hsame
  have hname (n : Nat) (rest : List Char) :
      Path.Component.ofSegment? ((padded n).toList ++ '-' :: rest) =
        some (.name ((padded n).toList ++ '-' :: rest)) := by
    have hdash : '-' ∈ (padded n).toList ++ '-' :: rest := by simp
    refine Path.ofSegment?_eq_name_iff.2 ⟨rfl, ?_, ?_, ?_⟩ <;> intro hdots <;>
      rw [hdots] at hdash <;> simp at hdash
  obtain ⟨rest, back, hsegments⟩ := snapshot.segments_fileName
  obtain ⟨more, others, hothers⟩ := other.segments_fileName
  rw [hsegments, hothers, List.filterMap_cons, List.filterMap_cons, hname, hname] at hparts
  rw [List.cons.injEq, Path.Component.name.injEq] at hparts
  exact hindex (eq_of_padded_dash hparts.1)

end Snapshot

/-! ## Places -/

/-- A path below a base starts where the base lands. -/
theorem Path.landing_join {base path : Path} (home : Location)
    (hrelative : path.isAbsolute = false) :
    (base.join path).landing home = path.segments.foldl Location.enter (base.landing home) := by
  unfold Path.landing
  by_cases hbase : base.text = ""
  · have hsegments : base.segments = [[]] := by
      unfold Path.segments
      rw [hbase]
      rfl
    have hstays : base.isAbsolute = false := by
      unfold Path.isAbsolute
      rw [hbase]
      rfl
    rw [Path.join_eq_self (.inr hbase), hsegments, hrelative, hstays]
    rfl
  · obtain ⟨front, -, hjoined, hfront⟩ := Path.segments_join hrelative hbase
    rw [hjoined, Path.isAbsolute_join hrelative hbase, List.foldl_append]
    rcases hfront with hfront | hfront
    · rw [hfront]
    · rw [hfront, List.foldl_append]
      rfl

theorem Snapshot.landing_join_of_noSlash {snapshot : Snapshot} (home : Location)
    (directory : Path) (hslash : '/' ∉ snapshot.stage.toList) :
    (directory.join ⟨snapshot.fileName⟩).landing home =
      directory.landing home ++ [snapshot.fileName] := by
  obtain ⟨rest, back, hsegments⟩ := snapshot.segments_fileName
  have hwhole : (Path.mk snapshot.fileName).segments = [snapshot.fileName.toList] := by
    refine Path.split_of_noSlash ?_
    rw [toList_fileName, String.toList_append]
    simp only [List.mem_append, List.mem_cons, not_or]
    refine ⟨fun hmem => ?_, by decide, hslash, by decide⟩
    cases isDigit_of_mem_padded hmem
  have hdash : '-' ∈ snapshot.fileName.toList := by
    rw [toList_fileName]
    simp
  rw [Path.landing_join home snapshot.relative_fileName, hwhole, List.foldl_cons, List.foldl_nil]
  unfold Location.enter
  rw [if_neg, if_neg, String.ofList_toList]
  · intro hdots
    rw [hdots] at hdash
    simp at hdash
  · rintro (hnone | hdot)
    · rw [hnone] at hdash
      simp at hdash
    · rw [hdot] at hdash
      simp at hdash

end EditPipeline
