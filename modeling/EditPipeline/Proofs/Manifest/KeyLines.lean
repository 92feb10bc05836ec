import EditPipeline.Manifest.KeyLabel
import Mathlib.Data.List.Induction
import Mathlib.Data.List.TakeWhile
import Mathlib.Data.String.Basic

/-!
# The line that a label is for

The place of a key is told from the text alone, cut into lines at its line feeds
(`List.splitOn`).  A line is read without the space around it.  The table that it belongs to
is the one of the nearest line before it that starts a table (`InTable`), and the line gives
the key a value if it begins with the key and an equals sign (`Assigned`).

The search holds one name instead of the lines it has seen.  That name is the table of the next
line, and each step keeps it so (`inTable_snoc`, `finds_cons`).  Bytes are counted over lines
that still have their ends, so the count is the size of all that stands before a line, whatever
ends the lines have (`liesAt_span`, `finds_lines`).

The search finds a place exactly if some line gives the key a value, and then the place is that
of the first such line without the space around it (`find?_first_assigned`).
-/

namespace EditPipeline

namespace Text

variable {text more gap : List Char} {c : Char}

/-! ## Text without space around it -/

theorem trimStart_append_of_blank (hgap : ∀ c ∈ gap, isBlank c) :
    trimStart (gap ++ text) = trimStart text :=
  List.dropWhile_append_of_pos hgap

theorem trimEnd_append_of_blank (hgap : ∀ c ∈ gap, isBlank c) :
    trimEnd (text ++ gap) = trimEnd text := by
  unfold trimEnd
  rw [List.reverse_append,
    List.dropWhile_append_of_pos fun c hc => hgap c (List.mem_reverse.1 hc)]

theorem trimEnd_append_cons (text : List Char) (hc : isBlank c = false) :
    trimEnd (text ++ c :: more) = text ++ c :: trimEnd more := by
  have hkept : (more.reverse ++ (c :: text.reverse)).dropWhile isBlank =
      more.reverse.dropWhile isBlank ++ c :: text.reverse := by
    rw [List.dropWhile_append, List.dropWhile_cons_of_neg (by simp [hc])]
    split
    · next hempty => rw [List.isEmpty_iff.1 hempty, List.nil_append]
    · rfl
  unfold trimEnd
  rw [List.reverse_append, List.reverse_cons, List.append_assoc, List.singleton_append, hkept]
  simp

/-- A text is its trimmed text with blank characters after it. -/
theorem exists_append_of_trimEnd (text : List Char) :
    ∃ gap, (∀ c ∈ gap, isBlank c) ∧ text = trimEnd text ++ gap := by
  refine ⟨(text.reverse.takeWhile isBlank).reverse, fun c hc => ?_, ?_⟩
  · exact List.mem_takeWhile_imp (List.mem_reverse.1 hc)
  · rw [trimEnd, ← List.reverse_append, List.takeWhile_append_dropWhile, List.reverse_reverse]

theorem exists_append_of_trimStart (text : List Char) :
    ∃ gap, (∀ c ∈ gap, isBlank c) ∧ text = gap ++ trimStart text :=
  ⟨text.takeWhile isBlank, fun _ hc => List.mem_takeWhile_imp hc,
    (List.takeWhile_append_dropWhile).symm⟩

theorem isBlank_of_trimStart (h : trimStart text = c :: more) : isBlank c = false := by
  have hhead := List.head?_dropWhile_not isBlank text
  rw [show text.dropWhile isBlank = c :: more from h] at hhead
  simpa using hhead

theorem trim_append_of_blank (hgap : ∀ c ∈ gap, isBlank c) : trim (text ++ gap) = trim text := by
  unfold trim
  by_cases htext : ∀ c ∈ text, isBlank c
  · have hnil : ∀ {blank : List Char}, (∀ c ∈ blank, isBlank c) → trimStart blank = [] :=
      List.dropWhile_eq_nil_iff.2
    rw [hnil htext, hnil fun c hc => (List.mem_append.1 hc).elim (htext c) (hgap c)]
  · have hstart : trimStart (text ++ gap) = trimStart text ++ gap := by
      unfold trimStart
      rw [List.dropWhile_append, if_neg]
      rw [List.isEmpty_iff, List.dropWhile_eq_nil_iff]
      exact htext
    rw [hstart, trimEnd_append_of_blank hgap]

/-- Space at the end is also at the end of the part before a sign that is no space. -/
theorem trim_takeWhile_trimEnd (hc : isBlank c = false) (text : List Char) :
    trim ((trimEnd text).takeWhile (· ≠ c)) = trim (text.takeWhile (· ≠ c)) := by
  obtain ⟨gap, hgap, htext⟩ := exists_append_of_trimEnd text
  have hkept : gap.takeWhile (· ≠ c) = gap := by
    refine List.takeWhile_eq_self_iff.2 fun d hd => decide_eq_true fun hdc => ?_
    rw [← hdc, hgap d hd] at hc
    cases hc
  conv_rhs => rw [htext, List.takeWhile_append]
  split
  · next hall =>
      rw [hkept, (List.takeWhile_prefix _).eq_of_length hall, trim_append_of_blank hgap]
  · rfl

end Text

namespace KeyLabel

variable {text name table current key line raw : List Char} {above below : List (List Char)}

/-! ## What a line says -/

/-- A line starts a table: without the space around it, it begins with a bracket, and the name
of the table stands from there to the first closing bracket, or to the end. -/
def Opens (name line : List Char) : Prop :=
  ∃ rest, Text.trim line = '[' :: rest ∧ Text.trim (rest.takeWhile (· ≠ ']')) = name

/-- A line gives a key a value: without the space around it, it begins with the key, and an
equals sign comes next, after space if there is any. -/
def Assigns (key line : List Char) : Prop :=
  ∃ gap rest, (∀ c ∈ gap, Text.isBlank c) ∧ Text.trim line = key ++ gap ++ '=' :: rest

/-- The lines of a text, each with a line feed after it. -/
def ended (lines : List (List Char)) : List Char := lines.flatMap (· ++ ['\n'])

/-- The table that a line belongs to, which stands after the lines `above`. -/
inductive InTable (table : List Char) (above : List (List Char)) : Prop
  /-- The nearest of these lines that starts a table starts this one. -/
  | opened (front : List (List Char)) (header : List Char) (back : List (List Char))
      (above_eq : above = front ++ header :: back) (opens : Opens table header)
      (nearest : ∀ line ∈ back, ∀ name, ¬ Opens name line)
  /-- None of them starts a table, and the lines before the first table have none. -/
  | unnamed (table_eq : table = []) (none : ∀ line ∈ above, ∀ name, ¬ Opens name line)

/-- A line after the lines `above` gives a key of a table its value. -/
structure Assigned (table key : List Char) (above : List (List Char)) (line : List Char) :
    Prop where
  plain : ∀ name, ¬ Opens name line
  assigns : Assigns key line
  inTable : InTable table above

theorem Opens.unique {other : List Char} (hname : Opens name line) (hother : Opens other line) :
    name = other := by
  obtain ⟨rest, hline, rfl⟩ := hname
  obtain ⟨more, hmore, rfl⟩ := hother
  rw [(List.cons.inj (hline.symm.trans hmore)).2]

/-- What breaks a line is blank. -/
theorem exists_append_of_dropBreak (line : List Char) :
    ∃ gap, (∀ c ∈ gap, Text.isBlank c) ∧ line = dropBreak line ++ gap := by
  refine ⟨(line.reverse.takeWhile fun c => c = '\n' || c = '\r').reverse, fun c hc => ?_, ?_⟩
  · have hbreak := List.mem_takeWhile_imp (List.mem_reverse.1 hc)
    simp only [Bool.or_eq_true, decide_eq_true_eq] at hbreak
    rcases hbreak with rfl | rfl <;> rfl
  · rw [dropBreak, ← List.reverse_append, List.takeWhile_append_dropWhile, List.reverse_reverse]

theorem dropBreak_concat (line : List Char) : dropBreak (line ++ ['\n']) = dropBreak line := by
  unfold dropBreak
  rw [List.reverse_append, List.reverse_singleton, List.singleton_append,
    List.dropWhile_cons_of_pos rfl]

theorem trim_dropBreak (line : List Char) : Text.trim (dropBreak line) = Text.trim line := by
  obtain ⟨gap, hgap, hline⟩ := exists_append_of_dropBreak line
  conv_rhs => rw [hline, Text.trim_append_of_blank hgap]

/-- The search reads the name of a table from a line that still has space at its end. -/
theorem header?_eq_some_iff {offset : Nat} :
    Line.header? ⟨offset, dropBreak line⟩ = some name ↔ Opens name line := by
  unfold Opens
  rw [← trim_dropBreak, Text.trim]
  unfold Line.header?
  cases hstart : Text.trimStart (dropBreak line) with
  | nil => simp [Text.trimEnd]
  | cons c rest =>
      have htrim : Text.trimEnd (c :: rest) = c :: Text.trimEnd rest :=
        Text.trimEnd_append_cons [] (Text.isBlank_of_trimStart hstart)
      rw [htrim]
      by_cases hc : c = '['
      · subst hc
        have hname := Text.trim_takeWhile_trimEnd (c := ']') rfl rest
        simp only [Option.some.injEq, List.cons.injEq, true_and, exists_eq_left', hname]
      · simp [hc]

theorem dropFront?_eq_some_iff {front rest : List Char} :
    dropFront? front text = some rest ↔ text = front ++ rest := by
  induction front generalizing text with
  | nil => simp [dropFront?]
  | cons c front ih =>
      cases text with
      | nil => simp [dropFront?]
      | cons d text =>
          rw [dropFront?, List.cons_append, List.cons.injEq]
          split
          · next hcd => rw [ih, and_iff_right hcd.symm]
          · next hcd => simp [Ne.symm hcd]

theorem assigns_iff {offset : Nat} {key : String} :
    Line.assigns key ⟨offset, dropBreak line⟩ ↔ Assigns key.toList line := by
  have hequals : Text.isBlank '=' = false := rfl
  unfold Line.assigns Assigns
  rw [← trim_dropBreak, Text.trim]
  constructor
  · intro hassigns
    split at hassigns
    · cases hassigns
    · next rest hfront =>
        obtain ⟨gap, hgap, hrest⟩ := Text.exists_append_of_trimStart rest
        obtain ⟨more, hmore⟩ := List.head?_eq_some_iff.1 (of_decide_eq_true hassigns)
        refine ⟨gap, Text.trimEnd more, hgap, ?_⟩
        rw [dropFront?_eq_some_iff.1 hfront, hrest, hmore, ← List.append_assoc,
          Text.trimEnd_append_cons _ hequals]
  · rintro ⟨gap, rest, hgap, htrim⟩
    obtain ⟨trail, -, htext⟩ := Text.exists_append_of_trimEnd (Text.trimStart (dropBreak line))
    rw [htrim, List.append_assoc, List.append_assoc] at htext
    rw [dropFront?_eq_some_iff.2 htext]
    dsimp only
    rw [Text.trimStart_append_of_blank hgap]
    rfl

/-! ## The table of a line -/

theorem inTable_nil : InTable table [] ↔ table = [] := by
  constructor
  · rintro (⟨front, header, back, habove, -, -⟩ | ⟨htable, -⟩)
    · exact absurd habove.symm (by simp)
    · exact htable
  · exact fun htable => .unnamed htable fun line hline => absurd hline List.not_mem_nil

theorem inTable_snoc :
    InTable table (above ++ [line]) ↔
      Opens table line ∨ (∀ name, ¬ Opens name line) ∧ InTable table above := by
  constructor
  · rintro (⟨front, header, back, habove, hopens, hnearest⟩ | ⟨htable, hnone⟩)
    · rcases List.eq_nil_or_concat back with rfl | ⟨back, last, rfl⟩
      · obtain ⟨-, hline⟩ := List.append_inj' habove rfl
        exact .inl ((List.cons.inj hline).1 ▸ hopens)
      · rw [List.concat_eq_append, ← List.cons_append, ← List.append_assoc] at habove
        rw [List.concat_eq_append] at hnearest
        obtain ⟨hfront, hline⟩ := List.append_inj' habove rfl
        obtain rfl := (List.cons.inj hline).1
        exact .inr ⟨hnearest line (List.mem_append_right _ List.mem_cons_self),
          .opened front header back hfront hopens fun other hother =>
            hnearest other (List.mem_append_left _ hother)⟩
    · exact .inr ⟨hnone line (List.mem_append_right _ List.mem_cons_self),
        .unnamed htable fun other hother => hnone other (List.mem_append_left _ hother)⟩
  · rintro (hopens | ⟨hplain, ⟨front, header, back, rfl, hopens, hnearest⟩ | ⟨htable, hnone⟩⟩)
    · exact .opened above line [] rfl hopens fun other hother => absurd hother List.not_mem_nil
    · refine .opened front header (back ++ [line]) (by simp) hopens fun other hother => ?_
      rcases List.mem_append.1 hother with hback | hlast
      · exact hnearest other hback
      · rwa [List.mem_singleton.1 hlast]
    · refine .unnamed htable fun other hother => ?_
      rcases List.mem_append.1 hother with habove | hlast
      · exact hnone other habove
      · rwa [List.mem_singleton.1 hlast]

theorem InTable.unique {other : List Char} (htable : InTable table above)
    (hother : InTable other above) : table = other := by
  induction above using List.reverseRecOn with
  | nil => rw [inTable_nil.1 htable, inTable_nil.1 hother]
  | append_singleton above line ih =>
      rcases inTable_snoc.1 htable with hopens | ⟨hplain, habove⟩
      · rcases inTable_snoc.1 hother with hopens' | ⟨hplain, -⟩
        · exact hopens.unique hopens'
        · exact absurd hopens (hplain table)
      · rcases inTable_snoc.1 hother with hopens | ⟨-, hothers⟩
        · exact absurd hopens (hplain other)
        · exact ih habove hothers

/-! ## The place of a line -/

/-- The bytes of a line after the lines `above`, without the space around it. -/
def LiesAt (above : List (List Char)) (line : List Char) (span : Span) : Prop :=
  ∃ lead trail, line = lead ++ Text.trim line ++ trail ∧
    span = ⟨byteSize (ended above ++ lead), byteSize (Text.trim line)⟩

theorem liesAt_span (above : List (List Char)) (line : List Char) :
    LiesAt above line (Line.span ⟨byteSize (ended above), dropBreak line⟩) := by
  obtain ⟨gap, -, hline⟩ := exists_append_of_dropBreak line
  obtain ⟨lead, -, hlead⟩ := Text.exists_append_of_trimStart (dropBreak line)
  obtain ⟨trail, -, htrail⟩ := Text.exists_append_of_trimEnd (Text.trimStart (dropBreak line))
  have htrim : Text.trimEnd (Text.trimStart (dropBreak line)) = Text.trim line :=
    trim_dropBreak line
  have hbefore : byteSize (dropBreak line) - byteSize (Text.trimStart (dropBreak line)) =
      byteSize lead := by
    conv_lhs => rw [hlead, byteSize_append]
    rw [← hlead, Nat.add_sub_cancel]
  refine ⟨lead, trail ++ gap, ?_, ?_⟩
  · calc line = dropBreak line ++ gap := hline
      _ = lead ++ (Text.trim line ++ trail) ++ gap := by rw [← htrim, ← htrail, ← hlead]
      _ = lead ++ Text.trim line ++ (trail ++ gap) := by simp only [List.append_assoc]
  · rw [Line.span, hbefore, htrim, byteSize_append]

theorem ended_snoc (above : List (List Char)) (line : List Char) :
    ended (above ++ [line]) = ended above ++ (line ++ ['\n']) := by
  simp [ended]

theorem split_append_break (hline : '\n' ∉ line) (rest : List Char) :
    split (line ++ '\n' :: rest) = (line ++ ['\n']) :: split rest := by
  induction line with
  | nil => rfl
  | cons c line ih =>
      rw [List.mem_cons, not_or] at hline
      rw [List.cons_append, split, if_neg (Ne.symm hline.1), ih hline.2]
      rfl

theorem split_of_noBreak (hline : '\n' ∉ line) (hne : line ≠ []) : split line = [line] := by
  induction line with
  | nil => exact absurd rfl hne
  | cons c line ih =>
      rw [List.mem_cons, not_or] at hline
      rw [split, if_neg (Ne.symm hline.1)]
      cases line with
      | nil => rfl
      | cons d line => rw [ih hline.2 (List.cons_ne_nil d line)]

/-! ## The search -/

/-- What a search finds among the lines `below`, which stand after the lines `above`. -/
inductive Finds (table key : List Char) :
    List (List Char) → List (List Char) → Option Span → Prop
  | none {above : List (List Char)} : Finds table key above [] none
  | here {above below : List (List Char)} {line : List Char} {span : Span}
      (assigned : Assigned table key above line) (place : LiesAt above line span) :
      Finds table key above (line :: below) (some span)
  | later {above below : List (List Char)} {line : List Char} {result : Option Span}
      (other : ¬ Assigned table key above line)
      (rest : Finds table key (above ++ [line]) below result) :
      Finds table key above (line :: below) result

theorem finds_cons {current : List Char} {key : String} {rest : List Line}
    (hcurrent : InTable current above)
    (hrest : ∀ next, InTable next (above ++ [line]) →
      Finds table key.toList (above ++ [line]) below (findIn table key next rest)) :
    Finds table key.toList above (line :: below)
      (findIn table key current (⟨byteSize (ended above), dropBreak line⟩ :: rest)) := by
  rw [findIn]
  cases hheader : Line.header? ⟨byteSize (ended above), dropBreak line⟩ with
  | some name =>
      have hopens : Opens name line := header?_eq_some_iff.1 hheader
      exact .later (fun hassigned => hassigned.plain name hopens)
        (hrest name (inTable_snoc.2 (.inl hopens)))
  | none =>
      have hplain : ∀ name, ¬ Opens name line := fun name hopens => by
        rw [header?_eq_some_iff.2 hopens] at hheader
        cases hheader
      dsimp only
      split
      · next hfound =>
          exact .here ⟨hplain, assigns_iff.1 hfound.2, hfound.1 ▸ hcurrent⟩ (liesAt_span above line)
      · next hmissed =>
          refine .later (fun hassigned => hmissed ?_)
            (hrest current (inTable_snoc.2 (.inr ⟨hplain, hcurrent⟩)))
          exact ⟨hcurrent.unique hassigned.inTable, assigns_iff.2 hassigned.assigns⟩

/-- The last line of a text that ends in a line feed is empty, and the search does not see it. -/
theorem not_assigned_nil : ¬ Assigned table key above [] := by
  rintro ⟨-, ⟨gap, rest, -, hline⟩, -⟩
  exact absurd hline.symm (by simp [Text.trim, Text.trimStart, Text.trimEnd])

theorem finds_lines {current : List Char} {key : String}
    (hbreak : ∀ line ∈ below, '\n' ∉ line) (hcurrent : InTable current above) :
    Finds table key.toList above below
      (findIn table key current
        (placed (byteSize (ended above)) (split (['\n'].intercalate below)))) := by
  induction below generalizing above current with
  | nil => exact .none
  | cons line below ih =>
      rw [List.forall_mem_cons] at hbreak
      cases below with
      | nil =>
          rw [List.intercalate_singleton]
          by_cases hempty : line = []
          · subst hempty
            exact .later not_assigned_nil .none
          · rw [split_of_noBreak hbreak.1 hempty]
            exact finds_cons hcurrent fun next _ => .none
      | cons second below =>
          rw [List.intercalate_cons_cons, List.append_assoc, List.singleton_append,
            split_append_break hbreak.1, placed, dropBreak_concat]
          refine finds_cons hcurrent fun next hnext => ?_
          rw [← byteSize_append, ← ended_snoc]
          exact ih hbreak.2 hnext

theorem Finds.isSome_iff {result : Option Span} (hfinds : Finds table key above below result) :
    result.isSome ↔
      ∃ seen line rest, below = seen ++ line :: rest ∧ Assigned table key (above ++ seen) line := by
  induction hfinds with
  | none => simp
  | @here above below line span hassigned hplace =>
      exact iff_of_true rfl ⟨[], line, below, rfl, by rwa [List.append_nil]⟩
  | @later above below line result hother hrest ih =>
      rw [ih]
      constructor
      · rintro ⟨seen, next, rest, rfl, hassigned⟩
        exact ⟨line :: seen, next, rest, rfl, by rwa [List.append_cons]⟩
      · rintro ⟨seen, next, rest, hbelow, hassigned⟩
        cases seen with
        | nil =>
            rw [List.append_nil] at hassigned
            exact absurd ((List.cons.inj hbelow).1 ▸ hassigned) hother
        | cons first seen =>
            obtain ⟨rfl, rfl⟩ := List.cons.inj hbelow
            exact ⟨seen, next, rest, rfl, by rwa [← List.append_cons]⟩

theorem Finds.first {span : Span} (hfinds : Finds table key above below (some span)) :
    ∃ seen line rest, below = seen ++ line :: rest ∧ Assigned table key (above ++ seen) line ∧
      (∀ earlier other later, seen = earlier ++ other :: later →
        ¬ Assigned table key (above ++ earlier) other) ∧
      LiesAt (above ++ seen) line span := by
  generalize hresult : some span = result at hfinds
  induction hfinds with
  | none => cases hresult
  | @here above below line found hassigned hplace =>
      cases hresult
      refine ⟨[], line, below, rfl, by rwa [List.append_nil], fun earlier other later hseen => ?_,
        by rwa [List.append_nil]⟩
      exact absurd hseen.symm (by simp)
  | @later above below line result hother hrest ih =>
      obtain ⟨seen, next, rest, rfl, hassigned, hfirst, hplace⟩ := ih hresult
      rw [← List.append_cons] at hassigned hplace
      refine ⟨line :: seen, next, rest, rfl, hassigned, fun earlier other later hseen => ?_, hplace⟩
      cases earlier with
      | nil =>
          rw [List.append_nil]
          exact (List.cons.inj hseen).1 ▸ hother
      | cons first earlier =>
          obtain ⟨rfl, rfl⟩ := List.cons.inj hseen
          rw [List.append_cons]
          exact hfirst earlier other later rfl

/-! ## Bytes of the text -/

theorem byteSize_eq_utf8Len (text : List Char) : byteSize text = String.utf8Len text := by
  induction text with
  | nil => rfl
  | cons c text ih => rw [byteSize, ih, String.utf8Len_cons, Nat.add_comm]

/-- A stretch of a text is a line of it, which stands after the lines `above`, without the space
around it. -/
structure Delimits (text : String) (above : List (List Char)) (line : List Char) (span : Span) :
    Prop where
  after : ∃ rest, text.toList = ended above ++ line ++ rest
  liesAt : LiesAt above line span
  stop_le : span.stop ≤ text.utf8ByteSize
  isValid_start : String.Pos.Raw.IsValid text ⟨span.start⟩
  isValid_stop : String.Pos.Raw.IsValid text ⟨span.stop⟩
  extract_eq : String.Pos.Raw.extract text ⟨span.start⟩ ⟨span.stop⟩ = String.ofList (Text.trim line)
  noBreak : '\n' ∉ Text.trim line

/-- A place inside a text, told by the characters before it. -/
theorem isValid_of_append {text : String} {before after : List Char}
    (htext : text.toList = before ++ after) :
    String.Pos.Raw.IsValid text ⟨byteSize before⟩ := by
  refine String.Pos.Raw.isValid_iff_exists_append.2
    ⟨String.ofList before, String.ofList after, ?_, ?_⟩
  · rw [← String.ofList_append, ← htext, String.ofList_toList]
  · rw [String.Pos.Raw.ext_iff, String.rawEndPos_ofList, byteSize_eq_utf8Len]

theorem LiesAt.delimits {text : String} {span : Span} (hplace : LiesAt above line span)
    {rest : List Char} (htext : text.toList = ended above ++ line ++ rest)
    (hbreak : '\n' ∉ line) : Delimits text above line span := by
  obtain ⟨lead, trail, hline, hspan⟩ := id hplace
  have hparts : text.toList = ended above ++ lead ++ Text.trim line ++ (trail ++ rest) := by
    rw [htext]
    conv_lhs => rw [hline]
    simp only [List.append_assoc]
  have hstop : span.stop = byteSize (ended above ++ lead ++ Text.trim line) := by
    rw [hspan, Span.stop, byteSize_append _ (Text.trim line)]
  have hvalid : String.Pos.Raw.IsValid text ⟨span.stop⟩ := hstop ▸ isValid_of_append hparts
  refine ⟨⟨rest, htext⟩, hplace, hvalid.le_utf8ByteSize, ?_, hvalid, ?_, fun hmem => hbreak ?_⟩
  · rw [List.append_assoc] at hparts
    exact hspan ▸ isValid_of_append hparts
  · rw [hspan, Span.stop, ← String.ofList_toList (s := text), hparts, byteSize_eq_utf8Len,
      byteSize_eq_utf8Len]
    exact String.extract_of_valid _ _ _
  · rw [hline]
    exact List.mem_append_left _ (List.mem_append_right _ hmem)

/-! ## Main statement -/

theorem noBreak_of_mem_splitOn (text : List Char) (hline : line ∈ text.splitOn '\n') :
    '\n' ∉ line := by
  induction text generalizing line with
  | nil => rw [List.splitOn_nil, List.mem_singleton] at hline; simp [hline]
  | cons c text ih =>
      obtain ⟨first, rest, hsplit⟩ := List.exists_cons_of_ne_nil (List.splitOn_ne_nil '\n' text)
      rw [List.splitOn_cons_eq_if_modifyHead] at hline
      rw [hsplit] at hline ih
      split at hline
      · rcases List.mem_cons.1 hline with rfl | hrest
        · exact List.not_mem_nil
        · exact ih hrest
      · next hc =>
          rw [List.modifyHead_cons] at hline
          rcases List.mem_cons.1 hline with rfl | hrest
          · rw [List.mem_cons, not_or]
            exact ⟨fun hbreak => hc (beq_iff_eq.2 hbreak.symm), ih List.mem_cons_self⟩
          · exact ih (List.mem_cons_of_mem first hrest)

/-- The lines before one line of a text, and that line, are what the text begins with. -/
theorem toList_of_splitOn {text : String}
    (hlines : text.toList.splitOn '\n' = above ++ line :: below) :
    ∃ rest, text.toList = ended above ++ line ++ rest := by
  have hjoined : ['\n'].intercalate (above ++ line :: below) = text.toList := by
    rw [← hlines, List.intercalate_splitOn]
  rw [← hjoined]
  clear hlines hjoined
  induction above with
  | nil =>
      cases below with
      | nil => exact ⟨[], by simp [ended]⟩
      | cons next below => exact ⟨'\n' :: ['\n'].intercalate (next :: below), by simp [ended]⟩
  | cons first above ih =>
      obtain ⟨rest, hrest⟩ := ih
      refine ⟨rest, ?_⟩
      rw [List.cons_append, List.intercalate_cons_of_ne_nil (by simp), hrest]
      simp [ended]

/-- **A key is looked for on the lines of its table, and its first value there is found.**  There
is a place exactly if some line of the text gives the key a value in the table.  It is the place
of the first such line, without the space around it, in bytes of the text. -/
theorem find?_first_assigned (text table key : String) :
    ((find? text table key).isSome ↔
      ∃ above line below, text.toList.splitOn '\n' = above ++ line :: below ∧
        Assigned table.toList key.toList above line) ∧
    ∀ span, find? text table key = some span →
      ∃ above line below, text.toList.splitOn '\n' = above ++ line :: below ∧
        Assigned table.toList key.toList above line ∧
        (∀ earlier other later, above = earlier ++ other :: later →
          ¬ Assigned table.toList key.toList earlier other) ∧
        Delimits text above line span := by
  have hfinds : Finds table.toList key.toList [] (text.toList.splitOn '\n')
      (find? text table key) := by
    have hlines := @finds_lines table.toList [] (text.toList.splitOn '\n') [] key
      (fun line hline => noBreak_of_mem_splitOn text.toList hline) (inTable_nil.2 rfl)
    rwa [List.intercalate_splitOn] at hlines
  refine ⟨hfinds.isSome_iff, fun span hspan => ?_⟩
  rw [hspan] at hfinds
  obtain ⟨above, line, below, hlines, hassigned, hfirst, hplace⟩ := hfinds.first
  obtain ⟨rest, hrest⟩ := toList_of_splitOn hlines
  have hbreak : '\n' ∉ line := noBreak_of_mem_splitOn text.toList
    (hlines ▸ List.mem_append_right _ List.mem_cons_self)
  exact ⟨above, line, below, hlines, hassigned, hfirst, hplace.delimits hrest hbreak⟩

example : find? "a = 0\r\n[ output ]\r\n\u3000a = é\u00a0\r\na = 2" "output" "a" =
    some ⟨22, 6⟩ := by decide

end KeyLabel
end EditPipeline
