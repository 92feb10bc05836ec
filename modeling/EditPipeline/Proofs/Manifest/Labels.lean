import EditPipeline.Proofs.Manifest.Accepted
import EditPipeline.Proofs.Manifest.KeyLines
import EditPipeline.Proofs.Toml.Entries
import EditPipeline.Proofs.Toml.Words

/-!
# Where labels point

The place of a label is looked for in the lines of the manifest, which know nothing of strings
over several lines; the manifest itself is what the parser has made of the same text.  The two
are compared at the line that the search stopped at and at the nearest line before it that
opens a table (`KeyLabel.Located`):

* if the line of the key begins inside a string, so does the label (`Located.inString`);
* if it does not, a key begins where the label does (`Located.atom`);
* if the line of the header does not begin inside a string either, then it is a header, all
  statements from there to the key are assignments, and the label begins at the key that the
  parser found in this table (`Located.entry`).

In the last case the key may not be one inside the value of another: such a value would be no
string, and the tables that have labels hold strings only (`Manifest.exists_of_at?`).
-/

namespace EditPipeline

open Toml KeyLabel

/-! ## Strings of a manifest -/

namespace Toml.Record

variable {ρ α : Type} {record : Record ρ α} {entries : Entries} {draft result : ρ}

/-- Every entry of a table that was read has filled its field. -/
theorem fills_of_fillEntries (h : record.fillEntries entries draft = .ok result) {entry : Entry}
    (hmem : entry ∈ entries) :
    ∃ field ∈ record.fields, field.name = entry.1.name ∧
      ∃ before after, field.fill entry.2 before = .ok after := by
  induction entries generalizing draft with
  | nil => cases hmem
  | cons first rest ih =>
      rcases first with ⟨key, value⟩
      unfold fillEntries at h
      split at h
      · cases h
      · next field hfield =>
          obtain ⟨next, hnext, hmore⟩ := bind_eq_ok_iff.1 h
          rcases List.mem_cons.1 hmem with rfl | hmem
          · refine ⟨field, List.mem_of_find?_eq_some hfield, ?_, draft, next, hnext⟩
            simpa using List.find?_some hfield
          · exact ih hmore hmem

theorem fills_of_readEntries {place : Span} {value : α}
    (h : record.readEntries place entries = .ok value) {entry : Entry} (hmem : entry ∈ entries) :
    ∃ field ∈ record.fields, field.name = entry.1.name ∧
      ∃ before after, field.fill entry.2 before = .ok after := by
  obtain ⟨draft, hdraft, -⟩ := bind_eq_ok_iff.1 h
  exact fills_of_fillEntries hdraft (List.mem_mergeSort.2 hmem)

theorem fills_of_read {place : Span} {kind : TableKind} {value : α}
    (h : record.read (place, .table kind entries) = .ok value) {entry : Entry}
    (hmem : entry ∈ entries) :
    ∃ field ∈ record.fields, field.name = entry.1.name ∧
      ∃ before after, field.fill entry.2 before = .ok after :=
  @fills_of_readEntries _ _ record _ place _ h _ hmem

end Toml.Record

theorem Toml.exists_of_toText {expected : Expected} {value : Placed} {s : String}
    (h : toText expected value = .ok s) : ∃ s, value.2 = .string s := by
  rcases value with ⟨place, value⟩
  cases value with
  | string s => exact ⟨s, rfl⟩
  | _ => cases h

theorem Path.exists_of_ofToml {value : Placed} {path : Path} (h : ofToml value = .ok path) :
    ∃ s, value.2 = .string s := by
  obtain ⟨s, hs, -⟩ := map_eq_ok_iff.1 h
  exact exists_of_toText hs

theorem ProjectConfig.exists_of_fill {field : Toml.Field Draft}
    (hfield : field ∈ record.fields) {value : Placed} {before after : Draft}
    (h : field.fill value before = .ok after) :
    ∃ s, value.2 = .string s := by
  rcases List.mem_pair.1 hfield with rfl | rfl
  · obtain ⟨s, hs, -⟩ := bind_eq_ok_iff.1 h
    exact exists_of_toText hs
  · obtain ⟨path, hpath, -⟩ := bind_eq_ok_iff.1 h
    exact Path.exists_of_ofToml hpath

theorem OutputConfig.exists_of_fill {field : Toml.Field OutputConfig}
    (hfield : field ∈ record.fields) {value : Placed} {before after : OutputConfig}
    (h : field.fill value before = .ok after) :
    ∃ s, value.2 = .string s := by
  rcases List.mem_pair.1 hfield with rfl | rfl
  · obtain ⟨path, hpath, -⟩ := bind_eq_ok_iff.1 h
    exact Path.exists_of_ofToml hpath
  · obtain ⟨path, hpath, -⟩ := bind_eq_ok_iff.1 h
    exact Path.exists_of_ofToml hpath

/-- The tables of the project and of the outputs hold strings only. -/
theorem Manifest.exists_of_at? {entries : Entries} {manifest : Manifest} {table name : String}
    {entry : Toml.Entry} (h : Manifest.ofEntries entries = .ok manifest)
    (htable : table = "project" ∨ table = "output")
    (hentry : Entries.at? [table] name entries = some entry) : ∃ s, entry.2.2 = .string s := by
  obtain ⟨key, span, kind, inner, hfound, hinner⟩ := Entries.at?_cons.1 hentry
  have hmem : entry ∈ inner := List.mem_of_find?_eq_some hinner
  obtain ⟨field, hfield, hname, before, after, hfill⟩ :=
    Record.fills_of_readEntries h (List.mem_of_find?_eq_some hfound)
  have hkey : key.name = table := by simpa [named] using List.find?_some hfound
  dsimp only at hname hfill
  simp only [Manifest.record, List.mem_cons, List.not_mem_nil, or_false] at hfield
  rcases hfield with rfl | rfl | rfl
  · obtain ⟨project, hproject, -⟩ := bind_eq_ok_iff.1 hfill
    obtain ⟨field, hfield, -, before, after, hfill⟩ := Record.fills_of_read hproject hmem
    exact ProjectConfig.exists_of_fill hfield hfill
  · obtain ⟨output, houtput, -⟩ := bind_eq_ok_iff.1 hfill
    obtain ⟨field, hfield, -, before, after, hfill⟩ := Record.fills_of_read houtput hmem
    exact OutputConfig.exists_of_fill hfield hfill
  · rw [hkey] at hname
    rcases htable with rfl | rfl
    all_goals exact absurd hname (by decide)

/-! ## The parts of a line -/

namespace KeyLabel

variable {line lead gap trail mid key name front rest : List Char} {lines above : List (List Char)}

/-- A text that neither begins nor ends blank stands at one place among blank characters. -/
theorem lead_unique {lead' trail' : List Char}
    (h : lead ++ mid ++ trail = lead' ++ mid ++ trail') (hlead : ∀ c ∈ lead, Text.isBlank c)
    (htrail : ∀ c ∈ trail, Text.isBlank c) (hfirst : ∀ c ∈ mid.head?, Text.isBlank c = false)
    (hlast : ∀ c ∈ mid.getLast?, Text.isBlank c = false) (hne : mid ≠ []) : lead = lead' := by
  obtain ⟨first, mid', rfl⟩ := List.exists_cons_of_ne_nil hne
  rw [List.append_assoc, List.append_assoc] at h
  rcases List.append_eq_append_iff.1 h with ⟨later, rfl, hlater⟩ | ⟨later, rfl, hlater⟩
  · -- otherwise the text would end among what is blank behind it
    cases later with
    | nil => exact (List.append_nil lead).symm
    | cons c later =>
        exfalso
        rw [← List.append_assoc] at hlater
        rcases List.append_eq_append_iff.1 hlater with ⟨behind, hwhole, rfl⟩ | ⟨behind, hwhole, -⟩
        · have hlength := congrArg List.length hwhole
          simp only [List.length_append, List.length_cons] at hlength
          have hbehind : behind ≠ [] := by
            rintro rfl
            simp at hlength
          obtain ⟨last, hmem⟩ := Option.ne_none_iff_exists'.1
            (mt List.getLast?_eq_none_iff.1 hbehind)
          have hends := congrArg List.getLast? hwhole
          rw [List.getLast?_append_of_ne_nil _ hne, List.getLast?_append_of_ne_nil _ hbehind,
            hmem] at hends
          have hblank := htrail last (List.mem_append_left _ (List.mem_of_getLast? hmem))
          rw [hlast last hends] at hblank
          cases hblank
        · have hlength := congrArg List.length hwhole
          simp only [List.length_append, List.length_cons] at hlength
          omega
  · -- otherwise it would begin among what is blank before it
    cases later with
    | nil => exact List.append_nil lead'
    | cons c later =>
        obtain ⟨rfl, -⟩ := List.cons.inj hlater
        have hblank := hlead first (by simp)
        rw [hfirst first rfl] at hblank
        cases hblank

theorem Assigns.parts (h : Assigns key line) :
    ∃ lead gap rest, line = lead ++ (key ++ (gap ++ '=' :: rest)) ∧
      (∀ c ∈ lead, Text.isBlank c) ∧ ∀ c ∈ gap, Text.isBlank c := by
  obtain ⟨gap, rest, hgap, hline⟩ := h
  obtain ⟨lead, hlead, hstart⟩ := Text.exists_append_of_trimStart line
  obtain ⟨trail, -, htrail⟩ := Text.exists_append_of_trimEnd (Text.trimStart line)
  rw [show Text.trimEnd (Text.trimStart line) = _ from hline] at htrail
  refine ⟨lead, gap, rest ++ trail, ?_, hlead, hgap⟩
  conv_lhs => rw [hstart, htrail]
  simp

/-- A line that opens a table with a name holds the name between its bracket and a closing one,
or the end of the line. -/
theorem Opens.parts (h : Opens name line) :
    ∃ lead lead' gap rest, line = lead ++ '[' :: (lead' ++ (name ++ (gap ++ rest))) ∧
      (∀ c ∈ lead, Text.isBlank c) ∧ (∀ c ∈ lead', Text.isBlank c) ∧
      (∀ c ∈ gap, Text.isBlank c) ∧ (rest = [] ∨ ∃ more, rest = ']' :: more) := by
  obtain ⟨inner, hline, hname⟩ := h
  obtain ⟨lead, hlead, hstart⟩ := Text.exists_append_of_trimStart line
  obtain ⟨trail, htrailBlank, htrail⟩ := Text.exists_append_of_trimEnd (Text.trimStart line)
  rw [show Text.trimEnd (Text.trimStart line) = _ from hline] at htrail
  have hwhole : line = lead ++ '[' :: (inner ++ trail) := by
    conv_lhs => rw [hstart, htrail]
    simp
  -- the name with the space around it
  obtain ⟨lead', hlead', hstart'⟩ := Text.exists_append_of_trimStart (inner.takeWhile (· ≠ ']'))
  obtain ⟨gap, hgap, hgap'⟩ :=
    Text.exists_append_of_trimEnd (Text.trimStart (inner.takeWhile (· ≠ ']')))
  rw [show Text.trimEnd (Text.trimStart _) = _ from hname] at hgap'
  have hinner : inner = lead' ++ (name ++ (gap ++ inner.dropWhile (· ≠ ']'))) := by
    conv_lhs => rw [← List.takeWhile_append_dropWhile (p := (· ≠ ']')) (l := inner), hstart', hgap']
    simp
  cases hrest : inner.dropWhile (· ≠ ']') with
  | nil =>
      rw [hrest] at hinner
      refine ⟨lead, lead', gap ++ trail, [], ?_, hlead, hlead', ?_, .inl rfl⟩
      · rw [hwhole, hinner]
        simp
      · intro c hc
        exact (List.mem_append.1 hc).elim (hgap c) (htrailBlank c)
  | cons c more =>
      have hc : c = ']' := by
        have hhead := List.head?_dropWhile_not (· ≠ ']') inner
        rw [hrest] at hhead
        simpa using hhead
      rw [hrest, hc] at hinner
      refine ⟨lead, lead', gap, ']' :: (more ++ trail), ?_, hlead, hlead', hgap, .inr ⟨_, rfl⟩⟩
      rw [hwhole, hinner]
      simp

theorem isBlank_of_getLast?_trimEnd (text : List Char) :
    ∀ c ∈ (Text.trimEnd text).getLast?, Text.isBlank c = false := by
  intro c hc
  have hhead := List.head?_dropWhile_not Text.isBlank text.reverse
  rw [Text.trimEnd, List.getLast?_reverse, Option.mem_def] at hc
  rw [hc] at hhead
  simpa using hhead

/-- The place of a line is that of its first character that is not blank. -/
theorem LiesAt.start_eq {span : Span} {c : Char} (h : LiesAt above line span)
    (hline : line = lead ++ c :: rest) (hlead : ∀ c ∈ lead, Text.isBlank c)
    (hc : Text.isBlank c = false) : span.start = byteSize (ended above) + byteSize lead := by
  obtain ⟨lead', trail', hparts, rfl⟩ := h
  have hstart : Text.trimStart line = c :: rest := by
    rw [hline, Text.trimStart_append_of_blank hlead, Text.trimStart,
      List.dropWhile_cons_of_neg (by simp [hc])]
  have htrim : Text.trim line = c :: Text.trimEnd rest := by
    rw [Text.trim, hstart]
    exact Text.trimEnd_append_cons [] hc
  obtain ⟨trail, htrail, hrest⟩ := Text.exists_append_of_trimEnd (c :: rest)
  have hwhole : lead ++ Text.trim line ++ trail = lead' ++ Text.trim line ++ trail' := by
    rw [← hparts, Text.trim, hstart, List.append_assoc, ← hrest, hline]
  have hsame : lead = lead' := by
    refine lead_unique hwhole hlead htrail ?_ (isBlank_of_getLast?_trimEnd _) (by simp [htrim])
    rw [htrim]
    rintro d ⟨⟩
    exact hc
  rw [hsame, byteSize_append]

/-! ## Lines as parts of a text -/

theorem endsLine_ended (lines : List (List Char)) : EndsLine (ended lines) := by
  rcases List.eq_nil_or_concat' lines with rfl | ⟨most, last, rfl⟩
  · exact .inl rfl
  · rw [ended_snoc, ← List.append_assoc]
    exact .inr ⟨_, rfl⟩

theorem ended_cons (line : List Char) (lines : List (List Char)) :
    ended (line :: lines) = line ++ '\n' :: ended lines := by
  simp [ended]

/-- Where a sign stands on a line among others, the lines before it are told. -/
theorem exists_line_of_ended {sign : Char} (hlines : ∀ line ∈ lines, '\n' ∉ line)
    (h : ended lines = front ++ (lead ++ sign :: rest)) (hfront : EndsLine front)
    (hlead : '\n' ∉ lead) (hsign : sign ≠ '\n') :
    ∃ seen line later, lines = seen ++ line :: later ∧ front = ended seen ∧
      ∃ more, line = lead ++ sign :: more := by
  induction lines generalizing front with
  | nil => simp [ended] at h
  | cons line lines ih =>
      rw [List.forall_mem_cons] at hlines
      rw [ended_cons] at h
      rcases hfront with rfl | ⟨most, rfl⟩
      · rw [List.nil_append] at h
        rcases List.append_eq_append_iff.1 h with ⟨later, rfl, hlater⟩ | ⟨later, rfl, hlater⟩
        · cases later with
          | nil => exact absurd (List.cons.inj hlater).1.symm hsign
          | cons c later =>
              obtain ⟨rfl, -⟩ := List.cons.inj hlater
              simp at hlead
        · cases later with
          | nil => exact absurd (List.cons.inj hlater).1 hsign
          | cons c later =>
              obtain ⟨rfl, -⟩ := List.cons.inj hlater
              exact ⟨[], _, lines, rfl, rfl, later, rfl⟩
      · rcases List.append_eq_append_iff.1 h with ⟨later, hfront, hlater⟩ | ⟨later, hline, -⟩
        · cases later with
          | nil =>
              rw [List.append_nil] at hfront
              exact absurd (by rw [← hfront]; simp) hlines.1
          | cons c later =>
              obtain ⟨rfl, hmore⟩ := List.cons.inj hlater
              have hends : EndsLine later := by
                rcases List.eq_nil_or_concat' later with rfl | ⟨body, last, rfl⟩
                · exact .inl rfl
                · rw [← List.cons_append, ← List.append_assoc] at hfront
                  exact .inr ⟨body, by rw [List.append_inj_right' hfront rfl]⟩
              obtain ⟨seen, found, below, rfl, rfl, hfound⟩ := ih hlines.2 hmore hends
              exact ⟨line :: seen, found, below, rfl, by rw [hfront, ended_cons], hfound⟩
        · exact absurd (by rw [hline]; simp) hlines.1

theorem takeWhile_of_bracket (hlead : ∀ c ∈ lead, Text.isBlank c) (rest : List Char) :
    (lead ++ '[' :: rest).takeWhile Text.isBlank = lead := by
  rw [List.takeWhile_append_of_pos hlead, List.takeWhile_cons_of_neg (by decide),
    List.append_nil]

theorem opens_of_bracket (hlead : ∀ c ∈ lead, Text.isBlank c) (rest : List Char) :
    ∃ name, Opens name (lead ++ '[' :: rest) := by
  have hstart : Text.trimStart (lead ++ '[' :: rest) = '[' :: rest := by
    rw [Text.trimStart_append_of_blank hlead]
    rfl
  refine ⟨_, Text.trimEnd rest, ?_, rfl⟩
  rw [Text.trim, hstart]
  exact Text.trimEnd_append_cons [] rfl

end KeyLabel

/-! ## Where lines begin in a document -/

namespace Toml

open KeyLabel

variable {text : List Char} {tokens after : List Lexed} {statements : List Statement}
  {document final : Document}

/-- What the parser makes of a text: tokens side by side, behind a mark that may come first, and
statements on them, which build the document. -/
structure Parsed (text : List Char) (tokens : List Lexed) (document : Document) : Prop where
  tiles : ∃ mark body, text = mark ++ body ∧ (mark = [] ∨ mark = ['\uFEFF']) ∧
    Tiles (byteSize mark) body tokens
  builds : ∃ statements, Lays tokens statements ∧
    statements.foldlM Document.apply? {} = some document

theorem exists_parsed {text : String} {entries : Entries}
    (h : Toml.ofText? text = some entries) :
    ∃ tokens document, scan? text.toList = some tokens ∧ Parsed text.toList tokens document ∧
      document.entries = entries := by
  obtain ⟨tokens, hscan, hrest⟩ := Option.bind_eq_some_iff.1 h
  obtain ⟨statements, hstatements, hrest⟩ := Option.bind_eq_some_iff.1 hrest
  obtain ⟨document, hdocument, hsame⟩ := Option.bind_eq_some_iff.1 hrest
  refine ⟨tokens, document, hscan, ⟨exists_tiles_of_scan? hscan, ?_⟩, Option.some.inj hsame⟩
  exact ⟨statements, lays_of_statementsFrom? hstatements, hdocument⟩

/-- A line begins between tokens, or inside a string. -/
theorem Parsed.line_start {back : List Char} {front : List (List Char)}
    (h : Parsed text tokens document) (htext : text = ended front ++ back) (hne : front ≠ []) :
    (∃ before newline after, Breaks tokens (byteSize (ended front)) back before newline after) ∨
      LeavesString tokens (byteSize (ended front)) back := by
  obtain ⟨mark, body, hbody, hmark, htiles⟩ := h.tiles
  obtain ⟨most, hmost⟩ := (endsLine_ended front).resolve_left (by
    obtain ⟨first, rest, rfl⟩ := List.exists_cons_of_ne_nil hne
    simp [ended])
  have hwhole : mark ++ body = most ++ ('\n' :: back) := by
    rw [← hbody, htext, hmost, List.append_assoc]
    rfl
  obtain ⟨inner, rfl, hinner⟩ : ∃ inner, most = mark ++ inner ∧ body = inner ++ '\n' :: back := by
    rcases hmark with rfl | rfl
    · exact ⟨most, rfl, hwhole⟩
    · cases most with
      | nil => exact absurd (List.cons.inj hwhole).1 (by decide)
      | cons c most =>
          obtain ⟨rfl, hmore⟩ := List.cons.inj hwhole
          exact ⟨most, rfl, hmore⟩
  have hplace : byteSize (ended front) = byteSize mark + byteSize (inner ++ ['\n']) := by
    rw [hmost, List.append_assoc, byteSize_append]
  rw [hplace]
  exact htiles.at_break hinner

/-- Where a line does not begin inside a string, it begins between statements or inside one whose
value is no string.  The first line is one of them unless a mark comes before it. -/
theorem Parsed.exists_stands {back : List Char} {front : List (List Char)}
    (h : Parsed text tokens final) (htext : text = ended front ++ back)
    (hfirst : front = [] → ∀ c ∈ back.head?, c ≠ '\uFEFF')
    (houtside : ¬ InString tokens (byteSize (ended front))) :
    ∃ after more middle, Tiles (byteSize (ended front)) back after ∧ Stands after more ∧
      more.foldlM Document.apply? middle = some final ∧ after ⊆ tokens := by
  obtain ⟨statements, hlays, hdocument⟩ := h.builds
  by_cases hfront : front = []
  · subst hfront
    obtain ⟨mark, body, hbody, hmark, htiles⟩ := h.tiles
    obtain rfl : text = back := htext
    rcases hmark with rfl | rfl
    · obtain rfl : text = body := hbody
      exact ⟨tokens, statements, _, htiles, .between hlays, hdocument, List.Subset.refl tokens⟩
    · exact absurd rfl (hfirst rfl '\uFEFF' (by rw [hbody]; rfl))
  · rcases h.line_start htext hfront with ⟨before, newline, after, hbreaks⟩ | hleaves
    · obtain ⟨done, more, rfl, -, hstands⟩ :=
        hlays.at_break hbreaks.tokens_eq hbreaks.isBreak fun lexed hmem =>
          (hbreaks.past lexed hmem).1
      rw [List.foldlM_append] at hdocument
      obtain ⟨middle, -, hmore⟩ := Option.bind_eq_some_iff.1 hdocument
      refine ⟨after, more, middle, hbreaks.tiles, hstands, hmore, ?_⟩
      intro lexed hmem
      rw [hbreaks.tokens_eq]
      exact List.mem_append_right _ (List.mem_cons_of_mem newline hmem)
    · exact absurd (hleaves.inString [] (by simp)) houtside

/-- Between the header of a table and a line after it that no header is near to, all statements
are assignments. -/
theorem plain_between {place : Nat} {header : List Char} {back : List (List Char)}
    {below lead inner : List Char} {path : KeyPath} {span : Span} {more : List Statement}
    (htiles : Tiles place (ended (header :: back) ++ below) after)
    (hlays : Lays after (.table path span :: more))
    (hbreak : ∀ line ∈ header :: back, '\n' ∉ line)
    (hheader : header = lead ++ '[' :: inner) (hlead : ∀ c ∈ lead, Text.isBlank c)
    (hspan : span.start = place + byteSize lead)
    (hnearest : ∀ line ∈ back, ∀ name, ¬ Opens name line) {statement : Statement}
    (hmem : statement ∈ more)
    (hbefore : ∀ found, statement.header? = some found →
      found.start < place + byteSize (ended (header :: back))) :
    statement.header? = none := by
  by_contra hsome
  obtain ⟨found, hfound⟩ := Option.ne_none_iff_exists'.1 hsome
  have hafter := hlays.start_lt htiles rfl hmem hfound
  have hlt := hbefore found hfound
  obtain ⟨front, lead', rest, first, more', hleads, hfirst⟩ :=
    hlays.leads_header htiles (List.mem_cons_of_mem _ hmem) hfound
  obtain ⟨⟨rest, rfl⟩, hplace⟩ := hleads.tiles.sign rfl
  -- the line of this header is among those before `below`
  obtain ⟨behind, hlines⟩ :
      ∃ behind, ended (header :: back) = front ++ (lead' ++ '[' :: behind) := by
    have htext := hleads.text_eq
    rcases List.append_eq_append_iff.1 htext with ⟨later, hwhole, -⟩ | ⟨later, hwhole, hlater⟩
    · rw [hwhole, byteSize_append] at hplace
      omega
    · cases later with
      | nil =>
          rw [List.append_nil] at hwhole
          rw [hwhole] at hlt
          omega
      | cons c later =>
          obtain ⟨rfl, -⟩ := List.cons.inj hlater
          exact ⟨later, by rw [hwhole, List.append_assoc]⟩
  have hblank : ∀ c ∈ lead', Text.isBlank c := fun c hc => isBlank_of_isSpace (hleads.blank c hc)
  have hnoBreak : '\n' ∉ lead' := fun hc => absurd (hleads.blank _ hc) (by decide)
  obtain ⟨seen, line, later, hsplit, rfl, inner', hline⟩ :=
    exists_line_of_ended hbreak hlines hleads.endsLine hnoBreak (by decide)
  cases seen with
  | nil =>
      obtain ⟨rfl, -⟩ := List.cons.inj hsplit
      have hsame : lead = lead' := by
        rw [← takeWhile_of_bracket hlead inner, ← hheader, hline,
          takeWhile_of_bracket hblank inner']
      rw [← hsame, show ended [] = [] from rfl, List.nil_append] at hplace
      omega
  | cons first' seen =>
      obtain ⟨-, rfl⟩ := List.cons.inj hsplit
      obtain ⟨name, hname⟩ := opens_of_bracket hblank inner'
      exact hnearest line (by simp) name (hline ▸ hname)

/-- A line that opens a table and does not begin inside a string holds a header. -/
theorem Stands.header_line {place : Nat} {header below table : List Char}
    (h : Stands after statements) (htiles : Tiles place (header ++ '\n' :: below) after)
    (hbreak : '\n' ∉ header) (htable : IsWord table) (hopens : Opens table header) :
    ∃ lead inner key span more, header = lead ++ '[' :: inner ∧ (∀ c ∈ lead, Text.isBlank c) ∧
      statements = .table ⟨[], key⟩ span :: more ∧ key.name = String.ofList table ∧
      span.start = place + byteSize lead ∧ Lays after statements := by
  obtain ⟨lead, gap', gap, rest, hheader, hlead, hgap', hgap, hclose⟩ := hopens.parts
  have htext : header ++ '\n' :: below =
      lead ++ '[' :: (gap' ++ (table ++ (gap ++ (rest ++ '\n' :: below)))) := by
    rw [hheader]
    simp only [List.append_assoc, List.cons_append]
  have hstops : Stops (rest ++ '\n' :: below) := by
    intro c hc
    rcases hclose with rfl | ⟨after', rfl⟩
    · cases hc
      exact .inr (.inr rfl)
    · cases hc
      exact .inr (.inl rfl)
  have hleadBreak : '\n' ∉ lead := by
    intro hc
    exact hbreak (by simp [hheader, hc])
  have hgapBreak : '\n' ∉ gap' := by
    intro hc
    exact hbreak (by simp [hheader, hc])
  obtain ⟨key, span, more, hstatements, hname, hspan, hlays⟩ :=
    h.header (htext ▸ htiles) htable hlead hleadBreak hgap' hgapBreak hgap hstops
  exact ⟨lead, _, key, span, more, hheader, hlead, hstatements, hname, hspan, hlays⟩

/-- Where neither the header nor the line of a key begins inside a string, the document has the
key at the line's place. -/
theorem exists_entry_of_lines {place : Nat} {header line below lead gap rest table key : List Char}
    {back : List (List Char)}
    (htiles : Tiles place (ended (header :: back) ++ (line ++ below)) after)
    (hstands : Stands after statements)
    (hdocument : statements.foldlM Document.apply? document = some final)
    (hbreak : ∀ line ∈ header :: back, '\n' ∉ line) (hlineBreak : '\n' ∉ line)
    (htable : IsWord table) (hkey : IsWord key) (hopens : Opens table header)
    (hnearest : ∀ line ∈ back, ∀ name, ¬ Opens name line)
    (hline : line = lead ++ (key ++ (gap ++ '=' :: rest)))
    (hlead : ∀ c ∈ lead, Text.isBlank c) (hgap : ∀ c ∈ gap, Text.isBlank c)
    (houtside : ¬ InString after (place + byteSize (ended (header :: back))))
    (hstrings : ∀ name entry,
      Entries.at? [String.ofList table] name final.entries = some entry →
        ∃ s, entry.2.2 = .string s) :
    ∃ entry, Entries.at? [String.ofList table] (String.ofList key) final.entries = some entry ∧
      entry.1.span.start = place + byteSize (ended (header :: back)) + byteSize lead := by
  -- the header is a statement, for it does not begin inside a value
  obtain ⟨lead', inner, tableKey, span, more, hheader, hlead', rfl, hname, hspan, hlays⟩ :=
    hstands.header_line
      (by
        rw [ended_cons] at htiles
        simpa only [List.append_assoc, List.cons_append] using htiles)
      (hbreak header List.mem_cons_self) htable hopens
  -- the line begins between tokens
  obtain ⟨most, hmost⟩ := (endsLine_ended (header :: back)).resolve_left (by simp [ended])
  have hat := htiles.at_break (by rw [hmost, List.append_assoc]; rfl)
  rw [← hmost] at hat
  rcases hat with ⟨before, newline, afterLine, hbreaks⟩ | hleaves
  · obtain ⟨done, left, hsplit, hdone, hstandsLine⟩ :=
      hlays.at_break hbreaks.tokens_eq hbreaks.isBreak fun lexed hmem => (hbreaks.past lexed hmem).1
    obtain ⟨keySpan, hkeySpan, -, hcase⟩ := hstandsLine.key
      (by
        have hlineTiles := hbreaks.tiles
        rwa [hline, List.append_assoc, List.append_assoc, List.append_assoc] at hlineTiles)
      hkey hlead (fun hc => hlineBreak (by simp [hline, hc])) hgap
      (by
        rintro c ⟨⟩
        exact .inl rfl)
    -- so the header is among the statements before it
    cases done with
    | nil =>
        rcases hcase with ⟨_, _, _, -, rfl⟩ | ⟨_, _, rfl, _, _, _, rfl, -⟩
        all_goals cases hsplit
    | cons first done =>
        obtain ⟨rfl, rfl⟩ := List.cons.inj hsplit
        have hplain : ∀ statement ∈ done, statement.header? = none := fun statement hmem =>
          plain_between htiles hlays hbreak hheader hlead' hspan hnearest
            (List.mem_append_left _ hmem) (hdone statement (List.mem_cons_of_mem _ hmem))
        rcases hcase with ⟨keyPlace, value, later, hclosed, rfl⟩ |
          ⟨statement, later, rfl, path, keyPlace, value, rfl, hclosed, hlong⟩
        · obtain ⟨name, entry, hentry, hkept, -⟩ := exists_entry_of_table hdocument hplain hclosed
          obtain ⟨rfl, rfl⟩ := hkept rfl
          rw [hname] at hentry
          exact ⟨_, hentry, hkeySpan⟩
        · -- a value over several lines is no string, and there is none in the table
          obtain ⟨name, entry, hentry, -, hother⟩ :=
            exists_entry_of_table hdocument hplain hclosed
          rw [hname] at hentry
          obtain ⟨s, hs⟩ := hstrings name entry hentry
          exact absurd hs (hother (.inr hlong) s)
  · exact absurd (hleaves.inString [] (by simp)) houtside

end Toml

/-! ## The line of a key -/

namespace KeyLabel

variable {text table key : List Char} {place : Span} {front back below : List (List Char)}
  {header line : List Char} {tokens : List Lexed} {document : Document}

/-- A key was found on a line that assigns it, and no line opens a table between this line and the
one that opens the key's table. -/
structure Located (text table key : List Char) (place : Span) (front : List (List Char))
    (header : List Char) (back : List (List Char)) (line : List Char)
    (below : List (List Char)) : Prop where
  lines : text.splitOn '\n' = front ++ header :: back ++ line :: below
  opens : Opens table header
  assigns : Assigns key line
  liesAt : LiesAt (front ++ header :: back) line place
  nearest : ∀ other ∈ back, ∀ name, ¬ Opens name other

theorem exists_located {text table key : String} (h : find? text table key = some place)
    (htable : table.toList ≠ []) :
    ∃ front header back line below,
      Located text.toList table.toList key.toList place front header back line below := by
  have hfinds : Finds table.toList key.toList [] (text.toList.splitOn '\n')
      (find? text table key) := by
    have hlines := @finds_lines table.toList [] (text.toList.splitOn '\n') [] key
      (fun line hline => noBreak_of_mem_splitOn text.toList hline) (inTable_nil.2 rfl)
    rwa [List.intercalate_splitOn] at hlines
  rw [h] at hfinds
  obtain ⟨above, line, below, hlines, ⟨-, hassigns, htableAbove⟩, -, hplace⟩ := hfinds.first
  cases htableAbove with
  | opened front header back habove hopens hnearest =>
      subst habove
      exact ⟨front, header, back, line, below, hlines, hopens, hassigns, hplace, hnearest⟩
  | unnamed hempty hnone => exact absurd hempty htable

namespace Located

theorem noBreak (h : Located text table key place front header back line below) :
    ∀ other ∈ front ++ header :: back ++ line :: below, '\n' ∉ other := by
  intro other hmem
  apply noBreak_of_mem_splitOn text
  rw [h.lines]
  exact hmem

theorem exists_rest (h : Located text table key place front header back line below) :
    ∃ rest, text = ended (front ++ header :: back) ++ (line ++ rest) := by
  have htext : (String.ofList text).toList.splitOn '\n' =
      (front ++ header :: back) ++ line :: below := by
    rw [String.toList_ofList, h.lines]
  obtain ⟨rest, hrest⟩ := toList_of_splitOn htext
  rw [String.toList_ofList, List.append_assoc] at hrest
  exact ⟨rest, hrest⟩

/-- The place begins with the key, after what is blank at the front of the line. -/
theorem parts (h : Located text table key place front header back line below)
    (hkey : IsWord key) :
    ∃ lead gap behind, line = lead ++ (key ++ (gap ++ '=' :: behind)) ∧
      (∀ c ∈ lead, Text.isBlank c) ∧ (∀ c ∈ gap, Text.isBlank c) ∧
      place.start = byteSize (ended (front ++ header :: back)) + byteSize lead := by
  obtain ⟨lead, gap, behind, hline, hlead, hgap⟩ := h.assigns.parts
  refine ⟨lead, gap, behind, hline, hlead, hgap, ?_⟩
  obtain ⟨first, later, hfirst⟩ := List.exists_cons_of_ne_nil hkey.nonempty
  have hword : line = lead ++ first :: (later ++ (gap ++ '=' :: behind)) := by
    rw [hline, hfirst, List.cons_append]
  exact h.liesAt.start_eq hword hlead (hkey.noBlank first (by simp [hfirst]))

variable (h : Located text table key place front header back line below) (hkey : IsWord key)
  (hparsed : Parsed text tokens document)

include h hkey hparsed

/-- Where the line begins inside a string, the place is inside it too, for only what is blank
stands before it on the line. -/
theorem inString (hinside : InString tokens (byteSize (ended (front ++ header :: back)))) :
    InString tokens place.start := by
  obtain ⟨lead, gap, behind, hline, hlead, -, hstart⟩ := h.parts hkey
  obtain ⟨rest, htext⟩ := h.exists_rest
  rcases hparsed.line_start htext (by simp) with ⟨before, newline, after, hbreaks⟩ | hleaves
  · exact absurd hinside hbreaks.not_inString
  · rw [hline, List.append_assoc] at hleaves
    rw [hstart]
    apply hleaves.inString lead
    intro c hc
    constructor
    · rintro rfl
      cases hlead _ hc
    · rintro rfl
      cases hlead _ hc

/-- Where the line does not begin inside a string, the key is a token at the place. -/
theorem atom (houtside : ¬ InString tokens (byteSize (ended (front ++ header :: back)))) :
    ∃ span, ⟨.atom key, span⟩ ∈ tokens ∧ span.start = place.start := by
  obtain ⟨lead, gap, behind, hline, hlead, hgap, hstart⟩ := h.parts hkey
  obtain ⟨rest, htext⟩ := h.exists_rest
  obtain ⟨after, more, middle, hafter, hstands, -, hsubset⟩ :=
    hparsed.exists_stands htext (fun hnil => absurd hnil (by simp)) houtside
  rw [hline, List.append_assoc, List.append_assoc, List.append_assoc] at hafter
  have hbreak : '\n' ∉ lead := by
    intro hc
    exact h.noBreak line (by simp) (by simp [hline, hc])
  have hstops : Stops ('=' :: behind ++ rest) := by
    rintro c ⟨⟩
    exact .inl rfl
  obtain ⟨span, hspan, hmem, -⟩ := hstands.key hafter hkey hlead hbreak hgap hstops
  exact ⟨span, hsubset hmem, hspan.trans hstart.symm⟩

/-- Where the header does not begin inside a string either, the place is that of the key in the
document. -/
theorem entry (htable : IsWord table)
    (houtside : ¬ InString tokens (byteSize (ended (front ++ header :: back))))
    (houtside' : ¬ InString tokens (byteSize (ended front)))
    (hstrings : ∀ name entry,
      Entries.at? [String.ofList table] name document.entries = some entry →
        ∃ s, entry.2.2 = .string s) :
    ∃ entry, Entries.at? [String.ofList table] (String.ofList key) document.entries = some entry ∧
      entry.1.span.start = place.start := by
  obtain ⟨lead, gap, behind, hline, hlead, hgap, hstart⟩ := h.parts hkey
  obtain ⟨rest, htext⟩ := h.exists_rest
  have hparts : ended (front ++ header :: back) = ended front ++ ended (header :: back) :=
    List.flatMap_append
  rw [hparts, List.append_assoc] at htext
  rw [hparts, byteSize_append] at houtside hstart
  -- no mark stands before the header
  have hfirst : ∀ c ∈ (ended (header :: back) ++ (line ++ rest)).head?, c ≠ '\uFEFF' := by
    obtain ⟨lead', gap', gap'', rest', hheader, hlead', -⟩ := h.opens.parts
    rw [ended_cons, hheader]
    cases lead' with
    | nil =>
        rintro c ⟨⟩
        decide
    | cons d lead' =>
        rintro c ⟨⟩ rfl
        cases hlead' _ List.mem_cons_self
  obtain ⟨after, more, middle, hafter, hstands, hmore, hsubset⟩ :=
    hparsed.exists_stands htext (fun _ => hfirst) houtside'
  obtain ⟨entry, hentry, hplace⟩ := exists_entry_of_lines hafter hstands hmore
    (by
      intro other hmem
      apply h.noBreak
      rcases List.mem_cons.1 hmem with rfl | hmem
      · simp
      · simp [hmem])
    (h.noBreak line (by simp)) htable hkey h.opens h.nearest hline hlead hgap
    (by
      rintro ⟨value, span, hmem, hinside⟩
      exact houtside ⟨value, span, hsubset hmem, hinside⟩)
    hstrings
  exact ⟨entry, hentry, hplace.trans hstart.symm⟩

end Located

end KeyLabel

/-! ## Labels -/

namespace Toml

/-- No scalar begins with a word that begins with no digit and no sign, unless one of the four
constants begins with it. -/
theorem isWord_of_letters {c : Char} {rest : List Char} (hc : c.isDigit = false)
    (hsign : c ≠ '+' ∧ c ≠ '-') (hbare : (c :: rest).all isBare)
    (hconstant : ∀ constant ∈
      [['t', 'r', 'u', 'e'], ['f', 'a', 'l', 's', 'e'], ['i', 'n', 'f'], ['n', 'a', 'n']],
      ¬ c :: rest <+: constant) : IsWord (c :: rest) where
  nonempty := List.cons_ne_nil c rest
  bare := List.all_eq_true.1 hbare
  noScalar after := by
    have hother : ∀ constant ∈
        [['t', 'r', 'u', 'e'], ['f', 'a', 'l', 's', 'e'], ['i', 'n', 'f'], ['n', 'a', 'n']],
        c :: (rest ++ after) ≠ constant := by
      rintro constant hmem rfl
      exact hconstant _ hmem (List.prefix_append (c :: rest) after)
    apply scalar?_of_word hc hsign
    all_goals
      apply hother
      decide

theorem isWord_project : IsWord "project".toList := by
  rw [show "project".toList = ['p', 'r', 'o', 'j', 'e', 'c', 't'] from rfl]
  apply isWord_of_letters
  all_goals decide

theorem isWord_output : IsWord "output".toList := by
  rw [show "output".toList = ['o', 'u', 't', 'p', 'u', 't'] from rfl]
  apply isWord_of_letters
  all_goals decide

theorem isWord_name : IsWord "name".toList := by
  rw [show "name".toList = ['n', 'a', 'm', 'e'] from rfl]
  apply isWord_of_letters
  all_goals decide

theorem isWord_program : IsWord "program".toList := by
  rw [show "program".toList = ['p', 'r', 'o', 'g', 'r', 'a', 'm'] from rfl]
  apply isWord_of_letters
  all_goals decide

end Toml

/-- The table and the key whose value an error is about. -/
def ManifestError.key? : ManifestError → Option (String × String)
  | .invalidName .. => some ("project", "name")
  | .invalid _ (.emptyPath table key) _ => some (table, key)
  | _ => none

namespace Manifest

variable {text filename table key : String} {error : ManifestError} {label : Label}

theorem emptyPath_of_fault? {manifest : Manifest}
    (h : manifest.fault? = some (.emptyPath table key)) :
    (table = "project" ∨ table = "output") ∧ key = "program" := by
  unfold fault? at h
  split at h
  · cases h
    exact ⟨.inl rfl, rfl⟩
  · split at h
    · cases h
    · split at h
      · cases h
        exact ⟨.inr rfl, rfl⟩
      · split at h
        · cases h
        · cases h

/-- Where the label of an error about a key comes from. -/
structure Labelled (text table key : String) (place : Span) : Prop where
  accepted : ∃ entries manifest, Toml.ofText? text = some entries ∧
    Manifest.ofEntries entries = .ok manifest
  found : KeyLabel.find? text table key = some place
  table_eq : table = "project" ∨ table = "output"
  key_eq : key = "name" ∨ key = "program"

theorem labelled_of_error (herror : Manifest.ofText text filename = .error error)
    (hkey : error.key? = some (table, key)) (hlabel : label ∈ error.labels) :
    Labelled text table key label.place := by
  unfold Manifest.ofText at herror
  split at herror
  · cases herror
    cases hkey
  · next entries hentries =>
      cases hshape : Manifest.ofEntries entries with
      | error shape =>
          rw [hshape] at herror
          cases herror
          cases hkey
      | ok manifest =>
          rw [hshape] at herror
          simp only [Except.mapError, bind, Except.bind] at herror
          have haccepted : ∃ entries manifest, Toml.ofText? text = some entries ∧
              Manifest.ofEntries entries = .ok manifest := ⟨entries, manifest, hentries, hshape⟩
          split at herror
          · cases herror
            cases hkey
            obtain ⟨place, hplace, rfl⟩ := List.mem_map.1 hlabel
            exact ⟨haccepted, Option.mem_toList.1 hplace, .inl rfl, .inl rfl⟩
          · split at herror
            · next fault hfault =>
                cases herror
                obtain ⟨place, hplace, rfl⟩ := List.mem_map.1 hlabel
                cases fault with
                | emptyPath table' key' =>
                    cases hkey
                    obtain ⟨htable, hprogram⟩ := emptyPath_of_fault? hfault
                    exact ⟨haccepted, Option.mem_toList.1 hplace, htable, .inr hprogram⟩
                | overwritesInput => cases hkey
            · cases herror

/-- **A label points at its key unless a line that was read begins inside a string.** -/
theorem label_points_at_key (herror : Manifest.ofText text filename = .error error)
    (hkey : error.key? = some (table, key)) (hlabel : label ∈ error.labels) :
    ∃ tokens entries front header back line below,
      scan? text.toList = some tokens ∧ Toml.ofText? text = some entries ∧
      text.toList.splitOn '\n' = front ++ header :: back ++ line :: below ∧
      Opens table.toList header ∧ Assigns key.toList line ∧
      LiesAt (front ++ header :: back) line label.place ∧
      (InString tokens (byteSize (ended (front ++ header :: back))) →
        InString tokens label.place.start) ∧
      (¬ InString tokens (byteSize (ended (front ++ header :: back))) →
        ∃ span, ⟨.atom key.toList, span⟩ ∈ tokens ∧ span.start = label.place.start) ∧
      (¬ InString tokens (byteSize (ended (front ++ header :: back))) →
        ¬ InString tokens (byteSize (ended front)) →
        ∃ entry, Entries.at? [table] key entries = some entry ∧
          entry.1.span.start = label.place.start) := by
  obtain ⟨⟨entries, manifest, hentries, hshape⟩, hfound, htableName, hkeyName⟩ :=
    labelled_of_error herror hkey hlabel
  have htable : IsWord table.toList := by
    rcases htableName with rfl | rfl
    · exact isWord_project
    · exact isWord_output
  have hkeyWord : IsWord key.toList := by
    rcases hkeyName with rfl | rfl
    · exact isWord_name
    · exact isWord_program
  obtain ⟨tokens, document, hscan, hparsed, rfl⟩ := exists_parsed hentries
  obtain ⟨front, header, back, line, below, hlocated⟩ := exists_located hfound htable.nonempty
  refine ⟨tokens, document.entries, front, header, back, line, below, hscan, hentries,
    hlocated.lines, hlocated.opens, hlocated.assigns, hlocated.liesAt, ?_, ?_, ?_⟩
  · intro hinside
    exact hlocated.inString hkeyWord hparsed hinside
  · intro houtside
    exact hlocated.atom hkeyWord hparsed houtside
  · intro houtside houtside'
    obtain ⟨entry, hentry, hstart⟩ := hlocated.entry hkeyWord hparsed htable houtside houtside'
      (by
        intro name entry hentry
        rw [String.ofList_toList] at hentry
        exact Manifest.exists_of_at? hshape htableName hentry)
    rw [String.ofList_toList, String.ofList_toList] at hentry
    exact ⟨entry, hentry, hstart⟩

/-! ## Two manifests with the name of a number -/

theorem ofText_of_nameFault {entries : Entries} {manifest : Manifest} {fault : NameFault}
    (hentries : Toml.ofText? text = some entries)
    (hshape : Manifest.ofEntries entries = .ok manifest)
    (hfault : nameFault? manifest.project.name = some fault) :
    Manifest.ofText text filename = .error (.invalidName filename manifest.project.name fault
      (KeyLabel.find? text "project" "name")) := by
  unfold Manifest.ofText
  rw [hentries]
  dsimp only
  rw [hshape]
  simp only [Except.mapError, bind, Except.bind, hfault]
  rfl

/-- A manifest with a name that is no name. -/
def numbered : String := "[output]\nsnapshots = 's'\n[project]\nname = '9'\nprogram = 'p'\n"

/-- What `numbered` says. -/
def numberedEntries : Entries :=
  [(⟨"output", ⟨1, 6⟩⟩, ⟨0, 8⟩, .table .header [(⟨"snapshots", ⟨9, 9⟩⟩, ⟨21, 3⟩, .string "s")]),
   (⟨"project", ⟨26, 7⟩⟩, ⟨25, 9⟩, .table .header
      [(⟨"name", ⟨35, 4⟩⟩, ⟨42, 3⟩, .string "9"), (⟨"program", ⟨46, 7⟩⟩, ⟨56, 3⟩, .string "p")])]

theorem ofText_numbered (filename : String) :
    Manifest.ofText numbered filename =
      .error (.invalidName filename "9" .badStart (some ⟨35, 10⟩)) := by
  have hread : Toml.ofText? numbered = some numberedEntries := by decide +kernel
  have hshape : Manifest.ofEntries numberedEntries =
      .ok ⟨⟨"9", ⟨"p"⟩⟩, ⟨none, some ⟨"s"⟩⟩, ⟨false⟩⟩ :=
    Manifest.ofEntries_tables (Toml.Record.read_of_sorted (by simp) rfl rfl)
      (Toml.Record.read_of_sorted (by simp) rfl rfl)
  have hfind : KeyLabel.find? numbered "project" "name" = some ⟨35, 10⟩ := by decide
  rw [ofText_of_nameFault hread hshape rfl, hfind]

/-- There is no string over several lines, so the label points at the name's key. -/
theorem label_of_numbered :
    ∃ entries entry, Manifest.ofText numbered "comet.toml" =
        .error (.invalidName "comet.toml" "9" .badStart (some ⟨35, 10⟩)) ∧
      Toml.ofText? numbered = some entries ∧
      Entries.at? ["project"] "name" entries = some entry ∧ entry.1.span.start = 35 := by
  obtain ⟨tokens, entries, front, header, back, line, below, hscan, hentries, -, -, -, -, -, -,
    hright⟩ := label_points_at_key (ofText_numbered "comet.toml") rfl
      (List.mem_cons_self : (⟨"invalid name", ⟨35, 10⟩⟩ : Label) ∈ [_])
  have hnone : ∀ place, ¬ InString tokens place := by
    have hlong : (scan? numbered.toList).all (·.all fun lexed => !lexed.token.isLong) = true := by
      decide +kernel
    rw [hscan] at hlong
    exact not_inString (by simpa using hlong)
  obtain ⟨entry, hentry, hstart⟩ := hright (hnone _) (hnone _)
  exact ⟨entries, entry, ofText_numbered "comet.toml", hentries, hentry, hstart⟩

/-- A manifest in which a string looks like the table of the project. -/
def quoting : String :=
  "[output]\nsnapshots = '''\n[project]\nname = x\n'''\n[project]\nname = '9'\nprogram = 'p'\n"

/-- What `quoting` says. -/
def quotingEntries : Entries :=
  [(⟨"output", ⟨1, 6⟩⟩, ⟨0, 8⟩, .table .header
      [(⟨"snapshots", ⟨9, 9⟩⟩, ⟨21, 26⟩, .string "[project]\nname = x\n")]),
   (⟨"project", ⟨49, 7⟩⟩, ⟨48, 9⟩, .table .header
      [(⟨"name", ⟨58, 4⟩⟩, ⟨65, 3⟩, .string "9"), (⟨"program", ⟨69, 7⟩⟩, ⟨79, 3⟩, .string "p")])]

/-- The label points into the string, and the key of the name stands elsewhere. -/
theorem label_in_quoting :
    Manifest.ofText quoting "comet.toml" =
        .error (.invalidName "comet.toml" "9" .badStart (some ⟨35, 8⟩)) ∧
      (∃ tokens, scan? quoting.toList = some tokens ∧ InString tokens 35) ∧
      Toml.ofText? quoting = some quotingEntries ∧
      Entries.at? ["project"] "name" quotingEntries =
        some (⟨"name", ⟨58, 4⟩⟩, ⟨65, 3⟩, .string "9") := by
  have hread : Toml.ofText? quoting = some quotingEntries := by decide +kernel
  have hshape : Manifest.ofEntries quotingEntries =
      .ok ⟨⟨"9", ⟨"p"⟩⟩, ⟨none, some ⟨"[project]\nname = x\n"⟩⟩, ⟨false⟩⟩ :=
    Manifest.ofEntries_tables (Toml.Record.read_of_sorted (by simp) rfl rfl)
      (Toml.Record.read_of_sorted (by simp) rfl rfl)
  have hfind : KeyLabel.find? quoting "project" "name" = some ⟨35, 8⟩ := by decide
  have hstring : (scan? quoting.toList).any (fun tokens =>
      ⟨.string "[project]\nname = x\n".toList true, ⟨21, 26⟩⟩ ∈ tokens) = true := by
    decide +kernel
  obtain ⟨tokens, hscan, hmem⟩ := (Option.any_eq_true _ _).1 hstring
  refine ⟨?_, ⟨tokens, hscan, _, _, of_decide_eq_true hmem, by decide, by decide⟩, hread,
    by decide +kernel⟩
  rw [ofText_of_nameFault hread hshape rfl, hfind]

end Manifest

end EditPipeline
