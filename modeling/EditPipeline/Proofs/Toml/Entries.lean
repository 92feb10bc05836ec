import EditPipeline.Proofs.Toml.Lines
import EditPipeline.Toml.Document

/-!
# What a document keeps

A document is found out by its names: `Entries.at?` follows a path of names through tables.
Statements add to a document and take nothing away (`extends_of_statement`): an entry with a
finished value stays as it is, a table stays a table, and nothing turns into a string.
-/

namespace EditPipeline.Toml

/-- An entry of a table. -/
abbrev Entry := Key × Span × Value

/-- Whether an entry has a name. -/
def named (name : String) (entry : Entry) : Bool := entry.1.name = name

/-- The entry that a path of names leads to, through tables. -/
def Entries.at? : List String → String → Entries → Option Entry
  | [], name, entries => entries.find? (named name)
  | table :: path, name, entries =>
    match entries.find? (named table) with
    | some (_, _, .table _ inner) => at? path name inner
    | _ => none

variable {name other : String} {entries entries' inner : Entries} {entry entry' : Entry}
  {kind : TableKind} {dotted : Bool} {act : Entries.Action}

theorem Entries.at?_cons {table : String} {path : List String} :
    at? (table :: path) name entries = some entry ↔
      ∃ key span kind inner, entries.find? (named table) = some (key, span, .table kind inner) ∧
        at? path name inner = some entry := by
  rw [at?]
  split
  · next key span kind inner hfound =>
      rw [hfound]
      constructor
      · intro hentry
        exact ⟨key, span, kind, inner, rfl, hentry⟩
      · rintro ⟨key', span', kind', inner', hsame, hentry⟩
        cases hsame
        exact hentry
  · next hother =>
      constructor
      · intro hentry
        cases hentry
      · rintro ⟨key, span, kind, inner, hfound, -⟩
        exact absurd hfound (hother key span kind inner)

/-! ## Growth -/

/-- What stays of an entry while its document is built. -/
structure Entry.Keeps (entry entry' : Entry) : Prop where
  closed : entry.2.2.Closed → entry' = entry
  table : (∃ kind inner, entry.2.2 = .table kind inner) →
    ∃ kind inner, entry'.2.2 = .table kind inner
  notString : (∀ s, entry.2.2 ≠ .string s) → ∀ s, entry'.2.2 ≠ .string s

theorem Entry.Keeps.refl (entry : Entry) : entry.Keeps entry := ⟨fun _ => rfl, id, id⟩

theorem Entry.Keeps.trans {last : Entry} (h : entry.Keeps entry') (h' : entry'.Keeps last) :
    entry.Keeps last where
  closed hclosed := by
    obtain rfl := h.closed hclosed
    exact h'.closed hclosed
  table htable := h'.table (h.table htable)
  notString hother := h'.notString (h.notString hother)

/-- Whatever names lead to in a table, they lead to in another. -/
def Extends (entries entries' : Entries) : Prop :=
  ∀ path name entry, Entries.at? path name entries = some entry →
    ∃ entry', Entries.at? path name entries' = some entry' ∧ entry.Keeps entry'

theorem Extends.refl (entries : Entries) : Extends entries entries :=
  fun _ _ entry hentry => ⟨entry, hentry, .refl entry⟩

theorem Extends.trans {last : Entries} (h : Extends entries entries')
    (h' : Extends entries' last) : Extends entries last := by
  intro path name entry hentry
  obtain ⟨entry', hentry', hkeeps⟩ := h path name entry hentry
  obtain ⟨entry'', hentry'', hkeeps'⟩ := h' path name entry' hentry'
  exact ⟨entry'', hentry'', hkeeps.trans hkeeps'⟩

/-- How an entry may change: what is in a table grows. -/
structure Entry.Grows (entry entry' : Entry) : Prop where
  name : entry'.1.name = entry.1.name
  keeps : entry.Keeps entry'
  inner : ∀ kind inner, entry.2.2 = .table kind inner →
    ∃ kind' inner', entry'.2.2 = .table kind' inner' ∧ Extends inner inner'

theorem Entry.Grows.refl (entry : Entry) : entry.Grows entry :=
  ⟨rfl, .refl entry, fun kind inner hinner => ⟨kind, inner, hinner, .refl inner⟩⟩

theorem extends_of_grows
    (h : ∀ name entry, entries.find? (named name) = some entry →
      ∃ entry', entries'.find? (named name) = some entry' ∧ entry.Grows entry') :
    Extends entries entries' := by
  intro path name entry hentry
  cases path with
  | nil =>
      obtain ⟨entry', hentry', hgrows⟩ := h name entry hentry
      exact ⟨entry', hentry', hgrows.keeps⟩
  | cons table path =>
      obtain ⟨key, span, kind, inner, htable, hinner⟩ := Entries.at?_cons.1 hentry
      obtain ⟨⟨key', span', value'⟩, hentry', hgrows⟩ := h table _ htable
      obtain ⟨kind', inner', rfl, hextends⟩ := hgrows.inner kind inner rfl
      obtain ⟨last, hlast, hkeeps⟩ := hextends path name entry hinner
      exact ⟨last, Entries.at?_cons.2 ⟨key', span', kind', inner', hentry', hlast⟩, hkeeps⟩

/-! ## Changing one entry -/

/-- A change of one entry is seen under its name only. -/
theorem find?_update? {add? : Option Entry} {change? : Entry → Option Entry}
    (hadd : ∀ entry, add? = some entry → entry.1.name = name)
    (hchange : ∀ entry entry', entry.1.name = name → change? entry = some entry' →
      entry'.1.name = name)
    (h : Entries.update? name add? change? entries = some entries') (other : String) :
    entries'.find? (named other) =
      if other = name then (entries.find? (named name)).elim add? change?
      else entries.find? (named other) := by
  induction entries generalizing entries' with
  | nil =>
      obtain ⟨entry, rfl, rfl⟩ := Option.map_eq_some_iff.1 h
      have hname := hadd entry rfl
      by_cases hother : other = name
      · simp [named, hname, hother]
      · simp [named, hname, hother, Ne.symm hother]
  | cons first rest ih =>
      unfold Entries.update? at h
      split at h
      · next hname =>
          obtain ⟨entry, hentry, rfl⟩ := Option.map_eq_some_iff.1 h
          have hkept := hchange first entry hname hentry
          by_cases hother : other = name
          · simp [named, hname, hkept, hother, hentry]
          · simp [named, hname, hkept, hother, Ne.symm hother]
      · next hname =>
          obtain ⟨rest', hrest, rfl⟩ := Option.map_eq_some_iff.1 h
          have hmore := ih hrest
          by_cases hfirst : first.1.name = other
          · have hother : other ≠ name := hfirst ▸ hname
            simp [named, hfirst, hother]
          · simp only [named, hfirst, hname, decide_false, List.find?_cons_of_neg,
              Bool.false_eq_true, not_false_eq_true]
            exact hmore

/-- After a change, a name has the added entry or the old one changed. -/
theorem exists_changed {add? : Option Entry} {change? : Entry → Option Entry}
    (hadd : ∀ entry, add? = some entry → entry.1.name = name)
    (hchange : ∀ entry entry', entry.1.name = name → change? entry = some entry' →
      entry'.1.name = name)
    (h : Entries.update? name add? change? entries = some entries') :
    ∃ entry', entries'.find? (named name) = some entry' ∧
      (entries.find? (named name)).elim add? change? = some entry' := by
  have hdone : ∃ entry', (entries.find? (named name)).elim add? change? = some entry' := by
    clear hadd hchange
    induction entries generalizing entries' with
    | nil =>
        obtain ⟨entry', hentry', -⟩ := Option.map_eq_some_iff.1 h
        exact ⟨entry', hentry'⟩
    | cons first rest ih =>
        unfold Entries.update? at h
        split at h
        · next hname =>
            obtain ⟨entry', hentry', -⟩ := Option.map_eq_some_iff.1 h
            rw [List.find?_cons_of_pos (by simp [named, hname])]
            exact ⟨entry', hentry'⟩
        · next hname =>
            obtain ⟨rest', hrest, -⟩ := Option.map_eq_some_iff.1 h
            rw [List.find?_cons_of_neg (by simp [named, hname])]
            exact ih hrest
  obtain ⟨entry', hentry'⟩ := hdone
  have hfind := find?_update? hadd hchange h name
  rw [if_pos rfl] at hfind
  exact ⟨entry', hfind.trans hentry', hentry'⟩

theorem extends_update? {add? : Option Entry} {change? : Entry → Option Entry}
    (hadd : ∀ entry, add? = some entry → entry.1.name = name)
    (hchange : ∀ entry entry', entry.1.name = name → change? entry = some entry' →
      entry.Grows entry')
    (h : Entries.update? name add? change? entries = some entries') :
    Extends entries entries' := by
  have hfind := find?_update? hadd (fun entry entry' hname hentry =>
    (hchange entry entry' hname hentry).name.trans hname) h
  refine extends_of_grows fun other entry hentry => ?_
  rw [hfind]
  split
  · next hother =>
      subst hother
      obtain ⟨entry', -, hold⟩ := exists_changed hadd (fun entry entry' hname hentry =>
        (hchange entry entry' hname hentry).name.trans hname) h
      rw [hentry] at hold ⊢
      have hname : entry.1.name = other := by simpa [named] using List.find?_some hentry
      exact ⟨entry', hold, hchange entry entry' hname hold⟩
  · exact ⟨entry, hentry, .refl entry⟩

/-! ## Growing documents -/

theorem Entry.Grows.table {key key' : Key} {span span' : Span} {kind' : TableKind}
    (hname : key'.name = key.name) (hopen : kind ≠ .inline) (h : Extends entries entries') :
    Entry.Grows (key, span, .table kind entries) (key', span', .table kind' entries') where
  name := hname
  keeps := {
    closed := fun hclosed => absurd hclosed hopen
    table := fun _ => ⟨kind', entries', rfl⟩
    notString := fun _ _ => Value.noConfusion }
  inner := by
    rintro kind inner ⟨⟩
    exact ⟨kind', entries', rfl, h⟩

theorem Entry.Grows.elements {key : Key} {span : Span} {items items' : List (Span × Value)} :
    Entry.Grows (key, span, .array true items) (key, span, .array true items') where
  name := rfl
  keeps := {
    closed := fun hclosed => Bool.noConfusion hclosed
    table := fun ⟨_, _, htable⟩ => Value.noConfusion htable
    notString := fun _ _ => Value.noConfusion }
  inner := fun _ _ htable => Value.noConfusion htable

/-- An action that lets every table grow. -/
def Entries.Action.Extending (act : Entries.Action) : Prop :=
  ∀ kind entries entries', act kind entries = some entries' → Extends entries entries'

theorem extending_within? (hact : act.Extending) (path : List Key) :
    Entries.Action.Extending (Entries.within? dotted act path) := by
  induction path with
  | nil => exact hact
  | cons key path ih =>
      intro kind entries entries' h
      refine extends_update? ?_ ?_ h
      · intro entry hentry
        obtain ⟨inner, -, rfl⟩ := Option.map_eq_some_iff.1 hentry
        rfl
      · rintro ⟨key, span, value⟩ entry' - hentry
        dsimp only at hentry
        split at hentry
        · next kind inner =>
            split at hentry
            · next hleads =>
                obtain ⟨inner', hinner, rfl⟩ := Option.map_eq_some_iff.1 hentry
                refine .table rfl ?_ (ih kind inner inner' hinner)
                rintro rfl
                cases hleads
            · cases hentry
        · obtain ⟨items, hitems, rfl⟩ := Option.map_eq_some_iff.1 hentry
          exact .elements
        · cases hentry

theorem extending_assign? (path : KeyPath) (span : Span) (value : Value) :
    Entries.Action.Extending (Entries.assign? path span value) := by
  refine extending_within? ?_ path.above
  intro kind entries entries' h
  dsimp only at h
  split at h
  · refine extends_update? ?_ ?_ h
    · rintro entry ⟨⟩
      rfl
    · rintro entry entry' - ⟨⟩
  · cases h

theorem extending_openTable? (path : KeyPath) (span : Span) :
    Entries.Action.Extending (Entries.openTable? path span) := by
  refine extending_within? ?_ path.above
  intro kind entries entries' h
  refine extends_update? ?_ ?_ h
  · rintro entry ⟨⟩
    rfl
  · rintro ⟨key, place, value⟩ entry' hname hentry
    dsimp only at hentry
    split at hentry
    · cases hentry
      exact .table hname.symm (by simp) (.refl _)
    · cases hentry

theorem extending_openElement? (path : KeyPath) (span : Span) :
    Entries.Action.Extending (Entries.openElement? path span) := by
  refine extending_within? ?_ path.above
  intro kind entries entries' h
  refine extends_update? ?_ ?_ h
  · rintro entry ⟨⟩
    rfl
  · rintro ⟨key, place, value⟩ entry' hname hentry
    dsimp only at hentry
    split at hentry
    · cases hentry
      exact .elements
    · cases hentry

variable {document document' : Document} {statement : Statement}

/-- A statement adds to a document and takes nothing away. -/
theorem extends_of_statement (h : document.apply? statement = some document') :
    Extends document.entries document'.entries := by
  cases statement with
  | table path span =>
      obtain ⟨entries, hentries, hdocument⟩ := Option.bind_eq_some_iff.1 h
      cases hdocument
      exact extending_openTable? path span _ _ _ hentries
  | element path span =>
      obtain ⟨entries, hentries, hdocument⟩ := Option.bind_eq_some_iff.1 h
      cases hdocument
      exact extending_openElement? path span _ _ _ hentries
  | assignment path span value =>
      obtain ⟨entries, hentries, hdocument⟩ := Option.bind_eq_some_iff.1 h
      cases hdocument
      exact extending_within? (extending_assign? path span value) _ _ _ _ hentries

theorem extends_of_foldlM {statements : List Statement}
    (h : statements.foldlM Document.apply? document = some document') :
    Extends document.entries document'.entries := by
  induction statements generalizing document with
  | nil =>
      cases h
      exact .refl _
  | cons statement statements ih =>
      rw [List.foldlM_cons] at h
      obtain ⟨next, hnext, hmore⟩ := Option.bind_eq_some_iff.1 h
      exact (extends_of_statement hnext).trans (ih hmore)

/-! ## What a statement adds -/

/-- The table of a name. -/
def HasTable (name : String) (entries : Entries) : Prop :=
  ∃ key span kind inner, entries.find? (named name) = some (key, span, .table kind inner)

theorem HasTable.extends (h : HasTable name entries) (hextends : Extends entries entries') :
    HasTable name entries' := by
  obtain ⟨key, span, kind, inner, htable⟩ := h
  obtain ⟨⟨key', span', value'⟩, hentry', hkeeps⟩ := hextends [] name _ htable
  obtain ⟨kind', inner', rfl⟩ := hkeeps.table ⟨kind, inner, rfl⟩
  exact ⟨key', span', kind', inner', hentry'⟩

/-- A header makes the table that it names, and opens it. -/
theorem hasTable_of_header {key : Key} {span : Span}
    (h : document.apply? (.table ⟨[], key⟩ span) = some document') :
    HasTable key.name document'.entries ∧ document'.current = [key] := by
  obtain ⟨entries, hentries, hdocument⟩ := Option.bind_eq_some_iff.1 h
  cases hdocument
  refine ⟨?_, rfl⟩
  simp only [Entries.openTable?, Entries.within?] at hentries
  obtain ⟨entry, hentry, hnew⟩ := exists_changed (by rintro entry ⟨⟩; rfl) (by
    rintro ⟨key', place, value⟩ entry' hname hentry
    dsimp only at hentry
    split at hentry
    · cases hentry
      rfl
    · cases hentry) hentries
  cases hold : document.entries.find? (named key.name) with
  | none =>
      rw [hold] at hnew
      cases hnew
      exact ⟨key, span, .header, [], hentry⟩
  | some old =>
      rcases old with ⟨key', place, value⟩
      rw [hold] at hnew
      simp only [Option.elim] at hnew
      split at hnew
      · cases hnew
        exact ⟨key, span, .header, _, hentry⟩
      · cases hnew

/-- What is at the first key on the way to a table, once the table has changed. -/
theorem within?_cons {key : Key} {path : List Key}
    (h : Entries.within? dotted act (key :: path) kind entries = some entries') :
    ∃ entry, entries'.find? (named key.name) = some entry ∧
      ((∃ inner, entry = (key, key.span, .table (Entries.madeBy dotted) inner)) ∧
          entries.find? (named key.name) = none ∨
        (∃ key' span kind inner inner',
          entries.find? (named key.name) = some (key', span, .table kind inner) ∧
          Entries.within? dotted act path kind inner = some inner' ∧
          entry = (key', span, .table kind inner')) ∨
        ∃ key' span items items',
          entries.find? (named key.name) = some (key', span, .array true items) ∧
          entry = (key', span, .array true items')) := by
  rw [Entries.within?] at h
  obtain ⟨entry, hentry, hnew⟩ := exists_changed (by
    intro entry hentry
    obtain ⟨inner, -, rfl⟩ := Option.map_eq_some_iff.1 hentry
    rfl) (by
    rintro ⟨key', span, value⟩ entry' hname hentry
    dsimp only at hentry
    split at hentry
    · split at hentry
      · obtain ⟨inner', -, rfl⟩ := Option.map_eq_some_iff.1 hentry
        exact hname
      · cases hentry
    · obtain ⟨items', -, rfl⟩ := Option.map_eq_some_iff.1 hentry
      exact hname
    · cases hentry) h
  refine ⟨entry, hentry, ?_⟩
  cases hold : entries.find? (named key.name) with
  | none =>
      rw [hold] at hnew
      obtain ⟨inner, -, rfl⟩ := Option.map_eq_some_iff.1 hnew
      exact .inl ⟨⟨inner, rfl⟩, rfl⟩
  | some old =>
      rcases old with ⟨key', span, value⟩
      rw [hold] at hnew
      simp only [Option.elim] at hnew
      split at hnew
      · next kind' inner =>
          split at hnew
          · obtain ⟨inner', hinner, rfl⟩ := Option.map_eq_some_iff.1 hnew
            exact .inr (.inl ⟨key', span, kind', inner, inner', rfl, hinner, rfl⟩)
          · cases hnew
      · obtain ⟨items', -, rfl⟩ := Option.map_eq_some_iff.1 hnew
        exact .inr (.inr ⟨key', span, _, items', rfl, rfl⟩)
      · cases hnew

/-- What an assignment adds to a table: its own entry, or one on the way to it. -/
theorem assign?_adds {path : KeyPath} {span : Span} {value : Value}
    (h : Entries.assign? path span value kind entries = some entries') :
    ∃ name entry, entries'.find? (named name) = some entry ∧
      (path.above = [] → name = path.last.name ∧ entry = (path.last, span, value)) ∧
      (path.above ≠ [] → ∀ s, entry.2.2 ≠ .string s) := by
  rcases path with ⟨above, last⟩
  cases above with
  | nil =>
      simp only [Entries.assign?, Entries.within?] at h
      split at h
      · obtain ⟨entry, hentry, hnew⟩ :=
          exists_changed (by rintro entry ⟨⟩; rfl) (by rintro old entry - ⟨⟩) h
        cases hold : entries.find? (named last.name) with
        | none =>
            rw [hold] at hnew
            cases hnew
            exact ⟨last.name, _, hentry, fun _ => ⟨rfl, rfl⟩, fun hne => absurd rfl hne⟩
        | some old =>
            rw [hold] at hnew
            cases hnew
      · cases h
  | cons key above =>
      obtain ⟨entry, hentry, hnew⟩ := within?_cons h
      refine ⟨key.name, entry, hentry, fun hnil => absurd hnil (List.cons_ne_nil key above), ?_⟩
      intro _ s hstring
      rcases hnew with ⟨⟨inner, rfl⟩, -⟩ | ⟨_, _, _, _, _, -, -, rfl⟩ | ⟨_, _, _, _, -, rfl⟩
      all_goals cases hstring

/-- What an assignment adds to the document where the last header has opened a table that no
other holds. -/
theorem adds_to_table {table : Key} {path : KeyPath} {span : Span} {value : Value}
    (h : document.apply? (.assignment path span value) = some document')
    (hcurrent : document.current = [table]) (htable : HasTable table.name document.entries) :
    ∃ name entry, Entries.at? [table.name] name document'.entries = some entry ∧
      (path.above = [] → name = path.last.name ∧ entry = (path.last, span, value)) ∧
      (path.above ≠ [] → ∀ s, entry.2.2 ≠ .string s) := by
  obtain ⟨entries, hentries, hdocument⟩ := Option.bind_eq_some_iff.1 h
  cases hdocument
  rw [hcurrent] at hentries
  obtain ⟨key, place, kind, inner, hfound⟩ := htable
  obtain ⟨entry, hentry, ⟨-, hnone⟩ | ⟨key', place', kind', inner', added, hsame, hadded, rfl⟩ |
    ⟨_, _, _, _, hother, -⟩⟩ := within?_cons hentries
  · rw [hfound] at hnone
    cases hnone
  · obtain ⟨name, last, hlast, hparts⟩ := assign?_adds hadded
    exact ⟨name, last, Entries.at?_cons.2 ⟨key', place', kind', added, hentry, hlast⟩, hparts⟩
  · rw [hfound] at hother
    cases hother

theorem current_of_assignment {path : KeyPath} {span : Span} {value : Value}
    (h : document.apply? (.assignment path span value) = some document') :
    document'.current = document.current := by
  obtain ⟨entries, -, hdocument⟩ := Option.bind_eq_some_iff.1 h
  cases hdocument
  rfl

theorem current_of_assignments {statements : List Statement}
    (hplain : ∀ statement ∈ statements, statement.header? = none)
    (h : statements.foldlM Document.apply? document = some document') :
    document'.current = document.current := by
  induction statements generalizing document with
  | nil =>
      cases h
      rfl
  | cons statement statements ih =>
      rw [List.forall_mem_cons] at hplain
      rw [List.foldlM_cons] at h
      obtain ⟨next, hnext, hmore⟩ := Option.bind_eq_some_iff.1 h
      rw [ih hplain.2 hmore]
      cases statement with
      | table path span => cases hplain.1
      | element path span => cases hplain.1
      | assignment path span value => exact current_of_assignment hnext

/-- What is given in a table after its header stays there: an entry of its own, or one on the
way to it. -/
theorem exists_entry_of_table {table : Key} {place span : Span} {path : KeyPath} {value : Value}
    {done more : List Statement}
    (h : (.table ⟨[], table⟩ place :: (done ++ .assignment path span value :: more)).foldlM
      Document.apply? document = some document')
    (hplain : ∀ statement ∈ done, statement.header? = none) (hclosed : value.Closed) :
    ∃ name entry, Entries.at? [table.name] name document'.entries = some entry ∧
      (path.above = [] → name = path.last.name ∧ entry = (path.last, span, value)) ∧
      (path.above ≠ [] ∨ (∀ s, value ≠ .string s) → ∀ s, entry.2.2 ≠ .string s) := by
  rw [List.foldlM_cons] at h
  obtain ⟨opened, hopened, h⟩ := Option.bind_eq_some_iff.1 h
  rw [List.foldlM_append] at h
  obtain ⟨ready, hready, h⟩ := Option.bind_eq_some_iff.1 h
  rw [List.foldlM_cons] at h
  obtain ⟨given, hgiven, hmore⟩ := Option.bind_eq_some_iff.1 h
  obtain ⟨htable, hcurrent⟩ := hasTable_of_header hopened
  obtain ⟨name, entry, hentry, hown, hother⟩ := adds_to_table hgiven
    ((current_of_assignments hplain hready).trans hcurrent)
    (htable.extends (extends_of_foldlM hready))
  obtain ⟨entry', hentry', hkeeps⟩ := extends_of_foldlM hmore [table.name] name entry hentry
  refine ⟨name, entry', hentry', ?_, ?_⟩
  · intro hsingle
    obtain ⟨rfl, rfl⟩ := hown hsingle
    exact ⟨rfl, hkeeps.closed hclosed⟩
  · intro hlong
    refine hkeeps.notString ?_
    by_cases hsingle : path.above = []
    · obtain ⟨rfl, rfl⟩ := hown hsingle
      exact hlong.resolve_left (not_not_intro hsingle)
    · exact hother hsingle

end EditPipeline.Toml
