import EditPipeline.Proofs.Program.Bases
import EditPipeline.Proofs.Program.ListedTypes
import EditPipeline.Proofs.Program.Shapes
import Mathlib.Data.Finset.Card

/-!
# Tables keep the order of first insertion

A table of types is a map from identifiers to declarations, although it stores declarations
only.  `Formed table stored inserted` follows such a map step by step: whatever makes or changes
a table also makes or changes `stored`, entries with keys of their own, and `inserted` lists the
declarations that were put in so far.  An edit of methods takes all entries out and collects
what became of them in a new map, so it counts as an insertion of every edited declaration.

Two things hold along every way in which a table can come about.

* **The keys are the identifiers.**  Every step does to the entries of the table what it does
  to `stored` (`entries_insert`, `entries_ofList`, `entries_threadMethods`).
* **The first insertion gives the place and the last one the declaration.**  `Settles` says so
  of a table and the declarations that were inserted; one insertion keeps it
  (`Settles.insert`), and so does an edit (`Settles.edit`), which finds every identifier in its
  place already.
-/

namespace EditPipeline

/-! ## Maps that keep the order of insertion -/

/-- A declaration with the key under which it is stored. -/
abbrev Entry := TypeId × TypeDecl

namespace Entry

/-- The entry of a declaration under its own identifier. -/
def own (decl : TypeDecl) : Entry := (decl.id, decl)

/-- Puts a declaration under a key: in the place of the declaration that is there, or at the
end. -/
def put (key : TypeId) (decl : TypeDecl) : List Entry → List Entry
  | [] => [(key, decl)]
  | (other, held) :: rest =>
    if other = key then (other, decl) :: rest else (other, held) :: put key decl rest

/-- Puts entries into a new map, one after the other. -/
def collect (entries : List Entry) : List Entry :=
  entries.foldl (fun stored entry => put entry.1 entry.2 stored) []

/-- The entry with its methods edited; `f` is given the key. -/
def edit {σ : Type} (f : TypeId → Method → σ → Method × σ) (entry : Entry) (state : σ) :
    Entry × σ :=
  let (methods, state) := thread (f entry.1) entry.2.methods state
  ((entry.1, { entry.2 with methods }), state)

theorem put_own (decl : TypeDecl) (decls : List TypeDecl) :
    put decl.id decl (decls.map own) = (Keyed.put TypeDecl.id decl decls).map own := by
  induction decls with
  | nil => rfl
  | cons other decls ih =>
      by_cases hid : other.id = decl.id
      · simp [put, Keyed.put, own, hid]
      · simp [put, Keyed.put, own, hid, ← ih]

theorem lookup_own (id : TypeId) (decls : List TypeDecl) :
    (decls.map own).lookup id = decls.find? fun decl => decl.id = id := by
  induction decls with
  | nil => rfl
  | cons decl decls ih =>
      rw [List.map_cons, own, List.lookup_cons, List.find?_cons, ih]
      by_cases hid : decl.id = id
      · simp [hid]
      · simp [hid, beq_eq_false_iff_ne.2 (Ne.symm hid)]

theorem thread_edit_own {σ : Type} (f : TypeId → Method → σ → Method × σ) (decls : List TypeDecl)
    (state : σ) :
    thread (edit f) (decls.map own) state =
      ((thread (TypeDecl.threadMethods f) decls state).1.map own,
        (thread (TypeDecl.threadMethods f) decls state).2) := by
  induction decls generalizing state with
  | nil => rfl
  | cons decl decls ih => simp [thread, ih, edit, own, TypeDecl.threadMethods]

end Entry

namespace TypeTable

variable {table : TypeTable} {decl : TypeDecl} {decls inserted : List TypeDecl} {id : TypeId}

/-! ## The entries of a table -/

/-- The declarations of the table, each under its own identifier. -/
def entries (table : TypeTable) : List Entry := table.toList.map Entry.own

theorem entries_insert (decl : TypeDecl) (table : TypeTable) :
    (table.insert decl).entries = Entry.put decl.id decl table.entries :=
  (Entry.put_own decl table.decls).symm

theorem entries_ofList (decls : List TypeDecl) :
    (ofList decls).entries = Entry.collect (decls.map Entry.own) := by
  induction decls using List.reverseRecOn with
  | nil => rfl
  | append_singleton decls decl ih =>
      unfold ofList Entry.collect at ih ⊢
      rw [List.foldl_append, List.map_append, List.foldl_append, ← ih]
      exact entries_insert decl _

/-- What is taken out of a table, edited and collected again are the entries of the edited
table. -/
theorem entries_threadMethods {σ : Type} (f : TypeId → Method → σ → Method × σ)
    (table : TypeTable) (state : σ) :
    (table.threadMethods f state).1.entries =
      Entry.collect (thread (Entry.edit f) table.entries state).1 := by
  have hedited : (thread (Entry.edit f) table.entries state).1 =
      (table.threadMethods f state).1.toList.map Entry.own :=
    congrArg Prod.fst (Entry.thread_edit_own f table.decls state)
  rw [hedited, ← entries_ofList, ofList_toList]

/-! ## The last declaration of an identifier -/

/-- The last of some declarations that has the identifier. -/
def lastUnder (id : TypeId) (decls : List TypeDecl) : Option TypeDecl :=
  (decls.filter fun decl => decl.id = id).getLast?

theorem lastUnder_append (id : TypeId) (front back : List TypeDecl) :
    lastUnder id (front ++ back) = (lastUnder id back).or (lastUnder id front) :=
  Keyed.latest_append id front back

/-- In a table no declaration comes after another of its identifier. -/
theorem lastUnder_toList (id : TypeId) (table : TypeTable) :
    lastUnder id table.toList = table.get? id := by
  refine Option.ext fun decl => ?_
  rw [get?_eq_some_iff, lastUnder]
  constructor
  · intro hlast
    obtain ⟨hmem, hid⟩ := List.mem_filter.1 (List.mem_of_getLast? hlast)
    exact ⟨hmem, of_decide_eq_true hid⟩
  · rintro ⟨hmem, rfl⟩
    have hall : ∀ other ∈ table.toList.filter fun other => other.id = decl.id, other = decl := by
      intro other hother
      obtain ⟨hother, hid⟩ := List.mem_filter.1 hother
      exact List.inj_on_of_nodup_map table.nodup hother hmem (of_decide_eq_true hid)
    have hthere : decl ∈ table.toList.filter fun other => other.id = decl.id :=
      List.mem_filter.2 ⟨hmem, decide_eq_true rfl⟩
    rw [List.getLast?_eq_some_getLast (List.ne_nil_of_mem hthere),
      hall _ (List.getLast_mem _)]

/-! ## First places and last declarations -/

/-- The table is what the insertion of these declarations leaves: every identifier in the place
of its first insertion, with the declaration that was inserted last. -/
structure Settles (table : TypeTable) (inserted : List TypeDecl) : Prop where
  ids : table.toList.map TypeDecl.id = (inserted.map TypeDecl.id).eraseDups
  last : ∀ id, table.get? id = lastUnder id inserted

namespace Settles

theorem empty : Settles ∅ [] := ⟨rfl, fun _ => rfl⟩

theorem mem_ids (hsettles : table.Settles inserted) :
    id ∈ table.toList.map TypeDecl.id ↔ id ∈ inserted.map TypeDecl.id := by
  rw [hsettles.ids, List.mem_eraseDups]

/-- The declarations of a table are settled by their identifiers. -/
theorem keyed (hsettles : table.Settles inserted) :
    Keyed.Settled TypeDecl.id table.toList inserted :=
  ⟨hsettles.ids, table.nodup, hsettles.last⟩

theorem insert (hsettles : table.Settles inserted) :
    (table.insert decl).Settles (inserted ++ [decl]) := by
  have hput : Keyed.Settled TypeDecl.id (table.insert decl).toList (inserted ++ [decl]) :=
    hsettles.keyed.put decl
  exact ⟨hput.keys, hput.last⟩

theorem ofList (decls : List TypeDecl) : (ofList decls).Settles decls := by
  induction decls using List.reverseRecOn with
  | nil => exact empty
  | append_singleton decls decl ih =>
      unfold TypeTable.ofList at ih ⊢
      rw [List.foldl_append]
      exact ih.insert

/-- An edited table has the identifiers of the old one, so every edited declaration goes to its
place. -/
theorem edit {edited : TypeTable} (hsettles : table.Settles inserted)
    (hids : edited.toList.map TypeDecl.id = table.toList.map TypeDecl.id) :
    edited.Settles (inserted ++ edited.toList) where
  ids := by
    have hknown : (edited.toList.map TypeDecl.id).removeAll (inserted.map TypeDecl.id) = [] := by
      refine List.filter_eq_nil_iff.2 fun id hid => ?_
      simpa using hsettles.mem_ids.1 (hids ▸ hid)
    rw [List.map_append, List.eraseDups_append, hknown, List.eraseDups_nil, List.append_nil,
      ← hsettles.ids, hids]
  last id := by
    rw [lastUnder_append, lastUnder_toList, ← hsettles.last]
    cases hedited : edited.get? id with
    | some decl => rfl
    | none =>
        -- then the identifier was not declared before either
        rw [get?, List.find?_eq_none] at hedited
        have hnone : table.get? id = none := by
          refine List.find?_eq_none.2 fun decl hdecl hid => ?_
          have hmem : decl.id ∈ edited.toList.map TypeDecl.id :=
            hids ▸ List.mem_map_of_mem hdecl
          obtain ⟨other, hother, hsame⟩ := List.mem_map.1 hmem
          exact hedited other hother (by simpa [hsame] using hid)
        rw [hnone]
        rfl

/-- So the declarations of the table are known from those that were inserted. -/
theorem toList_eq (hsettles : table.Settles inserted) :
    table.toList = (inserted.map TypeDecl.id).eraseDups.filterMap (lastUnder · inserted) := by
  rw [← hsettles.ids, List.filterMap_map]
  have hfound : ∀ decl ∈ table.toList,
      ((lastUnder · inserted) ∘ TypeDecl.id) decl = some decl := by
    intro decl hdecl
    exact (hsettles.last decl.id).symm.trans (get?_eq_some_iff.2 ⟨hdecl, rfl⟩)
  rw [List.filterMap_congr hfound, List.filterMap_some]

theorem size_eq (hsettles : table.Settles inserted) :
    table.size = (inserted.map TypeDecl.id).toFinset.card := by
  have hids : (inserted.map TypeDecl.id).toFinset = (table.toList.map TypeDecl.id).toFinset := by
    ext id
    rw [List.mem_toFinset, List.mem_toFinset, hsettles.mem_ids]
  have hnodup : (table.toList.map TypeDecl.id).Nodup := table.nodup
  rw [hids, List.toFinset_card_of_nodup hnodup, List.length_map]
  rfl

end Settles

/-! ## How a table comes about -/

/-- `Formed table stored inserted`: the table comes about by inserting the declarations
`inserted`, one after the other, and a map to which the same is done has the entries `stored`. -/
inductive Formed : TypeTable → List Entry → List TypeDecl → Prop where
  | empty : Formed ∅ [] []
  | ofList (decls : List TypeDecl) :
      Formed (ofList decls) (Entry.collect (decls.map Entry.own)) decls
  /-- The types of a program that is read from a text. -/
  | read {text : String} {program : Program} {decls : List TypeDecl}
      (hread : Program.ofText text = .ok program)
      (hlists : Program.Lists (Json.Document.ofText text).root decls) :
      Formed program.types (Entry.collect (decls.map Entry.own)) decls
  | insert {table : TypeTable} {stored : List Entry} {inserted : List TypeDecl} (decl : TypeDecl)
      (hformed : Formed table stored inserted) :
      Formed (table.insert decl) (Entry.put decl.id decl stored) (inserted ++ [decl])
  | withType {program : Program} {stored : List Entry} {inserted : List TypeDecl}
      (decl : TypeDecl) (hformed : Formed program.types stored inserted) :
      Formed (program.withType decl).types (Entry.put decl.id decl stored) (inserted ++ [decl])
  /-- Every entry is taken out, edited and put into a new map. -/
  | edit {table : TypeTable} {stored : List Entry} {inserted : List TypeDecl} {σ : Type}
      (f : TypeId → Method → σ → Method × σ) (state : σ)
      (hformed : Formed table stored inserted) :
      Formed (table.threadMethods f state).1
        (Entry.collect (thread (Entry.edit f) stored state).1)
        (inserted ++ (thread (Entry.edit f) stored state).1.map Prod.snd)

namespace Formed

variable {table : TypeTable} {stored : List Entry} {inserted : List TypeDecl}

theorem stored_eq (hformed : Formed table stored inserted) : stored = table.entries := by
  induction hformed with
  | empty => rfl
  | ofList decls => exact (entries_ofList decls).symm
  | read hread hlists => rw [Program.types_of_ofText hread hlists, entries_ofList]
  | insert decl _ ih => rw [ih, entries_insert]
  | withType decl _ ih =>
      rw [ih]
      exact (entries_insert decl _).symm
  | edit f state _ ih => rw [ih, entries_threadMethods]

theorem settles (hformed : Formed table stored inserted) : table.Settles inserted := by
  induction hformed with
  | empty => exact .empty
  | ofList decls => exact .ofList decls
  | @read _ _ decls hread hlists =>
      rw [Program.types_of_ofText hread hlists]
      exact .ofList decls
  | insert decl _ ih => exact ih.insert
  | withType decl _ ih => exact ih.insert
  | @edit table stored inserted σ f state hformed ih =>
      have hedited : (thread (Entry.edit f) stored state).1.map Prod.snd =
          (table.threadMethods f state).1.toList := by
        rw [hformed.stored_eq, entries, toList, Entry.thread_edit_own, List.map_map]
        exact List.map_id _
      rw [hedited]
      exact ih.edit (map_id_thread f table.decls state)

end Formed

/-! ## Main statement -/

/-- **Tables keep the order of first insertion.**  However a table came about, it lists every
identifier that was inserted once, in the order of the first insertions and with the declaration
that was inserted last.  The map that it stands for has each declaration under its own
identifier, so look-up and listing agree, and the size counts the identifiers.  A table is made
again from its list, and a list comes back from its table with the first place and the last
declaration of every identifier.  A text that is read lists the declarations that its program's
table is made of. -/
theorem lists_first_insertions :
    (∀ {table : TypeTable} {stored : List Entry} {inserted : List TypeDecl},
      Formed table stored inserted →
        table.toList.map TypeDecl.id = (inserted.map TypeDecl.id).eraseDups ∧
        (table.toList.map TypeDecl.id).Nodup ∧
        (∀ id, table.get? id = lastUnder id inserted) ∧
        (∀ decl, decl ∈ table.toList ↔ table.get? decl.id = some decl) ∧
        table.size = (inserted.map TypeDecl.id).toFinset.card ∧
        stored = table.toList.map (fun decl => (decl.id, decl)) ∧
        ∀ id, stored.lookup id = table.get? id) ∧
    (∀ table : TypeTable, ofList table.toList = table) ∧
    (∀ decls, (ofList decls).toList =
      (decls.map TypeDecl.id).eraseDups.filterMap fun id => lastUnder id decls) ∧
    ∀ text program, Program.ofText text = .ok program →
      ∃ decls, Program.Lists (Json.Document.ofText text).root decls := by
  refine ⟨fun {table stored inserted} hformed => ?_, ofList_toList,
    fun decls => (Settles.ofList decls).toList_eq, fun text program hread => ?_⟩
  · have hsettles := hformed.settles
    have hstored : stored = table.entries := hformed.stored_eq
    refine ⟨hsettles.ids, table.nodup, hsettles.last, fun decl => ?_, hsettles.size_eq, hstored,
      fun id => ?_⟩
    · rw [get?_eq_some_iff, toList, and_iff_left rfl]
    · rw [hstored]
      exact Entry.lookup_own id table.decls
  · obtain ⟨decls, hdecls, -⟩ := Program.types_of_read (Json.read_of_decode hread)
    exact ⟨decls, hdecls⟩

/-- A table in which one type was declared twice before a third one came, with the methods
numbered afterwards. -/
def redeclared : TypeTable :=
  (((ofList [.ofAttribute ⟨"A"⟩, { id := ⟨"B"⟩, methods := [{ name := "M" }] },
      { id := ⟨"A"⟩, base := some ⟨"B"⟩ }]).insert { id := ⟨"C"⟩ }).threadMethods
    (fun _ method count => ({ method with name := toString count }, count + 1)) 7).1

theorem redeclared_in_place :
    ∃ stored inserted, Formed redeclared stored inserted ∧
      inserted.map (fun decl => decl.id.name) = ["A", "B", "A", "C", "A", "B", "C"] ∧
      redeclared.toList.map TypeDecl.id = [⟨"A"⟩, ⟨"B"⟩, ⟨"C"⟩] ∧
      redeclared.get? ⟨"A"⟩ = some { id := ⟨"A"⟩, base := some ⟨"B"⟩ } ∧
      stored.lookup ⟨"B"⟩ = some { id := ⟨"B"⟩, methods := [{ name := "7" }] } ∧
      redeclared.size = 3 := by
  have hformed := Formed.edit (fun _ method count => ({ method with name := toString count },
    count + 1)) 7 (.insert { id := ⟨"C"⟩ } (.ofList [.ofAttribute ⟨"A"⟩,
      { id := ⟨"B"⟩, methods := [{ name := "M" }] }, { id := ⟨"A"⟩, base := some ⟨"B"⟩ }]))
  obtain ⟨hids, -, hget, -, hsize, -, hlookup⟩ := lists_first_insertions.1 hformed
  refine ⟨_, _, hformed, by decide, hids.trans (by decide), (hget _).trans (by decide),
    (hlookup _).trans ?_, hsize.trans (by decide)⟩
  exact (hget _).trans (by decide)

end TypeTable

end EditPipeline
