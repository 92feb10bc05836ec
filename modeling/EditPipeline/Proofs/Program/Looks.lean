import EditPipeline.Proofs.Program.Lines

/-!
# A listing tells what the program looks like

Names and statements may be any text of one line, so a statement may look like a closing brace,
a tag or a header.  Still nothing is lost: which part of a method a line belongs to is told by
the character behind one step of indentation, and only the lines of types and the empty ones
between them are not indented at all.

## Strategy

`Delimits code look` says of a way to write things as rows of lines that a row tells how the
thing looks and where the row ends, whatever follows.  A list of such rows is read off one by one
(`Delimits.flatMap`) if each of them begins with a line of one kind and what follows the list
does not.  That one lemma serves at every level: for the tags, the attributes and the statements
of a method, for the methods of a type, and for the markers and the types of a program.
-/

namespace EditPipeline

/-! ## Rows that say where they end -/

section Delimits

variable {α γ : Type} {begins : String → Prop} {code : α → List String} {look : α → γ}
  {rest rest' : List String}

/-- Whatever follows the rows of two things, they tell that the two look alike, and what
follows. -/
def Delimits (code : α → List String) (look : α → γ) : Prop :=
  ∀ ⦃a b : α⦄ ⦃rest rest' : List String⦄,
    code a ++ rest = code b ++ rest' → look a = look b ∧ rest = rest'

/-- The rows do not go on with a line of the kind `begins`. -/
def Ends (begins : String → Prop) (rest : List String) : Prop :=
  ∀ first ∈ rest.head?, ¬ begins first

theorem ends_nil : Ends begins [] := fun _ hfirst => nomatch hfirst

theorem ends_cons {first : String} (hfirst : ¬ begins first) (rest : List String) :
    Ends begins (first :: rest) := by
  rintro _ ⟨⟩
  exact hfirst

theorem Ends.map_append {text : α → String} (hrest : Ends begins rest)
    (htext : ∀ a, ¬ begins (text a)) (as : List α) : Ends begins (as.map text ++ rest) := by
  cases as with
  | nil => exact hrest
  | cons a as => exact ends_cons (htext a) _

theorem not_ends_append {a : α} (hbegins : ∃ first ∈ (code a).head?, begins first)
    (rest : List String) : ¬ Ends begins (code a ++ rest) := by
  obtain ⟨first, hfirst, hkind⟩ := hbegins
  exact fun hends => hends first (by simp [Option.mem_def.1 hfirst]) hkind

/-- Rows that begin alike are read off one by one, up to where something else begins. -/
theorem Delimits.flatMap (begins : String → Prop) (hcode : Delimits code look)
    (hbegins : ∀ a, ∃ first ∈ (code a).head?, begins first) (hrest : Ends begins rest)
    (hrest' : Ends begins rest') {as bs : List α}
    (hsame : as.flatMap code ++ rest = bs.flatMap code ++ rest') :
    as.map look = bs.map look ∧ rest = rest' := by
  induction as generalizing bs with
  | nil =>
      cases bs with
      | nil => exact ⟨rfl, hsame⟩
      | cons b bs =>
          rw [List.flatMap_nil, List.nil_append, List.flatMap_cons, List.append_assoc] at hsame
          exact absurd (hsame ▸ hrest) (not_ends_append (hbegins b) _)
  | cons a as ih =>
      cases bs with
      | nil =>
          rw [List.flatMap_nil, List.nil_append, List.flatMap_cons, List.append_assoc] at hsame
          exact absurd (hsame ▸ hrest') (not_ends_append (hbegins a) _)
      | cons b bs =>
          simp only [List.flatMap_cons, List.append_assoc] at hsame
          obtain ⟨hlook, hmore⟩ := hcode hsame
          obtain ⟨hlooks, hends⟩ := ih hmore
          exact ⟨by rw [List.map_cons, List.map_cons, hlook, hlooks], hends⟩

/-- Lines of one kind are read off one by one. -/
theorem map_eq_of_lines (begins : String → Prop) {text : α → String} (hkind : ∀ a, begins (text a))
    (htext : ∀ {a b : α}, text a = text b → look a = look b) (hrest : Ends begins rest)
    (hrest' : Ends begins rest') {as bs : List α}
    (hsame : as.map text ++ rest = bs.map text ++ rest') :
    as.map look = bs.map look ∧ rest = rest' := by
  have hcode : Delimits (fun a => [text a]) look := fun a b rest rest' hline => by
    obtain ⟨hline, hmore⟩ := List.cons.inj hline
    exact ⟨htext hline, hmore⟩
  rw [List.map_eq_flatMap, List.map_eq_flatMap] at hsame
  exact hcode.flatMap begins (fun a => ⟨text a, rfl, hkind a⟩) hrest hrest' hsame

/-- An empty line before each row tells nothing more. -/
theorem Delimits.cons (hcode : Delimits code look) (first : String) :
    Delimits (fun a => first :: code a) look :=
  fun _ _ _ _ hsame => hcode (List.cons.inj hsame).2

end Delimits

/-! ## Methods -/

theorem TagSet.toList_inj {tags tags' : TagSet} (hsame : tags.toList = tags'.toList) :
    tags = tags' := by
  cases tags
  cases hsame
  rfl

namespace Method

/-- A line of a method, with the given character behind the indentation. -/
def Indented (c : Char) (text : String) : Prop := text.toList[4]? = some c

theorem indented_iff {front text : String} {c d : Char}
    (hfront : front.toList[4]? = some d) : Indented c (front ++ text) ↔ d = c := by
  have hlength : 4 < front.toList.length := (List.getElem?_eq_some_iff.1 hfront).1
  rw [Indented, String.toList_append, List.getElem?_append_left hlength, hfront, Option.some_inj]

@[simp] theorem indented_tagLine {c : Char} (tag : String) :
    Indented c (tagLine tag) ↔ '/' = c :=
  indented_iff (by decide)

@[simp] theorem indented_attributeLine {c : Char} (attr : Attribute) :
    Indented c (attributeLine attr.listing) ↔ '[' = c := by
  unfold Attribute.listing
  split <;> simp [Indented, attributeLine, indent]

@[simp] theorem indented_headLine {c : Char} (name : String) :
    Indented c (headLine name) ↔ 'v' = c := by
  simp [Indented, headLine, indent]

@[simp] theorem indented_statementLine {c : Char} (text : String) :
    Indented c (statementLine text) ↔ ' ' = c :=
  indented_iff (by decide)

@[simp] theorem indented_closingLine {c : Char} : Indented c closingLine ↔ '\x7d' = c := by
  simp [Indented, closingLine, indent]

theorem tagLine_inj {tag tag' : String} (hsame : tagLine tag = tagLine tag') : tag = tag' :=
  (String.append_right_inj _).1 hsame

theorem attributeLine_inj {text text' : String}
    (hsame : attributeLine text = attributeLine text') : text = text' :=
  (String.append_right_inj _).1 hsame

theorem statementLine_inj {text text' : String}
    (hsame : statementLine text = statementLine text') : text = text' :=
  (String.append_right_inj _).1 hsame

theorem headLine_inj {name name' : String} (hsame : headLine name = headLine name') :
    name = name' :=
  (String.append_right_inj _).1 ((String.append_left_inj _).1 hsame)

/-- The lines of a method tell how it looks, and where they end. -/
theorem delimits_lines : Delimits (fun method : Method => method.look.lines) look := by
  intro a b rest rest' hsame
  simp only [look, Look.lines, List.map_map, List.append_assoc, List.cons_append] at hsame
  have hbehindTags (method : Method) (more : List String) : Ends (Indented '/')
      (method.attributes.map (attributeLine ∘ Attribute.listing) ++
        headLine method.name :: more) :=
    (ends_cons (by simp) more).map_append (by simp) _
  obtain ⟨htags, hsame⟩ := map_eq_of_lines (Indented '/') (by simp) (congrArg id ∘ tagLine_inj)
    (hbehindTags a _) (hbehindTags b _) hsame
  obtain ⟨hattributes, hsame⟩ := map_eq_of_lines (Indented '[') (by simp)
    attributeLine_inj (ends_cons (by simp) _) (ends_cons (by simp) _) hsame
  obtain ⟨hhead, hsame⟩ := List.cons.inj hsame
  obtain ⟨hbody, hsame⟩ := map_eq_of_lines (Indented ' ') (by simp)
    statementLine_inj (ends_cons (by simp) _) (ends_cons (by simp) _) hsame
  rw [List.map_id, List.map_id] at htags
  refine ⟨?_, (List.cons.inj hsame).2⟩
  rw [look, look, headLine_inj hhead, TagSet.toList_inj htags, hattributes, hbody]

end Method

/-! ## Types -/

namespace TypeDecl

/-- The end of the first line of a type tells whether methods follow. -/
theorem header_line_ne (header header' : String) : header ++ ";" ≠ header' ++ " \x7b" := by
  intro hsame
  have hlast := congrArg (fun text : String => text.toList.getLast?) hsame
  simp at hlast

/-- The methods between the braces of a type are read off one by one: the empty line before each
of them tells that the type is not closed yet. -/
theorem methods_eq_of_lines {method method' : Method} {methods methods' : List Method}
    {rest rest' : List String}
    (hsame : method.look.lines ++ ((methods.map Method.look).flatMap
        (fun look => "" :: look.lines) ++ "\x7d" :: rest) =
      method'.look.lines ++ ((methods'.map Method.look).flatMap
        (fun look => "" :: look.lines) ++ "\x7d" :: rest')) :
    (method :: methods).map Method.look = (method' :: methods').map Method.look ∧ rest = rest' := by
  obtain ⟨hfirst, hsame⟩ := Method.delimits_lines hsame
  rw [List.flatMap_map, List.flatMap_map] at hsame
  have hclosing (rest : List String) : Ends (· = "") ("\x7d" :: rest) := ends_cons (by decide) rest
  obtain ⟨hmore, hsame⟩ := (Method.delimits_lines.cons "").flatMap (· = "")
    (fun _ => ⟨"", rfl, rfl⟩) (hclosing rest) (hclosing rest') hsame
  exact ⟨by rw [List.map_cons, List.map_cons, hfirst, hmore], (List.cons.inj hsame).2⟩

/-- The lines of a type tell how it looks, and where they end. -/
theorem delimits_lines : Delimits (fun decl : TypeDecl => decl.look.lines) look := by
  rintro ⟨id, base, methods⟩ ⟨id', base', methods'⟩ rest rest' hsame
  cases methods with
  | nil =>
      cases methods' with
      | nil =>
          obtain ⟨hheader, hrest⟩ := List.cons.inj hsame
          exact ⟨congrArg (Look.mk · []) ((String.append_left_inj _).1 hheader), hrest⟩
      | cons method' methods' => exact absurd (List.cons.inj hsame).1 (header_line_ne _ _)
  | cons method methods =>
      cases methods' with
      | nil => exact absurd (List.cons.inj hsame).1.symm (header_line_ne _ _)
      | cons method' methods' =>
          simp only [look, Look.lines, List.map_cons, List.cons_append, List.append_assoc] at hsame
          obtain ⟨hheader, hsame⟩ := List.cons.inj hsame
          obtain ⟨hmethods, hrest⟩ := methods_eq_of_lines hsame
          exact ⟨congrArg₂ Look.mk ((String.append_left_inj _).1 hheader) hmethods, hrest⟩

end TypeDecl

/-! ## Changes of methods -/

namespace Method

/-- One change of the methods of a type, or the way back. -/
inductive Change : List Method → List Method → Prop
  /-- A method is added. -/
  | added (before : List Method) (method : Method) (after : List Method) :
      Change (before ++ after) (before ++ method :: after)
  /-- A method is moved behind others, at least one of which does not look like it: past its
  likes alone it leaves what is listed in the same order. -/
  | moved (before : List Method) (method : Method) {passed : List Method} (after : List Method)
      (hpassed : ∃ other ∈ passed, other.look ≠ method.look) :
      Change (before ++ method :: (passed ++ after)) (before ++ (passed ++ method :: after))
  /-- A method gets other tags. -/
  | retagged (before : List Method) {method : Method} {tags : TagSet} (after : List Method)
      (htags : tags ≠ method.tags) :
      Change (before ++ method :: after) (before ++ { method with tags } :: after)
  /-- A statement, which may be a break, is inserted into the body of a method. -/
  | inserted (before : List Method) (method : Method) (front : List Stmt) (stmt : Stmt)
      (back : List Stmt) (after : List Method) :
      Change (before ++ { method with body := front ++ back } :: after)
        (before ++ { method with body := front ++ stmt :: back } :: after)
  /-- A change is undone: what was added is removed, what was inserted is dropped. -/
  | undone {methods methods' : List Method} (hchange : Change methods methods') :
      Change methods' methods

/-- A row that is the same with an element in front as with it at the end has no other. -/
theorem eq_of_cons_eq_append {α : Type} {x : α} {xs : List α} (hsame : x :: xs = xs ++ [x]) :
    ∀ y ∈ xs, y = x := by
  induction xs with
  | nil => exact fun _ hy => absurd hy List.not_mem_nil
  | cons y xs ih =>
      obtain ⟨rfl, hmore⟩ := List.cons.inj hsame
      exact List.forall_mem_cons.2 ⟨rfl, ih hmore⟩

/-- Every change shows. -/
theorem Change.map_look_ne {methods methods' : List Method} (hchange : Change methods methods') :
    methods.map look ≠ methods'.map look := by
  induction hchange with
  | added before method after =>
      intro hsame
      have hlength := congrArg List.length hsame
      simp at hlength
  | @moved before method passed after hpassed =>
      obtain ⟨other, hother, hne⟩ := hpassed
      intro hsame
      have hrow : method.look :: passed.map look = passed.map look ++ [method.look] := by
        rw [← List.append_left_inj (after.map look)]
        simpa using hsame
      exact hne (eq_of_cons_eq_append hrow other.look (List.mem_map_of_mem hother))
  | retagged before after htags =>
      intro hsame
      simp [look, htags.symm] at hsame
  | inserted before method front stmt back after =>
      intro hsame
      simp [look] at hsame
  | undone _ ih => exact ih.symm

end Method

/-! ## Programs -/

namespace Program

/-- The line of a marker. -/
def Bracketed (text : String) : Prop := text.toList.head? = some '['

theorem bracketed_marker (marker : MarkerDecl) : Bracketed marker.listing := by
  unfold MarkerDecl.listing
  split <;> simp [Bracketed]

/-- Behind the markers there is an empty line or nothing. -/
theorem ends_bracketed (decls : List TypeDecl) :
    Ends Bracketed (decls.flatMap fun decl => "" :: decl.look.lines) := by
  cases decls with
  | nil => exact ends_nil
  | cons decl decls => exact ends_cons (by simp [Bracketed]) _

/-- The lines of a program tell how it looks. -/
theorem look_eq_of_lines {p q : Program} (hsame : p.look.lines = q.look.lines) :
    p.look = q.look := by
  simp only [look, Look.lines, List.flatMap_map] at hsame
  obtain ⟨hname, hsame⟩ := List.cons.inj hsame
  obtain ⟨hmarkers, hsame⟩ := map_eq_of_lines Bracketed bracketed_marker id
    (ends_bracketed p.types.toList) (ends_bracketed q.types.toList) hsame
  rw [← List.append_nil (p.types.toList.flatMap _), ← List.append_nil (q.types.toList.flatMap _)]
    at hsame
  obtain ⟨htypes, -⟩ := (TypeDecl.delimits_lines.cons "").flatMap (· = "")
    (fun _ => ⟨"", rfl, rfl⟩) ends_nil ends_nil hsame
  rw [look, look, (String.append_right_inj _).1 hname, hmarkers, htypes]

/-- **A listing hides no change.**  Let no name, tag, statement or argument of an attribute of
two programs have a line feed.  If and only if the programs look alike are their listings the
same: then they have the same name, the same markers by their texts, and the same types in the
same order by their headers, with the same methods in the same order by their names, their tags
and the texts of attributes and statements.

So a listing changes with every method of a type that is added, removed, moved or retagged, and
with every statement or break that is inserted or dropped, whatever becomes of the other
types. -/
theorem listing_hides_no_change {p q : Program} (hp : ∀ text ∈ p.texts, OneLine text)
    (hq : ∀ text ∈ q.texts, OneLine text) :
    (p.listing = q.listing ↔ p.look = q.look) ∧
      ∀ {i : Nat} {decl other : TypeDecl},
        p.types.toList[i]? = some decl → q.types.toList[i]? = some other →
        Method.Change decl.methods other.methods → p.listing ≠ q.listing := by
  have hshows : p.listing = q.listing ↔ p.look = q.look := by
    rw [listing_eq, listing_eq]
    constructor
    · exact fun hsame =>
        look_eq_of_lines (paragraph_inj (oneLine_lines hp) (oneLine_lines hq) hsame)
    · exact fun hlook => by rw [hlook]
  refine ⟨hshows, fun {i decl other} hdecl hother hchange hsame => hchange.map_look_ne ?_⟩
  have htypes : p.types.toList.map TypeDecl.look = q.types.toList.map TypeDecl.look :=
    congrArg Look.types (hshows.1 hsame)
  have hlook := congrArg (·[i]?) htypes
  simp only [List.getElem?_map, hdecl, hother] at hlook
  exact congrArg TypeDecl.Look.methods (Option.some.inj hlook)

/-- A program with texts that read like parts of a listing, and a method with the given body. -/
def puzzling (body : List Stmt) : Program where
  name := "[assembly: a]"
  markers := [{ kind := "a", args := .string "\n" }]
  types := .ofList
    [{ id := ⟨"A \x7b"⟩, methods := [{ name := "", body, tags := .ofList ["void () \x7b"] }] },
      { id := ⟨"A"⟩, base := some ⟨"B;"⟩ }]

/-- A break before a statement like a brace shows.  A return is told from an expression by its
text only. -/
theorem puzzling_listings :
    let brace : List Stmt := [.expr "\x7d", .expr "// @void () \x7b"]
    (∀ text ∈ (puzzling brace).texts, OneLine text) ∧
      (puzzling brace).listing ≠ (puzzling (.intrinsic .debuggerBreak :: brace)).listing ∧
      (puzzling [.returns none]).listing = (puzzling [.expr "return"]).listing := by
  intro brace
  have hbrace : ∀ text ∈ (puzzling brace).texts, OneLine text := by decide
  refine ⟨hbrace, ?_, ?_⟩
  · exact (listing_hides_no_change hbrace (by decide)).2 (i := 0) rfl rfl
      (.inserted [] { name := "", tags := .ofList ["void () \x7b"] } [] (.intrinsic .debuggerBreak)
        brace [])
  · exact (listing_hides_no_change (by decide) (by decide)).1.2 (by decide)

end Program

end EditPipeline
