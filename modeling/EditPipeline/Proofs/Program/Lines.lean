import EditPipeline.Program.Listing
import EditPipeline.Proofs.Json.OneLine

/-!
# The lines of a listing

A listing is a row of lines, made from no more than the look of the program: its name, the texts
of its markers, and for each type the header and, of each method, the name, the tags and the
texts of attributes and statements.

The lines can be told again from the text if none of them is broken in two (`paragraph_inj`).
None is if the names, the tags, the arguments of attributes and the statements of the program
have no line feed.  The arguments of a marker need no such condition: they are written as JSON,
which escapes line feeds.
-/

namespace EditPipeline

/-- A text without a line feed. -/
def OneLine (text : String) : Prop := '\n' ∉ text.toList

instance (text : String) : Decidable (OneLine text) := inferInstanceAs (Decidable (_ ∉ _))

@[simp] theorem oneLine_append {front back : String} :
    OneLine (front ++ back) ↔ OneLine front ∧ OneLine back := by
  simp [OneLine, not_or]

@[simp] theorem oneLine_indent : OneLine indent := by decide

/-- Texts of one line make one line, with a separator of one line between them. -/
theorem oneLine_intercalate {separator : String} {texts : List String}
    (hseparator : OneLine separator) (htexts : ∀ text ∈ texts, OneLine text) :
    OneLine (separator.intercalate texts) := by
  induction texts with
  | nil => exact List.not_mem_nil
  | cons text texts ih =>
      obtain ⟨htext, hmore⟩ := List.forall_mem_cons.1 htexts
      cases texts with
      | nil => rwa [String.intercalate_singleton]
      | cons second texts =>
          rw [String.intercalate_cons_cons]
          exact oneLine_append.2 ⟨oneLine_append.2 ⟨htext, hseparator⟩, ih hmore⟩

/-! ## Paragraphs -/

/-- The text of a row of lines. -/
def paragraph (lines : List String) : String := String.join (lines.map line)

@[simp] theorem paragraph_nil : paragraph [] = "" := rfl

@[simp] theorem paragraph_cons (text : String) (lines : List String) :
    paragraph (text :: lines) = line text ++ paragraph lines := String.join_cons

@[simp] theorem paragraph_append (front back : List String) :
    paragraph (front ++ back) = paragraph front ++ paragraph back := by
  simp [paragraph, String.join_append]

theorem paragraph_map {α : Type} (text : α → String) (as : List α) :
    paragraph (as.map text) = String.join (as.map fun a => line (text a)) := by
  rw [paragraph, List.map_map]
  rfl

theorem paragraph_flatMap {α : Type} (lines : α → List String) (as : List α) :
    paragraph (as.flatMap lines) = String.join (as.map fun a => paragraph (lines a)) := by
  induction as with
  | nil => rfl
  | cons a as ih =>
      rw [List.flatMap_cons, paragraph_append, ih, List.map_cons, String.join_cons]

/-- Cutting a paragraph at its line feeds gives the lines, and what stands behind the last one. -/
theorem splitOn_paragraph {lines : List String} (hlines : ∀ text ∈ lines, OneLine text) :
    (paragraph lines).toList.splitOn '\n' = lines.map String.toList ++ [[]] := by
  induction lines with
  | nil => rfl
  | cons text lines ih =>
      obtain ⟨htext, hmore⟩ := List.forall_mem_cons.1 hlines
      have hcut : (paragraph (text :: lines)).toList =
          text.toList ++ '\n' :: (paragraph lines).toList := by simp [line]
      rw [hcut, List.splitOn_append_cons_self_of_not_mem htext, ih hmore]
      rfl

/-- Two rows of lines that make the same text are the same row. -/
theorem paragraph_inj {lines lines' : List String} (hlines : ∀ text ∈ lines, OneLine text)
    (hlines' : ∀ text ∈ lines', OneLine text) (hsame : paragraph lines = paragraph lines') :
    lines = lines' := by
  have hsplit := splitOn_paragraph hlines
  rw [hsame, splitOn_paragraph hlines', List.append_left_inj] at hsplit
  exact (List.map_inj_right fun _ _ => String.toList_inj.1).1 hsplit.symm

/-! ## What is shown -/

/-- What a listing shows of a method. -/
structure Method.Look where
  name : String
  tags : TagSet
  /-- The text of each attribute. -/
  attributes : List String
  /-- The text of each statement. -/
  body : List String
deriving DecidableEq

/-- What a listing shows of a type. -/
structure TypeDecl.Look where
  header : String
  methods : List Method.Look
deriving DecidableEq

/-- What a listing shows of a program. -/
structure Program.Look where
  name : String
  /-- The text of each marker. -/
  markers : List String
  types : List TypeDecl.Look
deriving DecidableEq

namespace Method

/-- The look of a method: its name, its tags, and its attributes and statements as they are
listed. -/
def look (method : Method) : Look where
  name := method.name
  tags := method.tags
  attributes := method.attributes.map Attribute.listing
  body := method.body.map Stmt.listing

/-- The line of a tag. -/
def tagLine (tag : String) : String := indent ++ "// @" ++ tag

/-- The line of an attribute. -/
def attributeLine (text : String) : String := indent ++ text

/-- The line before the body of a method. -/
def headLine (name : String) : String := indent ++ "void " ++ name ++ "() \x7b"

/-- The line of a statement. -/
def statementLine (text : String) : String := indent ++ indent ++ text

/-- The line behind the body of a method. -/
def closingLine : String := indent ++ "\x7d"

/-- The lines of a method. -/
def Look.lines (look : Look) : List String :=
  look.tags.toList.map tagLine ++ (look.attributes.map attributeLine ++
    headLine look.name :: (look.body.map statementLine ++ [closingLine]))

theorem listing_eq (method : Method) : method.listing = paragraph method.look.lines := by
  simp only [look, Look.lines, paragraph_append, paragraph_cons, paragraph_nil, paragraph_map,
    List.map_map, String.append_empty, ← String.append_assoc]
  rfl

end Method

namespace TypeDecl

/-- The look of a type: its header and the looks of its methods. -/
def look (decl : TypeDecl) : Look where
  header := decl.header
  methods := decl.methods.map Method.look

/-- The lines of a type, with an empty line before each method but the first. -/
def Look.lines (look : Look) : List String :=
  match look.methods with
  | [] => [look.header ++ ";"]
  | method :: methods =>
    (look.header ++ " \x7b") ::
      (method.lines ++ (methods.flatMap (fun method => "" :: method.lines) ++ ["\x7d"]))

/-- An empty line between each two methods is one before each method but the first. -/
theorem intercalate_listings (method : Method) (methods : List Method) :
    (line "").intercalate (method.listing :: methods.map Method.listing) =
      paragraph (method.look.lines ++
        (methods.map Method.look).flatMap fun look => "" :: look.lines) := by
  induction methods generalizing method with
  | nil => simp [Method.listing_eq]
  | cons second methods ih =>
      calc (line "").intercalate (method.listing :: (second :: methods).map Method.listing)
          = method.listing ++ line "" ++
              (line "").intercalate (second.listing :: methods.map Method.listing) :=
            String.intercalate_cons_cons
        _ = paragraph (method.look.lines ++
              ((second :: methods).map Method.look).flatMap fun look => "" :: look.lines) := by
            rw [ih second]
            simp [Method.listing_eq, String.append_assoc]

theorem listing_eq (decl : TypeDecl) : decl.listing = paragraph decl.look.lines := by
  unfold listing look Look.lines
  cases decl.methods with
  | nil => simp
  | cons method methods =>
      rw [if_neg (by simp), List.map_cons, intercalate_listings]
      simp [String.append_assoc]

end TypeDecl

namespace Program

/-- The look of a program: its name, its markers as they are listed, and the looks of its types
in their order. -/
def look (program : Program) : Look where
  name := program.name
  markers := program.markers.map MarkerDecl.listing
  types := program.types.toList.map TypeDecl.look

/-- The lines of a program, with an empty line before each type. -/
def Look.lines (look : Look) : List String :=
  ("assembly " ++ look.name) ::
    (look.markers ++ look.types.flatMap fun type => "" :: type.lines)

/-- A listing depends on the look of the program alone. -/
theorem listing_eq (program : Program) : program.listing = paragraph program.look.lines := by
  simp only [look, Look.lines, paragraph_cons, paragraph_append, paragraph_map, paragraph_flatMap,
    List.flatMap_map, ← TypeDecl.listing_eq, ← String.append_assoc]
  rfl

end Program

/-! ## The texts of a program -/

/-- The texts of an attribute. -/
def Attribute.texts (attr : Attribute) : List String := attr.type.name :: attr.args

/-- The texts of a statement. -/
def Stmt.texts : Stmt → List String
  | .expr text => [text]
  | .returns value => value.toList
  | .intrinsic _ => []

/-- The texts of a method. -/
def Method.texts (method : Method) : List String :=
  method.name :: (method.tags.toList ++
    (method.attributes.flatMap Attribute.texts ++ method.body.flatMap Stmt.texts))

/-- The texts of a type. -/
def TypeDecl.texts (decl : TypeDecl) : List String :=
  decl.id.name :: ((decl.base.map TypeId.name).toList ++ decl.methods.flatMap Method.texts)

/-- The texts of a program: all its strings but the ones in the arguments of its markers. -/
def Program.texts (program : Program) : List String :=
  program.name :: (program.markers.map MarkerDecl.kind ++
    program.types.toList.flatMap TypeDecl.texts)

section OneLine

/-- A marker stands on one line, whatever its arguments hold. -/
theorem MarkerDecl.oneLine_listing {marker : MarkerDecl} (hkind : OneLine marker.kind) :
    OneLine marker.listing := by
  have hargs : OneLine marker.args.compactText := by
    rw [OneLine, Json.compactText, String.toList_ofList]
    exact Json.newline_notMem_compact marker.args
  unfold MarkerDecl.listing
  split <;> simp_all [OneLine]

theorem Attribute.oneLine_listing {attr : Attribute}
    (htexts : ∀ text ∈ attr.texts, OneLine text) : OneLine attr.listing := by
  obtain ⟨hname, hargs⟩ := List.forall_mem_cons.1 htexts
  have hrow : OneLine (", ".intercalate attr.args) := oneLine_intercalate (by decide) hargs
  unfold Attribute.listing
  split <;> simp_all [OneLine]

theorem Stmt.oneLine_listing : ∀ {stmt : Stmt}, (∀ text ∈ stmt.texts, OneLine text) →
    OneLine stmt.listing
  | .expr text, htexts => oneLine_append.2 ⟨htexts text List.mem_cons_self, by decide⟩
  | .returns none, _ => by decide
  | .returns (some value), htexts =>
      oneLine_append.2 ⟨oneLine_append.2 ⟨by decide, htexts value List.mem_cons_self⟩, by decide⟩
  | .intrinsic .debuggerBreak, _ => by decide

theorem Method.oneLine_lines {method : Method} (htexts : ∀ text ∈ method.texts, OneLine text) :
    ∀ text ∈ method.look.lines, OneLine text := by
  simp only [texts, List.forall_mem_cons, List.forall_mem_append, List.forall_mem_flatMap] at htexts
  obtain ⟨hname, htags, hattributes, hbody⟩ := htexts
  simp only [look, Look.lines, List.forall_mem_append, List.forall_mem_cons, List.forall_mem_map]
  refine ⟨fun tag htag => ?tag, fun attr hattr => ?attr, ?head, fun stmt hstmt => ?stmt, ?closing,
    by simp⟩
  case tag => exact oneLine_append.2 ⟨by decide, htags tag htag⟩
  case attr =>
    exact oneLine_append.2 ⟨oneLine_indent, Attribute.oneLine_listing (hattributes attr hattr)⟩
  case head => exact oneLine_append.2 ⟨oneLine_append.2 ⟨by decide, hname⟩, by decide⟩
  case stmt =>
    exact oneLine_append.2 ⟨by decide, Stmt.oneLine_listing (hbody stmt hstmt)⟩
  case closing => decide

theorem TypeDecl.oneLine_header {decl : TypeDecl} (hname : OneLine decl.id.name)
    (hbase : ∀ base ∈ decl.base, OneLine base.name) : OneLine decl.header := by
  refine oneLine_append.2 ⟨oneLine_append.2 ⟨by decide, hname⟩, ?_⟩
  cases hdecl : decl.base with
  | none => decide
  | some base => exact oneLine_append.2 ⟨by decide, hbase base hdecl⟩

theorem TypeDecl.oneLine_lines {decl : TypeDecl} (htexts : ∀ text ∈ decl.texts, OneLine text) :
    ∀ text ∈ decl.look.lines, OneLine text := by
  simp only [texts, List.forall_mem_cons, List.forall_mem_append, List.forall_mem_flatMap] at htexts
  obtain ⟨hname, hbase, hmethods⟩ := htexts
  have hheader : OneLine decl.header := oneLine_header hname (by simpa using hbase)
  have hlines : ∀ method ∈ decl.methods, ∀ text ∈ method.look.lines, OneLine text :=
    fun method hmethod => Method.oneLine_lines (hmethods method hmethod)
  unfold look Look.lines
  cases hcons : decl.methods with
  | nil => simpa using ⟨hheader, by decide⟩
  | cons method methods =>
      rw [hcons, List.forall_mem_cons] at hlines
      simp only [List.map_cons, List.forall_mem_cons, List.forall_mem_append,
        List.forall_mem_flatMap, List.forall_mem_map]
      refine ⟨oneLine_append.2 ⟨hheader, by decide⟩, hlines.1, fun other hother => ?_, by decide⟩
      exact ⟨by decide, hlines.2 other hother⟩

/-- **No line of a listing is broken in two** if no text of the program is. -/
theorem Program.oneLine_lines {program : Program}
    (htexts : ∀ text ∈ program.texts, OneLine text) :
    ∀ text ∈ program.look.lines, OneLine text := by
  simp only [texts, List.forall_mem_cons, List.forall_mem_append, List.forall_mem_flatMap,
    List.forall_mem_map] at htexts
  obtain ⟨hname, hmarkers, htypes⟩ := htexts
  simp only [look, Look.lines, List.forall_mem_append, List.forall_mem_cons,
    List.forall_mem_flatMap, List.forall_mem_map]
  refine ⟨oneLine_append.2 ⟨by decide, hname⟩, fun marker hmarker => ?_, fun decl hdecl => ?_⟩
  · exact MarkerDecl.oneLine_listing (hmarkers marker hmarker)
  · exact ⟨by decide, TypeDecl.oneLine_lines (htypes decl hdecl)⟩

end OneLine

end EditPipeline
