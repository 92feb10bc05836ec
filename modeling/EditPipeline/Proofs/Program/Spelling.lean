import EditPipeline.Proofs.Program.Shapes

/-!
# Programs in any layout

A text spells a program if it is a JSON text of a tree that shows it (`Program.SpelledBy`).  Both
texts that are written for the program do, and so do those that a host makes of them: with the
members of its objects in another order, with members of unknown names, with more space or less,
and with a default left out or written.  All of them are read as the same program
(`read_in_any_layout`).
-/

namespace EditPipeline

open Json (tree Tree Exact Fits JsonText)

/-! ## The numbers of a program

The format itself has no numbers, so the only ones are in the arguments of markers. -/

section Numbers

variable {α : Type} {encode : α → Json} {values : List α}

theorem exact_values (hvalues : ∀ value ∈ values, Exact (encode value)) :
    Exact (.array (values.map encode)) := by
  refine Json.exact_array.2 fun item hitem => ?_
  obtain ⟨value, hvalue, rfl⟩ := List.mem_map.1 hitem
  exact hvalues value hvalue

theorem exact_optionalMember (name : String) (hvalues : ∀ value ∈ values, Exact (encode value)) :
    ∀ member ∈ optionalMember name encode values, Exact member.2 := by
  unfold optionalMember
  split_ifs with hempty
  · exact List.forall_mem_nil _
  · exact List.forall_mem_singleton.2 (exact_values hvalues)

end Numbers

theorem Attribute.exact_toJson (attr : Attribute) : Exact attr.toJson :=
  Json.exact_object.2 (List.forall_mem_cons.2
    ⟨trivial, exact_optionalMember _ fun _ _ => trivial⟩)

theorem Stmt.exact_toJson (stmt : Stmt) : Exact stmt.toJson := by
  cases stmt with
  | expr text => exact ⟨trivial, trivial⟩
  | returns value => cases value <;> exact ⟨trivial, trivial⟩
  | intrinsic call => exact ⟨trivial, trivial⟩

theorem Method.exact_toJson (method : Method) : Exact method.toJson := by
  refine Json.exact_object.2 (List.forall_mem_append.2 ⟨List.forall_mem_cons.2 ⟨trivial, ?_⟩,
    List.forall_mem_cons.2 ⟨?_, ?_⟩⟩)
  · exact exact_optionalMember _ fun attr _ => Attribute.exact_toJson attr
  · exact exact_values fun stmt _ => Stmt.exact_toJson stmt
  · exact exact_optionalMember _ fun _ _ => trivial

theorem TypeDecl.exact_toJson (decl : TypeDecl) : Exact decl.toJson := by
  refine Json.exact_object.2 (List.forall_mem_append.2 ⟨List.forall_mem_cons.2 ⟨trivial, ?_⟩, ?_⟩)
  · cases decl.base with
    | none => exact List.forall_mem_nil _
    | some base => exact List.forall_mem_singleton.2 trivial
  · exact exact_optionalMember _ fun method _ => Method.exact_toJson method

theorem MarkerDecl.exact_toJson {marker : MarkerDecl} (hargs : Exact marker.args) :
    Exact marker.toJson :=
  ⟨trivial, hargs, trivial⟩

theorem Program.exact_toJson {program : Program}
    (hargs : ∀ marker ∈ program.markers, Exact marker.args) : Exact program.toJson := by
  refine Json.exact_object.2 (List.forall_mem_append.2 ⟨List.forall_mem_cons.2 ⟨trivial, ?_⟩,
    List.forall_mem_singleton.2 ?_⟩)
  · exact exact_optionalMember _ fun marker hmarker => MarkerDecl.exact_toJson (hargs marker hmarker)
  · exact exact_values fun decl _ => TypeDecl.exact_toJson decl

/-! ## Spellings -/

namespace Program

/-- A text spells a program: it is a JSON text of a tree that shows the program. -/
def SpelledBy (program : Program) (text : String) : Prop :=
  ∃ node, JsonText text node ∧ program.Shown node

variable {program : Program}

/-- Both texts that are written for a program spell it. -/
theorem spelledBy_written (hargs : ∀ marker ∈ program.markers, Exact marker.args) :
    program.SpelledBy program.toJson.compactText ∧ program.SpelledBy program.toJson.prettyText := by
  have hexact : Exact program.toJson := exact_toJson hargs
  exact ⟨⟨_, Json.jsonText_compactText hexact, program.shown_toJson⟩,
    ⟨_, Json.jsonText_prettyText hexact, program.shown_toJson⟩⟩

/-- A program is read from every text that spells it. -/
theorem ofText_of_spelledBy
    (hfits : ∀ marker ∈ program.markers, Fits (Json.maxLevels - 3) marker.args) {text : String}
    (hspelled : program.SpelledBy text) : Program.ofText text = .ok program := by
  obtain ⟨node, htext, hshown⟩ := hspelled
  exact (htext.decode _).trans (read_of_shown hfits hshown htext.fault?_eq_none)

end Program

/-! ## Main statement -/

/-- **Programs are read in any layout.**  The two texts that are written for a program spell it,
if its markers carry canonical values without doubles, and every text that spells it is read as
exactly this program, if those values are nested at most 124 levels deep. -/
theorem read_in_any_layout (program : Program)
    (hfree : ∀ marker ∈ program.markers, marker.args.FloatFree)
    (hargs : ∀ marker ∈ program.markers, marker.args.Canonical ∧ marker.args.depth ≤ 124) :
    program.SpelledBy program.toJson.compactText ∧ program.SpelledBy program.toJson.prettyText ∧
      ∀ text, program.SpelledBy text → Program.ofText text = .ok program := by
  have hexact : ∀ marker ∈ program.markers, Exact marker.args := fun marker hmarker =>
    Json.exact_of_canonical (hargs marker hmarker).1 (hfree marker hmarker)
  obtain ⟨hcompact, hpretty⟩ := Program.spelledBy_written hexact
  exact ⟨hcompact, hpretty, fun _ hspelled => Program.ofText_of_spelledBy hargs hspelled⟩

/-- A program with a marker and a type that have their defaults. -/
def plain : Program where
  name := "P"
  markers := [{ kind := "k" }]
  types := ⟨[{ id := ⟨"X"⟩ }], by decide⟩

/-- A text of it with a base that is written, without the arguments of the marker, and with a
member that is no field: its value has a number that is too large and one half of a pair. -/
def plainText : String :=
  "\x7b\"types\": [\x7b\"base\":null,\"id\":\"X\"\x7d],\"?\":[-1e999,\"\\ud800\"],\n\"name\":\"P\",\"markers\":[\x7b\"kind\":\"k\"\x7d]\x7d"

/-- The number of that text. -/
def plainNumber : Json.Numeral where
  negative := true
  whole := ['1']
  exponent := some (false, ['9', '9', '9'])

section Plain

open Json

/-- A tree of the text, whose last part is the value of the member that is no field. -/
def plainTree (other : Tree) : Tree :=
  .object [
    (.ok "types", .array [.object [(.ok "base", .null), (.ok "id", .string (.ok "X"))] none] none),
    (.ok "?", other),
    (.ok "name", .string (.ok "P")),
    (.ok "markers", .array [.object [(.ok "kind", .string (.ok "k"))] none] none)] none

theorem plain_shown (other : Tree) : plain.Shown (plainTree other) := by
  have htype : TypeDecl.Shown { id := ⟨"X"⟩ }
      (.object [(.ok "base", .null), (.ok "id", .string (.ok "X"))] none) :=
    .mk (.cons (.written rfl) (.cons (.written rfl) (.cons (.omitted rfl) .nil)))
      (List.forall_mem_nil _) (List.Perm.swap _ _ _)
  have hmarker : MarkerDecl.Shown { kind := "k" } (.object [(.ok "kind", .string (.ok "k"))] none) :=
    .mk (.cons (.written rfl) (.cons (.omitted rfl) .nil)) (List.forall_mem_nil _) (.refl _)
  have hunknown : ∀ member ∈ [(Lexeme.ok "?", other)], Unknown plain.slots member :=
    List.forall_mem_singleton.2 ⟨"?", rfl, by decide⟩
  refine .mk (.cons (.written rfl) (.cons (.written (.mk (.cons hmarker .nil)))
    (.cons (.written (.mk (.cons htype .nil))) .nil))) hunknown ?_
  exact @List.perm_append_comm _ [_, _] [_, _]

theorem plain_spelledBy : plain.SpelledBy plainText := by
  have hname : ∀ name, NameText ([] ++ (quote name ++ ([] ++ ':' :: []))) (.ok name) := fun name =>
    .mk blank_nil (stringText_quote name) blank_nil blank_nil
  have hstring : ∀ s, ValueText (quote s) (.string (.ok s)) := fun s => .string (stringText_quote s)
  have htype := ValueText.object
    (.cons (hname "base") .null blank_nil (.last (hname "id") (hstring "X") blank_nil))
  have hmarker := ValueText.object (.last (hname "kind") (hstring "k") blank_nil)
  have hwhole : IsWhole plainNumber.whole :=
    ⟨⟨by decide, List.all_eq_true.1 (by decide)⟩, by decide⟩
  have hexponent : IsDigits ['9', '9', '9'] := ⟨by decide, List.all_eq_true.1 (by decide)⟩
  have hnumber : NumberText ['-', '1', 'e', '9', '9', '9'] plainNumber :=
    .mk hwhole .none (.some (.inl rfl) .none hexponent)
  have hhalf := StringText.mk
    (.cons (@PieceText.unit 'd' '8' '0' '0' (by decide) (by decide) (by decide) (by decide)) .nil)
  have hother := ValueText.array
    (.cons blank_nil (.number hnumber) blank_nil (.last blank_nil (.string hhalf) blank_nil))
  have hmembers := ValueText.object
    (.cons (.mk blank_nil (stringText_quote "types") blank_nil blank_space)
      (.array (.last blank_nil htype blank_nil)) blank_nil
      (.cons (hname "?") hother blank_nil
        (.cons (.mk (blank_lineBreak 0) (stringText_quote "name") blank_nil blank_nil)
          (hstring "P") blank_nil
          (.last (hname "markers") (.array (.last blank_nil hmarker blank_nil)) blank_nil))))
  exact ⟨_, .mk blank_nil hmembers blank_nil (by decide), plain_shown _⟩

end Plain

theorem plain_read :
    (∀ marker ∈ plain.markers, marker.args.FloatFree) ∧
      (∀ marker ∈ plain.markers, marker.args.Canonical ∧ marker.args.depth ≤ 124) ∧
      plain.SpelledBy plainText ∧ Program.ofText plainText = .ok plain := by
  have hfree : ∀ marker ∈ plain.markers, marker.args.FloatFree :=
    List.forall_mem_singleton.2 trivial
  have hargs : ∀ marker ∈ plain.markers, marker.args.Canonical ∧ marker.args.depth ≤ 124 :=
    List.forall_mem_singleton.2 ⟨trivial, Nat.zero_le 124⟩
  obtain ⟨-, -, hread⟩ := read_in_any_layout plain hfree hargs
  exact ⟨hfree, hargs, plain_spelledBy, hread plainText plain_spelledBy⟩

end EditPipeline
