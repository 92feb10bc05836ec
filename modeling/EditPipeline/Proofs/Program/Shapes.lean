import EditPipeline.Program.Decode
import EditPipeline.Proofs.Json.Shapes
import EditPipeline.Proofs.Program.Methods
import Mathlib.Data.List.Induction
import Mathlib.Data.List.Nodup

/-!
# How a tree shows a program

Every structure of a program is shown by an object with its fields, in any layout
(`ShowsFields`), and is read from each such object.  A structure has one list of slots, which says
what its members may hold and which of them may be left out, one draft for the fields that were
read, and one lemma, which follows the reader of its record.

Two fields are not lists in the program but are shown as lists: the tags of a method, and the
types of a program.  They come back because their lists are already as the reader would make
them, in order and without a repetition.

What is written for a program shows it, in the order of its fields and with the defaults left out
that its JSON form leaves out.
-/

namespace EditPipeline

open Json (tree Tree Record Slot Fits ShowsText ShowsOption ShowsList ShowsFields given getD_given
  given_of_mem showsText_tree)

/-! ## Sets and tables -/

theorem TagSet.insertSorted_append {tag : String} {tags : List String}
    (hgreater : ∀ other ∈ tags, other < tag) : insertSorted tag tags = tags ++ [tag] := by
  induction tags with
  | nil => rfl
  | cons other tags ih =>
      obtain ⟨hfirst, hrest⟩ := List.forall_mem_cons.1 hgreater
      have hne : tag ≠ other := by
        rintro rfl
        exact String.lt_irrefl _ hfirst
      rw [insertSorted, if_neg (String.lt_asymm hfirst), if_neg hne, ih hrest]
      rfl

/-- A list in increasing order is the list of the set that is made from it. -/
theorem TagSet.toList_ofList {tags : List String} (hsorted : tags.Pairwise (· < ·)) :
    (TagSet.ofList tags).toList = tags := by
  induction tags using List.reverseRecOn with
  | nil => rfl
  | append_singleton tags tag ih =>
      obtain ⟨htags, -, hgreater⟩ := List.pairwise_append.1 hsorted
      rw [TagSet.ofList, List.foldl_append]
      show insertSorted tag (TagSet.ofList tags).toList = _
      rw [ih htags]
      exact insertSorted_append fun other hother => hgreater other hother tag List.mem_cons_self

/-- A set is made again from the list of its tags. -/
theorem TagSet.ofList_toList (tags : TagSet) : TagSet.ofList tags.toList = tags := by
  have htags : (TagSet.ofList tags.toList).toList = tags.toList := TagSet.toList_ofList tags.sorted
  cases tags
  cases hmade : TagSet.ofList _
  simp_all

/-- A list of different types is the list of the table that is made from it. -/
theorem TypeTable.decls_ofList {decls : List TypeDecl} (hnodup : (decls.map TypeDecl.id).Nodup) :
    (TypeTable.ofList decls).decls = decls := by
  induction decls using List.reverseRecOn with
  | nil => rfl
  | append_singleton decls decl ih =>
      rw [List.map_append, List.nodup_append] at hnodup
      obtain ⟨hdecls, -, hnew⟩ := hnodup
      rw [TypeTable.ofList, List.foldl_append]
      show Keyed.put TypeDecl.id decl (TypeTable.ofList decls).decls = _
      rw [ih hdecls]
      exact Keyed.put_append fun hmem => hnew _ hmem _ (List.mem_singleton.2 rfl) rfl

/-- A table is made again from the list of its types. -/
theorem TypeTable.ofList_toList (table : TypeTable) : TypeTable.ofList table.toList = table :=
  TypeTable.eq_of_decls (TypeTable.decls_ofList table.nodup)

/-! ## Attributes -/

namespace Attribute

/-- The fields of an attribute. -/
def slots (attr : Attribute) : List Slot := [
  ⟨"type", False, ShowsText attr.type.name⟩,
  ⟨"args", attr.args = [], ShowsList ShowsText attr.args⟩]

/-- A tree that shows an attribute. -/
def Shown (attr : Attribute) : Tree → Prop := ShowsFields attr.slots

/-- The draft of an attribute once the fields of these names are read. -/
def draft (attr : Attribute) (names : List String) : Draft :=
  ⟨given names "type" attr.type.name, given names "args" attr.args⟩

theorem follows (attr : Attribute) : record.Follows attr.slots attr.draft where
  distinct := show ["type", "args"].Nodup by decide
  blank := rfl
  takes := by
    refine .cons (Record.takes_bind attr.type.name ?_ ?_ fun _ hnode _ => hnode.toText_eq)
      (.cons (Record.takes_bind attr.args ?_ ?_ fun _ hnode hsound => hnode.toStrings_eq hsound)
        .nil)
    all_goals
      intro names
      simp +contextual [draft, given]

theorem read_of_shown {attr : Attribute} {node : Tree} (hshown : attr.Shown node)
    (hsound : node.fault? = none) : record.read node = .ok attr := by
  refine Record.read_of_shows attr.follows hshown hsound fun names hnames => ?_
  simp only [slots, List.forall_mem_cons, false_or] at hnames
  obtain ⟨htype, hargs, -⟩ := hnames
  simp [record, draft, given_of_mem htype, getD_given hargs]

theorem shown_toJson (attr : Attribute) : attr.Shown (tree attr.toJson) := by
  have htype : Slot.Members ⟨"type", False, ShowsText attr.type.name⟩
      [(.ok "type", .string (.ok attr.type.name))] := .written rfl
  have hargs : Slot.Members ⟨"args", attr.args = [], ShowsList ShowsText attr.args⟩ _ :=
    Json.members_optionalMember "args" fun _ _ => showsText_tree _
  have hshows := Json.showsFields_flatten attr.slots (.cons htype (.cons hargs .nil))
  simpa [Shown, toJson, tree, Json.memberTrees] using hshows

end Attribute

/-! ## Statements -/

namespace Stmt

/-- A tree that shows a statement. -/
def Shown (stmt : Stmt) (node : Tree) : Prop := node = tree stmt.toJson

theorem read_of_shown {stmt : Stmt} {node : Tree} (hshown : stmt.Shown node) :
    read node = .ok stmt := by
  rw [hshown]
  cases stmt with
  | expr text => rfl
  | returns value => cases value <;> rfl
  | intrinsic call => cases call; rfl

end Stmt

/-! ## Methods -/

namespace Method

/-- The fields of a method. -/
def slots (method : Method) : List Slot := [
  ⟨"name", False, ShowsText method.name⟩,
  ⟨"attributes", method.attributes = [], ShowsList Attribute.Shown method.attributes⟩,
  ⟨"body", method.body = [], ShowsList Stmt.Shown method.body⟩,
  ⟨"tags", method.tags.toList = [], ShowsList ShowsText method.tags.toList⟩]

/-- A tree that shows a method. -/
def Shown (method : Method) : Tree → Prop := ShowsFields method.slots

/-- The draft of a method once the fields of these names are read. -/
def draft (method : Method) (names : List String) : Draft :=
  ⟨given names "name" method.name, given names "attributes" method.attributes,
    given names "body" method.body, given names "tags" method.tags.toList⟩

theorem follows (method : Method) : record.Follows method.slots method.draft where
  distinct := show ["name", "attributes", "body", "tags"].Nodup by decide
  blank := rfl
  takes := by
    refine .cons (Record.takes_bind method.name ?_ ?_ fun _ hnode _ => hnode.toText_eq)
      (.cons (Record.takes_bind method.attributes ?_ ?_ fun _ hnode hsound =>
          hnode.toList_eq hsound fun _ _ _ => Attribute.read_of_shown)
        (.cons (Record.takes_bind method.body ?_ ?_ fun _ hnode hsound =>
            hnode.toList_eq hsound fun _ _ _ hitem _ => Stmt.read_of_shown hitem)
          (.cons (Record.takes_bind method.tags.toList ?_ ?_ fun _ hnode hsound =>
            hnode.toStrings_eq hsound) .nil)))
    all_goals
      intro names
      simp +contextual [draft, given]

theorem read_of_shown {method : Method} {node : Tree} (hshown : method.Shown node)
    (hsound : node.fault? = none) : record.read node = .ok method := by
  refine Record.read_of_shows method.follows hshown hsound fun names hnames => ?_
  simp only [slots, List.forall_mem_cons, false_or] at hnames
  obtain ⟨hname, hattributes, hbody, htags, -⟩ := hnames
  simp [record, draft, given_of_mem hname, getD_given hattributes, getD_given hbody,
    getD_given htags, TagSet.ofList_toList]

theorem shown_toJson (method : Method) : method.Shown (tree method.toJson) := by
  have hname : Slot.Members ⟨"name", False, ShowsText method.name⟩
      [(.ok "name", .string (.ok method.name))] := .written rfl
  have hattributes : Slot.Members ⟨"attributes", method.attributes = [], _⟩ _ :=
    Json.members_optionalMember "attributes" fun attr _ => attr.shown_toJson
  have hbody : Slot.Members ⟨"body", method.body = [], ShowsList Stmt.Shown method.body⟩
      [(.ok "body", tree (.array (method.body.map Stmt.toJson)))] :=
    .written (Json.showsList_tree fun _ _ => rfl)
  have htags : Slot.Members ⟨"tags", method.tags.toList = [], _⟩ _ :=
    Json.members_optionalMember "tags" fun tag _ => showsText_tree tag
  have hshows := Json.showsFields_flatten method.slots
    (.cons hname (.cons hattributes (.cons hbody (.cons htags .nil))))
  simpa [Shown, toJson, tree, Json.memberTrees, Json.memberTrees_append] using hshows

end Method

/-! ## Types -/

namespace TypeDecl

/-- The fields of a type declaration. -/
def slots (decl : TypeDecl) : List Slot := [
  ⟨"id", False, ShowsText decl.id.name⟩,
  ⟨"base", decl.base = none, ShowsOption ShowsText (decl.base.map TypeId.name)⟩,
  ⟨"methods", decl.methods = [], ShowsList Method.Shown decl.methods⟩]

/-- A tree that shows a type declaration. -/
def Shown (decl : TypeDecl) : Tree → Prop := ShowsFields decl.slots

/-- The draft of a type declaration once the fields of these names are read. -/
def draft (decl : TypeDecl) (names : List String) : Draft :=
  ⟨given names "id" decl.id.name, given names "base" (decl.base.map TypeId.name),
    given names "methods" decl.methods⟩

theorem follows (decl : TypeDecl) : record.Follows decl.slots decl.draft where
  distinct := show ["id", "base", "methods"].Nodup by decide
  blank := rfl
  takes := by
    refine .cons (Record.takes_bind decl.id.name ?_ ?_ fun _ hnode _ => hnode.toText_eq)
      (.cons (Record.takes_bind (decl.base.map TypeId.name) ?_ ?_ fun _ hnode _ =>
          hnode.toOption_eq)
        (.cons (Record.takes_bind decl.methods ?_ ?_ fun _ hnode hsound =>
          hnode.toList_eq hsound fun _ _ _ => Method.read_of_shown) .nil))
    all_goals
      intro names
      simp +contextual [draft, given]

theorem read_of_shown {decl : TypeDecl} {node : Tree} (hshown : decl.Shown node)
    (hsound : node.fault? = none) : record.read node = .ok decl := by
  refine Record.read_of_shows decl.follows hshown hsound fun names hnames => ?_
  simp only [slots, List.forall_mem_cons, false_or] at hnames
  obtain ⟨hid, hbase, hmethods, -⟩ := hnames
  have hgiven : (given names "base" (decl.base.map TypeId.name)).getD none =
      decl.base.map TypeId.name := getD_given (hbase.imp_left fun h => by rw [h]; rfl)
  have hmade : (decl.base.map TypeId.name).map TypeId.mk = decl.base := by cases decl.base <;> rfl
  simp only [record, draft, given_of_mem hid, hgiven, hmade, getD_given hmethods]

theorem shown_toJson (decl : TypeDecl) : decl.Shown (tree decl.toJson) := by
  obtain ⟨id, base, methods⟩ := decl
  have hid : Slot.Members ⟨"id", False, ShowsText id.name⟩
      [(.ok "id", .string (.ok id.name))] := .written rfl
  have hmethods : Slot.Members ⟨"methods", methods = [], _⟩ _ :=
    Json.members_optionalMember "methods" fun method _ => method.shown_toJson
  cases base with
  | none =>
      have hshows := Json.showsFields_flatten (slots ⟨id, none, methods⟩)
        (.cons hid (.cons (.omitted rfl) (.cons hmethods .nil)))
      simpa [Shown, toJson, tree, Json.memberTrees] using hshows
  | some base =>
      have hbase : Slot.Members ⟨"base", some base = none, ShowsOption ShowsText (some base.name)⟩
          [(.ok "base", .string (.ok base.name))] := .written rfl
      have hshows := Json.showsFields_flatten (slots ⟨id, some base, methods⟩)
        (.cons hid (.cons hbase (.cons hmethods .nil)))
      simpa [Shown, toJson, tree, Json.memberTrees] using hshows

end TypeDecl

/-! ## Markers -/

namespace MarkerDecl

/-- The fields of a marker. -/
def slots (marker : MarkerDecl) : List Slot := [
  ⟨"kind", False, ShowsText marker.kind⟩,
  ⟨"args", marker.args = .null, fun node => node = tree marker.args⟩]

/-- A tree that shows a marker. -/
def Shown (marker : MarkerDecl) : Tree → Prop := ShowsFields marker.slots

/-- The draft of a marker once the fields of these names are read. -/
def draft (marker : MarkerDecl) (names : List String) : Draft :=
  ⟨given names "kind" marker.kind, given names "args" marker.args⟩

theorem follows {levels : Nat} {marker : MarkerDecl} (hargs : Fits levels marker.args) :
    (record levels).Follows marker.slots marker.draft where
  distinct := show ["kind", "args"].Nodup by decide
  blank := rfl
  takes := by
    refine .cons (Record.takes_bind marker.kind ?_ ?_ fun _ hnode _ => hnode.toText_eq)
      (.cons (Record.takes_bind marker.args ?_ ?_ ?_) .nil)
    case refine_5 =>
      rintro _ rfl -
      exact Json.toJson_tree levels marker.args hargs
    all_goals
      intro names
      simp +contextual [draft, given]

theorem read_of_shown {levels : Nat} {marker : MarkerDecl} (hargs : Fits levels marker.args)
    {node : Tree} (hshown : marker.Shown node) (hsound : node.fault? = none) :
    (record levels).read node = .ok marker := by
  refine Record.read_of_shows (follows hargs) hshown hsound fun names hnames => ?_
  simp only [slots, List.forall_mem_cons, false_or] at hnames
  obtain ⟨hkind, hdefault, -⟩ := hnames
  simp [record, draft, given_of_mem hkind, getD_given hdefault]

theorem shown_toJson (marker : MarkerDecl) : marker.Shown (tree marker.toJson) := by
  have hkind : Slot.Members ⟨"kind", False, ShowsText marker.kind⟩
      [(.ok "kind", .string (.ok marker.kind))] := .written rfl
  have hargs : Slot.Members ⟨"args", marker.args = .null, fun node => node = tree marker.args⟩
      [(.ok "args", tree marker.args)] := .written rfl
  exact Json.showsFields_flatten marker.slots (.cons hkind (.cons hargs .nil))

end MarkerDecl

/-! ## Programs -/

namespace Program

/-- The fields of a program. -/
def slots (program : Program) : List Slot := [
  ⟨"name", False, ShowsText program.name⟩,
  ⟨"markers", program.markers = [], ShowsList MarkerDecl.Shown program.markers⟩,
  ⟨"types", program.types.toList = [], ShowsList TypeDecl.Shown program.types.toList⟩]

/-- A tree that shows a program. -/
def Shown (program : Program) : Tree → Prop := ShowsFields program.slots

/-- The draft of a program once the fields of these names are read. -/
def draft (program : Program) (names : List String) : Draft :=
  ⟨given names "name" program.name, given names "markers" program.markers,
    given names "types" program.types.toList⟩

theorem follows {program : Program}
    (hargs : ∀ marker ∈ program.markers, Fits (Json.maxLevels - 3) marker.args) :
    record.Follows program.slots program.draft where
  distinct := show ["name", "markers", "types"].Nodup by decide
  blank := rfl
  takes := by
    refine .cons (Record.takes_bind program.name ?_ ?_ fun _ hnode _ => hnode.toText_eq)
      (.cons (Record.takes_bind program.markers ?_ ?_ fun _ hnode hsound =>
          hnode.toList_eq hsound fun marker hmarker _ =>
            MarkerDecl.read_of_shown (hargs marker hmarker))
        (.cons (Record.takes_bind program.types.toList ?_ ?_ fun _ hnode hsound =>
          hnode.toList_eq hsound fun _ _ _ => TypeDecl.read_of_shown) .nil))
    all_goals
      intro names
      simp +contextual [draft, given]

/-- A program is read from every tree that shows it, if the arguments of its markers fit the
levels that are left for them. -/
theorem read_of_shown {program : Program}
    (hargs : ∀ marker ∈ program.markers, Fits (Json.maxLevels - 3) marker.args) {node : Tree}
    (hshown : program.Shown node) (hsound : node.fault? = none) :
    record.read node = .ok program := by
  refine Record.read_of_shows (follows hargs) hshown hsound fun names hnames => ?_
  simp only [slots, List.forall_mem_cons, false_or] at hnames
  obtain ⟨hname, hmarkers, htypes, -⟩ := hnames
  simp [record, draft, given_of_mem hname, getD_given hmarkers, getD_given htypes,
    TypeTable.ofList_toList]

/-- What is written for a program shows it. -/
theorem shown_toJson (program : Program) : program.Shown (tree program.toJson) := by
  have hname : Slot.Members ⟨"name", False, ShowsText program.name⟩
      [(.ok "name", .string (.ok program.name))] := .written rfl
  have hmarkers : Slot.Members ⟨"markers", program.markers = [], _⟩ _ :=
    Json.members_optionalMember "markers" fun marker _ => marker.shown_toJson
  have htypes : Slot.Members ⟨"types", program.types.toList = [], ShowsList TypeDecl.Shown _⟩
      [(.ok "types", tree (.array (program.types.toList.map TypeDecl.toJson)))] :=
    .written (Json.showsList_tree fun decl _ => decl.shown_toJson)
  have hshows := Json.showsFields_flatten program.slots
    (.cons hname (.cons hmarkers (.cons htypes .nil)))
  simpa [Shown, toJson, tree, Json.memberTrees, Json.memberTrees_append] using hshows

end Program

end EditPipeline
