import EditPipeline.Proofs.Breaking.Marking
import EditPipeline.Proofs.Resolution
import EditPipeline.Proofs.Success

/-!
# Which markers are accepted

Whether the host accepts a declaration, and what it blames if it does not, is told here
without the code that looks: `BreakOn.Accepts` says what a good declaration is, and each
constructor of `BreakOn.Refuses` is one way to be a bad one, together with the error for it.
The host follows them exactly (`Host.validates`).

* The two passes over the list of types, one that reads the names and one that looks them up,
  give the first of them precedence: an entry that is no string is blamed before any type is
  looked up (`names?_eq_none_iff`), and among types the first bad one is blamed
  (`checkTypes_eq_error_iff`).
* Among declarations the first bad one is blamed (`Registry.resolveAll_eq_error_iff`).

An accepted declaration becomes a marker, and `Marker.Tracks` says what this one is good for, by
what its editor does to a program.
-/

namespace EditPipeline

/-! ## The first fault -/

section FirstFault

variable {α : Type} {good : α → Prop} {bad : Nat → α → Prop}

/-- Some element of the list is bad for its place, and all elements before it are good. -/
def FirstFault (good : α → Prop) (bad : Nat → α → Prop) (list : List α) : Prop :=
  ∃ before a after, list = before ++ a :: after ∧ (∀ earlier ∈ before, good earlier) ∧
    bad before.length a

theorem not_firstFault_nil : ¬ FirstFault good bad [] := by
  rintro ⟨before, a, after, hsplit, -⟩
  cases before <;> cases hsplit

theorem firstFault_cons {a : α} {rest : List α} :
    FirstFault good bad (a :: rest) ↔
      bad 0 a ∨ good a ∧ FirstFault good (fun index => bad (index + 1)) rest := by
  constructor
  · rintro ⟨before, fault, after, hsplit, hbefore, hbad⟩
    cases before with
    | nil =>
        obtain ⟨rfl, -⟩ := List.cons.inj hsplit
        exact .inl hbad
    | cons first before =>
        obtain ⟨rfl, hrest⟩ := List.cons.inj hsplit
        obtain ⟨hfirst, hbefore⟩ := List.forall_mem_cons.1 hbefore
        exact .inr ⟨hfirst, before, fault, after, hrest, hbefore, hbad⟩
  · rintro (hbad | ⟨hgood, before, fault, after, rfl, hbefore, hbad⟩)
    · exact ⟨[], a, rest, rfl, List.forall_mem_nil _, hbad⟩
    · exact ⟨a :: before, fault, after, rfl, List.forall_mem_cons.2 ⟨hgood, hbefore⟩, hbad⟩

end FirstFault

/-! ## Partners of all elements -/

section Partners

variable {α β γ : Type} {R : α → β → Prop} {list : List α}

theorem exists_forall₂_iff :
    (∃ partners, List.Forall₂ R list partners) ↔ ∀ a ∈ list, ∃ b, R a b := by
  induction list with
  | nil => exact iff_of_true ⟨[], .nil⟩ (List.forall_mem_nil _)
  | cons a rest ih =>
      rw [List.forall_mem_cons, ← ih]
      constructor
      · rintro ⟨_, hcons⟩
        cases hcons with
        | @cons _ b _ partners hb hrest => exact ⟨⟨b, hb⟩, partners, hrest⟩
      · rintro ⟨⟨b, hb⟩, partners, hrest⟩
        exact ⟨b :: partners, .cons hb hrest⟩

theorem forall₂_map_iff {f : β → γ} {images : List γ} :
    List.Forall₂ (fun a c => ∃ b, R a b ∧ f b = c) list images ↔
      ∃ partners, List.Forall₂ R list partners ∧ partners.map f = images := by
  constructor
  · intro hall
    induction hall with
    | nil => exact ⟨[], .nil, rfl⟩
    | cons hfirst _ ih =>
        obtain ⟨b, hb, rfl⟩ := hfirst
        obtain ⟨partners, hpartners, rfl⟩ := ih
        exact ⟨b :: partners, .cons hb hpartners, rfl⟩
  · rintro ⟨partners, hpartners, rfl⟩
    exact List.forall₂_map_right_iff.2 (hpartners.imp fun _ b hb => ⟨b, hb, rfl⟩)

end Partners

/-- A registry blames the first declaration that it does not resolve. -/
theorem Registry.resolveAll_eq_error_iff {μ : Type} {registry : Registry μ} {types : TypeTable}
    {error : ValidationError} {decls : List MarkerDecl} :
    registry.resolveAll types decls = .error error ↔
      FirstFault (fun decl => ∃ marker, registry.resolveOne decl types = .ok marker)
        (fun _ decl => registry.resolveOne decl types = .error error) decls := by
  induction decls with
  | nil => exact iff_of_false nofun not_firstFault_nil
  | cons decl rest ih =>
      rw [resolveAll, firstFault_cons, ← ih]
      cases registry.resolveOne decl types with
      | error refused => simp
      | ok marker => cases registry.resolveAll types rest <;> simp [Except.map]

namespace BreakOn

/-! ## What is accepted and what is not -/

/-- The arguments of the declaration are an object that has this value under `types`. -/
def Lists (decl : MarkerDecl) (value : Json) : Prop :=
  ∃ members, decl.args = .object members ∧ members.lookup "types" = some value

/-- Types as the list of their names. -/
def names (types : List TypeId) : Json := .array (types.map fun type => .string type.name)

/-- The declaration asks for debugger breaks and lists these types, at least one and all of
them marker types. -/
structure Accepts (table : TypeTable) (decl : MarkerDecl) (types : List TypeId) : Prop where
  kind : decl.kind = "break-on"
  lists : Lists decl (names types)
  nonempty : types ≠ []
  markers : ∀ type ∈ types, table.IsMarkerType type

/-- The ways to be refused, each with its error. -/
inductive Refuses (table : TypeTable) (decl : MarkerDecl) : ValidationError → Prop where
  /-- There are no other kinds, whatever the arguments are. -/
  | unknownKind (hkind : decl.kind ≠ "break-on") :
      Refuses table decl (.unknownKind decl.kind ["break-on"])
  /-- Nothing but a `null` is listed; in particular if the arguments are no object. -/
  | missing (hkind : decl.kind = "break-on") (hlists : ∀ value, Lists decl value → value = .null) :
      Refuses table decl (.missingPayload "break-on" "types")
  /-- What is listed is no array. -/
  | noArray {value : Json} (hkind : decl.kind = "break-on") (hlists : Lists decl value)
      (hnull : value ≠ .null) (harray : ∀ items, value ≠ .array items) :
      Refuses table decl (.invalidPayload "break-on" "'types' must be an array of type names")
  /-- Some item is no string, whatever the other ones name. -/
  | noString {items : List Json} (hkind : decl.kind = "break-on")
      (hlists : Lists decl (.array items)) (hitem : ∃ item ∈ items, ∀ name, item ≠ .string name) :
      Refuses table decl (.invalidPayload "break-on" "'types' entries must be strings")
  /-- No type is listed. -/
  | empty (hkind : decl.kind = "break-on") (hlists : Lists decl (.array [])) :
      Refuses table decl (.empty "break-on" "marker type")
  /-- The first type that is no marker type is not known at all. -/
  | unknownType {before after : List TypeId} {type : TypeId} (hkind : decl.kind = "break-on")
      (hlists : Lists decl (names (before ++ type :: after)))
      (hbefore : ∀ earlier ∈ before, table.IsMarkerType earlier) (hroot : type ≠ .attributeRoot)
      (hundeclared : table.declares type = false) :
      Refuses table decl (.unknownType "break-on" "types" before.length type)
  /-- The first type that is no marker type is known. -/
  | notAMarkerType {before after : List TypeId} {type : TypeId} (hkind : decl.kind = "break-on")
      (hlists : Lists decl (names (before ++ type :: after)))
      (hbefore : ∀ earlier ∈ before, table.IsMarkerType earlier)
      (hknown : type = .attributeRoot ∨ table.declares type = true)
      (htype : ¬ table.IsMarkerType type) :
      Refuses table decl (.notAMarkerType "break-on" "types" before.length type)

/-! ## The two passes over the list -/

theorem lists_iff {decl : MarkerDecl} {value : Json} :
    Lists decl value ↔ decl.args.get? field = some value := by
  unfold Lists
  cases decl.args with
  | object members => simp [Json.get?, field]
  | _ => simp [Json.get?]

theorem Accepts.tracks {table : TypeTable} {decl : MarkerDecl} {types : List TypeId}
    (haccepts : Accepts table decl types) : Tracks decl types :=
  ⟨haccepts.kind, lists_iff.1 haccepts.lists⟩

theorem names?_strings (types : List TypeId) :
    names? (types.map fun type => .string type.name) = some types := by
  induction types with
  | nil => rfl
  | cons type rest ih =>
      rw [List.map_cons, names?, ih]
      rfl

theorem names?_eq_none_iff {items : List Json} :
    names? items = none ↔ ∃ item ∈ items, ∀ name, item ≠ .string name := by
  fun_induction names? items with
  | case1 => simp
  | case2 name rest ih => simp [ih]
  | case3 item rest hitem =>
      exact iff_of_true rfl ⟨item, List.mem_cons_self, fun name h => hitem name h⟩

section Types

variable {table : TypeTable} {type : TypeId} {types : List TypeId} {start : Nat}

/-- What is said of an entry that names no marker type. -/
def blame (table : TypeTable) (index : Nat) (type : TypeId) : ValidationError :=
  if table.contains type then .notAMarkerType kind field index type
  else .unknownType kind field index type

theorem contains_of_isMarkerType (htype : table.IsMarkerType type) :
    table.contains type = true :=
  TypeTable.contains_eq_true_iff.2 (htype.imp_right And.left)

theorem checkTypes_cons_of_marker (htype : table.IsMarkerType type) :
    checkTypes table start (type :: types) = checkTypes table (start + 1) types := by
  rw [checkTypes, if_pos (contains_of_isMarkerType htype),
    if_pos (TypeTable.isAttribute_eq_true_iff.2 htype)]

theorem checkTypes_cons_of_not_marker (htype : ¬ table.IsMarkerType type) :
    checkTypes table start (type :: types) = .error (blame table start type) := by
  rw [checkTypes, if_neg (mt TypeTable.isAttribute_eq_true_iff.1 htype), blame]
  split <;> rfl

theorem checkTypes_eq_ok_iff :
    checkTypes table start types = .ok () ↔ ∀ type ∈ types, table.IsMarkerType type := by
  induction types generalizing start with
  | nil => exact iff_of_true rfl (List.forall_mem_nil _)
  | cons type rest ih =>
      rw [List.forall_mem_cons]
      by_cases htype : table.IsMarkerType type
      · rw [checkTypes_cons_of_marker htype, ih, and_iff_right htype]
      · rw [checkTypes_cons_of_not_marker htype]
        exact iff_of_false nofun fun hall => htype hall.1

/-- The first type that is no marker type is blamed. -/
theorem checkTypes_eq_error_iff {error : ValidationError} :
    checkTypes table start types = .error error ↔
      FirstFault table.IsMarkerType
        (fun index type => ¬ table.IsMarkerType type ∧ blame table (start + index) type = error)
        types := by
  induction types generalizing start with
  | nil => exact iff_of_false nofun not_firstFault_nil
  | cons type rest ih =>
      rw [firstFault_cons]
      by_cases htype : table.IsMarkerType type
      · rw [checkTypes_cons_of_marker htype, ih]
        simp only [htype, not_true, false_and, false_or, true_and, Nat.add_assoc,
          Nat.add_comm 1]
      · rw [checkTypes_cons_of_not_marker htype]
        simp [htype]

theorem ofTypes_eq_ok_iff {marker : BreakOn} :
    ofTypes types table = .ok marker ↔
      marker.types = types ∧ types ≠ [] ∧ ∀ type ∈ types, table.IsMarkerType type := by
  have hchecks : checkTypes table 0 types = .ok () ↔ _ := checkTypes_eq_ok_iff
  rw [← hchecks, ofTypes]
  cases types with
  | nil => simp
  | cons type rest =>
      rw [if_neg (by simp)]
      cases checkTypes table 0 (type :: rest) with
      | error error => simp [Except.map]
      | ok done =>
          obtain ⟨tracked⟩ := marker
          simp [Except.map, eq_comm]

theorem ofTypes_eq_error_iff {error : ValidationError} :
    ofTypes types table = .error error ↔
      types = [] ∧ .empty kind "marker type" = error ∨ checkTypes table 0 types = .error error := by
  rw [ofTypes]
  cases types with
  | nil => simp [checkTypes]
  | cons type rest =>
      rw [if_neg (by simp)]
      cases checkTypes table 0 (type :: rest) <;> simp [Except.map]

end Types

/-! ## One declaration -/

section Declaration

variable {table : TypeTable} {decl : MarkerDecl} {types : List TypeId} {items : List Json}

theorem ofDecl_of_names (hlists : Lists decl (names types)) :
    ofDecl decl table = ofTypes types table := by
  rw [ofDecl, lists_iff.1 hlists, names]
  simp only [names?_strings]

theorem ofDecl_of_noString (hlists : Lists decl (.array items))
    (hitem : ∃ item ∈ items, ∀ name, item ≠ .string name) :
    ofDecl decl table = .error (.invalidPayload kind "'types' entries must be strings") := by
  rw [ofDecl, lists_iff.1 hlists]
  simp only [names?_eq_none_iff.2 hitem]

theorem ofDecl_of_noArray {value : Json} (hlists : Lists decl value) (hnull : value ≠ .null)
    (harray : ∀ items, value ≠ .array items) :
    ofDecl decl table =
      .error (.invalidPayload kind "'types' must be an array of type names") := by
  rw [ofDecl, lists_iff.1 hlists]
  cases value with
  | null => exact absurd rfl hnull
  | array items => exact absurd rfl (harray items)
  | _ => rfl

theorem ofDecl_of_missing (hlists : ∀ value, Lists decl value → value = .null) :
    ofDecl decl table = .error (.missingPayload kind field) := by
  rw [ofDecl]
  cases hvalue : decl.args.get? field with
  | none => rfl
  | some value =>
      obtain rfl := hlists value (lists_iff.2 hvalue)
      rfl

/-- What the arguments of a declaration can be. -/
theorem args_cases (decl : MarkerDecl) :
    (∀ value, Lists decl value → value = .null) ∨
      (∃ value, Lists decl value ∧ value ≠ .null ∧ ∀ items, value ≠ .array items) ∨
      (∃ items, Lists decl (.array items) ∧ ∃ item ∈ items, ∀ name, item ≠ .string name) ∨
      ∃ types, Lists decl (names types) := by
  cases hvalue : decl.args.get? field with
  | none =>
      refine .inl fun value hlists => ?_
      rw [lists_iff, hvalue] at hlists
      cases hlists
  | some value =>
      have hlists : Lists decl value := lists_iff.2 hvalue
      by_cases hnull : value = .null
      · refine .inl fun other hother => ?_
        rw [lists_iff, hvalue] at hother
        exact (Option.some.inj hother).symm.trans hnull
      by_cases harray : ∃ items, value = .array items
      · obtain ⟨items, rfl⟩ := harray
        cases hnames : names? items with
        | none => exact .inr (.inr (.inl ⟨items, hlists, names?_eq_none_iff.1 hnames⟩))
        | some types =>
            rw [names?_eq_some hnames] at hlists
            exact .inr (.inr (.inr ⟨types, hlists⟩))
      · exact .inr (.inl ⟨value, hlists, hnull, fun items h => harray ⟨items, h⟩⟩)

theorem accepts_of_ofDecl {marker : BreakOn} (hkind : decl.kind = kind)
    (hmarker : ofDecl decl table = .ok marker) : Accepts table decl marker.types := by
  obtain hmissing | ⟨value, hlists, hnull, harray⟩ | ⟨items, hlists, hitem⟩ | ⟨types, hlists⟩ :=
    args_cases decl
  · rw [ofDecl_of_missing hmissing] at hmarker
    cases hmarker
  · rw [ofDecl_of_noArray hlists hnull harray] at hmarker
    cases hmarker
  · rw [ofDecl_of_noString hlists hitem] at hmarker
    cases hmarker
  · rw [ofDecl_of_names hlists, ofTypes_eq_ok_iff] at hmarker
    obtain ⟨rfl, hnonempty, hmarkers⟩ := hmarker
    exact ⟨hkind, hlists, hnonempty, hmarkers⟩

theorem ofDecl_of_accepts (haccepts : Accepts table decl types) :
    ofDecl decl table = .ok ⟨types⟩ := by
  rw [ofDecl_of_names haccepts.lists]
  exact ofTypes_eq_ok_iff.2 ⟨rfl, haccepts.nonempty, haccepts.markers⟩

theorem refuses_of_ofDecl {error : ValidationError} (hkind : decl.kind = kind)
    (herror : ofDecl decl table = .error error) : Refuses table decl error := by
  obtain hmissing | ⟨value, hlists, hnull, harray⟩ | ⟨items, hlists, hitem⟩ | ⟨types, hlists⟩ :=
    args_cases decl
  · rw [ofDecl_of_missing hmissing] at herror
    cases herror
    exact .missing hkind hmissing
  · rw [ofDecl_of_noArray hlists hnull harray] at herror
    cases herror
    exact .noArray hkind hlists hnull harray
  · rw [ofDecl_of_noString hlists hitem] at herror
    cases herror
    exact .noString hkind hlists hitem
  · rw [ofDecl_of_names hlists, ofTypes_eq_error_iff, checkTypes_eq_error_iff] at herror
    obtain ⟨rfl, rfl⟩ | ⟨before, type, after, rfl, hbefore, htype, rfl⟩ := herror
    · exact .empty hkind hlists
    · rw [Nat.zero_add, blame]
      split
      · rename_i hknown
        exact .notAMarkerType hkind hlists hbefore (TypeTable.contains_eq_true_iff.1 hknown) htype
      · rename_i hunknown
        rw [TypeTable.contains_eq_true_iff, not_or, Bool.not_eq_true] at hunknown
        exact .unknownType hkind hlists hbefore hunknown.1 hunknown.2

/-- The error of a list of types whose first fault follows `before`. -/
theorem ofDecl_of_fault {before after : List TypeId} {type : TypeId}
    (hlists : Lists decl (names (before ++ type :: after)))
    (hbefore : ∀ earlier ∈ before, table.IsMarkerType earlier) (htype : ¬ table.IsMarkerType type) :
    ofDecl decl table = .error (blame table before.length type) := by
  rw [ofDecl_of_names hlists]
  refine ofTypes_eq_error_iff.2 (.inr (checkTypes_eq_error_iff.2 ?_))
  exact ⟨before, type, after, rfl, hbefore, htype, by rw [Nat.zero_add]⟩

theorem ofDecl_of_refuses {error : ValidationError} (hkind : decl.kind = kind)
    (hrefuses : Refuses table decl error) : ofDecl decl table = .error error := by
  cases hrefuses with
  | unknownKind hother => exact absurd hkind hother
  | missing _ hmissing => exact ofDecl_of_missing hmissing
  | noArray _ hlists hnull harray => exact ofDecl_of_noArray hlists hnull harray
  | noString _ hlists hitem => exact ofDecl_of_noString hlists hitem
  | empty _ hlists => exact ofDecl_of_names (show Lists decl (names []) from hlists)
  | @unknownType before after type _ hlists hbefore hroot hundeclared =>
      have hunknown : table.contains type ≠ true := by
        rw [ne_eq, TypeTable.contains_eq_true_iff, not_or, hundeclared]
        exact ⟨hroot, nofun⟩
      rw [ofDecl_of_fault hlists hbefore (mt contains_of_isMarkerType hunknown), blame,
        if_neg hunknown]
      rfl
  | @notAMarkerType before after type _ hlists hbefore hknown htype =>
      rw [ofDecl_of_fault hlists hbefore htype, blame,
        if_pos (TypeTable.contains_eq_true_iff.2 hknown)]
      rfl

end Declaration

end BreakOn

/-! ## What the markers do -/

/-- The marker tracks these types, at any time.  It has one editor, which registers one edit,
and the edit touches what is decorated with one of the types. -/
structure Marker.Tracks {σ : Type} (marker : Marker σ) (types : List TypeId) : Prop where
  kind : marker.kind = "break-on"
  editors : ∀ shared, marker.editors shared = (.ok [Breaking.editor types], shared)
  name : (Breaking.editor types : Editor σ).name = "breaking"
  setUp : ∀ program shared, (Breaking.editor types : Editor σ).setUp program shared =
    ⟨.ok (), [], [Breaking.asEdit types], shared⟩
  edit : ∀ (program : Program) (outbox : Outbox) (shared : Shared σ),
    ∃ (next : Program) (emitted : List Diagnostic),
      Breaking.asEdit types program outbox shared = ⟨.ok next, emitted, shared⟩ ∧
      next.name = program.name ∧ next.markers = program.markers ∧
      List.Forall₂ (Breaking.TouchesDecl types) program.types.toList next.types.toList

theorem BreakOn.tracks_toMarker {σ : Type} (marker : BreakOn) :
    (marker.toMarker : Marker σ).Tracks marker.types where
  kind := rfl
  editors _ := rfl
  name := rfl
  setUp _ _ := rfl
  edit program outbox shared := by
    refine ⟨(Breaking.edit marker.types program).1,
      [(Breaking.edit marker.types program).2.diagnostic], rfl, ?_⟩
    rw [Breaking.edit_eq]
    exact ⟨rfl, rfl, Breaking.forall₂_touchesDecl marker.types program⟩

/-! ## The host -/

namespace Host

variable {σ : Type} {decl : MarkerDecl} {table : TypeTable}

theorem resolveOne_eq_ok_iff {marker : Marker σ} :
    (registry σ).resolveOne decl table = .ok marker ↔
      ∃ types, BreakOn.Accepts table decl types ∧ (⟨types⟩ : BreakOn).toMarker = marker := by
  rw [resolveOne_eq]
  constructor
  · intro hmarker
    split at hmarker
    · rename_i hkind
      obtain ⟨accepted, haccepted, rfl⟩ := map_eq_ok_iff.1 hmarker
      exact ⟨accepted.types, BreakOn.accepts_of_ofDecl hkind haccepted, rfl⟩
    · cases hmarker
  · rintro ⟨types, haccepts, rfl⟩
    rw [if_pos (show decl.kind = BreakOn.kind from haccepts.kind),
      BreakOn.ofDecl_of_accepts haccepts]
    rfl

theorem resolveOne_eq_error_iff {error : ValidationError} :
    (registry σ).resolveOne decl table = .error error ↔ BreakOn.Refuses table decl error := by
  rw [resolveOne_eq]
  by_cases hkind : decl.kind = BreakOn.kind
  · rw [if_pos hkind]
    constructor
    · intro herror
      refine BreakOn.refuses_of_ofDecl hkind ?_
      cases hdecl : BreakOn.ofDecl decl table <;> simp_all [Except.map]
    · intro hrefuses
      rw [BreakOn.ofDecl_of_refuses hkind hrefuses]
      rfl
  · rw [if_neg hkind]
    constructor
    · intro herror
      cases herror
      exact .unknownKind hkind
    · intro hrefuses
      cases hrefuses with
      | unknownKind => rfl
      | _ => exact absurd ‹decl.kind = "break-on"› hkind

theorem resolve_eq_ok_iff {program : Program} {markers : List (Marker σ)} :
    resolve σ program = .ok markers ↔
      ∃ lists, List.Forall₂ (BreakOn.Accepts program.types) program.markers lists ∧
        lists.map (fun types => (⟨types⟩ : BreakOn).toMarker) = markers := by
  rw [resolve, Registry.resolve, Registry.resolveAll_eq_ok_iff, ← forall₂_map_iff]
  simp only [resolveOne_eq_ok_iff]

/-- Each of the markers tracks the types that its declaration lists. -/
theorem tracks_of_resolve {program : Program} {markers : List (Marker σ)}
    (hresolved : resolve σ program = .ok markers) :
    ∃ lists, List.Forall₂ (BreakOn.Accepts program.types) program.markers lists ∧
      List.Forall₂ Marker.Tracks markers lists ∧
      lists.map (fun types => (⟨types⟩ : BreakOn).toMarker) = markers := by
  obtain ⟨lists, haccepts, rfl⟩ := resolve_eq_ok_iff.1 hresolved
  refine ⟨lists, haccepts, ?_, rfl⟩
  rw [List.forall₂_map_left_iff, List.forall₂_same]
  exact fun types _ => BreakOn.tracks_toMarker ⟨types⟩

/-- The markers of a program are those of a list of `BreakOn`s, one for each declaration. -/
theorem resolve_eq_ok {program : Program} {markers : List (Marker σ)}
    (hresolved : resolve σ program = .ok markers) :
    ∃ breaks : List BreakOn, markers = breaks.map BreakOn.toMarker ∧
      List.Forall₂ BreakOn.Tracks program.markers (breaks.map BreakOn.types) := by
  obtain ⟨lists, haccepts, rfl⟩ := resolve_eq_ok_iff.1 hresolved
  refine ⟨lists.map BreakOn.mk, by rw [List.map_map]; rfl, ?_⟩
  rw [List.map_map, show BreakOn.types ∘ BreakOn.mk = id from rfl, List.map_id]
  exact haccepts.imp fun _ _ haccepted => haccepted.tracks

/-! ## Main statement -/

/-- **The host accepts exactly the valid markers, and blames the first other one.**  It
resolves a program if and only if each of its declarations is accepted; the markers are then
those of the lists of types that the declarations name, in order, and each of them tracks its
list.  Otherwise the error is that of the first declaration that is not accepted. -/
theorem validates (σ : Type) (program : Program) :
    ((∃ markers, resolve σ program = .ok markers) ↔
      ∀ decl ∈ program.markers, ∃ types, BreakOn.Accepts program.types decl types) ∧
    (∀ markers : List (Marker σ), resolve σ program = .ok markers ↔
      ∃ lists, List.Forall₂ (BreakOn.Accepts program.types) program.markers lists ∧
        List.Forall₂ Marker.Tracks markers lists ∧
        lists.map (fun types => (⟨types⟩ : BreakOn).toMarker) = markers) ∧
    ∀ error, resolve σ program = .error error ↔
      FirstFault (fun decl => ∃ types, BreakOn.Accepts program.types decl types)
        (fun _ decl => BreakOn.Refuses program.types decl error) program.markers := by
  refine ⟨?_, fun markers => ⟨tracks_of_resolve, ?_⟩, fun error => ?_⟩
  · rw [← exists_forall₂_iff]
    constructor
    · rintro ⟨markers, hresolved⟩
      obtain ⟨lists, hlists, -⟩ := resolve_eq_ok_iff.1 hresolved
      exact ⟨lists, hlists⟩
    · rintro ⟨lists, hlists⟩
      exact ⟨_, resolve_eq_ok_iff.2 ⟨lists, hlists, rfl⟩⟩
  · rintro ⟨lists, haccepts, -, hmarkers⟩
    exact resolve_eq_ok_iff.2 ⟨lists, haccepts, hmarkers⟩
  · have hgood (decl : MarkerDecl) :
        (∃ marker, (registry σ).resolveOne decl program.types = .ok marker) ↔
          ∃ types, BreakOn.Accepts program.types decl types := by
      simp only [resolveOne_eq_ok_iff]
      constructor
      · rintro ⟨_, types, haccepts, -⟩
        exact ⟨types, haccepts⟩
      · rintro ⟨types, haccepts⟩
        exact ⟨_, types, haccepts, rfl⟩
    rw [resolve, Registry.resolve, Registry.resolveAll_eq_error_iff]
    simp only [hgood, resolveOne_eq_error_iff]

/-- An entry that is no string is blamed before a type that is not known. -/
example :
    let decl : MarkerDecl :=
      { kind := "break-on", args := .object [("types", .array [.string "Unknown", .null])] }
    resolve Unit { name := "Demo", markers := [decl] } =
      .error (.invalidPayload "break-on" "'types' entries must be strings") := rfl

end Host

end EditPipeline
