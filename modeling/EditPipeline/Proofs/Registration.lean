import EditPipeline.Proofs.Keyed
import EditPipeline.Proofs.Validation

/-!
# What a registry makes of its registrations

A kind may be registered more than once.  The first registration gives it its place in the
listing; the last one gives it the description that is listed and the factory that is asked.
`Registry.settled` says so of every sequence of registrations.

A registry is asked about a whole program by asking about one declaration after the other
(`Registry.resolveOne_ofCalls`), up to the first that is refused: by the factory of its kind, or
because its kind was never registered.  In the second case the error lists the kinds as the
registry does.
-/

namespace EditPipeline

variable {μ : Type}

namespace Registry

/-- The registry after these registrations, one after the other. -/
def ofCalls (calls : List (Registration μ)) : Registry μ :=
  calls.foldl (fun registry call =>
    registry.register call.kind call.description call.factory) {}

/-- The registration of a kind that came last. -/
def latest (kind : String) (calls : List (Registration μ)) : Option (Registration μ) :=
  Keyed.latest Registration.kind kind calls

/-- The kind of the declaration is registered, and the factory that was registered for it last
makes this marker. -/
def Makes (calls : List (Registration μ)) (types : TypeTable) (decl : MarkerDecl)
    (marker : μ) : Prop :=
  ∃ call, latest decl.kind calls = some call ∧ call.factory decl types = .ok marker

/-- Whatever was registered before, the entries keep first places and last registrations. -/
theorem settled (calls : List (Registration μ)) :
    Keyed.Settled Registration.kind (ofCalls calls).entries calls := by
  have hentries : (ofCalls calls).entries =
      calls.foldl (fun held call => Keyed.put Registration.kind call held) [] :=
    (List.foldl_hom Registry.entries fun registry call => rfl).symm
  rw [hentries]
  exact .foldl calls

variable (calls : List (Registration μ))

theorem map_fst_kinds (registry : Registry μ) :
    registry.kinds.map Prod.fst = registry.entries.map Registration.kind :=
  List.map_map

theorem mem_kinds_ofCalls {kind description : String} :
    (kind, description) ∈ (ofCalls calls).kinds ↔
      ∃ call, latest kind calls = some call ∧ call.description = description := by
  rw [kinds, List.mem_map]
  constructor
  · rintro ⟨call, hcall, hentry⟩
    obtain ⟨rfl, rfl⟩ := Prod.mk.inj hentry
    exact ⟨call, (settled calls).mem_iff.1 hcall, rfl⟩
  · rintro ⟨call, hlatest, rfl⟩
    have hfound : (ofCalls calls).entries.find? (fun entry => entry.kind = kind) = some call :=
      ((settled calls).last kind).trans hlatest
    obtain ⟨hcall, rfl⟩ := (Keyed.find?_eq_some_iff (settled calls).nodup).1 hfound
    exact ⟨call, hcall, rfl⟩

/-- A declaration is put to the factory that was registered last for its kind. -/
theorem resolveOne_ofCalls (decl : MarkerDecl) (types : TypeTable) :
    (ofCalls calls).resolveOne decl types =
      match latest decl.kind calls with
      | some call => call.factory decl types
      | none => .error (.unknownKind decl.kind ((ofCalls calls).kinds.map Prod.fst)) := by
  have hfind : (ofCalls calls).find? decl.kind = latest decl.kind calls :=
    (settled calls).last decl.kind
  rw [resolveOne, hfind]
  cases latest decl.kind calls <;> rfl

theorem makes_iff {types : TypeTable} {decl : MarkerDecl} {marker : μ} :
    Makes calls types decl marker ↔ (ofCalls calls).resolveOne decl types = .ok marker := by
  rw [resolveOne_ofCalls, Makes]
  cases latest decl.kind calls <;> simp

/-! ## Main statement -/

/-- **The last registration of a kind counts, in the place of the first one.**  The listing has
each registered kind once, in the order of the first registrations and with the last
description.  A program is resolved exactly if for every declaration the factory that was
registered last for its kind accepts it, and the markers are those that these factories made, one
for each declaration, in order.  Otherwise the error is that of the first declaration that is
refused; a kind that was never registered is named with all that were, as they are listed. -/
theorem resolves_by_latest (calls : List (Registration μ)) (program : Program) :
    let registry := ofCalls calls
    let kinds := registry.kinds.map Prod.fst
    (kinds = (calls.map Registration.kind).eraseDups ∧ kinds.Nodup ∧
      ∀ kind description, (kind, description) ∈ registry.kinds ↔
        ∃ call, latest kind calls = some call ∧ call.description = description) ∧
    ((∃ markers, registry.resolve program = .ok markers) ↔
      ∀ decl ∈ program.markers, ∃ marker, Makes calls program.types decl marker) ∧
    (∀ markers, registry.resolve program = .ok markers ↔
      List.Forall₂ (Makes calls program.types) program.markers markers) ∧
    (∀ error, registry.resolve program = .error error ↔
      FirstFault (fun decl => ∃ marker, Makes calls program.types decl marker)
        (fun _ decl => registry.resolveOne decl program.types = .error error) program.markers) ∧
    (∀ decl types, registry.resolveOne decl types =
      match latest decl.kind calls with
      | some call => call.factory decl types
      | none => .error (.unknownKind decl.kind kinds)) ∧
    ∀ kind, (ValidationError.unknownKind kind kinds).message =
        "unknown marker kind '" ++ kind ++ "'" ∧
      (ValidationError.unknownKind kind kinds).help? =
        some ("registered marker kinds: " ++ ", ".intercalate kinds) := by
  dsimp only
  have hmakes (decl : MarkerDecl) (marker : μ) :
      Makes calls program.types decl marker ↔
        (ofCalls calls).resolveOne decl program.types = .ok marker := makes_iff calls
  have hresolve (markers : List μ) : (ofCalls calls).resolve program = .ok markers ↔
      List.Forall₂ (Makes calls program.types) program.markers markers := by
    rw [resolve, resolveAll_eq_ok_iff]
    simp only [← hmakes]
  refine ⟨⟨?_, ?_, fun kind description => mem_kinds_ofCalls calls⟩, ?_, hresolve, ?_,
    resolveOne_ofCalls calls, fun kind => ⟨rfl, rfl⟩⟩
  · rw [map_fst_kinds]
    exact (settled calls).keys
  · rw [map_fst_kinds]
    exact (settled calls).nodup
  · simp only [hresolve]
    exact exists_forall₂_iff
  · intro error
    rw [resolve, resolveAll_eq_error_iff]
    simp only [hmakes]

/-- Two kinds, one of them registered again with a factory that accepts. -/
def reregistered : List (Registration String) :=
  [⟨"a", "refuses", fun decl _ => .error (.empty decl.kind "types")⟩,
    ⟨"b", "accepts", fun decl _ => .ok ("the marker of " ++ decl.kind)⟩,
    ⟨"a", "accepts now", fun decl _ => .ok ("another marker of " ++ decl.kind)⟩]

/-- The second factory of a kind is asked, and the kind keeps the first place. -/
theorem latest_of_reregistered :
    (ofCalls reregistered).kinds = [("a", "accepts now"), ("b", "accepts")] ∧
    (ofCalls reregistered).resolve { name := "p", markers := [{ kind := "b" }, { kind := "a" }] } =
      .ok ["the marker of b", "another marker of a"] ∧
    (ofCalls reregistered).resolve
        { name := "p", markers := [{ kind := "b" }, { kind := "c" }, { kind := "d" }] } =
      .error (.unknownKind "c" ["a", "b"]) := by
  obtain ⟨-, -, hok, -⟩ := resolves_by_latest reregistered
    { name := "p", markers := [{ kind := "b" }, { kind := "a" }] }
  obtain ⟨-, -, -, herror, -⟩ := resolves_by_latest reregistered
    { name := "p", markers := [{ kind := "b" }, { kind := "c" }, { kind := "d" }] }
  refine ⟨rfl, (hok _).2 ?_, (herror _).2 ?_⟩
  · exact .cons ⟨_, rfl, rfl⟩ (.cons ⟨_, rfl, rfl⟩ .nil)
  · exact ⟨[{ kind := "b" }], { kind := "c" }, [{ kind := "d" }], rfl,
      List.forall_mem_singleton.2 ⟨_, _, rfl, rfl⟩, rfl⟩

end Registry

end EditPipeline
