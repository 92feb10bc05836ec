import EditPipeline.Pipeline

/-!
# What one step of a run changes

A run moves on by few steps: it looks for cancellation, tells a plugin, asks a
marker, initializes an editor, applies an edit.  For each of them this file says
which parts of the run it leaves alone and what it adds to the journal.

Of the journal mostly the *acts* matter: what the run itself does, in the order
of time.  Diagnostics and requests for cancellation are not acts; they come from
the code that is called, in between.
-/

namespace EditPipeline

/-! ## Acts and names -/

/-- Whether an event is something that the run itself did. -/
@[simp] def Event.isAct : Event → Bool
  | .phase .. => true
  | .poll _ => true
  | .discover .. => true
  | .setUp .. => true
  | .emit .. => false
  | .before .. => true
  | .edit .. => true
  | .after .. => true
  | .request => false

/-- Whether an event is something that a plugin heard. -/
@[simp] def Event.isHeard : Event → Bool
  | .phase .. => true
  | .before .. => true
  | .after .. => true
  | _ => false

/-- Whether an event is a call of a marker, an editor or an edit. -/
@[simp] def Event.isCall : Event → Bool
  | .discover .. => true
  | .setUp .. => true
  | .edit .. => true
  | _ => false

/-- Whether an event is a call of a marker, an editor or an edit, or of a hook
around an edit. -/
@[simp] def Event.isWork : Event → Bool
  | .discover .. => true
  | .setUp .. => true
  | .before .. => true
  | .edit .. => true
  | .after .. => true
  | _ => false

theorem Event.isAct_of_isCall (event : Event) (hcall : event.isCall = true) :
    event.isAct = true := by
  cases event <;> simp_all

theorem Event.isAct_of_isWork (event : Event) (hwork : event.isWork = true) :
    event.isAct = true := by
  cases event <;> simp_all

/-- Events that differ in a number only, counted from `start`. -/
def numbered (event : Nat → Event) (start count : Nat) : Journal :=
  (List.range' start count).map event

@[simp] theorem numbered_zero (event : Nat → Event) (start : Nat) :
    numbered event start 0 = [] := rfl

theorem numbered_succ (event : Nat → Event) (start count : Nat) :
    numbered event start (count + 1) = event start :: numbered event (start + 1) count := rfl

@[simp] theorem mem_numbered {event : Nat → Event} {start count : Nat} {other : Event} :
    other ∈ numbered event start count ↔
      ∃ index, start ≤ index ∧ index < start + count ∧ event index = other := by
  simp [numbered, List.mem_range'_1, and_assoc]

theorem forall_mem_numbered {event : Nat → Event} {P : Event → Prop}
    (hevent : ∀ index, P (event index)) {start count : Nat} :
    ∀ other ∈ numbered event start count, P other := by
  intro other hother
  obtain ⟨index, -, -, rfl⟩ := mem_numbered.1 hother
  exact hevent index

theorem filter_numbered_of_pos {event : Nat → Event} {keep : Event → Bool}
    (hkeep : ∀ index, keep (event index) = true) (start count : Nat) :
    (numbered event start count).filter keep = numbered event start count :=
  List.filter_eq_self.2 (forall_mem_numbered hkeep)

theorem filter_numbered_of_neg {event : Nat → Event} {keep : Event → Bool}
    (hkeep : ∀ index, keep (event index) = false) (start count : Nat) :
    (numbered event start count).filter keep = [] :=
  List.filter_eq_nil_iff.2 (forall_mem_numbered fun index => by simp [hkeep index])

/-- What no act is, no event is, if only acts can be. -/
theorem none_of_acts {journal : Journal} {is : Event → Bool}
    (hact : ∀ event, is event = true → event.isAct = true)
    (hnone : ∀ event ∈ journal.filter Event.isAct, is event = false) :
    ∀ event ∈ journal, is event = false := by
  intro event hevent
  cases his : is event with
  | false => rfl
  | true =>
      rw [← his]
      exact hnone event (List.mem_filter.2 ⟨hevent, hact event his⟩)

/-! ## Relays -/

/-- Each of the steps takes what the step before it gave, the first one takes
`first`, and the last one gives `last`. -/
def Relay {α : Type} : α → List (α × α) → α → Prop
  | first, [], last => last = first
  | first, (taken, given) :: rest, last => taken = first ∧ Relay given rest last

theorem Relay.append {α : Type} {first middle last : α} {steps more : List (α × α)}
    (hsteps : Relay first steps middle) (hmore : Relay middle more last) :
    Relay first (steps ++ more) last := by
  induction steps generalizing first with
  | nil =>
      obtain rfl : middle = first := hsteps
      exact hmore
  | cons step rest ih => exact ⟨hsteps.1, ih hsteps.2⟩

namespace Run

variable {σ π : Type}

/-- What the run has done, in the order of time. -/
def acts (run : Run σ π) : Journal := run.journal.filter Event.isAct

theorem mem_acts {run : Run σ π} {event : Event} :
    event ∈ run.acts ↔ event ∈ run.journal ∧ event.isAct = true := List.mem_filter

/-- The names of the editors that take part. -/
def names (run : Run σ π) : List String := run.stages.map Stage.name

theorem stage_outbox (run : Run σ π) (stage : Nat) :
    (run.outbox stage).stage = run.names.getD stage "" := by
  unfold outbox names
  rw [List.getD_eq_getElem?_getD, List.getElem?_map]
  cases run.stages[stage]? <;> rfl

/-! ## The journal -/

@[simp] theorem acts_note (event : Event) (cancelled : Bool) (run : Run σ π) :
    (run.note event cancelled).acts = run.acts ++ if event.isAct then [event] else [] := by
  simp only [acts, note, List.filter_append, List.filter_cons]
  split <;> split <;> simp

theorem journal_poll (run : Run σ π) :
    run.poll.journal = run.journal ++ [.poll run.cancelled] := by
  simp [poll, note]

@[simp] theorem acts_poll (run : Run σ π) :
    run.poll.acts = run.acts ++ [.poll run.cancelled] := by
  simp [poll]

@[simp] theorem acts_called (event : Event) (shared : Shared σ) (run : Run σ π) :
    (run.called event shared).acts = run.acts ++ if event.isAct then [event] else [] :=
  acts_note event shared.cancelled run

@[simp] theorem acts_watched (event : Event) (shared : Shared π) (run : Run σ π) :
    (run.watched event shared).acts = run.acts ++ if event.isAct then [event] else [] :=
  acts_note event shared.cancelled run

@[simp] theorem acts_emit (stage : Nat) (diagnostics : List Diagnostic) (run : Run σ π) :
    (run.emit stage diagnostics).acts = run.acts := by
  simp [acts, emit, List.filter_append]

@[simp] theorem acts_enroll (origin : MarkerOrigin) (name : String) (program : Program)
    (setup : Setup σ) (run : Run σ π) :
    (run.enroll origin name program setup).acts =
      run.acts ++ [.setUp run.stages.length name program (Failure.of? setup.result)] := by
  change ((run.called _ _).emit _ _).acts = _
  simp

@[simp] theorem acts_absorb (stage index : Nat) (program : Program) (reply : Reply σ)
    (run : Run σ π) :
    (run.absorb stage index program reply).acts =
      run.acts ++ [.edit index program reply.result] := by
  change ((run.called _ _).emit _ _).acts = _
  simp

/-! ## Stages and chain -/

@[simp] theorem stages_poll (run : Run σ π) : run.poll.stages = run.stages := rfl

@[simp] theorem stages_called (event : Event) (shared : Shared σ) (run : Run σ π) :
    (run.called event shared).stages = run.stages := rfl

@[simp] theorem stages_watched (event : Event) (shared : Shared π) (run : Run σ π) :
    (run.watched event shared).stages = run.stages := rfl

@[simp] theorem stages_enroll (origin : MarkerOrigin) (name : String) (program : Program)
    (setup : Setup σ) (run : Run σ π) :
    (run.enroll origin name program setup).stages =
      run.stages ++ [⟨origin, ({ stage := name } : Outbox).pushAll setup.emitted⟩] := rfl

@[simp] theorem names_absorb (stage index : Nat) (program : Program) (reply : Reply σ)
    (run : Run σ π) : (run.absorb stage index program reply).names = run.names := by
  apply List.ext_getElem?
  intro i
  simp only [names, absorb, List.getElem?_map, List.getElem?_modify]
  cases run.stages[i]? with
  | none => rfl
  | some old => by_cases h : stage = i <;> simp [h, Stage.name, Outbox.pushAll_eq]

/-- Calling an edit adds to an outbox, and an outbox is no part of what is listed. -/
@[simp] theorem stageInfos_absorb (stage index : Nat) (program : Program) (reply : Reply σ)
    (run : Run σ π) : (run.absorb stage index program reply).stageInfos = run.stageInfos := by
  apply List.ext_getElem?
  intro i
  simp only [stageInfos, absorb, List.getElem?_mapIdx, List.getElem?_modify]
  cases run.stages[i]? with
  | none => rfl
  | some old =>
      by_cases h : stage = i <;> simp [h, Stage.name, Outbox.pushAll_eq, emit, called, note]

@[simp] theorem chain_poll (run : Run σ π) : run.poll.chain = run.chain := rfl

@[simp] theorem chain_called (event : Event) (shared : Shared σ) (run : Run σ π) :
    (run.called event shared).chain = run.chain := rfl

@[simp] theorem chain_watched (event : Event) (shared : Shared π) (run : Run σ π) :
    (run.watched event shared).chain = run.chain := rfl

@[simp] theorem chain_enroll (origin : MarkerOrigin) (name : String) (program : Program)
    (setup : Setup σ) (run : Run σ π) :
    (run.enroll origin name program setup).chain =
      run.chain ++ setup.edits.map (Link.mk run.stages.length) := rfl

/-! ## Memory -/

@[simp] theorem memory_sharing (run : Run σ π) : run.sharing.memory = run.shared.memory := rfl

@[simp] theorem memory_poll (run : Run σ π) :
    run.poll.shared.memory = run.shared.memory := rfl

@[simp] theorem memory_called (event : Event) (shared : Shared σ) (run : Run σ π) :
    (run.called event shared).shared.memory = shared.memory := rfl

@[simp] theorem memory_watched (event : Event) (shared : Shared π) (run : Run σ π) :
    (run.watched event shared).shared.memory = run.shared.memory := rfl

@[simp] theorem memory_enroll (origin : MarkerOrigin) (name : String) (program : Program)
    (setup : Setup σ) (run : Run σ π) :
    (run.enroll origin name program setup).shared.memory = setup.shared.memory := rfl

@[simp] theorem memory_absorb (stage index : Nat) (program : Program) (reply : Reply σ)
    (run : Run σ π) :
    (run.absorb stage index program reply).shared.memory = reply.shared.memory := rfl

/-! ## Announcements -/

variable (phase : Phase) (index : Nat) (plugins : List (Plugin π)) (run : Run σ π)

@[simp] theorem acts_announce :
    (run.announce phase index plugins).acts =
      run.acts ++ numbered (.phase · phase) index plugins.length := by
  induction plugins generalizing index run with
  | nil => simp [announce]
  | cons plugin rest ih => simp [announce, ih, numbered_succ]

@[simp] theorem stages_announce : (run.announce phase index plugins).stages = run.stages := by
  induction plugins generalizing index run with
  | nil => rfl
  | cons plugin rest ih => simp [announce, ih]

@[simp] theorem chain_announce : (run.announce phase index plugins).chain = run.chain := by
  induction plugins generalizing index run with
  | nil => rfl
  | cons plugin rest ih => simp [announce, ih]

@[simp] theorem stageInfos_announce :
    (run.announce phase index plugins).stageInfos = run.stageInfos := by
  unfold stageInfos
  rw [stages_announce, chain_announce]

@[simp] theorem memory_announce :
    (run.announce phase index plugins).shared.memory = run.shared.memory := by
  induction plugins generalizing index run with
  | nil => rfl
  | cons plugin rest ih => simp [announce, ih]

end Run

end EditPipeline
