import EditPipeline.Proofs.Files.Directories
import EditPipeline.Proofs.Files.SnapshotFiles
import EditPipeline.Proofs.Snapshots
import EditPipeline.Proofs.Stages

/-!
# Snapshots that are written at once, or later

A recorder with a directory writes each snapshot as it takes it, and makes the directory every
time; one without a directory leaves both for later.  All that makes a difference is that the
directory is made again, which changes nothing once it is there: `recordAll` and
`Snapshot.writeAll` come to the same files (`writeAll_of_recordAll`), and since a recorder only
observes, the runs themselves are the same.  A file that cannot be written breaks a run off, and
its snapshot is not kept.
-/

namespace EditPipeline

variable {σ : Type}

/-! ## Names of files -/

/-- Snapshots with different numbers have files of different names. -/
theorem Snapshot.fileName_ne {snapshot other : Snapshot} (hindex : snapshot.index ≠ other.index) :
    snapshot.fileName ≠ other.fileName := by
  intro hsame
  have htext := congrArg String.toList hsame
  rw [toList_fileName, toList_fileName] at htext
  exact hindex (eq_of_padded_dash htext)

theorem Snapshot.nodup_fileNames {snapshots : List Snapshot}
    (hindices : (snapshots.map Snapshot.index).Nodup) :
    (snapshots.map Snapshot.fileName).Nodup := by
  rw [List.nodup_iff_pairwise_ne, List.pairwise_map] at hindices ⊢
  exact hindices.imp Snapshot.fileName_ne

theorem Snapshot.writeEach_of_ok {directory : Path} {snapshot : Snapshot} (rest : List Snapshot)
    {fs after : FileSystem} (hwrite : snapshot.write directory fs = .ok after) :
    writeEach directory (snapshot :: rest) fs = writeEach directory rest after := by
  conv_lhs => unfold writeEach
  rw [hwrite]

theorem Snapshot.writeEach_of_error {directory : Path} {snapshot : Snapshot} (rest : List Snapshot)
    {fs : FileSystem} {fault : FileFault} (hwrite : snapshot.write directory fs = .error fault) :
    writeEach directory (snapshot :: rest) fs = (.error fault, fs) := by
  unfold writeEach
  rw [hwrite]

theorem FileSystem.Grows.trans {fs middle after : FileSystem} (hfirst : fs.Grows middle)
    (hlast : middle.Grows after) : fs.Grows after where
  home := hlast.home.trans hfirst.home
  stands hsome := hlast.stands (hfirst.stands hsome)
  directory hdirectory := hlast.directory (hfirst.directory hdirectory)

theorem FileSystem.Grows.refl (fs : FileSystem) : fs.Grows fs := ⟨rfl, id, id⟩

/-- Writing only adds. -/
theorem FileSystem.grows_of_write {fs after : FileSystem} {path : Path} {text : String}
    (hwrite : fs.write path text = .ok after) : fs.Grows after := by
  obtain ⟨-, hplace, rfl⟩ := eq_put_of_write hwrite
  exact grows_put hplace

/-! ## Many snapshots -/

namespace Gallery

variable {directory : Path} {snapshot : Snapshot} {snapshots rest : List Snapshot}
  {gallery after : Gallery} {made : FileSystem} {fault : FileFault}

/-- Takes snapshots one after the other, up to the first whose file cannot be written. -/
def recordAll (directory : Option Path) : List Snapshot → Gallery → Except FileFault Unit × Gallery
  | [], gallery => (.ok (), gallery)
  | snapshot :: rest, gallery =>
    match gallery.record directory snapshot with
    | (.error fault, gallery) => (.error fault, gallery)
    | (.ok (), gallery) => recordAll directory rest gallery

theorem recordAll_cons_eq_ok {directory : Option Path} :
    recordAll directory (snapshot :: rest) gallery = (.ok (), after) ↔
      ∃ between, gallery.record directory snapshot = (.ok (), between) ∧
        recordAll directory rest between = (.ok (), after) := by
  rw [recordAll]
  cases gallery.record directory snapshot with
  | mk result between => cases result <;> simp

/-- Without a directory, all snapshots are kept and no file is written. -/
theorem recordAll_none (snapshots : List Snapshot) (gallery : Gallery) :
    recordAll none snapshots gallery =
      (.ok (), { gallery with snapshots := gallery.snapshots ++ snapshots }) := by
  induction snapshots generalizing gallery with
  | nil => simp [recordAll]
  | cons snapshot rest ih => simp [recordAll, record, ih]

/-- A snapshot that is taken has its file, and the directory is there. -/
theorem record_eq_ok (hrecord : gallery.record (some directory) snapshot = (.ok (), after)) :
    ∃ made, gallery.files.createDirAll directory = (.ok (), made) ∧
      snapshot.write directory made = .ok after.files := by
  unfold record Snapshot.writeAll at hrecord
  dsimp only at hrecord
  cases hmade : gallery.files.createDirAll directory with
  | mk result made =>
      rw [hmade] at hrecord
      cases result with
      | error fault => cases hrecord
      | ok done =>
          dsimp only at hrecord
          cases hwrite : snapshot.write directory made with
          | error fault =>
              rw [Snapshot.writeEach_of_error [] hwrite] at hrecord
              cases hrecord
          | ok files =>
              rw [Snapshot.writeEach_of_ok [] hwrite] at hrecord
              cases hrecord
              exact ⟨made, rfl, hwrite⟩

/-- A snapshot is kept exactly if it is taken. -/
theorem snapshots_record (directory : Option Path) (snapshot : Snapshot) (gallery : Gallery) :
    ((gallery.record directory snapshot).1 = .ok () ∧
        (gallery.record directory snapshot).2.snapshots = gallery.snapshots ++ [snapshot]) ∨
      ((∃ fault, (gallery.record directory snapshot).1 = .error fault) ∧
        (gallery.record directory snapshot).2.snapshots = gallery.snapshots) := by
  unfold record
  cases directory with
  | none => exact .inl ⟨rfl, rfl⟩
  | some directory =>
      dsimp only
      generalize Snapshot.writeAll directory [snapshot] gallery.files = written
      obtain ⟨result, files⟩ := written
      cases result with
      | error fault => exact .inr ⟨⟨fault, rfl⟩, rfl⟩
      | ok done => exact .inl ⟨rfl, rfl⟩

theorem snapshots_of_record {directory : Option Path}
    (hrecord : gallery.record directory snapshot = (.ok (), after)) :
    after.snapshots = gallery.snapshots ++ [snapshot] := by
  have hkept := snapshots_record directory snapshot gallery
  rw [hrecord] at hkept
  rcases hkept with ⟨-, hkept⟩ | ⟨⟨fault, hfails⟩, -⟩
  · exact hkept
  · cases hfails

theorem snapshots_of_record_error {directory : Option Path}
    (hrecord : gallery.record directory snapshot = (.error fault, after)) :
    after.snapshots = gallery.snapshots := by
  have hkept := snapshots_record directory snapshot gallery
  rw [hrecord] at hkept
  rcases hkept with ⟨hdone, -⟩ | ⟨-, hkept⟩
  · cases hdone
  · exact hkept

theorem snapshots_of_recordAll {directory : Option Path}
    (hrecord : recordAll directory snapshots gallery = (.ok (), after)) :
    after.snapshots = gallery.snapshots ++ snapshots := by
  induction snapshots generalizing gallery with
  | nil =>
      cases hrecord
      exact (List.append_nil _).symm
  | cons snapshot rest ih =>
      obtain ⟨between, hfirst, hrest⟩ := recordAll_cons_eq_ok.1 hrecord
      rw [ih hrest, snapshots_of_record hfirst, List.append_assoc, List.singleton_append]

/-- Once the directory is there, taking snapshots is writing their files. -/
theorem writeEach_of_recordAll {fs : FileSystem}
    (hmade : fs.createDirAll directory = (.ok (), made)) (hgrows : made.Grows gallery.files)
    (hrecord : recordAll (some directory) snapshots gallery = (.ok (), after)) :
    Snapshot.writeEach directory snapshots gallery.files = (.ok (), after.files) := by
  induction snapshots generalizing gallery with
  | nil =>
      cases hrecord
      rfl
  | cons snapshot rest ih =>
      obtain ⟨between, hfirst, hrest⟩ := recordAll_cons_eq_ok.1 hrecord
      obtain ⟨again, hagain, hwrite⟩ := record_eq_ok hfirst
      -- the directory is made again, and that changes nothing
      rw [FileSystem.createDirAll_again hmade hgrows] at hagain
      cases hagain
      have hmore := ih (hgrows.trans (FileSystem.grows_of_write hwrite)) hrest
      rw [Snapshot.writeEach_of_ok rest hwrite]
      exact hmore

/-- **Files that are written at once are those that are written later.** -/
theorem writeAll_of_recordAll (hsnapshots : snapshots ≠ [])
    (hrecord : recordAll (some directory) snapshots gallery = (.ok (), after)) :
    Snapshot.writeAll directory snapshots gallery.files = (.ok (), after.files) := by
  cases snapshots with
  | nil => exact absurd rfl hsnapshots
  | cons snapshot rest =>
      obtain ⟨between, hfirst, hrest⟩ := recordAll_cons_eq_ok.1 hrecord
      obtain ⟨made, hmade, hwrite⟩ := record_eq_ok hfirst
      have hgrown : made.Grows between.files := FileSystem.grows_of_write hwrite
      rw [Snapshot.writeAll, hmade]
      dsimp only
      rw [Snapshot.writeEach_of_ok rest hwrite]
      exact writeEach_of_recordAll hmade hgrown hrest

/-- If there is nothing to write, then writing it later makes at most directories. -/
theorem sameFiles_writeAll
    (hrecord : recordAll (some directory) snapshots gallery = (.ok (), after)) :
    (Snapshot.writeAll directory snapshots gallery.files).2.SameFiles after.files := by
  cases hsnapshots : snapshots with
  | cons snapshot rest =>
      rw [hsnapshots] at hrecord
      rw [writeAll_of_recordAll (List.cons_ne_nil snapshot rest) hrecord]
      exact .refl _
  | nil =>
      rw [hsnapshots] at hrecord
      cases hrecord
      have hmade := FileSystem.sameFiles_createDirAll directory gallery.files
      unfold Snapshot.writeAll
      generalize gallery.files.createDirAll directory = dirs at hmade ⊢
      obtain ⟨result, made⟩ := dirs
      intro location content
      cases result <;> exact (hmade location content).symm

end Gallery

/-! ## The recorder in a run -/

namespace Run

variable {directory : Option Path} {info : EditInfo} {next final program : Program}
  {run after : Run σ Gallery} {owners : List String}

/-- What the hook of the recorder does. -/
theorem afterEdit_recorder (directory : Option Path) (info : EditInfo) (next : Program)
    (shared : Shared Gallery) :
    (Gallery.recorder directory).afterEdit info next shared =
      ((shared.memory.record directory ⟨info.index, info.stage, next⟩).1.mapError
          (fun fault => .message fault.message),
        ⟨shared.cancelled, (shared.memory.record directory ⟨info.index, info.stage, next⟩).2⟩) := rfl

theorem record_of_hearsAfter
    (hhears : HearsAfter info next 0 run [Gallery.recorder directory] after) :
    run.watch.record directory ⟨info.index, info.stage, next⟩ = (.ok (), after.watch) := by
  cases hhears with
  | @cons _ _ _ _ _ shared hcall hrest =>
      cases hrest
      rw [afterEdit_recorder] at hcall
      obtain ⟨hresult, hleft⟩ := Prod.mk.inj hcall
      change run.watch.record directory _ = (.ok (), shared.memory)
      rw [← hleft]
      change (run.watch.record directory _).1.mapError _ = _ at hresult
      refine Prod.ext ?_ rfl
      change (run.watch.record directory ⟨info.index, info.stage, next⟩).1 = .ok ()
      cases htaken : (run.watch.record directory ⟨info.index, info.stage, next⟩).1 with
      | ok done => rfl
      | error fault =>
          rw [htaken] at hresult
          cases hresult

/-- Edits that succeed are recorded one by one, with their files. -/
theorem Passes.recordAll {index : Nat} {passed : List (Passing σ)}
    (hpasses : Passes [Gallery.recorder directory] index program run passed final after)
    (hnames : ∀ (number : Nat) (passing : Passing σ), passed[number]? = some passing →
      owners[index + number]? = some passing.outbox.stage) :
    Gallery.recordAll directory (shots owners index passed) run.watch = (.ok (), after.watch) := by
  induction hpasses with
  | nil => rfl
  | @cons index final run ready settled after passed passing hgoes houtbox hbefore hgiven hafter
      hrest ih =>
      have hparts : shots owners index (passing :: passed) =
          ⟨index, owners.getD index "", passing.next⟩ :: shots owners (index + 1) passed := rfl
      have hname : owners.getD index "" = passing.outbox.stage := by
        have hfirst := hnames 0 passing rfl
        rw [Nat.add_zero] at hfirst
        rw [List.getD_eq_getElem?_getD, hfirst, Option.getD_some]
      have hready : ready.watch = run.poll.watch := watch_hearsBefore hbefore
      have hrecord := record_of_hearsAfter hafter
      change ready.watch.record directory _ = _ at hrecord
      rw [hready] at hrecord
      change run.watch.record directory _ = _ at hrecord
      rw [hparts, hname]
      refine Gallery.recordAll_cons_eq_ok.2 ⟨settled.watch, hrecord, ih ?_⟩
      intro number other hother
      have hnext := hnames (number + 1) other hother
      rwa [← Nat.add_assoc, Nat.add_right_comm] at hnext

/-- What a hook of the recorder that fails leaves behind. -/
theorem record_of_afterEdit {shared left : Shared Gallery} {failure : Failure}
    (hfails : (Gallery.recorder directory).afterEdit info next shared = (.error failure, left)) :
    ∃ fault : FileFault, failure = .message fault.message ∧
      shared.memory.record directory ⟨info.index, info.stage, next⟩ = (.error fault, left.memory) := by
  rw [afterEdit_recorder] at hfails
  obtain ⟨hresult, hleft⟩ := Prod.mk.inj hfails
  rw [← hleft]
  cases htaken : (shared.memory.record directory ⟨info.index, info.stage, next⟩).1 with
  | ok done =>
      rw [htaken] at hresult
      cases hresult
  | error fault =>
      rw [htaken] at hresult
      cases hresult
      exact ⟨fault, rfl, Prod.ext htaken rfl⟩

/-- Neither a look nor an edit, nor a hook that succeeds, is a hook that fails. -/
theorem not_mem_passActs {number : Nat} {failure : Failure} (count start : Nat)
    (passed : List (Passing σ)) :
    Event.after number info next (some failure) ∉ passActs count start passed := by
  intro hevent
  have hlast := (Smooth.passActs count start passed).goesOn _ hevent
  cases hlast

/-- A hook after an edit that fails is the last thing, and its snapshot is the first one that is
not taken. -/
theorem Executes.broken {links : List (Link σ)} {result : Except PipelineError Program}
    {number : Nat} {failure : Failure}
    (hexecutes : Executes [Gallery.recorder directory] 0 links program run result after)
    (hearlier : .after number info next (some failure) ∉ run.acts)
    (hevent : .after number info next (some failure) ∈ after.acts) :
    ∃ (passed : List (Passing σ)) (current : Program) (before : Run σ Gallery) (fault : FileFault),
      passed.map Passing.link <+: links ∧
      Passes [Gallery.recorder directory] 0 program run passed current before ∧
      info.index = passed.length ∧ failure = .message fault.message ∧
      before.watch.record directory ⟨info.index, info.stage, next⟩ = (.error fault, after.watch) ∧
      result = .error (.editFailure info.stage info.index failure) := by
  have hrecorder {done rest : List (Plugin Gallery)} {plugin : Plugin Gallery}
      (hplugins : done ++ plugin :: rest = [Gallery.recorder directory]) :
      done = [] ∧ plugin = Gallery.recorder directory := by
    cases done with
    | nil => exact ⟨rfl, List.head_eq_of_cons_eq hplugins⟩
    | cons first done => simp at hplugins
  have hpassed {current : Program} {before : Run σ Gallery} {passed : List (Passing σ)}
      (hpasses : Passes [Gallery.recorder directory] 0 program run passed current before) :
      .after number info next (some failure) ∉ before.acts := by
    rw [hpasses.acts, List.mem_append, not_or]
    exact ⟨hearlier, not_mem_passActs _ _ passed⟩
  cases hexecutes with
  | all passed hlinks hpasses => exact absurd hevent (hpassed hpasses)
  | cut passed hlinks hpasses hstops =>
      rw [acts_poll, List.mem_append] at hevent
      rcases hevent with hevent | hevent
      · exact absurd hevent (hpassed hpasses)
      · simp at hevent
  | @failed passed link rest current before after error hlinks hpasses hgoes happlies =>
      rw [Nat.zero_add] at happlies
      -- up to the hooks after the edit, nothing of the kind has happened
      have hheard {info' : EditInfo} {ready : Run σ Gallery}
          (hhears : HearsBefore info' current 0 before.poll [Gallery.recorder directory] ready) :
          .after number info next (some failure) ∉ ready.acts := by
        rw [hhears.acts fun _ _ => rfl, acts_poll, List.mem_append, List.mem_append, not_or, not_or]
        exact ⟨⟨hpassed hpasses, by simp⟩, by simp⟩
      cases happlies with
      | @beforeFailed info' done more plugin ready failure' shared hinfo hplugins hhears hfails =>
          obtain ⟨-, rfl⟩ := hrecorder hplugins
          cases hfails
      | editFailed hinfo hhears hfails =>
          rw [acts_absorb, List.mem_append] at hevent
          rcases hevent with hevent | hevent
          · exact absurd hevent (hheard hhears)
          · simp at hevent
      | @afterFailed passing done more plugin ready heard failure' shared hlink hprogram houtbox
          hbefore hgiven hplugins hafter hfails =>
          obtain ⟨rfl, rfl⟩ := hrecorder hplugins
          cases hafter
          rw [acts_watched, acts_absorb, List.append_assoc, List.mem_append] at hevent
          rcases hevent with hevent | hevent
          · exact absurd hevent (hheard hbefore)
          · obtain ⟨fault, rfl, hrecord⟩ := record_of_afterEdit hfails
            have hready : ready.watch = before.poll.watch := watch_hearsBefore hbefore
            simp only [List.length_nil, Event.isAct, if_true, List.singleton_append,
              List.mem_cons, reduceCtorEq, Event.after.injEq, Option.some.injEq, List.not_mem_nil,
              or_false, false_or] at hevent
            obtain ⟨-, rfl, rfl, rfl⟩ := hevent
            refine ⟨passed, current, before, fault, ⟨link :: rest, hlinks⟩, hpasses, rfl, rfl, ?_,
              rfl⟩
            change ready.watch.record directory _ = _ at hrecord
            rw [hready] at hrecord
            exact hrecord

end Run

namespace Pipeline

variable {directory : Option Path} {program final : Program} {markers : List (Marker σ)}
  {shared : Shared σ} {gallery : Gallery} {stopAt : Option Nat} {findings : Findings}

/-- A completed run has taken a snapshot of all that its edits gave. -/
theorem recordAll_of_completed
    (hcompleted : ((recording directory).run program markers shared gallery stopAt).outcome =
      .completed final findings) :
    ∃ snapshots : List Snapshot,
      snapshots = applied (((recording directory).start shared gallery stopAt).collect program
        markers).2.owners ((recording directory).run program markers shared gallery stopAt).journal ∧
      snapshots.map Snapshot.index = List.range snapshots.length ∧
      Gallery.recordAll directory snapshots gallery =
        (.ok (), ((recording directory).run program markers shared gallery stopAt).watch) := by
  obtain ⟨collected, after, passed, hcollected, hlinks, hpasses, hrun⟩ :=
    passes_of_completed hcompleted
  have hcollects := Run.collects program markers ((recording directory).start shared gallery stopAt)
  rw [hcollected] at hcollects
  have happlied := applied_of_passes hcollected hpasses hrun collected.owners
  have hnames (number : Nat) (passing : Passing σ) (hpassing : passed[number]? = some passing) :
      collected.owners[0 + number]? = some passing.outbox.stage := by
    have hnamed := hpasses.named ⟨[], by rw [List.append_nil, hlinks]⟩ number passing
      hpassing
    rw [Nat.zero_add, ← hnamed]
    simp [Run.owners, Run.outbox]
  have hrecorded : Gallery.recordAll directory (shots collected.owners 0 passed)
      collected.watch = (.ok (), after.watch) := hpasses.recordAll hnames
  have hwatch : collected.watch = gallery := hcollects.watch
  refine ⟨shots collected.owners 0 passed, ?_, ?_, ?_⟩
  · rw [hcollected, happlied]
  · rw [index_shots, List.range_eq_range', shots, List.length_map, List.length_zipIdx]
  · rw [hwatch] at hrecorded
    rw [hrecorded, hrun]
    rfl

/-- Nothing that is heard while a run collects is an edit. -/
theorem not_mem_collected {pipeline : Pipeline Gallery} {result : Except PipelineError Unit}
    {after : Run σ Gallery} {number : Nat} {info : EditInfo} {next : Program} {failure : Failure}
    (hcollects : (pipeline.start shared gallery stopAt).Collects program markers result after) :
    .after number info next (some failure) ∉ after.acts := by
  intro hevent
  have htraced : .after number info next (some failure) ∈ after.trace :=
    List.mem_filter.2 ⟨hevent, rfl⟩
  rw [hcollects.trace, start, Run.trace_announce] at htraced
  have hphase : .after number info next (some failure) ∈
      phases .collecting pipeline.plugins.length := htraced
  simp [phases] at hphase

/-- A snapshot whose file cannot be written breaks the run off at its edit, and is not kept. -/
theorem broken_of_after {files : FileSystem} {number : Nat} {info : EditInfo} {next : Program}
    {failure : Failure}
    (hevent : .after number info next (some failure) ∈
      ((recording directory).run program markers shared { files } stopAt).journal) :
    ∃ (before : Gallery) (fault : FileFault) (findings : Findings),
      before.record directory ⟨info.index, info.stage, next⟩ = (.error fault,
        ((recording directory).run program markers shared { files } stopAt).watch) ∧
      failure = .message fault.message ∧
      before.snapshots.map Snapshot.index = List.range info.index ∧
      ((recording directory).run program markers shared { files } stopAt).outcome =
        .aborted (.editFailure info.stage info.index failure) findings := by
  have hends := (recording directory).ends program markers shared { files } stopAt
  generalize (recording directory).run program markers shared { files } stopAt = ran
    at hends hevent ⊢
  have hact : .after number info next (some failure) ∈ ran.acts :=
    Ended.mem_acts.2 ⟨hevent, rfl⟩
  have hphase {phase : Phase} :
      .after number info next (some failure) ∉ numbered (.phase · phase) 0 1 := by simp
  -- in either phase, the hook is not among the announcements
  have hexecuting {collected after : Run σ Gallery} {result : Except PipelineError Program}
      (hcollects : ((recording directory).start shared { files } stopAt).Collects program markers
        (.ok ()) collected)
      (hexecutes : (collected.announce .executing 0 (recording directory).plugins).Executes
        (recording directory).plugins 0 collected.chain program result after)
      (hacts : .after number info next (some failure) ∈ after.acts ++ numbered (.phase · .done) 0 1) :
      ∃ (before : Gallery) (fault : FileFault),
        before.record directory ⟨info.index, info.stage, next⟩ = (.error fault, after.watch) ∧
        failure = .message fault.message ∧
        before.snapshots.map Snapshot.index = List.range info.index ∧
        result = .error (.editFailure info.stage info.index failure) := by
    have hearlier : .after number info next (some failure) ∉
        (collected.announce .executing 0 (recording directory).plugins).acts := by
      rw [Run.acts_announce, List.mem_append, not_or]
      exact ⟨not_mem_collected hcollects, hphase⟩
    obtain ⟨passed, current, before, fault, hlinks, hpasses, hindex, hfailure, hrecord, hresult⟩ :=
      hexecutes.broken hearlier ((List.mem_append.1 hacts).resolve_right hphase)
    have hrecorded := hpasses.recordAll fun number passing hpassing => by
      rw [Nat.zero_add]
      exact hpasses.named hlinks number passing hpassing
    have hkept := Gallery.snapshots_of_recordAll hrecorded
    have hwatch : (collected.announce .executing 0 (recording directory).plugins).watch =
        { files } := hcollects.watch
    refine ⟨before.watch, fault, hrecord, hfailure, ?_, hresult⟩
    rw [hkept, hwatch, List.nil_append, index_shots, hindex, List.range_eq_range']
  cases hends with
  | collecting hcollects =>
      rw [Run.acts_finish, List.mem_append] at hact
      exact absurd (hact.resolve_right hphase) (not_mem_collected hcollects)
  | executing hcollects hexecutes =>
      rw [Run.acts_finish] at hact
      obtain ⟨before, fault, hrecord, hfailure, hindices, hresult⟩ :=
        hexecuting hcollects hexecutes hact
      cases hresult
      exact ⟨before, fault, _, hrecord, hfailure, hindices, Run.outcome_finish _ _ _⟩
  | completed hcollects hexecutes =>
      rw [Run.acts_finish] at hact
      obtain ⟨before, fault, -, -, -, hresult⟩ := hexecuting hcollects hexecutes hact
      cases hresult

/-- A run that writes at once and completes goes like the one that only keeps. -/
theorem completed_alike {directory : Path} {files : FileSystem}
    (hcompleted : ((recording (some directory)).run program markers shared { files }
      stopAt).outcome.isCompleted = true) :
    ((recording none).run program markers shared { files } stopAt).outcome =
      ((recording (some directory)).run program markers shared { files } stopAt).outcome ∧
    ((recording none).run program markers shared { files } stopAt).journal =
      ((recording (some directory)).run program markers shared { files } stopAt).journal ∧
    (((recording none).start shared { files } stopAt).collect program markers).2.owners =
      (((recording (some directory)).start shared { files } stopAt).collect program
        markers).2.owners := by
  have hfollows : List.Forall₂ Plugin.Follows [Gallery.recorder (some directory)]
      [Gallery.recorder none] := .cons (Gallery.follows (some directory)) .nil
  have hasked := askedAlike_same markers shared.memory
  have hruns := run_twins (Likeness.lawful_same σ) hfollows program hasked shared.cancelled
    { files } { files } stopAt
  have hcollects := collect_twins False hfollows program hasked shared.cancelled
    { files } { files } stopAt
  rcases hruns with ⟨-, haborted⟩ | ⟨houtcome, hjournal⟩
  · exact absurd (hcompleted.symm.trans haborted) nofun
  · exact ⟨houtcome.symm, hjournal.symm, hcollects.owners.symm⟩

end Pipeline

/-! ## Main statement -/

/-- **Snapshot files do not depend on when they are written.**  Files of snapshots with different
numbers have different names.  If a run completes whose recorder writes at once, then the run
whose recorder only keeps goes alike, with one snapshot for each file; and what is written after
it are the same files with the same bytes.  If a snapshot cannot be written, it is not kept, and
the run ends with a failure of its edit. -/
theorem snapshot_files_at_any_time :
    (∀ snapshot other : Snapshot, snapshot.index ≠ other.index →
      snapshot.fileName ≠ other.fileName) ∧
    (∀ (directory : Path) (info : EditInfo) (next : Program) (shared : Shared Gallery)
        (fault : FileFault) (left : Gallery),
      shared.memory.record (some directory) ⟨info.index, info.stage, next⟩ = (.error fault, left) →
      (Gallery.recorder (some directory)).afterEdit info next shared =
        (.error (.message fault.message), ⟨shared.cancelled, left⟩) ∧
      left.snapshots = shared.memory.snapshots) ∧
    ∀ (directory : Path) (program : Program) (markers : List (Marker σ)) (shared : Shared σ)
        (files : FileSystem) (stopAt : Option Nat),
      let immediate := (recording (some directory)).run program markers shared { files } stopAt
      let plain := (recording none).run program markers shared { files } stopAt
      let later := Snapshot.writeAll directory plain.watch.snapshots plain.watch.files
      (immediate.outcome.isCompleted = true →
        plain.outcome = immediate.outcome ∧ plain.journal = immediate.journal ∧
        plain.watch.snapshots = immediate.watch.snapshots ∧ plain.watch.files = files ∧
        (plain.watch.snapshots.map Snapshot.fileName).Nodup ∧
        later.2.SameFiles immediate.watch.files ∧
        (plain.watch.snapshots ≠ [] → later = (.ok (), immediate.watch.files))) ∧
      ∀ number info next failure, .after number info next (some failure) ∈ immediate.journal →
        ∃ (before : Gallery) (fault : FileFault) (findings : Findings),
          before.record (some directory) ⟨info.index, info.stage, next⟩ =
            (.error fault, immediate.watch) ∧
          failure = .message fault.message ∧
          immediate.watch.snapshots = before.snapshots ∧
          before.snapshots.map Snapshot.index = List.range info.index ∧
          immediate.outcome = .aborted (.editFailure info.stage info.index failure) findings := by
  refine ⟨fun _ _ => Snapshot.fileName_ne, ?_, ?_⟩
  · intro directory info next shared fault left hrecord
    refine ⟨?_, Gallery.snapshots_of_record_error hrecord⟩
    rw [Run.afterEdit_recorder, hrecord]
    rfl
  · intro directory program markers shared files stopAt
    dsimp only
    refine ⟨fun hcompleted => ?_, ?_⟩
    · obtain ⟨houtcome, hjournal, howners⟩ := Pipeline.completed_alike hcompleted
      cases hended : ((recording (some directory)).run program markers shared { files }
          stopAt).outcome with
      | aborted error findings =>
          rw [hended] at hcompleted
          cases hcompleted
      | completed final findings =>
          obtain ⟨snapshots, happlied, hindices, hrecorded⟩ := Pipeline.recordAll_of_completed hended
          obtain ⟨plain, hplain, -, hkept⟩ := Pipeline.recordAll_of_completed (houtcome.trans hended)
          -- both runs took the same snapshots, since they did the same
          obtain rfl : plain = snapshots := by rw [hplain, happlied, howners, hjournal]
          rw [Gallery.recordAll_none] at hkept
          have hwatch : ((recording none).run program markers shared { files } stopAt).watch =
              ⟨plain, files⟩ := (Prod.mk.inj hkept).2.symm
          rw [hwatch]
          refine ⟨houtcome.trans hended, hjournal, ?_, rfl, ?_, ?_, ?_⟩
          · exact (Gallery.snapshots_of_recordAll hrecorded).symm
          · exact Snapshot.nodup_fileNames (hindices ▸ List.nodup_range)
          · change (Snapshot.writeAll directory plain files).2.SameFiles _
            exact Gallery.sameFiles_writeAll hrecorded
          · intro hsome
            change Snapshot.writeAll directory plain files = _
            exact Gallery.writeAll_of_recordAll hsome hrecorded
    · intro number info next failure hevent
      obtain ⟨before, fault, findings, hrecord, hfailure, hindices, houtcome⟩ :=
        Pipeline.broken_of_after hevent
      exact ⟨before, fault, findings, hrecord, hfailure, Gallery.snapshots_of_record_error hrecord,
        hindices, houtcome⟩

/-- Three edits of editors with one name have three files, at once or later; and where a file
stands in the place of the directory, the run ends with its first edit. -/
theorem snapshot_files_of_namesakes :
    (((recording none).run { name := "p" } namesakes ⟨false, ()⟩ {}).watch.snapshots.map
      Snapshot.fileName = ["000-pass.json", "001-pass.json", "002-pass.json"]) ∧
    Snapshot.writeAll ⟨"out"⟩
        ((recording none).run { name := "p" } namesakes ⟨false, ()⟩ {}).watch.snapshots {} =
      (.ok (),
        ((recording (some ⟨"out"⟩)).run { name := "p" } namesakes ⟨false, ()⟩ {}).watch.files) ∧
    ∃ findings, ((recording (some ⟨"out"⟩)).run { name := "p" } namesakes ⟨false, ()⟩
        { files := { nodes := [(["out"], .file "".toUTF8)] } }).outcome =
      .aborted (.editFailure "pass" 0 (.message "File exists (os error 17)")) findings := by
  obtain ⟨-, -, hruns⟩ := snapshot_files_at_any_time (σ := Unit)
  obtain ⟨hcompletes, -⟩ := hruns ⟨"out"⟩ { name := "p" } namesakes ⟨false, ()⟩ {} none
  obtain ⟨-, -, -, hfiles, -, -, hlater⟩ := hcompletes rfl
  obtain ⟨-, hfails⟩ := hruns ⟨"out"⟩ { name := "p" } namesakes ⟨false, ()⟩
    { nodes := [(["out"], .file "".toUTF8)] } none
  have hevent : .after 0 ⟨0, "pass"⟩ { name := "pa" } (some (.message "File exists (os error 17)")) ∈
      ((recording (some ⟨"out"⟩)).run { name := "p" } namesakes ⟨false, ()⟩
        { files := { nodes := [(["out"], .file "".toUTF8)] } }).journal :=
    List.mem_of_getElem? (i := 14) rfl
  obtain ⟨before, fault, findings, -, -, -, -, houtcome⟩ := hfails _ _ _ _ hevent
  rw [hfiles] at hlater
  exact ⟨rfl, hlater (by nofun), findings, houtcome⟩

end EditPipeline
