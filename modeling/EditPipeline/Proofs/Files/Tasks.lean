import EditPipeline.Proofs.Files.Landing

/-!
# Tasks on files

What is written to a file system, as a list: directories to make and texts to write.  The
tasks are performed one after the other, up to the first one that fails; whoever gave the
task is told why (`deliverAll`).  What a file holds once all are performed depends only on
where their paths land: the last text that was written there, or what the file held before.
-/

namespace EditPipeline

/-- One change of a file system. -/
inductive FileTask where
  /-- Makes a directory and those around it that are missing. -/
  | makeDirs (path : Path)
  | write (path : Path) (text : String)
deriving DecidableEq, Repr

namespace FileTask

/-- Performs a task. -/
def perform : FileTask → FileSystem → Except FileFault Unit × FileSystem
  | .makeDirs path, files => files.createDirAll path
  | .write path text, files =>
    match files.write path text with
    | .error fault => (.error fault, files)
    | .ok after => (.ok (), after)

/-- What a file at `place` holds after a task, if it held `text` before. -/
def leaves (home place : Location) (text : String) : FileTask → String
  | .makeDirs _ => text
  | .write path new => if path.landing home = place then new else text

end FileTask

/-- A task, and the error that its failure makes. -/
structure Errand (ε : Type) where
  task : FileTask
  blame : FileFault → ε

variable {ε α : Type}

/-- Performs tasks up to the first that fails. -/
def deliverAll : List (Errand ε) → FileSystem → Except ε Unit × FileSystem
  | [], files => (.ok (), files)
  | errand :: rest, files =>
    match errand.task.perform files with
    | (.error fault, after) => (.error (errand.blame fault), after)
    | (.ok (), after) => deliverAll rest after

section

variable {files after : FileSystem} {errand : Errand ε} {rest : List (Errand ε)}
  {fault : FileFault} {path : Path} {text : String}

theorem FileTask.perform_makeDirs (directory : Path) (files : FileSystem) :
    (FileTask.makeDirs directory).perform files = files.createDirAll directory := rfl

theorem FileTask.perform_of_error (hwrite : files.write path text = .error fault) :
    (FileTask.write path text).perform files = (.error fault, files) := by
  rw [FileTask.perform, hwrite]

theorem FileTask.perform_of_ok (hwrite : files.write path text = .ok after) :
    (FileTask.write path text).perform files = (.ok (), after) := by
  rw [FileTask.perform, hwrite]

theorem deliverAll_of_error (hperform : errand.task.perform files = (.error fault, after)) :
    deliverAll (errand :: rest) files = (.error (errand.blame fault), after) := by
  rw [deliverAll, hperform]

theorem deliverAll_of_ok (hperform : errand.task.perform files = (.ok (), after)) :
    deliverAll (errand :: rest) files = deliverAll rest after := by
  rw [deliverAll, hperform]

end

theorem deliverAll_append (errands more : List (Errand ε)) (files : FileSystem) :
    deliverAll (errands ++ more) files =
      match deliverAll errands files with
      | (.error error, after) => (.error error, after)
      | (.ok (), after) => deliverAll more after := by
  induction errands generalizing files with
  | nil => rfl
  | cons errand rest ih =>
      rw [List.cons_append]
      cases hperform : errand.task.perform files with
      | mk result after =>
          cases result with
          | error fault => rw [deliverAll_of_error hperform, deliverAll_of_error hperform]
          | ok done => rw [deliverAll_of_ok hperform, deliverAll_of_ok hperform, ih after]

theorem deliverAll_append_eq_ok {errands more : List (Errand ε)} {files after : FileSystem}
    (hdone : deliverAll (errands ++ more) files = (.ok (), after)) :
    ∃ between, deliverAll errands files = (.ok (), between) ∧
      deliverAll more between = (.ok (), after) := by
  rw [deliverAll_append] at hdone
  generalize deliverAll errands files = first at hdone
  obtain ⟨result, between⟩ := first
  cases result with
  | error error => cases hdone
  | ok done => exact ⟨between, rfl, hdone⟩

/-! ## What the files hold -/

section

variable {files after : FileSystem} {path : Path} {text : String}

theorem FileTask.home_perform (task : FileTask) (files : FileSystem) :
    (task.perform files).2.home = files.home := by
  cases task with
  | makeDirs directory => exact (files.extendsTo_createDirAll directory).home
  | write target new =>
      unfold FileTask.perform
      dsimp only
      split
      · rfl
      · rename_i written hwrite
        obtain ⟨-, -, hafter⟩ := FileSystem.eq_put_of_write hwrite
        rw [hafter]
        rfl

theorem home_deliverAll (errands : List (Errand ε)) (files : FileSystem) :
    (deliverAll errands files).2.home = files.home := by
  induction errands generalizing files with
  | nil => rfl
  | cons errand rest ih =>
      have hhome := errand.task.home_perform files
      unfold deliverAll
      split
      · rename_i hperformed
        rwa [hperformed] at hhome
      · rename_i hperformed
        rw [hperformed] at hhome
        exact (ih _).trans hhome

/-- One task. -/
theorem FileTask.read_perform {task : FileTask} (hdone : task.perform files = (.ok (), after))
    (hread : files.read path = .ok text) :
    after.read path = .ok (task.leaves files.home (path.landing files.home) text) := by
  cases task with
  | makeDirs directory =>
      have hafter : (files.createDirAll directory).2 = after := congrArg Prod.snd hdone
      rw [← hafter]
      exact FileSystem.read_createDirAll directory hread
  | write target new =>
      unfold FileTask.perform at hdone
      dsimp only at hdone
      split at hdone
      · cases hdone
      · rename_i written hwrite
        cases hdone
        exact FileSystem.read_write hread hwrite

/-- **What a file holds in the end.** -/
theorem read_deliverAll {errands : List (Errand ε)}
    (hdone : deliverAll errands files = (.ok (), after)) (hread : files.read path = .ok text) :
    after.read path = .ok ((errands.map Errand.task).foldl
      (FileTask.leaves files.home (path.landing files.home)) text) := by
  induction errands generalizing files text with
  | nil =>
      cases hdone
      exact hread
  | cons errand rest ih =>
      unfold deliverAll at hdone
      split at hdone
      · cases hdone
      · rename_i between hperformed
        have hhome : between.home = files.home := by
          have hperform := errand.task.home_perform files
          rwa [hperformed] at hperform
        have hafter := ih hdone (FileTask.read_perform hperformed hread)
        rwa [hhome] at hafter

end

/-- Of many writes, the last one that lands at a place is what stands there. -/
theorem foldl_leaves (home place : Location) (path : α → Path) (content : α → String)
    (items : List α) (text : String) :
    (items.map fun item => FileTask.write (path item) (content item)).foldl
        (FileTask.leaves home place) text =
      ((items.filter fun item => (path item).landing home = place).getLast?.map content).getD
        text := by
  induction items generalizing text with
  | nil => rfl
  | cons item rest ih =>
      rw [List.map_cons, List.foldl_cons, ih, FileTask.leaves]
      by_cases hlands : (path item).landing home = place
      · rw [if_pos hlands, List.filter_cons_of_pos (by simpa using hlands), List.getLast?_cons]
        cases (rest.filter fun item => (path item).landing home = place).getLast? <;> rfl
      · rw [if_neg hlands, List.filter_cons_of_neg (by simpa using hlands)]

end EditPipeline
