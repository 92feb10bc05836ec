import EditPipeline.Text.Span

/-!
# Paths

A path is a text whose segments are separated by slashes.  Two paths that are
spelled differently can have the same components: empty segments do not count,
nor does a segment of one dot, unless the path begins with it.

Paths are not looked up here, so a segment of two dots stays a component.
-/

namespace EditPipeline

/-- A path as it is spelled. -/
structure Path where
  text : String
deriving DecidableEq, Repr, Inhabited

namespace Path

/-- A part of a path that counts. -/
inductive Component where
  /-- The slash that the path begins with. -/
  | root
  /-- The dot that the path begins with. -/
  | here
  /-- Two dots. -/
  | parent
  | name (segment : List Char)
deriving DecidableEq, Repr

/-! ## Segments -/

/-- The pieces of a text between slashes. -/
def split : List Char → List (List Char)
  | [] => [[]]
  | c :: rest =>
    if c = '/' then [] :: split rest
    else
      match split rest with
      | [] => [[c]]
      | segment :: more => (c :: segment) :: more

/-- The text of pieces with slashes between them. -/
def unsplit : List (List Char) → List Char
  | [] => []
  | [segment] => segment
  | segment :: more => segment ++ '/' :: unsplit more

theorem split_ne_nil (text : List Char) : split text ≠ [] := by
  cases text with
  | nil => simp [split]
  | cons c rest =>
    simp only [split]
    split
    · simp
    · split <;> simp

theorem unsplit_split (text : List Char) : unsplit (split text) = text := by
  induction text with
  | nil => rfl
  | cons c rest ih =>
    simp only [split]
    split
    · rename_i h
      cases hs : split rest with
      | nil => exact absurd hs (split_ne_nil rest)
      | cons segment more => simp [unsplit, ← hs, ih, h]
    · cases hs : split rest with
      | nil => exact absurd hs (split_ne_nil rest)
      | cons segment more =>
        rw [hs] at ih
        cases more with
        | nil => simpa [unsplit] using ih
        | cons second more => simpa [unsplit] using ih

/-- The segments of a path. -/
def segments (path : Path) : List (List Char) := split path.text.toList

/-- The path of segments. -/
def ofSegments (segments : List (List Char)) : Path := ⟨String.ofList (unsplit segments)⟩

/-- Whether a path begins with a slash. -/
def isAbsolute (path : Path) : Bool := path.text.toList.head? = some '/'

/-- The component that a segment stands for, unless it stands at the front. -/
def Component.ofSegment? (segment : List Char) : Option Component :=
  if segment = [] ∨ segment = ['.'] then none
  else if segment = ['.', '.'] then some .parent
  else some (.name segment)

/-- The component that the first of several segments stands for, or the only
one. -/
def Component.ofFirst? (absolute : Bool) (segment : List Char) : Option Component :=
  if absolute then some .root
  else if segment = ['.'] then some .here
  else ofSegment? segment

/-- The components of a path. -/
def components (path : Path) : List Component :=
  match path.segments with
  | [] => []
  | first :: rest =>
    (Component.ofFirst? path.isAbsolute first).toList ++ rest.filterMap Component.ofSegment?

/-- Whether two paths have the same components. -/
def sameAs (a b : Path) : Bool := a.components = b.components

/-! ## The last component -/

/-- The segments without those at the end that do not count.  The first segment
counts unless it is empty. -/
def trimEnd (segments : List (List Char)) : List (List Char) :=
  match segments with
  | [] => []
  | first :: rest =>
    let skipped (segment : List Char) := (Component.ofSegment? segment).isNone
    first :: (rest.reverse.dropWhile skipped).reverse

/-- Splits the last component that counts off the segments; nothing is left of an
empty path or of a lone root. -/
def splitLast? (path : Path) : Option (List (List Char) × List Char) :=
  match trimEnd path.segments with
  | [] => none
  | [only] => if path.isAbsolute ∨ only = [] then none else some ([], only)
  | first :: second :: rest =>
    let kept := first :: second :: rest
    some (kept.dropLast, kept.getLastD [])

/-- The path without its last component. -/
def parent? (path : Path) : Option Path :=
  match path.splitLast? with
  | none => none
  | some (above, _) =>
    if path.isAbsolute ∧ (trimEnd above).length = 1 then some ⟨"/"⟩
    else some (ofSegments (trimEnd above))

/-- The last component, if it is a name. -/
def fileName? (path : Path) : Option (List Char) :=
  match path.splitLast? with
  | none => none
  | some (_, last) =>
    match Component.ofSegment? last with
    | some (.name segment) => some segment
    | _ => none

/-- A path below another one; an absolute path stays as it is. -/
def join (base path : Path) : Path :=
  if path.isAbsolute then path
  else if base.text = "" ∨ base.text.toList.getLast? = some '/' then ⟨base.text ++ path.text⟩
  else ⟨base.text ++ "/" ++ path.text⟩

/-! ## Extensions -/

/-- A file name before and after its last dot.  A dot at the front begins no
extension. -/
def splitName (name : List Char) : List Char × Option (List Char) :=
  let after := (name.reverse.takeWhile (· ≠ '.')).reverse
  let before := (name.take (name.length - after.length)).dropLast
  if after.length = name.length ∨ before = [] then (name, none) else (before, some after)

/-- A text without as many bytes at its end; a character that only half of would
go stays. -/
def dropBytes (bytes : Nat) (text : List Char) : List Char :=
  let rec go : Nat → List Char → List Char
    | _, [] => []
    | bytes, c :: rest =>
      if bytes = 0 ∨ bytes < c.utf8Size then c :: rest else go (bytes - c.utf8Size) rest
  (go bytes text.reverse).reverse

/-- The path with `extension` after the stem of its file name, and nothing after
that.  A path without a file name stays as it is. -/
def setExtension (extension : String) (path : Path) : Path :=
  match path.splitLast?, path.fileName? with
  | some (above, _), some name =>
    ofSegments (above ++ [(splitName name).1 ++ '.' :: extension.toList])
  | _, _ => path

/-- The path with another extension: as many bytes as the old extension has are
cut off, and the new one is put on what is left. -/
def withExtension (extension : String) (path : Path) : Path :=
  match path.fileName?.bind fun name => (splitName name).2 with
  | none => path.setExtension extension
  | some old =>
    setExtension extension
      ⟨String.ofList (dropBytes (byteSize old) path.text.toList)⟩

/-- The path and all paths above it, the nearest first. -/
def ancestors (path : Path) : List Path :=
  let rec go : Nat → Path → List Path
    | 0, path => [path]
    | n + 1, path =>
      path :: match path.parent? with
        | some above => go n above
        | none => []
  go path.segments.length path

end Path

end EditPipeline
