/-!
# Places in a text

Places are counted in bytes of UTF-8, as tools that show a text to people expect.
-/

namespace EditPipeline

/-- A stretch of a text. -/
structure Span where
  /-- How many bytes stand before it. -/
  start : Nat
  /-- How many bytes it has. -/
  length : Nat
deriving DecidableEq, Repr, Inhabited

/-- The end of a stretch. -/
def Span.stop (span : Span) : Nat := span.start + span.length

/-- The stretch from the start of one to the end of another one. -/
def Span.through (first last : Span) : Span := ⟨first.start, last.stop - first.start⟩

/-- The size of a text in bytes. -/
def byteSize : List Char → Nat
  | [] => 0
  | c :: rest => c.utf8Size + byteSize rest

theorem byteSize_append (text more : List Char) :
    byteSize (text ++ more) = byteSize text + byteSize more := by
  induction text with
  | nil => exact (Nat.zero_add _).symm
  | cons c text ih => rw [List.cons_append, byteSize, byteSize, ih, Nat.add_assoc]

end EditPipeline
