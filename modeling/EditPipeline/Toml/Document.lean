import EditPipeline.Toml.Statement

/-!
# TOML documents

A document is the table that its statements build.  An assignment belongs to the
table of the last header before it, or to the whole document if there is none.
-/

namespace EditPipeline.Toml

/-- A document that is being built. -/
structure Document where
  entries : Entries := []
  /-- The keys that lead to the table of the last header. -/
  current : List Key := []
deriving Inhabited

/-- The document after one more statement; nothing if it may not stand there. -/
def Document.apply? (document : Document) : Statement → Option Document
  | .table path span => do
    return ⟨← Entries.openTable? path span .header document.entries, path.keys⟩
  | .element path span => do
    return ⟨← Entries.openElement? path span .header document.entries, path.keys⟩
  | .assignment path span value => do
    let entries ← Entries.within? false (Entries.assign? path span value) document.current
      .header document.entries
    return { document with entries }

/-- The entries of a document as text; nothing if it is not TOML. -/
def ofText? (text : String) : Option Entries := do
  let tokens ← scan? text.toList
  let statements ← Statement.ofTokens? tokens
  let document ← statements.foldlM Document.apply? {}
  return document.entries

end EditPipeline.Toml
