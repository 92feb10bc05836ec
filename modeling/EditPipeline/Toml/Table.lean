import EditPipeline.Toml.Value

/-!
# Building TOML tables

How entries and headers are put into a table.  A name stands for one thing only:
whatever is written down twice is refused, and a table that was finished once,
by a header or by braces, takes no dotted keys from elsewhere.
-/

namespace EditPipeline.Toml

/-- A key with the tables that lead to it. -/
structure KeyPath where
  above : List Key
  last : Key
deriving DecidableEq, Repr, Inhabited

/-- All parts of the path. -/
def KeyPath.keys (path : KeyPath) : List Key := path.above ++ [path.last]

namespace Entries

/-- Changes the entry of a name, or adds one if there is none. -/
def update? (name : String) (add? : Option (Key × Span × Value))
    (change? : Key × Span × Value → Option (Key × Span × Value)) : Entries → Option Entries
  | [] => add?.map fun entry => [entry]
  | entry :: rest =>
    if entry.1.name = name then (change? entry).map fun entry => entry :: rest
    else (update? name add? change? rest).map fun rest => entry :: rest

/-- Changes the entries of a table with an action that depends on how the table
came to be. -/
abbrev Action := TableKind → Entries → Option Entries

/-- Acts on the last of the tables in an array. -/
def withinLast? (act : Action) : List (Span × Value) → Option (List (Span × Value))
  | [] => none
  | [(span, .table kind entries)] =>
    (act kind entries).map fun entries => [(span, .table kind entries)]
  | [_] => none
  | item :: rest => (withinLast? act rest).map fun rest => item :: rest

/-- The kind of the tables that keys on the way to another table make. -/
def madeBy (dotted : Bool) : TableKind := if dotted then .dotted else .implicit

/-- Whether keys may lead through a table: dotted keys through one that keys have
made, the keys of a header through any that has no braces. -/
def leadsThrough (dotted : Bool) : TableKind → Bool
  | .implicit => true
  | .dotted => true
  | .header => !dotted
  | .inline => false

/-- Acts on the table that keys lead to.  Tables on the way are made as needed; an
array of tables stands for its last one. -/
def within? (dotted : Bool) (act : Action) : List Key → Action
  | [], kind, entries => act kind entries
  | key :: path, _, entries =>
    update? key.name
      ((within? dotted act path (madeBy dotted) []).map fun inner =>
        (key, key.span, .table (madeBy dotted) inner))
      (fun (key, span, value) =>
        match value with
        | .table kind inner =>
          if leadsThrough dotted kind then
            (within? dotted act path kind inner).map fun inner => (key, span, .table kind inner)
          else none
        | .array true items =>
          (withinLast? (within? dotted act path) items).map fun items =>
            (key, span, .array true items)
        | _ => none)
      entries

/-- Gives a value to a key that has none.  A dotted key belongs in a table that
dotted keys have made, and a single key does not. -/
def assign? (path : KeyPath) (span : Span) (value : Value) : Action :=
  within? true
    (fun kind entries =>
      if kind = .dotted ↔ path.above ≠ [] then
        update? path.last.name (some (path.last, span, value)) (fun _ => none) entries
      else none)
    path.above

/-- Makes the table of a header, or takes one that only the headers of inner tables
have named. -/
def openTable? (path : KeyPath) (span : Span) : Action :=
  within? false
    (fun _ =>
      update? path.last.name (some (path.last, span, .table .header []))
        fun (_, _, value) =>
          match value with
          | .table .implicit inner => some (path.last, span, .table .header inner)
          | _ => none)
    path.above

/-- Adds one more table to an array of tables. -/
def openElement? (path : KeyPath) (span : Span) : Action :=
  within? false
    (fun _ =>
      update? path.last.name
        (some (path.last, span, .array true [(span, .table .header [])]))
        fun (key, first, value) =>
          match value with
          | .array true items =>
            some (key, first, .array true (items ++ [(span, .table .header [])]))
          | _ => none)
    path.above

end Entries

end EditPipeline.Toml
