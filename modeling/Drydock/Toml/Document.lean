import Drydock.Toml.Reader

/-!
# Documents

`Toml.document?` reads a text and puts its statements together into the entries of one table.  A
header opens a table, which must not have been opened before; the keys below it go into that table.
-/

namespace Drydock.Toml

/-- A document under construction: its entries, and the table that keys go to. -/
structure Draft where
  entries : Entries := []
  current : List String := []

namespace Draft

/-- Changes the table at the end of a header's path. -/
def alterAt (path : List String) (change : Entries → Option Entries) (entries : Entries) :
    Option Entries :=
  entries.alter false (fun _ inner => change inner) path .headed

/-- Opens a table.  One that a header only implied keeps its entries and moves to the end. -/
def openTable (key : String) (entries : Entries) : Option Entries :=
  match entries.lookup key with
  | none => some (entries ++ [(key, .table .headed [])])
  | some (.table .implied inner) =>
      some (entries.filter (·.1 ≠ key) ++ [(key, .table .headed inner)])
  | some _ => none

/-- Opens a further table of an array. -/
def openElement (key : String) (entries : Entries) : Option Entries :=
  match entries.lookup key with
  | none => some (entries ++ [(key, .tables [[]])])
  | some (.tables elements) => some (entries.set key (.tables (elements ++ [[]])))
  | some _ => none

/-- Adds what a statement says. -/
def add (d : Draft) : Statement → Option Draft
  | .assign path key value =>
      (alterAt d.current (fun inner => inner.define .headed path key value) d.entries).map
        fun entries => { d with entries }
  | .header path key =>
      (alterAt path (openTable key) d.entries).map fun entries =>
        { entries, current := path ++ [key] }
  | .element path key =>
      (alterAt path (openElement key) d.entries).map fun entries =>
        { entries, current := path ++ [key] }

end Draft

/-- Drops a byte order mark. -/
def withoutMark : List Char → List Char
  | '\ufeff' :: rest => rest
  | cs => cs

/-- The entries of a document, or nothing where the text is not a document. -/
def document? (text : String) : Option Entries := do
  let statements ← statements? [] (withoutMark text.toList)
  let draft ← statements.foldlM Draft.add {}
  return draft.entries

end Drydock.Toml
