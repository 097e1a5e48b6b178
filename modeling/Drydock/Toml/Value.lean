/-!
# Values of a TOML document

A document is a tree of values.  Numbers and moments keep the text they were written with, because
no manifest field holds one.

A table remembers how it came to be, its `Standing`, because that decides who may still add keys to
it: `Value.define` adds the key of a `key = value` line, and refuses a key that is taken and a table
that is complete.
-/

namespace Drydock.Toml

/-- How a table came to be. -/
inductive Standing where
  /-- A header named it. -/
  | headed
  /-- A header named something inside it. -/
  | implied
  /-- A dotted key named something inside it. -/
  | dotted
  /-- It was written between braces. -/
  | inline
  deriving DecidableEq, Repr

/-- A value of a document. -/
inductive Value where
  | text (s : String)
  | boolean (b : Bool)
  | number (written : String)
  /-- A date, a time, or both. -/
  | moment (written : String)
  | array (items : List Value)
  | table (standing : Standing) (entries : List (String × Value))
  /-- The tables of an array that headers in double brackets write one by one. -/
  | tables (elements : List (List (String × Value)))
  deriving Repr, Inhabited

/-- The entries of a table, in the order of the document. -/
abbrev Entries := List (String × Value)

/-- Replaces the value of a key that is there. -/
def Entries.set (entries : Entries) (key : String) (value : Value) : Entries :=
  entries.map fun e => if e.1 = key then (key, value) else e

/-- Changes the table at the end of a path.  Missing tables on the way are made; of an array of
tables the last one is meant.  On the way of a dotted key no table may have a header or braces. -/
def Entries.alter (dotted : Bool) (change : Standing → Entries → Option Entries) :
    List String → Standing → Entries → Option Entries
  | [], standing, entries => change standing entries
  | key :: path, _, entries =>
      match entries.lookup key with
      | none =>
          let standing := if dotted then Standing.dotted else .implied
          (alter dotted change path standing []).map fun inner =>
            entries ++ [(key, .table standing inner)]
      | some (.table standing inner) =>
          if standing = .inline ∨ (dotted ∧ standing = .headed) then none
          else
            (alter dotted change path standing inner).map fun inner =>
              entries.set key (.table standing inner)
      | some (.tables elements) =>
          (alter dotted change path .headed (elements.getLast?.getD [])).map fun inner =>
            entries.set key (.tables (elements.dropLast ++ [inner]))
      | some _ => none

/-- Adds a key that is not there yet. -/
def Entries.add (key : String) (value : Value) (entries : Entries) : Option Entries :=
  if (entries.lookup key).isSome then none else some (entries ++ [(key, value)])

/-- Adds the value of a dotted key.  A table that the key passes through has to be one that dotted
keys made. -/
def Entries.define (entries : Entries) (standing : Standing) (path : List String) (key : String)
    (value : Value) : Option Entries :=
  entries.alter true
    (fun standing inner =>
      if (standing = .dotted) = (path = []) then none else inner.add key value)
    path standing

end Drydock.Toml
