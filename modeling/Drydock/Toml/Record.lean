import Drydock.Error
import Drydock.Path
import Drydock.Toml.Document

/-!
# Reading records from values

A `Record` describes how the fields of a record are read.  From a table the fields are read in the
order of the document, so that the first faulty value is reported; fields that are missing come
after that, in the order of the record.  Keys that no field has are ignored.

A record may also be written as an array, its fields in their order.
-/

namespace Drydock.Toml

/-- Reads a value as one of a type. -/
abbrev Read (α : Type) := Value → Except ManifestError α

/-- Reads a string. -/
def readText : Read String
  | .text s => .ok s
  | _ => .error .malformed

/-- Reads a path. -/
def readPath : Read Path := fun v => (readText v).map Path.mk

/-- Reads a truth value. -/
def readBoolean : Read Bool
  | .boolean b => .ok b
  | _ => .error .malformed

/-- The items of an array, of either form. -/
def itemsOf? : Value → Option (List Value)
  | .array items => some items
  | .tables elements => some (elements.map (.table .headed))
  | _ => none

/-- Reads an array. -/
def readList (read : Read α) : Read (List α) := fun v =>
  match itemsOf? v with
  | some items => items.mapM read
  | none => .error .malformed

/-- Reads a value that may be absent where it is present. -/
def readSome (read : Read α) : Read (Option α) := fun v => (read v).map some

/-- A field by its name, with the test of its value. -/
structure Field where
  name : String
  check : Value → Except ManifestError Unit

/-- The values of a record's fields. -/
structure Fields where
  entries : Entries
  /-- Whether the record was written as an array. -/
  positional : Bool

/-- The fields of a record and what is made of them. -/
structure Record (α : Type) where
  fields : List Field
  build : Fields → Except ManifestError α

namespace Record

/-- A field with a rule for its absence. -/
def field (name : String) (read : Read α) (absent : Bool → Except ManifestError α) : Record α where
  fields := [⟨name, fun v => (read v).map fun _ => ()⟩]
  build fs :=
    match fs.entries.lookup name with
    | some v => read v
    | none => absent fs.positional

/-- A field that has to be there. -/
def required (name : String) (read : Read α) : Record α :=
  field name read fun positional =>
    .error (if positional then .malformed else .missingField name)

/-- A field with a value for its absence. -/
def withDefault (name : String) (read : Read α) (default : α) : Record α :=
  field name read fun _ => .ok default

/-- A list that is empty where it is absent. -/
def listed (name : String) (read : Read α) : Record (List α) :=
  withDefault name (readList read) []

/-- A field that may be absent. -/
def optional (name : String) (read : Read α) : Record (Option α) :=
  withDefault name (readSome read) none

/-- A field that may be absent from a table, but not from an array. -/
def nullable (name : String) (read : Read α) : Record (Option α) :=
  field name (readSome read) fun positional =>
    if positional then .error .malformed else .ok none

instance : Functor Record where
  map f r := { fields := r.fields, build := fun fs => (r.build fs).map f }

instance : Seq Record where
  seq f x :=
    { fields := f.fields ++ (x ()).fields
      build := fun fs => do
        let g ← f.build fs
        let a ← (x ()).build fs
        return g a }

/-- The values of the fields in a value: of a table by name, of an array by position. -/
def fieldsOf? (names : List String) (v : Value) : Option Fields :=
  match v with
  | .table _ entries => some { entries, positional := false }
  | _ => (itemsOf? v).map fun items => { entries := names.zip items, positional := true }

/-- Tests the values of all known fields, in the order of the document. -/
def checkAll (fields : List Field) (entries : Entries) : Except ManifestError Unit :=
  entries.forM fun (name, v) =>
    match fields.find? (·.name = name) with
    | some f => f.check v
    | none => .ok ()

/-- Reads a record. -/
def read (r : Record α) : Read α := fun v =>
  match fieldsOf? (r.fields.map (·.name)) v with
  | some fs => do
      checkAll r.fields fs.entries
      r.build fs
  | none => .error .malformed

end Record

/-- Looks a word up among the choices of a field. -/
def choose (choices : List (String × α)) (word : String) : Except ManifestError α :=
  match choices.lookup word with
  | some a => .ok a
  | none => .error (.unknownVariant word (choices.map (·.1)))

end Drydock.Toml
