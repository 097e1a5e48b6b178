/-!
# Tables with sorted keys

A `Table` holds one value per key and lists its entries by rising key, in code point order.  Two
tables with the same entries are equal, so a table that is printed and read back can be compared
with the one it came from.

* `Table.insert` — sets a key, replacing an earlier value.
* `Table.get?` — the value of a key.
* `NameSet` — a table without values, the sorted set of its names.
-/

namespace Drydock

/-- Values by key, the keys rising. -/
structure Table (α : Type) where
  entries : List (String × α)
  ordered : entries.Pairwise fun a b => a.1 < b.1

namespace Table

variable {α : Type}

/-- Places `key` among rising keys, replacing its earlier value. -/
def insertEntry (key : String) (value : α) : List (String × α) → List (String × α)
  | [] => [(key, value)]
  | entry :: rest =>
      if key < entry.1 then (key, value) :: entry :: rest
      else if key = entry.1 then (key, value) :: rest
      else entry :: insertEntry key value rest

theorem mem_insertEntry {key : String} {value : α} {entries : List (String × α)}
    {e : String × α} (h : e ∈ insertEntry key value entries) :
    e = (key, value) ∨ e ∈ entries := by
  induction entries with
  | nil => simpa [insertEntry] using h
  | cons entry rest ih =>
      simp only [insertEntry] at h
      split at h
      · simpa using h
      · split at h
        · rcases List.mem_cons.1 h with h | h
          · exact .inl h
          · exact .inr (List.mem_cons_of_mem _ h)
        · rcases List.mem_cons.1 h with h | h
          · exact .inr (by simp [h])
          · exact (ih h).imp_right (List.mem_cons_of_mem _)

theorem pairwise_insertEntry {key : String} {value : α} {entries : List (String × α)}
    (h : entries.Pairwise fun a b => a.1 < b.1) :
    (insertEntry key value entries).Pairwise fun a b => a.1 < b.1 := by
  induction entries with
  | nil => simp [insertEntry]
  | cons entry rest ih =>
      obtain ⟨first, tail⟩ := List.pairwise_cons.1 h
      simp only [insertEntry]
      split
      · rename_i below
        refine List.pairwise_cons.2 ⟨fun e he => ?_, h⟩
        rcases List.mem_cons.1 he with rfl | he
        · exact below
        · exact String.lt_trans below (first e he)
      · split
        · rename_i same
          exact List.pairwise_cons.2 ⟨fun e he => by simpa [same] using first e he, tail⟩
        · rename_i notBelow notSame
          refine List.pairwise_cons.2 ⟨fun e he => ?_, ih tail⟩
          rcases mem_insertEntry he with rfl | he
          · grind
          · exact first e he

/-- The table without entries. -/
def empty : Table α := ⟨[], .nil⟩

instance : Inhabited (Table α) := ⟨empty⟩

instance [DecidableEq α] : DecidableEq (Table α) := fun a b =>
  decidable_of_iff (a.entries = b.entries)
    ⟨fun h => by cases a; cases b; simp_all, fun h => h ▸ rfl⟩

instance [BEq α] : BEq (Table α) := ⟨fun a b => a.entries == b.entries⟩

/-- Sets `key` to `value`. -/
def insert (t : Table α) (key : String) (value : α) : Table α :=
  ⟨insertEntry key value t.entries, pairwise_insertEntry t.ordered⟩

/-- The value of `key`. -/
def get? (t : Table α) (key : String) : Option α := t.entries.lookup key

/-- The keys, rising. -/
def keys (t : Table α) : List String := t.entries.map (·.1)

/-- The number of keys. -/
def size (t : Table α) : Nat := t.entries.length

/-- Sets the keys of a list one after the other, so that the last value of a key stays. -/
def ofList (entries : List (String × α)) : Table α :=
  entries.foldl (fun t e => t.insert e.1 e.2) empty

end Table

/-- A sorted set of names. -/
abbrev NameSet := Table Unit

/-- The sorted set of the names of a list. -/
def NameSet.ofNames (names : List String) : NameSet := Table.ofList (names.map (·, ()))

end Drydock
