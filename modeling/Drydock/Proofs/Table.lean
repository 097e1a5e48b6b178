import Drydock.Table
import Mathlib.Data.List.Basic
import Mathlib.Data.List.Induction
import Mathlib.Tactic.Lemma

/-!
# Tables and their entries

A table is its list of entries, so a table that is built from its own entries is the table again,
and a table that is built from any list holds nothing but entries of that list.  As its keys rise,
every key has one entry, and looking a key up is looking for its entry.

Entries are kept by rising key, and setting a key puts its entry in place or takes the place of the
one that is there.  Three questions are asked of a table, and each is answered by one induction.
What it answers for a key after another one is set follows the insertion into the list.  What its
entries are, once it is built from a list, follows the fold, and for a list that is already ordered
every entry goes to the end.  And which entry of an unordered list counts is asked from the end of
the list, since a later entry replaces an earlier one with its key.

A set of names is a table with nothing in it but keys.  Two sets with the same names have the same
keys in the same order, because a list that rises is fixed by its members.

* `Table.get?_insert` — what a table answers once a key is set.
* `Table.get?_eq_some_iff` — the value of a key stands in its entry.
* `Table.get?_ofList_eq_some_iff` — of the entries that a list has for a key, the last one counts.
* `NameSet.ext_keys` — a set of names is fixed by its names.
-/

namespace Drydock

namespace Table

variable {α : Type}

@[ext] lemma ext {s t : Table α} (h : s.entries = t.entries) : s = t := by
  cases s
  cases t
  cases h
  rfl

lemma insertEntry_of_forall_lt {key : String} {value : α} {entries : List (String × α)}
    (h : ∀ e ∈ entries, e.1 < key) : insertEntry key value entries = entries ++ [(key, value)] := by
  induction entries with
  | nil => rfl
  | cons e rest ih =>
      have hlt : e.1 < key := h e (by simp)
      have hnot : ¬ key < e.1 := String.lt_asymm hlt
      have hne : key ≠ e.1 := fun heq => String.lt_irrefl key (heq ▸ hlt)
      rw [insertEntry, if_neg hnot, if_neg hne, ih fun e' he' => h e' (List.mem_cons_of_mem _ he')]
      rfl

lemma foldl_insert_entries (t : Table α) (entries : List (String × α))
    (h : (t.entries ++ entries).Pairwise fun a b => a.1 < b.1) :
    (entries.foldl (fun t e => t.insert e.1 e.2) t).entries = t.entries ++ entries := by
  induction entries generalizing t with
  | nil => simp
  | cons e rest ih =>
      have hlast : (t.insert e.1 e.2).entries = t.entries ++ [e] :=
        insertEntry_of_forall_lt fun e' he' => (List.pairwise_append.1 h).2.2 e' he' e (by simp)
      rw [List.foldl_cons, ih (t.insert e.1 e.2) (by simpa [hlast] using h), hlast]
      simp

lemma ofList_entries (t : Table α) : ofList t.entries = t := by
  ext1
  have h := foldl_insert_entries (empty : Table α) t.entries (by simpa [empty] using t.ordered)
  simpa [ofList, empty] using h

lemma mem_of_mem_insert {t : Table α} {key : String} {value : α} {e : String × α}
    (h : e ∈ (t.insert key value).entries) : e = (key, value) ∨ e ∈ t.entries :=
  mem_insertEntry h

/-- Every entry of a table that is built from a list comes from the list. -/
lemma mem_of_mem_ofList {entries : List (String × α)} {e : String × α}
    (h : e ∈ (ofList entries).entries) : e ∈ entries := by
  -- The table that the fold starts from has to be arbitrary for the induction.
  have hfold : ∀ (entries : List (String × α)) (t : Table α),
      e ∈ (entries.foldl (fun t e => t.insert e.1 e.2) t).entries →
        e ∈ t.entries ∨ e ∈ entries := by
    intro entries
    induction entries with
    | nil => exact fun t h => .inl h
    | cons x rest ih =>
        intro t h
        rcases ih (t.insert x.1 x.2) h with h | h
        · rcases mem_of_mem_insert h with rfl | h
          · exact .inr (by simp)
          · exact .inl h
        · exact .inr (List.mem_cons_of_mem _ h)
  rcases hfold entries empty h with h | h
  · simp [empty] at h
  · exact h

/-! ## Looking up -/

lemma lookup_cons_eq (e : String × α) (entries : List (String × α)) (key : String) :
    (e :: entries).lookup key = if key = e.1 then some e.2 else entries.lookup key := by
  by_cases h : key = e.1
  · rw [if_pos h, List.lookup_cons, beq_iff_eq.2 h]
  · rw [if_neg h, List.lookup_cons, beq_eq_false_iff_ne.2 h]

lemma lookup_insertEntry (key : String) (value : α) (k : String) (entries : List (String × α)) :
    (insertEntry key value entries).lookup k =
      if k = key then some value else entries.lookup k := by
  induction entries with
  | nil => rw [insertEntry, lookup_cons_eq]
  | cons e rest ih =>
      unfold insertEntry
      split
      · rw [lookup_cons_eq]
      · split
        · rename_i hkey
          rw [lookup_cons_eq, lookup_cons_eq, ← hkey]
          split <;> rfl
        · rename_i hkey
          rw [lookup_cons_eq, lookup_cons_eq, ih]
          -- The key is passed over, so an entry of this name is the one that was there.
          by_cases hk : k = e.1
          · have hne : k ≠ key := fun h => hkey (h.symm.trans hk)
            rw [if_pos hk, if_neg hne, if_pos hk]
          · rw [if_neg hk, if_neg hk]

lemma get?_insert (t : Table α) (key : String) (value : α) (k : String) :
    (t.insert key value).get? k = if k = key then some value else t.get? k :=
  lookup_insertEntry key value k t.entries

/-- The value of a key stands in its entry. -/
lemma get?_eq_some_iff {t : Table α} {key : String} {value : α} :
    t.get? key = some value ↔ (key, value) ∈ t.entries := by
  obtain ⟨entries, hordered⟩ := t
  change entries.lookup key = some value ↔ (key, value) ∈ entries
  induction entries with
  | nil => simp
  | cons e rest ih =>
      obtain ⟨hfirst, hrest⟩ := List.pairwise_cons.1 hordered
      rw [lookup_cons_eq, List.mem_cons, Prod.ext_iff]
      by_cases hkey : key = e.1
      · subst hkey
        -- Keys rise, so the key of the first entry does not occur behind it.
        have hnot : (e.1, value) ∉ rest := fun hmem =>
          String.lt_irrefl e.1 (hfirst (e.1, value) hmem)
        simp [hnot, eq_comm]
      · simp [hkey, ih hrest]

/-- Of the entries that a list has for a key, the last one counts. -/
lemma get?_ofList (entries : List (String × α)) (k : String) :
    (ofList entries).get? k = entries.reverse.lookup k := by
  induction entries using List.reverseRecOn with
  | nil => rfl
  | append_singleton entries e ih =>
      have hlast : ofList (entries ++ [e]) = (ofList entries).insert e.1 e.2 := List.foldl_concat ..
      rw [hlast, get?_insert, ih, List.reverse_concat, lookup_cons_eq]

lemma get?_ofList_eq_some_iff {entries : List (String × α)} {k : String} {value : α} :
    (ofList entries).get? k = some value ↔
      ∃ front back, entries = front ++ (k, value) :: back ∧ ∀ e ∈ back, e.1 ≠ k := by
  rw [get?_ofList, List.lookup_eq_some_iff]
  constructor
  · rintro ⟨back, front, hentries, hback⟩
    refine ⟨front.reverse, back.reverse, ?_, fun e he => ?_⟩
    · simpa using congrArg List.reverse hentries
    · exact Ne.symm (bne_iff_ne.1 (hback e (List.mem_reverse.1 he)))
  · rintro ⟨front, back, rfl, hback⟩
    exact ⟨back.reverse, front.reverse, by simp,
      fun e he => bne_iff_ne.2 (Ne.symm (hback e (List.mem_reverse.1 he)))⟩

lemma get?_ofList_eq_none_iff {entries : List (String × α)} {k : String} :
    (ofList entries).get? k = none ↔ ∀ e ∈ entries, e.1 ≠ k := by
  rw [get?_ofList, List.lookup_eq_none_iff]
  simp only [List.mem_reverse, bne_iff_ne, ne_comm]

lemma mem_keys_iff {t : Table α} {k : String} : k ∈ t.keys ↔ (t.get? k).isSome := by
  rw [get?, List.lookup_isSome_iff, keys, List.mem_map]
  simp only [beq_iff_eq, eq_comm (a := k)]

lemma pairwise_keys (t : Table α) : t.keys.Pairwise (· < ·) := List.pairwise_map.2 t.ordered

lemma nodup_keys (t : Table α) : t.keys.Nodup :=
  t.pairwise_keys.imp fun h => fun heq => String.lt_irrefl _ (heq ▸ h)

end Table

/-! ## Sets of names -/

namespace NameSet

lemma mem_keys_ofNames {names : List String} {name : String} :
    name ∈ (ofNames names).keys ↔ name ∈ names := by
  rw [Table.mem_keys_iff, ofNames, Table.get?_ofList, List.lookup_isSome_iff]
  simp

/-- A set of names is fixed by its names. -/
lemma ext_keys {s t : NameSet} (h : ∀ name, name ∈ s.keys ↔ name ∈ t.keys) : s = t := by
  have hperm : s.keys.Perm t.keys := (List.perm_ext_iff_of_nodup s.nodup_keys t.nodup_keys).2 h
  have hkeys : s.keys = t.keys :=
    List.Perm.eq_of_pairwise (fun a b _ _ hab hba => absurd hba (String.lt_asymm hab))
      s.pairwise_keys t.pairwise_keys hperm
  ext1
  exact List.map_injective_iff.2 (fun a b hab => Prod.ext hab rfl) hkeys

end NameSet

end Drydock
