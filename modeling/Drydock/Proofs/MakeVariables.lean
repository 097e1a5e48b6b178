import Drydock.MakeVariables
import Drydock.Proofs.Table
import Drydock.Proofs.Text.Cuts

/-!
# The record of the make variables can be read back

What the vendored build reports is read, kept in a table, written to a record and read again by
later runs.  The chain loses nothing, because everything that reading lets in survives writing: keys
without blanks and `=`, and values that are trimmed and hold no line feed.

The condition is exact, and the reason is that reading always ends in it.  A line is cut at its
first `=`, both sides are trimmed, and a key with a blank in it is dropped; so whatever is read has
a key that is one word without `=` and a value that is trimmed.  A value that holds a line feed, or
begins with a blank, can be put into a table by hand, but it is not what the record reads back to.

The other direction goes entry by entry.  A line of the record is the key, an `=` between two
spaces, and the value, and reading it cuts it at that `=`, because the key has none.  The lines are
told apart by their line feeds, and no carriage return is dropped from one, since a trimmed value
ends in none.  Then the table is built again from its own entries.

* `MakeVariables.Recordable` — the variables of which this holds.
* `MakeVariables.recordable_parse` — reading any report gives such variables.
* `MakeVariables.parse_render` — such variables are read back from their record.
* `MakeVariables.parse_render_iff` — no others are.
-/

namespace Drydock

namespace MakeVariables

variable {v : MakeVariables} {key value : String} {line : List Char}

/-! ## Lines of a record -/

/-- An entry that survives a line of the record. -/
structure RecordableEntry (entry : String × String) : Prop where
  key_ne : entry.1.toList ≠ []
  key_notBlank : ∀ c ∈ entry.1.toList, Text.isBlank c = false
  key_noEquals : '=' ∉ entry.1.toList
  value_trimmed : Text.Trimmed entry.2.toList
  value_oneLine : '\n' ∉ entry.2.toList

/-- Variables of which every one survives its line. -/
def Recordable (v : MakeVariables) : Prop := ∀ e ∈ v.entries, RecordableEntry e

lemma trimmed_of_notBlank {cs : List Char} (h : ∀ c ∈ cs, Text.isBlank c = false) :
    Text.Trimmed cs :=
  ⟨fun c hc => h c (List.mem_of_mem_head? hc), fun c hc => h c (List.mem_of_mem_getLast? hc)⟩

/-- A line without a line feed says nothing that its record would lose. -/
lemma recordableEntry_of_entryOf? {e : String × String} (hline : '\n' ∉ line)
    (h : entryOf? line = some e) : RecordableEntry e := by
  rw [entryOf?, Option.bind_eq_some_iff] at h
  obtain ⟨⟨before, after⟩, hsplit, h⟩ := h
  obtain ⟨rfl, hnot⟩ := Text.splitOnceChars_eq_some_iff.1 hsplit
  dsimp only at h
  split at h
  · simp at h
  · rename_i hkey
    obtain ⟨hne, hblank⟩ := not_or.1 hkey
    obtain rfl : _ = e := by simpa using h
    refine ⟨by simpa using hne, by simpa using hblank, ?_, ?_, ?_⟩
    · simpa using fun hmem => hnot (Text.mem_of_mem_trimChars hmem)
    · simpa using Text.trimmed_trimChars after
    · have hafter : '\n' ∉ after := fun hmem => hline (by simp [hmem])
      simpa using fun hmem => hafter (Text.mem_of_mem_trimChars hmem)

lemma recordable_parse (report : String) : Recordable (parse report) := by
  intro e he
  obtain ⟨line, hline, hentry⟩ := List.mem_filterMap.1 (Table.mem_of_mem_ofList he)
  exact recordableEntry_of_entryOf? (Text.notMem_of_mem_lineChars hline) hentry

/-- The characters of a line of the record, without its line feed. -/
def lineBody (entry : String × String) : List Char :=
  entry.1.toList ++ [' '] ++ '=' :: ([' '] ++ entry.2.toList)

lemma toList_line (entry : String × String) : (MakeVariables.line entry).toList =
    lineBody entry ++ ['\n'] := by
  simp [MakeVariables.line, lineBody, String.toList_append]

lemma entryOf?_lineBody {e : String × String} (h : RecordableEntry e) :
    entryOf? (lineBody e) = some e := by
  -- The key has no `=`, so the first one is that of the line.
  have hsplit : Text.splitOnceChars '=' (lineBody e) =
      some (e.1.toList ++ [' '], [' '] ++ e.2.toList) :=
    Text.splitOnceChars_eq_some_iff.2 ⟨rfl, by simpa using h.key_noEquals⟩
  have hblank : ∀ c ∈ [' '], Text.isBlank c = true := by
    simp [show Text.isBlank ' ' = true by decide]
  have hkey : Text.trimChars ([] ++ e.1.toList ++ [' ']) = e.1.toList :=
    Text.trimChars_append (trimmed_of_notBlank h.key_notBlank) (by simp) hblank
  have hvalue : Text.trimChars ([' '] ++ e.2.toList ++ []) = e.2.toList :=
    Text.trimChars_append h.value_trimmed hblank (by simp)
  rw [List.nil_append] at hkey
  rw [List.append_nil] at hvalue
  have hnot : ¬ (e.1.toList = [] ∨ e.1.toList.any Text.isBlank = true) := by
    simpa [h.key_ne] using h.key_notBlank
  rw [entryOf?, hsplit, Option.bind_some]
  dsimp only
  rw [hkey, hvalue, if_neg hnot, String.ofList_toList, String.ofList_toList]

/-! ## Reading the record -/

lemma lineChars_render (entries : List (String × String)) (h : ∀ e ∈ entries, RecordableEntry e) :
    (Text.lineChars (String.join (entries.map MakeVariables.line)).toList).filterMap entryOf? =
      entries := by
  induction entries with
  | nil => simp [Text.lineChars_nil]
  | cons e rest ih =>
      have he := h e (by simp)
      have hbody : '\n' ∉ lineBody e := by
        have hblank : Text.isBlank '\n' = true := by decide
        have hkey : '\n' ∉ e.1.toList := fun hmem => by simpa [hblank] using he.key_notBlank _ hmem
        simpa [lineBody, hkey] using he.value_oneLine
      -- The line ends with the value, which is trimmed, or with a space.
      have hreturn : Text.dropReturn (lineBody e) = lineBody e := by
        refine Text.dropReturn_eq_self fun c hc => ?_
        have hblank : Text.isBlank '\r' = true := by decide
        rintro rfl
        cases hlast : e.2.toList.getLast? with
        | none => simp [lineBody, List.getLast?_append, List.getLast?_cons, hlast] at hc
        | some d =>
            have hd : d = '\r' := by
              simpa [lineBody, List.getLast?_append, List.getLast?_cons, hlast] using hc
            simpa [hd, hblank] using he.value_trimmed.2 d hlast
      have htext : (String.join ((e :: rest).map MakeVariables.line)).toList =
          lineBody e ++ '\n' :: (String.join (rest.map MakeVariables.line)).toList := by
        simp [String.join_cons, String.toList_append, toList_line]
      rw [htext, Text.lineChars_append hbody, hreturn, List.filterMap_cons, entryOf?_lineBody he,
        ih fun e' he' => h e' (List.mem_cons_of_mem _ he')]

/-- Variables that can be recorded are read back from their record. -/
lemma parse_render (h : Recordable v) : parse v.render = v := by
  rw [parse, render, lineChars_render v.entries h, Table.ofList_entries]

lemma trim_eq_self_iff {s : String} : Text.trim s = s ↔ Text.Trimmed s.toList := by
  constructor
  · intro h
    rw [← h, Text.trim, String.toList_ofList]
    exact Text.trimmed_trimChars s.toList
  · intro h
    have htrim : Text.trimChars ([] ++ s.toList ++ []) = s.toList :=
      Text.trimChars_append h (by simp) (by simp)
    rw [List.nil_append, List.append_nil] at htrim
    rw [Text.trim, htrim, String.ofList_toList]

lemma recordableEntry_iff : RecordableEntry (key, value) ↔
    (key ≠ "" ∧ Text.hasBlank key = false ∧ '=' ∉ key.toList) ∧
      Text.trim value = value ∧ '\n' ∉ value.toList := by
  have hkey : key ≠ "" ↔ key.toList ≠ [] := by simp
  have hblank : Text.hasBlank key = false ↔ ∀ c ∈ key.toList, Text.isBlank c = false := by
    simp [Text.hasBlank]
  rw [hkey, hblank, trim_eq_self_iff]
  constructor
  · rintro ⟨hne, hnot, hequals, htrimmed, hline⟩
    exact ⟨⟨hne, hnot, hequals⟩, htrimmed, hline⟩
  · rintro ⟨⟨hne, hnot, hequals⟩, htrimmed, hline⟩
    exact ⟨hne, hnot, hequals, htrimmed, hline⟩

/-- Variables are read back from their record exactly when every key is a word without `=` and
every value is trimmed and on one line; whatever is read from a report is of this kind. -/
theorem parse_render_iff (v : MakeVariables) :
    (parse v.render = v ↔ ∀ key value, v.get? key = some value →
      (key ≠ "" ∧ Text.hasBlank key = false ∧ '=' ∉ key.toList) ∧
        Text.trim value = value ∧ '\n' ∉ value.toList) ∧
      ∀ report, parse (parse report).render = parse report := by
  have hrecordable : Recordable v ↔ ∀ key value, v.get? key = some value →
      (key ≠ "" ∧ Text.hasBlank key = false ∧ '=' ∉ key.toList) ∧
        Text.trim value = value ∧ '\n' ∉ value.toList := by
    simp only [Recordable, Prod.forall, ← Table.get?_eq_some_iff, recordableEntry_iff]
  rw [← hrecordable]
  refine ⟨⟨fun h => ?_, parse_render⟩, fun report => parse_render (recordable_parse report)⟩
  -- What has been read from the record can be recorded, and it is what the record was made from.
  have hread := recordable_parse v.render
  rwa [h] at hread

end MakeVariables

end Drydock
