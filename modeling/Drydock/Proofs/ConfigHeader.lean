import Drydock.ConfigHeader
import Drydock.Proofs.Flags
import Drydock.Proofs.Text.Cuts
import Mathlib.Data.List.Forall2

/-!
# What a configuration header says can be read back

A header is read line by line: behind `#define`, the common prefix and the name of a variable stands
a C string.  A double quote inside it is always escaped, so the string ends where its value ends,
and a backslash is always followed by the character that it escapes.

Three readers undo three writers.  `readString` undoes the escaping: it runs through the inside of a
string, whatever stands behind the closing quote, by induction on `Denotes`.  `Text.lineChars`
undoes the joining of lines, provided that no line holds a line feed; this is the one thing that the
escaping does not take care of, and it is a hypothesis of the result.  `valueOf?` undoes the writing
of an entry, since the name of a variable ends at a space and none of the names has one.

The flags of a list are rendered into one text before they are escaped, so they come back where
`Flags.split` gives them back.  Placeholders stand behind the variables, and the first line that
defines a name counts, so none of them can hide a value.

* `ConfigHeader.Denotes` — the inside of a C string and the text it stands for.
* `ConfigHeader.readString` — reads a C string up to its closing quote.
* `ConfigHeader.valueOf?` — the value that a header gives to a variable.
* `ConfigHeader.render_readable` — one line for each entry, each with the value of its entry, and
  the flags of every list come back.
-/

namespace Drydock.ConfigHeader

/-! ## C strings -/

/-- The inside of a C string with the text it stands for: a double quote occurs behind a backslash
only, and a backslash only in front of the backslash or the double quote that it escapes. -/
inductive Denotes : List Char → List Char → Prop
  | nil : Denotes [] []
  | plain {c : Char} {inside value : List Char} (hc : ¬ (c = '\\' ∨ c = '"'))
      (h : Denotes inside value) : Denotes (c :: inside) (c :: value)
  | escaped {c : Char} {inside value : List Char} (hc : c = '\\' ∨ c = '"')
      (h : Denotes inside value) : Denotes ('\\' :: c :: inside) (c :: value)

/-- Reads a C string behind its opening quote: the text it stands for, and what follows its closing
quote.  A string that is not closed cannot be read, nor can an escape of another character. -/
def readString : List Char → Option (List Char × List Char)
  | '"' :: rest => some ([], rest)
  | '\\' :: c :: rest =>
      if c = '\\' ∨ c = '"' then (readString rest).map fun (value, rest) => (c :: value, rest)
      else none
  | c :: rest =>
      if c = '\\' then none else (readString rest).map fun (value, rest) => (c :: value, rest)
  | [] => none

variable {keyPrefix name value : String} {inside content : List Char} {c : Char}
  {e : String × String} {entries : List (String × String)}

lemma Denotes.readString_append (h : Denotes inside content) (rest : List Char) :
    readString (inside ++ '"' :: rest) = some (content, rest) := by
  induction h with
  | nil => simp [readString]
  | plain hc _ ih =>
      obtain ⟨hslash, hquote⟩ := not_or.1 hc
      simp [readString, hslash, ih]
  | escaped hc _ ih => simp [readString, hc, ih]

/-- Escaping writes the inside of a C string. -/
lemma denotes_escape (content : List Char) : Denotes (escape content) content := by
  induction content with
  | nil => exact .nil
  | cons c content ih =>
      unfold escape
      split
      · rename_i hc
        exact .escaped hc ih
      · rename_i hc
        exact .plain hc ih

/-- Writes `text` in place of a character. -/
def replaceChar (c : Char) (text : List Char) (cs : List Char) : List Char :=
  cs.flatMap fun d => if d = c then text else [d]

/-- Escaping in one pass is the same as escaping backslashes first and quotes behind them.  The
other way round, the backslashes that escape quotes would be escaped as well. -/
lemma escape_eq_replaceChar (content : List Char) :
    escape content = replaceChar '"' ['\\', '"'] (replaceChar '\\' ['\\', '\\'] content) := by
  induction content with
  | nil => rfl
  | cons c content ih =>
      rw [escape, ih]
      -- A backslash is doubled by the first replacement, and the second one leaves it alone.
      by_cases hslash : c = '\\'
      · simp [replaceChar, hslash]
      · by_cases hquote : c = '"' <;> simp [replaceChar, hslash, hquote]

lemma mem_escape {content : List Char} (h : c ∈ escape content) : c ∈ content ∨ c = '\\' := by
  induction content with
  | nil => simp [escape] at h
  | cons d content ih =>
      unfold escape at h
      split at h
      · simp only [List.mem_cons] at h ⊢
        tauto
      · simp only [List.mem_cons] at h ⊢
        tauto

/-! ## Lines -/

/-- What stands in front of a value. -/
def opening (keyPrefix name : String) : String :=
  "#define " ++ keyPrefix ++ "_" ++ name ++ " \""

/-- A line that defines an entry: its value stands between two quotes as a C string. -/
def Defines (keyPrefix : String) (entry : String × String) (line : String) : Prop :=
  ∃ inside : String, line = "#define " ++ keyPrefix ++ "_" ++ entry.1 ++ " \"" ++ inside ++ "\"" ∧
    Denotes inside.toList entry.2.toList ∧
    ∀ rest, readString (inside.toList ++ '"' :: rest) = some (entry.2.toList, rest)

/-- The characters of a line, without its line feed. -/
def lineBody (keyPrefix : String) (entry : String × String) : List Char :=
  (opening keyPrefix entry.1).toList ++ (escape entry.2.toList ++ ['"'])

lemma toList_line (keyPrefix : String) (entry : String × String) :
    (line keyPrefix entry).toList = lineBody keyPrefix entry ++ ['\n'] := by
  simp [line, lineBody, opening, String.toList_append]

lemma defines_lineBody (keyPrefix : String) (entry : String × String) :
    Defines keyPrefix entry (.ofList (lineBody keyPrefix entry)) := by
  have hdenotes := denotes_escape entry.2.toList
  refine ⟨.ofList (escape entry.2.toList), ?_, by rwa [String.toList_ofList], fun rest => ?_⟩
  · apply String.toList_injective
    simp [lineBody, opening, String.toList_append]
  · rw [String.toList_ofList, hdenotes.readString_append]

/-- An entry that is written to one line. -/
def OneLine (entry : String × String) : Prop := '\n' ∉ entry.1.toList ∧ '\n' ∉ entry.2.toList

lemma noLineFeed_lineBody (hkey : '\n' ∉ keyPrefix.toList) (he : OneLine e) :
    '\n' ∉ lineBody keyPrefix e := by
  have hescape : '\n' ∉ escape e.2.toList := fun hmem => by
    rcases mem_escape hmem with hmem | hmem
    · exact he.2 hmem
    · exact absurd hmem (by decide)
  simp [lineBody, opening, String.toList_append, hkey, he.1, hescape]

lemma lineChars_join (hkey : '\n' ∉ keyPrefix.toList) (h : ∀ e ∈ entries, OneLine e) :
    Text.lineChars (String.join (entries.map (line keyPrefix))).toList =
      entries.map (lineBody keyPrefix) := by
  induction entries with
  | nil => simp [Text.lineChars_nil]
  | cons e entries ih =>
      obtain ⟨he, hentries⟩ := List.forall_mem_cons.1 h
      -- A line ends with a quote, so there is no carriage return to be dropped.
      have hreturn : Text.dropReturn (lineBody keyPrefix e) = lineBody keyPrefix e := by
        refine Text.dropReturn_eq_self fun c hc => ?_
        obtain rfl : '"' = c := by simpa [lineBody] using hc
        decide
      have htext : (String.join ((e :: entries).map (line keyPrefix))).toList =
          lineBody keyPrefix e ++ '\n' :: (String.join (entries.map (line keyPrefix))).toList := by
        simp [String.join_cons, String.toList_append, toList_line]
      rw [htext, Text.lineChars_append (noLineFeed_lineBody hkey he), hreturn, ih hentries,
        List.map_cons]

/-! ## Looking a variable up -/

/-- The value that a line gives to the variable `name`, if it defines it. -/
def valueIn? (keyPrefix name : String) (line : List Char) : Option String :=
  (Text.dropStart? (opening keyPrefix name).toList line).bind fun rest =>
    match readString rest with
    | some (value, []) => some (.ofList value)
    | _ => none

/-- The value that a header gives to the variable `name`: the first line that defines it counts. -/
def valueOf? (keyPrefix name text : String) : Option String :=
  (Text.lineChars text.toList).findSome? (valueIn? keyPrefix name)

/-- A line gives its value to its own variable and to no other; a space ends the name. -/
lemma valueIn?_lineBody (hname : ' ' ∉ name.toList) (he : ' ' ∉ e.1.toList) :
    valueIn? keyPrefix name (lineBody keyPrefix e) = if e.1 = name then some e.2 else none := by
  split
  · rename_i heq
    subst heq
    have hstart := Text.dropStart?_eq_some_iff.2
      (show (opening keyPrefix e.1).toList ++ _ = lineBody keyPrefix e from rfl)
    simp [valueIn?, hstart, (denotes_escape e.2.toList).readString_append]
  · rename_i hne
    have hstart :
        Text.dropStart? (opening keyPrefix name).toList (lineBody keyPrefix e) = none := by
      -- Two names that both end at a space are equal if one line begins with both.
      refine Option.eq_none_iff_forall_ne_some.2 fun rest hrest => hne ?_
      have hsame := Text.dropStart?_eq_some_iff.1 hrest
      simp only [lineBody, opening, String.toList_append, List.append_assoc,
        List.append_cancel_left_eq] at hsame
      exact String.toList_injective ((Text.append_sep_inj hname he).1 hsame).1.symm
    rw [valueIn?, hstart, Option.bind_none]

lemma findSome?_lineBody (hspace : ∀ e ∈ entries, ' ' ∉ e.1.toList)
    (hnodup : (entries.map Prod.fst).Nodup) (hmem : (name, value) ∈ entries) :
    (entries.map (lineBody keyPrefix)).findSome? (valueIn? keyPrefix name) = some value := by
  have hname : ' ' ∉ name.toList := hspace _ hmem
  induction entries with
  | nil => simp at hmem
  | cons e entries ih =>
      obtain ⟨he, hentries⟩ := List.forall_mem_cons.1 hspace
      obtain ⟨hnot, hnodup⟩ := List.nodup_cons.1 hnodup
      rw [List.map_cons, List.findSome?_cons, valueIn?_lineBody hname he]
      -- Names are distinct, so the entry that is looked for is not hidden by an earlier one.
      rcases List.mem_cons.1 hmem with rfl | hmem
      · simp
      · have hne : e.1 ≠ name := fun h => hnot (h ▸ List.mem_map_of_mem hmem)
        rw [if_neg hne]
        exact ih hentries hnodup hmem

/-! ## Headers of a configuration -/

lemma assignments_names (flags : CompilerFlags) :
    flags.assignments.map Prod.fst = ["CC", "CPPFLAGS", "CFLAGS", "LDFLAGS", "LIBS"] := rfl

lemma oneLine_entries (keyPrefix : String) {flags : CompilerFlags} {placeholders : List String}
    (hplaceholders : ∀ name ∈ placeholders, '\n' ∉ name.toList)
    (hvalues : ∀ v ∈ flags.assignments, '\n' ∉ v.2.toList) :
    ∀ e ∈ (ofFlags keyPrefix flags placeholders).entries, OneLine e := by
  intro e he
  rcases List.mem_append.1 he with he | he
  · have hnames : ∀ name ∈ flags.assignments.map Prod.fst, '\n' ∉ name.toList := by
      rw [assignments_names]
      decide
    exact ⟨hnames e.1 (List.mem_map_of_mem he), hvalues e he⟩
  · obtain ⟨name, hname, rfl⟩ := List.mem_map.1 he
    have hunused : '\n' ∉ unused.toList := by decide
    exact ⟨hplaceholders name hname, hunused⟩

lemma lineChars_render {h : ConfigHeader} (hkey : '\n' ∉ h.keyPrefix.toList)
    (honeLine : ∀ e ∈ h.entries, OneLine e) :
    Text.lineChars h.render.toList = h.entries.map (lineBody h.keyPrefix) :=
  lineChars_join hkey honeLine

lemma valueOf?_render {flags : CompilerFlags} {placeholders : List String}
    (hkey : '\n' ∉ keyPrefix.toList)
    (honeLine : ∀ e ∈ (ofFlags keyPrefix flags placeholders).entries, OneLine e)
    (hmem : (name, value) ∈ flags.assignments) :
    valueOf? keyPrefix name (ofFlags keyPrefix flags placeholders).render = some value := by
  have hspace : ∀ e ∈ flags.assignments, ' ' ∉ e.1.toList := by
    have hnames : ∀ name ∈ flags.assignments.map Prod.fst, ' ' ∉ name.toList := by
      rw [assignments_names]
      decide
    exact fun e he => hnames e.1 (List.mem_map_of_mem he)
  have hnodup : (flags.assignments.map Prod.fst).Nodup := by
    rw [assignments_names]
    decide
  -- The placeholders come last, so a placeholder of the same name does not count.
  rw [valueOf?, lineChars_render hkey honeLine, ofFlags, List.map_append,
    List.findSome?_append, findSome?_lineBody hspace hnodup hmem, Option.some_or]

/-- Where neither the prefix nor a name nor a value holds a line feed, a header has one line for
each entry, the variables first and the placeholders behind them.  Each line holds the value of its
entry as a C string, and flags that survive being written as one text are read back from it. -/
theorem render_readable (keyPrefix : String) (flags : CompilerFlags) (placeholders : List String)
    (hkey : '\n' ∉ keyPrefix.toList) (hplaceholders : ∀ name ∈ placeholders, '\n' ∉ name.toList)
    (hvalues : ∀ v ∈ flags.assignments, '\n' ∉ v.2.toList) :
    (ofFlags keyPrefix flags placeholders).entries =
        [("CC", flags.cc), ("CPPFLAGS", Flags.render flags.cppflags),
          ("CFLAGS", Flags.render flags.cflags), ("LDFLAGS", Flags.render flags.ldflags),
          ("LIBS", Flags.render flags.libs)] ++ placeholders.map (·, "(unused)") ∧
      List.Forall₂ (Defines keyPrefix) (ofFlags keyPrefix flags placeholders).entries
        (Text.lines (ofFlags keyPrefix flags placeholders).render) ∧
      ∀ list ∈ [("CPPFLAGS", flags.cppflags), ("CFLAGS", flags.cflags),
          ("LDFLAGS", flags.ldflags), ("LIBS", flags.libs)],
        (∀ flag ∈ list.2, Flags.Survives flag) →
          (valueOf? keyPrefix list.1 (ofFlags keyPrefix flags placeholders).render).map
            Flags.split = some list.2 := by
  have honeLine := oneLine_entries keyPrefix hplaceholders hvalues
  refine ⟨rfl, ?_, fun list hlist hsurvives => ?_⟩
  · rw [Text.lines, lineChars_render hkey honeLine, List.map_map, List.forall₂_map_right_iff,
      List.forall₂_same]
    exact fun e _ => defines_lineBody keyPrefix e
  · have hmem : (list.1, Flags.render list.2) ∈ flags.assignments := by
      simp only [List.mem_cons, List.not_mem_nil, or_false] at hlist
      rcases hlist with rfl | rfl | rfl | rfl <;> simp [CompilerFlags.assignments]
    rw [valueOf?_render hkey honeLine hmem, Option.map_some,
      Flags.split_render_of_survives hsurvives]

/-- A configuration whose definitions hold quotes, spaces and a backslash. -/
def quotedFlags : CompilerFlags where
  cc := "ccache cc"
  cppflags := ["-DVERSION=\"1.2 \\ 3\"", "-I/my dir", "-DNDEBUG"]
  cflags := ["-O2"]
  ldflags := []
  libs := ["-lz"]

theorem render_readable_quotedFlags :
    (∀ v ∈ quotedFlags.assignments, '\n' ∉ v.2.toList) ∧
      (∀ flag ∈ quotedFlags.cppflags, Flags.Survives flag) ∧
      List.Forall₂ (Defines "HTS") (ofFlags "HTS" quotedFlags ["CPPFLAGS"]).entries
        (Text.lines (ofFlags "HTS" quotedFlags ["CPPFLAGS"]).render) ∧
      (valueOf? "HTS" "CPPFLAGS" (ofFlags "HTS" quotedFlags ["CPPFLAGS"]).render).map Flags.split =
        some quotedFlags.cppflags := by
  have hvalues : ∀ v ∈ quotedFlags.assignments, '\n' ∉ v.2.toList := by decide +kernel
  have hsurvives : ∀ flag ∈ quotedFlags.cppflags, Flags.Survives flag := by decide
  obtain ⟨-, hlines, hback⟩ := render_readable "HTS" quotedFlags ["CPPFLAGS"] (by decide)
    (by decide) hvalues
  exact ⟨hvalues, hsurvives, hlines,
    hback ("CPPFLAGS", quotedFlags.cppflags) List.mem_cons_self hsurvives⟩

/-- The quotes of a flag are escaped, and the quotes around it are not. -/
example : line "HTS" ("CPPFLAGS", "'-DV=\"1 \\ 2\"'") =
    "#define HTS_CPPFLAGS \"'-DV=\\\"1 \\\\ 2\\\"'\"\n" := by decide +kernel

end Drydock.ConfigHeader
