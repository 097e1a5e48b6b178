import Drydock.ConfigHeader
import Drydock.ConfigValues
import Drydock.Proofs.Table
import Drydock.Proofs.Text.Words
import Mathlib.Data.List.Forall2

/-!
# Where the recorded features come from

The record of a bundled library gives every requested feature the value that the configuration
header of the library defines.  A header may define a name several times and may hold lines of any
other kind; the last line that defines the name counts, and no other line does.

What counts as a definition is said about the text of a line, without a reader: `#define`, one
space, and two words.  A line with two spaces, with a space in front, or with a name alone defines
nothing, and neither does any other directive.

The values are kept in a table that is filled line by line, so a later line for the same name takes
the place of an earlier one.  `FeatureValue` says the same without a table, by naming the last line,
and the two agree because a table that is built from a list answers with the last entry that the
list has for a key.

From this the law about other lines follows.  Whatever lines a header has besides those that define
one of the requested features, they can be left out on both sides, and the values that are left are
the same.

* `ConfigValues.Defines` — the lines that define a name, with the value.
* `ConfigValues.FeatureValue` — the value of a feature: that of the last such line, or `0`.
* `ConfigValues.render_ofDefines` — the text of the record.
-/

namespace Drydock.ConfigValues

variable {lines : List String} {line name value : String} {features values : List String}

/-! ## Lines -/

/-- A line defines a name with a value: behind `#define` and one space it goes on with two words,
the name and the value, and in any way behind them. -/
def Defines (line name value : String) : Prop :=
  ∃ rest, line.toList = "#define ".toList ++ rest ∧ Text.TwoWords rest name.toList value.toList

/-- A line defines a name, with some value. -/
def DefinesName (line name : String) : Prop := ∃ value, Defines line name value

/-- The name that a line defines and its value. -/
def definition? (line : String) : Option (String × String) :=
  (defineOf? line.toList).map fun d => (.ofList d.1, .ofList d.2)

lemma defineOf?_eq_some_iff {line first second : List Char} :
    defineOf? line = some (first, second) ↔
      ∃ rest, line = "#define ".toList ++ rest ∧ Text.TwoWords rest first second := by
  rw [defineOf?, Option.bind_eq_some_iff]
  simp only [Text.dropStart?_eq_some_iff, Text.twoWords_iff]
  constructor
  · rintro ⟨rest, rfl, h⟩
    split at h
    · cases h
    · rename_i hwords
      cases h
      exact ⟨rest, rfl, rfl, rfl, not_or.1 hwords⟩
  · rintro ⟨rest, rfl, rfl, rfl, hwords⟩
    exact ⟨rest, rfl, if_neg (not_or.2 hwords)⟩

lemma definition?_eq_some_iff :
    definition? line = some (name, value) ↔ Defines line name value := by
  rw [Defines, ← defineOf?_eq_some_iff, definition?, Option.map_eq_some_iff]
  constructor
  · rintro ⟨d, hd, heq⟩
    cases heq
    simpa using hd
  · intro h
    exact ⟨_, h, by simp⟩

lemma definesOf_eq (header : String) :
    definesOf header = .ofList ((Text.lines header).filterMap definition?) := by
  rw [definesOf, Text.lines, List.filterMap_map]
  congr 2
  funext line
  simp [definition?]

/-! ## The value of a feature -/

/-- The value of a feature under a list of lines: the one of the last line that defines it, and `0`
where no line does. -/
inductive FeatureValue (lines : List String) (name : String) : String → Prop
  | defined {front back : List String} {line value : String}
      (hlines : lines = front ++ line :: back) (hline : Defines line name value)
      (hback : ∀ l ∈ back, ¬ DefinesName l name) : FeatureValue lines name value
  | unset (hlines : ∀ l ∈ lines, ¬ DefinesName l name) : FeatureValue lines name "0"

lemma definesName_iff : DefinesName line name ↔ ∃ d, definition? line = some d ∧ d.1 = name := by
  constructor
  · rintro ⟨value, h⟩
    exact ⟨_, definition?_eq_some_iff.2 h, rfl⟩
  · rintro ⟨⟨_, value⟩, h, rfl⟩
    exact ⟨value, definition?_eq_some_iff.1 h⟩

lemma forall_filterMap_iff : (∀ e ∈ lines.filterMap definition?, e.1 ≠ name) ↔
    ∀ l ∈ lines, ¬ DefinesName l name := by
  simp only [List.mem_filterMap, definesName_iff, not_exists, not_and, forall_exists_index, and_imp]
  exact ⟨fun h l hl d hd => h d l hl hd, fun h d l hl hd => h l hl d hd⟩

/-- The table of the definitions holds the values of the features. -/
lemma featureValue_iff : FeatureValue lines name value ↔
    ((Table.ofList (lines.filterMap definition?)).get? name).getD "0" = value := by
  constructor
  · rintro (@⟨front, back, line, _, rfl, hline, hback⟩ | hnone)
    -- The last defining line gives the last entry, as those behind it give none for the name.
    · have hentries : (front ++ line :: back).filterMap definition? =
          front.filterMap definition? ++ (name, value) :: back.filterMap definition? := by
        rw [List.filterMap_append, List.filterMap_cons_some (definition?_eq_some_iff.2 hline)]
      have hget := Table.get?_ofList_eq_some_iff.2
        ⟨_, _, hentries, forall_filterMap_iff.2 hback⟩
      rw [hget, Option.getD_some]
    · rw [Table.get?_ofList_eq_none_iff.2 (forall_filterMap_iff.2 hnone), Option.getD_none]
  · rintro rfl
    cases hget : (Table.ofList (lines.filterMap definition?)).get? name with
    | none => exact .unset (forall_filterMap_iff.1 (Table.get?_ofList_eq_none_iff.1 hget))
    | some value =>
        -- An entry comes from a line, and so the list of lines splits where its entries do.
        obtain ⟨front, back, hentries, hback⟩ := Table.get?_ofList_eq_some_iff.1 hget
        obtain ⟨before, behind, rfl, -, hbehind⟩ := List.filterMap_eq_append_iff.1 hentries
        obtain ⟨skipped, line, after, rfl, hskipped, hline, rfl⟩ :=
          List.filterMap_eq_cons_iff.1 hbehind
        exact .defined (List.append_assoc ..).symm (definition?_eq_some_iff.1 hline)
          (forall_filterMap_iff.1 hback)

lemma FeatureValue.unique {value' : String} (h : FeatureValue lines name value)
    (h' : FeatureValue lines name value') : value = value' :=
  (featureValue_iff.1 h).symm.trans (featureValue_iff.1 h')

/-- Lines that do not define a feature may be left out. -/
lemma FeatureValue.filter {p : String → Bool} (h : FeatureValue lines name value)
    (hp : ∀ l, DefinesName l name → p l = true) : FeatureValue (lines.filter p) name value := by
  rcases h with @⟨front, back, line, _, rfl, hline, hback⟩ | hnone
  · have hlines : (front ++ line :: back).filter p = front.filter p ++ line :: back.filter p := by
      rw [List.filter_append, List.filter_cons_of_pos (hp line ⟨value, hline⟩)]
    exact .defined hlines hline fun l hl => hback l (List.mem_of_mem_filter hl)
  · exact .unset fun l hl => hnone l (List.mem_of_mem_filter hl)

/-! ## The record -/

/-- A line defines one of several names. -/
def DefinesOneOf (names : List String) (line : String) : Prop :=
  ∃ name ∈ names, DefinesName line name

instance (names : List String) : DecidablePred (DefinesOneOf names) := fun line =>
  decidable_of_iff (∃ name ∈ names, ∃ d ∈ definition? line, d.1 = name) (by
    simp only [DefinesOneOf, definesName_iff, Option.mem_def])

/-- The lines of the record: one for each feature, with its value. -/
def featureLines (features values : List String) : String :=
  String.join (List.zipWith (fun name value => name ++ " = " ++ value ++ "\n") features values)

lemma featureValue_definesOf (header name : String) :
    FeatureValue (Text.lines header) name (((definesOf header).get? name).getD "0") := by
  rw [featureValue_iff, definesOf_eq]

lemma forall₂_featureValue_iff {header : String} :
    List.Forall₂ (FeatureValue (Text.lines header)) features values ↔
      values = features.map fun name => ((definesOf header).get? name).getD "0" := by
  have hvalue : FeatureValue (Text.lines header) =
      fun name value => ((definesOf header).get? name).getD "0" = value := by
    funext name value
    refine propext ⟨(featureValue_definesOf header name).unique, ?_⟩
    rintro rfl
    exact featureValue_definesOf header name
  rw [hvalue, ← List.forall₂_map_left_iff (R := Eq), List.forall₂_eq_eq_eq]
  exact eq_comm

/-- The record of a bundled library names its source, and then every feature in the order of the
list with the one value that the header gives it: the value of the last line that defines the
feature, or `0`.  Headers with the same lines that define a feature have the same record. -/
theorem render_ofDefines (library header : String) (features : List String) :
    (∃ values, (∀ values', List.Forall₂ (FeatureValue (Text.lines header)) features values' ↔
        values' = values) ∧
      (ofDefines library .builtin features (definesOf header)).render =
        Text.upper library ++ " = \"builtin\"\n" ++ featureLines features values) ∧
    ∀ header',
      (Text.lines header').filter (DefinesOneOf features) =
          (Text.lines header).filter (DefinesOneOf features) →
        ofDefines library .builtin features (definesOf header') =
          ofDefines library .builtin features (definesOf header) := by
  refine ⟨⟨_, fun values' => forall₂_featureValue_iff, ?_⟩, fun header' hsame => ?_⟩
  · rw [featureLines, List.zipWith_map_right, List.zipWith_self]
    have hsource : " = \"" ++ ("builtin" ++ "\"\n") = " = \"builtin\"\n" := by decide
    simp only [render, ofDefines, LibrarySource.word, List.map_map, String.append_assoc]
    rw [← hsource, String.append_assoc, String.append_assoc]
    rfl
  · have hvalue : ∀ name ∈ features, ((definesOf header').get? name).getD "0" =
        ((definesOf header).get? name).getD "0" := by
      intro name hname
      have hkept : ∀ l, DefinesName l name → decide (DefinesOneOf features l) = true :=
        fun l hl => decide_eq_true ⟨name, hname, hl⟩
      -- Both headers give the value that the lines in common give, and there is one.
      have hleft := (featureValue_definesOf header' name).filter hkept
      rw [hsame] at hleft
      exact hleft.unique ((featureValue_definesOf header name).filter hkept)
    simp only [ofDefines]
    rw [List.map_congr_left fun name hname => by rw [hvalue name hname]]

/-- A header that defines one of its names twice. -/
def twiceDefined : String := "#define HAVE_BZ 1\n#define SUFFIX .gz tail\n#define HAVE_BZ 0\r\n"

/-- The same definitions between lines that define nothing: one space too many, a space in front, no
value, another directive. -/
def amongOthers : String :=
  "#define  HAVE_BZ 7\n#define HAVE_BZ 1\n #define SUFFIX 9\n#define SUFFIX .gz tail\n" ++
    "#define HAVE_BZ 0\n#define SUFFIX\n#undef HAVE_BZ"

theorem render_ofDefines_amongOthers :
    (ofDefines "htslib" .builtin ["SUFFIX", "HAVE_LZMA", "HAVE_BZ"]
        (definesOf amongOthers)).render =
      "HTSLIB = \"builtin\"\nSUFFIX = .gz\nHAVE_LZMA = 0\nHAVE_BZ = 0\n" := by
  obtain ⟨-, hothers⟩ :=
    render_ofDefines "htslib" twiceDefined ["SUFFIX", "HAVE_LZMA", "HAVE_BZ"]
  rw [hothers amongOthers (by decide +kernel)]
  decide +kernel

end Drydock.ConfigValues
