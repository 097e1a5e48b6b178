import Drydock.Proofs.Table
import Drydock.Proofs.Text.Words
import Drydock.Symbols

/-!
# What a symbol listing says

A line of a listing exports a symbol or says nothing, by its first two words alone, and the table of
a listing is the set of what its lines export.  So neither the order of the lines nor a line that is
written twice counts, and the listings of two platforms differ by the underscore in front of every
name.

A table of symbols is a set of names, and sets are compared by their members.  So each of the three
consequences is proved by asking which names the listings have, and the one fact that it rests on is
the reading of a line: an export depends on the first two words, and a line without two words
exports nothing.

Two listings in a row are cut at the line feed between them.  The lines of a text are its pieces
between line feeds, but without an empty last piece and without carriage returns; neither is seen in
the words of a line, and so the pieces themselves may be used in place of the lines.  They have the
advantage that the pieces of two texts in a row are the pieces of both.

An underscore in front of the first word leaves the second one as it is and changes nothing about
where the words begin, since the gap in front of them stays.

* `SymbolListing.LineExports` — the lines that export a symbol.
* `SymbolListing.exportOf?_eq_some_iff` — the reading of a line.
* `SymbolListing.underscored` — a listing with an underscore in front of every first word.
* `symbolsOf_reads` — the symbols of a listing, of two in a row, and of an underscored one.
-/

namespace Drydock

namespace SymbolListing

variable {platform : Platform} {line name kind symbol : List Char}

/-! ## Lines -/

/-- The symbol that a name of a listing stands for: the name itself, but on Darwin without the
underscore that it begins with, if it begins with one. -/
def StandsFor : Platform → List Char → List Char → Prop
  | .elf, name, symbol => name = symbol
  | .darwin, name, symbol => name = '_' :: symbol ∨ name.head? ≠ some '_' ∧ name = symbol

/-- A name with a kind exports a symbol: the kind is the one of a definition, and the symbol that
the name stands for is not reserved for the toolchain. -/
structure NameExports (platform : Platform) (name kind symbol : List Char) : Prop where
  defines : ∀ c ∈ kind, c ∉ ['U', 'F', 'N', 'W', 'w']
  stands : StandsFor platform name symbol
  nonempty : symbol ≠ []
  unreserved : ∀ c ∈ symbol.head?, c ∉ ['_', '$', '.', '@']

/-- A line exports a symbol: behind any blanks it begins with two words, a name and a kind, that
export it. -/
def LineExports (platform : Platform) (line symbol : List Char) : Prop :=
  ∃ front rest name kind, line = front ++ rest ∧ Text.IsGap front ∧
    Text.TwoWords rest name kind ∧ NameExports platform name kind symbol

lemma plainSymbol_eq_iff : plainSymbol platform name = symbol ↔ StandsFor platform name symbol := by
  cases platform with
  | elf => exact Iff.rfl
  | darwin =>
      cases name with
      | nil => simp [plainSymbol, Text.dropStart?, StandsFor]
      | cons c name =>
          by_cases hc : c = '_'
          · subst hc
            have hdrop : Text.dropStart? ['_'] ('_' :: name) = some name :=
              Text.dropStart?_eq_some_iff.2 rfl
            simp [plainSymbol, hdrop, StandsFor]
          · have hdrop : Text.dropStart? ['_'] (c :: name) = none := by
              simp [Text.dropStart?, Ne.symm hc]
            simp [plainSymbol, hdrop, StandsFor, hc]

/-- What the words of a line export. -/
def WordsExport (platform : Platform) (symbol : List Char) (words : List (List Char)) : Prop :=
  ∃ name kind more, words = name :: kind :: more ∧ NameExports platform name kind symbol

lemma not_wordsExport_nil : ¬ WordsExport platform symbol [] := by
  rintro ⟨_, _, _, heq, -⟩
  cases heq

lemma lineExports_iff :
    LineExports platform line symbol ↔ WordsExport platform symbol (Text.wordChars line) := by
  constructor
  · rintro ⟨front, rest, name, kind, hline, hfront, htwo, hexports⟩
    obtain ⟨more, hwords⟩ := Text.wordChars_eq_two_iff.2 ⟨front, rest, hline, hfront, htwo⟩
    exact ⟨name, kind, more, hwords, hexports⟩
  · rintro ⟨name, kind, more, hwords, hexports⟩
    obtain ⟨front, rest, hline, hfront, htwo⟩ := Text.wordChars_eq_two_iff.1 ⟨more, hwords⟩
    exact ⟨front, rest, name, kind, hline, hfront, htwo, hexports⟩

lemma nameExports_iff : NameExports platform name kind symbol ↔
    kind.any isSkippedKind = false ∧ plainSymbol platform name = symbol ∧
      ¬ (symbol = [] ∨ symbol.head?.any isReservedStart) := by
  rw [plainSymbol_eq_iff]
  constructor
  · rintro ⟨hkind, hstands, hne, hstart⟩
    refine ⟨?_, hstands, not_or.2 ⟨hne, ?_⟩⟩
    · simpa [isSkippedKind] using hkind
    · cases hhead : symbol.head? with
      | none => simp
      | some c => simpa [isReservedStart] using hstart c hhead
  · rintro ⟨hkind, hstands, hstart⟩
    obtain ⟨hne, hstart⟩ := not_or.1 hstart
    refine ⟨?_, hstands, hne, fun c hc => ?_⟩
    · simpa [isSkippedKind] using hkind
    · rw [Option.mem_def.1 hc] at hstart
      simpa [isReservedStart] using hstart

/-- The reading of a line. -/
lemma exportOf?_eq_some_iff {text : String} :
    exportOf? platform line = some text ↔ LineExports platform line text.toList := by
  rw [lineExports_iff]
  unfold exportOf?
  split
  · rename_i name kind more hwords
    have hexport : WordsExport platform text.toList (Text.wordChars line) ↔
        NameExports platform name kind text.toList := by
      rw [hwords]
      constructor
      · rintro ⟨_, _, _, heq, hexports⟩
        cases heq
        exact hexports
      · exact fun hexports => ⟨name, kind, more, rfl, hexports⟩
    rw [hexport, nameExports_iff]
    dsimp only
    -- The checks come in the order in which the reading makes them: kind, then name.
    by_cases hkind : kind.any isSkippedKind
    · simp [hkind]
    · rw [if_neg hkind]
      constructor
      · intro h
        split at h
        · cases h
        · rename_i hstart
          obtain rfl := Option.some.inj h
          rw [String.toList_ofList]
          exact ⟨eq_false_of_ne_true hkind, rfl, hstart⟩
      · rintro ⟨-, hplain, hstart⟩
        rw [hplain, if_neg hstart, String.ofList_toList]
  · rename_i hfew
    refine iff_of_false (by simp) ?_
    rintro ⟨name, kind, more, hwords, -⟩
    exact hfew name kind more hwords

/-! ## Listings -/

/-- The symbols of a listing are those that its lines export. -/
lemma mem_symbolsOf_iff {listing symbol : String} : symbol ∈ (symbolsOf listing platform).keys ↔
    ∃ line ∈ Text.lines listing, LineExports platform line.toList symbol.toList := by
  rw [symbolsOf, NameSet.mem_keys_ofNames, List.mem_filterMap]
  simp only [exportOf?_eq_some_iff, Text.lines, List.mem_map, exists_exists_and_eq_and,
    String.toList_ofList]

lemma mem_symbolsOf_iff_piece {listing symbol : String} :
    symbol ∈ (symbolsOf listing platform).keys ↔
      ∃ piece ∈ Text.splitChars '\n' listing.toList,
        WordsExport platform symbol.toList (Text.wordChars piece) := by
  rw [mem_symbolsOf_iff, ← Text.exists_lineChars_iff not_wordsExport_nil]
  simp only [Text.lines, List.mem_map, exists_exists_and_eq_and, String.toList_ofList,
    lineExports_iff]

/-- Listings with the same lines, in any order and any number, have the same symbols. -/
lemma symbolsOf_congr {listing listing' : String}
    (h : ∀ line, line ∈ Text.lines listing ↔ line ∈ Text.lines listing') :
    symbolsOf listing platform = symbolsOf listing' platform := by
  refine NameSet.ext_keys fun symbol => ?_
  simp only [mem_symbolsOf_iff, h]

lemma mem_symbolsOf_append_iff {listing listing' symbol : String} :
    symbol ∈ (symbolsOf (listing ++ "\n" ++ listing') platform).keys ↔
      symbol ∈ (symbolsOf listing platform).keys ∨ symbol ∈ (symbolsOf listing' platform).keys := by
  -- The line feed between the two listings is a place where the text is cut.
  have hpieces : Text.splitChars '\n' (listing ++ "\n" ++ listing').toList =
      Text.splitChars '\n' listing.toList ++ Text.splitChars '\n' listing'.toList := by
    rw [← Text.splitChars_append]
    simp
  simp only [mem_symbolsOf_iff_piece, hpieces, List.mem_append, or_and_right, exists_or]

/-! ## Underscores -/

/-- Puts an underscore in front of the first word of a line, if it has one. -/
def underscoreLine (line : List Char) : List Char :=
  if line.dropWhile Text.isBlank = [] then line
  else line.takeWhile Text.isBlank ++ '_' :: line.dropWhile Text.isBlank

/-- Puts an underscore in front of the first word of every line. -/
def underscored (listing : String) : String :=
  .ofList (['\n'].intercalate ((Text.splitChars '\n' listing.toList).map underscoreLine))

lemma notMem_underscoreLine (h : '\n' ∉ line) : '\n' ∉ underscoreLine line := by
  unfold underscoreLine
  split
  · exact h
  · have hline := List.takeWhile_append_dropWhile (p := Text.isBlank) (l := line)
    rw [← hline, List.mem_append, not_or] at h
    simp [h]

lemma nameExports_underscore :
    NameExports .darwin ('_' :: name) kind symbol ↔ NameExports .elf name kind symbol := by
  have hstands : StandsFor .darwin ('_' :: name) symbol ↔ StandsFor .elf name symbol := by
    simp [StandsFor]
  exact ⟨fun h => ⟨h.defines, hstands.1 h.stands, h.nonempty, h.unreserved⟩,
    fun h => ⟨h.defines, hstands.2 h.stands, h.nonempty, h.unreserved⟩⟩

lemma wordsExport_underscoreLine :
    WordsExport .darwin symbol (Text.wordChars (underscoreLine line)) ↔
      WordsExport .elf symbol (Text.wordChars line) := by
  obtain ⟨front, rest, rfl, hfront, hrest⟩ := Text.exists_gap line
  rw [underscoreLine, Text.takeWhile_gap hfront hrest, Text.dropWhile_gap hfront hrest]
  -- A line of blanks gets no underscore; any other begins with a word behind its gap.
  by_cases hempty : rest = []
  · subst hempty
    rw [if_pos rfl, Text.wordChars_gap hfront]
    exact iff_of_false not_wordsExport_nil not_wordsExport_nil
  · obtain ⟨word, rest, rfl, hword, hends⟩ := Text.exists_word hrest hempty
    have hunderscored : Text.IsWord ('_' :: word) := by
      refine ⟨by simp, List.forall_mem_cons.2 ⟨by decide, hword.2⟩⟩
    rw [if_neg hempty, Text.wordChars_gap hfront, Text.wordChars_gap hfront, ← List.cons_append,
      Text.wordChars_word hunderscored hends, Text.wordChars_word hword hends]
    constructor
    · rintro ⟨name, kind, more, heq, hexports⟩
      obtain ⟨rfl, hrest⟩ := List.cons.inj heq
      exact ⟨word, kind, more, by rw [hrest], nameExports_underscore.1 hexports⟩
    · rintro ⟨name, kind, more, heq, hexports⟩
      obtain ⟨rfl, hrest⟩ := List.cons.inj heq
      exact ⟨_, kind, more, by rw [hrest], nameExports_underscore.2 hexports⟩

/-- A Darwin listing with underscores has the symbols of the listing without them. -/
lemma symbolsOf_underscored (listing : String) :
    symbolsOf (underscored listing) .darwin = symbolsOf listing .elf := by
  have hpieces : Text.splitChars '\n' (underscored listing).toList =
      (Text.splitChars '\n' listing.toList).map underscoreLine := by
    rw [underscored, String.toList_ofList]
    refine Text.splitChars_intercalate (by simp [Text.splitChars_ne_nil]) fun line hline => ?_
    obtain ⟨piece, hpiece, rfl⟩ := List.mem_map.1 hline
    exact notMem_underscoreLine (Text.notMem_of_mem_splitChars hpiece)
  refine NameSet.ext_keys fun symbol => ?_
  simp only [mem_symbolsOf_iff_piece, hpieces, List.mem_map, exists_exists_and_eq_and,
    wordsExport_underscoreLine]

end SymbolListing

open SymbolListing

/-- A listing has the symbols that its lines export; so listings with the same lines have the same
symbols, two listings in a row have the symbols of both, and a Darwin listing with an underscore in
front of the first word of every line has the symbols of the listing without them. -/
theorem symbolsOf_reads (platform : Platform) :
    (∀ listing symbol, symbol ∈ (symbolsOf listing platform).keys ↔
      ∃ line ∈ Text.lines listing, LineExports platform line.toList symbol.toList) ∧
    (∀ listing listing', (∀ line, line ∈ Text.lines listing ↔ line ∈ Text.lines listing') →
      symbolsOf listing platform = symbolsOf listing' platform) ∧
    (∀ listing listing' symbol, symbol ∈ (symbolsOf (listing ++ "\n" ++ listing') platform).keys ↔
      symbol ∈ (symbolsOf listing platform).keys ∨
        symbol ∈ (symbolsOf listing' platform).keys) ∧
    (∀ listing, symbolsOf (underscored listing) .darwin = symbolsOf listing .elf) :=
  ⟨fun _ _ => mem_symbolsOf_iff, fun _ _ => symbolsOf_congr, fun _ _ _ => mem_symbolsOf_append_iff,
    symbolsOf_underscored⟩

/-- A listing of one defined symbol and one undefined one. -/
def twoLines : String := "_bgzf_open T 0 0\r\n_hts_open U\n"

/-- The same lines in another order, one of them twice. -/
def threeLines : String := "_hts_open U\n_bgzf_open T 0 0\n_hts_open U"

theorem symbolsOf_reads_threeLines :
    symbolsOf twoLines .darwin = symbolsOf threeLines .darwin ∧
      "bgzf_open" ∈ (symbolsOf twoLines .darwin).keys := by
  obtain ⟨hmem, hcongr, -⟩ := symbolsOf_reads .darwin
  have hlines : Text.lines twoLines = ["_bgzf_open T 0 0", "_hts_open U"] := by decide +kernel
  have hlines' : Text.lines threeLines = ["_hts_open U", "_bgzf_open T 0 0", "_hts_open U"] := by
    decide +kernel
  refine ⟨hcongr _ _ fun line => ?_, (hmem _ _).2 ⟨"_bgzf_open T 0 0", by simp [hlines], ?_⟩⟩
  · rw [hlines, hlines']
    grind
  · refine ⟨[], _, "_bgzf_open".toList, "T".toList, rfl, by simp [Text.IsGap], ?_, ?_⟩
    · exact Text.twoWords_iff.2 (by decide +kernel)
    · exact nameExports_iff.2 (by decide +kernel)

end Drydock
