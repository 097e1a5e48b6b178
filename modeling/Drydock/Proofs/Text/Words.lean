import Drydock.Proofs.Text.Cuts

/-!
# Words and the blanks between them

A word is a run of characters that are not blank, as long as it can be made.  So the first word of a
text is found behind the blanks it begins with, and the next one behind the blanks that end it.

A program reads words with a state, the word that is being read; the laws here say what it has read
in the end.  Longest runs are unique, so a text that is a gap, a run without blanks and a rest that
does not go on with the run can be taken apart in no other way, and the equivalences below have the
same three parts on both sides.

Reports are read line by line, but their words could as well be read from the pieces between line
feeds (`Text.exists_lineChars_iff`).  The two differ in carriage returns and in an empty last piece,
and neither holds a word.

* `Text.IsWord`, `Text.IsGap` — runs of characters that are not blank, and of blank ones.
* `Text.TwoWords` — a text that begins with two words.
* `Text.wordChars_eq_cons_iff` — the first word of a text and the words behind it.
* `Text.wordChars_eq_two_iff` — the first two words of a text.
-/

namespace Drydock.Text

variable {cs gap rest front word first second : List Char} {words : List (List Char)}

/-! ## Runs -/

/-- Nothing is left, or the next character is blank. -/
def EndsWord (rest : List Char) : Prop := ∀ c ∈ rest.head?, isBlank c = true

/-- Nothing is left, or the next character is not blank. -/
def EndsGap (rest : List Char) : Prop := ∀ c ∈ rest.head?, isBlank c = false

/-- Blank characters only. -/
def IsGap (cs : List Char) : Prop := ∀ c ∈ cs, isBlank c = true

/-- One character at least, and no blank one. -/
def IsWord (cs : List Char) : Prop := cs ≠ [] ∧ ∀ c ∈ cs, isBlank c = false

/-- Two words begin a text, with blanks between them and a blank, if anything, behind them. -/
def TwoWords (cs first second : List Char) : Prop :=
  ∃ gap rest, cs = first ++ (gap ++ (second ++ rest)) ∧ IsWord first ∧ (gap ≠ [] ∧ IsGap gap) ∧
    IsWord second ∧ EndsWord rest

lemma endsGap_word (h : IsWord word) (rest : List Char) : EndsGap (word ++ rest) := by
  obtain ⟨hne, hword⟩ := h
  obtain ⟨c, more, rfl⟩ := List.exists_cons_of_ne_nil hne
  simpa [EndsGap] using hword c List.mem_cons_self

lemma not_endsWord_word (h : IsWord word) (rest : List Char) : ¬ EndsWord (word ++ rest) := by
  obtain ⟨hne, hword⟩ := h
  obtain ⟨c, more, rfl⟩ := List.exists_cons_of_ne_nil hne
  simpa [EndsWord] using hword c List.mem_cons_self

lemma endsWord_gap (hne : gap ≠ []) (h : IsGap gap) (rest : List Char) :
    EndsWord (gap ++ rest) := by
  obtain ⟨c, more, rfl⟩ := List.exists_cons_of_ne_nil hne
  simpa [EndsWord] using h c List.mem_cons_self

lemma exists_gap (cs : List Char) : ∃ gap rest, cs = gap ++ rest ∧ IsGap gap ∧ EndsGap rest :=
  ⟨_, _, List.takeWhile_append_dropWhile.symm, fun _ hc => List.mem_takeWhile_imp hc,
    isBlank_head?_dropWhile cs⟩

/-- The longest run without a blank in front of a text. -/
lemma exists_run (cs : List Char) :
    ∃ run rest, cs = run ++ rest ∧ (∀ c ∈ run, isBlank c = false) ∧ EndsWord rest := by
  refine ⟨cs.takeWhile fun c => !isBlank c, _, List.takeWhile_append_dropWhile.symm,
    fun c hc => by simpa using List.mem_takeWhile_imp hc, fun c hc => ?_⟩
  have hnot := List.head?_dropWhile_not (fun c => !isBlank c) cs
  rw [Option.mem_def] at hc
  simpa [hc] using hnot

lemma exists_word (h : EndsGap cs) (hne : cs ≠ []) :
    ∃ word rest, cs = word ++ rest ∧ IsWord word ∧ EndsWord rest := by
  obtain ⟨run, rest, rfl, hrun, hrest⟩ := exists_run cs
  refine ⟨run, rest, rfl, ⟨?_, hrun⟩, hrest⟩
  rintro rfl
  obtain ⟨c, more, rfl⟩ := List.exists_cons_of_ne_nil hne
  exact Bool.false_ne_true ((h c rfl).symm.trans (hrest c rfl))

lemma takeWhile_word (h : ∀ c ∈ word, isBlank c = false) (hrest : EndsWord rest) :
    (word ++ rest).takeWhile (fun c => !isBlank c) = word ∧
      (word ++ rest).dropWhile (fun c => !isBlank c) = rest := by
  have hall : ∀ c ∈ word, (!isBlank c) = true := fun c hc => by simp [h c hc]
  rw [List.takeWhile_append_of_pos hall, List.dropWhile_append_of_pos hall]
  cases rest with
  | nil => simp
  | cons c rest => simp [hrest c rfl]

lemma takeWhile_gap (h : IsGap gap) (hrest : EndsGap rest) :
    (gap ++ rest).takeWhile isBlank = gap := by
  rw [List.takeWhile_append_of_pos h]
  cases rest with
  | nil => simp
  | cons c rest => simp [hrest c rfl]

lemma dropWhile_gap (h : IsGap gap) (hrest : EndsGap rest) :
    (gap ++ rest).dropWhile isBlank = rest := by
  rw [List.dropWhile_append_of_pos h, dropWhile_isBlank_eq_self hrest]

/-- Two words are found by taking and dropping runs. -/
lemma twoWords_iff : TwoWords cs first second ↔
    (cs.takeWhile fun c => !isBlank c) = first ∧
      (((cs.dropWhile fun c => !isBlank c).dropWhile isBlank).takeWhile fun c => !isBlank c) =
        second ∧ first ≠ [] ∧ second ≠ [] := by
  constructor
  · rintro ⟨gap, rest, rfl, hfirst, ⟨hne, hgap⟩, hsecond, hrest⟩
    obtain ⟨htake, hdrop⟩ := takeWhile_word hfirst.2 (endsWord_gap hne hgap (second ++ rest))
    rw [htake, hdrop, dropWhile_gap hgap (endsGap_word hsecond rest),
      (takeWhile_word hsecond.2 hrest).1]
    exact ⟨rfl, rfl, hfirst.1, hsecond.1⟩
  · rintro ⟨htake, htake', hfirst, hsecond⟩
    obtain ⟨run, behind, rfl, hrun, hbehind⟩ := exists_run cs
    obtain ⟨gap, rest, rfl, hgap, hrest⟩ := exists_gap behind
    obtain ⟨run', rest', rfl, hrun', hrest'⟩ := exists_run rest
    obtain ⟨hleft, hright⟩ := takeWhile_word hrun hbehind
    rw [hleft] at htake
    rw [hright, dropWhile_gap hgap hrest, (takeWhile_word hrun' hrest').1] at htake'
    subst htake htake'
    -- Without blanks between the runs, the first of them would go on with the second.
    have hne : gap ≠ [] := by
      rintro rfl
      exact not_endsWord_word ⟨hsecond, hrun'⟩ rest' hbehind
    exact ⟨gap, rest', rfl, ⟨hfirst, hrun⟩, ⟨hne, hgap⟩, ⟨hsecond, hrun'⟩, hrest'⟩

/-! ## The words of a text -/

lemma wordChars_gap (h : IsGap gap) (rest : List Char) :
    wordChars (gap ++ rest) = wordChars rest := by
  induction gap with
  | nil => rfl
  | cons c gap ih =>
      obtain ⟨hc, hgap⟩ := List.forall_mem_cons.1 h
      have hstep : wordChars (c :: gap ++ rest) = wordChars (gap ++ rest) := by
        simp [wordChars, wordsFrom, hc]
      rw [hstep, ih hgap]

/-- A run that has been read goes on until a blank or the end. -/
lemma wordsFrom_word (run : List Char) (h : ∀ c ∈ word, isBlank c = false) (hrest : EndsWord rest)
    (hne : run ++ word ≠ []) : wordsFrom run (word ++ rest) = (run ++ word) :: wordChars rest := by
  induction word generalizing run with
  | nil =>
      rw [List.append_nil] at hne ⊢
      cases rest with
      | nil => simp [wordsFrom, wordChars, hne]
      | cons c rest =>
          have hc : isBlank c = true := hrest c rfl
          simp [wordsFrom, wordChars, hc, hne]
  | cons c word ih =>
      obtain ⟨hc, hword⟩ := List.forall_mem_cons.1 h
      rw [List.cons_append, wordsFrom, if_neg (by simp [hc]), ih (run ++ [c]) hword (by simp)]
      simp

lemma wordChars_word (h : IsWord word) (hrest : EndsWord rest) :
    wordChars (word ++ rest) = word :: wordChars rest :=
  wordsFrom_word [] h.2 hrest h.1

/-- The first word of a text, and the words behind it. -/
lemma wordChars_eq_cons_iff : wordChars cs = first :: words ↔
    ∃ front rest, cs = front ++ (first ++ rest) ∧ IsGap front ∧ IsWord first ∧ EndsWord rest ∧
      wordChars rest = words := by
  constructor
  · intro h
    obtain ⟨front, behind, rfl, hfront, hbehind⟩ := exists_gap cs
    rw [wordChars_gap hfront] at h
    have hne : behind ≠ [] := by
      rintro rfl
      simp [wordChars, wordsFrom] at h
    obtain ⟨word, rest, rfl, hword, hrest⟩ := exists_word hbehind hne
    rw [wordChars_word hword hrest] at h
    obtain ⟨rfl, rfl⟩ := List.cons.inj h
    exact ⟨front, rest, rfl, hfront, hword, hrest, rfl⟩
  · rintro ⟨front, rest, rfl, hfront, hfirst, hrest, rfl⟩
    rw [wordChars_gap hfront, wordChars_word hfirst hrest]

/-- The first two words of a text. -/
lemma wordChars_eq_two_iff : (∃ words, wordChars cs = first :: second :: words) ↔
    ∃ front rest, cs = front ++ rest ∧ IsGap front ∧ TwoWords rest first second := by
  constructor
  · rintro ⟨words, h⟩
    obtain ⟨front, behind, rfl, hfront, hfirst, hbehind, hwords⟩ := wordChars_eq_cons_iff.1 h
    obtain ⟨gap, rest, rfl, hgap, hsecond, hrest, -⟩ := wordChars_eq_cons_iff.1 hwords
    have hne : gap ≠ [] := by
      rintro rfl
      exact not_endsWord_word hsecond rest hbehind
    exact ⟨front, _, rfl, hfront, gap, rest, rfl, hfirst, ⟨hne, hgap⟩, hsecond, hrest⟩
  · rintro ⟨front, _, rfl, hfront, gap, rest, rfl, hfirst, ⟨hne, hgap⟩, hsecond, hrest⟩
    refine ⟨wordChars rest, ?_⟩
    rw [wordChars_gap hfront, wordChars_word hfirst (endsWord_gap hne hgap _), wordChars_gap hgap,
      wordChars_word hsecond hrest]

lemma wordsFrom_append_gap (run : List Char) (h : IsGap gap) (cs : List Char) :
    wordsFrom run (cs ++ gap) = wordsFrom run cs := by
  induction cs generalizing run with
  | nil =>
      cases gap with
      | nil => rfl
      | cons c gap =>
          obtain ⟨hc, hgap⟩ := List.forall_mem_cons.1 h
          have hnone : wordsFrom [] gap = [] := by
            simpa [wordChars, wordsFrom] using wordChars_gap hgap []
          simp [wordsFrom, hc, hnone]
  | cons c cs ih => rw [List.cons_append, wordsFrom, wordsFrom, ih, ih]

/-! ## The words of lines -/

lemma wordChars_dropReturn (line : List Char) : wordChars (dropReturn line) = wordChars line := by
  rcases dropReturn_eq_or line with hsame | hreturn
  · rw [hsame]
  · conv_rhs => rw [hreturn]
    exact (wordsFrom_append_gap [] (by simp [IsGap]; decide) _).symm

/-- What depends on the words of a line alone is found among the lines of a text when it is found
among the pieces between its line feeds. -/
lemma exists_lineChars_iff {P : List (List Char) → Prop} (hP : ¬ P []) (cs : List Char) :
    (∃ line ∈ lineChars cs, P (wordChars line)) ↔
      ∃ piece ∈ splitChars '\n' cs, P (wordChars piece) := by
  obtain ⟨front, last, hpieces⟩ :=
    List.eq_nil_or_concat' (splitChars '\n' cs) |>.resolve_left (splitChars_ne_nil _ _)
  have hlines : lineChars cs = front.map dropReturn ++ [last].filter (· ≠ []) := by
    simp [lineChars, hpieces]
  rw [hlines, hpieces]
  simp only [List.mem_append, List.mem_map, List.mem_filter, List.mem_singleton]
  constructor
  · rintro ⟨_, ⟨piece, hpiece, rfl⟩ | ⟨rfl, -⟩, hline⟩
    · exact ⟨piece, .inl hpiece, by rwa [wordChars_dropReturn] at hline⟩
    · exact ⟨_, .inr rfl, hline⟩
  · rintro ⟨piece, hpiece | rfl, hline⟩
    · exact ⟨_, .inl ⟨piece, hpiece, rfl⟩, by rwa [wordChars_dropReturn]⟩
    -- A last piece that is empty is no line, but it holds no words either.
    · refine ⟨_, .inr ⟨rfl, ?_⟩, hline⟩
      rw [decide_eq_true_eq]
      rintro rfl
      exact hP hline

end Drydock.Text
