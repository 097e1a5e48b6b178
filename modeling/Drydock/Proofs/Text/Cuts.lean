import Drydock.Text.Blank
import Mathlib.Data.List.Basic
import Mathlib.Data.List.TakeWhile

/-!
# How texts are cut

Laws of the cuts of `Drydock.Text`: pieces between separators, the part in front of a separator,
trimmed texts, and lines.  A cut is undone by putting the separator back, and a piece holds no
separator; this is what readers of reports, records and paths rest on.

All cuts are made on lists of characters, from the left, and their laws go by induction on the list.
The pieces are never none: a text without separators is one piece, and the empty text is one empty
piece.  So each step of such an induction has a first piece in hand, and the next character either
goes in front of it or closes it.

Lines differ from pieces in two ways.  A line feed at the end of a text begins no new line, and a
carriage return in front of a line feed belongs to neither.

* `Text.splitChars_append` — cutting goes on behind a separator.
* `Text.splitChars_intercalate` — cutting undoes putting together.
* `Text.splitOnceChars_eq_some_iff` — the first separator.
* `Text.Trimmed` — texts with no blank at either end, the fixed points of `trimChars`.
* `Text.lineChars_append` — the lines of a text that begins with a whole line.
-/

namespace Drydock.Text

variable {sep : Char} {front back rest cs line : List Char} {piece : List Char}

/-! ## Pieces -/

lemma splitChars_ne_nil (sep : Char) (cs : List Char) : splitChars sep cs ≠ [] := by
  cases cs with
  | nil => simp [splitChars]
  | cons c rest =>
      unfold splitChars
      split
      · simp
      · split <;> simp

lemma splitChars_cons_self (sep : Char) (cs : List Char) :
    splitChars sep (sep :: cs) = [] :: splitChars sep cs := by
  rw [splitChars]
  split
  · rename_i h
    exact absurd h (splitChars_ne_nil sep cs)
  · rename_i h
    simp [h]

lemma splitChars_of_notMem (h : sep ∉ cs) : splitChars sep cs = [cs] := by
  induction cs with
  | nil => rfl
  | cons c rest ih =>
      obtain ⟨hc, hrest⟩ := not_or.1 (List.mem_cons.not.1 h)
      rw [splitChars, ih hrest]
      simp [Ne.symm hc]

/-- The pieces in front of a separator come first, and the pieces behind it follow. -/
lemma splitChars_append (sep : Char) (front back : List Char) :
    splitChars sep (front ++ sep :: back) = splitChars sep front ++ splitChars sep back := by
  induction front with
  | nil => simp [splitChars_cons_self, splitChars]
  | cons c rest ih =>
      obtain ⟨first, pieces, hpieces⟩ := List.exists_cons_of_ne_nil (splitChars_ne_nil sep rest)
      rw [List.cons_append, splitChars, ih, hpieces]
      rw [splitChars, hpieces]
      split <;> split <;> simp_all

/-- Cutting undoes putting pieces together. -/
lemma splitChars_intercalate {pieces : List (List Char)} (hpieces : pieces ≠ [])
    (h : ∀ piece ∈ pieces, sep ∉ piece) : splitChars sep ([sep].intercalate pieces) = pieces := by
  induction pieces with
  | nil => exact absurd rfl hpieces
  | cons first rest ih =>
      have hfirst : splitChars sep first = [first] := splitChars_of_notMem (h first (by simp))
      cases rest with
      | nil => simpa using hfirst
      | cons second rest =>
          have hrest := ih (by simp) fun piece hpiece => h piece (List.mem_cons_of_mem _ hpiece)
          rw [List.intercalate_cons_cons, List.append_assoc, List.singleton_append,
            splitChars_append, hfirst, hrest, List.singleton_append]

lemma eq_of_splitChars_eq_singleton (h : splitChars sep cs = [piece]) : cs = piece := by
  by_cases hsep : sep ∈ cs
  · obtain ⟨front, back, rfl⟩ := List.append_of_mem hsep
    rw [splitChars_append] at h
    have hlength := congrArg List.length h
    have hfront := List.length_pos_of_ne_nil (splitChars_ne_nil sep front)
    have hback := List.length_pos_of_ne_nil (splitChars_ne_nil sep back)
    rw [List.length_append, List.length_singleton] at hlength
    omega
  · rw [splitChars_of_notMem hsep, List.singleton_inj] at h
    exact h

lemma notMem_of_mem_splitChars (h : piece ∈ splitChars sep cs) : sep ∉ piece := by
  induction cs generalizing piece with
  | nil =>
      rw [List.mem_singleton.1 h]
      simp
  | cons c rest ih =>
      obtain ⟨first, pieces, hpieces⟩ := List.exists_cons_of_ne_nil (splitChars_ne_nil sep rest)
      rw [splitChars, hpieces] at h
      rw [hpieces] at ih
      -- The next character separates, or goes in front of the first piece.
      have hfirst : sep ∉ first := ih (by simp)
      dsimp only at h
      split at h
      · rcases List.mem_cons.1 h with rfl | h
        · simp
        · exact ih h
      · rename_i hne
        rcases List.mem_cons.1 h with rfl | h
        · simpa [hfirst] using Ne.symm hne
        · exact ih (List.mem_cons_of_mem _ h)

/-- The characters of the pieces are characters of the text. -/
lemma mem_of_mem_splitChars {c : Char} (h : piece ∈ splitChars sep cs) (hc : c ∈ piece) :
    c ∈ cs := by
  induction cs generalizing piece with
  | nil =>
      rw [List.mem_singleton.1 h] at hc
      exact hc
  | cons d rest ih =>
      obtain ⟨first, pieces, hpieces⟩ := List.exists_cons_of_ne_nil (splitChars_ne_nil sep rest)
      rw [splitChars, hpieces] at h
      rw [hpieces] at ih
      dsimp only at h
      split at h
      · rcases List.mem_cons.1 h with rfl | h
        · simp at hc
        · exact List.mem_cons_of_mem _ (ih h hc)
      · rcases List.mem_cons.1 h with rfl | h
        · rcases List.mem_cons.1 hc with rfl | hc
          · simp
          · exact List.mem_cons_of_mem _ (ih (by simp) hc)
        · exact List.mem_cons_of_mem _ (ih (List.mem_cons_of_mem _ h) hc)

/-- Every character that does not separate stands in a piece. -/
lemma exists_mem_splitChars {c : Char} (hc : c ∈ cs) (hsep : c ≠ sep) :
    ∃ piece ∈ splitChars sep cs, c ∈ piece := by
  obtain ⟨front, back, rfl⟩ := List.append_of_mem hc
  induction front with
  | nil =>
      obtain ⟨first, rest, hrest⟩ := List.exists_cons_of_ne_nil (splitChars_ne_nil sep back)
      exact ⟨c :: first, by simp [splitChars, hrest, hsep], by simp⟩
  | cons d front ih =>
      obtain ⟨piece, hpiece, hmem⟩ := ih (by simp)
      obtain ⟨first, rest, hrest⟩ :=
        List.exists_cons_of_ne_nil (splitChars_ne_nil sep (front ++ c :: back))
      rw [List.cons_append, splitChars, hrest]
      rw [hrest] at hpiece
      by_cases hd : d = sep
      · exact ⟨piece, by simpa [hd] using .inr (List.mem_cons.1 hpiece), hmem⟩
      · rcases List.mem_cons.1 hpiece with rfl | hpiece
        · exact ⟨d :: piece, by simp [hd], List.mem_cons_of_mem _ hmem⟩
        · exact ⟨piece, by simp [hd, hpiece], hmem⟩

/-! ## The first separator -/

lemma splitOnceChars_eq_some_iff :
    splitOnceChars sep cs = some (front, back) ↔ cs = front ++ sep :: back ∧ sep ∉ front := by
  induction cs generalizing front with
  | nil => simp [splitOnceChars]
  | cons c rest ih =>
      unfold splitOnceChars
      split
      · rename_i hc
        -- The text begins with the separator, so nothing stands in front of the first one.
        subst hc
        cases front with
        | nil => simp [eq_comm]
        | cons d front =>
            have hne : ¬ (some (([] : List Char), rest) = some (d :: front, back)) := by simp
            refine iff_of_false hne ?_
            rintro ⟨hcs, hnot⟩
            exact hnot (List.mem_cons.2 (.inl (List.cons.inj hcs).1))
      · rename_i hc
        simp only [Option.map_eq_some_iff, Prod.exists, Prod.mk.injEq]
        constructor
        · rintro ⟨before, after, hsplit, rfl, rfl⟩
          obtain ⟨rfl, hnot⟩ := ih.1 hsplit
          exact ⟨rfl, by simpa [hnot] using Ne.symm hc⟩
        · rintro ⟨hcs, hnot⟩
          cases front with
          | nil => exact absurd (List.cons.inj hcs).1 hc
          | cons d front =>
              obtain ⟨rfl, rfl⟩ := List.cons.inj hcs
              exact ⟨front, back, ih.2 ⟨rfl, fun h => hnot (List.mem_cons_of_mem _ h)⟩, rfl, rfl⟩

/-- The first separator tells what stands in front of it from what stands behind it. -/
lemma append_sep_inj {front' back' : List Char} (h : sep ∉ front) (h' : sep ∉ front') :
    front ++ sep :: back = front' ++ sep :: back' ↔ front = front' ∧ back = back' := by
  constructor
  · intro heq
    have hfirst := splitOnceChars_eq_some_iff.2 ⟨heq, h'⟩
    rw [splitOnceChars_eq_some_iff.2 ⟨rfl, h⟩, Option.some_inj] at hfirst
    exact Prod.ext_iff.1 hfirst
  · rintro ⟨rfl, rfl⟩
    rfl

/-! ## The start of a text -/

lemma dropStart?_eq_some_iff : dropStart? front cs = some rest ↔ front ++ rest = cs := by
  rw [dropStart?]
  constructor
  · intro h
    split at h
    · rename_i hstart
      obtain ⟨back, rfl⟩ := List.isPrefixOf_iff_prefix.1 hstart
      simpa [eq_comm] using h
    · simp at h
  · rintro rfl
    simp

/-! ## Trimmed texts -/

/-- A text with no blank at either end. -/
def Trimmed (cs : List Char) : Prop :=
  (∀ c ∈ cs.head?, isBlank c = false) ∧ ∀ c ∈ cs.getLast?, isBlank c = false

lemma dropWhile_isBlank_eq_self (h : ∀ c ∈ cs.head?, isBlank c = false) :
    cs.dropWhile isBlank = cs := by
  cases cs with
  | nil => rfl
  | cons c rest => simp [h c rfl]

lemma isBlank_head?_dropWhile (cs : List Char) :
    ∀ c ∈ (cs.dropWhile isBlank).head?, isBlank c = false := by
  intro c hc
  have := List.head?_dropWhile_not isBlank cs
  rw [Option.mem_def] at hc
  simpa [hc] using this

lemma trimmed_trimChars (cs : List Char) : Trimmed (trimChars cs) := by
  have hfront := isBlank_head?_dropWhile cs
  have hback := isBlank_head?_dropWhile (cs.dropWhile isBlank).reverse
  refine ⟨fun c hc => ?_, fun c hc => hback c (by simpa [trimChars] using hc)⟩
  -- What is left after dropping at the end begins as the text in front of it did.
  have hsuffix : (trimChars cs) <+: cs.dropWhile isBlank := by
    have := List.dropWhile_suffix isBlank (l := (cs.dropWhile isBlank).reverse)
    simpa [trimChars] using List.reverse_prefix.2 this
  obtain ⟨rest, hrest⟩ := hsuffix
  refine hfront c ?_
  rw [← hrest]
  cases htrim : trimChars cs with
  | nil => simp [htrim] at hc
  | cons d ds => simpa [htrim] using hc

lemma mem_of_mem_trimChars {c : Char} (h : c ∈ trimChars cs) : c ∈ cs := by
  rw [trimChars, List.mem_reverse] at h
  have h := (List.dropWhile_suffix _).subset h
  exact (List.dropWhile_suffix _).subset (List.mem_reverse.1 h)

/-- Blanks around a trimmed text are dropped. -/
lemma trimChars_append (hcs : Trimmed cs) (hfront : ∀ c ∈ front, isBlank c = true)
    (hback : ∀ c ∈ back, isBlank c = true) : trimChars (front ++ cs ++ back) = cs := by
  cases cs with
  | nil =>
      have hall : (front ++ [] ++ back).dropWhile isBlank = [] := by
        refine List.dropWhile_eq_nil_iff.2 fun c hc => ?_
        rcases List.mem_append.1 hc with hc | hc
        · exact hfront c (by simpa using hc)
        · exact hback c hc
      rw [trimChars, hall]
      rfl
  | cons c rest =>
      have hstart : (front ++ (c :: rest) ++ back).dropWhile isBlank = c :: rest ++ back := by
        rw [List.append_assoc, List.dropWhile_append_of_pos hfront]
        exact dropWhile_isBlank_eq_self (by simpa using hcs.1 c rfl)
      have hend : (c :: rest ++ back).reverse.dropWhile isBlank = (c :: rest).reverse := by
        rw [List.reverse_append, List.dropWhile_append_of_pos (by simpa using hback)]
        exact dropWhile_isBlank_eq_self (by simpa only [List.head?_reverse] using hcs.2)
      rw [trimChars, hstart, hend, List.reverse_reverse]

/-! ## Lines -/

lemma lineChars_append (h : '\n' ∉ line) (rest : List Char) :
    lineChars (line ++ '\n' :: rest) = dropReturn line :: lineChars rest := by
  obtain ⟨first, pieces, hpieces⟩ := List.exists_cons_of_ne_nil (splitChars_ne_nil '\n' rest)
  simp [lineChars, splitChars_append, splitChars_of_notMem h, hpieces]

lemma lineChars_nil : lineChars [] = [] := by simp [lineChars, splitChars]

lemma dropReturn_eq_self (h : ∀ c ∈ line.getLast?, c ≠ '\r') : dropReturn line = line := by
  unfold dropReturn
  split
  · rename_i body hbody
    refine absurd rfl (h '\r' ?_)
    rw [List.getLast?_eq_head?_reverse, hbody]
    rfl
  · rfl

lemma dropReturn_eq_or (line : List Char) :
    dropReturn line = line ∨ line = dropReturn line ++ ['\r'] := by
  unfold dropReturn
  split
  · rename_i body hbody
    exact .inr (by simpa using congrArg List.reverse hbody)
  · exact .inl rfl

lemma notMem_of_mem_lineChars (h : line ∈ lineChars cs) : '\n' ∉ line := by
  have hdrop : ∀ l : List Char, '\n' ∉ l → '\n' ∉ dropReturn l := by
    intro l hl hmem
    rcases dropReturn_eq_or l with hsame | hreturn
    · exact hl (hsame ▸ hmem)
    · exact hl (hreturn ▸ List.mem_append_left _ hmem)
  rw [lineChars, List.mem_append, List.mem_map] at h
  rcases h with ⟨piece, hpiece, rfl⟩ | h
  · exact hdrop piece (notMem_of_mem_splitChars (List.dropLast_subset _ hpiece))
  · obtain ⟨hlast, -⟩ := List.mem_filter.1 h
    exact notMem_of_mem_splitChars (List.mem_of_getLast? (by simpa using hlast))

end Drydock.Text
