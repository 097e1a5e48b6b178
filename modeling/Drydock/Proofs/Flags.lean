import Drydock.Flags
import Mathlib.Data.List.Basic
import Mathlib.Data.List.Count
import Mathlib.Tactic.Lemma

/-!
# Which flags survive being written and read

`Flags.render` looks at one character alone: a flag with a space is put in single quotes, and every
other flag is written as it is.  `Flags.split` reacts to every blank and to both quotes.  The two
agree on the flags of `Flags.Survives` and on no others.

A list with other flags is never restored by accident.  The scan loses characters and makes none up,
so a list that comes back has lost nothing but the marks that the rendering put around its flags.
Then no double quote opens a group, every single quote is lost, and the flags hold none of their
own; the first flag that is not read as it stands loses a character that the rendering did not add.

The proof has two halves.  Reading goes forward: a legible flag that is followed by a space, or by
nothing, is read up to there, and a list of them by induction, the empty flags leaving no trace.
`following` puts a space in front of every flag, the first one included, so that all flags are
treated alike; a scan between two words does not see that space.

Counting goes backward, from a list that came back to the flags that it was made of.  It is done in
this order: double quotes first, since the rendering adds none and so none may be lost; then single
quotes, of which now every one is lost, so that the flags hold none; and then the first flag that is
not legible, in which a blank or a quote is lost that nothing replaces.

* `Flags.scan_following` — legible flags are read one after the other.
* `Flags.count_scan_le` — the scan makes no character up.
* `Flags.split_render_iff` — a list of flags comes back exactly when all of them survive.
-/

namespace Drydock.Flags

variable {flag word front rest : List Char} {flags more : List (List Char)} {mark c x : Char}
  {st : Scan}

/-- A flag that is written and read back as it is. -/
def Survives (flag : String) : Prop :=
  (' ' ∈ flag.toList ∧ '\'' ∉ flag.toList) ∨
    (flag ≠ "" ∧ ∀ c ∈ flag.toList, Text.isBlank c = false ∧ c ≠ '\'' ∧ c ≠ '"')

instance decidableSurvives (flag : String) : Decidable (Survives flag) :=
  decidable_of_iff ((' ' ∈ flag.toList ∧ '\'' ∉ flag.toList) ∨
      (flag ≠ "" ∧ flag.toList.all fun c => !Text.isBlank c && c != '\'' && c != '"'))
    (by simp [Survives, and_assoc])

/-- Characters that a scan outside quotes keeps. -/
def Plain (cs : List Char) : Prop := ∀ c ∈ cs, Text.isBlank c = false ∧ isQuote c = false

/-- A flag that is read as it stands, the empty flag apart, which is not read at all. -/
def Legible (flag : List Char) : Prop := (' ' ∈ flag ∧ '\'' ∉ flag) ∨ Plain flag

/-- The word that a scan has begun. -/
def Scan.begun : Scan → List Char
  | between => []
  | bare word => word
  | quoted _ word => word

/-- Flags as they follow others, each behind a space. -/
def following (flags : List (List Char)) : List Char := flags.flatMap fun f => ' ' :: renderFlag f

lemma isQuote_iff : isQuote c = true ↔ c = '\'' ∨ c = '"' := by simp [isQuote]

/-! ## Reading on -/

lemma scan_bare_append (h : Plain front) :
    scan (.bare word) (front ++ rest) = scan (.bare (word ++ front)) rest := by
  induction front generalizing word with
  | nil => simp
  | cons c front ih =>
      obtain ⟨⟨hblank, hquote⟩, hfront⟩ := List.forall_mem_cons.1 h
      rw [List.cons_append, scan]
      simp only [hblank, hquote, Bool.false_eq_true, if_false]
      rw [ih hfront, List.append_assoc, List.singleton_append]

lemma scan_between_append (h : Plain front) (hne : front ≠ []) :
    scan .between (front ++ rest) = scan (.bare front) rest := by
  cases front with
  | nil => exact absurd rfl hne
  | cons c front =>
      obtain ⟨⟨hblank, hquote⟩, hfront⟩ := List.forall_mem_cons.1 h
      rw [List.cons_append, scan]
      simp only [hblank, hquote, Bool.false_eq_true, if_false]
      exact scan_bare_append hfront

lemma scan_quoted_append (h : mark ∉ front) :
    scan (.quoted mark word) (front ++ rest) = scan (.quoted mark (word ++ front)) rest := by
  induction front generalizing word with
  | nil => simp
  | cons c front ih =>
      obtain ⟨hc, hfront⟩ := not_or.1 (List.mem_cons.not.1 h)
      rw [List.cons_append, scan, if_neg (Ne.symm hc), ih hfront, List.append_assoc,
        List.singleton_append]

lemma isQuote_of_isBlank (h : Text.isBlank c = true) : isQuote c = false := by
  refine Bool.eq_false_iff.2 fun hquote => ?_
  rcases isQuote_iff.1 hquote with rfl | rfl <;> exact absurd h (by decide)

lemma scan_between_blank (h : Text.isBlank c = true) (rest : List Char) :
    scan .between (c :: rest) = scan .between rest := by
  simp [scan, isQuote_of_isBlank h, h]

lemma scan_between_space (rest : List Char) : scan .between (' ' :: rest) = scan .between rest :=
  scan_between_blank (by decide) rest

/-- A blank ends a word. -/
lemma scan_bare_of_blank (h : ∀ c ∈ rest.head?, Text.isBlank c = true) :
    scan (.bare word) rest = word :: scan .between rest := by
  cases rest with
  | nil => rfl
  | cons c rest =>
      have hblank : Text.isBlank c = true := h c rfl
      rw [scan_between_blank hblank]
      simp [scan, isQuote_of_isBlank hblank, hblank]

lemma scan_bare_of_space (h : ∀ c ∈ rest.head?, c = ' ') :
    scan (.bare word) rest = word :: scan .between rest :=
  scan_bare_of_blank fun c hc => by
    rw [h c hc]
    decide

/-- A legible flag is read up to the space behind it. -/
lemma scan_renderFlag (h : Legible flag) (hrest : ∀ c ∈ rest.head?, c = ' ') :
    scan .between (renderFlag flag ++ rest) = [flag].filter (· ≠ []) ++ scan .between rest := by
  -- With a space the flag is read as a group, and otherwise character by character.
  by_cases hspace : ' ' ∈ flag
  · have hquote : '\'' ∉ flag := by
      rcases h with h | hplain
      · exact h.2
      · exact absurd (hplain ' ' hspace).1 (by decide)
    have hne : flag ≠ [] := List.ne_nil_of_mem hspace
    have hmark : isQuote '\'' = true := by decide
    calc scan .between (renderFlag flag ++ rest)
        = scan .between ('\'' :: (flag ++ '\'' :: rest)) := by simp [renderFlag, hspace]
      _ = scan (.quoted '\'' []) (flag ++ '\'' :: rest) := by rw [scan, if_pos hmark]
      _ = scan (.quoted '\'' flag) ('\'' :: rest) := scan_quoted_append hquote
      _ = scan (.bare flag) rest := by rw [scan, if_pos rfl]
      _ = flag :: scan .between rest := scan_bare_of_space hrest
      _ = [flag].filter (· ≠ []) ++ scan .between rest := by simp [hne]
  · have hplain : Plain flag := h.resolve_left fun h => hspace h.1
    rw [renderFlag_of_no_space hspace]
    by_cases hne : flag = []
    · simp [hne]
    · rw [scan_between_append hplain hne, scan_bare_of_space hrest]
      simp [hne]

lemma head?_following (flags : List (List Char)) : ∀ c ∈ (following flags).head?, c = ' ' := by
  cases flags with
  | nil => simp [following]
  | cons flag more => simp [following]

/-- Legible flags are read one after the other; the empty ones leave no trace. -/
lemma scan_following (h : ∀ f ∈ flags, Legible f) (hrest : ∀ c ∈ rest.head?, c = ' ') :
    scan .between (following flags ++ rest) = flags.filter (· ≠ []) ++ scan .between rest := by
  induction flags with
  | nil => rfl
  | cons flag more ih =>
      obtain ⟨hflag, hmore⟩ := List.forall_mem_cons.1 h
      have hnext : ∀ c ∈ (following more ++ rest).head?, c = ' ' := by
        intro c hc
        rw [List.head?_append, Option.mem_def, Option.or_eq_some_iff] at hc
        rcases hc with hc | ⟨-, hc⟩
        · exact head?_following more c hc
        · exact hrest c hc
      have hcons : following (flag :: more) ++ rest =
          ' ' :: (renderFlag flag ++ (following more ++ rest)) := by simp [following]
      rw [hcons, scan_between_space, scan_renderFlag hflag hnext, ih hmore, ← List.append_assoc,
        ← List.filter_append, List.singleton_append]

lemma scan_renderChars (flags : List (List Char)) :
    scan .between (renderChars flags) = scan .between (following flags) := by
  cases flags with
  | nil => rfl
  | cons flag more =>
      have hmore : ∀ (flag : List Char) (more : List (List Char)),
          renderChars (flag :: more) = renderFlag flag ++ following more := by
        intro flag more
        induction more generalizing flag with
        | nil => simp [renderChars, following]
        | cons next more ih =>
            have hcons : renderChars (flag :: next :: more) =
                renderFlag flag ++ ' ' :: renderChars (next :: more) := by
              simp [renderChars, List.intercalate]
            rw [hcons, ih next]
            simp [following]
      have hcons : following (flag :: more) = ' ' :: renderChars (flag :: more) := by
        rw [hmore]
        simp [following]
      rw [hcons, scan_between_space]

/-! ## Counting -/

/-- The scan makes no character up and keeps the order of those that it keeps. -/
lemma flatten_scan_sublist (st : Scan) (cs : List Char) :
    (scan st cs).flatten.Sublist (st.begun ++ cs) := by
  fun_induction scan st cs with
  | case1 => simp
  | case2 word => simp [Scan.begun]
  | case3 mark word => simp [Scan.begun]
  | case4 c rest _ ih | case5 c rest _ _ ih => exact ih.cons c
  | case6 c rest _ _ ih => exact ih
  | case7 word c rest _ ih | case10 word c rest ih =>
      exact ih.trans ((List.sublist_cons_self c rest).append_left word)
  | case8 word c rest _ _ ih => exact (ih.cons c).append_left word
  | case9 word c rest _ _ ih | case11 mark word c rest _ ih =>
      simpa [Scan.begun] using ih

lemma count_scan_le (x : Char) (st : Scan) (cs : List Char) :
    (scan st cs).flatten.count x ≤ st.begun.count x + cs.count x := by
  rw [← List.count_append]
  exact (flatten_scan_sublist st cs).count_le x

lemma ne_double_of_count (hquote : isQuote c = true)
    (h : (scan (.quoted c word) rest).flatten.count '"' = word.count '"' + (c :: rest).count '"') :
    c = '\'' := by
  rcases isQuote_iff.1 hquote with hc | hc
  · exact hc
  · have hle := count_scan_le '"' (.quoted c word) rest
    rw [h, hc, List.count_cons_self] at hle
    simp only [Scan.begun] at hle
    omega

/-- Where no double quote is lost, every single quote opens or closes a group and is lost. -/
lemma count_single_of_count_double {cs : List Char}
    (hst : ∀ mark w, st = .quoted mark w → mark = '\'')
    (h : (scan st cs).flatten.count '"' = st.begun.count '"' + cs.count '"') :
    (scan st cs).flatten.count '\'' = st.begun.count '\'' := by
  fun_induction scan st cs with
  | case1 => rfl
  | case2 word => simp [Scan.begun]
  | case3 mark word => simp [Scan.begun]
  | case4 c rest hquote ih | case7 word c rest hquote ih =>
      -- A double quote here would open a group and be lost.
      obtain rfl : c = '\'' := ne_double_of_count hquote h
      exact ih (by simp) (by simpa [Scan.begun] using h)
  | case5 c rest hquote hblank ih =>
      have hc : c ≠ '"' := fun hc => hquote (isQuote_iff.2 (.inr hc))
      exact ih (by simp) (by simpa [Scan.begun, hc] using h)
  | case6 c rest hquote hblank ih =>
      have hc := not_or.1 (isQuote_iff.not.1 hquote)
      rw [ih (by simp) (by simpa [Scan.begun, hc.2] using h)]
      simp [Scan.begun, hc.1]
  | case8 word c rest hquote hblank ih =>
      have hc : c ≠ '"' := fun hc => hquote (isQuote_iff.2 (.inr hc))
      have hrest := ih (by simp) (by simpa [Scan.begun, hc] using h)
      simpa [Scan.begun] using hrest
  | case9 word c rest hquote hblank ih =>
      have hc := not_or.1 (isQuote_iff.not.1 hquote)
      rw [ih (by simp) (by simpa [Scan.begun, hc.2] using h)]
      simp [Scan.begun, hc.1]
  | case10 word c rest ih =>
      obtain rfl : c = '\'' := hst c word rfl
      exact ih (by simp) (by simpa [Scan.begun] using h)
  | case11 mark word c rest hmark ih =>
      obtain rfl : mark = '\'' := hst mark word rfl
      have hsum : word.count '"' + (c :: rest).count '"' =
          (word ++ [c]).count '"' + rest.count '"' := by
        rw [← List.count_append, ← List.count_append, List.append_assoc, List.singleton_append]
      rw [ih (by simp) (h.trans hsum)]
      simp [Scan.begun, hmark]

lemma count_following (hspace : x ≠ ' ') (hquote : x ≠ '\'') (flags : List (List Char)) :
    (following flags).count x = flags.flatten.count x := by
  induction flags with
  | nil => rfl
  | cons flag more ih =>
      have hflag : (renderFlag flag).count x = flag.count x := by
        unfold renderFlag
        split
        · simp [Ne.symm hquote]
        · rfl
      have hcons : following (flag :: more) = ' ' :: (renderFlag flag ++ following more) := by
        simp [following]
      rw [hcons, List.flatten_cons, List.count_cons_of_ne (Ne.symm hspace), List.count_append,
        List.count_append, hflag, ih]

/-! ## Flags that are not read as they stand -/

/-- Where not all entries of a list are as they should be, one is the first that is not. -/
lemma exists_first {α : Type} {good : α → Prop} {l : List α} (h : ¬ ∀ a ∈ l, good a) :
    ∃ front a back, l = front ++ a :: back ∧ (∀ b ∈ front, good b) ∧ ¬ good a := by
  induction l with
  | nil => simp at h
  | cons b l ih =>
      by_cases hb : good b
      · obtain ⟨front, a, back, rfl, hfront, ha⟩ := ih fun hl => h (List.forall_mem_cons.2 ⟨hb, hl⟩)
        exact ⟨b :: front, a, back, rfl, List.forall_mem_cons.2 ⟨hb, hfront⟩, ha⟩
      · exact ⟨[], b, l, rfl, by simp, hb⟩

lemma Plain.count_eq_zero (h : Plain front) (hx : ¬ (Text.isBlank x = false ∧ isQuote x = false)) :
    front.count x = 0 := List.count_eq_zero.2 fun hmem => hx (h x hmem)

/-- The scan loses the first character that is not plain. -/
lemma count_scan_lt (hfront : Plain front) (hx : ¬ (Text.isBlank x = false ∧ isQuote x = false))
    (rest : List Char) :
    (scan .between (front ++ x :: rest)).flatten.count x < (front ++ x :: rest).count x := by
  have hzero := hfront.count_eq_zero hx
  have hcount : (front ++ x :: rest).count x = rest.count x + 1 := by
    rw [List.count_append, List.count_cons_self, hzero, Nat.zero_add]
  -- What is left to read is `rest`, and the word that is read so far does not hold `x`.
  obtain ⟨st, words, hscan, hlost⟩ : ∃ st words,
      scan .between (front ++ x :: rest) = words ++ scan st rest ∧
        words.flatten.count x + st.begun.count x = 0 := by
    by_cases hquote : isQuote x = true
    · refine ⟨.quoted x front, [], ?_, by simp [Scan.begun, hzero]⟩
      cases front with
      | nil => simp [scan, hquote]
      | cons c front =>
          rw [scan_between_append hfront (by simp), scan, if_pos hquote]
          rfl
    · have hblank : Text.isBlank x = true := by
        by_contra hblank
        exact hx ⟨Bool.eq_false_iff.2 hblank, Bool.eq_false_iff.2 hquote⟩
      cases front with
      | nil => exact ⟨.between, [], by simp [scan, hquote, hblank], by simp [Scan.begun]⟩
      | cons c front =>
          refine ⟨.between, [c :: front], ?_, by simpa [Scan.begun] using hzero⟩
          rw [scan_between_append hfront (by simp), scan, if_neg hquote, if_pos hblank]
          rfl
  have hle := count_scan_le x st rest
  rw [hscan, hcount, List.flatten_append, List.count_append]
  omega

/-- A flag without single quotes that is not legible loses a character that the rendering did not
add. -/
lemma exists_lost (hlegible : ¬ Legible flag) (hquote : '\'' ∉ flag) (more : List (List Char)) :
    ∃ x, x ≠ ' ' ∧ x ≠ '\'' ∧
      (scan .between (following (flag :: more))).flatten.count x <
        (flag :: more).flatten.count x := by
  obtain ⟨hspace, hplain⟩ := not_or.1 hlegible
  have hspace : ' ' ∉ flag := fun h => hspace ⟨h, hquote⟩
  obtain ⟨front, x, back, rfl, hfront, hx⟩ := exists_first hplain
  have hne : x ≠ ' ' := fun h => hspace (by simp [h])
  have hne' : x ≠ '\'' := fun h => hquote (by simp [h])
  refine ⟨x, hne, hne', ?_⟩
  -- Without a space the rendering leaves the flag as it is.
  have hfollowing : following ((front ++ x :: back) :: more) =
      ' ' :: (front ++ x :: (back ++ following more)) := by
    simp [following, renderFlag_of_no_space hspace]
  have hlt := count_scan_lt hfront hx (back ++ following more)
  rw [← count_following hne hne' ((front ++ x :: back) :: more), hfollowing, scan_between_space,
    List.count_cons_of_ne (Ne.symm hne)]
  exact hlt

/-! ## Coming back -/

lemma noQuote_of_scan (h : scan .between (following flags) = flags) :
    ∀ flag ∈ flags, '\'' ∉ flag := by
  intro flag hflag hquote
  have hdouble : (scan .between (following flags)).flatten.count '"' =
      Scan.between.begun.count '"' + (following flags).count '"' := by
    rw [h, count_following (by decide) (by decide)]
    simp [Scan.begun]
  have hsingle := count_single_of_count_double (by simp) hdouble
  rw [h] at hsingle
  have hmem : '\'' ∈ flags.flatten := List.mem_flatten.2 ⟨flag, hflag, hquote⟩
  exact absurd hmem (List.count_eq_zero.1 hsingle)

lemma legible_of_scan (h : scan .between (following flags) = flags) :
    ∀ flag ∈ flags, Legible flag := by
  by_contra hall
  obtain ⟨front, flag, more, hflags, hfront, hflag⟩ := exists_first hall
  have hquote : '\'' ∉ flag := noQuote_of_scan h flag (by simp [hflags])
  obtain ⟨x, hspace, hquote, hlost⟩ := exists_lost hflag hquote more
  have hfollowing : following flags = following front ++ following (flag :: more) := by
    simp [hflags, following]
  rw [hfollowing, scan_following hfront (head?_following _)] at h
  -- What is in front comes back whole, so the loss shows in the count of the whole list.
  have hcount := congrArg (fun words => words.flatten.count x) h
  simp only [hflags, List.flatten_append, List.count_append, List.flatten_filter_ne_nil] at hcount
  omega

lemma survives_iff {flag : String} :
    Survives flag ↔ Legible flag.toList ∧ flag.toList ≠ [] := by
  have hempty : flag ≠ "" ↔ flag.toList ≠ [] := by simp
  have hplain : (∀ c ∈ flag.toList, Text.isBlank c = false ∧ c ≠ '\'' ∧ c ≠ '"') ↔
      Plain flag.toList := by
    simp [Plain, isQuote]
  rw [Survives, Legible, hempty, hplain]
  constructor
  · rintro (hquoted | ⟨hne, hplain⟩)
    · exact ⟨.inl hquoted, List.ne_nil_of_mem hquoted.1⟩
    · exact ⟨.inr hplain, hne⟩
  · rintro ⟨hquoted | hplain, hne⟩
    · exact .inl hquoted
    · exact .inr ⟨hne, hplain⟩

lemma map_ofList_eq_iff {words : List (List Char)} {flags : List String} :
    words.map .ofList = flags ↔ words = flags.map String.toList := by
  constructor
  · rintro rfl
    simp [Function.comp_def]
  · rintro rfl
    simp [Function.comp_def]

lemma split_render (flags : List String) :
    split (render flags) = flags ↔
      scan .between (following (flags.map String.toList)) = flags.map String.toList := by
  rw [split, splitChars, render, String.toList_ofList, scan_renderChars, map_ofList_eq_iff]

/-- Once all flags are legible, the empty ones are all that can be missing. -/
lemma scan_following_eq_iff (h : ∀ flag ∈ flags, Legible flag) :
    scan .between (following flags) = flags ↔ ∀ flag ∈ flags, flag ≠ [] := by
  have hread : scan .between (following flags ++ []) =
      flags.filter (· ≠ []) ++ scan .between [] := scan_following h (by simp)
  rw [List.append_nil, scan, List.append_nil] at hread
  rw [hread, List.filter_eq_self]
  simp

lemma split_render_of_survives {flags : List String} (h : ∀ flag ∈ flags, Survives flag) :
    split (render flags) = flags := by
  have hsurvives : ∀ cs ∈ flags.map String.toList, Legible cs ∧ cs ≠ [] := by
    intro cs hcs
    obtain ⟨flag, hflag, rfl⟩ := List.mem_map.1 hcs
    exact survives_iff.1 (h flag hflag)
  exact (split_render flags).2
    ((scan_following_eq_iff fun cs hcs => (hsurvives cs hcs).1).2 fun cs hcs =>
      (hsurvives cs hcs).2)

lemma survives_of_split_render {flags : List String} (h : split (render flags) = flags) :
    ∀ flag ∈ flags, Survives flag := by
  intro flag hflag
  have hscan := (split_render flags).1 h
  have hlegible := legible_of_scan hscan
  have hmem : flag.toList ∈ flags.map String.toList := List.mem_map_of_mem hflag
  exact survives_iff.2
    ⟨hlegible _ hmem, (scan_following_eq_iff hlegible).1 hscan _ hmem⟩

/-- A list of flags is read again as it was written exactly when each flag survives: it holds a
space and no single quote, or it is not empty and holds no blanks and no quotes at all. -/
theorem split_render_iff (flags : List String) :
    split (render flags) = flags ↔ ∀ flag ∈ flags, Survives flag := by
  constructor
  · exact survives_of_split_render
  · exact split_render_of_survives

/-- A double quote that opens a group swallows the flags behind it. -/
example : split (render ["-Wl,\"x", "-O2", "a b"]) = ["-Wl,x -O2 'a b'"] := by decide

end Drydock.Flags
