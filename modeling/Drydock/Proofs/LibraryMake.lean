import Drydock.CompilerFlags
import Drydock.LibraryMake
import Drydock.Proofs.Flags

/-!
# The flags that the vendored library is compiled with

The make run of the vendored library gets its preprocessor flags as one text, in which they stand
behind each other with spaces between them and nothing else.  Unlike `Flags.render`, which puts a
flag with a space in quotes, this keeps the words apart only where no flag holds a blank or a quote
and none is empty.

Whether the words come back is decided by counting quotes: a quote that opens a group is lost, so
where no quote is lost there is none, and then every blank ends a word.

The count has two sides.  A scan makes no quote up, whatever its state, so its words hold at most
the quotes that were there; and outside quotes the first quote of a text opens a group and is
dropped, so that from there on the words hold one less.  Spaces between words add none.  A text that
is read back as the words it was made of therefore has no quotes at all, and its words are plain.

The condition for the make run is stricter than the one for the rendered flags, and comparing the
two gives the last clause of the result: among the lists that survive being rendered, those that
also survive the make run are the ones without a space.  A flag such as `-I/my dir` is the case
between them.

* `Flags.scan_intercalate_iff` — words that are read again from a text of words with spaces between.
* `LibraryMake.split_cppflags_iff` — the flags that reach the vendored compile as they are planned.
-/

namespace Drydock

namespace Flags

variable {cs w : List Char} {ws : List (List Char)} {st : Scan}

/-! ## Words that are joined as they are -/

/-- A state of the scan outside quotes, in which what is read of a word is not empty and plain. -/
def Scan.InPlain : Scan → Prop
  | .between => True
  | .bare word => word ≠ [] ∧ Plain word
  | .quoted _ _ => False

/-- The scan makes no quotes up. -/
lemma countP_quote_le (st : Scan) (cs : List Char) :
    (scan st cs).flatten.countP isQuote ≤ st.begun.countP isQuote + cs.countP isQuote := by
  rw [← List.countP_append]
  exact (flatten_scan_sublist st cs).countP_le

/-- Outside quotes, the first quote of a text opens a group and is lost. -/
lemma countP_quote_lt (hst : ∀ mark word, st ≠ .quoted mark word)
    (hcs : ∃ c ∈ cs, isQuote c = true) :
    (scan st cs).flatten.countP isQuote < st.begun.countP isQuote + cs.countP isQuote := by
  -- A character that is not a quote leaves the quote in the rest of the text.
  have hbehind : ∀ {c rest}, ¬ isQuote c = true → (∃ d ∈ c :: rest, isQuote d = true) →
      ∃ d ∈ rest, isQuote d = true := by
    rintro c rest hc ⟨d, hd, hquote⟩
    rcases List.mem_cons.1 hd with rfl | hd
    · exact absurd hquote hc
    · exact ⟨d, hd, hquote⟩
  fun_induction scan st cs with
  | case1 | case2 | case3 => simp at hcs
  | case4 c rest hquote ih | case7 word c rest hquote ih =>
      -- The quote that opens the group is dropped, and what is behind it can only lose more.
      refine Nat.lt_of_le_of_lt (countP_quote_le _ _) ?_
      rw [List.countP_cons_of_pos hquote]
      exact Nat.lt_succ_self _
  | case5 c rest hquote hblank ih =>
      rw [List.countP_cons_of_neg hquote]
      exact ih (by simp) (hbehind hquote hcs)
  | case6 c rest hquote hblank ih | case8 word c rest hquote hblank ih
  | case9 word c rest hquote hblank ih =>
      have hrest := ih (by simp) (hbehind hquote hcs)
      simpa [Scan.begun, hquote] using hrest
  | case10 word c rest ih => exact absurd rfl (hst c word)
  | case11 mark word c rest hmark ih => exact absurd rfl (hst mark word)

lemma plain_append_singleton {c : Char} {word : List Char} (hword : Plain word)
    (hblank : ¬ Text.isBlank c = true) (hquote : ¬ isQuote c = true) : Plain (word ++ [c]) := by
  intro d hd
  rcases List.mem_append.1 hd with hd | hd
  · exact hword d hd
  · rw [List.mem_singleton.1 hd]
    exact ⟨Bool.eq_false_iff.2 hblank, Bool.eq_false_iff.2 hquote⟩

lemma plain_of_mem_scan (hst : st.InPlain) (hcs : ∀ c ∈ cs, isQuote c = false)
    (hw : w ∈ scan st cs) : w ≠ [] ∧ Plain w := by
  fun_induction scan st cs with
  | case1 => simp at hw
  | case2 word =>
      rw [List.mem_singleton.1 hw]
      exact hst
  | case3 mark word => exact hst.elim
  | case4 c rest hquote ih | case7 word c rest hquote ih =>
      exact absurd ((hcs c List.mem_cons_self).symm.trans hquote) (by decide)
  | case5 c rest hquote hblank ih => exact ih trivial (List.forall_mem_cons.1 hcs).2 hw
  | case6 c rest hquote hblank ih =>
      have hplain : Plain ([] ++ [c]) := plain_append_singleton (by simp [Plain]) hblank hquote
      exact ih ⟨by simp, hplain⟩ (List.forall_mem_cons.1 hcs).2 hw
  | case8 word c rest hquote hblank ih =>
      rcases List.mem_cons.1 hw with rfl | hw
      · exact hst
      · exact ih trivial (List.forall_mem_cons.1 hcs).2 hw
  | case9 word c rest hquote hblank ih =>
      have hplain := plain_append_singleton hst.2 hblank hquote
      exact ih ⟨by simp, hplain⟩ (List.forall_mem_cons.1 hcs).2 hw
  | case10 word c rest ih | case11 mark word c rest hmark ih => exact hst.elim

lemma countP_quote_intercalate (ws : List (List Char)) :
    ([' '].intercalate ws).countP isQuote = ws.flatten.countP isQuote := by
  induction ws with
  | nil => rfl
  | cons w ws ih =>
      cases ws with
      | nil => simp
      | cons v ws =>
          have hspace : isQuote ' ' = false := by decide
          rw [List.intercalate_cons_cons, List.countP_append, List.countP_append, ih]
          simp [hspace]

lemma scan_intercalate_iff :
    scan .between ([' '].intercalate ws) = ws ↔ ∀ w ∈ ws, w ≠ [] ∧ Plain w := by
  constructor
  · intro h w hw
    have hnone : ∀ c ∈ [' '].intercalate ws, isQuote c = false := by
      intro c hc
      refine Bool.eq_false_iff.2 fun hquote => ?_
      have houtside : ∀ mark word, Scan.between ≠ .quoted mark word := by simp
      -- A quote in the text would be lost, but the words that came back hold as many as the text.
      have hlost := countP_quote_lt houtside ⟨c, hc, hquote⟩
      rw [h, countP_quote_intercalate] at hlost
      simp [Scan.begun] at hlost
    have hbetween : Scan.between.InPlain := trivial
    exact plain_of_mem_scan hbetween hnone (h.symm ▸ hw)
  · intro h
    -- Plain words are rendered as they are, so this is the case that `Flags` has settled.
    have hrender : [' '].intercalate ws = renderChars ws := by
      have hspace : ∀ w ∈ ws, renderFlag w = w := fun w hw =>
        renderFlag_of_no_space fun hmem => absurd ((h w hw).2 ' ' hmem).1 (by decide)
      rw [renderChars, List.map_congr_left hspace, List.map_id']
    rw [hrender, scan_renderChars, scan_following_eq_iff fun w hw => .inr (h w hw).2]
    exact fun w hw => (h w hw).1

/-- A flag that is read as it stands wherever there are spaces around it. -/
def Unquoted (flag : String) : Prop :=
  flag ≠ "" ∧ ∀ c ∈ flag.toList, Text.isBlank c = false ∧ c ≠ '\'' ∧ c ≠ '"'

instance decidableUnquoted (flag : String) : Decidable (Unquoted flag) :=
  decidable_of_iff (flag ≠ "" ∧ flag.toList.all fun c => !Text.isBlank c && c != '\'' && c != '"')
    (by simp [Unquoted, and_assoc])

lemma split_intercalate_iff {flags : List String} :
    split (" ".intercalate flags) = flags ↔ ∀ flag ∈ flags, Unquoted flag := by
  rw [split, splitChars, String.toList_intercalate, map_ofList_eq_iff]
  have hjoin := @scan_intercalate_iff (flags.map String.toList)
  simpa [Plain, Unquoted, isQuote] using hjoin

lemma unquoted_iff_of_survives {flag : String} (h : Survives flag) :
    Unquoted flag ↔ ' ' ∉ flag.toList := by
  constructor
  · exact fun hplain hspace => absurd (hplain.2 ' ' hspace).1 (by decide)
  · exact fun hspace => h.resolve_left fun hquoted => hspace hquoted.1

end Flags

namespace LibraryMake

/-! ## The flags of the vendored compile -/

/-- The words that the vendored compile is meant to see. -/
def plannedWords (compileArgs : List String) (defines : List Define) : List String :=
  ["-I."] ++ (compileArgs ++ defines.map Define.flag) ++ ["$(CPPFLAGS)"]

lemma split_cppflags (compileArgs : List String) (defines : List Define) :
    Flags.split (cppflags compileArgs defines) = plannedWords compileArgs defines ↔
      ∀ flag ∈ compileArgs ++ defines.map Define.flag, Flags.Unquoted flag := by
  have hown : Flags.Unquoted "-I." ∧ Flags.Unquoted "$(CPPFLAGS)" := by decide
  have hjoin :
      cppflags compileArgs defines = " ".intercalate (plannedWords compileArgs defines) := by
    simp [cppflags, plannedWords]
  rw [hjoin, Flags.split_intercalate_iff]
  simp only [plannedWords, List.mem_append, List.mem_singleton, or_imp, forall_and, forall_eq, hown,
    true_and, and_true]

lemma planned_of_merge (tools : ToolVariables) (defaults : CompilerDefaults) (m : Module) :
    m.compileArgs <:+ (CompilerFlags.merge tools defaults m).cflags ∧
      m.defines.map Define.flag <:+: (CompilerFlags.merge tools defaults m).cppflags :=
  ⟨List.suffix_append _ _, _, _, rfl⟩

/-- The make command passes the flags of a module on in one text.  The vendored compile sees the
words that are planned for the module exactly when none of them is empty and none holds a blank or a
quote; of the lists that survive being rendered, these are the ones without spaces. -/
theorem split_cppflags_iff (b : LibraryMake) (m : Module) :
    ∃ value, (b.command m.compileArgs m.defines).args = ["ALL_CPPFLAGS=" ++ value, b.target] ∧
      (Flags.split value =
          ["-I."] ++ (m.compileArgs ++ m.defines.map Define.flag) ++ ["$(CPPFLAGS)"] ↔
        ∀ flag ∈ m.compileArgs ++ m.defines.map Define.flag, Flags.Unquoted flag) ∧
      (Flags.split (Flags.render (m.compileArgs ++ m.defines.map Define.flag)) =
          m.compileArgs ++ m.defines.map Define.flag →
        (Flags.split value =
            ["-I."] ++ (m.compileArgs ++ m.defines.map Define.flag) ++ ["$(CPPFLAGS)"] ↔
          ∀ flag ∈ m.compileArgs ++ m.defines.map Define.flag, ' ' ∉ flag.toList)) ∧
      ∀ tools defaults, m.compileArgs <:+ (CompilerFlags.merge tools defaults m).cflags ∧
        m.defines.map Define.flag <:+: (CompilerFlags.merge tools defaults m).cppflags := by
  have hwords := split_cppflags m.compileArgs m.defines
  refine ⟨cppflags m.compileArgs m.defines, rfl, hwords, fun hrender => hwords.trans ?_,
    fun tools defaults => planned_of_merge tools defaults m⟩
  have hsurvives := Flags.survives_of_split_render hrender
  exact forall₂_congr fun flag hflag => Flags.unquoted_iff_of_survives (hsurvives flag hflag)

/-- The make run of the library that `libcore` carries. -/
def coreMake : LibraryMake where
  dir := ⟨"htslib"⟩
  make := "make"
  target := "lib-static"
  archive := ⟨"htslib/libhts.a"⟩

/-- A module with flags that need no quotes. -/
def plainModule : Module where
  name := "libcore"
  compileArgs := ["-Wno-unused"]
  defines := [⟨"VERSION", some "1.2"⟩, ⟨"NDEBUG", none⟩]

theorem split_cppflags_iff_plainModule :
    Flags.split (Flags.render (plainModule.compileArgs ++ plainModule.defines.map Define.flag)) =
        plainModule.compileArgs ++ plainModule.defines.map Define.flag ∧
      ∃ value, (coreMake.command plainModule.compileArgs plainModule.defines).args =
          ["ALL_CPPFLAGS=" ++ value, "lib-static"] ∧
        Flags.split value = ["-I.", "-Wno-unused", "-DVERSION=1.2", "-DNDEBUG", "$(CPPFLAGS)"] := by
  have hrender : Flags.split (Flags.render (plainModule.compileArgs ++
      plainModule.defines.map Define.flag)) =
        plainModule.compileArgs ++ plainModule.defines.map Define.flag := by decide +kernel
  obtain ⟨value, hargs, -, hspaces, -⟩ := split_cppflags_iff coreMake plainModule
  exact ⟨hrender, value, hargs, (hspaces hrender).2 (by decide +kernel)⟩

/-- A directory with a space in its name survives being rendered, and is cut in two on its way to
the vendored compile. -/
theorem split_cppflags_cuts_spacedDir :
    Flags.split (Flags.render (["-I/my dir"] ++ ([] : List Define).map Define.flag)) =
        ["-I/my dir"] ++ ([] : List Define).map Define.flag ∧
      ∃ value, (coreMake.command ["-I/my dir"] []).args =
          ["ALL_CPPFLAGS=" ++ value, coreMake.target] ∧
        Flags.split value = ["-I.", "-I/my", "dir", "$(CPPFLAGS)"] ∧
        Flags.split value ≠
          ["-I."] ++ ["-I/my dir"] ++ ([] : List Define).map Define.flag ++ ["$(CPPFLAGS)"] := by
  have hsplit :
      Flags.split (cppflags ["-I/my dir"] []) = ["-I.", "-I/my", "dir", "$(CPPFLAGS)"] := by
    decide +kernel
  refine ⟨by decide +kernel, _, rfl, hsplit, ?_⟩
  rw [hsplit]
  decide

end LibraryMake

end Drydock
