import Drydock.Glob
import Drydock.Proofs.Path.Join
import Mathlib.Data.List.Forall2

/-!
# Patterns behind a base

A pattern is searched for behind the path of a directory, and the two are read as one pattern.
Where the path holds no marks, this is the pattern read alone, with the names of the path in front
of its parts.

The parser carries a position for its errors, and whether it stands at the beginning of a component,
where alone `**` means directories.  `Glob.Reads` keeps the second and drops the first, so that a
text can be taken apart and put together again.  Reading the whole text is a check and no more; what
a query is made of are its pieces, each read on its own.

A component that is read as characters only becomes a plain one and is walked, not matched.  That is
why a path without marks in front of a pattern costs nothing (`Glob.Query.parse_join`), and why a
mark in it changes everything.  The empty pattern is the exception: joined to a path it leaves a
slash at the end, and such a query is for directories.

* `Glob.mapM_eq_ok_iff` — a list is read when each of its members is.
* `Glob.Reads` — which tokens a text is read as, without the positions of the parser.
* `Glob.reads_unmarked` — a text without marks stands for itself.
* `Glob.WellSpelled` — the patterns that can be read.
* `Glob.Query.parse_join` — the query of a pattern behind a path.
-/

namespace Drydock.Glob

variable {cs front rest piece : List Char} {tokens : List Token} {position : ℕ} {fresh : Bool}
  {base : Path} {pattern : String} {q : Query}

lemma mapM_eq_ok_iff {α β ε : Type} {f : α → Except ε β} {xs : List α} {ys : List β} :
    xs.mapM f = .ok ys ↔ List.Forall₂ (fun x y => f x = .ok y) xs ys := by
  induction xs generalizing ys with
  | nil =>
      rw [List.mapM_nil, List.forall₂_nil_left_iff]
      exact ⟨fun h => (Except.ok.inj h).symm, fun h => by rw [h]; rfl⟩
  | cons x xs ih =>
      rw [List.mapM_cons]
      constructor
      · intro h
        cases hx : f x with
        | error e => simp [hx, bind, Except.bind] at h
        | ok y =>
            cases hxs : xs.mapM f with
            | error e => simp [hx, hxs, bind, Except.bind] at h
            | ok rest =>
                obtain rfl : y :: rest = ys := by
                  simpa [hx, hxs, bind, Except.bind, pure, Except.pure] using h
                exact .cons hx (ih.1 hxs)
      · intro h
        cases h with
        | cons hx hxs =>
            rw [hx, ih.2 hxs]
            rfl

lemma exists_of_mem_forall₂ {α β : Type} {R : α → β → Prop} {xs : List α} {ys : List β} {y : β}
    (h : List.Forall₂ R xs ys) (hy : y ∈ ys) : ∃ x ∈ xs, R x y := by
  induction h with
  | nil => simp at hy
  | @cons x y' xs ys hxy h ih =>
      rcases List.mem_cons.1 hy with rfl | hy
      · exact ⟨x, by simp, hxy⟩
      · obtain ⟨x', hx', hR⟩ := ih hy
        exact ⟨x', List.mem_cons_of_mem _ hx', hR⟩

lemma exists_mapM_iff {α β ε : Type} {f : α → Except ε β} {xs : List α} :
    (∃ ys, xs.mapM f = .ok ys) ↔ ∀ x ∈ xs, ∃ y, f x = .ok y := by
  simp only [mapM_eq_ok_iff]
  constructor
  · rintro ⟨ys, hall⟩ x hx
    obtain ⟨y, -, hy⟩ := exists_of_mem_forall₂ hall.flip hx
    exact ⟨y, hy⟩
  · intro h
    induction xs with
    | nil => exact ⟨[], .nil⟩
    | cons x xs ih =>
        obtain ⟨y, hy⟩ := h x (by simp)
        obtain ⟨ys, hys⟩ := ih fun x hx => h x (List.mem_cons_of_mem _ hx)
        exact ⟨y :: ys, .cons hy hys⟩

/-! ## Tokens -/

/-- The tokens that a text is read as, wherever it stands in a pattern. -/
inductive Reads : Bool → List Char → List Token → Prop
  | nil (fresh : Bool) : Reads fresh [] []
  | anyChar (fresh : Bool) {rest : List Char} {tokens : List Token} (h : Reads false rest tokens) :
      Reads fresh ('?' :: rest) (.anyChar :: tokens)
  | lastDirectories : Reads true ['*', '*'] [.anyDirectories]
  | directories {rest : List Char} {tokens : List Token} (h : Reads true rest tokens) :
      Reads true ('*' :: '*' :: '/' :: rest) (.anyDirectories :: tokens)
  | anySequence (fresh : Bool) {rest : List Char} {tokens : List Token}
      (hstar : rest.head? ≠ some '*') (h : Reads false rest tokens) :
      Reads fresh ('*' :: rest) (.anySequence :: tokens)
  | ofClass (fresh : Bool) {rest behind : List Char} {token : Token} {tokens : List Token}
      (hclass : class? rest = some (token, behind)) (hshort : behind.length < rest.length)
      (h : Reads false behind tokens) : Reads fresh ('[' :: rest) (token :: tokens)
  | char (fresh : Bool) {c : Char} {rest : List Char} {tokens : List Token}
      (hc : c ∉ ['*', '?', '[']) (h : Reads (c = '/') rest tokens) :
      Reads fresh (c :: rest) (.char c :: tokens)

lemma bind_cons_eq_ok {token : Token} {x : Except PatternError (List Token)} :
    (do return token :: (← x)) = .ok tokens ↔ ∃ more, x = .ok more ∧ token :: more = tokens := by
  cases x with
  | error e => simp [bind, Except.bind]
  | ok more => simp [bind, Except.bind, pure, Except.pure]

lemma reads_of_parseFrom (h : parseFrom position fresh cs = .ok tokens) :
    Reads fresh cs tokens := by
  fun_induction parseFrom position fresh cs generalizing tokens with
  | case1 position fresh =>
      obtain rfl := Except.ok.inj h
      exact .nil fresh
  | case2 position fresh rest ih =>
      obtain ⟨more, hmore, rfl⟩ := bind_cons_eq_ok.1 h
      exact .anyChar fresh (ih hmore)
  | case3 => simp at h
  | case4 => simp at h
  | case5 position fresh hfresh =>
      obtain rfl : fresh = true := by simpa using hfresh
      obtain rfl := Except.ok.inj h
      exact .lastDirectories
  | case6 position fresh hfresh rest hstar ih =>
      obtain rfl : fresh = true := by simpa using hfresh
      obtain ⟨more, hmore, rfl⟩ := bind_cons_eq_ok.1 h
      exact .directories (ih hmore)
  | case7 => simp at h
  | case8 position fresh rest hstars hstar ih =>
      obtain ⟨more, hmore, rfl⟩ := bind_cons_eq_ok.1 h
      refine .anySequence fresh (fun hhead => ?_) (ih hmore)
      cases rest with
      | nil => simp at hhead
      | cons c rest => exact hstar rest (by rw [Option.some.inj hhead])
  | case9 position fresh rest token behind hclass hshort read =>
      rename_i ih
      obtain ⟨more, hmore, rfl⟩ := bind_cons_eq_ok.1 h
      exact .ofClass fresh hclass hshort (ih hmore)
  | case10 => simp at h
  | case11 => simp at h
  | case12 position fresh c rest hquestion hstars hstars' hstar hbracket ih =>
      obtain ⟨more, hmore, rfl⟩ := bind_cons_eq_ok.1 h
      refine .char fresh ?_ (ih hmore)
      simp only [List.mem_cons, List.not_mem_nil, or_false, not_or]
      exact ⟨hstar, hquestion, hbracket⟩

lemma parseFrom_of_reads (h : Reads fresh cs tokens) (position : ℕ) :
    parseFrom position fresh cs = .ok tokens := by
  induction h generalizing position with
  | nil fresh => rw [parseFrom]
  | anyChar fresh h ih =>
      rw [parseFrom, bind_cons_eq_ok]
      exact ⟨_, ih _, rfl⟩
  | lastDirectories =>
      unfold parseFrom
      rfl
  | directories h ih =>
      unfold parseFrom
      simp only [Bool.not_true, Bool.false_eq_true, if_false]
      exact bind_cons_eq_ok.2 ⟨_, ih _, rfl⟩
  -- The parser tries two and three stars first, so it has to be ruled out that more follow.
  | @anySequence fresh rest tokens hstar h ih =>
      rw [parseFrom]
      · exact bind_cons_eq_ok.2 ⟨_, ih _, rfl⟩
      · rintro tail rfl
        simp at hstar
      · rintro tail rfl
        simp at hstar
  | ofClass fresh hclass hshort h ih =>
      rw [parseFrom, hclass]
      simp only [if_pos hshort]
      exact bind_cons_eq_ok.2 ⟨_, ih _, rfl⟩
  | @char fresh c rest tokens hc h ih =>
      simp only [List.mem_cons, List.not_mem_nil, or_false, not_or] at hc
      rw [parseFrom]
      · exact bind_cons_eq_ok.2 ⟨_, ih _, rfl⟩
      · exact hc.2.1
      · exact fun _ hstar _ => hc.1 hstar
      · exact fun _ hstar _ => hc.1 hstar
      · exact hc.1
      · exact hc.2.2

lemma parse_eq_ok_iff : Glob.parse cs = .ok tokens ↔ Reads true cs tokens :=
  ⟨reads_of_parseFrom, fun h => parseFrom_of_reads h 0⟩

/-! ## Texts without marks -/

/-- A text without the marks of a pattern. -/
def Unmarked (cs : List Char) : Prop := ∀ c ∈ cs, c ∉ ['*', '?', '[']

lemma unmarked_iff {s : String} : Unmarked s.toList ↔ hasMark s = false := by
  rw [hasMark, List.any_eq_false]
  simp [Unmarked]

/-- A text without marks stands for itself. -/
lemma reads_unmarked (h : Unmarked cs) (fresh : Bool) : Reads fresh cs (cs.map .char) := by
  induction cs generalizing fresh with
  | nil => exact .nil fresh
  | cons c rest ih =>
      exact .char fresh (h c (by simp)) (ih (fun d hd => h d (List.mem_cons_of_mem _ hd)) _)

lemma reads_append (hfront : Unmarked front) (h : Reads true rest tokens) (fresh : Bool) :
    Reads fresh (front ++ '/' :: rest) (front.map .char ++ .char '/' :: tokens) := by
  induction front generalizing fresh with
  | nil => exact .char fresh (by simp) h
  | cons c front ih =>
      exact .char fresh (hfront c (by simp))
        (ih (fun d hd => hfront d (List.mem_cons_of_mem _ hd)) _)

lemma untilBracket_subset {inside behind : List Char}
    (h : untilBracket cs = some (inside, behind)) : behind ⊆ cs := by
  fun_induction untilBracket cs generalizing inside with
  | case1 => simp at h
  | case2 rest =>
      obtain ⟨-, rfl⟩ := Prod.mk.inj (Option.some.inj h)
      exact List.subset_cons_self _ _
  | case3 c rest hc ih =>
      obtain ⟨⟨inside', behind'⟩, hmore, heq⟩ := Option.map_eq_some_iff.1 h
      obtain ⟨-, rfl⟩ := Prod.mk.inj heq
      exact List.Subset.trans (ih hmore) (List.subset_cons_self _ _)

/-- What stands behind a class is part of the text, and a class is not a character. -/
lemma class?_spec {token : Token} {behind : List Char} (h : class? cs = some (token, behind)) :
    behind ⊆ cs ∧ ∀ c, token ≠ .char c := by
  rw [class?.eq_def] at h
  split at h
  · obtain ⟨⟨inside, behind'⟩, hmore, heq⟩ := Option.map_eq_some_iff.1 h
    obtain ⟨rfl, rfl⟩ := Prod.mk.inj heq
    refine ⟨List.Subset.trans (untilBracket_subset hmore) ?_, by simp⟩
    exact List.Subset.trans (List.subset_cons_self _ _) (List.subset_cons_self _ _)
  · simp at h
  · obtain ⟨⟨inside, behind'⟩, hmore, heq⟩ := Option.map_eq_some_iff.1 h
    obtain ⟨rfl, rfl⟩ := Prod.mk.inj heq
    exact ⟨List.Subset.trans (untilBracket_subset hmore) (List.subset_cons_self _ _), by simp⟩
  · simp at h

lemma Reads.mem_of_char (h : Reads fresh cs tokens) {c : Char} (hc : Token.char c ∈ tokens) :
    c ∈ cs := by
  induction h with
  | nil => simp at hc
  | anyChar fresh h ih => exact List.mem_cons_of_mem _ (ih (by simpa using hc))
  | lastDirectories => simp at hc
  | directories h ih =>
      have hmem := ih (by simpa using hc)
      simp [hmem]
  | anySequence fresh hstar h ih => exact List.mem_cons_of_mem _ (ih (by simpa using hc))
  | ofClass fresh hclass hshort h ih =>
      obtain ⟨hsub, hne⟩ := class?_spec hclass
      rcases List.mem_cons.1 hc with hc | hc
      · exact absurd hc.symm (hne c)
      · exact List.mem_cons_of_mem _ (hsub (ih hc))
  | char fresh hd h ih =>
      rcases List.mem_cons.1 hc with hc | hc
      · simp [Token.char.inj hc]
      · exact List.mem_cons_of_mem _ (ih hc)

/-! ## Parts -/

/-- The part that a piece of a pattern is read as. -/
def IsPart (piece : List Char) (part : Part) : Prop :=
  ∃ tokens, Reads true piece tokens ∧ Part.ofTokens tokens = part

lemma map_parse_eq_ok_iff {part : Part} :
    (Glob.parse piece).map Part.ofTokens = .ok part ↔ IsPart piece part := by
  unfold IsPart
  constructor
  · intro h
    cases hparse : Glob.parse piece with
    | error e => simp [hparse, Except.map] at h
    | ok tokens => exact ⟨tokens, parse_eq_ok_iff.1 hparse, by simpa [hparse, Except.map] using h⟩
  · rintro ⟨tokens, hreads, rfl⟩
    rw [parse_eq_ok_iff.2 hreads]
    rfl

lemma literal?_eq_some_iff {text : List Char} :
    literal? tokens = some text ↔ tokens = text.map .char := by
  induction tokens generalizing text with
  | nil =>
      cases text with
      | nil => simp [literal?]
      | cons c rest => simp [literal?]
  | cons token tokens ih =>
      cases token with
      | char d =>
          cases text with
          | nil => simp [literal?]
          | cons c rest => simp [literal?, ih, and_comm]
      | _ =>
          cases text with
          | nil => simp [literal?]
          | cons c rest => simp [literal?]

lemma isPart_unmarked (h : Unmarked piece) : IsPart piece (.plain piece) := by
  refine ⟨_, reads_unmarked h true, ?_⟩
  have hnot : piece.map Token.char ≠ [.anyDirectories] := by
    intro heq
    have hmem : Token.anyDirectories ∈ piece.map Token.char := by simp [heq]
    simp at hmem
  rw [Part.ofTokens, if_neg hnot, literal?_eq_some_iff.2 rfl]

lemma IsPart.subset_of_plain {text : List Char} (h : IsPart piece (.plain text)) :
    text ⊆ piece := by
  obtain ⟨tokens, hreads, hpart⟩ := h
  unfold Part.ofTokens at hpart
  split at hpart
  · simp at hpart
  · split at hpart
    · rename_i text' hliteral
      obtain rfl := Part.plain.inj hpart
      intro c hc
      refine hreads.mem_of_char ?_
      rw [literal?_eq_some_iff.1 hliteral]
      exact List.mem_map_of_mem hc
    · simp at hpart

lemma collapse_append (texts : List (List Char)) (parts : List Part) :
    collapse (texts.map .plain ++ parts) = texts.map .plain ++ collapse parts := by
  induction texts with
  | nil => rfl
  | cons text rest ih =>
      rw [List.map_cons, List.cons_append, collapse, ih]
      · rfl
      · simp

lemma mem_of_mem_collapse {parts : List Part} {part : Part} (h : part ∈ collapse parts) :
    part ∈ parts := by
  fun_induction collapse parts with
  | case1 => exact h
  | case2 rest tail hcollapse ih =>
      exact List.mem_cons_of_mem _ (ih (by rwa [hcollapse]))
  | case3 rest hother ih =>
      rcases List.mem_cons.1 h with rfl | h
      · simp
      · exact List.mem_cons_of_mem _ (ih h)
  | case4 first rest hother ih =>
      rcases List.mem_cons.1 h with rfl | h
      · simp
      · exact List.mem_cons_of_mem _ (ih h)

lemma collapse_ne_nil {parts : List Part} (h : parts ≠ []) : collapse parts ≠ [] := by
  fun_induction collapse parts with
  | case1 => exact h
  | case2 => simp
  | case3 => simp
  | case4 => simp

/-! ## Queries -/

/-- The text of a pattern behind the root. -/
def bodyOf (p : Path) : List Char := if p.isAbsolute then p.text.toList.drop 1 else p.text.toList

lemma Query.parse_eq_ok_iff {p : Path} : Query.parse p = .ok q ↔
    (∃ tokens, Reads true p.text.toList tokens) ∧
      ∃ parts, List.Forall₂ IsPart (piecesOf (bodyOf p)) parts ∧
        q = ⟨p.isAbsolute, collapse (if bodyOf p = [] then [.plain []] else parts),
          p.text.toList.getLast? = some '/'⟩ := by
  have hparts : ∀ parts, ((piecesOf (bodyOf p)).mapM fun piece =>
      (Glob.parse piece).map Part.ofTokens) = .ok parts ↔
        List.Forall₂ IsPart (piecesOf (bodyOf p)) parts := by
    intro parts
    rw [mapM_eq_ok_iff]
    exact ⟨fun h => h.imp fun _ _ => map_parse_eq_ok_iff.1,
      fun h => h.imp fun _ _ => map_parse_eq_ok_iff.2⟩
  have hparse : Query.parse p = (do
      let _ ← Glob.parse p.text.toList
      let parts ← (piecesOf (bodyOf p)).mapM fun piece => (Glob.parse piece).map Part.ofTokens
      return ⟨p.isAbsolute, collapse (if bodyOf p = [] then [.plain []] else parts),
        p.text.toList.getLast? = some '/'⟩) := rfl
  rw [hparse]
  -- The whole text is read first, and only its success is used.
  constructor
  · intro h
    cases hwhole : Glob.parse p.text.toList with
    | error e => simp [hwhole, bind, Except.bind] at h
    | ok tokens =>
        cases hmap : (piecesOf (bodyOf p)).mapM fun piece =>
            (Glob.parse piece).map Part.ofTokens with
        | error e => simp [hwhole, hmap, bind, Except.bind] at h
        | ok parts =>
            refine ⟨⟨tokens, Glob.parse_eq_ok_iff.1 hwhole⟩, parts, (hparts parts).1 hmap, ?_⟩
            rw [hwhole, hmap] at h
            exact (Except.ok.inj h).symm
  · rintro ⟨⟨tokens, htokens⟩, parts, hmap, rfl⟩
    rw [Glob.parse_eq_ok_iff.2 htokens, (hparts parts).2 hmap]
    rfl

/-- A pattern that follows the grammar, as a whole and in each of its components. -/
def WellSpelled (p : Path) : Prop :=
  (∃ tokens, Reads true p.text.toList tokens) ∧
    ∀ piece ∈ piecesOf (bodyOf p), ∃ tokens, Reads true piece tokens

/-- What follows the grammar can be read, and nothing else can. -/
lemma wellSpelled_iff {p : Path} : WellSpelled p ↔ ∃ q, Query.parse p = .ok q := by
  constructor
  · rintro ⟨hwhole, hpieces⟩
    choose! tokens htokens using hpieces
    have hparts : ∀ piece ∈ piecesOf (bodyOf p), IsPart piece (.ofTokens (tokens piece)) :=
      fun piece hpiece => ⟨tokens piece, htokens piece hpiece, rfl⟩
    exact ⟨_, Query.parse_eq_ok_iff.2
      ⟨hwhole, _, List.forall₂_map_right_iff.2 (List.forall₂_same.2 hparts), rfl⟩⟩
  · rintro ⟨q, hq⟩
    obtain ⟨hwhole, parts, hparts, -⟩ := Query.parse_eq_ok_iff.1 hq
    refine ⟨hwhole, fun piece hpiece => ?_⟩
    obtain ⟨part, -, tokens, htokens, -⟩ := exists_of_mem_forall₂ hparts.flip hpiece
    exact ⟨tokens, htokens⟩

lemma matchingOrFail_eq_ok_iff {w : Workspace} {found : List Path} :
    matchingOrFail w base pattern = .ok found ↔ ∃ q, Query.parse (base.join ⟨pattern⟩) = .ok q ∧
      Path.sort ((q.run w).filter w.isFile) = found := by
  rw [matchingOrFail, matching]
  cases Query.parse (base.join ⟨pattern⟩) with
  | error e => simp [bind, Except.bind, Except.mapError]
  | ok q => simp [bind, Except.bind, pure, Except.pure, Except.mapError]

lemma Query.noSlash_of_plain_mem {p : Path} {text : List Char} (hq : Query.parse p = .ok q)
    (htext : Part.plain text ∈ q.parts) : '/' ∉ text := by
  obtain ⟨-, parts, hparts, rfl⟩ := Query.parse_eq_ok_iff.1 hq
  have hmem := mem_of_mem_collapse htext
  split at hmem
  · rw [List.mem_singleton, Part.plain.injEq] at hmem
    simp [hmem]
  · intro hslash
    obtain ⟨piece, hpiece, hpart⟩ := exists_of_mem_forall₂ hparts hmem
    have hsplit : piece ∈ Text.splitChars '/' (bodyOf p) := by
      rw [piecesOf] at hpiece
      split at hpiece
      · exact List.dropLast_subset _ hpiece
      · exact hpiece
    exact Text.notMem_of_mem_splitChars hsplit (hpart.subset_of_plain hslash)

/-- The parts of a relative pattern: there is one at least, and none holds a slash. -/
lemma Query.parts_spec (hq : Query.parse ⟨pattern⟩ = .ok q)
    (hrel : (Path.mk pattern).isAbsolute = false) :
    q.parts ≠ [] ∧ ∀ text, Part.plain text ∈ q.parts → '/' ∉ text := by
  refine ⟨?_, fun text => Query.noSlash_of_plain_mem hq⟩
  obtain ⟨-, parts, hparts, rfl⟩ := Query.parse_eq_ok_iff.1 hq
  have hbody : bodyOf ⟨pattern⟩ = pattern.toList := by rw [bodyOf, hrel, if_neg Bool.false_ne_true]
  rw [hbody] at hparts ⊢
  dsimp only
  by_cases hempty : pattern.toList = []
  · rw [if_pos hempty]
    simp [collapse]
  · rw [if_neg hempty]
    refine collapse_ne_nil ?_
    rintro rfl
    have hnil := List.forall₂_nil_right_iff.1 hparts
    rw [piecesOf] at hnil
    split at hnil
    · rename_i hlast
      obtain ⟨front, hfront⟩ := List.getLast?_eq_some_iff.1 hlast
      rw [hfront, List.dropLast_concat] at hnil
      rw [hnil, List.nil_append] at hfront
      exact hempty (Text.eq_of_splitChars_eq_singleton hfront)
    · exact Text.splitChars_ne_nil _ _ hnil

lemma piecesOf_join (hbase : base.text ≠ "") (hrel : (Path.mk pattern).isAbsolute = false)
    (hpattern : pattern.toList ≠ []) :
    piecesOf (bodyOf (base.join ⟨pattern⟩)) = base.steps ++ piecesOf pattern.toList ∧
      bodyOf (base.join ⟨pattern⟩) ≠ [] := by
  have habs := Path.isAbsolute_join hbase hrel
  have hsplit : Text.splitChars '/' (bodyOf (base.join ⟨pattern⟩)) =
      base.steps ++ Text.splitChars '/' pattern.toList := by
    have hpieces := Path.pieces_join hbase hrel
    rw [bodyOf, Path.steps, habs]
    by_cases hroot : base.isAbsolute = true
    · rw [if_pos hroot, if_pos hroot]
      have hhead : (base.join ⟨pattern⟩).text.toList.head? = some '/' := by
        simpa [Path.isAbsolute] using habs.trans hroot
      obtain ⟨rest, hrest⟩ := List.head?_eq_some_iff.1 hhead
      rw [Path.pieces, hrest, Text.splitChars_cons_self] at hpieces
      rw [hrest, List.drop_one, List.tail_cons,
        ← List.tail_append_of_ne_nil (Path.openPieces_ne_nil base)]
      exact congrArg List.tail hpieces
    · rw [if_neg hroot, if_neg hroot]
      exact hpieces
  have hlast : (base.steps ++ Text.splitChars '/' pattern.toList).getLast? =
      (Text.splitChars '/' pattern.toList).getLast? := by
    rw [List.getLast?_append_of_ne_nil _ (Text.splitChars_ne_nil _ _)]
  constructor
  · rw [piecesOf, hsplit, hlast, piecesOf]
    split
    · rw [List.dropLast_append_of_ne_nil (Text.splitChars_ne_nil _ _)]
    · rfl
  · intro hnil
    rw [hnil] at hsplit
    have hone : Text.splitChars '/' pattern.toList = [[]] := by
      cases hpre : base.steps with
      | nil => simpa [hpre, Text.splitChars] using hsplit.symm
      | cons first rest =>
          rw [hpre] at hsplit
          have hlength := congrArg List.length hsplit
          have hpos := List.length_pos_of_ne_nil (Text.splitChars_ne_nil '/' pattern.toList)
          rw [List.length_append, List.length_cons,
            show (Text.splitChars '/' []).length = 1 from rfl] at hlength
          omega
    exact hpattern (Text.eq_of_splitChars_eq_singleton hone)

/-- Behind a path without marks a pattern keeps its parts, and the names of the path stand in front
of them. -/
lemma Query.parse_join (hbase : base.text ≠ "") (hmark : hasMark base.text = false)
    (hrel : (Path.mk pattern).isAbsolute = false) (hpattern : pattern.toList ≠ [])
    (hq : Query.parse ⟨pattern⟩ = .ok q) :
    Query.parse (base.join ⟨pattern⟩) = .ok {
      absolute := base.isAbsolute
      parts := base.steps.map .plain ++ q.parts
      directoriesOnly := q.directoriesOnly } := by
  have hunmarked := unmarked_iff.2 hmark
  obtain ⟨⟨tokens, htokens⟩, parts, hparts, rfl⟩ := Query.parse_eq_ok_iff.1 hq
  obtain ⟨front, htext, hfront, hopen⟩ := Path.toList_join hbase hrel
  obtain ⟨hpieces, hbody⟩ := piecesOf_join hbase hrel hpattern
  have hown : bodyOf ⟨pattern⟩ = pattern.toList := by rw [bodyOf, hrel, if_neg Bool.false_ne_true]
  have hpre : List.Forall₂ IsPart base.steps (base.steps.map .plain) := by
    refine List.forall₂_map_right_iff.2 (List.forall₂_same.2 fun piece hpiece => ?_)
    refine isPart_unmarked fun c hc => hunmarked c (hfront ?_)
    have hmem := Path.mem_openPieces_of_mem_steps hpiece
    rw [hopen] at hmem
    exact Text.mem_of_mem_splitChars hmem hc
  refine Query.parse_eq_ok_iff.2 ⟨⟨front.map .char ++ .char '/' :: tokens, ?_⟩,
    base.steps.map .plain ++ parts, ?_, ?_⟩
  · rw [htext]
    exact reads_append (fun c hc => hunmarked c (hfront hc)) htokens true
  · rw [hpieces]
    rw [hown] at hparts
    exact List.rel_append hpre hparts
  · rw [if_neg hbody, collapse_append, Path.isAbsolute_join hbase hrel, hown, if_neg hpattern,
      htext, List.getLast?_append_of_ne_nil _ (by simp), List.getLast?_cons]
    simp [List.getLast?_eq_some_getLast hpattern]

/-- Behind a path without marks the empty pattern stands for directories. -/
lemma Query.parse_join_empty (hbase : base.text ≠ "") (hmark : hasMark base.text = false) :
    ∃ q, Query.parse (base.join ⟨""⟩) = .ok q ∧ q.directoriesOnly = true := by
  have hunmarked := unmarked_iff.2 hmark
  have hrel : (Path.mk "").isAbsolute = false := rfl
  obtain ⟨front, htext, hfront, -⟩ := Path.toList_join hbase hrel
  have hjoin : Unmarked (base.join ⟨""⟩).text.toList := by
    intro c hc
    rw [htext] at hc
    rcases List.mem_append.1 hc with hc | hc
    · exact hunmarked c (hfront hc)
    · rw [List.mem_singleton.1 hc]
      decide
  have hpiece : ∀ piece ∈ piecesOf (bodyOf (base.join ⟨""⟩)), Unmarked piece := by
    intro piece hpiece c hc
    refine hjoin c ?_
    have hbody : c ∈ bodyOf (base.join ⟨""⟩) := by
      rw [piecesOf] at hpiece
      split at hpiece
      · exact Text.mem_of_mem_splitChars (List.dropLast_subset _ hpiece) hc
      · exact Text.mem_of_mem_splitChars hpiece hc
    unfold bodyOf at hbody
    split at hbody
    · exact List.mem_of_mem_drop hbody
    · exact hbody
  refine ⟨_, Query.parse_eq_ok_iff.2 ⟨⟨_, reads_unmarked hjoin true⟩,
    (piecesOf (bodyOf (base.join ⟨""⟩))).map .plain, ?_, rfl⟩, ?_⟩
  · exact List.forall₂_map_right_iff.2
      (List.forall₂_same.2 fun piece hmem => isPart_unmarked (hpiece piece hmem))
  · rw [htext]
    simp

end Drydock.Glob
