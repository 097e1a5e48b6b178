import Drydock.Proofs.Glob.Files

/-!
# Directories whose name holds a mark

Behind a directory whose name holds a mark, patterns do not find what they select.  The name is read
as a pattern: either it does not stand for itself, so that nothing in the directory is found, or it
stands for some other name too, and what is found is not all in the directory.

So every such name has a tree in which cleaning its directory goes wrong, and the trees have at most
two directories and one file.  There are three of them.  In the first the file is in the directory
of the name, and the name, read as a pattern, does not match itself: `[ab]` is the name of no
directory that it finds.  In the second the file is in another directory that the name matches.  The
third is for names that match `..`, by which a search goes up.

The name that a pattern matches besides its own text is found by counting.  A token that stands for
one character, or for a run of them, leaves room for another letter.  Where every token prescribes
its character, the text has as many characters as the tokens prescribe, and a text with marks has
more, since each mark takes more characters to write than it prescribes.

* `Glob.exists_other_name` — a pattern that stands for its own text stands for another name.
* `Glob.Misleads` — a tree in which a pattern behind a name does not find what it selects.
* `Glob.exists_misleads` — every name with a mark has such a tree.
-/

namespace Drydock.Glob

variable {cs front back : List Char} {d e : Char} {tokens : List Token} {fresh : Bool}
  {name other : String}

/-! ## Other names -/

lemma mem_suffixes_iff {suffix : List Char} : suffix ∈ suffixes cs ↔ suffix <:+ cs := by
  induction cs with
  | nil => simp [suffixes]
  | cons c rest ih => rw [suffixes, List.mem_cons, List.suffix_cons_iff, ih]

lemma matchesName_anySequence_iff : matchesName (.anySequence :: tokens) cs = true ↔
    ∃ free suffix, cs = free ++ suffix ∧ matchesName tokens suffix = true := by
  rw [matchesName, List.any_eq_true]
  constructor
  · rintro ⟨suffix, hmem, hmatches⟩
    obtain ⟨free, rfl⟩ := mem_suffixes_iff.1 hmem
    exact ⟨free, suffix, rfl, hmatches⟩
  · rintro ⟨free, suffix, rfl, hmatches⟩
    exact ⟨suffix, mem_suffixes_iff.2 (List.suffix_append free suffix), hmatches⟩

lemma matchesName_cons_iff {token : Token} (hstar : token ≠ .anySequence) :
    matchesName (token :: tokens) cs = true ↔
      ∃ c rest, cs = c :: rest ∧ token.accepts c = true ∧ matchesName tokens rest = true := by
  cases cs with
  | nil => simp [matchesName]
  | cons c rest => simp [matchesName]

lemma exists_letter_ne (d : Char) : ∃ e, (e = 'a' ∨ e = 'b') ∧ e ≠ d := by
  by_cases hd : d = 'a'
  · exact ⟨'b', .inr rfl, by simp [hd]⟩
  · exact ⟨'a', .inl rfl, Ne.symm hd⟩

/-- The number of characters that tokens prescribe at least. -/
def prescribed : List Token → ℕ
  | [] => 0
  | .anySequence :: tokens => prescribed tokens
  | _ :: tokens => prescribed tokens + 1

lemma prescribed_cons {token : Token} (hstar : token ≠ .anySequence) :
    prescribed (token :: tokens) = prescribed tokens + 1 := by
  cases token <;> simp_all [prescribed]

lemma prescribed_cons_le (token : Token) (tokens : List Token) :
    prescribed (token :: tokens) ≤ prescribed tokens + 1 := by
  cases token <;> simp [prescribed]

/-- Where some character of a name is free, a letter can take its place.  Otherwise every character
is one that a token prescribes. -/
lemma exists_replaced (h : matchesName tokens cs = true) :
    (∃ front d e back, cs = front ++ d :: back ∧ (e = 'a' ∨ e = 'b') ∧ e ≠ d ∧
      matchesName tokens (front ++ e :: back) = true) ∨
    (Token.anyChar ∉ tokens ∧ cs.length ≤ prescribed tokens) := by
  induction tokens generalizing cs with
  | nil =>
      obtain rfl : cs = [] := by simpa [matchesName] using h
      exact .inr ⟨by simp, by simp⟩
  | cons token tokens ih =>
      -- A run of characters is free where it is not empty, and otherwise the rest decides.
      by_cases hstar : token = .anySequence
      · subst hstar
        obtain ⟨free, suffix, rfl, hmatches⟩ := matchesName_anySequence_iff.1 h
        cases free with
        | nil =>
            rcases ih hmatches with ⟨front, d, e, back, rfl, hletter, hne, hother⟩ | ⟨hany, hlength⟩
            · exact .inl ⟨front, d, e, back, rfl, hletter, hne,
                matchesName_anySequence_iff.2 ⟨[], _, rfl, hother⟩⟩
            · exact .inr ⟨by simpa using hany, by simpa [prescribed] using hlength⟩
        | cons d free =>
            obtain ⟨e, hletter, hne⟩ := exists_letter_ne d
            exact .inl ⟨[], d, e, free ++ suffix, rfl, hletter, hne,
              matchesName_anySequence_iff.2 ⟨e :: free, suffix, rfl, hmatches⟩⟩
      · obtain ⟨c, rest, rfl, haccepts, hmatches⟩ := (matchesName_cons_iff hstar).1 h
        by_cases hany : token = .anyChar
        · subst hany
          obtain ⟨e, hletter, hne⟩ := exists_letter_ne c
          exact .inl ⟨[], c, e, rest, rfl, hletter, hne,
            (matchesName_cons_iff hstar).2 ⟨e, rest, rfl, rfl, hmatches⟩⟩
        · rcases ih hmatches with ⟨front, d, e, back, rfl, hletter, hne, hother⟩ | ⟨hmem, hlength⟩
          · exact .inl ⟨c :: front, d, e, back, rfl, hletter, hne,
              (matchesName_cons_iff hstar).2 ⟨c, _, rfl, haccepts, hother⟩⟩
          · refine .inr ⟨?_, ?_⟩
            · simp [hmem, Ne.symm hany]
            · rw [prescribed_cons hstar, List.length_cons]
              omega

lemma Reads.prescribed_le (h : Reads fresh cs tokens) : prescribed tokens ≤ cs.length := by
  induction h with
  | nil => simp [prescribed]
  | anyChar fresh h ih => simpa [prescribed] using ih
  | lastDirectories => simp [prescribed]
  | directories h ih =>
      simp only [prescribed, List.length_cons]
      omega
  | anySequence fresh hstar h ih =>
      simp only [prescribed, List.length_cons]
      omega
  | @ofClass fresh rest behind token tokens hclass hshort h ih =>
      have hcons := prescribed_cons_le token tokens
      rw [List.length_cons]
      omega
  | char fresh hc h ih => simpa [prescribed] using ih

/-- A text prescribes fewer characters than it has, unless it has no marks or some stand for one
character each. -/
lemma Reads.prescribed_lt (h : Reads fresh cs tokens) (hmark : ¬ Unmarked cs)
    (hany : Token.anyChar ∉ tokens) : prescribed tokens < cs.length := by
  induction h with
  | nil => exact absurd (by simp [Unmarked]) hmark
  | anyChar fresh h ih => simp at hany
  | lastDirectories => simp [prescribed]
  | directories h ih =>
      have hle := h.prescribed_le
      simp only [prescribed, List.length_cons]
      omega
  | anySequence fresh hstar h ih =>
      have hle := h.prescribed_le
      simp only [prescribed, List.length_cons]
      omega
  | @ofClass fresh rest behind token tokens hclass hshort h ih =>
      have hle := h.prescribed_le
      have hcons := prescribed_cons_le token tokens
      rw [List.length_cons]
      omega
  | @char fresh c rest tokens hc h ih =>
      -- The mark is not this character, so it is in the rest.
      have hrest : ¬ Unmarked rest := by
        intro hrest
        refine hmark fun d hd => ?_
        rcases List.mem_cons.1 hd with rfl | hd
        · exact hc
        · exact hrest d hd
      have hlt := ih hrest fun hmem => hany (List.mem_cons_of_mem _ hmem)
      simp only [prescribed, List.length_cons]
      omega

lemma validName_replaced (hname : ValidName name) (hsplit : name.toList = front ++ d :: back)
    (hletter : e = 'a' ∨ e = 'b') : ValidName (.ofList (front ++ e :: back)) := by
  have hkeep : ∀ c, c ≠ 'a' → c ≠ 'b' → c ∉ name.toList → c ∉ front ++ e :: back := by
    intro c ha hb hc hmem
    rw [hsplit] at hc
    simp only [List.mem_append, List.mem_cons, not_or] at hc hmem
    rcases hmem with hmem | rfl | hmem
    · exact hc.1 hmem
    · exact hletter.elim ha hb
    · exact hc.2.2 hmem
  have hdots : ∀ dots : List Char, (∀ c ∈ dots, c = '.') → front ++ e :: back ≠ dots := by
    intro dots hall heq
    have hdot := hall e (by rw [← heq]; simp)
    rcases hletter with rfl | rfl
    · simp at hdot
    · simp at hdot
  refine ⟨by simp, ?_, ?_, ?_, ?_, ?_⟩
  · rw [String.toList_ofList]
    exact hdots _ (by simp)
  · rw [String.toList_ofList]
    exact hdots _ (by simp)
  · rw [String.toList_ofList]
    exact hkeep _ (by decide) (by decide) hname.noSlash
  · rw [String.toList_ofList]
    exact hkeep _ (by decide) (by decide) hname.noNul
  · have hsize : ∀ c, (String.ofList (front ++ c :: back)).utf8ByteSize =
        (String.ofList front).utf8ByteSize + c.utf8Size + (String.ofList back).utf8ByteSize := by
      intro c
      rw [← List.singleton_append, String.ofList_append, String.ofList_append,
        ← String.singleton_eq_ofList, String.utf8ByteSize_append, String.utf8ByteSize_append,
        String.utf8ByteSize_singleton, Nat.add_assoc]
    have hshort := hname.short
    rw [← String.ofList_toList (s := name), hsplit, hsize] at hshort
    have he : e.utf8Size = 1 := by rcases hletter with rfl | rfl <;> rfl
    have hd := d.utf8Size_pos
    rw [hsize]
    omega

/-- A name with marks that stands for itself stands for another name, too. -/
lemma exists_other_name (hname : ValidName name) (hmark : hasMark name = true)
    (hreads : Reads true name.toList tokens) (hmatches : matchesName tokens name.toList = true) :
    ∃ other, ValidName other ∧ other ≠ name ∧ matchesName tokens other.toList = true := by
  rcases exists_replaced hmatches with ⟨front, d, e, back, hsplit, hletter, hne, hother⟩ |
    ⟨hany, hlength⟩
  · refine ⟨.ofList (front ++ e :: back), validName_replaced hname hsplit hletter, ?_, ?_⟩
    · intro heq
      have hlist := congrArg String.toList heq
      rw [String.toList_ofList, hsplit, List.append_cancel_left_eq] at hlist
      exact hne (List.cons.inj hlist).1
    · rwa [String.toList_ofList]
  · have hmarked : ¬ Unmarked name.toList := by
      rw [unmarked_iff, hmark]
      simp
    have hlt := hreads.prescribed_lt hmarked hany
    omega

/-! ## Patterns behind a name with marks -/

lemma IsPart.unique {piece : List Char} {part part' : Part} (h : IsPart piece part)
    (h' : IsPart piece part') : part = part' := by
  obtain ⟨tokens, hreads, rfl⟩ := h
  obtain ⟨tokens', hreads', rfl⟩ := h'
  have hsame := (parse_eq_ok_iff.2 hreads).symm.trans (parse_eq_ok_iff.2 hreads')
  rw [Except.ok.inj hsame]

lemma Reads.unmarked (h : Reads fresh cs tokens) (hall : ∀ token ∈ tokens, ∃ c, token = .char c) :
    Unmarked cs := by
  induction h with
  | nil => simp [Unmarked]
  | anyChar fresh h ih => simpa using hall .anyChar (by simp)
  | lastDirectories => simpa using hall .anyDirectories (by simp)
  | directories h ih => simpa using hall .anyDirectories (by simp)
  | anySequence fresh hstar h ih => simpa using hall .anySequence (by simp)
  | @ofClass fresh rest behind token tokens hclass hshort h ih =>
      obtain ⟨c, hc⟩ := hall token (by simp)
      exact absurd hc ((class?_spec hclass).2 c)
  | char fresh hc h ih =>
      intro d hd
      rcases List.mem_cons.1 hd with rfl | hd
      · exact hc
      · exact ih (fun token hmem => hall token (List.mem_cons_of_mem _ hmem)) d hd

lemma IsPart.reads_of_marked {piece : List Char} (h : IsPart piece (.marked tokens)) :
    Reads true piece tokens ∧ literal? tokens = none := by
  obtain ⟨tokens', hreads, hpart⟩ := h
  unfold Part.ofTokens at hpart
  split at hpart
  · simp at hpart
  · split at hpart
    · simp at hpart
    · rename_i hliteral
      obtain rfl := Part.marked.inj hpart
      exact ⟨hreads, hliteral⟩

lemma not_isPart_plain (hmark : hasMark name = true) (text : List Char) :
    ¬ IsPart name.toList (.plain text) := by
  rintro ⟨tokens, hreads, hpart⟩
  unfold Part.ofTokens at hpart
  split at hpart
  · simp at hpart
  · split at hpart
    · rename_i text' hliteral
      have hunmarked := hreads.unmarked fun token hmem => by
        rw [literal?_eq_some_iff.1 hliteral] at hmem
        obtain ⟨c, -, rfl⟩ := List.mem_map.1 hmem
        exact ⟨c, rfl⟩
      rw [unmarked_iff, hmark] at hunmarked
      simp at hunmarked
    · simp at hpart

lemma isPart_x : IsPart ['x'] (.plain ['x']) := isPart_unmarked (by simp [Unmarked])

/-- The query of a file in a directory: the part that the name of the directory is read as, and the
file. -/
lemma parse_join_x (hname : ValidName name) {q : Query}
    (hq : Query.parse ((⟨name⟩ : Path).join ⟨"x"⟩) = .ok q) :
    ∃ part, IsPart name.toList part ∧ q = ⟨false, [part, .plain ['x']], false⟩ := by
  have hne : (Path.mk name).text ≠ "" := fun h => hname.ne_empty (by simpa using h)
  have hrel : (Path.mk "x").isAbsolute = false := rfl
  obtain ⟨hpieces, hbody⟩ := piecesOf_join hne hrel (by simp)
  obtain ⟨front, htext, -, -⟩ := Path.toList_join hne hrel
  obtain ⟨-, parts, hparts, rfl⟩ := Query.parse_eq_ok_iff.1 hq
  rw [hpieces, Path.steps_name hname.noSlash, List.singleton_append,
    show piecesOf (Path.mk "x").text.toList = [['x']] from rfl] at hparts
  cases hparts with
  | cons hpart hrest =>
      cases hrest with
      | cons hfile hnil =>
          cases hnil
          rename_i part file
          obtain rfl := hfile.unique isPart_x
          refine ⟨part, hpart, ?_⟩
          rw [if_neg hbody, Path.isAbsolute_join hne hrel, Path.isAbsolute_of_noSlash hname.noSlash,
            htext]
          cases part <;> simp [collapse]

lemma confined_x (hname : ValidName name) : Confined ⟨name⟩ "x" := by
  refine ⟨rfl, ⟨false, [.plain ['x']], false⟩, by decide +kernel, by decide, .inr ?_⟩
  have hne : (Path.mk name).text ≠ "" := fun h => hname.ne_empty (by simpa using h)
  rw [leading, if_neg hne, Path.steps_name hname.noSlash]
  simp [stalls, hname.ne_empty, hname.ne_here]

/-- What is found is what the query of the pattern comes by. -/
lemma exists_query_of_files {w : Workspace} {base : Path} {pattern : String} {found : List Path}
    (h : files w base [pattern] = .ok found) :
    ∃ q, Query.parse (base.join ⟨pattern⟩) = .ok q ∧ (∀ p ∈ found, p ∈ q.run w) ∧
      ∀ p ∈ q.run w, w.isFile p = true → found ≠ [] := by
  rw [files, List.mapM_cons, List.mapM_nil, matchingOrFail, matching] at h
  cases hq : Query.parse (base.join ⟨pattern⟩) with
  | error e => simp [hq, bind, Except.bind, Except.mapError] at h
  | ok q =>
      rw [hq] at h
      obtain rfl : Path.dedupNeighbours (Path.sort
          (Path.sort ((q.run w).filter w.isFile) ++ [])) = found := by
        simpa [bind, Except.bind, pure, Except.pure, Except.mapError] using h
      refine ⟨q, rfl, fun p hp => ?_, fun p hp hfile hnil => ?_⟩
      · have hmem := Path.mem_sort.1 (Path.mem_of_mem_dedupNeighbours hp)
        rw [List.append_nil] at hmem
        exact (List.mem_filter.1 (Path.mem_sort.1 hmem)).1
      · have hmem : p ∈ Path.sort (Path.sort ((q.run w).filter w.isFile) ++ []) := by
          rw [Path.mem_sort, List.append_nil, Path.mem_sort]
          exact List.mem_filter.2 ⟨hp, hfile⟩
        obtain ⟨p', hp', -⟩ := Path.exists_same_dedupNeighbours hmem
        rw [hnil] at hp'
        simp at hp'

/-! ## Trees in which the patterns go wrong -/

section Misleads

variable {w : Workspace} {node : Node} {l stray : Location}

/-- A tree with a directory behind which the pattern `x` does not find what it selects. -/
structure Misleads (w : Workspace) (name : String) : Prop where
  wellFormed : w.WellFormed
  there : ∃ l, w.locate (directoryOf ⟨name⟩) = .ok l
  misses : ¬ ∃ found, files w ⟨name⟩ ["x"] = .ok found ∧
    LeadTo w found (Selected w ⟨name⟩ ["x"])

lemma locate_directoryOf_name (hw : w.WellFormed) (hname : ValidName name)
    (hnode : w.tree.node? (w.directory ++ [name]) = some node) :
    w.locate (directoryOf ⟨name⟩) = .ok (w.directory ++ [name]) := by
  have hsome : (w.tree.node? (w.directory ++ [name])).isSome = true := by simp [hnode]
  have hne : (Path.mk name).text ≠ "" := fun h => hname.ne_empty (by simpa using h)
  have hchild := locate_child_validName (locate_here hw) hname hw.directory hsome
  rw [child, if_pos (by decide)] at hchild
  rw [directoryOf, if_neg hne, hchild]

/-- Where the only file of a tree stands outside of the base and is found all the same, the pattern
does not find what it selects. -/
lemma misleads_of_stray (hw : w.WellFormed) (hname : ValidName name)
    (hbase : w.locate (directoryOf ⟨name⟩) = .ok l) (hout : ¬ l <+: stray)
    (honly : ∀ k contents executable, w.tree.node? k = some (.file contents executable) → k = stray)
    (hfound : ∀ part, IsPart name.toList part → ∃ p,
      p ∈ (⟨false, [part, .plain ['x']], false⟩ : Query).run w ∧ w.isFile p = true) :
    Misleads w name := by
  refine ⟨hw, ⟨l, hbase⟩, ?_⟩
  rintro ⟨found, hfiles, ks, hks, -, hselected⟩
  obtain ⟨q, hq, -, hsome⟩ := exists_query_of_files hfiles
  obtain ⟨part, hpart, rfl⟩ := parse_join_x hname hq
  obtain ⟨p, hp, hfile⟩ := hfound part hpart
  -- Something is found, and it should be below the base.
  obtain ⟨k, rest, rfl⟩ : ∃ k rest, ks = k :: rest := by
    refine List.exists_cons_of_ne_nil ?_
    rintro rfl
    exact hsome p hp hfile (by simpa using hks)
  obtain ⟨l', names, contents, executable, hl', rfl, -, hnode, -⟩ := (hselected k).1 (by simp)
  obtain rfl := Except.ok.inj (hl'.symm.trans hbase)
  refine hout ?_
  rw [← honly _ _ _ hnode]
  exact List.prefix_append _ _

/-- An empty directory beside a directory with one file. -/
def beside (empty full : String) : Workspace where
  tree := ⟨[([empty], .directory), ([full], .directory), ([full, "x"], .file [] false)]⟩

lemma validName_x : ValidName "x" := by decide

lemma node?_beside {empty full : String} (hne : empty ≠ full) :
    (beside empty full).tree.node? [empty] = some .directory ∧
      (beside empty full).tree.node? [full] = some .directory ∧
      (beside empty full).tree.node? [full, "x"] = some (.file [] false) := by
  refine ⟨?_, ?_, ?_⟩
  · simp [beside, FileTree.node?]
  · have hlist : [full] ≠ [empty] := by simpa using Ne.symm hne
    rw [FileTree.node?, if_neg (by simp), beside, FileTree.lookup_cons_of_ne hlist,
      List.lookup_cons_self]
  · simp [beside, FileTree.node?, List.lookup_cons]

lemma wellFormed_beside {empty full : String} (hempty : ValidName empty) (hfull : ValidName full)
    (hne : empty ≠ full) : (beside empty full).WellFormed := by
  obtain ⟨-, hdir, -⟩ := node?_beside hne
  refine ⟨.of_entries ?_ ?_, FileTree.isDirectoryAt_nil _⟩
  · simp [beside, hempty, hfull, validName_x]
  · simp only [beside, List.mem_cons, List.not_mem_nil, or_false]
    rintro e (rfl | rfl | rfl)
    · exact FileTree.isDirectoryAt_nil _
    · exact FileTree.isDirectoryAt_nil _
    · exact FileTree.isDirectoryAt_iff.2 hdir

lemma eq_of_file_beside {empty full : String} {k : Location} {contents : Bytes}
    {executable : Bool}
    (h : (beside empty full).tree.node? k = some (.file contents executable)) :
    k = [full, "x"] := by
  have hmem := FileTree.mem_entries_of_node? h (FileTree.ne_nil_of_file h)
  have hlast : k = [full, "x"] ∧ contents = [] ∧ executable = false := by
    simpa [beside] using hmem
  exact hlast.1

/-- A name whose part stands for another name finds a file of the other directory. -/
lemma misleads_beside (hname : ValidName name) (hother : ValidName other) (hne : name ≠ other)
    (hmatches : ∀ part, IsPart name.toList part →
      Matches [part, .plain ['x']] [other, "x"] ∧ stalls [part, .plain ['x']] = false) :
    Misleads (beside name other) name := by
  have hw := wellFormed_beside hname hother hne
  obtain ⟨hdir, -, hfile⟩ := node?_beside hne
  have hbase : (beside name other).locate (directoryOf ⟨name⟩) = .ok [name] :=
    locate_directoryOf_name hw hname hdir
  have hout : ¬ [name] <+: [other, "x"] := by simpa using hne
  refine misleads_of_stray hw hname hbase hout (fun k _ _ => eq_of_file_beside) ?_
  intro part hpart
  obtain ⟨hpartMatches, hstall⟩ := hmatches part hpart
  obtain ⟨p, hp, hlocate⟩ := @exists_mem_search (beside name other)
    (fun path => !false || (beside name other).isDirectory path) ⟨"."⟩ _ _ _ _ _ hw.tree
    (fun _ => rfl) (fun _ => hstall) (locate_here hw) hpartMatches hfile
  exact ⟨p, hp, Workspace.isFile_iff.2 ⟨_, _, _, hlocate, hfile⟩⟩

/-- Where a component with marks does not stand for `..`, it does not stand for `.` either. -/
lemma specials_eq_nil (hliteral : literal? tokens = none) (hup : ".." ∉ specials tokens) :
    specials tokens = [] := by
  rw [specials] at hup ⊢
  split
  · rename_i hhead
    rw [if_pos hhead] at hup
    obtain ⟨rest, rfl⟩ := List.head?_eq_some_iff.1 hhead
    have hnotUp : matchesName (.char '.' :: rest) ['.', '.'] ≠ true :=
      fun h => hup (by simpa using h)
    have hnotHere : matchesName (.char '.' :: rest) ['.'] ≠ true := by
      intro hhere
      obtain ⟨c, _, hlist, -, hrest⟩ := (matchesName_cons_iff (by simp)).1 hhere
      obtain ⟨-, rfl⟩ := List.cons.inj hlist
      -- What matches nothing more is a star, and a star matches one more dot.
      cases rest with
      | nil => simp [literal?] at hliteral
      | cons token rest =>
          by_cases hstar : token = .anySequence
          · subst hstar
            obtain ⟨free, suffix, hnil, hsuffix⟩ := matchesName_anySequence_iff.1 hrest
            obtain ⟨-, rfl⟩ := List.append_eq_nil_iff.1 hnil.symm
            refine hnotUp ((matchesName_cons_iff (by simp)).2 ⟨'.', ['.'], rfl, rfl, ?_⟩)
            exact matchesName_anySequence_iff.2 ⟨['.'], [], rfl, hsuffix⟩
          · obtain ⟨_, _, hnil, -⟩ := (matchesName_cons_iff hstar).1 hrest
            simp at hnil
    simp [hnotUp, hnotHere]
  · rfl

lemma misleads_of_not_self (hname : ValidName name) (hne : "a" ≠ name)
    (hpart : IsPart name.toList (.marked tokens)) (hspecials : specials tokens = [])
    (hself : matchesName tokens name.toList ≠ true) : Misleads (beside "a" name) name := by
  have hw := wellFormed_beside (by decide) hname hne
  obtain ⟨-, hdir, hfile⟩ := node?_beside hne
  have hbase : (beside "a" name).locate (directoryOf ⟨name⟩) = .ok [name] :=
    locate_directoryOf_name hw hname hdir
  refine ⟨hw, ⟨_, hbase⟩, ?_⟩
  rintro ⟨found, hfiles, ks, hks, -, hselected⟩
  obtain ⟨q, hq, hrun, -⟩ := exists_query_of_files hfiles
  obtain ⟨part', hpart', rfl⟩ := parse_join_x hname hq
  obtain rfl := hpart'.unique hpart
  have hparse : Query.parse ⟨"x"⟩ = .ok ⟨false, [.plain ['x']], false⟩ := by decide +kernel
  have hmem : [name, "x"] ∈ ks := (hselected _).2 ⟨[name], ["x"], [], false, hbase, rfl, by simp,
    hfile, "x", by simp, _, hparse, rfl, .name (by decide) .nil⟩
  have hlocated : .ok [name, "x"] ∈ found.map (beside "a" name).locate := by
    rw [hks]
    exact List.mem_map_of_mem hmem
  obtain ⟨p, hp, hlocate⟩ := List.mem_map.1 hlocated
  obtain ⟨names, hnames, -, hmatches⟩ := matches_of_mem_search hw.tree (by simp [goesUp, hspecials])
    (by simp) (locate_here hw) (hrun p hp)
    (Workspace.isFile_iff.2 ⟨_, _, _, hlocate, hfile⟩)
  obtain rfl : [name, "x"] = names := Except.ok.inj (hlocate.symm.trans hnames)
  cases hmatches with
  | name hmatch _ => exact hself (by simpa [Part.matchesName] using hmatch)

/-- A directory below the starting directory, and a file beside the latter. -/
def above (name : String) : Workspace where
  tree := ⟨[(["d"], .directory), (["d", name], .directory), (["x"], .file [] false)]⟩
  directory := ["d"]

lemma misleads_above (hname : ValidName name) (hpart : IsPart name.toList (.marked tokens))
    (hup : ".." ∈ specials tokens) : Misleads (above name) name := by
  have hdir : (above name).tree.isDirectoryAt ["d"] = true := by
    rw [FileTree.isDirectoryAt_iff]
    simp [above, FileTree.node?]
  have hname' : (above name).tree.node? ["d", name] = some .directory := by
    simp [above, FileTree.node?, List.lookup_cons]
  have hfile : (above name).tree.node? ["x"] = some (.file [] false) := by
    simp [above, FileTree.node?, List.lookup_cons]
  have hw : (above name).WellFormed := by
    refine ⟨.of_entries ?_ ?_, hdir⟩
    · have hd : ValidName "d" := by decide
      simp [above, hname, validName_x, hd]
    · simp only [above, List.mem_cons, List.not_mem_nil, or_false]
      rintro e (rfl | rfl | rfl)
      · exact FileTree.isDirectoryAt_nil _
      · exact hdir
      · exact FileTree.isDirectoryAt_nil _
  have hbase : (above name).locate (directoryOf ⟨name⟩) = .ok ["d", name] :=
    locate_directoryOf_name hw hname hname'
  have hout : ¬ ["d", name] <+: ["x"] := by simp
  refine misleads_of_stray hw hname hbase hout ?_ ?_
  · intro k contents executable hnode
    have hmem := FileTree.mem_entries_of_node? hnode (FileTree.ne_nil_of_file hnode)
    have hlast : k = ["x"] ∧ contents = [] ∧ executable = false := by
      simpa [above] using hmem
    exact hlast.1
  · intro part hpart'
    obtain rfl := hpart'.unique hpart
    -- The component stands for `..`, and by this name the search goes up to the root.
    have hupper : (above name).locate ((⟨"."⟩ : Path).join ⟨".."⟩) = .ok [] :=
      (Workspace.locate_join (locate_here hw) (by decide) (by decide)).2
        (Workspace.step_eq_ok_iff.2 ⟨hdir, .inr (.inl ⟨rfl, rfl⟩)⟩)
    have hstep : Workspace.step (above name).tree [] ['x'] = .ok ["x"] :=
      (Workspace.step_validName validName_x).2
        ⟨FileTree.isDirectoryAt_nil _, by rw [List.nil_append, hfile]; rfl, rfl⟩
    obtain ⟨hsearch, hlocate⟩ := @search_plain_of_step (above name)
      (fun path => !false || (above name).isDirectory path) _ _ _ ['x'] hw.tree hupper (by simp)
      (by simp) hstep []
    refine ⟨_, ?_, Workspace.isFile_iff.2 ⟨_, _, _, hlocate, hfile⟩⟩
    have hhere : (above name).isDirectory ⟨"."⟩ = true :=
      (Workspace.isDirectory_iff (locate_here hw)).2 hdir
    rw [Query.run, search]
    simp only [Bool.false_eq_true, if_false, hhere, if_true]
    refine List.mem_append_left _ (List.mem_flatMap.2 ⟨"..", hup, ?_⟩)
    rw [hsearch, search]
    simp

lemma exists_misleads (hname : ValidName name) (hmark : hasMark name = true) :
    ∃ w, Misleads w name := by
  have hplain : name ≠ "a" := by
    rintro rfl
    exact absurd hmark (by decide)
  have ha : ValidName "a" := by decide
  have hx : Matches [.plain ['x']] ["x"] := .name (by decide) .nil
  by_cases hpart : ∃ part, IsPart name.toList part
  · obtain ⟨part, hpart⟩ := hpart
    cases part with
    | plain text => exact absurd hpart (not_isPart_plain hmark text)
    | directories =>
        refine ⟨_, misleads_beside hname ha hplain fun part hpart' => ?_⟩
        obtain rfl := hpart'.unique hpart
        exact ⟨.directories ["a"] (by decide) .nil, rfl⟩
    | marked tokens =>
        obtain ⟨hreads, hliteral⟩ := hpart.reads_of_marked
        by_cases hup : ".." ∈ specials tokens
        · exact ⟨_, misleads_above hname hpart hup⟩
        · by_cases hself : matchesName tokens name.toList = true
          · obtain ⟨other, hother, hne, hmatches⟩ := exists_other_name hname hmark hreads hself
            refine ⟨_, misleads_beside hname hother (Ne.symm hne) fun part hpart' => ?_⟩
            obtain rfl := hpart'.unique hpart
            exact ⟨.name (by simpa [Part.matchesName] using hmatches) hx, rfl⟩
          · exact ⟨_, misleads_of_not_self hname (Ne.symm hplain) hpart
              (specials_eq_nil hliteral hup) hself⟩
  -- A name that is not read as a pattern makes the search fail.
  · exact ⟨_, misleads_beside hname ha hplain fun part hpart' => absurd ⟨part, hpart'⟩ hpart⟩

/-- Behind a directory whose name holds a mark there is a pattern that does not find what it
selects, in some tree. -/
lemma exists_not_leadTo (hname : ValidName name) (hmark : hasMark name = true) :
    ∃ (w : Workspace) (pattern : String) (l : Location), w.WellFormed ∧
      w.locate (directoryOf ⟨name⟩) = .ok l ∧ Confined ⟨name⟩ pattern ∧
      ¬ ∃ found, files w ⟨name⟩ [pattern] = .ok found ∧
        LeadTo w found (Selected w ⟨name⟩ [pattern]) := by
  obtain ⟨w, hw, ⟨l, hbase⟩, hmisses⟩ := exists_misleads hname hmark
  exact ⟨w, "x", l, hw, hbase, confined_x hname, hmisses⟩

end Misleads

end Drydock.Glob
