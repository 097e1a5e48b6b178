import Drydock.Proofs.FileTree.Remove
import Drydock.Proofs.Glob.Base
import Drydock.Proofs.Path.Order

/-!
# What patterns find when files are gone

A search passes through directories, and directories stay when files are taken away.  So what is
found afterwards is what was found before, less the files that are gone.

A search cannot go on behind a file, so every place on the way to a file that is left is a
directory, or the file itself, and none of them is gone (`Glob.not_gone_of_mem_search`).  With that,
the search in the smaller tree can follow the search in the larger one, in every case of its
definition.

The depth of a tree shrinks with it, and a search for `**` goes no further down than that.  It comes
to everything that is left all the same.

* `Glob.Hits`, `Glob.Found` — the paths that some pattern finds, and the files they lead to.
* `Glob.mem_search_iff_of_loses` — a search in a tree that has lost files.
* `Glob.hits_of_loses`, `Glob.found_of_loses` — what patterns find in it.
-/

namespace Drydock.Glob

variable {w w' : Workspace} {gone : Location → Prop} {accept : Path → Bool} {base p q : Path}
  {l k : Location} {name : String} {text : List Char} {tokens : List Token} {part : Part}
  {parts : List Part} {pattern : String} {patterns more : List String} {query : Query}

/-! ## One part of a pattern -/

lemma mem_search_plain_iff (hw : w.tree.WellFormed) (h : w.locate p = .ok l) (hslash : '/' ∉ text) :
    q ∈ search w accept (.plain text :: parts) p ↔ ¬ (isStart p = true ∧ text = []) ∧
      ∃ k, Workspace.step w.tree l text = .ok k ∧
        w.locate (child p (.ofList text)) = .ok k ∧
        q ∈ search w accept parts (child p (.ofList text)) := by
  constructor
  · intro hq
    refine ⟨?_, step_of_mem_search_plain hw h hslash hq⟩
    rintro ⟨hstart, rfl⟩
    rw [search_plain_of_stall hstart] at hq
    simp at hq
  · rintro ⟨hstall, k, hstep, -, hq⟩
    rwa [(search_plain_of_step hw h hslash (fun hstart htext => hstall ⟨hstart, htext⟩) hstep
      parts).1]

lemma mem_search_marked_iff (h : w.locate p = .ok l) :
    q ∈ search w accept (.marked tokens :: parts) p ↔ w.tree.isDirectoryAt l = true ∧
      ((∃ name ∈ specials tokens, q ∈ search w accept parts (p.join ⟨name⟩)) ∨
        ∃ name, (w.tree.node? (l ++ [name])).isSome = true ∧
          matchesName tokens name.toList = true ∧ q ∈ search w accept parts (child p name)) := by
  rw [search, ← Workspace.isDirectory_iff h]
  by_cases hdir : w.isDirectory p = true
  · rw [if_pos hdir]
    simp only [hdir, true_and, List.mem_append, List.mem_flatMap, List.mem_filter,
      mem_namesIn_iff h, and_assoc]
  · simp [hdir]

lemma mem_search_directories_iff (hw : w.tree.WellFormed) (h : w.locate p = .ok l) :
    q ∈ search w accept (.directories :: part :: parts) p ↔
      ∃ dirs name, part.matchesName name = true ∧
        (w.tree.node? (l ++ (dirs ++ [name]))).isSome = true ∧
        q ∈ search w accept parts (descend p (dirs ++ [name])) := by
  refine ⟨descend_of_mem_search_directories hw h, ?_⟩
  rintro ⟨dirs, name, hname, hsome, hq⟩
  exact mem_search_of_descendant hw h hsome hname hq

/-- Where parts are left to be looked for, something is found from a directory alone. -/
lemma isDirectoryAt_of_mem_search (hw : w.tree.WellFormed) (h : w.locate p = .ok l)
    (hslash : ∀ text, Part.plain text ∈ parts → '/' ∉ text) (hparts : parts ≠ [])
    (hq : q ∈ search w accept parts p) : w.tree.isDirectoryAt l = true := by
  cases parts with
  | nil => exact absurd rfl hparts
  | cons part parts =>
      cases part with
      | plain text =>
          obtain ⟨-, k, hstep, -⟩ := (mem_search_plain_iff hw h (hslash text (by simp))).1 hq
          exact (Workspace.step_eq_ok_iff.1 hstep).1
      | marked tokens => exact ((mem_search_marked_iff h).1 hq).1
      | directories =>
          rw [← Workspace.isDirectory_iff h]
          cases parts with
          | nil =>
              rw [search] at hq
              by_contra hdir
              simp [hdir] at hq
          | cons part parts =>
              rw [search] at hq
              by_contra hdir
              simp [hdir] at hq

/-! ## Searches -/

/-- A file that is left is found by way of places that are left. -/
lemma not_gone_of_mem_search (h : w.Loses w' gone) (hw : w.WellFormed)
    (hslash : ∀ text, Part.plain text ∈ parts → '/' ∉ text) (hfile : w'.isFile q = true)
    (hl : w.locate p = .ok l) (hq : q ∈ search w accept parts p) : ¬ gone l := by
  by_cases hparts : parts = []
  · rw [hparts, search] at hq
    split at hq
    · obtain rfl := List.mem_singleton.1 hq
      exact ((h.isFile_iff hw).1 hfile).2 l hl
    · simp at hq
  · exact h.not_gone_of_isDirectoryAt (isDirectoryAt_of_mem_search hw.tree hl hslash hparts hq)

lemma mem_search_iff_of_loses (h : w.Loses w' gone) (hw : w.WellFormed)
    (hslash : ∀ text, Part.plain text ∈ parts → '/' ∉ text) (hfile : w'.isFile q = true)
    (hl : w.locate p = .ok l) (hgone : ¬ gone l) :
    q ∈ search w' accept parts p ↔ q ∈ search w accept parts p := by
  have hw' := h.wellFormed hw
  have hl' := (h.locate_iff hw).2 ⟨hl, hgone⟩
  -- The search goes on from a place as long as the place is left.
  have hnext : ∀ {parts next k}, (∀ text, Part.plain text ∈ parts → '/' ∉ text) →
      w.locate next = .ok k → (¬ gone k → w'.locate next = .ok k →
        (q ∈ search w' accept parts next ↔ q ∈ search w accept parts next)) →
      (q ∈ search w accept parts next ↔ ¬ gone k ∧ q ∈ search w' accept parts next) := by
    intro parts next k hslash hk hrest
    have hsame : ¬ gone k →
        (q ∈ search w' accept parts next ↔ q ∈ search w accept parts next) :=
      fun hgone => hrest hgone ((h.locate_iff hw).2 ⟨hk, hgone⟩)
    refine ⟨fun hq => ?_, fun ⟨hgone, hq⟩ => (hsame hgone).1 hq⟩
    have hgone := not_gone_of_mem_search h hw hslash hfile hk hq
    exact ⟨hgone, (hsame hgone).2 hq⟩
  induction parts using goesUp.induct generalizing p l with
  | case1 => rw [search, search]
  | case2 text parts ih =>
      have htext : '/' ∉ text := hslash text (by simp)
      have hrest : ∀ text, Part.plain text ∈ parts → '/' ∉ text :=
        fun text htext => hslash text (List.mem_cons_of_mem _ htext)
      rw [mem_search_plain_iff hw'.tree hl' htext, mem_search_plain_iff hw.tree hl htext]
      refine and_congr_right fun _ => exists_congr fun k => ?_
      rw [h.step_iff hw.tree, h.locate_iff hw]
      constructor
      · rintro ⟨⟨hstep, hgone⟩, ⟨hk, -⟩, hq⟩
        exact ⟨hstep, hk, (hnext hrest hk (ih hrest hk)).2 ⟨hgone, hq⟩⟩
      · rintro ⟨hstep, hk, hq⟩
        obtain ⟨hgone, hq⟩ := (hnext hrest hk (ih hrest hk)).1 hq
        exact ⟨⟨hstep, hgone⟩, ⟨hk, hgone⟩, hq⟩
  | case3 tokens parts ih =>
      have hrest : ∀ text, Part.plain text ∈ parts → '/' ∉ text :=
        fun text htext => hslash text (List.mem_cons_of_mem _ htext)
      rw [mem_search_marked_iff hl', mem_search_marked_iff hl, h.isDirectoryAt_eq]
      refine and_congr_right fun hdir => or_congr ?_ (exists_congr fun name => ?_)
      · refine exists_congr fun name => and_congr_right fun hname => ?_
        obtain ⟨k, hk, hdir'⟩ := exists_locate_special hw.tree hl hdir hname
        rw [hnext hrest hk (ih hrest hk), and_iff_right (h.not_gone_of_isDirectoryAt hdir')]
      · rw [h.isSome_iff, and_assoc]
        refine and_congr_right fun hsome => ?_
        have hvalid : ValidName name := hw.tree.validName hsome (by simp)
        have hk := locate_child_validName hl hvalid hdir hsome
        rw [hnext hrest hk (ih hrest hk), and_left_comm]
  | case4 =>
      -- A last `**` finds directories alone.
      have hnone : ∀ v : Workspace, v.isDirectory q = false →
          q ∉ search v accept [.directories] p := by
        intro v hdir hq
        rw [search] at hq
        split at hq
        · rw [(List.mem_filter.1 hq).2] at hdir
          simp at hdir
        · simp at hq
      have hdir := not_isDirectory_of_isFile hfile
      exact iff_of_false (hnone w' hdir) (hnone w (by rwa [← h.isDirectory_eq hw]))
  | case5 part parts ih =>
      have hrest : ∀ text, Part.plain text ∈ parts → '/' ∉ text :=
        fun text htext => hslash text (List.mem_cons_of_mem _ (List.mem_cons_of_mem _ htext))
      rw [mem_search_directories_iff hw'.tree hl', mem_search_directories_iff hw.tree hl]
      refine exists_congr fun dirs => exists_congr fun name => and_congr_right fun _ => ?_
      rw [h.isSome_iff, and_assoc]
      refine and_congr_right fun hsome => ?_
      have hk := (locate_descend hw.tree hl hsome).1
      rw [hnext hrest hk (ih hrest hk)]

lemma mem_run_iff_of_loses (h : w.Loses w' gone) (hw : w.WellFormed)
    (hquery : Query.parse p = .ok query) (hfile : w'.isFile q = true) :
    q ∈ query.run w' ↔ q ∈ query.run w := by
  have haccept : (fun path => !query.directoriesOnly || w'.isDirectory path) =
      fun path => !query.directoriesOnly || w.isDirectory path := by
    funext path
    rw [h.isDirectory_eq hw]
  have hslash : ∀ text, Part.plain text ∈ query.parts → '/' ∉ text :=
    fun text => Query.noSlash_of_plain_mem hquery
  rw [Query.run, Query.run, haccept]
  split
  · exact mem_search_iff_of_loses h hw hslash hfile (locate_root w)
      (h.not_gone_of_isDirectoryAt (FileTree.isDirectoryAt_nil _))
  · exact mem_search_iff_of_loses h hw hslash hfile (locate_here hw)
      (h.not_gone_of_isDirectoryAt hw.directory)

/-! ## Patterns -/

/-- A path of a file that some of the patterns find. -/
def Hits (w : Workspace) (base : Path) (patterns : List String) (p : Path) : Prop :=
  w.isFile p = true ∧ ∃ pattern ∈ patterns, ∃ query,
    Query.parse (base.join ⟨pattern⟩) = .ok query ∧ p ∈ query.run w

/-- A file that some of the patterns find. -/
def Found (w : Workspace) (base : Path) (patterns : List String) (k : Location) : Prop :=
  ∃ p, Hits w base patterns p ∧ w.locate p = .ok k

lemma Hits.exists_file (h : Hits w base patterns p) : ∃ k contents executable,
    w.locate p = .ok k ∧ w.tree.node? k = some (.file contents executable) :=
  Workspace.isFile_iff.1 h.1

lemma Found.exists_file (h : Found w base patterns k) : ∃ contents executable,
    w.tree.node? k = some (.file contents executable) := by
  obtain ⟨p, hp, hk⟩ := h
  obtain ⟨j, contents, executable, hj, hnode⟩ := hp.exists_file
  obtain rfl := Except.ok.inj (hj.symm.trans hk)
  exact ⟨contents, executable, hnode⟩

lemma hits_of_loses (h : w.Loses w' gone) (hw : w.WellFormed) : Hits w' base patterns p ↔
    Hits w base patterns p ∧ ∀ k, w.locate p = .ok k → ¬ gone k := by
  constructor
  · rintro ⟨hfile, pattern, hpattern, query, hquery, hp⟩
    obtain ⟨hfile', hgone⟩ := (h.isFile_iff hw).1 hfile
    exact ⟨⟨hfile', pattern, hpattern, query, hquery,
      (mem_run_iff_of_loses h hw hquery hfile).1 hp⟩, hgone⟩
  · rintro ⟨⟨hfile, pattern, hpattern, query, hquery, hp⟩, hgone⟩
    have hfile' := (h.isFile_iff hw).2 ⟨hfile, hgone⟩
    exact ⟨hfile', pattern, hpattern, query, hquery,
      (mem_run_iff_of_loses h hw hquery hfile').2 hp⟩

lemma found_of_loses (h : w.Loses w' gone) (hw : w.WellFormed) : Found w' base patterns k ↔
    Found w base patterns k ∧ ¬ gone k := by
  constructor
  · rintro ⟨p, hp, hk⟩
    obtain ⟨hk, hgone⟩ := (h.locate_iff hw).1 hk
    exact ⟨⟨p, ((hits_of_loses h hw).1 hp).1, hk⟩, hgone⟩
  · rintro ⟨⟨p, hp, hk⟩, hgone⟩
    refine ⟨p, (hits_of_loses h hw).2 ⟨hp, fun j hj => ?_⟩, (h.locate_iff hw).2 ⟨hk, hgone⟩⟩
    rwa [Except.ok.inj (hj.symm.trans hk)]

lemma hits_append : Hits w base (patterns ++ more) p ↔
    Hits w base patterns p ∨ Hits w base more p := by
  simp only [Hits, List.mem_append, or_and_right, exists_or, and_or_left]

lemma found_append : Found w base (patterns ++ more) k ↔
    Found w base patterns k ∨ Found w base more k := by
  simp only [Found, hits_append, or_and_right, exists_or]

lemma Found.mono (h : Found w base patterns k) (hsub : patterns ⊆ more) : Found w base more k := by
  obtain ⟨p, ⟨hfile, pattern, hpattern, hp⟩, hk⟩ := h
  exact ⟨p, ⟨hfile, pattern, hsub hpattern, hp⟩, hk⟩

/-- One pattern finds nothing when it finds no file. -/
lemma matching_eq_nil (hspelled : WellSpelled (base.join ⟨pattern⟩))
    (hnone : ∀ k, ¬ Found w base [pattern] k) : matching w base pattern = .ok [] := by
  obtain ⟨query, hquery⟩ := wellSpelled_iff.1 hspelled
  have hnil : Path.sort ((query.run w).filter w.isFile) = [] := by
    refine List.eq_nil_iff_forall_not_mem.2 fun p hp => ?_
    obtain ⟨hp, hfile⟩ := List.mem_filter.1 (Path.mem_sort.1 hp)
    obtain ⟨k, contents, executable, hk, -⟩ := Workspace.isFile_iff.1 hfile
    exact hnone k ⟨p, ⟨hfile, pattern, by simp, query, hquery, hp⟩, hk⟩
  rw [matching, hquery, ← hnil]
  rfl

end Drydock.Glob
