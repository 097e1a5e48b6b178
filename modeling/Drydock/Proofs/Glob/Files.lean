import Drydock.Glob
import Drydock.Proofs.Glob.Base
import Drydock.Proofs.Path.Order
import Mathlib.Data.List.Nodup

/-!
# The files that patterns select

A pattern selects files by the names that lead to them from the directory of its base.  The files
that are found are the files that some pattern selects, each one once, as long as the base holds no
marks and the patterns lead down.

Selection is a specification: it reads the pattern alone, compares names with its parts, and knows
nothing of the order in which a search goes or of the paths that it spells.  What is found is
compared with it as a list of paths that lead to the selected files one by one (`Glob.LeadTo`), so
that neither a file nor a path is left over.

A file that two patterns select is found twice, under paths of the same components, and the second
one is dropped behind the sort.  That paths of different components lead to different files needs
the hypothesis once more, since `..` could bring two paths together.

* `Glob.Selected` — the files below a base that some pattern selects.
* `Glob.Confined` — the patterns for which this is what is found.
* `Glob.exists_files` — what is found.
-/

namespace Drydock.Glob

variable {w : Workspace} {base : Path} {l k : Location} {names : List String}
  {pattern : String} {patterns : List String} {q : Query} {found : List Path}
  {S : List String → Prop}

/-! ## What a pattern selects -/

/-- A pattern selects the names that lead to a file when they match its parts. -/
def Selects (pattern : String) (names : List String) : Prop :=
  ∃ q, Query.parse ⟨pattern⟩ = .ok q ∧ q.directoriesOnly = false ∧ Matches q.parts names

/-- A file below the directory of a base that some pattern selects. -/
def Selected (w : Workspace) (base : Path) (patterns : List String) (k : Location) : Prop :=
  ∃ l names contents executable, w.locate (directoryOf base) = .ok l ∧ k = l ++ names ∧
    names ≠ [] ∧ w.tree.node? k = some (.file contents executable) ∧
    ∃ pattern ∈ patterns, Selects pattern names

/-- A pattern that leads down from a base: a relative one without a fault and without a way up,
which does not stall behind the base. -/
structure Confined (base : Path) (pattern : String) : Prop where
  relative : (Path.mk pattern).isAbsolute = false
  leadsDown : ∃ q, Query.parse ⟨pattern⟩ = .ok q ∧ goesUp q.parts = false ∧
    (base.isAbsolute = true ∨ stalls ((leading base).map .plain ++ q.parts) = false)

lemma not_selects_empty (hw : w.tree.WellFormed)
    (hsome : (w.tree.node? (l ++ names)).isSome = true) : ¬ Selects "" names := by
  rintro ⟨q, hq, -, hmatches⟩
  have hparse : Query.parse ⟨""⟩ = .ok ⟨false, [.plain []], false⟩ := by
    rw [Query.parse_eq_ok_iff]
    refine ⟨⟨[], .nil true⟩, [], ?_, rfl⟩
    exact List.forall₂_nil_right_iff.2 rfl
  rw [hparse] at hq
  obtain rfl := Except.ok.inj hq
  cases hmatches with
  | idle htext hnames hmatches =>
      cases hmatches
      exact hnames rfl
  | @name _ _ name names hname hmatches =>
      have hvalid : ValidName name := hw.validName hsome (by simp)
      exact hvalid.ne_empty (by simpa [Part.matchesName] using Eq.symm (of_decide_eq_true hname))

/-! ## Behind a base -/

/-- Behind a base without marks a pattern keeps its parts, unless both are empty. -/
lemma parse_join (hmark : hasMark base.text = false)
    (hrel : (Path.mk pattern).isAbsolute = false) (hq : Query.parse ⟨pattern⟩ = .ok q) :
    Query.parse (base.join ⟨pattern⟩) =
        .ok ⟨base.isAbsolute, (leading base).map .plain ++ q.parts, q.directoriesOnly⟩ ∨
      pattern = "" ∧
        ∃ q', Query.parse (base.join ⟨pattern⟩) = .ok q' ∧ q'.directoriesOnly = true := by
  by_cases hbase : base.text = ""
  · left
    have hjoin : base.join ⟨pattern⟩ = ⟨pattern⟩ := by rw [Path.join, if_pos (.inr hbase)]
    have habs : q.absolute = false := by
      obtain ⟨-, parts, -, rfl⟩ := Query.parse_eq_ok_iff.1 hq
      exact hrel
    have hbaseAbs : base.isAbsolute = false := by simp [Path.isAbsolute, hbase]
    rw [hjoin, hq, leading, if_pos hbase, hbaseAbs, ← habs]
    rfl
  · by_cases hpattern : pattern = ""
    · right
      rw [hpattern]
      exact ⟨rfl, Query.parse_join_empty hbase hmark⟩
    · left
      have hne : pattern.toList ≠ [] := by simpa using hpattern
      rw [Query.parse_join hbase hmark hrel hne hq, leading, if_neg hbase]

/-- Paths that lead to the files below the directory of a base whose names have a property. -/
structure Finds (w : Workspace) (base : Path) (S : List String → Prop) (found : List Path) :
    Prop where
  sound : ∀ p ∈ found, ∃ l names contents executable, w.locate (directoryOf base) = .ok l ∧
    w.locate p = .ok (l ++ names) ∧ stem p = stem (footOf base) ++ names.map .name ∧
    names ≠ [] ∧ w.tree.node? (l ++ names) = some (.file contents executable) ∧ S names
  complete : ∀ l names contents executable, w.locate (directoryOf base) = .ok l → names ≠ [] →
    w.tree.node? (l ++ names) = some (.file contents executable) → S names →
    ∃ p ∈ found, w.locate p = .ok (l ++ names)

lemma finds_nil (hnone : ∀ l names contents executable,
    w.tree.node? (l ++ names) = some (.file contents executable) → ¬ S names) :
    Finds w base S [] where
  sound := by simp
  complete l names contents executable _ _ hfile hnames :=
    absurd hnames (hnone l names contents executable hfile)

lemma sort_run_of_directoriesOnly (honly : q.directoriesOnly = true) :
    Path.sort ((q.run w).filter w.isFile) = [] := by
  refine List.eq_nil_iff_forall_not_mem.2 fun p hmem => ?_
  obtain ⟨hp, hfile⟩ := List.mem_filter.1 (Path.mem_sort.1 hmem)
  have hdir := isDirectory_of_mem_search (fun path haccept => by simpa [honly] using haccept) hp
  rw [not_isDirectory_of_isFile hfile] at hdir
  exact Bool.false_ne_true hdir

/-- A query that does not go up finds files below the directory of its base whose names match. -/
lemma sound_run (hw : w.WellFormed) {parts : List Part} {only : Bool} {p : Path}
    (hparts : parts ≠ []) (hslash : ∀ text, Part.plain text ∈ parts → '/' ∉ text)
    (hup : goesUp parts = false) (hfile : w.isFile p = true)
    (hp : p ∈ (⟨base.isAbsolute, (leading base).map .plain ++ parts, only⟩ : Query).run w) :
    ∃ l names contents executable, w.locate (directoryOf base) = .ok l ∧
      w.locate p = .ok (l ++ names) ∧ stem p = stem (footOf base) ++ names.map .name ∧
      names ≠ [] ∧ w.tree.node? (l ++ names) = some (.file contents executable) ∧
      Matches parts names := by
  obtain ⟨l, hwalk, hfoot, hsearch⟩ :=
    mem_search_pieces hw.tree (fun _ => noSlash_of_mem_leading) (locate_originOf hw base) hp
  obtain ⟨names, hlocate, hstem, hmatches⟩ :=
    matches_of_mem_search hw.tree hup hslash hfoot hsearch hfile
  obtain ⟨k, contents, executable, hk, hnode⟩ := Workspace.isFile_iff.1 hfile
  obtain rfl := Except.ok.inj (hk.symm.trans hlocate)
  have hnames := hmatches.ne_nil hparts
  have hdir := hw.tree.isDirectoryAt_of_append (by rw [hnode]; rfl) hnames
  exact ⟨l, names, contents, executable, (locate_directoryOf_iff hw hdir).2 hwalk, hlocate, hstem,
    hnames, hnode, hmatches⟩

lemma finds_run (hw : w.WellFormed) {parts : List Part} (hparts : parts ≠ [])
    (hslash : ∀ text, Part.plain text ∈ parts → '/' ∉ text) (hup : goesUp parts = false)
    (hstall : base.isAbsolute = true ∨ stalls ((leading base).map .plain ++ parts) = false) :
    Finds w base (Matches parts) (Path.sort (((⟨base.isAbsolute, (leading base).map .plain ++ parts,
      false⟩ : Query).run w).filter w.isFile)) := by
  constructor
  · intro p hp
    obtain ⟨hsearch, hfile⟩ := List.mem_filter.1 (Path.mem_sort.1 hp)
    exact sound_run hw hparts hslash hup hfile hsearch
  · intro l names contents executable hl hnames hnode hmatches
    have hdir := hw.tree.isDirectoryAt_of_append (by rw [hnode]; rfl) hnames
    have hwalk := (locate_directoryOf_iff hw hdir).1 hl
    have hstall' : isStart (originOf base) = true →
        stalls ((leading base).map .plain ++ parts) = false := by
      intro hstart
      rcases hstall with habs | hstall
      · rw [originOf, if_pos habs] at hstart
        exact absurd hstart (by decide)
      · exact hstall
    obtain ⟨hsearch, hfoot, hstallFoot, -⟩ :=
      @search_pieces w (fun _ => true) (originOf base) _ l _ parts hw.tree
        (fun _ => noSlash_of_mem_leading) hparts hstall' (locate_originOf hw base) hwalk
    obtain ⟨p, hp, hlocate⟩ :=
      exists_mem_search hw.tree (fun _ => rfl) hstallFoot hfoot hmatches hnode
    refine ⟨p, Path.mem_sort.2 (List.mem_filter.2 ⟨?_, ?_⟩), hlocate⟩
    · rwa [← hsearch] at hp
    · exact Workspace.isFile_iff.2 ⟨_, _, _, hlocate, hnode⟩

lemma exists_matching (hw : w.WellFormed) (hmark : hasMark base.text = false)
    (hconfined : Confined base pattern) :
    ∃ found, matching w base pattern = .ok found ∧ Finds w base (Selects pattern) found := by
  obtain ⟨hrel, q, hq, hup, hstall⟩ := hconfined
  obtain ⟨hparts, hslash⟩ := Query.parts_spec hq hrel
  have hselects : ∀ names, Selects pattern names ↔
      q.directoriesOnly = false ∧ Matches q.parts names := by
    intro names
    rw [Selects, hq]
    constructor
    · rintro ⟨q', hq', hmatches⟩
      rwa [Except.ok.inj hq']
    · exact fun hmatches => ⟨q, rfl, hmatches⟩
  -- The empty pattern behind a base is read as the base with a slash, which no file is.
  rcases parse_join hmark hrel hq with hjoin | ⟨rfl, q', hjoin, honly⟩
  · refine ⟨_, by rw [matching, hjoin]; rfl, ?_⟩
    cases honly : q.directoriesOnly with
    | true =>
        rw [sort_run_of_directoriesOnly rfl]
        refine finds_nil fun l names _ _ _ hnames => ?_
        rw [hselects, honly] at hnames
        simp at hnames
    | false =>
        have hsame : Selects pattern = Matches q.parts := by
          funext names
          rw [hselects, honly]
          simp
        rw [hsame]
        exact finds_run hw hparts hslash hup hstall
  · refine ⟨_, by rw [matching, hjoin]; rfl, ?_⟩
    rw [sort_run_of_directoriesOnly honly]
    exact finds_nil fun l names _ _ hnode => not_selects_empty hw.tree (by rw [hnode]; rfl)

/-! ## Several patterns -/

namespace Finds

variable {lists : List (List Path)} {Ss : List (List String → Prop)}

lemma flatten (h : List.Forall₂ (Finds w base) Ss lists) :
    Finds w base (fun names => ∃ S ∈ Ss, S names) lists.flatten := by
  induction h with
  | nil => exact finds_nil (by simp)
  | @cons S found Ss lists hfirst hrest ih =>
      rw [List.flatten_cons]
      constructor
      · intro p hp
        rcases List.mem_append.1 hp with hp | hp
        · obtain ⟨l, names, contents, executable, hl, hlocate, hstem, hnames, hnode, hS⟩ :=
            hfirst.sound p hp
          exact ⟨l, names, contents, executable, hl, hlocate, hstem, hnames, hnode, S, by simp, hS⟩
        · obtain ⟨l, names, contents, executable, hl, hlocate, hstem, hnames, hnode, T, hT, hS⟩ :=
            ih.sound p hp
          exact ⟨l, names, contents, executable, hl, hlocate, hstem, hnames, hnode, T,
            List.mem_cons_of_mem _ hT, hS⟩
      · rintro l names contents executable hl hnames hnode ⟨T, hT, hS⟩
        rcases List.mem_cons.1 hT with rfl | hT
        · obtain ⟨p, hp, hlocate⟩ := hfirst.complete l names contents executable hl hnames hnode hS
          exact ⟨p, List.mem_append_left _ hp, hlocate⟩
        · obtain ⟨p, hp, hlocate⟩ :=
            ih.complete l names contents executable hl hnames hnode ⟨T, hT, hS⟩
          exact ⟨p, List.mem_append_right _ hp, hlocate⟩

lemma components_of_mem (h : Finds w base S found) {p : Path} (hp : p ∈ found) : ∃ l names,
    w.locate (directoryOf base) = .ok l ∧ w.locate p = .ok (l ++ names) ∧
      p.components = stem (footOf base) ++ names.map .name := by
  obtain ⟨l, names, contents, executable, hl, hlocate, hstem, hnames, -⟩ := h.sound p hp
  exact ⟨l, names, hl, hlocate, components_of_stem hstem hnames⟩

/-- Two paths that are found lead to one file when they have the same components. -/
lemma same_iff (h : Finds w base S found) {p q : Path} (hp : p ∈ found) (hq : q ∈ found) :
    p.Same q ↔ w.locate p = w.locate q := by
  obtain ⟨l, names, hl, hlocate, hcomponents⟩ := h.components_of_mem hp
  obtain ⟨l', names', hl', hlocate', hcomponents'⟩ := h.components_of_mem hq
  obtain rfl := Except.ok.inj (hl.symm.trans hl')
  rw [Path.Same, hcomponents, hcomponents', hlocate, hlocate', List.append_cancel_left_eq,
    Except.ok.injEq, List.append_cancel_left_eq]
  exact (List.map_injective_iff.2 fun _ _ => Component.name.inj).eq_iff

lemma dedup (h : Finds w base S found) :
    Finds w base S (Path.dedupNeighbours (Path.sort found)) ∧
      ((Path.dedupNeighbours (Path.sort found)).map w.locate).Nodup := by
  have hmem : ∀ p ∈ Path.dedupNeighbours (Path.sort found), p ∈ found := fun p hp =>
    Path.mem_sort.1 (Path.mem_of_mem_dedupNeighbours hp)
  refine ⟨⟨fun p hp => h.sound p (hmem p hp), ?_⟩, ?_⟩
  · intro l names contents executable hl hnames hnode hS
    obtain ⟨p, hp, hlocate⟩ := h.complete l names contents executable hl hnames hnode hS
    obtain ⟨q, hq, hsame⟩ := Path.exists_same_dedupNeighbours (Path.mem_sort.2 hp)
    exact ⟨q, hq, ((h.same_iff (hmem q hq) hp).1 hsame).trans hlocate⟩
  · have hpairwise := Path.pairwise_dedupNeighbours (Path.pairwise_sort found)
    rw [List.Nodup, List.pairwise_map]
    refine List.Pairwise.imp_of_mem ?_ hpairwise
    intro p q hp hq hother hlocate
    exact hother ((h.same_iff (hmem p hp) (hmem q hq)).2 hlocate)

end Finds

lemma exists_mapM_matching (hw : w.WellFormed) (hmark : hasMark base.text = false)
    (hconfined : ∀ pattern ∈ patterns, Confined base pattern) :
    ∃ lists, patterns.mapM (matchingOrFail w base) = .ok lists ∧
      List.Forall₂ (Finds w base) (patterns.map Selects) lists := by
  induction patterns with
  | nil => exact ⟨[], rfl, .nil⟩
  | cons pattern patterns ih =>
      obtain ⟨found, hfound, hfinds⟩ := exists_matching hw hmark (hconfined pattern (by simp))
      obtain ⟨lists, hlists, hall⟩ :=
        ih fun pattern hpattern => hconfined pattern (List.mem_cons_of_mem _ hpattern)
      refine ⟨found :: lists, ?_, .cons hfinds hall⟩
      rw [List.mapM_cons, matchingOrFail, hfound, hlists]
      rfl

/-- Paths lead to the locations with a property, one to each of them. -/
def LeadTo (w : Workspace) (found : List Path) (S : Location → Prop) : Prop :=
  ∃ ks : List Location, found.map w.locate = ks.map .ok ∧ ks.Nodup ∧ ∀ k, k ∈ ks ↔ S k

lemma exists_files (hw : w.WellFormed) (hmark : hasMark base.text = false)
    (hconfined : ∀ pattern ∈ patterns, Confined base pattern) :
    ∃ found, files w base patterns = .ok found ∧ LeadTo w found (Selected w base patterns) := by
  obtain ⟨lists, hlists, hall⟩ := exists_mapM_matching hw hmark hconfined
  obtain ⟨hfinds, hnodup⟩ := (Finds.flatten hall).dedup
  obtain ⟨found, hfound⟩ : ∃ found, found = Path.dedupNeighbours (Path.sort lists.flatten) :=
    ⟨_, rfl⟩
  rw [← hfound] at hfinds hnodup
  have hleads : ∀ p ∈ found, ∃ k, w.locate p = .ok k := by
    intro p hp
    obtain ⟨l, names, -, hlocate, -⟩ := hfinds.components_of_mem hp
    exact ⟨_, hlocate⟩
  -- Every path of the list leads somewhere, and two that differ lead apart.
  choose! location hlocation using hleads
  have hmap : found.map w.locate = (found.map location).map .ok := by
    rw [List.map_map]
    exact List.map_congr_left hlocation
  refine ⟨found, ?_, found.map location, hmap, ?_, fun k => ?_⟩
  · rw [files, hlists, hfound]
    rfl
  · rw [hmap] at hnodup
    exact List.Nodup.of_map _ hnodup
  · rw [List.mem_map]
    constructor
    · rintro ⟨p, hp, rfl⟩
      obtain ⟨l, names, contents, executable, hl, hlocate, -, hnames, hnode, S, hS, hSnames⟩ :=
        hfinds.sound p hp
      obtain ⟨pattern, hpattern, rfl⟩ := List.mem_map.1 hS
      obtain hk := Except.ok.inj ((hlocation p hp).symm.trans hlocate)
      exact ⟨l, names, contents, executable, hl, hk, hnames, by rw [hk, hnode], pattern, hpattern,
        hSnames⟩
    · rintro ⟨l, names, contents, executable, hl, rfl, hnames, hnode, pattern, hpattern, hselects⟩
      obtain ⟨p, hp, hlocate⟩ := hfinds.complete l names contents executable hl hnames hnode
        ⟨_, List.mem_map_of_mem hpattern, hselects⟩
      exact ⟨p, hp, Except.ok.inj ((hlocation p hp).symm.trans hlocate)⟩

/-- A wildcard that stands for `..` leads out of the base. -/
example : files { tree := ⟨[(["pkg"], .directory), (["a.o"], .file [] false)]⟩ } ⟨"pkg"⟩
    [".*/a.o"] = .ok [⟨"pkg/../a.o"⟩] := by decide +kernel

/-- Behind an empty component of the starting directory nothing is found. -/
example : files { tree := ⟨[(["a.o"], .file [] false)]⟩ } ⟨"."⟩ [".//a.o"] = .ok [] := by
  decide +kernel

end Drydock.Glob
