import Drydock.Proofs.Glob.Children

/-!
# What a search finds

A search walks down a tree and spells out the paths it comes by.  What it finds can be said without
the walk: a file is found when the names that lead to it match the parts of the pattern.  That holds
of patterns that never go up, and that do not stall in the starting directory.

Two halves are needed, and they ask for different things.  What is found matches as long as the
pattern does not go up, since only then are the steps of the search names.  What matches is found as
long as the pattern does not stall; here going up does no harm, because the names are given.  Both
go by induction on the parts, one of them along `Glob.goesUp` and the other along the names that
match.

Directories are found as well, but only files are asked for in the end, and an idle component behind
a file finds nothing.  So the lemmas speak of files, which spares them the cases in which a
directory is found under a path that ends with `.`.

* `Glob.Matches` — names match the parts of a pattern.
* `Glob.goesUp`, `Glob.stalls` — the patterns that have to be left out.
* `Glob.matches_of_mem_search`, `Glob.exists_mem_search` — a search finds what matches, and nothing
  else.
-/

namespace Drydock.Glob

variable {w : Workspace} {accept : Path → Bool} {p q : Path} {l k : Location} {name : String}
  {names : List String} {text : List Char} {part : Part} {parts : List Part}
  {contents : Bytes} {executable : Bool}

/-! ## Names that match -/

/-- The names that lead down to a file match the parts of a pattern. -/
inductive Matches : List Part → List String → Prop
  | nil : Matches [] []
  /-- A component that stays stands for the directory in which the rest is looked for. -/
  | idle {text : List Char} {parts : List Part} {names : List String}
      (htext : text = [] ∨ text = ['.']) (hnames : names ≠ []) (h : Matches parts names) :
      Matches (.plain text :: parts) names
  | name {part : Part} {parts : List Part} {name : String} {names : List String}
      (hname : part.matchesName name = true) (h : Matches parts names) :
      Matches (part :: parts) (name :: names)
  | directories {part : Part} {parts : List Part} {name : String} {names : List String}
      (dirs : List String) (hname : part.matchesName name = true) (h : Matches parts names) :
      Matches (.directories :: part :: parts) (dirs ++ name :: names)

lemma Matches.ne_nil (h : Matches parts names) (hparts : parts ≠ []) : names ≠ [] := by
  cases h with
  | nil => exact absurd rfl hparts
  | idle htext hnames h => exact hnames
  | name hname h => simp
  | directories dirs hname h => simp

/-- Whether the parts can lead to a directory above: by a component `..`, or by one with marks that
stands for it and has something behind it. -/
def goesUp : List Part → Bool
  | [] => false
  | .plain text :: parts => text = ['.', '.'] || goesUp parts
  | .marked tokens :: parts => (parts ≠ [] && specials tokens ≠ []) || goesUp parts
  | [.directories] => false
  | .directories :: _ :: parts => goesUp parts

/-- Whether an empty component stands right behind the starting directory.  Nothing is found there,
since the directory and the component are joined to an empty path. -/
def stalls : List Part → Bool
  | .plain text :: parts => (text = [] && parts ≠ []) || (text = ['.'] && stalls parts)
  | _ => false

/-! ## A component without marks -/

lemma toList_subset_child (p : Path) (name : String) :
    name.toList ⊆ (child p name).text.toList := by
  intro c hc
  rw [child, Path.join]
  split
  · exact hc
  · split
    · exact hc
    · split
      · simp [String.toList_append, hc]
      · simp [String.toList_append, hc]

/-- Nothing stands at the path that an empty component makes of the starting directory. -/
lemma search_plain_of_stall (hstart : isStart p = true) (parts : List Part) :
    search w accept (.plain [] :: parts) p = [] := by
  have hmissing : w.exists (child p "") = false := by
    by_contra h
    obtain ⟨l, hl, -⟩ := Workspace.exists_iff.1 (by simpa using h)
    refine Workspace.text_ne_of_locate hl ?_
    rw [child, if_pos hstart]
  unfold search
  simp [hmissing]

lemma search_plain_of_step (hw : w.tree.WellFormed) (h : w.locate p = .ok l)
    (hslash : '/' ∉ text) (hempty : isStart p = true → text ≠ [])
    (hstep : Workspace.step w.tree l text = .ok k) (parts : List Part) :
    search w accept (.plain text :: parts) p = search w accept parts (child p (.ofList text)) ∧
      w.locate (child p (.ofList text)) = .ok k := by
  obtain ⟨hdir, hcases⟩ := Workspace.step_eq_ok_iff.1 hstep
  have hnul : '\x00' ∉ text := Workspace.noNul_of_step hw hstep
  have hlocate : w.locate (child p (.ofList text)) = .ok k :=
    (locate_child h (by simpa using hslash) (by simpa using hnul) (by simpa using hempty)).2
      (by simpa using hstep)
  refine ⟨?_, hlocate⟩
  rw [search]
  -- For `.` and `..` the search looks for the directory, for a name it looks for the entry.
  by_cases hspecial : text = ['.'] ∨ text = ['.', '.']
  · simp [hspecial, (Workspace.isDirectory_iff h).2 hdir]
  · have hthere : w.exists (child p (.ofList text)) = true := by
      refine Workspace.exists_iff.2 ⟨k, hlocate, ?_⟩
      obtain ⟨hhere, hup⟩ := not_or.1 hspecial
      rcases hcases with ⟨-, rfl⟩ | ⟨hup', -⟩ | ⟨-, -, -, -, hsome, rfl⟩
      · exact FileTree.isSome_of_isDirectoryAt hdir
      · exact absurd hup' hup
      · exact hsome
    simp [hspecial, hthere]

lemma search_plain_of_not_step (h : w.locate p = .ok l) (hslash : '/' ∉ text)
    (hempty : isStart p = true → text ≠ [])
    (hstep : ∀ k, Workspace.step w.tree l text ≠ .ok k) (parts : List Part) :
    search w accept (.plain text :: parts) p = [] := by
  unfold search
  by_cases hspecial : text = ['.'] ∨ text = ['.', '.']
  · have hdir : w.isDirectory p = false := by
      by_contra hdir
      rw [Bool.not_eq_false, Workspace.isDirectory_iff h] at hdir
      rcases hspecial with rfl | rfl
      · exact hstep l (Workspace.step_eq_ok_iff.2 ⟨hdir, .inl ⟨.inr rfl, rfl⟩⟩)
      · exact hstep _ (Workspace.step_eq_ok_iff.2 ⟨hdir, .inr (.inl ⟨rfl, rfl⟩)⟩)
    simp [hspecial, hdir]
  · have hmissing : w.exists (child p (.ofList text)) = false := by
      by_contra hthere
      obtain ⟨k, hk, -⟩ := Workspace.exists_iff.1 (by simpa using hthere)
      have hcheck := Workspace.checkPath_eq_ok_iff.1 (Workspace.locate_eq_ok_iff.1 hk).1
      have hnul : '\x00' ∉ text := fun hmem =>
        hcheck.1 (toList_subset_child p _ (by simpa using hmem))
      have hk' := (locate_child h (by simpa using hslash) (by simpa using hnul)
        (by simpa using hempty)).1 hk
      exact hstep k (by simpa using hk')
    simp [hspecial, hmissing]

/-! ## Files that are found -/

lemma not_isDirectory_of_isFile (h : w.isFile q = true) : w.isDirectory q = false := by
  obtain ⟨l, contents, executable, hl, hnode⟩ := Workspace.isFile_iff.1 h
  by_contra hdir
  rw [Bool.not_eq_false, Workspace.isDirectory_iff hl, FileTree.isDirectoryAt_iff, hnode] at hdir
  simp at hdir

lemma exists_locate_special (hw : w.tree.WellFormed) (h : w.locate p = .ok l)
    (hdir : w.tree.isDirectoryAt l = true) {tokens : List Token} (hname : name ∈ specials tokens) :
    ∃ k, w.locate (p.join ⟨name⟩) = .ok k ∧ w.tree.isDirectoryAt k = true := by
  have hspecial : name = ".." ∨ name = "." := by
    unfold specials at hname
    split at hname
    · simpa using List.mem_of_mem_filter hname
    · simp at hname
  rcases hspecial with rfl | rfl
  · refine ⟨l.dropLast, (Workspace.locate_join h (by simp) (by simp)).2 ?_,
      hw.isDirectoryAt_dropLast hdir⟩
    exact Workspace.step_eq_ok_iff.2 ⟨hdir, .inr (.inl ⟨by simp, rfl⟩)⟩
  · refine ⟨l, (Workspace.locate_join h (by simp) (by simp)).2 ?_, hdir⟩
    exact Workspace.step_eq_ok_iff.2 ⟨hdir, .inl ⟨by simp, rfl⟩⟩

lemma not_isFile_join_special (hw : w.tree.WellFormed) (h : w.locate p = .ok l)
    (hdir : w.tree.isDirectoryAt l = true) {tokens : List Token} (hname : name ∈ specials tokens) :
    w.isFile (p.join ⟨name⟩) = false := by
  obtain ⟨k, hk, hdir'⟩ := exists_locate_special hw h hdir hname
  by_contra hfile
  have hnot := not_isDirectory_of_isFile (Bool.not_eq_false _ ▸ hfile)
  rw [(Workspace.isDirectory_iff hk).2 hdir'] at hnot
  simp at hnot

/-! ## Where a search goes on -/

lemma step_of_mem_search_plain (hw : w.tree.WellFormed) (h : w.locate p = .ok l)
    (hslash : '/' ∉ text) (hq : q ∈ search w accept (.plain text :: parts) p) :
    ∃ k, Workspace.step w.tree l text = .ok k ∧ w.locate (child p (.ofList text)) = .ok k ∧
      q ∈ search w accept parts (child p (.ofList text)) := by
  by_cases hstall : isStart p = true ∧ text = []
  · rw [hstall.2, search_plain_of_stall hstall.1] at hq
    simp at hq
  · have hempty : isStart p = true → text ≠ [] := fun hstart htext => hstall ⟨hstart, htext⟩
    by_cases hstep : ∃ k, Workspace.step w.tree l text = .ok k
    · obtain ⟨k, hk⟩ := hstep
      have hplain := @search_plain_of_step w accept p l k text hw h hslash hempty hk parts
      rw [hplain.1] at hq
      exact ⟨k, hk, hplain.2, hq⟩
    · rw [search_plain_of_not_step h hslash hempty fun k hk => hstep ⟨k, hk⟩] at hq
      simp at hq

lemma child_of_mem_search_marked {tokens : List Token} (hw : w.tree.WellFormed)
    (h : w.locate p = .ok l) (hfile : w.isFile q = true)
    (hspecials : parts = [] ∨ specials tokens = [])
    (hq : q ∈ search w accept (.marked tokens :: parts) p) :
    ∃ name, matchesName tokens name.toList = true ∧ w.tree.isDirectoryAt l = true ∧
      (w.tree.node? (l ++ [name])).isSome = true ∧ q ∈ search w accept parts (child p name) := by
  unfold search at hq
  split at hq
  · rename_i hdirectory
    have hdir := (Workspace.isDirectory_iff h).1 hdirectory
    rcases List.mem_append.1 hq with hq | hq
    · obtain ⟨name, hname, hq⟩ := List.mem_flatMap.1 hq
      rcases hspecials with rfl | hnone
      · -- What a last component leads to by `.` and `..` is a directory.
        unfold search at hq
        split at hq
        · obtain rfl := List.mem_singleton.1 hq
          rw [not_isFile_join_special hw h hdir hname] at hfile
          simp at hfile
        · simp at hq
      · simp [hnone] at hname
    · obtain ⟨name, hname, hq⟩ := List.mem_flatMap.1 hq
      obtain ⟨hmem, hmatch⟩ := List.mem_filter.1 hname
      exact ⟨name, hmatch, hdir, (mem_namesIn_iff h).1 hmem, hq⟩
  · simp at hq

lemma descend_of_mem_search_directories (hw : w.tree.WellFormed) (h : w.locate p = .ok l)
    (hq : q ∈ search w accept (.directories :: part :: parts) p) :
    ∃ dirs name, part.matchesName name = true ∧
      (w.tree.node? (l ++ (dirs ++ [name]))).isSome = true ∧
      q ∈ search w accept parts (descend p (dirs ++ [name])) := by
  unfold search at hq
  split at hq
  · obtain ⟨⟨path, name⟩, hmem, hq⟩ := List.mem_flatMap.1 hq
    obtain ⟨hmem, hmatch⟩ := List.mem_filter.1 hmem
    obtain ⟨dirs, rfl, hsome, -⟩ := (mem_descendants_iff hw h).1 hmem
    exact ⟨dirs, name, hmatch, by rwa [← List.append_assoc], hq⟩
  · simp at hq

/-! ## Soundness -/

/-- A step of a component that does not go up stays in a directory or leads to a name. -/
lemma step_of_ne_up (h : w.locate p = .ok l) (hslash : '/' ∉ text) (hup : text ≠ ['.', '.'])
    (hstep : Workspace.step w.tree l text = .ok k) :
    (text = [] ∨ text = ['.']) ∧ k = l ∧ w.tree.isDirectoryAt l = true ∧
        stem (child p (.ofList text)) = stem p ∨
      k = l ++ [.ofList text] ∧
        stem (child p (.ofList text)) = stem p ++ [.name (.ofList text)] := by
  have hstem : stem (child p (.ofList text)) =
      stem p ++ (Path.bodyComponent (String.ofList text).toList).toList :=
    stem_child (Workspace.text_ne_of_locate h) (by simpa using hslash)
  rw [String.toList_ofList, Path.bodyComponent] at hstem
  obtain ⟨hdir, hcases⟩ := Workspace.step_eq_ok_iff.1 hstep
  rcases hcases with ⟨hstay, rfl⟩ | ⟨hup', -⟩ | ⟨hne, hhere, -, -, hsome, rfl⟩
  · rw [if_pos hstay] at hstem
    exact .inl ⟨hstay, rfl, hdir, by simpa using hstem⟩
  · exact absurd hup' hup
  · rw [if_neg (by simp [hne, hhere]), if_neg hup] at hstem
    exact .inr ⟨rfl, by simpa using hstem⟩

/-- The names that lead to a file that is found match the parts. -/
lemma matches_of_mem_search (hw : w.tree.WellFormed) (hup : goesUp parts = false)
    (hslash : ∀ text, Part.plain text ∈ parts → '/' ∉ text) (h : w.locate p = .ok l)
    (hq : q ∈ search w accept parts p) (hfile : w.isFile q = true) :
    ∃ names, w.locate q = .ok (l ++ names) ∧ stem q = stem p ++ names.map .name ∧
      Matches parts names := by
  fun_induction goesUp parts generalizing p l with
  | case1 =>
      unfold search at hq
      split at hq
      · obtain rfl := List.mem_singleton.1 hq
        exact ⟨[], by simpa using h, by simp, .nil⟩
      · simp at hq
  | case2 text parts ih =>
      obtain ⟨htext, hup⟩ := Bool.or_eq_false_iff.1 hup
      have hslash' := hslash text (by simp)
      obtain ⟨k, hstep, hlocate, hq⟩ := step_of_mem_search_plain hw h hslash' hq
      obtain ⟨names, hnames, hstem, hmatches⟩ := ih hup
        (fun text htext => hslash text (List.mem_cons_of_mem _ htext)) hlocate hq
      -- An idle component matches no name, and there is a file behind it.
      rcases step_of_ne_up h hslash' (by simpa using htext) hstep with
        ⟨hstay, rfl, hdir, hchild⟩ | ⟨rfl, hchild⟩
      · refine ⟨names, hnames, by rw [hstem, hchild], .idle hstay ?_ hmatches⟩
        rintro rfl
        rw [List.append_nil] at hnames
        have hnot := not_isDirectory_of_isFile hfile
        rw [(Workspace.isDirectory_iff hnames).2 hdir] at hnot
        simp at hnot
      · refine ⟨.ofList text :: names, by simpa using hnames, by simp [hstem, hchild], ?_⟩
        exact .name (by simp [Part.matchesName]) hmatches
  | case3 tokens parts ih =>
      obtain ⟨hspecials, hup⟩ := Bool.or_eq_false_iff.1 hup
      have hspecials' : parts = [] ∨ specials tokens = [] := by
        by_cases hparts : parts = []
        · exact .inl hparts
        · exact .inr (by simpa [hparts] using hspecials)
      obtain ⟨name, hmatch, hdir, hsome, hq⟩ :=
        child_of_mem_search_marked hw h hfile hspecials' hq
      have hvalid : ValidName name := hw.validName hsome (by simp)
      obtain ⟨names, hnames, hstem, hmatches⟩ := ih hup
        (fun text htext => hslash text (List.mem_cons_of_mem _ htext))
        (locate_child_validName h hvalid hdir hsome) hq
      rw [stem_child_validName (Workspace.text_ne_of_locate h) hvalid] at hstem
      exact ⟨name :: names, by simpa using hnames, by simpa using hstem,
        .name (by simpa [Part.matchesName] using hmatch) hmatches⟩
  | case4 =>
      unfold search at hq
      split at hq
      · have hdirectory := (List.mem_filter.1 hq).2
        rw [not_isDirectory_of_isFile hfile] at hdirectory
        simp at hdirectory
      · simp at hq
  | case5 part parts ih =>
      obtain ⟨dirs, name, hmatch, hsome, hq⟩ := descend_of_mem_search_directories hw h hq
      obtain ⟨hlocate, hstem'⟩ := locate_descend hw h hsome
      obtain ⟨names, hnames, hstem, hmatches⟩ := ih hup (fun text htext =>
        hslash text (List.mem_cons_of_mem _ (List.mem_cons_of_mem _ htext))) hlocate hq
      refine ⟨dirs ++ name :: names, by simpa using hnames, ?_, .directories dirs hmatch hmatches⟩
      rw [hstem, hstem']
      simp

lemma isDirectory_of_mem_search (haccept : ∀ path, accept path = true → w.isDirectory path = true)
    (hq : q ∈ search w accept parts p) : w.isDirectory q = true := by
  fun_induction search w accept parts p with
  | case1 path haccepted =>
      obtain rfl := List.mem_singleton.1 hq
      exact haccept _ haccepted
  | case2 => simp at hq
  | case3 => rename_i ih; exact ih hq
  | case4 => simp at hq
  | case5 tokens parts dir hdir ihJoin ihChild =>
      rcases List.mem_append.1 hq with hq | hq
      · obtain ⟨name, -, hq⟩ := List.mem_flatMap.1 hq
        exact ihJoin name hq
      · obtain ⟨name, -, hq⟩ := List.mem_flatMap.1 hq
        exact ihChild name hq
  | case6 => simp at hq
  | case7 => exact (List.mem_filter.1 hq).2
  | case8 => simp at hq
  | case9 part parts dir hdir ih =>
      obtain ⟨e, -, hq⟩ := List.mem_flatMap.1 hq
      exact ih e hq
  | case10 => simp at hq

/-! ## Completeness -/

lemma isStart_of_isStart_child (hp : p.text ≠ "") (hslash : '/' ∉ name.toList)
    (h : isStart (child p name) = true) : isStart p = true := by
  unfold child at h
  by_contra hstart
  rw [if_neg hstart, isStart_iff, Path.components_join hp hslash] at h
  rcases List.append_eq_singleton_iff.1 h with ⟨-, hlast⟩ | ⟨hfirst, -⟩
  · exact bodyComponent_ne_here _ (Option.toList_eq_singleton_iff.1 hlast)
  · exact hstart (isStart_iff.2 hfirst)

lemma not_isStart_child (hp : p.text ≠ "") (hname : ValidName name) :
    isStart (child p name) = false := by
  by_contra hstart
  have hstem := stem_child_validName hp hname
  rw [stem, if_pos (by simpa using hstart)] at hstem
  simp at hstem

lemma mem_search_of_child (hw : w.tree.WellFormed) (h : w.locate p = .ok l)
    (hsome : (w.tree.node? (l ++ [name])).isSome = true) (hname : part.matchesName name = true)
    (hq : q ∈ search w accept parts (child p name)) : q ∈ search w accept (part :: parts) p := by
  have hdir := hw.parents hsome
  have hvalid : ValidName name := hw.validName hsome (by simp)
  cases part with
  | plain text =>
      have htext : text = name.toList := by simpa [Part.matchesName] using hname
      subst htext
      have hstep := (Workspace.step_validName hvalid).2 ⟨hdir, hsome, rfl⟩
      rw [(@search_plain_of_step w accept p l _ name.toList hw h hvalid.noSlash
        (fun _ => hvalid.ne_empty) hstep parts).1, String.ofList_toList]
      exact hq
  | marked tokens =>
      rw [search, if_pos ((Workspace.isDirectory_iff h).2 hdir)]
      refine List.mem_append_right _ (List.mem_flatMap.2 ⟨name, ?_, hq⟩)
      exact List.mem_filter.2
        ⟨(mem_namesIn_iff h).2 hsome, by simpa [Part.matchesName] using hname⟩
  | directories => simp [Part.matchesName] at hname

/-- What is found from any descendant by the rest of the parts is found behind `**`. -/
lemma mem_search_of_descendant (hw : w.tree.WellFormed) (h : w.locate p = .ok l)
    {dirs : List String} (hsome : (w.tree.node? (l ++ (dirs ++ [name]))).isSome = true)
    (hname : part.matchesName name = true)
    (hq : q ∈ search w accept parts (descend p (dirs ++ [name]))) :
    q ∈ search w accept (.directories :: part :: parts) p := by
  have hdir := hw.isDirectoryAt_of_append hsome (by simp)
  rw [search, if_pos ((Workspace.isDirectory_iff h).2 hdir)]
  refine List.mem_flatMap.2 ⟨(descend p (dirs ++ [name]), name), ?_, hq⟩
  refine List.mem_filter.2 ⟨(mem_descendants_iff hw h).2 ⟨dirs, rfl, ?_, ?_⟩, hname⟩
  · rwa [List.append_assoc]
  · have hlength := FileTree.length_le_depthOf hsome
    simp only [List.length_append, List.length_singleton] at hlength
    omega

lemma exists_mem_search (hw : w.tree.WellFormed) (haccept : ∀ path, accept path = true)
    (hstall : isStart p = true → stalls parts = false) (h : w.locate p = .ok l)
    (hmatches : Matches parts names)
    (hfile : w.tree.node? (l ++ names) = some (.file contents executable)) :
    ∃ q ∈ search w accept parts p, w.locate q = .ok (l ++ names) := by
  have hp := Workspace.text_ne_of_locate h
  have hsome : (w.tree.node? (l ++ names)).isSome = true := by simp [hfile]
  induction hmatches generalizing p l with
  | nil => exact ⟨p, by simp [search, haccept], by simpa using h⟩
  | @idle text parts names hstay hnames hmatches ih =>
      have hdir := hw.isDirectoryAt_of_append hsome hnames
      have hstep : Workspace.step w.tree l text = .ok l :=
        Workspace.step_eq_ok_iff.2 ⟨hdir, .inl ⟨hstay, rfl⟩⟩
      have hslash : '/' ∉ text := by rcases hstay with rfl | rfl <;> simp
      have hparts : parts ≠ [] := by
        rintro rfl
        cases hmatches
        exact hnames rfl
      -- A search that starts with an idle component has to go on behind it.
      have hrest : isStart p = true → text ≠ [] ∧ stalls parts = false := by
        intro hstart
        have hstall' := hstall hstart
        unfold stalls at hstall'
        rcases hstay with rfl | rfl
        · simp [hparts] at hstall'
        · exact ⟨by simp, by simpa using hstall'⟩
      obtain ⟨hsearch, hlocate⟩ :=
        @search_plain_of_step w accept p l l text hw h hslash (fun hstart => (hrest hstart).1) hstep
          parts
      rw [hsearch]
      refine ih (fun hstart => (hrest ?_).2) hlocate hfile (Workspace.text_ne_of_locate hlocate)
        hsome
      exact isStart_of_isStart_child hp (by simpa using hslash) hstart
  | @name part parts name names hname hmatches ih =>
      have hsplit : l ++ name :: names = l ++ [name] ++ names := by simp
      have hdir := hw.isDirectoryAt_of_append hsome (by simp)
      have hvalid : ValidName name := hw.validName hsome (by simp)
      rw [hsplit] at hfile hsome ⊢
      have hmid := hw.isSome_of_append hsome
      have hlocate := locate_child_validName h hvalid hdir hmid
      obtain ⟨q, hq, hlocateq⟩ := ih (fun hstart => by
        rw [not_isStart_child hp hvalid] at hstart
        simp at hstart) hlocate hfile (Workspace.text_ne_of_locate hlocate) hsome
      exact ⟨q, mem_search_of_child hw h hmid hname hq, hlocateq⟩
  | @directories part parts name names dirs hname hmatches ih =>
      have hsplit : l ++ (dirs ++ name :: names) = l ++ (dirs ++ [name]) ++ names := by simp
      rw [hsplit] at hfile hsome ⊢
      have hmid := hw.isSome_of_append hsome
      obtain ⟨hlocate, hstem⟩ := locate_descend hw h hmid
      obtain ⟨q, hq, hlocateq⟩ := ih (fun hstart => by
        rw [stem, if_pos hstart] at hstem
        simp at hstem) hlocate hfile (Workspace.text_ne_of_locate hlocate) hsome
      exact ⟨q, mem_search_of_descendant hw h hmid hname hq, hlocateq⟩

end Drydock.Glob
