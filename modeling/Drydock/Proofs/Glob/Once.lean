import Drydock.Proofs.Glob.Files
import Drydock.Proofs.Glob.Survivors

/-!
# Files that are found once

The files that several patterns find are put in one list, from which a path is dropped when it is
the same as another one.  Paths are compared by their components, and a file has more than one path:
`pkg/a.o` is `pkg/../pkg/a.o` too.  The list names every file once exactly when no file is found
under two paths that differ.

The condition is about what patterns find, and not about the list: the paths of the list are all
different, and it is in the paths that were dropped that a file can be seen twice.  It takes what is
gone as a predicate, since the patterns of one category may be looked for when the files of another
one have been removed.  Losing files then only changes the predicate (`Glob.once_of_loses`).

* `Glob.Lists` — what the list of the files is.
* `Glob.Once` — no file is found under two paths that differ.
* `Glob.Lists.leadTo_iff` — the list names every file once.
* `Glob.once_of_leadsDown` — patterns that never lead up find every file once.
-/

namespace Drydock.Glob

variable {w w' : Workspace} {gone gone' : Location → Prop} {base p q : Path} {k : Location}
  {pattern : String} {patterns : List String} {found : List Path} {S T : Location → Prop}

/-! ## Lists of files -/

/-- The files that some patterns find: every path is one that a pattern finds, every path that a
pattern finds is the same as one of them, and no two of them are the same. -/
structure Lists (w : Workspace) (base : Path) (patterns : List String) (found : List Path) :
    Prop where
  hits : ∀ p ∈ found, Hits w base patterns p
  covers : ∀ p, Hits w base patterns p → ∃ q ∈ found, q.Same p
  apart : found.Pairwise fun p q => ¬ p.Same q

lemma lists_of_files (h : files w base patterns = .ok found) : Lists w base patterns found := by
  rw [files] at h
  cases hmap : patterns.mapM (matchingOrFail w base) with
  | error e => simp [hmap, bind, Except.bind] at h
  | ok lists =>
      rw [hmap] at h
      obtain rfl : Path.dedupNeighbours (Path.sort lists.flatten) = found := Except.ok.inj h
      have hall := mapM_eq_ok_iff.1 hmap
      -- In front of the sort the lists of the patterns stand one behind the other.
      have hmem : ∀ p, p ∈ lists.flatten ↔ Hits w base patterns p := by
        intro p
        rw [List.mem_flatten]
        constructor
        · rintro ⟨list, hlist, hp⟩
          obtain ⟨pattern, hpattern, heq⟩ := exists_of_mem_forall₂ hall hlist
          obtain ⟨query, hquery, rfl⟩ := matchingOrFail_eq_ok_iff.1 heq
          obtain ⟨hp, hfile⟩ := List.mem_filter.1 (Path.mem_sort.1 hp)
          exact ⟨hfile, pattern, hpattern, query, hquery, hp⟩
        · rintro ⟨hfile, pattern, hpattern, query, hquery, hp⟩
          obtain ⟨list, hlist, heq⟩ := exists_of_mem_forall₂ hall.flip hpattern
          obtain ⟨query', hquery', rfl⟩ := matchingOrFail_eq_ok_iff.1 heq
          obtain rfl := Except.ok.inj (hquery.symm.trans hquery')
          exact ⟨_, hlist, Path.mem_sort.2 (List.mem_filter.2 ⟨hp, hfile⟩)⟩
      refine ⟨fun p hp => ?_, fun p hp => ?_,
        Path.pairwise_dedupNeighbours (Path.pairwise_sort _)⟩
      · exact (hmem p).1 (Path.mem_sort.1 (Path.mem_of_mem_dedupNeighbours hp))
      · exact Path.exists_same_dedupNeighbours (Path.mem_sort.2 ((hmem p).2 hp))

lemma exists_files_iff : (∃ found, files w base patterns = .ok found) ↔
    ∀ pattern ∈ patterns, WellSpelled (base.join ⟨pattern⟩) := by
  have hone : ∀ pattern, WellSpelled (base.join ⟨pattern⟩) ↔
      ∃ found, matchingOrFail w base pattern = .ok found := by
    intro pattern
    simp only [matchingOrFail_eq_ok_iff, wellSpelled_iff]
    exact ⟨fun ⟨query, hquery⟩ => ⟨_, query, hquery, rfl⟩, fun ⟨_, query, hquery, _⟩ =>
      ⟨query, hquery⟩⟩
  simp only [hone, ← exists_mapM_iff]
  rw [files]
  cases patterns.mapM (matchingOrFail w base) with
  | error e => simp [bind, Except.bind]
  | ok lists => simp [bind, Except.bind, pure, Except.pure]

/-! ## One path for every file -/

/-- No file that is left is found under two paths that differ. -/
def Once (w : Workspace) (base : Path) (patterns : List String) (gone : Location → Prop) : Prop :=
  ∀ p q k, Hits w base patterns p → Hits w base patterns q → w.locate p = .ok k →
    w.locate q = .ok k → ¬ gone k → p.Same q

/-- In a tree that has lost files, those that are gone do not count. -/
lemma once_of_loses (h : w.Loses w' gone) (hw : w.WellFormed) :
    Once w' base patterns gone' ↔ Once w base patterns fun k => gone k ∨ gone' k := by
  have hhits : ∀ {p k}, w.locate p = .ok k → ¬ gone k →
      (Hits w' base patterns p ↔ Hits w base patterns p) := by
    intro p k hk hgone
    rw [hits_of_loses h hw]
    refine ⟨And.left, fun hp => ⟨hp, fun j hj => ?_⟩⟩
    rwa [Except.ok.inj (hj.symm.trans hk)]
  constructor
  · intro honce p q k hp hq hpk hqk hk
    obtain ⟨hgone, hgone'⟩ := not_or.1 hk
    exact honce p q k ((hhits hpk hgone).2 hp) ((hhits hqk hgone).2 hq)
      ((h.locate_iff hw).2 ⟨hpk, hgone⟩) ((h.locate_iff hw).2 ⟨hqk, hgone⟩) hgone'
  · intro honce p q k hp hq hpk hqk hgone'
    obtain ⟨hpk, hgone⟩ := (h.locate_iff hw).1 hpk
    obtain ⟨hqk, -⟩ := (h.locate_iff hw).1 hqk
    exact honce p q k ((hhits hpk hgone).1 hp) ((hhits hqk hgone).1 hq) hpk hqk
      (not_or.2 ⟨hgone, hgone'⟩)

lemma LeadTo.congr (h : LeadTo w found S) (heq : ∀ k, S k ↔ T k) : LeadTo w found T := by
  obtain rfl : S = T := funext fun k => propext (heq k)
  exact h

lemma LeadTo.of_loses (h : LeadTo w' found S) (hloses : w.Loses w' gone) (hw : w.WellFormed) :
    LeadTo w found S := by
  obtain ⟨ks, hfound, hnodup, hks⟩ := h
  exact ⟨ks, ((hloses.map_locate_iff hw).1 hfound).1, hnodup, hks⟩

namespace Lists

lemma exists_locations (h : Lists w base patterns found) : ∃ ks : List Location,
    found.map w.locate = ks.map .ok ∧ ∀ k, k ∈ ks ↔ Found w base patterns k := by
  have hleads : ∀ p ∈ found, ∃ k, w.locate p = .ok k := by
    intro p hp
    obtain ⟨k, -, -, hk, -⟩ := (h.hits p hp).exists_file
    exact ⟨k, hk⟩
  choose! location hlocation using hleads
  refine ⟨found.map location, ?_, fun k => ?_⟩
  · rw [List.map_map]
    exact List.map_congr_left hlocation
  · rw [List.mem_map]
    constructor
    · rintro ⟨p, hp, rfl⟩
      exact ⟨p, h.hits p hp, hlocation p hp⟩
    · rintro ⟨p, hp, hk⟩
      obtain ⟨q, hq, hsame⟩ := h.covers p hp
      exact ⟨q, hq, Workspace.eq_of_same hsame (hlocation q hq) hk⟩

lemma mem_iff (h : Lists w base patterns found) {ks : List Location}
    (hfound : found.map w.locate = ks.map .ok) : k ∈ ks ↔ Found w base patterns k := by
  obtain ⟨ks', hfound', hks'⟩ := h.exists_locations
  have heq : ks = ks' :=
    List.map_injective_iff.2 (fun _ _ => Except.ok.inj) (hfound.symm.trans hfound')
  rw [heq, hks']

/-- The list names every file once exactly when no file is found under two paths that differ. -/
lemma leadTo_iff (h : Lists w base patterns found) :
    LeadTo w found (Found w base patterns) ↔ Once w base patterns fun _ => False := by
  obtain ⟨ks, hfound, hks⟩ := h.exists_locations
  constructor
  · rintro ⟨ks', hfound', hnodup, -⟩ p q k hp hq hpk hqk -
    obtain ⟨p', hp', hsamep⟩ := h.covers p hp
    obtain ⟨q', hq', hsameq⟩ := h.covers q hq
    have hlocate : ∀ {r r' : Path}, r' ∈ found → r'.Same r → w.locate r = .ok k →
        w.locate r' = .ok k := by
      intro r r' hr' hsame hk
      obtain ⟨j, -, -, hj, -⟩ := (h.hits r' hr').exists_file
      rw [hj, Workspace.eq_of_same hsame hj hk]
    -- Paths of the list that lead to one file are one path.
    have hinj : (found.map w.locate).Nodup := by
      rw [hfound']
      exact hnodup.map fun _ _ => Except.ok.inj
    have heq : p' = q' := List.inj_on_of_nodup_map hinj hp' hq'
      ((hlocate hp' hsamep hpk).trans (hlocate hq' hsameq hqk).symm)
    exact hsamep.symm.trans ((congrArg Path.components heq).trans hsameq)
  · intro honce
    refine ⟨ks, hfound, ?_, hks⟩
    have hpairwise : (found.map w.locate).Nodup := by
      rw [List.Nodup, List.pairwise_map]
      refine h.apart.imp_of_mem fun {p q} hp hq hother hsame => hother ?_
      obtain ⟨k, -, -, hk, -⟩ := (h.hits p hp).exists_file
      exact honce p q k (h.hits p hp) (h.hits q hq) hk (hsame ▸ hk) id
    rw [hfound] at hpairwise
    exact hpairwise.of_map _

lemma eq_nil (h : Lists w base patterns found) (hnone : ∀ k, ¬ Found w base patterns k) :
    found = [] := by
  refine List.eq_nil_iff_forall_not_mem.2 fun p hp => ?_
  obtain ⟨k, -, -, hk, -⟩ := (h.hits p hp).exists_file
  exact hnone k ⟨p, h.hits p hp, hk⟩

end Lists

/-! ## Patterns that lead down -/

/-- A relative pattern without a fault and without a way up. -/
def LeadsDown (pattern : String) : Prop :=
  (Path.mk pattern).isAbsolute = false ∧
    ∃ q, Query.parse ⟨pattern⟩ = .ok q ∧ goesUp q.parts = false

lemma leadsDown_of_confined (h : Confined base pattern) : LeadsDown pattern := by
  obtain ⟨hrel, q, hq, hup, -⟩ := h
  exact ⟨hrel, q, hq, hup⟩

lemma wellSpelled_join (hmark : hasMark base.text = false)
    (hrel : (Path.mk pattern).isAbsolute = false) (hspelled : WellSpelled ⟨pattern⟩) :
    WellSpelled (base.join ⟨pattern⟩) := by
  obtain ⟨q, hq⟩ := wellSpelled_iff.1 hspelled
  rcases parse_join hmark hrel hq with hjoin | ⟨-, q', hjoin, -⟩
  · exact wellSpelled_iff.2 ⟨_, hjoin⟩
  · exact wellSpelled_iff.2 ⟨_, hjoin⟩

lemma Hits.components_of_leadsDown (hw : w.WellFormed) (hmark : hasMark base.text = false)
    (hdown : ∀ pattern ∈ patterns, LeadsDown pattern) (h : Hits w base patterns p) :
    ∃ l names, w.locate (directoryOf base) = .ok l ∧ w.locate p = .ok (l ++ names) ∧
      p.components = stem (footOf base) ++ names.map .name := by
  obtain ⟨hfile, pattern, hpattern, query, hquery, hp⟩ := h
  obtain ⟨hrel, q, hq, hup⟩ := hdown pattern hpattern
  obtain ⟨hparts, hslash⟩ := Query.parts_spec hq hrel
  rcases parse_join hmark hrel hq with hjoin | ⟨-, q', hjoin, honly⟩
  · obtain rfl := Except.ok.inj (hjoin.symm.trans hquery)
    obtain ⟨l, names, -, -, hl, hlocate, hstem, hnames, -⟩ :=
      sound_run hw hparts hslash hup hfile hp
    exact ⟨l, names, hl, hlocate, components_of_stem hstem hnames⟩
  · obtain rfl := Except.ok.inj (hjoin.symm.trans hquery)
    have hmem := Path.mem_sort.2 (List.mem_filter.2 ⟨hp, hfile⟩)
    rw [sort_run_of_directoriesOnly honly] at hmem
    simp at hmem

lemma once_of_leadsDown (hw : w.WellFormed) (hmark : hasMark base.text = false)
    (hdown : ∀ pattern ∈ patterns, LeadsDown pattern) (gone : Location → Prop) :
    Once w base patterns gone := by
  intro p q k hp hq hpk hqk _
  obtain ⟨l, names, hl, hlocate, hcomponents⟩ := hp.components_of_leadsDown hw hmark hdown
  obtain ⟨l', names', hl', hlocate', hcomponents'⟩ := hq.components_of_leadsDown hw hmark hdown
  obtain rfl := Except.ok.inj (hl.symm.trans hl')
  have hnames := Except.ok.inj ((hlocate.symm.trans (hpk.trans hqk.symm)).trans hlocate')
  rw [Path.Same, hcomponents, hcomponents', List.append_cancel_left hnames]

lemma found_iff_selected (hw : w.WellFormed) (hmark : hasMark base.text = false)
    (hconfined : ∀ pattern ∈ patterns, Confined base pattern) :
    Found w base patterns k ↔ Selected w base patterns k := by
  obtain ⟨found, hfound, ks, hleads, -, hks⟩ := exists_files hw hmark hconfined
  rw [← hks, (lists_of_files hfound).mem_iff hleads]

end Drydock.Glob
