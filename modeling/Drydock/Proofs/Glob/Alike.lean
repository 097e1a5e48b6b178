import Drydock.Proofs.Glob.Base
import Mathlib.Data.List.Forall2

/-!
# One search from two paths

A search goes by where its path leads and spells what it finds from that path.  So from two paths of
one directory it finds the same files, in the same order and the same number of times, each under
the names that lead to it.

The files are compared side by side and not as sets, because what is made of them afterwards depends
on their order: they are sorted, and repetitions are dropped with the first one left.  So a relation
between two paths is lifted to lists by `List.Forall₂`, and each step of the search has a lemma that
carries it along.

A search joins names to a path, and drops the starting directory in front of the first one.  Two
paths of one place behave alike in this, as long as an empty component does not make nothing of the
one and something of the other; that is what *stalling* is.

* `Glob.Alike` — two paths that lead by the same names from two paths of one place.
* `Glob.forall₂_search` — what a search finds from two paths of one place.
* `Glob.forall₂_sort` — sorting keeps what is alike side by side.
-/

namespace Drydock.Glob

variable {w : Workspace} {accept : Path → Bool} {p p' q q' r r' : Path} {l k : Location}
  {name : String} {text : List Char} {tokens : List Token} {parts : List Part} {depth : ℕ}

/-! ## Paths that are alike -/

/-- Two paths lead by some names to the place that `names` lead to from `l`, the one behind `p` and
the other one behind `p'`. -/
structure LeadsBy (w : Workspace) (l : Location) (names : List String) (p p' q q' : Path) :
    Prop where
  left : w.locate q = .ok (l ++ names)
  right : w.locate q' = .ok (l ++ names)
  stem_left : stem q = stem p ++ names.map .name
  stem_right : stem q' = stem p' ++ names.map .name

/-- Two paths lead by the same names from two paths of one place. -/
def Alike (w : Workspace) (l : Location) (p p' q q' : Path) : Prop :=
  ∃ names, LeadsBy w l names p p' q q'

lemma LeadsBy.trans {names more : List String} (h : LeadsBy w l names p p' q q')
    (hnext : LeadsBy w (l ++ names) more q q' r r') : LeadsBy w l (names ++ more) p p' r r' where
  left := by rw [hnext.left, List.append_assoc]
  right := by rw [hnext.right, List.append_assoc]
  stem_left := by rw [hnext.stem_left, h.stem_left, List.map_append, List.append_assoc]
  stem_right := by rw [hnext.stem_right, h.stem_right, List.map_append, List.append_assoc]

lemma LeadsBy.alike {names : List String} (h : LeadsBy w l names p p' q q')
    (hnext : Alike w (l ++ names) q q' r r') : Alike w l p p' r r' := by
  obtain ⟨more, hmore⟩ := hnext
  exact ⟨names ++ more, h.trans hmore⟩

lemma alike_self (h : w.locate p = .ok l) (h' : w.locate p' = .ok l) : Alike w l p p' p p' :=
  ⟨[], by simpa using h, by simpa using h', by simp, by simp⟩

lemma LeadsBy.isFile_eq {names : List String} (h : LeadsBy w l names p p' q q') :
    w.isFile q = w.isFile q' := by
  rw [Bool.eq_iff_iff, Workspace.isFile_iff, Workspace.isFile_iff, h.left, h.right]

/-- A file is not the directory that the names start from. -/
lemma LeadsBy.names_ne_nil {names : List String} (h : LeadsBy w l names p p' q q')
    (hdir : w.tree.isDirectoryAt l = true) (hfile : w.isFile q = true) : names ≠ [] := by
  rintro rfl
  have hnot := not_isDirectory_of_isFile hfile
  rw [(Workspace.isDirectory_iff (by simpa using h.left)).2 hdir] at hnot
  exact Bool.false_ne_true hnot.symm

lemma isDirectory_congr (h : w.locate p = .ok l) (h' : w.locate p' = .ok l) :
    w.isDirectory p = w.isDirectory p' := by
  rw [Bool.eq_iff_iff, Workspace.isDirectory_iff h, Workspace.isDirectory_iff h']

lemma namesIn_congr (h : w.locate p = .ok l) (h' : w.locate p' = .ok l) :
    namesIn w p = namesIn w p' := by
  rw [namesIn, namesIn, h, h']

/-! ## One step -/

lemma leadsBy_child (hw : w.tree.WellFormed) (h : w.locate p = .ok l) (h' : w.locate p' = .ok l)
    (hsome : (w.tree.node? (l ++ [name])).isSome = true) :
    LeadsBy w l [name] p p' (child p name) (child p' name) where
  left := locate_child_validName h (hw.validName hsome (by simp)) (hw.parents hsome) hsome
  right := locate_child_validName h' (hw.validName hsome (by simp)) (hw.parents hsome) hsome
  stem_left := stem_child_validName (Workspace.text_ne_of_locate h) (hw.validName hsome (by simp))
  stem_right := stem_child_validName (Workspace.text_ne_of_locate h') (hw.validName hsome (by simp))

/-- A component that does not go up leads by one name or stays. -/
lemma exists_leadsBy_plain (h : w.locate p = .ok l) (h' : w.locate p' = .ok l)
    (hslash : '/' ∉ text) (hup : text ≠ ['.', '.'])
    (hstep : Workspace.step w.tree l text = .ok k)
    (hchild : w.locate (child p (.ofList text)) = .ok k)
    (hchild' : w.locate (child p' (.ofList text)) = .ok k) : ∃ names, k = l ++ names ∧
      LeadsBy w l names p p' (child p (.ofList text)) (child p' (.ofList text)) := by
  have hstem : ∀ p : Path, p.text ≠ "" → stem (child p (.ofList text)) =
      stem p ++ (Path.bodyComponent text).toList := by
    intro p hp
    rw [stem_child hp (by simpa using hslash), String.toList_ofList]
  have hleft := hstem p (Workspace.text_ne_of_locate h)
  have hright := hstem p' (Workspace.text_ne_of_locate h')
  rw [Path.bodyComponent] at hleft hright
  -- An idle piece leads nowhere, a name leads down, and `..` is left out.
  rcases (Workspace.step_eq_ok_iff.1 hstep).2 with
    ⟨hstay, rfl⟩ | ⟨hup', -⟩ | ⟨hne, hhere, -, -, -, rfl⟩
  · rw [if_pos hstay] at hleft hright
    exact ⟨[], by simp, by simpa using hchild, by simpa using hchild', hleft, hright⟩
  · exact absurd hup' hup
  · rw [if_neg (by simp [hne, hhere]), if_neg hup] at hleft hright
    exact ⟨_, rfl, hchild, hchild', hleft, hright⟩

/-! ## Everything below -/

lemma forall₂_flatMap {α β : Type} {R : β → β → Prop} {xs : List α} {f g : α → List β}
    (h : ∀ x ∈ xs, List.Forall₂ R (f x) (g x)) :
    List.Forall₂ R (xs.flatMap f) (xs.flatMap g) := by
  have hsame : List.Forall₂ (fun x y => x = y ∧ x ∈ xs) xs xs :=
    List.forall₂_same.2 fun x hx => ⟨rfl, hx⟩
  refine List.rel_flatMap hsame ?_
  rintro x _ ⟨rfl, hx⟩
  exact h x hx

/-- An entry and its name, one behind `p` and the other one behind `p'`. -/
def AlikeEntry (w : Workspace) (l : Location) (p p' : Path) (e e' : Path × String) : Prop :=
  e.2 = e'.2 ∧ ∃ names, names ≠ [] ∧ LeadsBy w l names p p' e.1 e'.1

/-- Below two paths of one directory stands the same, entry by entry. -/
lemma forall₂_descendants (hw : w.tree.WellFormed) (h : w.locate p = .ok l)
    (h' : w.locate p' = .ok l) :
    List.Forall₂ (AlikeEntry w l p p') (descendants w depth p) (descendants w depth p') := by
  induction depth generalizing p p' l with
  | zero => exact .nil
  | succ depth ih =>
      rw [descendants, descendants, namesIn_congr h h']
      refine forall₂_flatMap fun name hname => ?_
      have hsome := (mem_namesIn_iff h').1 hname
      have hchild := leadsBy_child hw h h' hsome
      refine .cons ⟨rfl, [name], by simp, hchild⟩ ?_
      rw [isDirectory_congr hchild.left hchild.right]
      split
      · refine (ih hchild.left hchild.right).imp ?_
        rintro e e' ⟨hname, names, hnames, hbelow⟩
        exact ⟨hname, [name] ++ names, by simp, hchild.trans hbelow⟩
      · exact .nil

/-! ## Searches -/

/-- Names behind a path lead away from the starting directory. -/
lemma LeadsBy.not_isStart {names : List String} (h : LeadsBy w l names p p' q q')
    (hnames : names ≠ []) : isStart q = false ∧ isStart q' = false := by
  have hne : ∀ {stem' : List Component}, stem' ++ names.map .name ≠ [] := fun hnil =>
    hnames (List.map_eq_nil_iff.1 (List.append_eq_nil_iff.1 hnil).2)
  constructor
  · by_contra hstart
    have hstem := h.stem_left
    rw [stem, if_pos (by simpa using hstart)] at hstem
    exact hne hstem.symm
  · by_contra hstart
    have hstem := h.stem_right
    rw [stem, if_pos (by simpa using hstart)] at hstem
    exact hne hstem.symm

/-- What a search finds, the directories left out. -/
def filesOf (w : Workspace) (accept : Path → Bool) (parts : List Part) (p : Path) : List Path :=
  (search w accept parts p).filter w.isFile

lemma filesOf_nil (h : w.isFile p = false) : filesOf w accept [] p = [] := by
  rw [filesOf, search]
  split
  · simp [h]
  · rfl

lemma filesOf_idle (hw : w.tree.WellFormed) (h : w.locate p = .ok l) :
    filesOf w accept [.plain []] p = [] := by
  refine List.eq_nil_iff_forall_not_mem.2 fun q hmem => ?_
  obtain ⟨hq, hfile⟩ := List.mem_filter.1 hmem
  obtain ⟨k, hstep, hchild, hq⟩ := step_of_mem_search_plain hw h (by simp) hq
  obtain ⟨hdir, ⟨-, rfl⟩ | ⟨hup, -⟩ | ⟨hne, -⟩⟩ := Workspace.step_eq_ok_iff.1 hstep
  · rw [search] at hq
    split at hq
    · obtain rfl := List.mem_singleton.1 hq
      have hnot := not_isDirectory_of_isFile hfile
      rw [(Workspace.isDirectory_iff hchild).2 hdir] at hnot
      exact Bool.false_ne_true hnot.symm
    · simp at hq
  · simp at hup
  · exact hne rfl

lemma filesOf_marked (hw : w.tree.WellFormed) (h : w.locate p = .ok l)
    (hspecials : parts = [] ∨ specials tokens = []) :
    filesOf w accept (.marked tokens :: parts) p = if w.isDirectory p then
      ((namesIn w p).filter fun name => matchesName tokens name.toList).flatMap fun name =>
        filesOf w accept parts (child p name) else [] := by
  rw [filesOf, search]
  split
  · rename_i hdirectory
    have hnone : (specials tokens).flatMap (fun name =>
        (search w accept parts (p.join ⟨name⟩)).filter w.isFile) = [] := by
      rw [List.flatMap_eq_nil_iff]
      intro name hname
      rcases hspecials with rfl | hspecials
      · exact filesOf_nil
          (not_isFile_join_special hw h ((Workspace.isDirectory_iff h).1 hdirectory) hname)
      · simp [hspecials] at hname
    rw [List.filter_append, List.filter_flatMap, List.filter_flatMap, hnone, List.nil_append]
    rfl
  · rfl

lemma filesOf_last_directories : filesOf w accept [.directories] p = [] := by
  refine List.eq_nil_iff_forall_not_mem.2 fun q hmem => ?_
  obtain ⟨hq, hfile⟩ := List.mem_filter.1 hmem
  rw [search] at hq
  split at hq
  · have hdir := (List.mem_filter.1 hq).2
    rw [not_isDirectory_of_isFile hfile] at hdir
    exact Bool.false_ne_true hdir
  · simp at hq

lemma filesOf_directories {part : Part} :
    filesOf w accept (.directories :: part :: parts) p = if w.isDirectory p then
      ((descendants w (depthOf w.tree) p).filter fun e => part.matchesName e.2).flatMap fun e =>
        filesOf w accept parts e.1 else [] := by
  rw [filesOf, search]
  split
  · rw [List.filter_flatMap]
    rfl
  · rfl

/-- Two paths of one place are accepted both or not. -/
def Impartial (w : Workspace) (accept : Path → Bool) : Prop :=
  ∀ p p' l, w.locate p = .ok l → w.locate p' = .ok l → accept p = accept p'

lemma forall₂_search (hw : w.tree.WellFormed) (haccept : Impartial w accept)
    (hup : goesUp parts = false) (hslash : ∀ text, Part.plain text ∈ parts → '/' ∉ text)
    (hstall : isStart p = true → stalls parts = false)
    (hstall' : isStart p' = true → stalls parts = false)
    (h : w.locate p = .ok l) (h' : w.locate p' = .ok l) :
    List.Forall₂ (Alike w l p p') (filesOf w accept parts p) (filesOf w accept parts p') := by
  induction parts using goesUp.induct generalizing p p' l with
  | case1 =>
      have hself := alike_self h h'
      rw [filesOf, filesOf, search, search, haccept p p' l h h']
      split
      · refine List.rel_filter ?_ (.cons hself .nil)
        rintro q q' ⟨names, hleads⟩
        simp only [hleads.isFile_eq]
      · exact .nil
  | case2 text parts ih =>
      obtain ⟨htext, hup⟩ := Bool.or_eq_false_iff.1 hup
      have hslash' := hslash text (by simp)
      -- Behind an idle last component there are directories only, and files are compared.
      by_cases hidle : parts = [] ∧ text = []
      · rw [hidle.1, hidle.2, filesOf_idle hw h, filesOf_idle hw h']
        exact .nil
      · have hparts : text = [] → parts ≠ [] := fun htext hparts => hidle ⟨hparts, htext⟩
        obtain ⟨hempty, hnext⟩ :=
          stalls_child (Workspace.text_ne_of_locate h) hslash' hparts hstall
        obtain ⟨hempty', hnext'⟩ :=
          stalls_child (Workspace.text_ne_of_locate h') hslash' hparts hstall'
        by_cases hstep : ∃ k, Workspace.step w.tree l text = .ok k
        · obtain ⟨k, hk⟩ := hstep
          obtain ⟨hsearch, hchild⟩ :=
            @search_plain_of_step w accept p l k text hw h hslash' hempty hk parts
          obtain ⟨hsearch', hchild'⟩ :=
            @search_plain_of_step w accept p' l k text hw h' hslash' hempty' hk parts
          obtain ⟨names, rfl, hleads⟩ :=
            exists_leadsBy_plain h h' hslash' (by simpa using htext) hk hchild hchild'
          rw [filesOf, filesOf, hsearch, hsearch']
          exact (ih hup (fun text htext => hslash text (List.mem_cons_of_mem _ htext)) hnext hnext'
            hchild hchild').imp fun _ _ => hleads.alike
        · have hstep' : ∀ k, Workspace.step w.tree l text ≠ .ok k := fun k hk => hstep ⟨k, hk⟩
          rw [filesOf, filesOf, search_plain_of_not_step h hslash' hempty hstep',
            search_plain_of_not_step h' hslash' hempty' hstep']
          exact .nil
  | case3 tokens parts ih =>
      obtain ⟨hspecials, hup⟩ := Bool.or_eq_false_iff.1 hup
      have hspecials' : parts = [] ∨ specials tokens = [] := by
        by_cases hparts : parts = []
        · exact .inl hparts
        · exact .inr (by simpa [hparts] using hspecials)
      rw [filesOf_marked hw h hspecials', filesOf_marked hw h' hspecials', isDirectory_congr h h',
        namesIn_congr h h']
      split
      · refine forall₂_flatMap fun name hname => ?_
        have hsome := (mem_namesIn_iff h').1 (List.mem_of_mem_filter hname)
        have hchild := leadsBy_child hw h h' hsome
        obtain ⟨hnext, hnext'⟩ := hchild.not_isStart (by simp)
        exact (ih hup (fun text htext => hslash text (List.mem_cons_of_mem _ htext))
          (fun hstart => by simp [hnext] at hstart) (fun hstart => by simp [hnext'] at hstart)
          hchild.left hchild.right).imp fun _ _ => hchild.alike
      · exact .nil
  | case4 =>
      rw [filesOf_last_directories, filesOf_last_directories]
      exact .nil
  | case5 part parts ih =>
      rw [filesOf_directories, filesOf_directories, isDirectory_congr h h']
      split
      · have hbelow : List.Forall₂ (AlikeEntry w l p p')
            ((descendants w (depthOf w.tree) p).filter fun e => part.matchesName e.2)
            ((descendants w (depthOf w.tree) p').filter fun e => part.matchesName e.2) := by
          refine List.rel_filter ?_ (forall₂_descendants hw h h')
          rintro e e' ⟨hname, -⟩
          simp only [hname]
        refine List.rel_flatMap hbelow ?_
        rintro e e' ⟨-, names, hnames, hleads⟩
        obtain ⟨hnext, hnext'⟩ := hleads.not_isStart hnames
        exact (ih hup (fun text htext => hslash text (List.mem_cons_of_mem _
            (List.mem_cons_of_mem _ htext)))
          (fun hstart => by simp [hnext] at hstart) (fun hstart => by simp [hnext'] at hstart)
          hleads.left hleads.right).imp fun _ _ => hleads.alike
      · exact .nil

/-! ## Order -/

lemma componentsLe_append (front as bs : List Component) :
    Path.componentsLe (front ++ as) (front ++ bs) = Path.componentsLe as bs := by
  induction front with
  | nil => rfl
  | cons c front ih => simpa [Path.componentsLe] using ih

/-- Sorting keeps side by side what is related, where the order does not tell the sides apart. -/
lemma forall₂_mergeSort {α : Type} {R : α → α → Prop} {le : α → α → Bool} {xs ys : List α}
    (h : List.Forall₂ R xs ys)
    (hle : ∀ a ∈ xs, ∀ b ∈ xs, ∀ a' b', R a a' → R b b' → le a b = le a' b') :
    List.Forall₂ R (xs.mergeSort le) (ys.mergeSort le) := by
  obtain ⟨hlength, hrel⟩ := List.forall₂_iff_zip.1 h
  -- Both sides are sorted at once, as pairs that are ordered by their left sides.
  have hleft : ((xs.zip ys).mergeSort fun a b => le a.1 b.1).map Prod.fst = xs.mergeSort le := by
    rw [List.map_mergeSort (s := le) fun _ _ _ _ => by rfl, List.map_fst_zip hlength.le]
  have hright : ((xs.zip ys).mergeSort fun a b => le a.1 b.1).map Prod.snd = ys.mergeSort le := by
    rw [List.map_mergeSort (s := le), List.map_snd_zip hlength.ge]
    rintro ⟨a, a'⟩ ha ⟨b, b'⟩ hb
    exact hle a (List.of_mem_zip ha).1 b (List.of_mem_zip hb).1 a' b' (hrel ha) (hrel hb)
  rw [← hleft, ← hright, List.forall₂_map_left_iff, List.forall₂_map_right_iff, List.forall₂_same]
  exact fun e he => hrel (List.mem_mergeSort.1 he)

lemma forall₂_sort {ps ps' : List Path} (hdir : w.tree.isDirectoryAt l = true)
    (hfiles : ∀ q ∈ ps, w.isFile q = true) (h : List.Forall₂ (Alike w l p p') ps ps') :
    List.Forall₂ (Alike w l p p') (Path.sort ps) (Path.sort ps') := by
  have hcomponents : ∀ q ∈ ps, ∀ q', Alike w l p p' q q' → ∃ names : List String,
      q.components = stem p ++ names.map .name ∧ q'.components = stem p' ++ names.map .name := by
    rintro q hq q' ⟨names, hleads⟩
    have hnames := hleads.names_ne_nil hdir (hfiles q hq)
    exact ⟨names, components_of_stem hleads.stem_left hnames,
      components_of_stem hleads.stem_right hnames⟩
  refine forall₂_mergeSort h fun q hq r hr q' r' hqq hrr => ?_
  obtain ⟨names, hleft, hright⟩ := hcomponents q hq q' hqq
  obtain ⟨names', hleft', hright'⟩ := hcomponents r hr r' hrr
  rw [Path.le, Path.le, hleft, hleft', hright, hright', componentsLe_append, componentsLe_append]

end Drydock.Glob
