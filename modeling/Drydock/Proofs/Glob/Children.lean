import Drydock.Proofs.FileTree.Spelling

/-!
# The paths of what is in a directory

A search goes down from a directory by names and keeps the spelling of the path it came by.  Where a
path leads, and which components it has, is settled name by name.

The starting directory is an exception to everything.  A search that starts at `.` names an entry of
it by its name alone, so the first name does not stand behind the components of `.` but in their
place.  `Glob.stem` takes this out of the way: it is empty for the starting directory, and then each
name adds its component to the stem (`Glob.stem_child`).

Below a directory a search knows only entries and their names, and it goes down to the depth of the
tree.  In a proper tree that reaches everything, so the descendants of a directory are the entries
below it (`Glob.mem_descendants_iff`).

* `Glob.stem` — the components of a path, of which the starting directory has none.
* `Glob.locate_child` — where a name in a directory leads.
* `Glob.mem_descendants_iff` — everything below a directory, by the names that lead to it.
-/

namespace Drydock.Glob

variable {w : Workspace} {p q : Path} {l k : Location} {name : String} {names : List String}

/-! ## One name further -/

/-- The components of a path; the starting directory has none. -/
def stem (p : Path) : List Component := if isStart p then [] else p.components

lemma isStart_iff : isStart p = true ↔ p.components = [.here] := by
  rw [isStart, decide_eq_true_eq]

lemma components_of_stem {front : List Component} (h : stem p = front ++ names.map .name)
    (hnames : names ≠ []) : p.components = front ++ names.map .name := by
  unfold stem at h
  split at h
  · have hnil := (List.append_eq_nil_iff.1 h.symm).2
    exact absurd (List.map_eq_nil_iff.1 hnil) hnames
  · exact h

lemma bodyComponent_ne_here (piece : List Char) : Path.bodyComponent piece ≠ some .here :=
  fun h => Bool.false_ne_true (Path.bodyComponent_spec h).1

lemma bodyComponent_validName (h : ValidName name) :
    Path.bodyComponent name.toList = some (.name name) := by
  rw [Path.bodyComponent, if_neg (by simp [h.ne_empty, h.ne_here]), if_neg h.ne_up,
    String.ofList_toList]

/-- A name adds its component to the stem, and an idle one adds nothing. -/
lemma stem_child (hp : p.text ≠ "") (h : '/' ∉ name.toList) :
    stem (child p name) = stem p ++ (Path.bodyComponent name.toList).toList := by
  have hbody : (Path.bodyComponent name.toList).toList ≠ [.here] := by
    intro hhere
    cases hc : Path.bodyComponent name.toList with
    | none => simp [hc] at hhere
    | some c =>
        have hc' : c = .here := by simpa [hc] using hhere
        exact bodyComponent_ne_here _ (hc.trans (by rw [hc']))
  unfold child
  -- At the start the name takes the place of the path, elsewhere it is joined.
  by_cases hstart : isStart p = true
  · rw [if_pos hstart, stem, stem, if_pos hstart, isStart, Path.components_name h]
    by_cases hhere : name.toList = ['.']
    · simp [hhere, Path.bodyComponent]
    · rw [if_neg hhere, if_neg (by simpa using hbody), List.nil_append]
  · have hjoin := Path.components_join hp h
    have hnot : ¬ isStart (p.join ⟨name⟩) = true := by
      rw [isStart_iff, hjoin]
      intro hhere
      rcases List.append_eq_singleton_iff.1 hhere with ⟨-, hlast⟩ | ⟨hfirst, -⟩
      · exact hbody hlast
      · exact hstart (isStart_iff.2 hfirst)
    rw [if_neg hstart, stem, stem, if_neg hstart, if_neg hnot, hjoin]

/-- The starting directory is where it starts. -/
lemma locate_of_isStart (hstart : isStart p = true) (h : w.locate p = .ok l) :
    l = w.directory ∧ w.tree.isDirectoryAt l = true := by
  have hcomponents := isStart_iff.1 hstart
  obtain ⟨first, rest, hpieces⟩ := List.exists_cons_of_ne_nil p.pieces_ne_nil
  rw [Path.components_of_pieces hpieces] at hcomponents
  have hrel : p.isAbsolute = false := by
    by_contra habs
    rw [if_pos (by simpa using habs)] at hcomponents
    simp at hcomponents
  rw [hrel, if_neg Bool.false_ne_true] at hcomponents
  have hrest : ∀ rest : List (List Char), Component.here ∉ rest.filterMap Path.bodyComponent := by
    intro rest hmem
    obtain ⟨piece, -, hpiece⟩ := List.mem_filterMap.1 hmem
    exact bodyComponent_ne_here piece hpiece
  have hfirst : first = ['.'] := by
    by_contra hne
    rw [if_neg hne] at hcomponents
    have hmem : Component.here ∈ (Path.bodyComponent first).toList ++
        rest.filterMap Path.bodyComponent := by simp [hcomponents]
    rcases List.mem_append.1 hmem with hmem | hmem
    · exact bodyComponent_ne_here first (Option.mem_toList.1 hmem)
    · exact hrest rest hmem
  rw [if_pos hfirst, List.singleton_append, List.cons.injEq] at hcomponents
  -- All components are one `.`, so every piece of the path stays.
  have hidle : ∀ piece ∈ p.pieces, piece = [] ∨ piece = ['.'] := by
    rw [hpieces, hfirst]
    intro piece hmem
    rcases List.mem_cons.1 hmem with rfl | hmem
    · exact .inr rfl
    · by_contra hother
      have hnone := List.filterMap_eq_nil_iff.1 hcomponents.2 piece hmem
      rw [Path.bodyComponent, if_neg hother] at hnone
      split at hnone
      · simp at hnone
      · simp at hnone
  have hwalk := (Workspace.locate_eq_ok_iff.1 h).2
  rw [Workspace.route_eq, hrel, if_neg Bool.false_ne_true] at hwalk
  have hl := Workspace.walk_idle hidle hwalk
  refine ⟨hl, ?_⟩
  rw [hpieces] at hwalk
  obtain ⟨_, hstep, -⟩ := Workspace.walk_cons_eq_ok_iff.1 hwalk
  rw [hl]
  exact (Workspace.step_eq_ok_iff.1 hstep).1

lemma locate_child (h : w.locate p = .ok l) (hslash : '/' ∉ name.toList)
    (hnul : '\x00' ∉ name.toList) (hname : isStart p = true → name.toList ≠ []) :
    w.locate (child p name) = .ok k ↔ Workspace.step w.tree l name.toList = .ok k := by
  unfold child
  by_cases hstart : isStart p = true
  · have hne := hname hstart
    have habs : (Path.mk name).isAbsolute = false := Path.isAbsolute_of_noSlash hslash
    have hpieces : (Path.mk name).pieces = [name.toList] := Text.splitChars_of_notMem hslash
    have hcheck : Workspace.checkPath ⟨name⟩ = .ok () := by
      rw [Workspace.checkPath_eq_ok_iff]
      refine ⟨hnul, ?_⟩
      rintro rfl
      exact hne rfl
    rw [if_pos hstart, (locate_of_isStart hstart h).1, Workspace.locate_eq_ok_iff,
      Workspace.route_eq, habs, if_neg Bool.false_ne_true, hpieces]
    simp [hcheck, Workspace.walk_cons_eq_ok_iff]
  · rw [if_neg hstart]
    exact Workspace.locate_join h hslash hnul

lemma locate_child_validName (h : w.locate p = .ok l) (hname : ValidName name)
    (hdir : w.tree.isDirectoryAt l = true) (hsome : (w.tree.node? (l ++ [name])).isSome = true) :
    w.locate (child p name) = .ok (l ++ [name]) :=
  (locate_child h hname.noSlash hname.noNul fun _ => hname.ne_empty).2
    ((Workspace.step_validName hname).2 ⟨hdir, hsome, rfl⟩)

lemma stem_child_validName (hp : p.text ≠ "") (hname : ValidName name) :
    stem (child p name) = stem p ++ [.name name] := by
  rw [stem_child hp hname.noSlash, bodyComponent_validName hname]
  rfl

/-! ## Names in a directory -/

lemma mem_namesIn_iff (h : w.locate p = .ok l) :
    name ∈ namesIn w p ↔ (w.tree.node? (l ++ [name])).isSome = true := by
  rw [namesIn, h]
  exact List.mem_mergeSort.trans FileTree.mem_children_iff

/-! ## Everything below a directory -/

/-- The path that some names lead to from a path. -/
def descend (p : Path) (names : List String) : Path := names.foldl child p

@[simp] lemma descend_nil (p : Path) : descend p [] = p := rfl

@[simp] lemma descend_cons (p : Path) (name : String) (names : List String) :
    descend p (name :: names) = descend (child p name) names := rfl

lemma locate_descend (hw : w.tree.WellFormed) (h : w.locate p = .ok l)
    (hsome : (w.tree.node? (l ++ names)).isSome = true) :
    w.locate (descend p names) = .ok (l ++ names) ∧
      stem (descend p names) = stem p ++ names.map .name := by
  induction names generalizing p l with
  | nil => simpa using h
  | cons name rest ih =>
      have hsplit : l ++ name :: rest = l ++ [name] ++ rest := by simp
      have hdir := hw.isDirectoryAt_of_append hsome (by simp)
      have hvalid : ValidName name := hw.validName hsome (by simp)
      rw [hsplit] at hsome
      have hlocate := locate_child_validName h hvalid hdir (hw.isSome_of_append hsome)
      obtain ⟨hlocate, hstem⟩ := ih hlocate hsome
      refine ⟨by rw [descend_cons, hlocate, hsplit], ?_⟩
      rw [descend_cons, hstem, stem_child_validName (Workspace.text_ne_of_locate h) hvalid]
      simp

/-- The descendants of a directory are the entries that some names lead to, by their last name. -/
lemma mem_descendants_iff (hw : w.tree.WellFormed) {depth : ℕ} (h : w.locate p = .ok l) :
    (q, name) ∈ descendants w depth p ↔ ∃ dirs, q = descend p (dirs ++ [name]) ∧
      (w.tree.node? (l ++ dirs ++ [name])).isSome = true ∧ dirs.length < depth := by
  induction depth generalizing p l with
  | zero => simp [descendants]
  | succ depth ih =>
      rw [descendants, List.mem_flatMap]
      constructor
      · rintro ⟨first, hfirst, hmem⟩
        rw [mem_namesIn_iff h] at hfirst
        have hvalid : ValidName first := hw.validName hfirst (by simp)
        have hdir := hw.parents hfirst
        have hchild := locate_child_validName h hvalid hdir hfirst
        rcases List.mem_cons.1 hmem with hhere | hbelow
        · obtain ⟨rfl, rfl⟩ := Prod.mk.inj hhere
          exact ⟨[], by simp, by simpa using hfirst, by simp⟩
        · split at hbelow
          · obtain ⟨dirs, rfl, hsome, hlength⟩ := (ih hchild).1 hbelow
            exact ⟨first :: dirs, by simp, by simpa using hsome, by simpa using hlength⟩
          · simp at hbelow
      · rintro ⟨dirs, rfl, hsome, hlength⟩
        -- Either the entry is one of the directory, or it is below one of its directories.
        cases dirs with
        | nil =>
            rw [List.append_nil] at hsome
            exact ⟨name, (mem_namesIn_iff h).2 hsome, by simp⟩
        | cons first dirs =>
            have hsplit : l ++ first :: dirs ++ [name] = l ++ [first] ++ (dirs ++ [name]) := by simp
            rw [hsplit] at hsome
            have hfirstdir := hw.isDirectoryAt_of_append hsome (by simp)
            have hfirst := hw.isSome_of_append hsome
            have hvalid : ValidName first := hw.validName hfirst (by simp)
            have hchild := locate_child_validName h hvalid (hw.parents hfirst) hfirst
            refine ⟨first, (mem_namesIn_iff h).2 hfirst, List.mem_cons_of_mem _ ?_⟩
            rw [if_pos ((Workspace.isDirectory_iff hchild).2 hfirstdir), ih hchild]
            exact ⟨dirs, by simp, by simpa using hsome, by simpa using hlength⟩

end Drydock.Glob
