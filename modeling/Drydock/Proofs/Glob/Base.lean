import Drydock.Proofs.Glob.Matches
import Drydock.Proofs.Glob.Parse

/-!
# The way to a base

The parts that a base puts in front of a pattern are the steps of a walk, so a search first walks to
the directory of the base and then looks for the pattern in it.

There are two ways to spell that directory.  `Glob.directoryOf` is the base as it is written, with
`.` in the place of an empty one, and `Glob.footOf` is the path that a search has come to when it
has used up the parts of the base: it starts anew at the root or at `.`, and the starting directory
does not show in what it finds.  They lead to the same place, and their components are the same up
to a leading `.`.

A search does not go on behind an empty component at the start, as there is one in `.//x`.  So the
lemmas ask that the parts do not stall.

* `Glob.directoryOf`, `Glob.footOf` — the directory of a base, as it is named and as the search
  comes by it.
* `Glob.mem_search_pieces`, `Glob.search_pieces` — a search behind plain components is a search at
  the end of them.
-/

namespace Drydock.Glob

variable {w : Workspace} {accept : Path → Bool} {base p q : Path} {l k : Location}
  {pieces : List (List Char)} {piece : List Char} {parts : List Part}

/-! ## Steps -/

lemma eq_here_of_isStart_child {name : String} (hslash : '/' ∉ name.toList)
    (hstart : isStart p = true) (h : isStart (child p name) = true) : name.toList = ['.'] := by
  rw [child, if_pos hstart, isStart_iff, Path.components_name hslash] at h
  by_contra hname
  rw [if_neg hname] at h
  exact bodyComponent_ne_here _ (Option.toList_eq_singleton_iff.1 h)

/-- Parts that do not stall go on from a name, and do not stall behind it. -/
lemma stalls_child (hp : p.text ≠ "") (hslash : '/' ∉ piece) (hparts : piece = [] → parts ≠ [])
    (hstall : isStart p = true → stalls (.plain piece :: parts) = false) :
    (isStart p = true → piece ≠ []) ∧
      (isStart (child p (.ofList piece)) = true → stalls parts = false) := by
  constructor
  · rintro hstart rfl
    have hstall' := hstall hstart
    simp [stalls, hparts rfl] at hstall'
  · intro hchild
    have hslash' : '/' ∉ (String.ofList piece).toList := by simpa using hslash
    have hstart := isStart_of_isStart_child hp hslash' hchild
    have hhere := eq_here_of_isStart_child hslash' hstart hchild
    rw [String.toList_ofList] at hhere
    have hstall' := hstall hstart
    simpa [stalls, hhere] using hstall'

lemma mem_search_pieces (hw : w.tree.WellFormed) (hslash : ∀ piece ∈ pieces, '/' ∉ piece)
    (h : w.locate p = .ok l) (hq : q ∈ search w accept (pieces.map .plain ++ parts) p) :
    ∃ k, Workspace.walk w.tree l pieces = .ok k ∧
      w.locate (descend p (pieces.map .ofList)) = .ok k ∧
      q ∈ search w accept parts (descend p (pieces.map .ofList)) := by
  induction pieces generalizing p l with
  | nil => exact ⟨l, rfl, h, hq⟩
  | cons piece rest ih =>
      obtain ⟨mid, hstep, hlocate, hq⟩ := step_of_mem_search_plain hw h (hslash piece (by simp)) hq
      obtain ⟨k, hwalk, hfoot, hq⟩ :=
        ih (fun piece hpiece => hslash piece (List.mem_cons_of_mem _ hpiece)) hlocate hq
      exact ⟨k, Workspace.walk_cons_eq_ok_iff.2 ⟨mid, hstep, hwalk⟩, hfoot, hq⟩

/-- Where parts that are pieces of a path do not stall, a search walks along them, and they add
their components to its path. -/
lemma search_pieces (hw : w.tree.WellFormed) (hslash : ∀ piece ∈ pieces, '/' ∉ piece)
    (hparts : parts ≠ []) (hstall : isStart p = true → stalls (pieces.map .plain ++ parts) = false)
    (h : w.locate p = .ok l) (hwalk : Workspace.walk w.tree l pieces = .ok k) :
    search w accept (pieces.map .plain ++ parts) p =
        search w accept parts (descend p (pieces.map .ofList)) ∧
      w.locate (descend p (pieces.map .ofList)) = .ok k ∧
      (isStart (descend p (pieces.map .ofList)) = true → stalls parts = false) ∧
      stem (descend p (pieces.map .ofList)) = stem p ++ pieces.filterMap Path.bodyComponent := by
  induction pieces generalizing p l with
  | nil =>
      obtain rfl := Except.ok.inj hwalk
      exact ⟨rfl, h, hstall, by simp⟩
  | cons piece rest ih =>
      obtain ⟨mid, hstep, hwalk⟩ := Workspace.walk_cons_eq_ok_iff.1 hwalk
      have hpiece : '/' ∉ piece := hslash piece (by simp)
      rw [List.map_cons, List.cons_append] at hstall
      obtain ⟨hempty, hrest⟩ :=
        stalls_child (Workspace.text_ne_of_locate h) hpiece (fun _ => by simp [hparts]) hstall
      obtain ⟨hsearch, hlocate⟩ :=
        @search_plain_of_step w accept p l mid piece hw h hpiece hempty hstep
          (rest.map .plain ++ parts)
      rw [List.map_cons, List.cons_append, hsearch, List.map_cons, descend_cons]
      obtain ⟨hsearch', hfoot, hstallFoot, hstem⟩ :=
        ih (fun piece hpiece => hslash piece (List.mem_cons_of_mem _ hpiece)) hrest hlocate hwalk
      -- The stem grows by the component of each piece, idle pieces adding nothing.
      refine ⟨hsearch', hfoot, hstallFoot, ?_⟩
      rw [hstem, stem_child (Workspace.text_ne_of_locate h) (by simpa using hpiece),
        String.toList_ofList, List.append_assoc, List.filterMap_cons]
      cases Path.bodyComponent piece with
      | none => rfl
      | some c => rfl

/-! ## Bases -/

/-- The pieces that lead to the directory of a base.  An empty base is the starting directory. -/
def leading (base : Path) : List (List Char) := if base.text = "" then [] else base.steps

/-- The path of the directory of a base. -/
def directoryOf (base : Path) : Path := if base.text = "" then ⟨"."⟩ else base

/-- The path at which the search for a base starts. -/
def originOf (base : Path) : Path := if base.isAbsolute then ⟨"/"⟩ else ⟨"."⟩

/-- The path of the directory of a base, as a search comes by it. -/
def footOf (base : Path) : Path := descend (originOf base) ((leading base).map .ofList)

lemma noSlash_of_mem_leading (h : piece ∈ leading base) : '/' ∉ piece := by
  unfold leading at h
  split at h
  · simp at h
  · exact Path.noSlash_of_mem_steps h

lemma locate_root (w : Workspace) : w.locate ⟨"/"⟩ = .ok [] := by
  refine Workspace.locate_eq_ok_iff.2 ⟨Workspace.checkPath_eq_ok_iff.2 (by decide), ?_⟩
  have hroute : w.route ⟨"/"⟩ = ([], [[]]) := rfl
  rw [hroute, Workspace.walk_cons_eq_ok_iff]
  exact ⟨[], Workspace.step_eq_ok_iff.2 ⟨FileTree.isDirectoryAt_nil _, .inl ⟨.inl rfl, rfl⟩⟩, rfl⟩

lemma locate_here (hw : w.WellFormed) : w.locate ⟨"."⟩ = .ok w.directory := by
  refine Workspace.locate_eq_ok_iff.2 ⟨Workspace.checkPath_eq_ok_iff.2 (by decide), ?_⟩
  have hroute : w.route ⟨"."⟩ = (w.directory, [['.']]) := rfl
  rw [hroute, Workspace.walk_cons_eq_ok_iff]
  exact ⟨w.directory, Workspace.step_eq_ok_iff.2 ⟨hw.directory, .inl ⟨.inr rfl, rfl⟩⟩, rfl⟩

lemma locate_originOf (hw : w.WellFormed) (base : Path) :
    w.locate (originOf base) = .ok (w.origin base) := by
  rw [originOf, Workspace.origin]
  split
  · exact locate_root w
  · exact locate_here hw

/-- The directory of a base is where its pieces lead. -/
lemma locate_directoryOf_iff (hw : w.WellFormed) (hdir : w.tree.isDirectoryAt l = true) :
    w.locate (directoryOf base) = .ok l ↔
      Workspace.walk w.tree (w.origin base) (leading base) = .ok l := by
  rw [directoryOf, leading]
  by_cases hbase : base.text = ""
  · have hrel : base.isAbsolute = false := by simp [Path.isAbsolute, hbase]
    have hstart := locate_originOf hw base
    rw [originOf, hrel, if_neg Bool.false_ne_true] at hstart
    rw [if_pos hbase, if_pos hbase, hstart, Workspace.walk_nil]
  · rw [if_neg hbase, if_neg hbase]
    refine ⟨Workspace.walk_steps_of_locate, fun hwalk => ?_⟩
    refine Workspace.locate_of_walk_steps (Workspace.checkPath_eq_ok_iff.2 ⟨?_, hbase⟩) hwalk hdir
    intro hnul
    obtain ⟨piece, hpiece, hmem⟩ := Path.exists_mem_steps hnul (by decide)
    exact Workspace.noNul_of_walk hw.tree hwalk hpiece hmem

end Drydock.Glob
