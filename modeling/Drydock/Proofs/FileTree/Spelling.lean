import Drydock.Proofs.FileTree.Join

/-!
# Spellings of a path

Paths are compared by their components, in which repeated slashes and idle pieces do not count.  A
walk does not move at such a piece, so two paths that are the same never lead to different places.

The converse fails: `..` is a component, and a path may go down and up again and come to the place
where another path leads at once.  Two such paths are different for a comparison and the same for
the file system.  Nor do two paths that are the same lead to a place both or neither, since a path
that ends with a slash has to lead to a directory.

The first piece of a path is special.  A `.` there is kept as a component, and an absolute path has
the root in its place.  So the lemmas speak of the body of a path, and say apart what stands in
front of it.

* `Path.filter_components` — the components of a path and its pieces.
* `Workspace.eq_of_same` — where two paths that are the same lead.
-/

namespace Drydock

/-! ## Components and pieces -/

namespace Component

/-- Whether a component stands behind the start of a path. -/
def inBody : Component → Bool
  | root => false
  | here => false
  | up => true
  | name _ => true

/-- The piece that a component is written as. -/
def piece : Component → List Char
  | root => []
  | here => ['.']
  | up => ['.', '.']
  | name s => s.toList

end Component

namespace Path

variable {p q : Path} {piece : List Char} {c : Component}

lemma bodyComponent_spec (h : bodyComponent piece = some c) :
    c.inBody = true ∧ c.piece = piece := by
  unfold bodyComponent at h
  split at h
  · simp at h
  · split at h
    · rename_i hup
      obtain rfl := Option.some.inj h
      exact ⟨rfl, hup.symm⟩
    · obtain rfl := Option.some.inj h
      exact ⟨rfl, String.toList_ofList⟩

lemma exists_pieces_of_isAbsolute (h : p.isAbsolute = true) : ∃ rest, p.pieces = [] :: rest := by
  obtain ⟨rest, hrest⟩ := List.head?_eq_some_iff.1 (of_decide_eq_true h)
  exact ⟨_, by rw [pieces, hrest, Text.splitChars_cons_self]⟩

lemma filter_filterMap_bodyComponent (pieces : List (List Char)) :
    (pieces.filterMap bodyComponent).filter (·.inBody) = pieces.filterMap bodyComponent := by
  refine List.filter_eq_self.2 fun c hc => ?_
  obtain ⟨piece, -, hpiece⟩ := List.mem_filterMap.1 hc
  exact (bodyComponent_spec hpiece).1

/-- Behind the start of a path, its components are those of its pieces. -/
lemma filter_components (p : Path) :
    p.components.filter (·.inBody) = p.pieces.filterMap bodyComponent := by
  obtain ⟨first, rest, hpieces⟩ := List.exists_cons_of_ne_nil p.pieces_ne_nil
  have hfirst : List.filter (·.inBody) (if p.isAbsolute then [Component.root]
      else if first = ['.'] then [.here] else (bodyComponent first).toList) =
        (bodyComponent first).toList := by
    -- What stands for the first piece is filtered to that piece, whatever it is.
    by_cases habs : p.isAbsolute = true
    · obtain ⟨rest', hrest'⟩ := exists_pieces_of_isAbsolute habs
      obtain ⟨rfl, -⟩ := List.cons.inj (hpieces.symm.trans hrest')
      rw [if_pos habs]
      rfl
    · rw [if_neg habs]
      by_cases hhere : first = ['.']
      · rw [if_pos hhere, hhere]
        rfl
      · rw [if_neg hhere]
        refine List.filter_eq_self.2 fun c hc => ?_
        exact (bodyComponent_spec (Option.mem_toList.1 hc)).1
  rw [components_of_pieces hpieces, List.filter_append, hfirst, filter_filterMap_bodyComponent,
    hpieces, List.filterMap_cons]
  cases bodyComponent first with
  | none => rfl
  | some c => rfl

lemma isAbsolute_iff : p.isAbsolute = true ↔ Component.root ∈ p.components := by
  obtain ⟨first, rest, hpieces⟩ := List.exists_cons_of_ne_nil p.pieces_ne_nil
  have hbody : ∀ piece, bodyComponent piece ≠ some .root := fun piece hpiece =>
    Bool.false_ne_true (bodyComponent_spec hpiece).1
  rw [components_of_pieces hpieces]
  constructor
  · intro habs
    simp [habs]
  · intro hroot
    by_contra habs
    rw [if_neg habs] at hroot
    rcases List.mem_append.1 hroot with hroot | hroot
    · split at hroot
      · simp at hroot
      · exact hbody first (Option.mem_toList.1 hroot)
    · obtain ⟨piece, -, hpiece⟩ := List.mem_filterMap.1 hroot
      exact hbody piece hpiece

lemma Same.isAbsolute_eq (h : p.Same q) : p.isAbsolute = q.isAbsolute := by
  rw [Bool.eq_iff_iff, isAbsolute_iff, isAbsolute_iff, show p.components = q.components from h]

/-- In front of the body of a relative path stands at most a `.`. -/
lemma components_of_relative (h : p.isAbsolute = false) : ∃ start : List Component,
    (∀ c ∈ start, c = .here) ∧ p.components = start ++ p.components.filter (·.inBody) := by
  obtain ⟨first, rest, hpieces⟩ := List.exists_cons_of_ne_nil p.pieces_ne_nil
  rw [filter_components, components_of_pieces hpieces, h, if_neg Bool.false_ne_true, hpieces]
  by_cases hhere : first = ['.']
  · refine ⟨[.here], by simp, ?_⟩
    rw [if_pos hhere, hhere]
    rfl
  · refine ⟨[], by simp, ?_⟩
    rw [if_neg hhere, List.filterMap_cons]
    cases bodyComponent first with
    | none => rfl
    | some c => rfl

lemma components_join_body (p : Path) (h : q.isAbsolute = false) : ∃ start : List Component,
    (∀ c ∈ start, c = .here) ∧ (p.join q).components =
      p.components ++ (start ++ q.components.filter (·.inBody)) := by
  by_cases hp : p.text = ""
  · have hempty : p.components = [] := by
      rw [show p = ⟨""⟩ from congrArg Path.mk hp]
      rfl
    obtain ⟨start, hstart, hq⟩ := components_of_relative h
    refine ⟨start, hstart, ?_⟩
    rw [join, if_pos (.inr hp), hempty, List.nil_append]
    exact hq
  · refine ⟨[], by simp, ?_⟩
    rw [components_join_relative hp h, filter_components, List.nil_append]

lemma filter_ne_here_eq_nil {start : List Component} (h : ∀ c ∈ start, c = .here) :
    start.filter (· ≠ .here) = [] := by
  refine List.filter_eq_nil_iff.2 fun c hc => ?_
  simp [h c hc]

lemma filter_ne_here_join (p : Path) (h : q.isAbsolute = false) :
    (p.join q).components.filter (· ≠ .here) =
      p.components.filter (· ≠ .here) ++ q.components.filter (· ≠ .here) := by
  obtain ⟨start, hstart, hjoin⟩ := components_join_body p h
  obtain ⟨start', hstart', hq⟩ := components_of_relative h
  have hbody : q.components.filter (· ≠ .here) =
      (q.components.filter (·.inBody)).filter (· ≠ .here) := by
    conv_lhs => rw [hq]
    rw [List.filter_append, filter_ne_here_eq_nil hstart', List.nil_append]
  rw [hjoin, List.filter_append, List.filter_append, filter_ne_here_eq_nil hstart, hbody,
    List.nil_append]

end Path

/-! ## Walks -/

namespace Workspace

variable {w : Workspace} {t : FileTree} {p q : Path} {start k l : Location}
  {pieces : List (List Char)}

/-- A walk only moves at the pieces that are components. -/
lemma walk_bodyComponents (h : walk t start pieces = .ok l) :
    walk t start ((pieces.filterMap Path.bodyComponent).map Component.piece) = .ok l := by
  induction pieces generalizing start with
  | nil => exact h
  | cons piece rest ih =>
      obtain ⟨mid, hstep, hwalk⟩ := walk_cons_eq_ok_iff.1 h
      rw [List.filterMap_cons]
      cases hpiece : Path.bodyComponent piece with
      | none =>
          have hidle : piece = [] ∨ piece = ['.'] := by
            by_contra hother
            rw [Path.bodyComponent, if_neg hother] at hpiece
            split at hpiece
            · simp at hpiece
            · simp at hpiece
          obtain rfl : mid = start := walk_idle (by simpa using hidle)
            (walk_cons_eq_ok_iff.2 ⟨mid, hstep, walk_nil⟩)
          exact ih hwalk
      | some c =>
          refine walk_cons_eq_ok_iff.2 ⟨mid, ?_, ih hwalk⟩
          rwa [(Path.bodyComponent_spec hpiece).2]

/-- A path leads where its components lead. -/
lemma walk_components_of_locate (h : w.locate p = .ok l) :
    walk w.tree (w.origin p) ((p.components.filter (·.inBody)).map Component.piece) = .ok l := by
  have hwalk := walk_bodyComponents (locate_eq_ok_iff.1 h).2
  rw [route_eq] at hwalk
  rw [Path.filter_components, origin]
  by_cases habs : p.isAbsolute = true
  · obtain ⟨rest, hrest⟩ := Path.exists_pieces_of_isAbsolute habs
    rw [if_pos habs, hrest, List.tail_cons] at hwalk
    rw [if_pos habs, hrest]
    exact hwalk
  · rw [if_neg habs] at hwalk ⊢
    exact hwalk

lemma eq_of_same (hsame : p.Same q) (hp : w.locate p = .ok k) (hq : w.locate q = .ok l) :
    k = l := by
  have hwalk := walk_components_of_locate hp
  have horigin : w.origin p = w.origin q := by rw [origin, origin, hsame.isAbsolute_eq]
  rw [show p.components = q.components from hsame, horigin] at hwalk
  exact Except.ok.inj (hwalk.symm.trans (walk_components_of_locate hq))

end Workspace

end Drydock
