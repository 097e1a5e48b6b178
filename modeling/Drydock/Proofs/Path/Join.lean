import Drydock.Path
import Drydock.Proofs.Text.Cuts

/-!
# The pieces of joined paths

Joining puts the pieces of one path behind those of another, whether or not a slash stands between
them already.  The components of the joined path follow from its pieces.

A text is cut at its slashes into pieces, empty ones included, so that nothing is lost; a path that
ends with a slash has an empty last piece, which joining replaces (`Path.openPieces`).  Components
forget the empty pieces and the idle ones, but the first piece of a path is read in its own way: an
empty one makes the path absolute, and a `.` is kept.  That is why the laws about components ask
what the second path begins with.

* `Path.pieces_join` — the pieces of a joined path.
* `Path.components_join_relative` — the components of a joined path.
* `Path.components_join` — one more name is at most one more component.
-/

namespace Drydock

namespace Path

variable {p q : Path} {name : String} {first : List Char} {rest : List (List Char)}

/-- The pieces of a path between slashes. -/
def pieces (p : Path) : List (List Char) := Text.splitChars '/' p.text.toList

/-- The pieces that a joined path starts with.  A slash at the end of a path opens no piece when
something is joined to it. -/
def openPieces (p : Path) : List (List Char) :=
  if p.text.toList.getLast? = some '/' then p.pieces.dropLast else p.pieces

lemma pieces_ne_nil (p : Path) : p.pieces ≠ [] := Text.splitChars_ne_nil '/' _

lemma toList_ne_nil (hp : p.text ≠ "") : p.text.toList ≠ [] := by
  intro h
  exact hp (by rw [← String.ofList_toList (s := p.text), h])

/-- A path that ends with a slash has an empty last piece. -/
lemma pieces_eq_openPieces (p : Path) :
    p.pieces = p.openPieces ∨ p.pieces = p.openPieces ++ [[]] := by
  unfold openPieces
  split
  · rename_i hslash
    obtain ⟨front, hfront⟩ := List.getLast?_eq_some_iff.1 hslash
    have hpieces : p.pieces = Text.splitChars '/' front ++ [[]] := by
      rw [pieces, hfront, Text.splitChars_append]
      rfl
    right
    rw [hpieces, List.dropLast_concat]
  · exact .inl rfl

lemma openPieces_ne_nil (p : Path) : p.openPieces ≠ [] := by
  unfold openPieces
  split
  · rename_i hslash
    obtain ⟨front, hfront⟩ := List.getLast?_eq_some_iff.1 hslash
    rw [pieces, hfront, Text.splitChars_append]
    simpa [Text.splitChars] using Text.splitChars_ne_nil '/' front
  · exact pieces_ne_nil p

/-- The pieces that lead to the directory of a path: its open pieces, behind the root where it has
one. -/
def steps (p : Path) : List (List Char) := if p.isAbsolute then p.openPieces.tail else p.openPieces

lemma mem_openPieces_of_mem_steps {piece : List Char} (h : piece ∈ p.steps) :
    piece ∈ p.openPieces := by
  unfold steps at h
  split at h
  · exact List.mem_of_mem_tail h
  · exact h

lemma noSlash_of_mem_steps {piece : List Char} (h : piece ∈ p.steps) : '/' ∉ piece := by
  have hopen := mem_openPieces_of_mem_steps h
  have hmem : piece ∈ p.pieces := by
    rcases pieces_eq_openPieces p with hsame | hmore
    · rwa [hsame]
    · rw [hmore]
      exact List.mem_append_left _ hopen
  exact Text.notMem_of_mem_splitChars hmem

/-- Every character of a path but the slashes stands in one of its steps. -/
lemma exists_mem_steps {c : Char} (hc : c ∈ p.text.toList) (hslash : c ≠ '/') :
    ∃ piece ∈ p.steps, c ∈ piece := by
  obtain ⟨piece, hpiece, hmem⟩ := Text.exists_mem_splitChars hc hslash
  have hopen : piece ∈ p.openPieces := by
    rcases pieces_eq_openPieces p with hsame | hmore
    · rwa [← hsame]
    · rw [← pieces, hmore] at hpiece
      rcases List.mem_append.1 hpiece with hpiece | hlast
      · exact hpiece
      · rw [List.mem_singleton.1 hlast] at hmem
        simp at hmem
  refine ⟨piece, ?_, hmem⟩
  unfold steps
  split
  · -- The piece in front of the first slash is empty.
    rename_i habs
    obtain ⟨rest, hrest⟩ := List.head?_eq_some_iff.1 (of_decide_eq_true habs)
    have hfirst : p.pieces = [] :: Text.splitChars '/' rest := by
      rw [pieces, hrest, Text.splitChars_cons_self]
    obtain ⟨first, others, hothers⟩ := List.exists_cons_of_ne_nil (openPieces_ne_nil p)
    have hempty : first = [] := by
      rcases pieces_eq_openPieces p with hsame | hmore
      · rw [hsame, hothers] at hfirst
        exact (List.cons.inj hfirst).1
      · rw [hmore, hothers, List.cons_append] at hfirst
        exact (List.cons.inj hfirst).1
    rw [hothers, hempty] at hopen
    rw [hothers, List.tail_cons]
    rcases List.mem_cons.1 hopen with rfl | hopen
    · simp at hmem
    · exact hopen
  · exact hopen

lemma isAbsolute_of_noSlash (h : '/' ∉ q.text.toList) : q.isAbsolute = false := by
  rw [isAbsolute, decide_eq_false_iff_not]
  exact fun hhead => h (List.mem_of_mem_head? (by simp [hhead]))

lemma steps_name (h : '/' ∉ name.toList) : (Path.mk name).steps = [name.toList] := by
  have hlast : name.toList.getLast? ≠ some '/' := fun hlast => h (List.mem_of_getLast? hlast)
  have habs : (Path.mk name).isAbsolute = false := isAbsolute_of_noSlash h
  rw [steps, habs, if_neg Bool.false_ne_true, openPieces, if_neg hlast]
  exact Text.splitChars_of_notMem h

/-- Between a path and what is joined to it stands a slash. -/
lemma toList_join (hp : p.text ≠ "") (hq : q.isAbsolute = false) : ∃ front,
    (p.join q).text.toList = front ++ '/' :: q.text.toList ∧ front ⊆ p.text.toList ∧
      p.openPieces = Text.splitChars '/' front := by
  rw [join, if_neg (by simp [hq, hp]), openPieces]
  by_cases hslash : p.text.toList.getLast? = some '/'
  · rw [if_pos hslash, if_pos hslash]
    obtain ⟨front, hfront⟩ := List.getLast?_eq_some_iff.1 hslash
    refine ⟨front, by simp [String.toList_append, hfront], by simp [hfront], ?_⟩
    rw [pieces, hfront, Text.splitChars_append]
    simp [Text.splitChars]
  · rw [if_neg hslash, if_neg hslash]
    exact ⟨p.text.toList, by simp [String.toList_append], List.Subset.refl _, rfl⟩

lemma pieces_join (hp : p.text ≠ "") (hq : q.isAbsolute = false) :
    (p.join q).pieces = p.openPieces ++ q.pieces := by
  obtain ⟨front, htext, -, hopen⟩ := toList_join hp hq
  rw [pieces, htext, Text.splitChars_append, hopen]
  rfl

lemma isAbsolute_join (hp : p.text ≠ "") (hq : q.isAbsolute = false) :
    (p.join q).isAbsolute = p.isAbsolute := by
  obtain ⟨c, cs, hcs⟩ := List.exists_cons_of_ne_nil (toList_ne_nil hp)
  rw [join, if_neg (by simp [hq, hp])]
  split
  · simp [isAbsolute, String.toList_append, hcs]
  · simp [isAbsolute, String.toList_append, hcs]

/-! ## Components -/

lemma components_of_pieces (h : p.pieces = first :: rest) : p.components =
    (if p.isAbsolute then [Component.root] else if first = ['.'] then [.here]
      else (bodyComponent first).toList) ++ rest.filterMap bodyComponent := by
  unfold components
  unfold pieces at h
  rw [h]

lemma components_name (h : '/' ∉ name.toList) : (Path.mk name).components =
    if name.toList = ['.'] then [.here] else (bodyComponent name.toList).toList := by
  have hpieces : (Path.mk name).pieces = [name.toList] := Text.splitChars_of_notMem h
  rw [components_of_pieces hpieces, isAbsolute_of_noSlash h, if_neg Bool.false_ne_true]
  simp

/-- Behind the first piece of a path, the pieces of a relative path stand for themselves. -/
lemma components_join_relative (hp : p.text ≠ "") (hq : q.isAbsolute = false) :
    (p.join q).components = p.components ++ q.pieces.filterMap bodyComponent := by
  obtain ⟨first, rest, hopen⟩ := List.exists_cons_of_ne_nil (openPieces_ne_nil p)
  have hjoin : (p.join q).pieces = first :: (rest ++ q.pieces) := by
    rw [pieces_join hp hq, hopen, List.cons_append]
  rw [components_of_pieces hjoin, isAbsolute_join hp hq, List.filterMap_append,
    ← List.append_assoc]
  rcases pieces_eq_openPieces p with hsame | hslash
  · rw [components_of_pieces (hsame.trans hopen)]
  · rw [components_of_pieces (hslash.trans (by rw [hopen, List.cons_append])),
      List.filterMap_append]
    simp [bodyComponent]

/-- One more name is one more component, or none where it is idle. -/
lemma components_join (hp : p.text ≠ "") (h : '/' ∉ name.toList) :
    (p.join ⟨name⟩).components = p.components ++ (bodyComponent name.toList).toList := by
  have hname : (Path.mk name).pieces = [name.toList] := Text.splitChars_of_notMem h
  rw [components_join_relative hp (isAbsolute_of_noSlash h), hname]
  cases hc : bodyComponent name.toList with
  | none => simp [hc]
  | some c => simp [hc]

end Path

end Drydock
