import Drydock.Proofs.Path.Join

/-!
# Paths that are made of names

A path that is put together from names has just these names as its components, and joined to another
path it adds them and nothing else.

This is how the objects of a build get their places.  A source is taken apart into components, its
steps up are renamed, and the result is put together again and joined to the directory for objects.
What is put together has to read back, so the pieces must be names in the sense of the reader: no
slash in them, and neither empty nor `.` nor `..` (`Path.isName_iff`).

* `Path.IsName` — texts that stand for themselves as a component.
* `Path.components_join_names` — the components of a path with names behind it.
* `Path.isName_of_mem` — the names of a path are names.
-/

namespace Drydock.Path

variable {p q : Path} {name : String} {names : List String} {piece : List Char}

/-- A text that is a name as a component: not empty, neither `.` nor `..`, and without slashes. -/
structure IsName (name : String) : Prop where
  body : bodyComponent name.toList = some (.name name)
  noSlash : '/' ∉ name.toList

lemma bodyComponent_eq_name_iff :
    bodyComponent piece = some (.name name) ↔
      piece ≠ [] ∧ piece ≠ ['.'] ∧ piece ≠ ['.', '.'] ∧ .ofList piece = name := by
  unfold bodyComponent
  split
  · rename_i hidle
    rcases hidle with rfl | rfl <;> simp
  · rename_i hidle
    obtain ⟨hnil, hhere⟩ := not_or.1 hidle
    split
    · rename_i hup
      simp [hup]
    · rename_i hup
      simp [hnil, hhere, hup]

lemma isName_iff : IsName name ↔ name.toList ≠ [] ∧ name.toList ≠ ['.'] ∧
    name.toList ≠ ['.', '.'] ∧ '/' ∉ name.toList := by
  constructor
  · rintro ⟨hbody, hslash⟩
    obtain ⟨hnil, hhere, hup, -⟩ := bodyComponent_eq_name_iff.1 hbody
    exact ⟨hnil, hhere, hup, hslash⟩
  · rintro ⟨hnil, hhere, hup, hslash⟩
    exact ⟨bodyComponent_eq_name_iff.2 ⟨hnil, hhere, hup, String.ofList_toList⟩, hslash⟩

lemma isName_of_bodyComponent (hslash : '/' ∉ piece)
    (h : bodyComponent piece = some (.name name)) : IsName name := by
  obtain ⟨hnil, hhere, hup, rfl⟩ := bodyComponent_eq_name_iff.1 h
  exact isName_iff.2 (by simpa using ⟨hnil, hhere, hup, hslash⟩)

lemma isName_of_mem (h : .name name ∈ p.components) : IsName name := by
  obtain ⟨first, rest, hpieces⟩ := List.exists_cons_of_ne_nil (pieces_ne_nil p)
  have hslash : ∀ piece ∈ first :: rest, '/' ∉ piece := fun piece hpiece =>
    Text.notMem_of_mem_splitChars (by rw [← pieces, hpieces]; exact hpiece)
  rw [components_of_pieces hpieces] at h
  rcases List.mem_append.1 h with hfirst | hrest
  · split at hfirst
    · simp at hfirst
    · split at hfirst
      · simp at hfirst
      · exact isName_of_bodyComponent (hslash first List.mem_cons_self) (by simpa using hfirst)
  · obtain ⟨piece, hpiece, hbody⟩ := List.mem_filterMap.1 hrest
    exact isName_of_bodyComponent (hslash piece (List.mem_cons_of_mem _ hpiece)) hbody

/-! ## Putting names together -/

lemma pieces_names (hne : names ≠ []) (h : ∀ name ∈ names, IsName name) :
    (Path.mk ("/".intercalate names)).pieces = names.map String.toList := by
  have hslash : ∀ piece ∈ names.map String.toList, '/' ∉ piece := by
    intro piece hpiece
    obtain ⟨name, hname, rfl⟩ := List.mem_map.1 hpiece
    exact (h name hname).noSlash
  rw [pieces, String.toList_intercalate]
  exact Text.splitChars_intercalate (by simpa using hne) hslash

lemma isAbsolute_names (hne : names ≠ []) (h : ∀ name ∈ names, IsName name) :
    (Path.mk ("/".intercalate names)).isAbsolute = false := by
  rw [isAbsolute, decide_eq_false_iff_not]
  intro habs
  obtain ⟨rest, hrest⟩ := List.head?_eq_some_iff.1 habs
  have hpieces := pieces_names hne h
  rw [pieces, hrest, Text.splitChars_cons_self] at hpieces
  obtain ⟨first, others, rfl⟩ := List.exists_cons_of_ne_nil hne
  exact (isName_iff.1 (h first List.mem_cons_self)).1 (List.cons.inj hpieces).1.symm

lemma filterMap_names (h : ∀ name ∈ names, IsName name) :
    (names.map String.toList).filterMap bodyComponent = names.map .name := by
  induction names with
  | nil => rfl
  | cons name rest ih =>
      have hrest := ih fun name hname => h name (List.mem_cons_of_mem _ hname)
      rw [List.map_cons, List.filterMap_cons_some (h name List.mem_cons_self).body, hrest]
      rfl

/-- A path that is put together from names has these components. -/
lemma components_names (hne : names ≠ []) (h : ∀ name ∈ names, IsName name) :
    (Path.mk ("/".intercalate names)).components = names.map .name := by
  obtain ⟨first, others, rfl⟩ := List.exists_cons_of_ne_nil hne
  have hfirst : IsName first := h first List.mem_cons_self
  have hothers := filterMap_names fun name hname => h name (List.mem_cons_of_mem _ hname)
  have hhere : first.toList ≠ ['.'] := (isName_iff.1 hfirst).2.1
  rw [components_of_pieces (pieces_names hne h), isAbsolute_names hne h,
    if_neg Bool.false_ne_true, if_neg hhere, hfirst.body, hothers]
  rfl

/-- Names that are joined to a path are added to its components. -/
lemma components_join_names (p : Path) (hne : names ≠ []) (h : ∀ name ∈ names, IsName name) :
    (p.join ⟨"/".intercalate names⟩).components = p.components ++ names.map .name := by
  by_cases hp : p.text = ""
  · have hempty : p.components = [] := by
      rw [show p = ⟨""⟩ from congrArg Path.mk hp]
      rfl
    rw [join, if_pos (.inr hp), components_names hne h, hempty, List.nil_append]
  · rw [components_join_relative hp (isAbsolute_names hne h), pieces_names hne h,
      filterMap_names h]

end Drydock.Path
