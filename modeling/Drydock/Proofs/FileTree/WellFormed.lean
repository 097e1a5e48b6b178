import Drydock.FileTree.Access
import Drydock.Glob.Search
import Drydock.Proofs.FileTree.Walk
import Mathlib.Data.List.Induction

/-!
# Trees as a file system keeps them

A tree is an arbitrary list of entries.  The trees that a run can meet are those in which every
entry has proper names and stands in a directory; in them the names of a directory are the steps
that lead on from it.

A tree of this kind is what the search for patterns needs.  It goes down from a directory by the
names in it, and it stops at the depth of the tree; both would be off in a tree with an entry that
stands in no directory, which no walk can reach.  Names are proper when a walk takes them as
names: without slashes and NULs, not empty, not `.` or `..`, and no longer than the file system
allows.

Writing and removing keep a tree proper, so that the hypothesis is about the tree that a run begins
with.

* `FileTree.WellFormed` — proper names, and a directory above every entry.
* `FileTree.mem_children_iff` — the names of a directory.
* `FileTree.node?_erase` — what is left when an entry is taken away.
-/

namespace Drydock

/-! ## Names -/

/-- A name that an entry of a directory can have. -/
structure ValidName (name : String) : Prop where
  ne_empty : name.toList ≠ []
  ne_here : name.toList ≠ ['.']
  ne_up : name.toList ≠ ['.', '.']
  noSlash : '/' ∉ name.toList
  noNul : '\x00' ∉ name.toList
  short : name.utf8ByteSize ≤ Workspace.nameLimit

lemma validName_iff {name : String} : ValidName name ↔
    name.toList ≠ [] ∧ name.toList ≠ ['.'] ∧ name.toList ≠ ['.', '.'] ∧ '/' ∉ name.toList ∧
      '\x00' ∉ name.toList ∧ name.utf8ByteSize ≤ Workspace.nameLimit :=
  ⟨fun ⟨h₁, h₂, h₃, h₄, h₅, h₆⟩ => ⟨h₁, h₂, h₃, h₄, h₅, h₆⟩,
    fun ⟨h₁, h₂, h₃, h₄, h₅, h₆⟩ => ⟨h₁, h₂, h₃, h₄, h₅, h₆⟩⟩

instance (name : String) : Decidable (ValidName name) := decidable_of_iff' _ validName_iff

namespace FileTree

variable {t : FileTree} {l k : Location} {name : String} {names : List String} {node : Node}

/-- Every entry has proper names and stands in a directory. -/
structure WellFormed (t : FileTree) : Prop where
  validName : ∀ {l name}, (t.node? l).isSome = true → name ∈ l → ValidName name
  parents : ∀ {l name}, (t.node? (l ++ [name])).isSome = true → t.isDirectoryAt l = true

lemma isDirectoryAt_iff : t.isDirectoryAt l = true ↔ t.node? l = some .directory := by
  rw [isDirectoryAt, decide_eq_true_eq]

lemma isSome_of_isDirectoryAt (h : t.isDirectoryAt l = true) : (t.node? l).isSome = true := by
  rw [isDirectoryAt_iff.1 h]
  rfl

@[simp] lemma isDirectoryAt_nil (t : FileTree) : t.isDirectoryAt [] = true :=
  isDirectoryAt_iff.2 rfl

lemma mem_entries_of_node? (h : t.node? l = some node) (hl : l ≠ []) : (l, node) ∈ t.entries := by
  rw [node?, if_neg hl] at h
  induction hentries : t.entries generalizing t with
  | nil => simp [hentries] at h
  | cons e rest ih =>
      obtain ⟨j, other⟩ := e
      rw [hentries] at h
      by_cases hj : l = j
      · subst hj
        rw [List.lookup_cons_self, Option.some.injEq] at h
        simp [h]
      · rw [lookup_cons_of_ne hj] at h
        exact List.mem_cons_of_mem _ (ih (t := ⟨rest⟩) h rfl)

lemma node?_isSome_of_mem_entries (h : (l, node) ∈ t.entries) : (t.node? l).isSome = true := by
  by_cases hl : l = []
  · simp [node?, hl]
  · rw [node?, if_neg hl, List.lookup_isSome_iff]
    exact ⟨(l, node), h, by simp⟩

lemma mem_children_iff : name ∈ t.children l ↔ (t.node? (l ++ [name])).isSome = true := by
  rw [children, List.mem_filterMap]
  constructor
  · rintro ⟨⟨j, node⟩, hmem, hname⟩
    dsimp only at hname
    split at hname
    · rename_i hparent
      obtain ⟨front, rfl⟩ := List.getLast?_eq_some_iff.1 hname
      rw [List.dropLast_concat] at hparent
      subst hparent
      exact node?_isSome_of_mem_entries hmem
    · simp at hname
  · intro h
    obtain ⟨node, hnode⟩ := Option.isSome_iff_exists.1 h
    exact ⟨_, mem_entries_of_node? hnode (by simp), by simp⟩

lemma length_le_depthOf (h : (t.node? l).isSome = true) : l.length ≤ Glob.depthOf t := by
  -- The depth is a maximum over the entries, taken from the left.
  have hle : ∀ (ns : List ℕ) (start : ℕ), start ≤ ns.foldl max start ∧
      ∀ n ∈ ns, n ≤ ns.foldl max start := by
    intro ns
    induction ns with
    | nil => simp
    | cons n ns ih =>
        intro start
        obtain ⟨hstart, hmem⟩ := ih (max start n)
        rw [List.foldl_cons]
        refine ⟨by omega, fun k hk => ?_⟩
        rcases List.mem_cons.1 hk with rfl | hk
        · omega
        · exact hmem k hk
  by_cases hl : l = []
  · simp [hl]
  · obtain ⟨node, hnode⟩ := Option.isSome_iff_exists.1 h
    exact (hle _ 0).2 _ (List.mem_map.2 ⟨_, mem_entries_of_node? hnode hl, rfl⟩)

namespace WellFormed

/-- A list of entries is a proper tree when each of them has proper names and a directory above. -/
lemma of_entries (hnames : ∀ e ∈ t.entries, ∀ name ∈ e.1, ValidName name)
    (hparents : ∀ e ∈ t.entries, t.isDirectoryAt e.1.dropLast = true) : t.WellFormed where
  validName := by
    intro l name h hname
    obtain ⟨node, hnode⟩ := Option.isSome_iff_exists.1 h
    exact hnames _ (mem_entries_of_node? hnode (List.ne_nil_of_mem hname)) name hname
  parents := by
    intro l name h
    obtain ⟨node, hnode⟩ := Option.isSome_iff_exists.1 h
    simpa using hparents _ (mem_entries_of_node? hnode (by simp))

/-- Everything above an entry is a directory. -/
lemma isDirectoryAt_of_append (hw : t.WellFormed) (h : (t.node? (l ++ names)).isSome = true)
    (hnames : names ≠ []) : t.isDirectoryAt l = true := by
  induction names using List.reverseRecOn with
  | nil => exact absurd rfl hnames
  | append_singleton front name ih =>
      rw [← List.append_assoc] at h
      have hdir := hw.parents h
      by_cases hfront : front = []
      · simpa [hfront] using hdir
      · exact ih (isSome_of_isDirectoryAt hdir) hfront

lemma isSome_of_append (hw : t.WellFormed) (h : (t.node? (l ++ names)).isSome = true) :
    (t.node? l).isSome = true := by
  by_cases hnames : names = []
  · simpa [hnames] using h
  · exact isSome_of_isDirectoryAt (hw.isDirectoryAt_of_append h hnames)

/-- Above a directory is a directory; above the root is the root. -/
lemma isDirectoryAt_dropLast (hw : t.WellFormed) (hdir : t.isDirectoryAt l = true) :
    t.isDirectoryAt l.dropLast = true := by
  cases l using List.reverseRecOn with
  | nil => exact hdir
  | append_singleton front last =>
      rw [List.dropLast_concat]
      exact hw.parents (isSome_of_isDirectoryAt hdir)

end WellFormed

/-! ## Taking an entry away -/

lemma node?_erase (hl : l ≠ []) : (t.erase l).node? k = if k = l then none else t.node? k := by
  -- An entry may be shadowed by another one of the same place, and both are erased.
  have hlookup : ∀ entries : List (Location × Node),
      (entries.filter (·.1 ≠ l)).lookup k = if k = l then none else entries.lookup k := by
    intro entries
    induction entries with
    | nil => simp
    | cons e rest ih =>
        obtain ⟨j, node⟩ := e
        by_cases hj : j = l
        · subst hj
          rw [List.filter_cons_of_neg (by simp), ih]
          split
          · rfl
          · rename_i hk
            rw [lookup_cons_of_ne hk]
        · rw [List.filter_cons_of_pos (by simpa using hj)]
          by_cases hk : k = j
          · subst hk
            rw [List.lookup_cons_self, List.lookup_cons_self, if_neg hj]
          · rw [lookup_cons_of_ne hk, lookup_cons_of_ne hk, ih]
  by_cases hk : k = []
  · subst hk
    simp [node?, Ne.symm hl]
  · rw [node?, if_neg hk, erase, hlookup, node?, if_neg hk]

lemma ne_nil_of_file {contents : Bytes} {executable : Bool}
    (h : t.node? l = some (.file contents executable)) : l ≠ [] := by
  rintro rfl
  simp [node?] at h

end FileTree

namespace Workspace

variable {w : Workspace} {t : FileTree} {l k j : Location} {name : String} {names : List String}
  {p : Path}

/-! ## Steps to proper names -/

lemma step_validName (hname : ValidName name) : step t l name.toList = .ok k ↔
    t.isDirectoryAt l = true ∧ (t.node? (l ++ [name])).isSome = true ∧ k = l ++ [name] := by
  rw [step_eq_ok_iff]
  simp [hname.ne_empty, hname.ne_here, hname.ne_up, hname.short]

lemma noNul_of_step {piece : List Char} (hw : t.WellFormed) (h : step t l piece = .ok k) :
    '\x00' ∉ piece := by
  rcases (step_eq_ok_iff.1 h).2 with ⟨rfl | rfl, -⟩ | ⟨rfl, -⟩ | ⟨-, -, -, -, hsome, -⟩
  · simp
  · simp
  · simp
  · have hvalid : ValidName (.ofList piece) := hw.validName hsome (by simp)
    simpa using hvalid.noNul

/-- No walk leads along a piece with a NUL. -/
lemma noNul_of_walk {pieces : List (List Char)} {piece : List Char} (hw : t.WellFormed)
    (h : walk t l pieces = .ok k) (hpiece : piece ∈ pieces) : '\x00' ∉ piece := by
  induction pieces generalizing l with
  | nil => simp at hpiece
  | cons first rest ih =>
      obtain ⟨mid, hstep, hwalk⟩ := walk_cons_eq_ok_iff.1 h
      rcases List.mem_cons.1 hpiece with rfl | hpiece
      · exact noNul_of_step hw hstep
      · exact ih hwalk hpiece

end Workspace

end Drydock
