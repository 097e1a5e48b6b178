import Drydock.Proofs.FileTree.Join

/-!
# Files that are taken away

Whatever files are taken away from a tree, the rest of it stays as it is: directories stay, and
every path leads where it led unless it led to one of the files.

That is more than it seems.  A path can pass through a file in no way, not even with `..` behind it,
so a file that is gone is missed only by paths that ended at it.  Were directories taken away, paths
through them would be lost, and what patterns find would depend on the order of removals.

The files that are gone are a predicate on locations and not a list.  What cleaning removes is
described by patterns, and the predicates of several removals are put together by `∨`.

* `Workspace.Loses` — one workspace is another one without some files.
* `Workspace.Loses.locate_iff` — where paths lead without the files.
* `Workspace.exists_remove`, `Workspace.loses_of_remove` — removing a file takes that file away.
-/

namespace Drydock.Workspace

variable {w w' w'' : Workspace} {gone gone' : Location → Prop} {j k l : Location}
  {piece : List Char} {pieces : List (List Char)} {p : Path} {contents : Bytes}
  {executable : Bool}

/-- The second workspace is the first one without the files at some locations. -/
structure Loses (w w' : Workspace) (gone : Location → Prop) : Prop where
  directory : w'.directory = w.directory
  files : ∀ k, gone k →
    ∃ contents executable, w.tree.node? k = some (.file contents executable)
  absent : ∀ k, gone k → w'.tree.node? k = none
  rest : ∀ k, ¬ gone k → w'.tree.node? k = w.tree.node? k

namespace Loses

lemma refl (w : Workspace) : Loses w w fun _ => False where
  directory := rfl
  files _ h := h.elim
  absent _ h := h.elim
  rest _ _ := rfl

lemma trans (h : Loses w w' gone) (h' : Loses w' w'' gone') :
    Loses w w'' fun k => gone k ∨ gone' k where
  directory := h'.directory.trans h.directory
  files := by
    rintro k (hk | hk)
    · exact h.files k hk
    · obtain ⟨contents, executable, hfile⟩ := h'.files k hk
      -- A file that the second removal takes was there for the first one, unless that took it.
      by_cases hgone : gone k
      · exact h.files k hgone
      · exact ⟨contents, executable, (h.rest k hgone).symm.trans hfile⟩
  absent := by
    rintro k hk
    by_cases hgone' : gone' k
    · exact h'.absent k hgone'
    · rw [h'.rest k hgone']
      exact h.absent k (hk.resolve_right hgone')
  rest := by
    intro k hk
    obtain ⟨hgone, hgone'⟩ := not_or.1 hk
    rw [h'.rest k hgone', h.rest k hgone]

lemma congr (h : Loses w w' gone) (heq : ∀ k, gone k ↔ gone' k) : Loses w w' gone' := by
  obtain rfl : gone = gone' := funext fun k => propext (heq k)
  exact h

lemma not_gone_of_isDirectoryAt (h : Loses w w' gone) (hdir : w.tree.isDirectoryAt k = true) :
    ¬ gone k := by
  intro hk
  obtain ⟨contents, executable, hfile⟩ := h.files k hk
  rw [FileTree.isDirectoryAt_iff, hfile] at hdir
  simp at hdir

lemma isSome_iff (h : Loses w w' gone) :
    (w'.tree.node? k).isSome = true ↔ (w.tree.node? k).isSome = true ∧ ¬ gone k := by
  by_cases hk : gone k
  · simp [h.absent k hk, hk]
  · simp [h.rest k hk, hk]

lemma isDirectoryAt_eq (h : Loses w w' gone) (k : Location) :
    w'.tree.isDirectoryAt k = w.tree.isDirectoryAt k := by
  by_cases hk : gone k
  · obtain ⟨contents, executable, hfile⟩ := h.files k hk
    rw [FileTree.isDirectoryAt, FileTree.isDirectoryAt, h.absent k hk, hfile]
    rfl
  · rw [FileTree.isDirectoryAt, FileTree.isDirectoryAt, h.rest k hk]

/-- The tree has changed where the files were. -/
lemma node?_ne_iff (h : Loses w w' gone) : w'.tree.node? k ≠ w.tree.node? k ↔ gone k := by
  constructor
  · exact fun hne => by_contra fun hk => hne (h.rest k hk)
  · intro hk
    obtain ⟨contents, executable, hfile⟩ := h.files k hk
    simp [h.absent k hk, hfile]

lemma wellFormed (h : Loses w w' gone) (hw : w.WellFormed) : w'.WellFormed where
  tree :=
    { validName := fun hsome => hw.tree.validName (h.isSome_iff.1 hsome).1
      parents := fun hsome => by
        rw [h.isDirectoryAt_eq]
        exact hw.tree.parents (h.isSome_iff.1 hsome).1 }
  directory := by
    rw [h.isDirectoryAt_eq, h.directory]
    exact hw.directory

/-! ## Paths -/

lemma step_iff (h : Loses w w' gone) (hw : w.tree.WellFormed) :
    step w'.tree j piece = .ok k ↔ step w.tree j piece = .ok k ∧ ¬ gone k := by
  rw [step_eq_ok_iff, step_eq_ok_iff, h.isDirectoryAt_eq]
  constructor
  · rintro ⟨hdir, hstay | hup | ⟨hempty, hhere, hup, hshort, hsome, rfl⟩⟩
    -- Staying and going up end at directories, which are never gone.
    · refine ⟨⟨hdir, .inl hstay⟩, ?_⟩
      rw [hstay.2]
      exact h.not_gone_of_isDirectoryAt hdir
    · refine ⟨⟨hdir, .inr (.inl hup)⟩, ?_⟩
      rw [hup.2]
      exact h.not_gone_of_isDirectoryAt (hw.isDirectoryAt_dropLast hdir)
    · obtain ⟨hsome, hk⟩ := h.isSome_iff.1 hsome
      exact ⟨⟨hdir, .inr (.inr ⟨hempty, hhere, hup, hshort, hsome, rfl⟩)⟩, hk⟩
  · rintro ⟨⟨hdir, hstay | hup | ⟨hempty, hhere, hup, hshort, hsome, rfl⟩⟩, hk⟩
    · exact ⟨hdir, .inl hstay⟩
    · exact ⟨hdir, .inr (.inl hup)⟩
    · exact ⟨hdir, .inr (.inr ⟨hempty, hhere, hup, hshort, h.isSome_iff.2 ⟨hsome, hk⟩, rfl⟩)⟩

lemma walk_iff (h : Loses w w' gone) (hw : w.tree.WellFormed) (hj : ¬ gone j) :
    walk w'.tree j pieces = .ok k ↔ walk w.tree j pieces = .ok k ∧ ¬ gone k := by
  induction pieces generalizing j with
  | nil =>
      rw [walk_nil, walk_nil]
      constructor
      · intro hk
        obtain rfl := Except.ok.inj hk
        exact ⟨rfl, hj⟩
      · exact fun hk => hk.1
  | cons piece rest ih =>
      rw [walk_cons_eq_ok_iff, walk_cons_eq_ok_iff]
      constructor
      · rintro ⟨mid, hstep, hwalk⟩
        obtain ⟨hstep, hmid⟩ := (h.step_iff hw).1 hstep
        obtain ⟨hwalk, hk⟩ := (ih hmid).1 hwalk
        exact ⟨⟨mid, hstep, hwalk⟩, hk⟩
      · rintro ⟨⟨mid, hstep, hwalk⟩, hk⟩
        -- A walk that goes on does so from a directory, and ends somewhere else otherwise.
        have hmid : ¬ gone mid := by
          cases rest with
          | nil =>
              obtain rfl := Except.ok.inj hwalk
              exact hk
          | cons next rest =>
              obtain ⟨_, hnext, -⟩ := walk_cons_eq_ok_iff.1 hwalk
              exact h.not_gone_of_isDirectoryAt (step_eq_ok_iff.1 hnext).1
        exact ⟨mid, (h.step_iff hw).2 ⟨hstep, hmid⟩, (ih hmid).2 ⟨hwalk, hk⟩⟩

/-- A path leads where it led, unless it led to a file that is gone. -/
lemma locate_iff (h : Loses w w' gone) (hw : w.WellFormed) :
    w'.locate p = .ok k ↔ w.locate p = .ok k ∧ ¬ gone k := by
  have hstart := h.not_gone_of_isDirectoryAt (isDirectoryAt_route hw p)
  rw [locate_eq_ok_iff, locate_eq_ok_iff, route_congr h.directory, h.walk_iff hw.tree hstart,
    and_assoc]

/-- Paths lead to some locations, one to each, when they did so and none of them is gone. -/
lemma map_locate_iff (h : Loses w w' gone) (hw : w.WellFormed) {ps : List Path}
    {ks : List Location} : ps.map w'.locate = ks.map .ok ↔
      ps.map w.locate = ks.map .ok ∧ ∀ k ∈ ks, ¬ gone k := by
  induction ps generalizing ks with
  | nil =>
      cases ks with
      | nil => simp
      | cons k ks => simp
  | cons p ps ih =>
      cases ks with
      | nil => simp
      | cons k ks =>
          rw [List.map_cons, List.map_cons, List.cons.injEq, ih, h.locate_iff hw, List.map_cons,
            List.cons.injEq, List.forall_mem_cons, and_and_and_comm]

lemma isDirectory_eq (h : Loses w w' gone) (hw : w.WellFormed) (p : Path) :
    w'.isDirectory p = w.isDirectory p := by
  rw [Bool.eq_iff_iff, isDirectory_eq_true_iff, isDirectory_eq_true_iff]
  refine exists_congr fun k => ?_
  rw [h.locate_iff hw, h.isDirectoryAt_eq]
  exact ⟨fun ⟨hk, hdir⟩ => ⟨hk.1, hdir⟩,
    fun ⟨hk, hdir⟩ => ⟨⟨hk, h.not_gone_of_isDirectoryAt hdir⟩, hdir⟩⟩

lemma isFile_iff (h : Loses w w' gone) (hw : w.WellFormed) :
    w'.isFile p = true ↔ w.isFile p = true ∧ ∀ k, w.locate p = .ok k → ¬ gone k := by
  rw [Workspace.isFile_iff, Workspace.isFile_iff]
  constructor
  · rintro ⟨k, contents, executable, hk, hnode⟩
    obtain ⟨hk, hgone⟩ := (h.locate_iff hw).1 hk
    rw [h.rest k hgone] at hnode
    refine ⟨⟨k, contents, executable, hk, hnode⟩, fun j hj => ?_⟩
    rwa [← Except.ok.inj (hk.symm.trans hj)]
  · rintro ⟨⟨k, contents, executable, hk, hnode⟩, hgone⟩
    exact ⟨k, contents, executable, (h.locate_iff hw).2 ⟨hk, hgone k hk⟩,
      (h.rest k (hgone k hk)).trans hnode⟩

end Loses

lemma exists_remove (hl : w.locate p = .ok l)
    (hfile : w.tree.node? l = some (.file contents executable)) :
    ∃ w', w.remove p = .ok w' ∧ Loses w w' (· = l) := by
  have hne := FileTree.ne_nil_of_file hfile
  refine ⟨{ w with tree := w.tree.erase l }, ?_, rfl, ?_, ?_, ?_⟩
  · rw [remove, hl]
    simp only [bind, Except.bind, hfile]
    rfl
  · rintro k rfl
    exact ⟨contents, executable, hfile⟩
  · rintro k rfl
    rw [FileTree.node?_erase hne, if_pos rfl]
  · intro k hk
    rw [FileTree.node?_erase hne, if_neg hk]

lemma loses_of_remove (h : w.remove p = .ok w') : ∃ l contents executable, w.locate p = .ok l ∧
    w.tree.node? l = some (.file contents executable) ∧ Loses w w' (· = l) := by
  cases hl : w.locate p with
  | error e => simp [remove, hl, bind, Except.bind] at h
  | ok l =>
      cases hnode : w.tree.node? l with
      | none =>
          simp [remove, hl, hnode, bind, Except.bind, throw, throwThe, MonadExceptOf.throw] at h
      | some node =>
          cases node with
          | directory =>
              simp [remove, hl, hnode, bind, Except.bind, throw, throwThe, MonadExceptOf.throw] at h
          | file contents executable =>
              obtain ⟨w₁, hremove, hloses⟩ := exists_remove hl hnode
              obtain rfl := Except.ok.inj (hremove.symm.trans h)
              exact ⟨l, contents, executable, rfl, hnode, hloses⟩

end Drydock.Workspace
