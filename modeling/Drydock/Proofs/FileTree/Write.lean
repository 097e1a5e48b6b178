import Drydock.FileTree.Access
import Drydock.Proofs.FileTree.Walk

/-!
# What writing a file changes

Making directories adds directories where nothing was, and writing a file changes the one location
that the path leads to.  Both make a tree grow, so paths keep leading where they led.

A write is described by the path and by the location that it leads to.  Two paths may lead to one
location, and then the second write is to the file that the first one has written, which no
comparison of the paths would tell.  `Workspace.SameFile` compares where paths lead, in the tree as
it is in the end; since trees only grow, two paths that led to one file at any time are found out.

* `FileTree.WithDirectories` — a tree with some missing directories made.
* `Workspace.Wrote` — a workspace in which a path has been written, with the directories above it.
* `Workspace.Writes` — a workspace in which nothing but some paths has been written.
-/

namespace Drydock

/-! ## Making directories -/

/-- The second tree is the first one with some missing directories made. -/
def FileTree.WithDirectories (t t' : FileTree) : Prop :=
  ∀ k, t'.node? k = t.node? k ∨ t.node? k = none ∧ t'.node? k = some .directory

namespace FileTree.WithDirectories

variable {t t' t'' : FileTree}

lemma refl (t : FileTree) : WithDirectories t t := fun _ => .inl rfl

lemma trans (h : WithDirectories t t') (h' : WithDirectories t' t'') : WithDirectories t t'' := by
  intro k
  rcases h k with hk | ⟨hnone, hk⟩ <;> rcases h' k with hk' | ⟨hnone', hk'⟩
  · exact .inl (hk'.trans hk)
  · exact .inr ⟨hk ▸ hnone', hk'⟩
  · exact .inr ⟨hnone, hk'.trans hk⟩
  · simp [hk] at hnone'

lemma node?_of_eq_some (h : WithDirectories t t') {k : Location} {node : Node}
    (hk : t.node? k = some node) : t'.node? k = some node := by
  rcases h k with h | ⟨hnone, -⟩
  · exact h.trans hk
  · simp [hk] at hnone

lemma grows (h : WithDirectories t t') : t.Grows t' where
  directory := by
    intro l hl
    rw [isDirectoryAt, decide_eq_true_eq] at hl ⊢
    exact h.node?_of_eq_some hl
  present := by
    intro l hl
    obtain ⟨node, hnode⟩ := Option.isSome_iff_exists.1 hl
    simp [h.node?_of_eq_some hnode]

lemma set_directory {l : Location} (hl : l ≠ []) (hnone : t.node? l = none) :
    WithDirectories t (t.set l .directory) := by
  intro k
  rw [node?_set t l k .directory hl]
  split
  · rename_i hk
    exact .inr ⟨hk ▸ hnone, rfl⟩
  · exact .inl rfl

end FileTree.WithDirectories

namespace Workspace

variable {w w' w'' : Workspace} {p q : Path} {ps qs : List Path} {contents : Bytes} {l : Location}

lemma makeDirectory_eq_ok (h : w.makeDirectory p = .ok w') : ∃ s, w.slot p = .ok (some s) ∧
    w.tree.node? s.location = none ∧ w' = w.place s.location .directory := by
  unfold makeDirectory at h
  cases hslot : w.slot p with
  | error e => simp [hslot, bind, Except.bind] at h
  | ok found =>
      cases found with
      | none => simp [hslot, bind, Except.bind, throw, throwThe, MonadExceptOf.throw] at h
      | some s =>
          simp only [hslot, bind, Except.bind] at h
          split at h
          · simp [throw, throwThe, MonadExceptOf.throw] at h
          · rename_i hnone
            exact ⟨s, rfl, by simpa using hnone, by simpa [pure, Except.pure, eq_comm] using h⟩

/-! ## Writing -/

/-- After `p` has been written it leads to a file with the given contents, and elsewhere only
missing directories have been made. -/
structure Wrote (w w' : Workspace) (p : Path) (contents : Bytes) (l : Location) : Prop where
  locate : w'.locate p = .ok l
  node : ∃ executable, w'.tree.node? l = some (.file contents executable)
  others : ∀ k, k ≠ l →
    w'.tree.node? k = w.tree.node? k ∨ w.tree.node? k = none ∧ w'.tree.node? k = some .directory
  directory : w'.directory = w.directory
  grows : w.tree.Grows w'.tree

/-- A file is written in the slot of its path, where no directory stands. -/
lemma write_eq_ok (h : w.write p contents = .ok w') : ∃ s executable,
    w.slot p = .ok (some s) ∧ s.slashes = false ∧ w.tree.isDirectoryAt s.location = false ∧
      w' = w.place s.location (.file contents executable) := by
  rw [write, modify] at h
  cases hslot : w.slot p with
  | error e => simp [hslot, bind, Except.bind] at h
  | ok found =>
      cases found with
      | none => simp [hslot, bind, Except.bind, throw, throwThe, MonadExceptOf.throw] at h
      | some s =>
          simp only [hslot, bind, Except.bind] at h
          split at h
          · simp [throw, throwThe, MonadExceptOf.throw] at h
          rename_i hslash
          split at h
          · simp [throw, throwThe, MonadExceptOf.throw] at h
          -- An old file keeps its mode, a new one is not executable.
          · rename_i old x hold
            exact ⟨s, x, rfl, by simpa using hslash, by simp [FileTree.isDirectoryAt, hold],
              by simpa [pure, Except.pure, eq_comm] using h⟩
          · rename_i hnone
            exact ⟨s, false, rfl, by simpa using hslash, by simp [FileTree.isDirectoryAt, hnone],
              by simpa [pure, Except.pure, eq_comm] using h⟩

lemma node?_place {node : Node} (hl : l ≠ []) (k : Location) :
    (w.place l node).tree.node? k = if k = l then some node else w.tree.node? k :=
  FileTree.node?_set w.tree l k node hl

lemma wrote_of_write (h : w.write p contents = .ok w') : ∃ l, Wrote w w' p contents l := by
  obtain ⟨s, x, hslot, hslash, hnotDir, rfl⟩ := write_eq_ok h
  have hnode : ∀ k, (w.place s.location (.file contents x)).tree.node? k =
      if k = s.location then some (.file contents x) else w.tree.node? k :=
    node?_place s.location_ne_nil
  have hgrows : w.tree.Grows (w.place s.location (.file contents x)).tree :=
    .set s.location_ne_nil (.inl hnotDir)
  refine ⟨s.location, ?_, ⟨x, by simp [hnode]⟩, fun k hk => .inl (by simp [hnode, hk]), rfl,
    hgrows⟩
  exact locate_of_slot hslot rfl hgrows (by simp [hnode]) (.inl hslash)

lemma Wrote.of_withDirectories {mid : Workspace} (hdir : mid.directory = w.directory)
    (htree : w.tree.WithDirectories mid.tree) (h : Wrote mid w' p contents l) :
    Wrote w w' p contents l := by
  refine ⟨h.locate, h.node, fun k hk => ?_, h.directory.trans hdir, htree.grows.trans h.grows⟩
  rcases h.others k hk with heq | ⟨hnone, hmade⟩
  · rw [heq]
    exact htree k
  · rcases htree k with hsame | ⟨hnone', hmid⟩
    · exact .inr ⟨hsame ▸ hnone, hmade⟩
    · simp [hmid] at hnone

/-- The path that was written leads to its contents. -/
lemma Wrote.stat (h : Wrote w w' p contents l) :
    ∃ executable, w'.stat p = .ok (.file contents executable) := by
  obtain ⟨x, hnode⟩ := h.node
  exact ⟨x, stat_eq_ok_iff.2 ⟨l, h.locate, hnode⟩⟩

/-! ## Writing several paths -/

/-- Two paths lead to the same place. -/
def SameFile (w : Workspace) (p q : Path) : Prop := ∃ l, w.locate p = .ok l ∧ w.locate q = .ok l

lemma not_sameFile_of_ne {k : Location} (hp : w.locate p = .ok l) (hq : w.locate q = .ok k)
    (hne : l ≠ k) : ¬ w.SameFile p q := by
  rintro ⟨j, hp', hq'⟩
  rw [hp, Except.ok.injEq] at hp'
  rw [hq, Except.ok.injEq] at hq'
  exact hne (hp'.trans hq'.symm)

/-- Nothing but what the given paths lead to has been written, and otherwise only missing
directories have been made. -/
structure Writes (ps : List Path) (w w' : Workspace) : Prop where
  directory : w'.directory = w.directory
  grows : w.tree.Grows w'.tree
  others : ∀ k, (∀ p ∈ ps, w'.locate p ≠ .ok k) →
    w'.tree.node? k = w.tree.node? k ∨ w.tree.node? k = none ∧ w'.tree.node? k = some .directory

lemma Wrote.writes (h : Wrote w w' p contents l) : Writes [p] w w' := by
  refine ⟨h.directory, h.grows, fun k hk => h.others k ?_⟩
  rintro rfl
  exact hk p (by simp) h.locate

namespace Writes

lemma refl (w : Workspace) : Writes [] w w := ⟨rfl, .refl _, fun _ _ => .inl rfl⟩

/-- A path that was written early leads to the same place in the end. -/
lemma trans (h : Writes ps w w') (h' : Writes qs w' w'') : Writes (ps ++ qs) w w'' := by
  refine ⟨h'.directory.trans h.directory, h.grows.trans h'.grows, fun k hk => ?_⟩
  have hfirst := h.others k fun p hp hlocate =>
    hk p (by simp [hp]) (locate_of_grows h'.directory h'.grows hlocate)
  have hsecond := h'.others k fun q hq => hk q (by simp [hq])
  rcases hfirst with hsame | ⟨hnone, hmade⟩
  · rcases hsecond with hsame' | ⟨hnone', hmade'⟩
    · exact .inl (hsame'.trans hsame)
    · exact .inr ⟨hsame ▸ hnone', hmade'⟩
  · rcases hsecond with hsame' | ⟨hnone', -⟩
    · exact .inr ⟨hnone, hsame'.trans hmade⟩
    · simp [hmade] at hnone'

/-- A file stays as it is unless one of the written paths leads to it. -/
lemma stat_of_not_sameFile {node : Node} (h : Writes ps w w') (hstat : w.stat q = .ok node)
    (hps : ∀ p ∈ ps, ¬ w'.SameFile p q) : w'.stat q = .ok node := by
  obtain ⟨k, hlocate, hnode⟩ := stat_eq_ok_iff.1 hstat
  have hlocate' := locate_of_grows h.directory h.grows hlocate
  refine stat_eq_ok_iff.2 ⟨k, hlocate', ?_⟩
  rcases h.others k fun p hp hp' => hps p hp ⟨k, hp', hlocate'⟩ with hsame | ⟨hnone, -⟩
  · exact hsame.trans hnode
  · simp [hnode] at hnone

end Writes

end Workspace

end Drydock
