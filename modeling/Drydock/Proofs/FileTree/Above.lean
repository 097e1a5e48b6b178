import Drydock.Proofs.FileTree.Join
import Drydock.Proofs.FileTree.Write

/-!
# A file and the directories above it

Before a file is written the directories above its path are made.  So a path that leads nowhere can
lead to an old file once they are there: `gen/../x` does, where `gen` is missing and `x` is not.  A
path that steps up only out of directories that are there is written to a new place.

Making directories may stop half way, with some of them made, and then nothing is written.  So the
relation for the directories holds across a failure, too (`Workspace.makesDirectories_upTo`), and
the one for the file is about writes that go through.

The last lemma is the reason for `StepsUpInside`.  A walk in the new tree is followed back step by
step.  As long as a step up is still to come, the walk so far went through in the old tree by
hypothesis; behind the last step up the walk only descends, and an old place at its end has old
places above it.

* `Workspace.MakesDirectories` — directories that some paths lead to have been made.
* `Workspace.WroteFile` — a path has been written, and missing directories above it have been made.
* `Workspace.StepsUpInside` — a path steps up only out of places that are there.
* `Workspace.Wrote.node?_of_missing` — when such a path leads nowhere, writing it changes nothing
  that is there.
-/

namespace Drydock

/-- The directories that a path leads through, innermost first. -/
def Path.above (p : Path) : List Path := (p.parent?.map Path.ancestors).getD []

namespace Workspace

variable {w mid w' w'' : Workspace} {t : FileTree} {p q : Path} {ps qs : List Path}
  {contents : Bytes} {l k start : Location} {s : Slot} {node : Node} {pieces : List (List Char)}

/-! ## Proper trees -/

lemma mem_splitChars_of_mem_route {piece : List Char} (h : piece ∈ (w.route p).2) :
    piece ∈ Text.splitChars '/' p.text.toList := by
  rw [route] at h
  split at h
  · exact List.mem_of_mem_tail h
  · exact h

lemma validName_of_slot (h : w.slot p = .ok (some s)) : ValidName s.name := by
  obtain ⟨hcheck, -, front, last, idle, hroute, -, -, -, hne, hdot, hdots, hname, hlen⟩ :=
    slot_spec h
  have hlast : last ∈ (w.route p).2 := by simp [hroute]
  have hpiece := mem_splitChars_of_mem_route hlast
  rw [hname] at hlen ⊢
  refine validName_iff.2 ?_
  rw [String.toList_ofList]
  refine ⟨hne, hdot, hdots, Text.notMem_of_mem_splitChars hpiece, fun hnul => ?_, hlen⟩
  exact (checkPath_eq_ok_iff.1 hcheck).1 (Text.mem_of_mem_splitChars hpiece hnul)

/-- What is placed in a slot has a directory above it, so the tree stays proper. -/
lemma WellFormed.place (hw : w.WellFormed) (hslot : w.slot p = .ok (some s))
    (hkeep : w.tree.isDirectoryAt s.location = false ∨ node = .directory) :
    (w.place s.location node).WellFormed := by
  have hgrows : w.tree.Grows (w.place s.location node).tree := .set s.location_ne_nil hkeep
  have hparent := (slot_spec hslot).2.1
  -- The new entry has a name of its own and its parent; the others have what they had.
  refine ⟨⟨fun {k name} hk hname => ?_, fun {k name} hk => hgrows.directory ?_⟩,
    hgrows.directory hw.directory⟩
  · rw [node?_place s.location_ne_nil] at hk
    split at hk
    · rename_i hloc
      rw [hloc, Slot.location, List.mem_append, List.mem_singleton] at hname
      rcases hname with hname | rfl
      · exact hw.tree.validName (FileTree.isSome_of_isDirectoryAt hparent) hname
      · exact validName_of_slot hslot
    · exact hw.tree.validName hk hname
  · rw [node?_place s.location_ne_nil] at hk
    split at hk
    · rename_i hloc
      rwa [(List.append_inj' hloc rfl).1]
    · exact hw.tree.parents hk

/-! ## Making directories -/

/-- Where nothing was, directories that some of the paths lead to have been made, and nothing else
has changed. -/
structure MakesDirectories (ps : List Path) (w w' : Workspace) : Prop where
  directory : w'.directory = w.directory
  tree : w.tree.WithDirectories w'.tree
  located : ∀ k, w.tree.node? k = none → w'.tree.node? k = some .directory →
    ∃ p ∈ ps, w'.locate p = .ok k
  wellFormed : w.WellFormed → w'.WellFormed

namespace MakesDirectories

lemma refl (ps : List Path) (w : Workspace) : MakesDirectories ps w w := by
  refine ⟨rfl, .refl _, fun k hnone hsome => ?_, id⟩
  rw [hnone] at hsome
  cases hsome

lemma mono (h : MakesDirectories ps w w') (hsub : ps ⊆ qs) : MakesDirectories qs w w' := by
  refine ⟨h.directory, h.tree, fun k hnone hsome => ?_, h.wellFormed⟩
  obtain ⟨p, hp, hlocate⟩ := h.located k hnone hsome
  exact ⟨p, hsub hp, hlocate⟩

lemma trans (h : MakesDirectories ps w w') (h' : MakesDirectories ps w' w'') :
    MakesDirectories ps w w'' := by
  refine ⟨h'.directory.trans h.directory, h.tree.trans h'.tree, fun k hnone hsome => ?_,
    h'.wellFormed ∘ h.wellFormed⟩
  rcases h.tree k with hsame | ⟨-, hmade⟩
  · exact h'.located k (hsame.trans hnone) hsome
  · obtain ⟨p, hp, hlocate⟩ := h.located k hnone hmade
    exact ⟨p, hp, locate_of_grows h'.directory h'.tree.grows hlocate⟩

end MakesDirectories

lemma makesDirectories_of_makeDirectory (h : w.makeDirectory p = .ok w') :
    MakesDirectories [p] w w' := by
  obtain ⟨s, hslot, hnone, rfl⟩ := makeDirectory_eq_ok h
  have htree := FileTree.WithDirectories.set_directory s.location_ne_nil hnone
  refine ⟨rfl, htree, fun k hk hsome => ⟨p, List.mem_singleton_self p, ?_⟩,
    fun hw => hw.place hslot (.inr rfl)⟩
  rw [node?_place s.location_ne_nil] at hsome
  split at hsome
  · rename_i hloc
    have hmade : (w.place s.location .directory).tree.node? s.location = some .directory := by
      rw [node?_place s.location_ne_nil, if_pos rfl]
    rw [hloc]
    refine locate_of_slot hslot rfl htree.grows ?_ (.inr (FileTree.isDirectoryAt_iff.2 hmade))
    rw [hmade]
    rfl
  · rw [hk] at hsome
    cases hsome

lemma makesDirectories_ensureOne (w : Workspace) (p : Path) :
    MakesDirectories [p] w (w.ensureOne p).2 := by
  unfold ensureOne
  split
  · rename_i made hmade
    exact makesDirectories_of_makeDirectory hmade
  · exact .refl _ _

/-- Whether or not it succeeds, making directories makes only those that the path leads through. -/
lemma makesDirectories_upTo (levels : ℕ) (w : Workspace) (p : Path) :
    MakesDirectories (p.ancestorsUpTo levels) w (makeDirectoriesUpTo levels w p).2 := by
  fun_induction makeDirectoriesUpTo levels w p with
  | case1 levels w p hempty => exact .refl _ _
  | case2 levels w p hempty made hmade =>
      refine (makesDirectories_of_makeDirectory hmade).mono ?_
      cases levels with
      | zero => exact List.Subset.refl _
      | succ levels => exact List.cons_subset_cons p (List.nil_subset _)
  | case3 w p hempty hmissing levels parent hparent made hmade ih =>
      rw [hmade] at ih
      have hancestors : p.ancestorsUpTo (levels + 1) = p :: parent.ancestorsUpTo levels := by
        simp [Path.ancestorsUpTo, hparent]
      rw [hancestors]
      refine (ih.mono (List.subset_cons_self _ _)).trans ?_
      exact (makesDirectories_ensureOne made p).mono (List.cons_subset_cons p (List.nil_subset _))
  | case4 w p hempty hmissing levels parent hparent hrefused ih =>
      refine ih.mono ?_
      simp [Path.ancestorsUpTo, hparent]
  | case5 levels w p hempty hmissing hnone => exact .refl _ _
  | case6 levels w p hempty e he hrefused => exact .refl _ _

/-! ## Writing a file -/

/-- After `p` has been written it leads to a file with the given contents.  Otherwise only missing
directories have been made, each of them one that the path leads through. -/
structure WroteFile (w w' : Workspace) (p : Path) (contents : Bytes) (l : Location) : Prop
    extends Wrote w w' p contents l where
  above : ∀ k, w.tree.node? k = none → w'.tree.node? k = some .directory →
    ∃ q ∈ p.above, w'.locate q = .ok k

lemma wroteFile_of_write (hmade : MakesDirectories p.above w mid)
    (hwrite : mid.write p contents = .ok w') :
    (∃ l, WroteFile w w' p contents l) ∧ (w.WellFormed → w'.WellFormed) := by
  obtain ⟨l, hwrote⟩ := wrote_of_write hwrite
  obtain ⟨s, x, hslot, -, hnotDir, rfl⟩ := write_eq_ok hwrite
  refine ⟨⟨l, hwrote.of_withDirectories hmade.directory hmade.tree, fun k hnone hsome => ?_⟩,
    fun hw => (hmade.wellFormed hw).place hslot (.inl hnotDir)⟩
  rw [node?_place s.location_ne_nil] at hsome
  split at hsome
  · cases hsome
  · obtain ⟨q, hq, hlocate⟩ := hmade.located k hnone hsome
    exact ⟨q, hq, locate_of_grows hwrote.directory hwrote.grows hlocate⟩

/-! ## Paths that step up -/

/-- A path steps up only out of places that are there. -/
def StepsUpInside (w : Workspace) (p : Path) : Prop :=
  ∀ front back, (w.route p).2 = front ++ ['.', '.'] :: back →
    ∃ l, walk w.tree (w.route p).1 front = .ok l

lemma stepsUpInside_iff : w.StepsUpInside p ↔
    ∀ n < (w.route p).2.length, (w.route p).2[n]? = some ['.', '.'] →
      (walk w.tree (w.route p).1 ((w.route p).2.take n)).toOption.isSome = true := by
  have hok : ∀ r : Except IoError Location, r.toOption.isSome = true ↔ ∃ l, r = .ok l := by
    intro r
    cases r with
    | error e => simp [Except.toOption]
    | ok l => simp [Except.toOption]
  simp only [hok]
  constructor
  · intro h n hn hup
    obtain ⟨_, hpiece⟩ := List.getElem?_eq_some_iff.1 hup
    apply h _ ((w.route p).2.drop (n + 1))
    rw [← hpiece, List.getElem_cons_drop, List.take_append_drop]
  · intro h front back hroute
    have hwalk := h front.length (by simp [hroute]) (by simp [hroute])
    rwa [hroute, List.take_left] at hwalk

instance (w : Workspace) (p : Path) : Decidable (w.StepsUpInside p) :=
  decidable_of_iff' _ stepsUpInside_iff

lemma StepsUpInside.of_grows (h : w.StepsUpInside p) (hdir : w'.directory = w.directory)
    (hgrows : w.tree.Grows w'.tree) : w'.StepsUpInside p := by
  intro front back hroute
  rw [route_congr hdir] at hroute ⊢
  obtain ⟨l, hwalk⟩ := h front back hroute
  exact ⟨l, walk_of_grows hgrows hwalk⟩

/-- A walk that never steps up ends below the place where it starts. -/
lemma prefix_of_walk (hup : ['.', '.'] ∉ pieces) (h : walk t start pieces = .ok l) :
    start <+: l := by
  induction pieces generalizing start with
  | nil =>
      obtain rfl := Except.ok.inj h
      exact List.prefix_rfl
  | cons piece rest ih =>
      obtain ⟨mid, hstep, hwalk⟩ := walk_cons_eq_ok_iff.1 h
      obtain ⟨hpiece, hrest⟩ := not_or.1 (List.mem_cons.not.1 hup)
      have hmid := ih hrest hwalk
      rcases (step_eq_ok_iff.1 hstep).2 with ⟨-, rfl⟩ | ⟨rfl, -⟩ | ⟨-, -, -, -, -, rfl⟩
      · exact hmid
      · exact absurd rfl hpiece
      · exact (List.prefix_append start _).trans hmid

lemma isSome_of_step {piece : List Char} (ht : t.WellFormed) (h : step t l piece = .ok k) :
    (t.node? k).isSome = true := by
  obtain ⟨hdir, ⟨-, rfl⟩ | ⟨-, rfl⟩ | ⟨-, -, -, -, hsome, rfl⟩⟩ := step_eq_ok_iff.1 h
  · exact FileTree.isSome_of_isDirectoryAt hdir
  · exact FileTree.isSome_of_isDirectoryAt (ht.isDirectoryAt_dropLast hdir)
  · exact hsome

/-- What is a directory once a file has been written was one before, if it was there. -/
lemma Wrote.isDirectoryAt_of_isSome (h : Wrote w w' p contents l)
    (hk : (w.tree.node? k).isSome = true) (hdir : w'.tree.isDirectoryAt k = true) :
    w.tree.isDirectoryAt k = true := by
  have hkl : k ≠ l := by
    rintro rfl
    obtain ⟨x, hfile⟩ := h.node
    rw [FileTree.isDirectoryAt_iff, hfile] at hdir
    cases hdir
  rcases h.others k hkl with hsame | ⟨hnone, -⟩
  · rwa [FileTree.isDirectoryAt, ← hsame]
  · rw [hnone] at hk
    cases hk

lemma StepsUpInside.exists_step {front rest : List (List Char)} {piece : List Char}
    (h : w.StepsUpInside p) (hsplit : (w.route p).2 = front ++ piece :: rest)
    (hfront : walk w.tree (w.route p).1 front = .ok k) (hup : ['.', '.'] ∈ rest) :
    ∃ next, step w.tree k piece = .ok next := by
  obtain ⟨a, b, rfl⟩ := List.append_of_mem hup
  obtain ⟨j, hwalk⟩ := h (front ++ piece :: a) b (by simp [hsplit])
  obtain ⟨k', hk', hwalk⟩ := walk_append_eq_ok_iff.1 hwalk
  rw [hfront, Except.ok.injEq] at hk'
  subst hk'
  obtain ⟨next, hstep, -⟩ := walk_cons_eq_ok_iff.1 hwalk
  exact ⟨next, hstep⟩

/-- If a path that steps up inside leads to an old place once it has been written, every step on the
way to it could be taken before. -/
lemma Wrote.step_of_isSome {front rest : List (List Char)} {piece : List Char} {next : Location}
    (hw : w.WellFormed) (h : Wrote w w' p contents l) (hsteps : w.StepsUpInside p)
    (hsome : (w.tree.node? l).isSome = true) (hsplit : (w.route p).2 = front ++ piece :: rest)
    (hfront : walk w.tree (w.route p).1 front = .ok k) (hk : (w.tree.node? k).isSome = true)
    (hstep : step w'.tree k piece = .ok next) (hrest : walk w'.tree next rest = .ok l) :
    step w.tree k piece = .ok next := by
  by_cases hup : ['.', '.'] ∈ rest
  · obtain ⟨next', hnext⟩ := hsteps.exists_step hsplit hfront hup
    have hsame := step_of_grows h.grows hnext
    rw [hstep, Except.ok.injEq] at hsame
    rwa [hsame]
  · -- The path does not step up again, so an old place lies below the next one.
    obtain ⟨names, rfl⟩ := prefix_of_walk hup hrest
    have hnext := hw.tree.isSome_of_append hsome
    obtain ⟨hdir, hcases⟩ := step_eq_ok_iff.1 hstep
    refine step_eq_ok_iff.2 ⟨h.isDirectoryAt_of_isSome hk hdir, ?_⟩
    rcases hcases with hstay | hdots | ⟨hempty, hhere, hname, hshort, -, rfl⟩
    · exact .inl hstay
    · exact .inr (.inl hdots)
    · exact .inr (.inr ⟨hempty, hhere, hname, hshort, hnext, rfl⟩)

lemma Wrote.walk_of_isSome {front back : List (List Char)} (hw : w.WellFormed)
    (h : Wrote w w' p contents l) (hsteps : w.StepsUpInside p)
    (hsome : (w.tree.node? l).isSome = true) (hsplit : (w.route p).2 = front ++ back)
    (hfront : walk w.tree (w.route p).1 front = .ok k) (hk : (w.tree.node? k).isSome = true)
    (hback : walk w'.tree k back = .ok l) : walk w.tree k back = .ok l := by
  -- The front has been walked in the old tree, the back in the new one.
  induction back generalizing front k with
  | nil => exact hback
  | cons piece rest ih =>
      obtain ⟨next, hstep, hrest⟩ := walk_cons_eq_ok_iff.1 hback
      have hnext := h.step_of_isSome hw hsteps hsome hsplit hfront hk hstep hrest
      have hsplit' : (w.route p).2 = (front ++ [piece]) ++ rest := by
        rw [hsplit, List.append_assoc, List.singleton_append]
      have hfront' : walk w.tree (w.route p).1 (front ++ [piece]) = .ok next :=
        walk_append_eq_ok_iff.2 ⟨k, hfront, walk_cons_eq_ok_iff.2 ⟨next, hnext, rfl⟩⟩
      exact walk_cons_eq_ok_iff.2
        ⟨next, hnext, ih hsplit' hfront' (isSome_of_step hw.tree hnext) hrest⟩

/-- A path that leads nowhere and steps up inside is written to a new place: what was there stays as
it was. -/
lemma Wrote.node?_of_missing (hw : w.WellFormed) (h : Wrote w w' p contents l)
    (hsteps : w.StepsUpInside p) (hmissing : w.exists p = false)
    (hk : w.tree.node? k = some node) : w'.tree.node? k = some node := by
  have hkl : k ≠ l := by
    rintro rfl
    have hsome : (w.tree.node? k).isSome = true := by
      rw [hk]
      rfl
    obtain ⟨hcheck, hwalk⟩ := locate_eq_ok_iff.1 h.locate
    rw [route_congr h.directory] at hwalk
    have hstart := FileTree.isSome_of_isDirectoryAt (isDirectoryAt_route hw p)
    have hsplit : (w.route p).2 = [] ++ (w.route p).2 := rfl
    -- Otherwise the path would have led to this place before, and it was missing.
    have hold := h.walk_of_isSome hw hsteps hsome hsplit rfl hstart hwalk
    have hexists : w.exists p = true :=
      exists_iff.2 ⟨k, locate_eq_ok_iff.2 ⟨hcheck, hold⟩, hsome⟩
    rw [hexists] at hmissing
    cases hmissing
  rcases h.others k hkl with hsame | ⟨hnone, -⟩
  · exact hsame.trans hk
  · rw [hk] at hnone
    cases hnone

end Workspace

end Drydock
