import Drydock.Proofs.FileTree.WellFormed
import Drydock.Proofs.Path.Join

/-!
# Where joined paths lead

A name that is joined to a path leads one step further than the path, however the path is spelled.

Joining works on texts.  It puts a slash between the two where the first has none at its end, and a
path that ends with slashes has empty pieces there.  A walk stays at an empty piece, so these pieces
do not matter for where the path leads; they do matter for whether it leads anywhere, since a file
cannot be walked through.  `Workspace.locate_join` therefore asks that the front leads to a place,
and what is behind it is the step from there.

A path is walked along its route, which begins at the root or at the working directory.  The steps
of the path are the pieces behind that beginning (`Workspace.route_eq_steps`).

* `Workspace.WellFormed` — a proper tree, seen from a directory of it.
* `Workspace.locate_join` — where a name behind a path leads.
-/

namespace Drydock

/-- A proper tree, seen from a directory of it. -/
structure Workspace.WellFormed (w : Workspace) : Prop where
  tree : w.tree.WellFormed
  directory : w.tree.isDirectoryAt w.directory = true

namespace Workspace

variable {w : Workspace} {p : Path} {l : Location}

lemma checkPath_eq_ok_iff : checkPath p = .ok () ↔ '\x00' ∉ p.text.toList ∧ p.text ≠ "" := by
  unfold checkPath
  split
  · rename_i hnul
    simp [hnul]
  · rename_i hnul
    split
    · rename_i hempty
      simp [hempty]
    · rename_i hempty
      simp [hnul, hempty]

lemma text_ne_of_locate (h : w.locate p = .ok l) : p.text ≠ "" :=
  (checkPath_eq_ok_iff.1 (locate_eq_ok_iff.1 h).1).2

lemma isDirectory_iff (h : w.locate p = .ok l) :
    w.isDirectory p = true ↔ w.tree.isDirectoryAt l = true := by
  rw [isDirectory, decide_eq_true_eq, FileTree.isDirectoryAt_iff, stat, h]
  simp only [bind, Except.bind]
  cases w.tree.node? l with
  | none => simp [throw, throwThe, MonadExceptOf.throw, Except.toOption]
  | some node => simp [pure, Except.pure, Except.toOption]

lemma isDirectory_eq_true_iff : w.isDirectory p = true ↔
    ∃ l, w.locate p = .ok l ∧ w.tree.isDirectoryAt l = true := by
  constructor
  · intro h
    have hstat : w.stat p = .ok .directory := by
      rw [isDirectory, decide_eq_true_eq] at h
      cases hp : w.stat p with
      | error e => simp [hp, Except.toOption] at h
      | ok node => simpa [hp, Except.toOption] using h
    obtain ⟨l, hl, hnode⟩ := stat_eq_ok_iff.1 hstat
    exact ⟨l, hl, FileTree.isDirectoryAt_iff.2 hnode⟩
  · rintro ⟨l, hl, hdir⟩
    exact (isDirectory_iff hl).2 hdir

lemma isFile_iff : w.isFile p = true ↔ ∃ l contents executable,
    w.locate p = .ok l ∧ w.tree.node? l = some (.file contents executable) := by
  have hstat : w.isFile p = true ↔ ∃ contents executable,
      w.stat p = .ok (.file contents executable) := by
    unfold isFile
    split
    · rename_i contents executable h
      simp [h]
    · rename_i h
      simpa using h
  rw [hstat]
  constructor
  · rintro ⟨contents, executable, h⟩
    obtain ⟨l, hl, hnode⟩ := stat_eq_ok_iff.1 h
    exact ⟨l, contents, executable, hl, hnode⟩
  · rintro ⟨l, contents, executable, hl, hnode⟩
    exact ⟨contents, executable, stat_eq_ok_iff.2 ⟨l, hl, hnode⟩⟩

lemma exists_iff : w.exists p = true ↔
    ∃ l, w.locate p = .ok l ∧ (w.tree.node? l).isSome = true := by
  rw [«exists»]
  constructor
  · intro h
    cases hstat : w.stat p with
    | error e => simp [hstat, Except.toOption] at h
    | ok node =>
        obtain ⟨l, hl, hnode⟩ := stat_eq_ok_iff.1 hstat
        exact ⟨l, hl, by simp [hnode]⟩
  · rintro ⟨l, hl, hsome⟩
    obtain ⟨node, hnode⟩ := Option.isSome_iff_exists.1 hsome
    rw [stat_eq_ok_iff.2 ⟨l, hl, hnode⟩]
    rfl

/-! ## One name further -/

/-- The directory in which the walk of a path starts. -/
def origin (w : Workspace) (p : Path) : Location := if p.isAbsolute then [] else w.directory

lemma route_eq (w : Workspace) (p : Path) :
    w.route p = if p.isAbsolute then ([], p.pieces.tail) else (w.directory, p.pieces) := rfl

lemma isDirectoryAt_route (hw : w.WellFormed) (p : Path) :
    w.tree.isDirectoryAt (w.route p).1 = true := by
  rw [route_eq]
  split
  · exact FileTree.isDirectoryAt_nil _
  · exact hw.directory

/-- A path goes along its steps, and perhaps stays where they lead. -/
lemma route_eq_steps (w : Workspace) (p : Path) :
    w.route p = (w.origin p, p.steps) ∨ w.route p = (w.origin p, p.steps ++ [[]]) := by
  rw [route_eq, origin, Path.steps]
  by_cases habs : p.isAbsolute = true
  · rw [if_pos habs, if_pos habs, if_pos habs]
    rcases Path.pieces_eq_openPieces p with hsame | hmore
    · exact .inl (by rw [hsame])
    · exact .inr (by rw [hmore, List.tail_append_of_ne_nil (Path.openPieces_ne_nil p)])
  · rw [if_neg habs, if_neg habs, if_neg habs]
    rcases Path.pieces_eq_openPieces p with hsame | hmore
    · exact .inl (by rw [hsame])
    · exact .inr (by rw [hmore])

/-- A walk along pieces that all stay stays. -/
lemma walk_idle {t : FileTree} {start : Location} {pieces : List (List Char)}
    (hidle : ∀ piece ∈ pieces, piece = [] ∨ piece = ['.']) (h : walk t start pieces = .ok l) :
    l = start := by
  induction pieces generalizing start with
  | nil => exact (Except.ok.inj h).symm
  | cons piece rest ih =>
      obtain ⟨mid, hstep, hwalk⟩ := walk_cons_eq_ok_iff.1 h
      have hstay : mid = start := by
        rcases (step_eq_ok_iff.1 hstep).2 with ⟨-, hmid⟩ | ⟨hup, -⟩ | ⟨hempty, hhere, -⟩
        · exact hmid
        -- An idle piece is neither two dots nor a name.
        · rcases hidle piece (by simp) with rfl | rfl
          · simp at hup
          · simp at hup
        · rcases hidle piece (by simp) with hpiece | hpiece
          · exact absurd hpiece hempty
          · exact absurd hpiece hhere
      rw [ih (fun piece hpiece => hidle piece (List.mem_cons_of_mem _ hpiece)) hwalk, hstay]

lemma walk_steps_of_locate (h : w.locate p = .ok l) :
    walk w.tree (w.origin p) p.steps = .ok l := by
  have hwalk := (locate_eq_ok_iff.1 h).2
  rcases route_eq_steps w p with hroute | hroute
  · rwa [hroute] at hwalk
  · rw [hroute] at hwalk
    obtain ⟨mid, hmid, hlast⟩ := walk_append_eq_ok_iff.1 hwalk
    rw [walk_idle (by simp) hlast, hmid]

lemma locate_of_walk_steps (hcheck : checkPath p = .ok ())
    (hwalk : walk w.tree (w.origin p) p.steps = .ok l) (hdir : w.tree.isDirectoryAt l = true) :
    w.locate p = .ok l := by
  rw [locate_eq_ok_iff]
  rcases route_eq_steps w p with hroute | hroute
  · rw [hroute]
    exact ⟨hcheck, hwalk⟩
  · rw [hroute]
    refine ⟨hcheck, walk_append_eq_ok_iff.2 ⟨l, hwalk, walk_cons_eq_ok_iff.2 ⟨l, ?_, rfl⟩⟩⟩
    exact step_eq_ok_iff.2 ⟨hdir, .inl ⟨.inl rfl, rfl⟩⟩

lemma route_join {q : Path} (hp : p.text ≠ "") (hq : q.isAbsolute = false) :
    w.route (p.join q) = (w.origin p, p.steps ++ q.pieces) := by
  rw [route_eq, Path.isAbsolute_join hp hq, Path.pieces_join hp hq, origin, Path.steps]
  by_cases habs : p.isAbsolute = true
  · rw [if_pos habs, if_pos habs, if_pos habs,
      List.tail_append_of_ne_nil (Path.openPieces_ne_nil p)]
  · rw [if_neg habs, if_neg habs, if_neg habs]

/-- A name that is joined to a path leads one step further than the path. -/
lemma locate_join {name : String} {k : Location} (h : w.locate p = .ok l)
    (hslash : '/' ∉ name.toList) (hnul : '\x00' ∉ name.toList) :
    w.locate (p.join ⟨name⟩) = .ok k ↔ step w.tree l name.toList = .ok k := by
  have hp := text_ne_of_locate h
  have hpnul := (checkPath_eq_ok_iff.1 (locate_eq_ok_iff.1 h).1).1
  have hfront := walk_steps_of_locate h
  have habs : (Path.mk name).isAbsolute = false := Path.isAbsolute_of_noSlash hslash
  have hcheck : checkPath (p.join ⟨name⟩) = .ok () := by
    rw [checkPath_eq_ok_iff, Path.join, if_neg (by simp [habs, hp])]
    split
    · exact ⟨by simp [String.toList_append, hpnul, hnul], by simp [hp]⟩
    · exact ⟨by simp [String.toList_append, hpnul, hnul], by simp [hp]⟩
  have hroute : w.route (p.join ⟨name⟩) = (w.origin p, p.steps ++ [name.toList]) := by
    rw [route_join hp habs]
    exact congrArg (fun pieces => (w.origin p, p.steps ++ pieces))
      (Text.splitChars_of_notMem hslash)
  -- A check of the text, and a walk along the steps of the front and one piece.
  rw [locate_eq_ok_iff, hroute]
  constructor
  · rintro ⟨-, hlast⟩
    obtain ⟨mid, hmid, hstep⟩ := walk_append_eq_ok_iff.1 hlast
    rw [hfront, Except.ok.injEq] at hmid
    obtain ⟨k', hk', hdone⟩ := walk_cons_eq_ok_iff.1 hstep
    rw [walk_nil, Except.ok.injEq] at hdone
    rw [hmid, hk', hdone]
  · intro hstep
    exact ⟨hcheck, walk_append_eq_ok_iff.2 ⟨l, hfront, walk_cons_eq_ok_iff.2 ⟨k, hstep, rfl⟩⟩⟩

end Workspace

end Drydock
