import Drydock.FileTree.Locate
import Mathlib.Data.List.TakeWhile
import Mathlib.Tactic.Lemma

/-!
# Where paths lead in a tree that grows

A walk passes from directory to directory, so a tree that keeps its directories and loses nothing
leads every path where it led before.

The slot of a path is the place that can be filled by writing to it: a directory, and a name in it
that may be missing.  Finding a slot takes the path apart at its last piece that is not empty,
because a path to a new directory may end with slashes, and a path to a new file may not.
`Workspace.slot_spec` is the only place where this cutting is looked at; everything else works with
what it says.

* `FileTree.Grows` — directories stay directories and nothing disappears.
* `Workspace.locate_of_grows` — what was found is found again, at the same location.
* `Workspace.locate_of_slot` — once something stands in the slot of a path, the path leads to it.
-/

namespace Drydock

/-! ## Trees that grow -/

/-- Directories stay directories and nothing disappears. -/
structure FileTree.Grows (t t' : FileTree) : Prop where
  directory : ∀ {l}, t.isDirectoryAt l = true → t'.isDirectoryAt l = true
  present : ∀ {l}, (t.node? l).isSome = true → (t'.node? l).isSome = true

namespace FileTree.Grows

variable {t t' t'' : FileTree} {l : Location} {node : Node}

lemma refl (t : FileTree) : Grows t t := ⟨id, id⟩

lemma trans (h : Grows t t') (h' : Grows t' t'') : Grows t t'' :=
  ⟨fun hl => h'.directory (h.directory hl), fun hl => h'.present (h.present hl)⟩

/-- Placing something where no directory stands, or a directory anywhere, makes a tree grow. -/
lemma set (hl : l ≠ []) (h : t.isDirectoryAt l = false ∨ node = .directory) :
    Grows t (t.set l node) where
  directory := by
    intro k hk
    simp only [isDirectoryAt, decide_eq_true_eq, decide_eq_false_iff_not] at hk h ⊢
    rw [node?_set t l k node hl]
    split
    · rename_i hkl
      rcases h with h | h
      · exact absurd (hkl ▸ hk) h
      · rw [h]
    · exact hk
  present := by
    intro k hk
    rw [node?_set t l k node hl]
    split
    · rfl
    · exact hk

end FileTree.Grows

namespace Workspace

variable {w w' : Workspace} {t t' : FileTree} {p : Path} {start at_ l mid : Location}
  {piece : List Char} {pieces : List (List Char)}

/-! ## Steps and walks -/

/-- A step starts at a directory, and stays there, goes up, or goes to an entry that is there. -/
lemma step_eq_ok_iff : step t at_ piece = .ok l ↔ t.isDirectoryAt at_ = true ∧
    ((piece = [] ∨ piece = ['.']) ∧ l = at_ ∨
      piece = ['.', '.'] ∧ l = at_.dropLast ∨
      piece ≠ [] ∧ piece ≠ ['.'] ∧ piece ≠ ['.', '.'] ∧
        (String.ofList piece).utf8ByteSize ≤ nameLimit ∧
        (t.node? (at_ ++ [String.ofList piece])).isSome = true ∧
        l = at_ ++ [String.ofList piece]) := by
  unfold step
  cases hdir : t.isDirectoryAt at_ with
  | false => simp
  | true =>
      simp only [Bool.not_true, Bool.false_eq_true, if_false, true_and]
      -- Pieces that stay, `..` and names exclude each other.
      by_cases hstay : piece = [] ∨ piece = ['.']
      · rw [if_pos hstay]
        constructor
        · exact fun h => .inl ⟨hstay, (Except.ok.inj h).symm⟩
        · rintro (⟨-, rfl⟩ | ⟨hup, -⟩ | ⟨hne, hdot, -⟩)
          · rfl
          · rcases hstay with rfl | rfl <;> simp at hup
          · exact absurd hstay (not_or.2 ⟨hne, hdot⟩)
      obtain ⟨hne, hdot⟩ := not_or.1 hstay
      rw [if_neg hstay]
      by_cases hup : piece = ['.', '.']
      · rw [if_pos hup]
        constructor
        · exact fun h => .inr (.inl ⟨hup, (Except.ok.inj h).symm⟩)
        · rintro (⟨h, -⟩ | ⟨-, rfl⟩ | ⟨-, -, h, -⟩)
          · exact absurd h hstay
          · rfl
          · exact absurd hup h
      · rw [if_neg hup]
        simp only [hne, hdot, hup, or_self, false_or, false_and, not_false_eq_true, ne_eq, true_and]
        by_cases hlong : nameLimit < (String.ofList piece).utf8ByteSize
        · rw [if_pos hlong]
          simp [Nat.not_le.2 hlong]
        · rw [if_neg hlong]
          split
          · rename_i hsome
            simp [hsome, Nat.not_lt.1 hlong, eq_comm]
          · rename_i hnone
            simp [hnone]

lemma step_of_grows (hgrows : t.Grows t') (h : step t at_ piece = .ok l) :
    step t' at_ piece = .ok l := by
  obtain ⟨hdir, hcases⟩ := step_eq_ok_iff.1 h
  refine step_eq_ok_iff.2 ⟨hgrows.directory hdir, ?_⟩
  rcases hcases with h | h | ⟨h1, h2, h3, h4, hsome, h5⟩
  · exact .inl h
  · exact .inr (.inl h)
  · exact .inr (.inr ⟨h1, h2, h3, h4, hgrows.present hsome, h5⟩)

@[simp] lemma walk_nil : walk t start [] = .ok start := rfl

lemma walk_cons_eq_ok_iff :
    walk t start (piece :: pieces) = .ok l ↔
      ∃ mid, step t start piece = .ok mid ∧ walk t mid pieces = .ok l := by
  rw [walk, List.foldlM_cons]
  cases step t start piece with
  | error e => simp [bind, Except.bind]
  | ok mid => simp [bind, Except.bind, walk]

lemma walk_append_eq_ok_iff {front back : List (List Char)} :
    walk t start (front ++ back) = .ok l ↔
      ∃ mid, walk t start front = .ok mid ∧ walk t mid back = .ok l := by
  induction front generalizing start with
  | nil => simp
  | cons piece front ih =>
      rw [List.cons_append, walk_cons_eq_ok_iff]
      simp only [ih, walk_cons_eq_ok_iff]
      constructor
      · rintro ⟨a, hstep, b, hfront, hback⟩
        exact ⟨b, ⟨a, hstep, hfront⟩, hback⟩
      · rintro ⟨b, ⟨a, hstep, hfront⟩, hback⟩
        exact ⟨a, hstep, b, hfront, hback⟩

lemma walk_of_grows (hgrows : t.Grows t') (h : walk t start pieces = .ok l) :
    walk t' start pieces = .ok l := by
  induction pieces generalizing start with
  | nil => exact h
  | cons piece pieces ih =>
      obtain ⟨mid, hstep, hwalk⟩ := walk_cons_eq_ok_iff.1 h
      exact walk_cons_eq_ok_iff.2 ⟨mid, step_of_grows hgrows hstep, ih hwalk⟩

/-! ## Locations -/

lemma locate_eq_ok_iff :
    w.locate p = .ok l ↔
      checkPath p = .ok () ∧ walk w.tree (w.route p).1 (w.route p).2 = .ok l := by
  unfold locate
  cases checkPath p with
  | error e => simp [bind, Except.bind]
  | ok u => simp [bind, Except.bind]

/-- Where a walk starts depends on the working directory alone. -/
lemma route_congr (hdir : w'.directory = w.directory) (p : Path) : w'.route p = w.route p := by
  simp [route, hdir]

lemma locate_of_grows (hdir : w'.directory = w.directory) (hgrows : w.tree.Grows w'.tree)
    (h : w.locate p = .ok l) : w'.locate p = .ok l := by
  obtain ⟨hcheck, hwalk⟩ := locate_eq_ok_iff.1 h
  exact locate_eq_ok_iff.2 ⟨hcheck, route_congr hdir p ▸ walk_of_grows hgrows hwalk⟩

lemma stat_eq_ok_iff {node : Node} :
    w.stat p = .ok node ↔ ∃ l, w.locate p = .ok l ∧ w.tree.node? l = some node := by
  unfold stat
  cases w.locate p with
  | error e => simp [bind, Except.bind]
  | ok l =>
      simp only [bind, Except.bind, Except.ok.injEq, exists_eq_left']
      cases w.tree.node? l with
      | none => simp [throw, throwThe, MonadExceptOf.throw]
      | some n => simp [pure, Except.pure]

/-! ## Slots -/

/-- The parent of a slot is a directory, and the walk to the name of the slot passes through it.
Only slashes can follow the name. -/
lemma slot_spec {s : Slot} (h : w.slot p = .ok (some s)) :
    checkPath p = .ok () ∧ w.tree.isDirectoryAt s.parent = true ∧
      ∃ front last idle, (w.route p).2 = front ++ last :: idle ∧ (∀ piece ∈ idle, piece = []) ∧
        (s.slashes = false → idle = []) ∧ walk w.tree (w.route p).1 front = .ok s.parent ∧
        last ≠ [] ∧ last ≠ ['.'] ∧ last ≠ ['.', '.'] ∧ s.name = String.ofList last ∧
        s.name.utf8ByteSize ≤ nameLimit := by
  unfold slot at h
  cases hcheck : checkPath p with
  | error e => simp [hcheck, bind, Except.bind] at h
  | ok u =>
      simp only [hcheck, bind, Except.bind] at h
      set pieces := (w.route p).2 with hpieces
      set named := (pieces.reverse.dropWhile (· = [])).reverse with hnamed
      set idle := (pieces.reverse.takeWhile (· = [])).reverse with hidle
      have hsplit : pieces = named ++ idle := by
        rw [hnamed, hidle, ← List.reverse_append, List.takeWhile_append_dropWhile,
          List.reverse_reverse]
      cases hlast : named.getLast? with
      | none => simp [hlast, pure, Except.pure] at h
      | some last =>
          simp only [hlast] at h
          -- The walk to the last named piece gives the parent, or there is no slot.
          cases hwalk : walk w.tree (w.route p).1 named.dropLast with
          | error e => simp [hwalk] at h
          | ok parent =>
              simp only [hwalk] at h
              split at h
              · simp [throw, throwThe, MonadExceptOf.throw] at h
              rename_i hdir
              split at h
              · simp [pure, Except.pure] at h
              rename_i hdots
              split at h
              · simp [throw, throwThe, MonadExceptOf.throw] at h
              rename_i hlong
              obtain rfl : _ = s := by simpa [pure, Except.pure] using h
              dsimp only
              obtain ⟨front, hfront⟩ := List.getLast?_eq_some_iff.1 hlast
              have hdrop : pieces.reverse.dropWhile (· = []) = last :: front.reverse := by
                rw [← List.reverse_reverse (pieces.reverse.dropWhile _), ← hnamed, hfront]
                simp
              have hnot := List.head?_dropWhile_not (fun x : List Char => decide (x = []))
                pieces.reverse
              rw [hdrop] at hnot
              refine ⟨rfl, by simpa using hdir, front, last, idle, ?_, ?_, ?_, ?_,
                by simpa using hnot, fun hx => hdots (.inl hx), fun hx => hdots (.inr hx), rfl,
                by simpa using hlong⟩
              · simpa [hfront] using hsplit
              · intro piece hpiece
                rw [hidle, List.mem_reverse] at hpiece
                simpa using List.mem_takeWhile_imp hpiece
              · -- No slash stands behind the name, so no piece was dropped.
                intro hslash
                rw [decide_eq_false_iff_not, hsplit, List.length_append] at hslash
                rw [← List.length_eq_zero_iff]
                omega
              · simpa [hfront] using hwalk

lemma walk_slashes (hdir : t.isDirectoryAt l = true) (hidle : ∀ piece ∈ pieces, piece = []) :
    walk t l pieces = .ok l := by
  induction pieces with
  | nil => rfl
  | cons piece rest ih =>
      obtain ⟨rfl, hrest⟩ := List.forall_mem_cons.1 hidle
      exact walk_cons_eq_ok_iff.2 ⟨l, step_eq_ok_iff.2 ⟨hdir, .inl ⟨.inl rfl, rfl⟩⟩, ih hrest⟩

/-- A path leads to its slot as soon as something stands there; behind slashes it has to be a
directory. -/
lemma locate_of_slot {s : Slot} (h : w.slot p = .ok (some s))
    (hdir : w'.directory = w.directory) (hgrows : w.tree.Grows w'.tree)
    (hsome : (w'.tree.node? s.location).isSome = true)
    (hslashes : s.slashes = false ∨ w'.tree.isDirectoryAt s.location = true) :
    w'.locate p = .ok s.location := by
  obtain ⟨hcheck, hparent, front, last, idle, hroute, hidle, hnone, hwalk, hne, hdot, hdots, hname,
    hlen⟩ := slot_spec h
  refine locate_eq_ok_iff.2 ⟨hcheck, ?_⟩
  rw [route_congr hdir, hroute]
  refine walk_append_eq_ok_iff.2 ⟨s.parent, walk_of_grows hgrows hwalk, ?_⟩
  -- Behind the name there may be slashes, which only a directory can have.
  have hstay : walk w'.tree s.location idle = .ok s.location := by
    rcases hslashes with hslash | hlocation
    · rw [hnone hslash, walk_nil]
    · exact walk_slashes hlocation hidle
  refine walk_cons_eq_ok_iff.2
    ⟨s.location, step_eq_ok_iff.2 ⟨hgrows.directory hparent, ?_⟩, hstay⟩
  rw [Slot.location, hname] at hsome ⊢
  rw [hname] at hlen
  exact .inr (.inr ⟨hne, hdot, hdots, hlen, hsome, rfl⟩)

lemma Slot.location_ne_nil (s : Slot) : s.location ≠ [] := by simp [Slot.location]

end Workspace

end Drydock
