import Drydock.Proofs.Build.Deeds

/-!
# Default headers

The default headers of a library are looked for one after the other, and one that is missing when
its turn comes is written.  What was written for one header is there for those behind it, so a
header that is listed twice is written once, and a second run finds all of them.

A header is looked for by its path, and the directories above it are made only when it is written.
So a header whose path leads up out of a directory that is not there yet is missing when it is
looked for, even if it turns out to lead to a file that is there.  Where no path does that
(`Workspace.StepsUpInside`), a missing header is a missing file, and nothing is overwritten.

* `HeaderTurns` — the headers that are written, each at its turn.
* `HeaderTurns.exists`, `HeaderTurns.nodup` — in the end all headers are there, and none was written
  twice.
* `Build.ensureHeaders_keeps` — headers that step up only out of directories that are there change
  nothing that is there.
-/

namespace Drydock

/-- Headers have their turns: one that is there is left alone, one that is missing is written with
the minimal text.  The second list holds those that were written. -/
inductive HeaderTurns : List Path → Machine → List Path → Machine → Prop where
  | done (m : Machine) : HeaderTurns [] m [] m
  | kept {p : Path} {ps created : List Path} {m stop : Machine}
      (hthere : m.workspace.exists p = true) (hrest : HeaderTurns ps m created stop) :
      HeaderTurns (p :: ps) m created stop
  | written {p : Path} {ps created : List Path} {m before stop : Machine} {w : Workspace}
      {k : Location} (hmissing : m.workspace.exists p = false) (hlog : Reports m before)
      (hwrote : m.workspace.WroteFile w p (Text.Utf8.encode ConfigHeader.minimal) k)
      (hrest : HeaderTurns ps { before with workspace := w } created stop) :
      HeaderTurns (p :: ps) m (p :: created) stop

variable {l : Launcher} {m stop : Machine} {w w' : Workspace} {p : Path} {ps created : List Path}
  {contents : Bytes} {k : Location} {node : Node}

/-- What is there stays there while a tree grows. -/
lemma Workspace.exists_of_grows (hdir : w'.directory = w.directory) (hgrows : w.tree.Grows w'.tree)
    (h : w.exists p = true) : w'.exists p = true := by
  obtain ⟨k, hlocate, hsome⟩ := exists_iff.1 h
  exact exists_iff.2 ⟨k, locate_of_grows hdir hgrows hlocate, hgrows.present hsome⟩

lemma Workspace.Wrote.exists (h : w.Wrote w' p contents k) : w'.exists p = true := by
  obtain ⟨x, hnode⟩ := h.node
  refine exists_iff.2 ⟨k, h.locate, ?_⟩
  rw [hnode]
  rfl

namespace HeaderTurns

lemma grows (h : HeaderTurns ps m created stop) :
    stop.workspace.directory = m.workspace.directory ∧
      m.workspace.tree.Grows stop.workspace.tree := by
  induction h with
  | done m => exact ⟨rfl, .refl _⟩
  | kept hthere hrest ih => exact ih
  | written hmissing hlog hwrote hrest ih =>
      exact ⟨ih.1.trans hwrote.directory, hwrote.grows.trans ih.2⟩

lemma deeds (h : HeaderTurns ps m created stop) :
    Deeds l m (created.map fun p => .write p ConfigHeader.minimal) stop := by
  induction h with
  | done m => exact .none (accrues_reports.refl m)
  | kept hthere hrest ih => exact ih
  | written hmissing hlog hwrote hrest ih => exact .write hlog (hlog.workspace ▸ hwrote) ih

lemma «exists» (h : HeaderTurns ps m created stop) : ∀ p ∈ ps, stop.workspace.exists p = true := by
  induction h with
  | done m => simp
  | kept hthere hrest ih =>
      obtain ⟨hdir, hgrows⟩ := hrest.grows
      exact List.forall_mem_cons.2 ⟨Workspace.exists_of_grows hdir hgrows hthere, ih⟩
  | written hmissing hlog hwrote hrest ih =>
      obtain ⟨hdir, hgrows⟩ := hrest.grows
      exact List.forall_mem_cons.2 ⟨Workspace.exists_of_grows hdir hgrows hwrote.exists, ih⟩

lemma missing (h : HeaderTurns ps m created stop) :
    ∀ p ∈ created, m.workspace.exists p = false := by
  induction h with
  | done m => simp
  | kept hthere hrest ih => exact ih
  | written hmissing hlog hwrote hrest ih =>
      refine List.forall_mem_cons.2 ⟨hmissing, fun q hq => ?_⟩
      rw [← Bool.not_eq_true]
      intro hthere
      have hlater := Workspace.exists_of_grows hwrote.directory hwrote.grows hthere
      rw [ih q hq] at hlater
      cases hlater

lemma nodup (h : HeaderTurns ps m created stop) : created.Nodup := by
  induction h with
  | done m => exact List.nodup_nil
  | kept hthere hrest ih => exact ih
  | written hmissing hlog hwrote hrest ih =>
      refine List.nodup_cons.2 ⟨fun hagain => ?_, ih⟩
      have hmissing' := hrest.missing _ hagain
      rw [hwrote.exists] at hmissing'
      cases hmissing'

end HeaderTurns

namespace Build

/-- A header that is there is passed over; one that is missing is written, and a proper tree stays
proper. -/
lemma ensureHeaders_cons_eq_ok (h : (ensureHeaders (p :: ps)).run l m = (.ok created, stop)) :
    (m.workspace.exists p = true ∧ (ensureHeaders ps).run l m = (.ok created, stop)) ∨
      (m.workspace.exists p = false ∧ ∃ before w k more, created = p :: more ∧ Reports m before ∧
        m.workspace.WroteFile w p (Text.Utf8.encode ConfigHeader.minimal) k ∧
        (m.workspace.WellFormed → w.WellFormed) ∧
        (ensureHeaders ps).run l { before with workspace := w } = (.ok more, stop)) := by
  rw [ensureHeaders, run_bind_of_eq_ok run_workspace] at h
  split at h
  · rename_i hthere
    exact .inl ⟨hthere, h⟩
  · rename_i hmissing
    obtain ⟨_, mid, hwrite, h⟩ := run_bind_eq_ok.1 h
    obtain ⟨more, last, hrest, h⟩ := run_bind_eq_ok.1 h
    obtain ⟨rfl, rfl⟩ := run_pure_eq_ok.1 h
    rw [writeMinimalHeader, run_bind_of_eq_ok (run_log _ _)] at hwrite
    obtain ⟨w, rfl, ⟨k, hwrote⟩, hform⟩ := writeText_wrote hwrite
    exact .inr ⟨by simpa using hmissing, _, w, k, more, rfl, .log _ _, hwrote, hform, hrest⟩

lemma ensureHeaders_turns (h : (ensureHeaders ps).run l m = (.ok created, stop)) :
    HeaderTurns ps m created stop := by
  induction ps generalizing m created with
  | nil =>
      obtain ⟨rfl, rfl⟩ := run_pure_eq_ok.1 h
      exact .done m
  | cons p rest ih =>
      rcases ensureHeaders_cons_eq_ok h with
        ⟨hthere, hrest⟩ | ⟨hmissing, before, w, k, more, rfl, hlog, hwrote, -, hrest⟩
      · exact .kept hthere (ih hrest)
      · exact .written hmissing hlog hwrote (ih hrest)

lemma ensureHeaders_of_exists (h : ∀ p ∈ ps, m.workspace.exists p = true) :
    (ensureHeaders ps).run l m = (.ok [], m) := by
  induction ps with
  | nil => rfl
  | cons p rest ih =>
      obtain ⟨hp, hrest⟩ := List.forall_mem_cons.1 h
      rw [ensureHeaders, run_bind_of_eq_ok run_workspace, if_pos hp]
      exact ih hrest

/-- Headers that step up only out of directories that are there are written to new places. -/
lemma ensureHeaders_keeps (h : (ensureHeaders ps).run l m = (.ok created, stop))
    (hw : m.workspace.WellFormed) (hsteps : ∀ p ∈ ps, m.workspace.StepsUpInside p)
    (hk : m.workspace.tree.node? k = some node) : stop.workspace.tree.node? k = some node := by
  induction ps generalizing m created with
  | nil =>
      obtain ⟨-, rfl⟩ := run_pure_eq_ok.1 h
      exact hk
  | cons p rest ih =>
      obtain ⟨hp, hother⟩ := List.forall_mem_cons.1 hsteps
      rcases ensureHeaders_cons_eq_ok h with
        ⟨hthere, hrest⟩ | ⟨hmissing, before, w, j, more, rfl, hlog, hwrote, hform, hrest⟩
      · exact ih hrest hw hother hk
      · -- Behind the header the tree has grown, and is as proper as it was.
        have hgrown : ∀ q ∈ rest, w.StepsUpInside q := fun q hq =>
          (hother q hq).of_grows hwrote.directory hwrote.grows
        exact ih hrest (hform hw) hgrown (hwrote.node?_of_missing hw hp hmissing hk)

end Build

end Drydock
