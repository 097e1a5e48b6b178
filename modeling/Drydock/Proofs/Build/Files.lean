import Drydock.Build.Files
import Drydock.Proofs.Build.Run
import Drydock.Proofs.FileTree.Above

/-!
# What a run writes

Every file that a run writes itself goes through `writeText`, so the effects below are stated once
for it and carried along the list of headers.

Writing a text makes the directories above it first, so there are three effects to tell apart: the
file gets the text, directories that the path leads through come into being where they were missing,
and nothing else changes (`Workspace.Wrote`).  A directory that is made never hides a file, so what
a path led to before it leads to still, and a text that was written can be read back.

Reading back is where encodings come in: the text is stored as bytes, and its bytes are decoded to
the same text.

* `Build.writeText_wrote` — a text that is written changes its file, and makes missing directories
  above it.
* `Build.writeText_eq_ok` — a path that is written leads to the text in the end.
* `Build.ensureHeaders_eq_ok` — nothing but the headers that are reported as created is written.
-/

namespace Drydock

namespace Build

variable {R : Machine → Machine → Prop} {l : Launcher} {m m' : Machine} {p : Path} {text : String}

/-! ## Effects -/

/-- Only missing directories that the path leads through are made. -/
lemma ensureDirectory_makes (h : (ensureDirectory p).run l m = (.ok (), m')) :
    ∃ w, m' = { m with workspace := w } ∧ m.workspace.MakesDirectories p.ancestors w := by
  rw [ensureDirectory, run_bind_of_eq_ok run_workspace] at h
  split at h
  · obtain ⟨w, hw, rfl⟩ := run_changeAsFar_eq_ok.1 (run_during_eq_ok.1 h)
    have hmakes := Workspace.makesDirectories_upTo p.components.length m.workspace p
    rw [Workspace.makeDirectories] at hw
    rw [hw] at hmakes
    exact ⟨w, rfl, hmakes⟩
  · obtain ⟨-, rfl⟩ := run_pure_eq_ok.1 h
    exact ⟨_, rfl, .refl _ _⟩

lemma ensureParent_makes (h : (ensureParent p).run l m = (.ok (), m')) :
    ∃ w, m' = { m with workspace := w } ∧ m.workspace.MakesDirectories p.above w := by
  unfold ensureParent at h
  split at h
  · rename_i parent hparent
    split at h
    · obtain ⟨-, rfl⟩ := run_pure_eq_ok.1 h
      exact ⟨_, rfl, .refl _ _⟩
    · simpa [Path.above, hparent] using ensureDirectory_makes h
  · obtain ⟨-, rfl⟩ := run_pure_eq_ok.1 h
    exact ⟨_, rfl, .refl _ _⟩

/-- A text that is written changes files and nothing else, and a proper tree stays proper. -/
lemma writeText_wrote (h : (writeText p text).run l m = (.ok (), m')) :
    ∃ w, m' = { m with workspace := w } ∧
      (∃ k, m.workspace.WroteFile w p (Text.Utf8.encode text) k) ∧
      (m.workspace.WellFormed → w.WellFormed) := by
  obtain ⟨_, mid, hparent, h⟩ := run_bind_eq_ok.1 h
  obtain ⟨made, rfl, hmade⟩ := ensureParent_makes hparent
  obtain ⟨w, hw, rfl⟩ := run_change_eq_ok.1 (run_during_eq_ok.1 h)
  obtain ⟨hwrote, hform⟩ := Workspace.wroteFile_of_write hmade hw
  exact ⟨w, rfl, hwrote, hform⟩

/-- A path that is written leads to the text, and nothing else is written. -/
lemma writeText_eq_ok (h : (writeText p text).run l m = (.ok (), m')) : m'.events = m.events ∧
    ∃ k, Workspace.Wrote m.workspace m'.workspace p (Text.Utf8.encode text) k := by
  obtain ⟨w, rfl, ⟨k, hwrote⟩, -⟩ := writeText_wrote h
  exact ⟨rfl, k, hwrote.toWrote⟩

lemma readText_eq_ok {read : String} : (readText p).run l m = (.ok read, m') ↔
    m.workspace.readText p = .ok read ∧ m = m' := by
  rw [readText, run_during_eq_ok, run_inspect_eq_ok]

/-- A file that holds a text is read as that text. -/
lemma readText_of_stat {executable : Bool}
    (h : m.workspace.stat p = .ok (.file (Text.Utf8.encode text) executable)) :
    (readText p).run l m = (.ok text, m) := by
  have hbytes : m.workspace.readBytes p = .ok (Text.Utf8.encode text) := by
    rw [Workspace.readBytes, h]
    rfl
  refine readText_eq_ok.2 ⟨?_, rfl⟩
  simp only [Workspace.readText, hbytes, bind, Except.bind, Text.Utf8.decode?_encode]
  rfl

lemma writeMinimalHeader_eq_ok (h : (writeMinimalHeader p).run l m = (.ok (), m')) :
    ∃ k, Workspace.Wrote m.workspace m'.workspace p
      (Text.Utf8.encode ConfigHeader.minimal) k := by
  rw [writeMinimalHeader, run_bind_of_eq_ok (run_log _ _)] at h
  exact (writeText_eq_ok h).2

/-- The headers that are created are among the given ones, and nothing else is written. -/
lemma ensureHeaders_eq_ok {ps created : List Path}
    (h : (ensureHeaders ps).run l m = (.ok created, m')) :
    created ⊆ ps ∧ Workspace.Writes created m.workspace m'.workspace := by
  induction ps generalizing m created with
  | nil =>
      obtain ⟨rfl, rfl⟩ := run_pure_eq_ok.1 h
      exact ⟨List.Subset.refl _, .refl _⟩
  | cons p rest ih =>
      rw [ensureHeaders, run_bind_of_eq_ok run_workspace] at h
      split at h
      · obtain ⟨hsub, hwrites⟩ := ih h
        exact ⟨List.Subset.trans hsub (List.subset_cons_self p rest), hwrites⟩
      · obtain ⟨_, mid, hwrite, h⟩ := run_bind_eq_ok.1 h
        obtain ⟨more, last, hrest, h⟩ := run_bind_eq_ok.1 h
        obtain ⟨rfl, rfl⟩ := run_pure_eq_ok.1 h
        obtain ⟨k, hwrote⟩ := writeMinimalHeader_eq_ok hwrite
        obtain ⟨hsub, hwrites⟩ := ih hrest
        exact ⟨List.cons_subset_cons p hsub, hwrote.writes.trans hwrites⟩

lemma writeConfigValues_eq_ok {v : ConfigValues}
    (h : (writeConfigValues v p).run l m = (.ok (), m')) :
    Workspace.Writes [p] m.workspace m'.workspace := by
  rw [writeConfigValues, run_bind_of_eq_ok (run_logAll _ _)] at h
  obtain ⟨-, k, hwrote⟩ := writeText_eq_ok h
  exact hwrote.writes

/-! ## What holds across them -/

lemma keeps_ensureDirectory (hR : AccruesChanges R) (p : Path) : Keeps R (ensureDirectory p) := by
  refine keeps_bind hR.toAccrues (keeps_workspace hR.toAccrues) fun w => ?_
  split
  · exact keeps_during (keeps_changeAsFar hR _)
  · exact keeps_pure hR.toAccrues ()

lemma keeps_ensureParent (hR : AccruesChanges R) (p : Path) : Keeps R (ensureParent p) := by
  unfold ensureParent
  split
  · split
    · exact keeps_pure hR.toAccrues ()
    · exact keeps_ensureDirectory hR _
  · exact keeps_pure hR.toAccrues ()

lemma keeps_writeText (hR : AccruesChanges R) (p : Path) (text : String) :
    Keeps R (writeText p text) :=
  keeps_bind hR.toAccrues (keeps_ensureParent hR p) fun _ => keeps_during (keeps_change hR _)

lemma keeps_writeMinimalHeader (hR : AccruesChanges R) (p : Path) :
    Keeps R (writeMinimalHeader p) :=
  keeps_bind hR.toAccrues (keeps_log hR.toAccrues _ _) fun _ => keeps_writeText hR p _

lemma keeps_ensureHeaders (hR : AccruesChanges R) (ps : List Path) :
    Keeps R (ensureHeaders ps) := by
  induction ps with
  | nil => exact keeps_pure hR.toAccrues _
  | cons p rest ih =>
      refine keeps_bind hR.toAccrues (keeps_workspace hR.toAccrues) fun w => ?_
      split
      · exact ih
      · refine keeps_bind hR.toAccrues (keeps_writeMinimalHeader hR p) fun _ => ?_
        exact keeps_bind hR.toAccrues ih fun _ => keeps_pure hR.toAccrues _

lemma keeps_readText (hR : Accrues R) (p : Path) : Keeps R (readText p) :=
  keeps_during (keeps_inspect hR _)

lemma keeps_writeConfigValues (hR : AccruesChanges R) (v : ConfigValues) (p : Path) :
    Keeps R (writeConfigValues v p) :=
  keeps_bind hR.toAccrues (keeps_logAll hR.toAccrues _ _) fun _ => keeps_writeText hR p _

end Build

end Drydock
