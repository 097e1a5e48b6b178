import Drydock.Build.Modules
import Drydock.Proofs.Build.Files

/-!
# Actions that start no program

Between two programs a run makes directories, writes files and reports.  Such an action starts
nothing, and it fails only where the operating system refuses it a file.

Both facts are kept in one property, since every action that has the one has the other, and they are
needed together: the first puts the action between two launches of a course, the second tells how
the course ends when the action fails.  Programs are told apart from messages in the history of a
machine (`Machine.started`), so that the history itself may grow.

* `Machine.started` — the programs that a machine has seen, with their ends.
* `Build.Silent` — actions that start nothing and fail on files only.
-/

namespace Drydock

/-- Whether an event is the start of a program. -/
def Event.isStart : Event → Bool
  | .log _ _ => false
  | .ran _ _ _ => true

/-- The programs that were started so far, with their ends. -/
def Machine.started (m : Machine) : List Event := m.events.filter Event.isStart

/-- No program was started on the way from one machine to the other. -/
def StartsNothing (m m' : Machine) : Prop := m'.started = m.started

lemma StartsNothing.trans {m m' m'' : Machine} (h : StartsNothing m m')
    (h' : StartsNothing m' m'') : StartsNothing m m'' := Eq.trans h' h

/-- Activities that read or change files. -/
def Activity.onFiles : Activity → Bool
  | .creatingDirectory _ | .reading _ | .writing _ | .removing _ | .makingProbeDirectory _ => true
  | _ => false

/-- The operating system refused a file operation. -/
def Failure.OnFiles (f : Failure) : Prop :=
  (∃ e, f.cause = .io e) ∧ ∃ a ∈ f.during, a.onFiles = true

lemma Failure.OnFiles.under {f : Failure} (h : f.OnFiles) (activity : Activity) :
    (f.under activity).OnFiles := by
  obtain ⟨hcause, a, ha, hfiles⟩ := h
  exact ⟨hcause, a, List.mem_cons_of_mem _ ha, hfiles⟩

lemma Failure.onFiles_io {activity : Activity} (h : activity.onFiles = true) (e : IoError) :
    (Failure.under { cause := .io e } activity).OnFiles :=
  ⟨⟨e, rfl⟩, activity, List.mem_cons_self, h⟩

@[simp] lemma Machine.started_note_log (m : Machine) (level : Level) (message : String) :
    (m.note (.log level message)).started = m.started := by
  simp [started, note, Event.isStart]

@[simp] lemma Machine.started_note_ran (m : Machine) (i : Invocation)
    (result : Except IoError Exit) (shown : Bool) :
    (m.note (.ran i result shown)).started = m.started ++ [.ran i result shown] := by
  simp [started, note, Event.isStart]

lemma accruesChanges_startsNothing : AccruesChanges StartsNothing where
  refl _ := rfl
  trans := StartsNothing.trans
  log m level message := m.started_note_log level message
  change _ _ := rfl

namespace Build

variable {α β : Type} {b : Build α} {f : α → Build β} {activity : Activity} {p : Path}

/-- An action that starts nothing and fails only where a file operation is refused. -/
structure Silent (b : Build α) : Prop where
  keeps : Keeps StartsNothing b
  onFiles : ∀ l m e, (b.run l m).1 = .error e → e.OnFiles

lemma Silent.startsNothing {l : Launcher} {m m' : Machine} {result : Except Failure α}
    (h : Silent b) (hrun : b.run l m = (result, m')) : StartsNothing m m' := h.keeps.of_run hrun

lemma silent_pure (a : α) : Silent (pure a : Build α) :=
  ⟨keeps_pure accruesChanges_startsNothing.toAccrues a, fun _ _ _ h => by cases h⟩

lemma silent_bind (hb : Silent b) (hf : ∀ a, Silent (f a)) : Silent (b >>= f) := by
  refine ⟨keeps_bind accruesChanges_startsNothing.toAccrues hb.keeps fun a => (hf a).keeps, ?_⟩
  intro l m e he
  rw [run_bind] at he
  rcases hrun : b.run l m with ⟨e' | a, mid⟩
  · rw [hrun] at he
    cases he
    exact hb.onFiles l m e (by rw [hrun])
  · rw [hrun] at he
    exact (hf a).onFiles l mid e he

lemma silent_workspace : Silent workspace :=
  ⟨keeps_workspace accruesChanges_startsNothing.toAccrues, fun _ _ _ h => by cases h⟩

lemma silent_machine : Silent machine :=
  ⟨fun _ _ => rfl, fun _ _ _ h => by cases h⟩

lemma silent_log (level : Level) (message : String) : Silent (log level message) :=
  ⟨keeps_log accruesChanges_startsNothing.toAccrues level message, fun _ _ _ h => by cases h⟩

lemma silent_logAll (level : Level) (messages : List String) :
    Silent (logAll level messages) := by
  refine ⟨keeps_logAll accruesChanges_startsNothing.toAccrues level messages, ?_⟩
  intro l m e he
  rw [run_logAll] at he
  cases he

/-- Looking at files fails on files. -/
lemma silent_inspect (h : activity.onFiles = true) (read : Workspace → Except IoError α) :
    Silent (during activity (Build.inspect read)) := by
  refine ⟨keeps_during (keeps_inspect accruesChanges_startsNothing.toAccrues read), ?_⟩
  intro l m e he
  simp only [run, during, Build.inspect] at he
  cases hread : read m.workspace with
  | ok a => simp [hread] at he
  | error io =>
      simp only [hread] at he
      cases he
      exact Failure.onFiles_io h io

/-- A change of files fails on files. -/
lemma silent_change (h : activity.onFiles = true) (act : Workspace → Except IoError Workspace) :
    Silent (during activity (change act)) := by
  refine ⟨keeps_during (keeps_change accruesChanges_startsNothing act), ?_⟩
  intro l m e he
  simp only [run, during, change] at he
  cases hact : act m.workspace with
  | ok w => simp [hact] at he
  | error io =>
      simp only [hact] at he
      cases he
      exact Failure.onFiles_io h io

lemma silent_changeAsFar (h : activity.onFiles = true)
    (act : Workspace → Except IoError Unit × Workspace) :
    Silent (during activity (changeAsFar act)) := by
  refine ⟨keeps_during (keeps_changeAsFar accruesChanges_startsNothing act), ?_⟩
  intro l m e he
  simp only [run, during, changeAsFar] at he
  rcases hact : act m.workspace with ⟨io | u, w⟩
  · simp only [hact] at he
    cases he
    exact Failure.onFiles_io h io
  · simp [hact] at he

lemma silent_ensureDirectory (p : Path) : Silent (ensureDirectory p) := by
  refine silent_bind silent_workspace fun w => ?_
  split
  · exact silent_changeAsFar rfl _
  · exact silent_pure ()

lemma silent_ensureDirectoryOf (p : Path) : Silent (ensureDirectoryOf p) := by
  unfold ensureDirectoryOf
  split
  · exact silent_ensureDirectory _
  · exact silent_pure ()

lemma silent_ensureParent (p : Path) : Silent (ensureParent p) := by
  unfold ensureParent
  split
  · split
    · exact silent_pure ()
    · exact silent_ensureDirectory _
  · exact silent_pure ()

lemma silent_writeText (p : Path) (text : String) : Silent (writeText p text) :=
  silent_bind (silent_ensureParent p) fun _ => silent_change rfl _

lemma silent_writeHeader (h : ConfigHeader) (p : Path) : Silent (writeHeader h p) :=
  silent_bind (silent_log _ _) fun _ => silent_writeText p _

lemma silent_writeMinimalHeader (p : Path) : Silent (writeMinimalHeader p) :=
  silent_bind (silent_log _ _) fun _ => silent_writeText p _

lemma silent_ensureHeaders (ps : List Path) : Silent (ensureHeaders ps) := by
  induction ps with
  | nil => exact silent_pure []
  | cons p rest ih =>
      refine silent_bind silent_workspace fun w => ?_
      split
      · exact ih
      · exact silent_bind (silent_writeMinimalHeader p) fun _ =>
          silent_bind ih fun _ => silent_pure _

lemma silent_writeConfigValues (v : ConfigValues) (p : Path) : Silent (writeConfigValues v p) :=
  silent_bind (silent_logAll _ _) fun _ => silent_writeText p _

lemma silent_makeProbeDirectory (scratch : Path) : Silent (makeProbeDirectory scratch) :=
  silent_bind silent_machine fun _ =>
    silent_bind (silent_change rfl _) fun _ => silent_pure _

/-- Removing a directory never fails. -/
lemma run_removeDirectory (dir : Path) (l : Launcher) (m : Machine) :
    ∃ m', (removeDirectory dir).run l m = (.ok (), m') ∧ StartsNothing m m' := by
  simp only [run, removeDirectory]
  split
  · exact ⟨_, rfl, rfl⟩
  · exact ⟨_, rfl, rfl⟩

lemma silent_removeDirectory (dir : Path) : Silent (removeDirectory dir) := by
  constructor
  · intro l m
    obtain ⟨m', hrun, hquiet⟩ := run_removeDirectory dir l m
    rwa [hrun]
  · intro l m e he
    obtain ⟨m', hrun, -⟩ := run_removeDirectory dir l m
    simp [hrun] at he

end Build

end Drydock
