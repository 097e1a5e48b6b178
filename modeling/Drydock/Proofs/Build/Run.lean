import Drydock.Build
import Mathlib.Data.List.Basic
import Mathlib.Tactic.Lemma

/-!
# How runs of actions compose

A run that ends well is a chain of runs that end well, and what holds across every single step of a
run holds across the run.

The lemmas come in two kinds.  Those on `Build.run` take apart a run whose result is known, and they
are equivalences or equations, so that a proof can go through a chain of actions in either
direction.  Those on `Build.Keeps` say something of all runs of an action at once, results and
failures alike, and follow its structure: `keeps_bind` is the step, and every primitive action has
its own lemma.

* `Build.run_bind_eq_ok` — takes a run apart at the first action.
* `Build.Keeps` — an action that leaves every machine related to the one it started on.
* `Accrues`, `AccruesChanges`, `AccruesLaunches` — the relations that a chain of steps adds up to,
  by what the steps may do.
* `HistoryGrows` — the relation of a machine to one that has seen more.
-/

namespace Drydock

/-! ## Relations across a run -/

/-- A relation that holds across a run that only looks and reports, when nothing else is known of
the run. -/
structure Accrues (R : Machine → Machine → Prop) : Prop where
  refl : ∀ m, R m m
  trans : ∀ {m m' m''}, R m m' → R m' m'' → R m m''
  log : ∀ m level message, R m (m.note (.log level message))

/-- A relation that also holds across changes of the file tree. -/
structure AccruesChanges (R : Machine → Machine → Prop) : Prop extends Accrues R where
  change : ∀ m w, R m { m with workspace := w }

/-- A relation that also holds across the end of a program. -/
structure AccruesLaunches (R : Machine → Machine → Prop) : Prop extends AccruesChanges R where
  launch : ∀ m i result shown, R m (m.note (.ran i result shown))

/-- The second machine has seen everything that the first one has seen, in the same order. -/
def HistoryGrows (m m' : Machine) : Prop := m.events <+: m'.events

lemma accruesLaunches_historyGrows : AccruesLaunches HistoryGrows where
  refl _ := List.prefix_rfl
  trans := List.IsPrefix.trans
  log m _ _ := List.prefix_append m.events _
  change _ _ := List.prefix_rfl
  launch m _ _ _ := List.prefix_append m.events _

namespace Build

variable {α β : Type} {R : Machine → Machine → Prop} {b : Build α} {f : α → Build β}
  {l : Launcher} {m m' : Machine} {a : α} {c : β}

/-! ## Runs that end well -/

/-- A run of two actions ends well when both of them do. -/
lemma run_bind_eq_ok : (b >>= f).run l m = (.ok c, m') ↔
    ∃ a mid, b.run l m = (.ok a, mid) ∧ (f a).run l mid = (.ok c, m') := by
  rw [run_bind]
  rcases b.run l m with ⟨_ | a, mid⟩
  · simp
  · simp

/-- A run of two actions fails when one of them does. -/
lemma run_bind_eq_error {e : Failure} : (b >>= f).run l m = (.error e, m') ↔
    b.run l m = (.error e, m') ∨
      ∃ a mid, b.run l m = (.ok a, mid) ∧ (f a).run l mid = (.error e, m') := by
  rw [run_bind]
  rcases b.run l m with ⟨_ | a, mid⟩
  · simp
  · simp

/-- What follows an action that ends well starts with its value on the machine it leaves. -/
lemma run_bind_of_eq_ok {mid : Machine} (h : b.run l m = (.ok a, mid)) :
    (b >>= f).run l m = (f a).run l mid := by
  rw [run_bind, h]

/-- An action that ends well does so on the machine it leaves. -/
lemma run_of_fst_eq_ok (h : (b.run l m).1 = .ok a) : b.run l m = (.ok a, (b.run l m).2) :=
  Prod.ext h rfl

/-- An action that fails does so on the machine it leaves. -/
lemma run_of_fst_eq_error {e : Failure} (h : (b.run l m).1 = .error e) :
    b.run l m = (.error e, (b.run l m).2) := Prod.ext h rfl

lemma run_pure_eq_ok {a' : α} :
    (pure a : Build α).run l m = (.ok a', m') ↔ a = a' ∧ m = m' := by
  simp

@[simp] lemma run_log (level : Level) (message : String) :
    (log level message).run l m = (.ok (), m.note (.log level message)) := rfl

/-- The reports that a list of messages leaves. -/
lemma run_logAll (level : Level) (messages : List String) : (logAll level messages).run l m =
    (.ok (), { m with events := m.events ++ messages.map (.log level) }) := by
  induction messages generalizing m with
  | nil => simp [logAll]
  | cons message rest ih =>
      have hstep : logAll level (message :: rest) =
          (do log level message; logAll level rest) := by simp [logAll]
      rw [hstep, run_bind_of_eq_ok (run_log level message), ih]
      simp [Machine.note]

@[simp] lemma run_workspace : workspace.run l m = (.ok m.workspace, m) := rfl

@[simp] lemma run_ofExcept (e : Except Failure α) : (ofExcept e).run l m = (e, m) := rfl

lemma run_ofSetup_eq_ok {e : Except SetupError α} :
    (ofSetup e).run l m = (.ok a, m') ↔ e = .ok a ∧ m = m' := by
  cases e with
  | error e => simp [ofSetup, Except.mapError]
  | ok a => simp [ofSetup, Except.mapError]

lemma run_during_eq_ok {activity : Activity} :
    (during activity b).run l m = (.ok a, m') ↔ b.run l m = (.ok a, m') := by
  simp only [run, during]
  rcases b l m with ⟨_ | a, mid⟩
  · simp
  · simp

/-- An activity shows in the failure alone. -/
lemma run_during (activity : Activity) (b : Build α) : (during activity b).run l m =
    ((b.run l m).1.mapError (·.under activity), (b.run l m).2) := by
  unfold run during
  rcases b l m with ⟨e | a, next⟩
  · rfl
  · rfl

lemma run_outcome (b : Build α) : (outcome b).run l m =
    (.ok (b.run l m).1, (b.run l m).2) := rfl

lemma run_inspect_eq_ok {read : Workspace → Except IoError α} :
    (Build.inspect read).run l m = (.ok a, m') ↔ read m.workspace = .ok a ∧ m = m' := by
  simp only [run, Build.inspect]
  cases read m.workspace with
  | error e => simp
  | ok a => simp

lemma run_change_eq_ok {act : Workspace → Except IoError Workspace} :
    (change act).run l m = (.ok (), m') ↔
      ∃ w, act m.workspace = .ok w ∧ { m with workspace := w } = m' := by
  simp only [run, change]
  cases act m.workspace with
  | error e => simp
  | ok w => simp

lemma run_changeAsFar_eq_ok {act : Workspace → Except IoError Unit × Workspace} :
    (changeAsFar act).run l m = (.ok (), m') ↔
      ∃ w, act m.workspace = (.ok (), w) ∧ { m with workspace := w } = m' := by
  simp only [run, changeAsFar]
  rcases act m.workspace with ⟨_ | u, w⟩
  · simp
  · simp

/-! ## What holds across an action -/

/-- Whether or not it succeeds, the action leaves a machine that is related to the one it started
on. -/
def Keeps (R : Machine → Machine → Prop) (b : Build α) : Prop := ∀ l m, R m (b.run l m).2

lemma Keeps.of_run {result : Except Failure α} (hb : Keeps R b) (h : b.run l m = (result, m')) :
    R m m' := by
  simpa [h] using hb l m

section Accrues

variable (hR : Accrues R)

include hR

lemma keeps_pure (a : α) : Keeps R (pure a : Build α) := fun _ m => hR.refl m

lemma keeps_bind (hb : Keeps R b) (hf : ∀ a, Keeps R (f a)) : Keeps R (b >>= f) := by
  intro l m
  rw [run_bind]
  have h := hb l m
  rcases hrun : b.run l m with ⟨_ | a, mid⟩
  · simpa [hrun] using h
  · rw [hrun] at h
    exact hR.trans h (hf a l mid)

lemma keeps_log (level : Level) (message : String) : Keeps R (log level message) :=
  fun _ m => hR.log m level message

lemma keeps_forM {γ : Type} {act : γ → Build Unit} (xs : List γ) (h : ∀ x, Keeps R (act x)) :
    Keeps R (xs.forM act) := by
  induction xs with
  | nil => exact keeps_pure hR ()
  | cons x rest ih => exact keeps_bind hR (h x) fun _ => ih

lemma keeps_logAll (level : Level) (messages : List String) : Keeps R (logAll level messages) :=
  keeps_forM hR messages (keeps_log hR level)

lemma keeps_workspace : Keeps R workspace := fun _ m => hR.refl m

lemma keeps_fail (e : Failure) : Keeps R (fail e : Build α) := fun _ m => hR.refl m

lemma keeps_ofExcept (e : Except Failure α) : Keeps R (ofExcept e) := fun _ m => hR.refl m

lemma keeps_ofSetup (e : Except SetupError α) : Keeps R (ofSetup e) := keeps_ofExcept hR _

lemma keeps_inspect (read : Workspace → Except IoError α) : Keeps R (Build.inspect read) := by
  intro l m
  simp only [run, Build.inspect]
  split
  · exact hR.refl m
  · exact hR.refl m

omit hR in
lemma keeps_during {activity : Activity} (hb : Keeps R b) : Keeps R (during activity b) := by
  intro l m
  have h := hb l m
  simp only [run, during] at h ⊢
  split
  · rename_i hrun
    simpa [hrun] using h
  · exact h

omit hR in
lemma keeps_outcome (hb : Keeps R b) : Keeps R (outcome b) := fun l m => hb l m

end Accrues

lemma keeps_change (hR : AccruesChanges R) (act : Workspace → Except IoError Workspace) :
    Keeps R (change act) := by
  intro l m
  simp only [run, change]
  split
  · exact hR.change m _
  · exact hR.refl m

lemma keeps_changeAsFar (hR : AccruesChanges R)
    (act : Workspace → Except IoError Unit × Workspace) : Keeps R (changeAsFar act) := by
  intro l m
  simp only [run, changeAsFar]
  split
  · exact hR.change m _
  · exact hR.change m _

lemma keeps_launch (hR : AccruesLaunches R) (i : Invocation) (shown : Bool) :
    Keeps R (launch i shown) := by
  intro l m
  have h : ∀ tree result, R m ((m.withTree tree).note (.ran i result shown)) := fun tree result =>
    hR.trans (hR.change m _) (hR.launch _ i result shown)
  simp only [run, launch]
  split
  · exact h _ _
  · exact h _ _

end Build

end Drydock
