import Drydock.Machine

/-!
# Build actions

A `Build` is an action on a machine, carried out with a launcher.  It ends with a value or a
failure, and in both cases leaves the machine as far as it got.

* `Build.log`, `Build.change`, `Build.launch` — the only actions that touch the machine.
* `Build.during` — names the activity around an action in its failure.
* `Build.outcome` — turns the failure of an action into a value.
-/

namespace Drydock

/-- An action on a machine. -/
def Build (α : Type) : Type := Launcher → Machine → Except Failure α × Machine

namespace Build

/-- Carries an action out. -/
def run (b : Build α) (l : Launcher) (m : Machine) : Except Failure α × Machine := b l m

/-- Carries one action out after another, unless the first one fails. -/
def andThen (b : Build α) (f : α → Build β) : Build β := fun l m =>
  match b l m with
  | (.ok a, next) => f a l next
  | (.error e, next) => (.error e, next)

instance : Monad Build where
  pure a := fun _ m => (.ok a, m)
  bind := andThen

instance : MonadExceptOf Failure Build where
  throw e := fun _ m => (.error e, m)
  tryCatch b handle := fun l m =>
    match b l m with
    | (.error e, next) => handle e l next
    | done => done

theorem andThen_pure_id (b : Build α) : andThen b (fun a => pure (id a)) = b := by
  funext l m
  unfold andThen
  split
  · rename_i h
    rw [h]
    rfl
  · rename_i h
    rw [h]

theorem andThen_assoc (b : Build α) (f : α → Build β) (g : β → Build γ) :
    andThen (andThen b f) g = andThen b fun a => andThen (f a) g := by
  funext l m
  simp only [andThen]
  split <;> split <;> simp_all

instance : LawfulMonad Build :=
  .mk' Build andThen_pure_id (fun _ _ => rfl) andThen_assoc

@[simp] theorem run_pure (a : α) (l : Launcher) (m : Machine) :
    (pure a : Build α).run l m = (.ok a, m) := rfl

/-- What follows an action starts on the machine it leaves. -/
theorem run_bind (b : Build α) (f : α → Build β) (l : Launcher) (m : Machine) :
    (b >>= f).run l m =
      match b.run l m with
      | (.ok a, next) => (f a).run l next
      | (.error e, next) => (.error e, next) := rfl

/-! ## Looking at the machine -/

/-- Ends with a failure. -/
def fail (f : Failure) : Build α := fun _ m => (.error f, m)

/-- Ends as a computation does. -/
def ofExcept (e : Except Failure α) : Build α := fun _ m => (e, m)

/-- Ends as a computation on the settings does. -/
def ofSetup (e : Except SetupError α) : Build α := ofExcept (e.mapError Failure.ofSetup)

/-- Ends as a computation on the module graph does. -/
def ofGraph (e : Except GraphError α) : Build α := ofExcept (e.mapError Failure.ofGraph)

/-- The machine. -/
def machine : Build Machine := fun _ m => (.ok m, m)

/-- The file tree with the working directory. -/
def workspace : Build Workspace := fun _ m => (.ok m.workspace, m)

/-! ## Acting on the machine -/

/-- Reports a message. -/
def log (level : Level) (message : String) : Build Unit := fun _ m =>
  (.ok (), m.note (.log level message))

/-- Reports several messages. -/
def logAll (level : Level) (messages : List String) : Build Unit := messages.forM (log level)

/-- Names the activity around an action in its failure. -/
def during (activity : Activity) (b : Build α) : Build α := fun l m =>
  match b l m with
  | (.error e, next) => (.error (e.under activity), next)
  | done => done

/-- Turns the failure of an action into a value. -/
def outcome (b : Build α) : Build (Except Failure α) := fun l m =>
  match b l m with
  | (result, next) => (.ok result, next)

/-- Reads from the file tree. -/
def inspect (read : Workspace → Except IoError α) : Build α := fun _ m =>
  match read m.workspace with
  | .ok a => (.ok a, m)
  | .error e => (.error (Cause.io e), m)

/-- Changes the file tree, unless the change is refused. -/
def change (act : Workspace → Except IoError Workspace) : Build Unit := fun _ m =>
  match act m.workspace with
  | .ok w => (.ok (), { m with workspace := w })
  | .error e => (.error (Cause.io e), m)

/-- Changes the file tree as far as the change is not refused. -/
def changeAsFar (act : Workspace → Except IoError Unit × Workspace) : Build Unit := fun _ m =>
  match act m.workspace with
  | (.ok (), w) => (.ok (), { m with workspace := w })
  | (.error e, w) => (.error (Cause.io e), { m with workspace := w })

/-- Starts a program and waits for its end. -/
def launch (i : Invocation) (shown : Bool) : Build Exit := fun l m =>
  match l m i with
  | (result, tree) =>
      let next := (m.withTree tree).note (.ran i result shown)
      match result with
      | .ok e => (.ok e, next)
      | .error e => (.error (Cause.io e), next)

end Build

end Drydock
