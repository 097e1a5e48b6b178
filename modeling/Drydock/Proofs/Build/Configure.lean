import Drydock.Proofs.Build.Course

/-!
# Configuring the library

The configure script may do anything: whether it accepts some options can depend on the attempts in
front of it.  So the search for options is described as a relation between the candidates, the
attempts that are made, each with the machine it is made on, and the options that are accepted in
the end.

The relation lists the machines of the attempts and not only their options, for two reasons.  The
answer of the script is that of the launcher on just this machine, and what an earlier attempt has
done to the files of the library is still there for the next one: nothing is undone between two
attempts (`Attempts.before_eq`, with `leftBy` for the files).

A refused attempt is reported with the end of what the script has printed.  These are messages, so
they lie between two attempts without any effect.

* `Attempt` — one start of the configure script.
* `Attempts` — candidates are tried in turn until one is accepted.
* `Searches` — what a search starts and what it reports.
* `Build.exists_attempts` — every search is such a sequence of attempts, and none of them fails it.
* `Build.configureLibrary_searches` — configuring is such a search, or there is no script.
* `Build.configureVendored_started`, `Build.queryVariables_started` — what is started when the
  library is configured and its build is asked for variables.
-/

namespace Drydock

/-! ## Single attempts -/

/-- The configure script is started with options on a machine. -/
structure Attempt where
  options : String
  before : Machine

namespace Attempt

variable (l : Launcher) (dir : Path) (vars : List ConfigureVariable) (x : Attempt)

/-- What is started. -/
def invocation : Invocation := Build.configureInvocation dir vars x.options

/-- How the script ends. -/
def result : Except IoError Exit := (l x.before (x.invocation dir vars)).1

/-- The script accepts the options.  A script that cannot be started does not. -/
def Accepted : Prop := ∃ e, x.result l dir vars = .ok e ∧ e.success = true

/-- The attempt in the history of a machine. -/
def event : Event := .ran (x.invocation dir vars) (x.result l dir vars) false

/-- The machine that the script leaves. -/
def after : Machine :=
  (x.before.withTree (l x.before (x.invocation dir vars)).2).note (x.event l dir vars)

lemma started_after :
    (x.after l dir vars).started = x.before.started ++ [x.event l dir vars] :=
  Machine.started_note_ran _ _ _ _

end Attempt

/-! ## The search -/

/-- Candidates are tried in turn, each behind a report, until one is accepted; a candidate that is
not is reported as well. -/
inductive Attempts (l : Launcher) (dir : Path) (vars : List ConfigureVariable) :
    List String → Machine → List Attempt → Option String → Machine → Prop where
  | exhausted (m : Machine) : Attempts l dir vars [] m [] none m
  | accepted {options : String} {rest : List String} {start before : Machine}
      (hlog : Reports start before) (hok : Attempt.Accepted l dir vars ⟨options, before⟩) :
      Attempts l dir vars (options :: rest) start [⟨options, before⟩] (some options)
        (Attempt.after l dir vars ⟨options, before⟩)
  | next {options : String} {rest : List String} {start before ready stop : Machine}
      {xs : List Attempt} {chosen : Option String} (hlog : Reports start before)
      (hrefused : ¬ Attempt.Accepted l dir vars ⟨options, before⟩)
      (hwarn : Reports (Attempt.after l dir vars ⟨options, before⟩) ready)
      (hrest : Attempts l dir vars rest ready xs chosen stop) :
      Attempts l dir vars (options :: rest) start (⟨options, before⟩ :: xs) chosen stop

variable {l : Launcher} {dir : Path} {vars : List ConfigureVariable} {candidates : List String}
  {start stop : Machine} {xs : List Attempt} {chosen : Option String}

lemma Attempts.options_prefix (h : Attempts l dir vars candidates start xs chosen stop) :
    xs.map (·.options) <+: candidates := by
  induction h with
  | exhausted m => exact List.prefix_rfl
  | accepted hlog hok => exact List.prefix_append [_] _
  | next hlog hrefused hwarn hrest ih => exact (List.prefix_cons_inj _).2 ih

lemma Attempts.started (h : Attempts l dir vars candidates start xs chosen stop) :
    stop.started = start.started ++ xs.map (Attempt.event l dir vars) := by
  induction h with
  | exhausted m => simp
  | accepted hlog hok =>
      rw [Attempt.started_after, Build.startsNothing_of_reports hlog]
      rfl
  | next hlog hrefused hwarn hrest ih =>
      rw [ih, Build.startsNothing_of_reports hwarn, Attempt.started_after,
        Build.startsNothing_of_reports hlog]
      simp

/-- The files that some attempts leave. -/
def leftBy (l : Launcher) (dir : Path) (vars : List ConfigureVariable) (start : Machine)
    (xs : List Attempt) : Workspace :=
  (xs.getLast?.elim start (Attempt.after l dir vars)).workspace

lemma leftBy_cons {ready : Machine} (x : Attempt) (xs : List Attempt)
    (h : ready.workspace = (x.after l dir vars).workspace) :
    leftBy l dir vars start (x :: xs) = leftBy l dir vars ready xs := by
  cases xs with
  | nil => exact h.symm
  | cons y ys => simp [leftBy, List.getLast?_cons]

/-- An attempt is made on a machine that has seen all attempts in front of it, with the files that
they have left. -/
lemma Attempts.before_eq (h : Attempts l dir vars candidates start xs chosen stop)
    {front back : List Attempt} {x : Attempt} (hxs : xs = front ++ x :: back) :
    x.before.started = start.started ++ front.map (Attempt.event l dir vars) ∧
      x.before.workspace = leftBy l dir vars start front := by
  induction h generalizing front with
  | exhausted m => simp at hxs
  | @accepted _ _ start before hlog hok =>
      have hquiet : before.started = start.started := Build.startsNothing_of_reports hlog
      obtain ⟨rfl, htail⟩ := (List.append_eq_singleton_iff.1 hxs.symm).resolve_right (by simp)
      obtain ⟨rfl, -⟩ := List.cons.inj htail
      exact ⟨by simpa using hquiet, hlog.workspace⟩
  -- Behind the first attempt the others start on what it has left.
  | @next _ _ start before ready _ _ _ hlog hrefused hwarn hrest ih =>
      have hquiet : before.started = start.started := Build.startsNothing_of_reports hlog
      cases front with
      | nil =>
          obtain ⟨rfl, -⟩ := List.cons.inj hxs
          exact ⟨by simpa using hquiet, hlog.workspace⟩
      | cons first front =>
          obtain ⟨rfl, htail⟩ := List.cons.inj hxs
          obtain ⟨hstarted, hworkspace⟩ := ih htail
          rw [leftBy_cons _ front hwarn.workspace, ← hworkspace, hstarted,
            Build.startsNothing_of_reports hwarn, Attempt.started_after, hquiet]
          simp

/-- A search that gives options has ended with the attempt that was accepted. -/
lemma Attempts.exists_accepted {options : String}
    (h : Attempts l dir vars candidates start xs (some options) stop) :
    ∃ front x, xs = front ++ [x] ∧ x.options = options ∧ x.Accepted l dir vars ∧
      ∀ y ∈ front, ¬ y.Accepted l dir vars := by
  generalize hchosen : some options = chosen at h
  induction h with
  | exhausted m => simp at hchosen
  | accepted hlog hok => exact ⟨[], _, rfl, (Option.some.inj hchosen).symm, hok, by simp⟩
  | next hlog hrefused hwarn hrest ih =>
      obtain ⟨front, x, rfl, hoptions, hok, hfront⟩ := ih hchosen
      exact ⟨_ :: front, x, rfl, hoptions, hok, List.forall_mem_cons.2 ⟨hrefused, hfront⟩⟩

lemma Attempts.all_refused (h : Attempts l dir vars candidates start xs none stop) :
    xs.map (·.options) = candidates ∧ ∀ x ∈ xs, ¬ x.Accepted l dir vars := by
  generalize hchosen : none = chosen at h
  induction h with
  | exhausted m => exact ⟨rfl, by simp⟩
  | accepted hlog hok => simp at hchosen
  | next hlog hrefused hwarn hrest ih =>
      obtain ⟨hall, hnone⟩ := ih hchosen
      exact ⟨by rw [List.map_cons, hall], List.forall_mem_cons.2 ⟨hrefused, hnone⟩⟩

/-- What a search starts and what it reports.  The attempts are the script with the words of the
candidates, one after the other from the first candidate on, and each of them meets the files and
the history that the attempts in front of it have left.  The search gives the options of its last
attempt where that one alone was accepted, and none where all candidates were tried in vain. -/
structure Searches (l : Launcher) (dir : Path) (vars : List ConfigureVariable)
    (candidates : List String) (start : Machine) (xs : List Attempt) (chosen : Option String)
    (stop : Machine) : Prop where
  in_order : xs.map (·.options) <+: candidates
  started : stop.started = start.started ++ xs.map fun x =>
    .ran ⟨⟨"sh", "./configure" :: Flags.split x.options⟩, some dir,
      .ofList (vars.map fun v => (v.name, v.value))⟩ (x.result l dir vars) false
  sees : ∀ front x back, xs = front ++ x :: back →
    x.before.started = start.started ++ front.map (Attempt.event l dir vars) ∧
      x.before.workspace = leftBy l dir vars start front
  gives_iff : ∀ options, chosen = some options ↔ ∃ front x, xs = front ++ [x] ∧
    x.options = options ∧ x.Accepted l dir vars ∧ ∀ y ∈ front, ¬ y.Accepted l dir vars
  fails_iff : chosen = none ↔
    xs.map (·.options) = candidates ∧ ∀ x ∈ xs, ¬ x.Accepted l dir vars

lemma Attempts.searches (h : Attempts l dir vars candidates start xs chosen stop) :
    Searches l dir vars candidates start xs chosen stop where
  in_order := h.options_prefix
  started := h.started
  sees _ _ _ := h.before_eq
  gives_iff options := by
    constructor
    · rintro rfl
      exact h.exists_accepted
    · rintro ⟨front, x, rfl, rfl, hok, hfront⟩
      cases chosen with
      | none => exact absurd hok (h.all_refused.2 x (by simp))
      | some options =>
          -- There is one last attempt, so the options are its options.
          obtain ⟨front', y, hlast, rfl, -⟩ := h.exists_accepted
          obtain ⟨-, hsame⟩ := List.append_inj' hlast rfl
          obtain rfl := List.singleton_injective hsame
          rfl
  fails_iff := by
    constructor
    · rintro rfl
      exact h.all_refused
    · rintro ⟨-, hnone⟩
      cases chosen with
      | none => rfl
      | some options =>
          obtain ⟨front, x, rfl, -, hok, -⟩ := h.exists_accepted
          exact absurd hok (hnone x (by simp))

namespace Build

/-- A captured program is started on the machine that the run has come to. -/
lemma run_capture (i : Invocation) (l : Launcher) (m : Machine) : (capture i).run l m =
    ((l m i).1.mapError fun e => (Cause.io e : Failure).under (.spawning i.command.program),
      (m.withTree (l m i).2).note (.ran i (l m i).1 false)) := by
  rw [capture, run_during]
  unfold run launch
  rcases l m i with ⟨e | e, tree⟩
  · rfl
  · rfl

/-- An attempt is made behind a report.  Its failure does not end the run. -/
lemma exists_attempt (dir : Path) (vars : List ConfigureVariable) (options : String)
    (l : Launcher) (start : Machine) : ∃ before, Reports start before ∧
      let x : Attempt := ⟨options, before⟩
      (x.Accepted l dir vars ∧
          (tryConfigure dir vars options).run l start = (.ok true, x.after l dir vars)) ∨
        ¬ x.Accepted l dir vars ∧ ∃ stop, Reports (x.after l dir vars) stop ∧
          (tryConfigure dir vars options).run l start = (.ok false, stop) := by
  let before := start.note (.log .info ("running `" ++
    (configureInvocation dir vars options).command.text ++ "` in " ++ dir.text))
  let x : Attempt := ⟨options, before⟩
  refine ⟨before, .log _ _, ?_⟩
  have hcapture : (outcome (capture (x.invocation dir vars))).run l before =
      (.ok ((x.result l dir vars).mapError fun e => (Cause.io e : Failure).under
        (.spawning (x.invocation dir vars).command.program)), x.after l dir vars) := by
    rw [run_outcome, run_capture]
    rfl
  have hrun : (tryConfigure dir vars options).run l start = _ :=
    (run_bind_of_eq_ok (run_log _ _)).trans (run_bind_of_eq_ok hcapture)
  rw [hrun]
  cases hresult : x.result l dir vars with
  | error e =>
      have hrefused : ¬ x.Accepted l dir vars := by simp [Attempt.Accepted, hresult]
      exact .inr ⟨hrefused, _, .log _ _, rfl⟩
  | ok e =>
      by_cases hsuccess : e.success = true
      · refine .inl ⟨⟨e, hresult, hsuccess⟩, ?_⟩
        simp only [Except.mapError, hsuccess, if_true]
        rfl
      · have hrefused : ¬ x.Accepted l dir vars := by
          simpa [Attempt.Accepted, hresult] using hsuccess
        -- The script has run to its end and refused; its last lines are reported.
        have htail := run_logAll (l := l) (m := (x.after l dir vars).note (.log .warn
          ("configure with options '" ++ options ++ "' failed with exit code " ++
            shownExit e.code)))
          .debug ((lastLines 5 (Text.Utf8.decodeLossy e.stderr)).map ("  " ++ ·))
        refine .inr ⟨hrefused, _, accrues_reports.trans (.log _ _)
          ((keeps_logAll accrues_reports _ _).of_run htail), ?_⟩
        simp only [Except.mapError, hsuccess]
        exact (run_bind_of_eq_ok (run_log _ _)).trans (run_bind_of_eq_ok htail)

lemma exists_attempts (dir : Path) (vars : List ConfigureVariable) (candidates : List String)
    (l : Launcher) (start : Machine) : ∃ chosen stop xs,
      (firstAccepted dir vars candidates).run l start = (.ok chosen, stop) ∧
      Attempts l dir vars candidates start xs chosen stop := by
  induction candidates generalizing start with
  | nil => exact ⟨none, start, [], rfl, .exhausted start⟩
  | cons options rest ih =>
      obtain ⟨before, hlog, ⟨hok, hrun⟩ | ⟨hrefused, ready, hwarn, hrun⟩⟩ :=
        exists_attempt dir vars options l start
      · exact ⟨some options, _, _, run_bind_of_eq_ok hrun, .accepted hlog hok⟩
      · obtain ⟨chosen, stop, xs, hrest, hattempts⟩ := ih ready
        refine ⟨chosen, stop, _, ?_, .next hlog hrefused hwarn hattempts⟩
        rw [firstAccepted, run_bind_of_eq_ok hrun]
        exact hrest

/-! ## Configuring the library -/

variable {e : Failure} {v : Vendored} {s : Settings} {d : CompilerDefaults}

lemma configureLibrary_of_missing {preferred : Option String} {fallbacks : List String}
    {vars : List ConfigureVariable}
    (hscript : start.workspace.exists (dir.join ⟨"configure"⟩) = false) :
    (configureLibrary dir preferred fallbacks vars).run l start =
      (.error (SetupError.missingConfigureScript (dir.join ⟨"configure"⟩)), start) := by
  rw [configureLibrary, run_bind_of_eq_ok run_workspace, hscript]
  rfl

lemma configureLibrary_of_exists {preferred : Option String} {fallbacks : List String}
    {vars : List ConfigureVariable}
    (hscript : start.workspace.exists (dir.join ⟨"configure"⟩) = true) :
    (configureLibrary dir preferred fallbacks vars).run l start =
      (firstAccepted dir vars (configureCandidates preferred fallbacks)).run l start := by
  rw [configureLibrary, run_bind_of_eq_ok run_workspace, hscript]
  rfl

/-- Configuring fails only if there is no script, and then nothing is done. -/
lemma configureLibrary_eq_error {preferred : Option String} {fallbacks : List String}
    {vars : List ConfigureVariable}
    (hrun : (configureLibrary dir preferred fallbacks vars).run l start = (.error e, stop)) :
    stop = start := by
  cases hscript : start.workspace.exists (dir.join ⟨"configure"⟩) with
  | false =>
      rw [configureLibrary_of_missing hscript] at hrun
      exact (Prod.mk.inj hrun).2.symm
  | true =>
      obtain ⟨chosen, stop, xs, hattempts, -⟩ :=
        exists_attempts dir vars (configureCandidates preferred fallbacks) l start
      rw [configureLibrary_of_exists hscript, hattempts] at hrun
      cases hrun

lemma configureLibrary_eq_ok {preferred chosen : Option String} {fallbacks : List String}
    {vars : List ConfigureVariable}
    (hrun : (configureLibrary dir preferred fallbacks vars).run l start = (.ok chosen, stop)) :
    ∃ xs, Attempts l dir vars (configureCandidates preferred fallbacks) start xs chosen stop := by
  cases hscript : start.workspace.exists (dir.join ⟨"configure"⟩) with
  | false =>
      rw [configureLibrary_of_missing hscript] at hrun
      cases hrun
  | true =>
      obtain ⟨chosen', stop', xs, hattempts, hsearch⟩ :=
        exists_attempts dir vars (configureCandidates preferred fallbacks) l start
      rw [configureLibrary_of_exists hscript, hattempts] at hrun
      obtain ⟨⟨⟩, rfl⟩ := Prod.mk.inj hrun
      exact ⟨xs, hsearch⟩

lemma configureCandidates_eq (preferred : Option String) (fallbacks : List String) :
    configureCandidates preferred fallbacks =
      if preferred = none ∧ fallbacks = [] then [""] else preferred.toList ++ fallbacks := by
  cases preferred with
  | none => cases fallbacks <;> rfl
  | some options => rfl

/-- Without a configure script nothing is attempted.  With one, configuring never fails, whatever
the script does: it searches the preferred options and the fallbacks, or no options at all where
there are neither. -/
theorem configureLibrary_searches (dir : Path) (preferred : Option String)
    (fallbacks : List String) (vars : List ConfigureVariable) (l : Launcher) (start : Machine) :
    (start.workspace.exists (dir.join ⟨"configure"⟩) = false →
      (configureLibrary dir preferred fallbacks vars).run l start =
        (.error (SetupError.missingConfigureScript (dir.join ⟨"configure"⟩)), start)) ∧
    (start.workspace.exists (dir.join ⟨"configure"⟩) = true → ∃ chosen stop xs,
      (configureLibrary dir preferred fallbacks vars).run l start = (.ok chosen, stop) ∧
        Searches l dir vars
          (if preferred = none ∧ fallbacks = [] then [""] else preferred.toList ++ fallbacks)
          start xs chosen stop) := by
  refine ⟨configureLibrary_of_missing, fun hscript => ?_⟩
  obtain ⟨chosen, stop, xs, hattempts, hsearch⟩ :=
    exists_attempts dir vars (configureCandidates preferred fallbacks) l start
  rw [configureCandidates_eq] at hsearch
  exact ⟨chosen, stop, xs, (configureLibrary_of_exists hscript).trans hattempts, hsearch.searches⟩

/-- A machine with the configure script of a library. -/
def scriptMachine : Machine where
  workspace := { tree := ⟨[(["h"], .directory), (["h", "configure"], .file [] false)]⟩ }

/-- A script that cannot be started at first, and then accepts no option but `--opt-b`. -/
def wakingLauncher : Launcher := fun m i =>
  let result :=
    if m.started = [] then .error .notFound
    else .ok { code := if "--opt-b" ∈ i.command.args then some 0 else none }
  (result, m.workspace.tree)

theorem configureLibrary_searches_waking :
    (configureLibrary ⟨"h"⟩ none [] []).run wakingLauncher { workspace := { tree := .empty } } =
        (.error (SetupError.missingConfigureScript ⟨"h/configure"⟩),
          { workspace := { tree := .empty } }) ∧
      scriptMachine.workspace.exists ⟨"h/configure"⟩ = true ∧ ∃ stop xs,
        (configureLibrary ⟨"h"⟩ (some "--opt-a") ["--dir='a b'", "--opt-b", "--opt-c"] []).run
            wakingLauncher scriptMachine = (.ok (some "--opt-b"), stop) ∧
          Searches wakingLauncher ⟨"h"⟩ [] ["--opt-a", "--dir='a b'", "--opt-b", "--opt-c"]
            scriptMachine xs (some "--opt-b") stop ∧
          xs.length = 3 := by
  have hmissing :=
    (configureLibrary_searches ⟨"h"⟩ none [] [] wakingLauncher
      { workspace := { tree := .empty } }).1
  have hscript : scriptMachine.workspace.exists ⟨"h/configure"⟩ = true := by decide +kernel
  obtain ⟨chosen, stop, xs, hrun, hsearches⟩ :=
    (configureLibrary_searches ⟨"h"⟩ (some "--opt-a") ["--dir='a b'", "--opt-b", "--opt-c"] []
      wakingLauncher scriptMachine).2 hscript
  obtain rfl : chosen = some "--opt-b" := by
    have hchosen : ((configureLibrary ⟨"h"⟩ (some "--opt-a") ["--dir='a b'", "--opt-b", "--opt-c"]
        []).run wakingLauncher scriptMachine).1 = .ok (some "--opt-b") := by decide +kernel
    rw [hrun] at hchosen
    exact Except.ok.inj hchosen
  have hstarted : stop.started.length = 3 := by
    rw [show stop = _ from (congrArg Prod.snd hrun).symm]
    decide +kernel
  rw [hsearches.started] at hstarted
  refine ⟨hmissing (by decide +kernel), hscript, stop, xs, hrun, hsearches, ?_⟩
  simpa [scriptMachine, Machine.started] using hstarted

/-- The library is configured behind reports, and what follows starts nothing. -/
lemma exists_configureLibrary (v : Vendored) (dir : Path) (s : Settings) (d : CompilerDefaults)
    (l : Launcher) (start : Machine) : ∃ before tail, Reports start before ∧
      (∀ chosen, Silent (tail chosen)) ∧
      (configureVendored v dir s d).run l start =
        ((configureLibrary dir (Resolution.preferredOptions s v) v.configureFallbacks
          (configureVariables s.tools d)) >>= tail).run l before := by
  let first := start.note (.log .info (v.name ++ " configure options: " ++
    (Resolution.preferredOptions s v).getD "(none)"))
  have hvariables := run_logAll (l := l) (m := first) .info
    ((configureVariables s.tools d).map fun v => "(" ++ v.origin.word ++ ") " ++ v.name ++ "=" ++
      v.value)
  refine ⟨_, _, accrues_reports.trans (.log _ _)
    ((keeps_logAll accrues_reports _ _).of_run hvariables), ?_,
    (run_bind_of_eq_ok (run_log _ _)).trans (run_bind_of_eq_ok hvariables)⟩
  intro chosen
  cases chosen with
  | some options => exact silent_bind (silent_log _ _) fun _ => silent_pure _
  | none =>
      exact silent_bind (silent_log _ _) fun _ =>
        silent_bind (silent_writeMinimalHeader _) fun _ => silent_pure _

/-- The attempts are all that is started when the library is configured. -/
lemma configureVendored_started {chosen : Option String}
    (hrun : (configureVendored v dir s d).run l start = (.ok chosen, stop)) :
    ∃ xs : List Attempt,
      xs.map (·.options) <+:
        configureCandidates (Resolution.preferredOptions s v) v.configureFallbacks ∧
      stop.started = start.started ++
        xs.map (Attempt.event l dir (configureVariables s.tools d)) := by
  obtain ⟨before, tail, hlog, htail, heq⟩ := exists_configureLibrary v dir s d l start
  rw [heq] at hrun
  obtain ⟨accepted, configured, hsearch, hrun⟩ := run_bind_eq_ok.1 hrun
  obtain ⟨xs, hattempts⟩ := configureLibrary_eq_ok hsearch
  refine ⟨xs, hattempts.options_prefix, ?_⟩
  rw [(htail accepted).startsNothing hrun, hattempts.started, startsNothing_of_reports hlog]

/-! ## Asking for variables -/

/-- The question for the variables of the vendored build. -/
def queryInvocation (dir : Path) (make : String) : Invocation where
  command := ⟨make, ["-s", "print-config"]⟩
  directory := some dir

/-- The question is all that is started when the vendored build is asked. -/
lemma queryVariables_started {make : String} {reported : MakeVariables}
    (hrun : (queryVariables dir make).run l start = (.ok reported, stop)) :
    stop.started = start.started ++
      [.ran (queryInvocation dir make) (l start (queryInvocation dir make)).1 false] := by
  obtain ⟨exit, answered, hquery, hrun⟩ := run_bind_eq_ok.1 hrun
  obtain ⟨exit', answered', hcapture, hchecked⟩ := run_bind_eq_ok.1 (run_during_eq_ok.1 hquery)
  have hquiet : StartsNothing answered' answered := by
    split at hchecked
    · obtain ⟨-, rfl⟩ := run_pure_eq_ok.1 hchecked
      rfl
    · cases hchecked
  have hlogged : StartsNothing answered stop :=
    (silent_bind (silent_logAll _ _) fun _ => silent_pure _).startsNothing hrun
  rw [hquiet.trans hlogged]
  obtain rfl := (Prod.mk.inj ((run_capture (queryInvocation dir make) l start).symm.trans
    hcapture)).2
  exact Machine.started_note_ran _ _ _ _

end Build

end Drydock
