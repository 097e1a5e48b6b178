import Drydock.Proofs.Build.Course
import Drydock.Proofs.Graph.Acceptance

/-!
# A build follows its course

Every run of `Build.buildGraph` is a course as `Builds` describes it, whatever the programs do: the
launcher is arbitrary, and its answers may depend on the whole history.  Each action is compared
with the relation of its own, and the relations are put together as the actions are.

A lemma for an action says that its run has a result, a machine and a course at once, rather than
that a run with a given result has a course.  So nothing is assumed of the result, no run is left
out, and the ending of the course tells the result (`Ending.Tells`).  The flags of the standard come
out of the run of the first module and go into the runs of all others, which is why a course carries
them.

Activities around an action only change the failure that it ends with, so they disappear in the
course.

* `Launch.run_command` — a program that has to succeed.
* `Build.exists_steps`, `Build.exists_tests`, `Build.exists_standards`, `Build.exists_prebuilds`,
  `Build.exists_buildsModule`, `Build.exists_builds` — runs of the actions are courses.
* `Build.buildGraph_failFast` — the programs that a build starts, and how it ends.
-/

namespace Drydock

variable {l : Launcher} {c : BuildContext} {g : BuildGraph} {known : Option (List String)}
  {m : Module} {modules : List Module} {t : Toolchain} {cflags : List String}
  {start stop : Machine} {ending : Ending} {α : Type}

/-! ## Single programs -/

namespace Launch

lemma run_launch (x : Launch) (activity : Activity) :
    (Build.during activity (Build.launch x.invocation (x.purpose = .make))).run l x.before =
      ((x.result l).mapError fun e => (Cause.io e : Failure).under activity, x.after l) := by
  rw [Build.run_during]
  unfold Build.run Build.launch after event result
  rcases l x.before x.invocation with ⟨e | e, tree⟩
  · rfl
  · rfl

/-- What follows a program that has to succeed is a failure unless the program ends well. -/
lemma run_command (x : Launch) (activity : Activity) (cause : Exit → Cause) :
    ∃ result : Except Failure Unit, (do
        let e ← Build.during activity (Build.launch x.invocation (x.purpose = .make))
        if e.success then return
        Build.fail (cause e) : Build Unit).run l x.before = (result, x.after l) ∧
      ((x.Succeeds l ∧ result = .ok ()) ∨ ¬ x.Succeeds l ∧ ∃ f, result = .error f) := by
  have hlaunch := x.run_launch (l := l) activity
  cases hresult : x.result l with
  | error e =>
      have hfail : ¬ x.Succeeds l := by simp [Succeeds, hresult]
      refine ⟨.error ((Cause.io e : Failure).under activity), ?_, .inr ⟨hfail, _, rfl⟩⟩
      rw [Build.run_bind, hlaunch, hresult]
      rfl
  | ok e =>
      rw [hresult] at hlaunch
      -- The program ran; whether it succeeded is told by its exit code.
      by_cases hsuccess : e.success = true
      · refine ⟨.ok (), ?_, .inl ⟨⟨e, hresult, hsuccess⟩, rfl⟩⟩
        rw [Build.run_bind_of_eq_ok hlaunch, if_pos hsuccess]
        rfl
      · have hfail : ¬ x.Succeeds l := by simpa [Succeeds, hresult] using hsuccess
        refine ⟨.error (cause e), ?_, .inr ⟨hfail, _, rfl⟩⟩
        rw [Build.run_bind_of_eq_ok hlaunch, if_neg hsuccess]
        rfl

end Launch

namespace Build

/-! ## Commands of a plan -/

lemma exists_step (s : Step) (hs : s.purpose ≠ .make) (l : Launcher) (start : Machine) :
    (∃ f stop, (ensureDirectoryOf s.output).run l start = (.error f, stop) ∧
      (runStep s.command s.output s.cause).run l start = (.error f, stop)) ∨
    ∃ ready before result, (ensureDirectoryOf s.output).run l start = (.ok (), ready) ∧
      Reports ready before ∧
      (runStep s.command s.output s.cause).run l start = (result, (s.launch before).after l) ∧
      (((s.launch before).Succeeds l ∧ result = .ok ()) ∨
        ¬ (s.launch before).Succeeds l ∧ ∃ f, result = .error f) := by
  rcases hdir : (ensureDirectoryOf s.output).run l start with ⟨f | u, ready⟩
  · refine .inl ⟨f, ready, rfl, ?_⟩
    rw [runStep, run_bind, hdir]
  · obtain ⟨result, hrun, hend⟩ := (s.launch (ready.note (.log .debug s.command.text))).run_command
      (l := l) (.spawning s.command.program)
      (fun e => s.cause (Text.Utf8.decodeLossy e.stderr))
    refine .inr ⟨ready, _, result, rfl, .log _ _, ?_, hend⟩
    rw [runStep, run_bind_of_eq_ok hdir, run_bind_of_eq_ok (run_log _ _), ← hrun]
    simp [Step.launch, hs, capture]

/-- Takes steps one after the other. -/
def runSteps : List Step → Build Unit
  | [] => return
  | s :: rest => do
      runStep s.command s.output s.cause
      runSteps rest

lemma exists_steps (steps : List Step) (hsteps : ∀ s ∈ steps, s.purpose ≠ .make) (l : Launcher)
    (start : Machine) : ∃ result stop xs ending, (runSteps steps).run l start = (result, stop) ∧
      Steps l steps start xs ending stop ∧ ending.Tells result := by
  induction steps generalizing start with
  | nil => exact ⟨.ok (), start, [], .finished, rfl, .done start, .finished ()⟩
  | cons s rest ih =>
      have hs : s.purpose ≠ .make := hsteps s List.mem_cons_self
      -- No directory, a command that succeeds, or a command that fails.
      rcases exists_step s hs l start with ⟨f, stop, hdir, hrun⟩ |
        ⟨ready, before, result, hdir, hlog, hrun, ⟨hok, rfl⟩ | ⟨hfail, f, rfl⟩⟩
      · refine ⟨.error f, stop, [], .refused, ?_, .refused hdir, .refused f ?_⟩
        · rw [runSteps, run_bind, hrun]
        · exact (silent_ensureDirectoryOf _).onFiles l start f (by rw [hdir])
      · obtain ⟨result, stop, xs, ending, hrest, hcourse, htells⟩ :=
          ih (fun s hs => hsteps s (List.mem_cons_of_mem _ hs)) ((s.launch before).after l)
        refine ⟨result, stop, s.launch before :: xs, ending, ?_, .next hdir hlog hok hcourse,
          htells⟩
        rw [runSteps, run_bind_of_eq_ok hrun, hrest]
      · refine ⟨.error f, _, [s.launch before], .failed, ?_, .failed hdir hlog hfail, .failed f⟩
        rw [runSteps, run_bind, hrun]

/-! ## The language standard -/

/-- A test that ends well is the last one; otherwise the next candidate is tried, behind a
message. -/
lemma run_tryStandards (t : Toolchain) (cflags flags : List String) (rest : List (List String))
    (dir : Path) (l : Launcher) (start : Machine) :
    let x := testLaunch t cflags dir flags start
    let next := tryStandards t cflags (dir.join ⟨"conftest_cstd.c"⟩) (dir.join ⟨"conftest_cstd.o"⟩)
    (x.Succeeds l → (next (flags :: rest)).run l start = (.ok (some flags), x.after l)) ∧
      (¬ x.Succeeds l → (next (flags :: rest)).run l start = (next rest).run l
        ((x.after l).note (.log .debug "(ignoring errors from test probes)"))) := by
  intro x next
  have hlaunch : (outcome (capture x.invocation)).run l start =
      (.ok ((x.result l).mapError fun e => (Cause.io e : Failure).under
        (.spawning x.invocation.command.program)), x.after l) := by
    have hrun := x.run_launch (l := l) (.spawning x.invocation.command.program)
    rw [run_outcome]
    exact congrArg (fun r => (Except.ok r.1, r.2)) hrun
  have hnext : (next (flags :: rest)).run l start = _ := run_bind_of_eq_ok hlaunch
  rw [hnext]
  constructor
  · rintro ⟨e, hresult, hsuccess⟩
    simp [hresult, Except.mapError, hsuccess]
  · intro hfail
    cases hresult : x.result l with
    | error e => rfl
    | ok e =>
        have hsuccess : e.success = false := by simpa [Launch.Succeeds, hresult] using hfail
        simp only [Except.mapError, hsuccess, Bool.false_eq_true, if_false]
        rfl

lemma exists_tests (t : Toolchain) (cflags : List String) (dir : Path)
    (candidates : List (List String)) (l : Launcher) (start : Machine) :
    ∃ found stop xs, (tryStandards t cflags (dir.join ⟨"conftest_cstd.c"⟩)
        (dir.join ⟨"conftest_cstd.o"⟩) candidates).run l start = (.ok found, stop) ∧
      Tests l t cflags dir candidates start xs (found.getD []) stop := by
  induction candidates generalizing start with
  | nil => exact ⟨none, start, [], rfl, .none start⟩
  | cons flags rest ih =>
      obtain ⟨hsucceeds, hfails⟩ := run_tryStandards t cflags flags rest dir l start
      by_cases hok : (testLaunch t cflags dir flags start).Succeeds l
      · exact ⟨some flags, _, _, hsucceeds hok, .found hok⟩
      · obtain ⟨found, stop, xs, hrun, htests⟩ := ih _
        exact ⟨found, stop, _, (hfails hok).trans hrun, .next hok (.log _ _) htests⟩

/-- Once the test program is written, the search ends well and reports what it found. -/
lemma exists_tests_of_written {dir : Path} {ready : Machine} (t : Toolchain) (cflags : List String)
    (hwrite : (writeText (dir.join ⟨"conftest_cstd.c"⟩) testProgram).run l start =
      (.ok (), ready)) :
    ∃ flags before xs last closing, (probeIn dir t cflags).run l start = (.ok flags, closing) ∧
      Reports ready before ∧ Tests l t cflags dir standardCandidates before xs flags last ∧
      Reports last closing := by
  obtain ⟨found, last, xs, hrun, htests⟩ := exists_tests t cflags dir standardCandidates l
    (ready.note (.log .info ("checking for " ++ t.program ++ " option to enable C99 features...")))
  have hprobe : ∃ closing, Reports last closing ∧
      (probeIn dir t cflags).run l start = (.ok (found.getD []), closing) := by
    rw [probeIn, run_bind_of_eq_ok hwrite, run_bind_of_eq_ok (run_log _ _),
      run_bind_of_eq_ok hrun]
    cases found with
    | some flags =>
        exact ⟨_, .log .info (t.program ++ " option to enable C99 features: " ++ shownFlags flags),
          rfl⟩
    | none => exact ⟨_, .log .error (t.program ++ " cannot compile C99 source code"), rfl⟩
  obtain ⟨closing, hclosing, hprobe⟩ := hprobe
  exact ⟨_, _, xs, last, closing, hprobe, .log _ _, htests, hclosing⟩

lemma probe_eq (t : Toolchain) (cflags : List String) (scratch : Path) :
    probe t cflags scratch = (do
      let dir ← reserveProbe scratch
      let found ← outcome (probeIn dir t cflags)
      removeDirectory dir
      ofExcept found) := by
  rw [probe, reserveProbe, bind_assoc]

lemma exists_standards (known : Option (List String)) (t : Toolchain) (cflags : List String)
    (scratch : Path) (l : Launcher) (start : Machine) :
    ∃ result stop, (standardFlags known t cflags scratch).run l start = (result, stop) ∧
      ((∃ flags xs, result = .ok flags ∧
          Standards l t cflags scratch known start xs (some flags) stop) ∨
        ∃ f, result = .error f ∧ f.OnFiles ∧
          Standards l t cflags scratch known start [] none stop) := by
  cases known with
  | some flags => exact ⟨.ok flags, start, rfl, .inl ⟨flags, [], rfl, .known flags start⟩⟩
  | none =>
      show ∃ result stop, (probe t cflags scratch).run l start = (result, stop) ∧ _
      rw [probe_eq]
      rcases hdir : (reserveProbe scratch).run l start with ⟨f | dir, made⟩
      · have hquiet := (silent_reserveProbe scratch).startsNothing hdir
        have hfiles := (silent_reserveProbe scratch).onFiles l start f (by rw [hdir])
        refine ⟨.error f, made, ?_, .inr ⟨f, rfl, hfiles, .refused hquiet⟩⟩
        rw [run_bind, hdir]
      rw [run_bind_of_eq_ok hdir, run_bind, run_outcome]
      rcases hwrite : (writeText (dir.join ⟨"conftest_cstd.c"⟩) testProgram).run l made with
        ⟨f | u, ready⟩
      · -- The directory is removed also when the test program cannot be written.
        obtain ⟨stop, hremove, hgone⟩ := run_removeDirectory dir l ready
        have hquiet := ((silent_reserveProbe scratch).startsNothing hdir).trans
          (((silent_writeText _ _).startsNothing hwrite).trans hgone)
        have hfiles := (silent_writeText _ _).onFiles l made f (by rw [hwrite])
        have hprobe : (probeIn dir t cflags).run l made = (.error f, ready) := by
          rw [probeIn, run_bind, hwrite]
        refine ⟨.error f, stop, ?_, .inr ⟨f, rfl, hfiles, .refused hquiet⟩⟩
        rw [hprobe]
        exact run_bind_of_eq_ok hremove
      · obtain ⟨flags, before, xs, last, closing, hprobe, hlog, htests, hclosing⟩ :=
          exists_tests_of_written t cflags hwrite
        obtain ⟨stop, hremove, -⟩ := run_removeDirectory dir l closing
        have hopen : (openProbe scratch).run l start = (.ok dir, ready) := by
          rw [openProbe, run_bind_of_eq_ok hdir, run_bind_of_eq_ok hwrite]
          rfl
        refine ⟨.ok flags, stop, ?_, .inl ⟨flags, xs, rfl,
          .tested hopen hlog htests ⟨closing, hclosing, hremove⟩⟩⟩
        rw [hprobe]
        exact run_bind_of_eq_ok hremove

/-! ## The pre-build step -/

lemma isMade_iff {w : Workspace} {b : LibraryMake} : isMade w b = true ↔ ¬ Missing w b := by
  simp [isMade, Missing, LibraryMake.artifacts]

/-- The library is left alone, or make is started behind a message. -/
lemma exists_make (b : LibraryMake) (m : Module) (force : Bool) (l : Launcher) (start : Machine) :
    (force = false ∧ ¬ Missing start.workspace b ∧ ∃ stop, Reports start stop ∧
      (makeLibrary b m.compileArgs m.defines force).run l start = (.ok .skipped, stop)) ∨
    ((force = true ∨ Missing start.workspace b) ∧ ∃ before result, Reports start before ∧
      (makeLibrary b m.compileArgs m.defines force).run l start =
        (result, (makeLaunch b m before).after l) ∧
      (((makeLaunch b m before).Succeeds l ∧ ∃ outcome, result = .ok outcome) ∨
        ¬ (makeLaunch b m before).Succeeds l ∧ ∃ f, result = .error f)) := by
  by_cases hskip : (!force && isMade start.workspace b) = true
  · obtain ⟨hforce, hmade⟩ := Bool.and_eq_true_iff.1 hskip
    refine .inl ⟨by simpa using hforce, isMade_iff.1 hmade, _,
      .log .info ("skipping '" ++ b.archive.text ++ "' (already built)"), ?_⟩
    rw [makeLibrary, run_bind_of_eq_ok run_workspace, if_pos hskip]
    rfl
  -- The run is started behind one message, on the files that were looked at.
  · have hneeded : force = true ∨ Missing start.workspace b := by
      by_contra hnone
      obtain ⟨hforce, hmade⟩ := not_or.1 hnone
      exact hskip (by simp [Bool.eq_false_iff.2 hforce, isMade_iff.2 hmade])
    let before := start.note (.log .info ("building '" ++ b.archive.text ++ "'"))
    let x := makeLaunch b m before
    obtain ⟨result, hrun, hend⟩ := x.run_command (l := l) (.executing x.invocation.command.program)
      (fun e => .toolFailed x.invocation.command.text e.code none)
    have hshow : (showChecked x.invocation).run l before = (result, x.after l) := hrun
    have hmake : (makeLibrary b m.compileArgs m.defines force).run l start = (do
        during (.buildingArchive b.archive) (showChecked x.invocation)
        return .built : Build LibraryOutcome).run l before := by
      rw [makeLibrary, run_bind_of_eq_ok run_workspace, if_neg hskip]
      rfl
    refine .inr ⟨hneeded, before, ?_⟩
    rcases hend with ⟨hok, rfl⟩ | ⟨hfail, f, rfl⟩
    · refine ⟨.ok .built, .log _ _, ?_, .inl ⟨hok, _, rfl⟩⟩
      rw [hmake, run_bind, run_during, hshow]
      rfl
    · refine ⟨.error (f.under (.buildingArchive b.archive)), .log _ _, ?_, .inr ⟨hfail, _, rfl⟩⟩
      rw [hmake, run_bind, run_during, hshow]
      rfl

/-- The header of the library is written before it is looked for what is missing. -/
lemma exists_prebuildVendored {header : Path} {v : Vendored} (flags : CompilerFlags)
    (hlibrary : BuildsLibrary c m header) (hv : c.manifest.vendored = some v) (l : Launcher)
    (start : Machine) : ∃ result stop xs ending,
      (prebuildVendored c m flags header).run l start = (result, stop) ∧
      Prebuilds l c m flags start xs ending stop ∧ ending.Tells result := by
  have hdir : c.manifest.vendoredDir? = some (c.manifest.path v.path) := by
    simp [Manifest.vendoredDir?, hv]
  have hlog : Reports start (start.note (.log .info
    ("creating " ++ header.text ++ " for '" ++ m.name ++ "'"))) := .log _ _
  simp only [prebuildVendored, hlibrary.2, hv, hdir]
  rw [if_neg (by simp), logHeader, run_bind_of_eq_ok (run_log _ _)]
  rcases hheader : (writeHeader (ConfigHeader.ofFlags v.keyPrefix flags []) header).run l
    (start.note _) with ⟨f | u, written⟩
  · have hquiet := (startsNothing_of_reports hlog).trans
      ((silent_writeHeader _ _).startsNothing hheader)
    have hfiles := (silent_writeHeader _ _).onFiles l _ f (by rw [hheader])
    refine ⟨.error f, written, [], .refused, ?_, .refused hquiet, .refused f hfiles⟩
    rw [run_bind, hheader]
  · rw [run_bind_of_eq_ok hheader]
    rcases exists_make (libraryMakeOf c v (c.manifest.path v.path)) m c.settings.force l written
      with ⟨hforce, hmade, stop, hend, hrun⟩ |
        ⟨hneeded, before, result, hbegin, hrun, ⟨hok, outcome, rfl⟩ | ⟨hfail, f, rfl⟩⟩
    · exact ⟨_, stop, [], .finished, run_bind_of_eq_ok hrun,
        .kept hlibrary hv hdir hlog hheader hforce hmade hend, .finished _⟩
    · exact ⟨_, _, _, .finished, run_bind_of_eq_ok hrun,
        .made hlibrary hv hdir hlog hheader hneeded hbegin (.inl ⟨hok, rfl⟩), .finished _⟩
    · refine ⟨.error f, _, _, .failed, ?_,
        .made hlibrary hv hdir hlog hheader hneeded hbegin (.inr ⟨hfail, rfl⟩), .failed f⟩
      rw [run_bind, hrun]

lemma exists_prebuilds (c : BuildContext) (m : Module) (flags : CompilerFlags) (l : Launcher)
    (start : Machine) : ∃ result stop xs ending,
      (prebuild c m flags).run l start = (result, stop) ∧
      Prebuilds l c m flags start xs ending stop ∧ ending.Tells result := by
  by_cases hbuilds : ∃ header, BuildsLibrary c m header
  · obtain ⟨header, hlibrary⟩ := hbuilds
    have hprebuild : prebuild c m flags = prebuildVendored c m flags header := by
      rw [prebuild, hlibrary.1]
    rw [hprebuild]
    cases hv : c.manifest.vendored with
    | none =>
        rw [prebuildVendored, hlibrary.2, hv]
        exact ⟨_, start, [], .nothingVendored m.name, rfl, .nothingVendored hlibrary hv,
          .nothingVendored _ _ rfl⟩
    | some v => exact exists_prebuildVendored flags hlibrary hv l start
  -- Without a library to build, the step starts nothing.
  · have hnone := not_exists.1 hbuilds
    have hsilent := silent_prebuild flags hnone
    rcases hrun : (prebuild c m flags).run l start with ⟨f | outcome, stop⟩
    · have hfiles := hsilent.onFiles l start f (by rw [hrun])
      exact ⟨_, stop, [], .refused, rfl, .refused (hsilent.startsNothing hrun), .refused f hfiles⟩
    · exact ⟨_, stop, [], .finished, rfl, .nothing hnone hrun, .finished _⟩

/-! ## Modules -/

lemma runSteps_append (xs ys : List Step) :
    runSteps (xs ++ ys) = (do runSteps xs; runSteps ys) := by
  induction xs with
  | nil => simp [runSteps]
  | cons x rest ih => simp [runSteps, ih]

lemma compileAll_eq (command : Path → Command) (object : Path → Path) (sources : List Path) :
    compileAll ((sources.map command).zip (sources.zip (sources.map object))) =
      runSteps (sources.map fun source =>
        ⟨.compile, command source, object source, .compilationFailed source⟩) := by
  induction sources with
  | nil => rfl
  | cons source rest ih => simp [compileAll, runSteps, ih]

lemma carryOut_eq (c : BuildContext) (g : BuildGraph) (m : Module) (standard : List String) :
    carryOut (c.planPrepared g (c.prepare g m) ((c.compilerOf g m).withStandard standard)
      (c.flags (c.prepare g m))) = runSteps (stepsOf c g m standard) := by
  have hlink : ∀ s : Step, runSteps [s] = runStep s.command s.output s.cause := by
    intro s
    simp [runSteps]
  rw [stepsOf, runSteps_append, hlink, ← compileAll_eq]
  rfl

lemma buildModule_eq (c : BuildContext) (g : BuildGraph) (known : Option (List String))
    (m : Module) : buildModule c g known m = (do
      log .info ("building '" ++ m.name ++ "' extension")
      let _ ← during (.preparing m.name) (prebuild c (c.prepare g m) (c.flags (c.prepare g m)))
      let standard ← standardFlags known (c.compilerOf g m) (c.flags (c.prepare g m)).cflags
        c.manifest.buildDir
      runSteps (stepsOf c g m standard)
      return (⟨m.name, c.outputPath m⟩, standard)) := by
  simp only [← carryOut_eq]
  rfl

lemma exists_buildsModule (c : BuildContext) (g : BuildGraph) (known : Option (List String))
    (m : Module) (l : Launcher) (start : Machine) : ∃ result stop xs ending standard,
      (buildModule c g known m).run l start = (result, stop) ∧
      BuildsModule l c g known m start xs ending standard stop ∧ ending.Tells result ∧
      ∀ b flags, result = .ok (b, flags) → standard = some flags := by
  have hlog : Reports start (start.note (.log .info ("building '" ++ m.name ++ "' extension"))) :=
    .log _ _
  rw [buildModule_eq, run_bind_of_eq_ok (run_log _ _)]
  obtain ⟨prepared, ready, xs, ending, hprebuild, hcourse, htells⟩ := exists_prebuilds c
    (c.prepare g m) (c.flags (c.prepare g m)) l
    (start.note (.log .info ("building '" ++ m.name ++ "' extension")))
  cases prepared with
  | error f =>
      refine ⟨.error (f.under (.preparing m.name)), ready, xs, ending, none, ?_,
        .stopped hlog hcourse htells.ne_finished, (htells.under _).error, by simp⟩
      rw [run_bind, run_during, hprebuild]
      rfl
  | ok outcome =>
      -- Only a module that has passed its pre-build step comes to the standard.
      obtain rfl : ending = .finished := htells.eq_finished
      rw [run_bind_of_eq_ok (run_during_eq_ok.2 hprebuild)]
      obtain ⟨found, tested, hrun, ⟨standard, ys, rfl, hstandard⟩ | ⟨f, rfl, hfiles, hstandard⟩⟩ :=
        exists_standards known (c.compilerOf g m) (c.flags (c.prepare g m)).cflags
          c.manifest.buildDir l ready
      · obtain ⟨result, stop, zs, ending, hsteps, hcarried, hend⟩ := exists_steps
          (stepsOf c g m standard) (stepsOf_ne standard (by simp) (by simp)) l tested
        rw [run_bind_of_eq_ok hrun]
        have hmodule := BuildsModule.carried hlog hcourse hstandard hcarried
        cases result with
        | error f =>
            refine ⟨.error f, stop, _, ending, _, ?_, hmodule, hend.error, by simp⟩
            rw [run_bind, hsteps]
        | ok u =>
            obtain rfl : ending = .finished := hend.eq_finished
            refine ⟨.ok (⟨m.name, c.outputPath m⟩, standard), stop, _, .finished, _, ?_, hmodule,
              .finished _, ?_⟩
            · rw [run_bind_of_eq_ok hsteps]
              rfl
            · rintro b flags ⟨⟩
              rfl
      · refine ⟨.error f, tested, xs, .refused, none, ?_, .untested hlog hcourse hstandard,
          .refused f hfiles, by simp⟩
        rw [run_bind, hrun]

lemma exists_builds (c : BuildContext) (g : BuildGraph) (known : Option (List String))
    (modules : List Module) (l : Launcher) (start : Machine) : ∃ result stop xs ending,
      (buildAll c g known modules).run l start = (result, stop) ∧
      Builds l c g known modules start xs ending stop ∧ ending.Tells result := by
  induction modules generalizing known start with
  | nil => exact ⟨.ok [], start, [], .finished, rfl, .done known start, .finished []⟩
  | cons m rest ih =>
      obtain ⟨first, mid, xs, ending, standard, hrun, hmodule, htells, hknown⟩ :=
        exists_buildsModule c g known m l start
      rw [buildAll]
      cases first with
      | error f =>
          refine ⟨.error f, mid, xs, ending, ?_, .stopped hmodule htells.ne_finished, htells.error⟩
          rw [run_bind, hrun]
      | ok built =>
          obtain ⟨built, flags⟩ := built
          obtain rfl : ending = .finished := htells.eq_finished
          -- The flags are known from here on, so the rest of the modules is built with them.
          obtain rfl : standard = some flags := hknown built flags rfl
          obtain ⟨result, stop, ys, ending, hrest, hcourse, hend⟩ := ih (some flags) mid
          rw [run_bind_of_eq_ok hrun]
          cases result with
          | error f =>
              refine ⟨.error f, stop, xs ++ ys, ending, ?_, .next hmodule hcourse, hend.error⟩
              rw [run_bind, hrest]
          | ok more =>
              obtain rfl : ending = .finished := hend.eq_finished
              refine ⟨.ok (built :: more), stop, xs ++ ys, .finished, ?_, .next hmodule hcourse,
                .finished _⟩
              rw [run_bind_of_eq_ok hrest]
              rfl

/-- What a build starts are the commands of its course, and the first one that fails is the last.
A build that ends well has built every module of the graph once, in build order. -/
theorem buildGraph_failFast {declared : List Module}
    (haccepted : BuildGraph.ofModules declared = .ok g) (c : BuildContext) (l : Launcher)
    (start : Machine) : ∃ result stop xs ending,
      (buildGraph c g).run l start = (result, stop) ∧
      Builds l c g none g.modules start xs ending stop ∧ Starts l start xs stop ∧
      FailFast l xs ending ∧ testCount xs ≤ 3 ∧ ending.Tells result ∧
      (ending = .finished →
        result = .ok (g.modules.map fun m => ⟨m.name, c.outputPath m⟩) ∧
          g.modules.Perm declared ∧ g.names.Nodup) := by
  obtain ⟨result, stop, xs, ending, hrun, hcourse, htells⟩ :=
    exists_builds c g none g.modules l start
  obtain ⟨hfast, hcount, -⟩ := hcourse.failFast
  obtain ⟨hperm, hnodup, -⟩ := BuildGraph.of_ofModules haccepted
  refine ⟨result, stop, xs, ending, hrun, hcourse, hcourse.starts, hfast, hcount, htells, ?_⟩
  -- A course that has finished tells a result, and the outputs can be read off the build order.
  rintro rfl
  cases htells with
  | finished outputs => exact ⟨congrArg Except.ok (buildAll_eq_ok hrun), hperm, hnodup⟩

/-- Two modules on a library, declared against their order. -/
def viewModules : List Module :=
  [{ name := "libview", sources := [⟨"view.c"⟩, ⟨"zoom.c"⟩] },
    { name := "libcore", sources := [⟨"core.c"⟩], foundational := true
      prebuild := some (.buildVendoredLibrary ⟨"h/config.h"⟩) }]

/-- Their build order. -/
def viewGraph : BuildGraph := ⟨viewModules.reverse, [[], [0]]⟩

/-- A context in which the library has to be made. -/
def viewContext : BuildContext := ⟨tidyPackage, {}, .ofPlatform .elf, reportedResolution⟩

/-- A compiler that needs a flag for C99 and cannot compile `view.c`. -/
def strictLauncher : Launcher := fun m i =>
  let compiles := i.command.args.contains "-c"
  let refused := compiles && !i.command.args.contains "-std=c99" ||
    i.command.args.contains "view.c"
  (.ok { code := some (if refused then 1 else 0) }, m.workspace.tree)

/-- Make, two tests, a compile, a link, and the compile that fails: `zoom.c` is not compiled, and
the second module not linked. -/
theorem buildGraph_failFast_brokenView : ∃ stop xs,
    BuildGraph.ofModules viewModules = .ok viewGraph ∧
      (buildGraph viewContext viewGraph).run strictLauncher freshMachine =
        (.error { cause := .compilationFailed ⟨"view.c"⟩ "" }, stop) ∧
      Builds strictLauncher viewContext viewGraph none viewModules.reverse freshMachine
        xs .failed stop ∧
      Starts strictLauncher freshMachine xs stop ∧ FailFast strictLauncher xs .failed ∧
      xs.length = 6 ∧ testCount xs ≤ 3 := by
  have haccepted : BuildGraph.ofModules viewModules = .ok viewGraph := by cbv
  obtain ⟨result, stop, xs, ending, hrun, hcourse, hstarts, hfast, hcount, htells, -⟩ :=
    buildGraph_failFast haccepted viewContext strictLauncher freshMachine
  have hresult : result = .error { cause := .compilationFailed ⟨"view.c"⟩ "" } := by
    rw [show result = _ from (congrArg Prod.fst hrun).symm]
    decide +kernel
  have hstarted : stop.started.length = 6 := by
    rw [show stop = _ from (congrArg Prod.snd hrun).symm]
    decide +kernel
  have hlength : xs.length = 6 := by
    rw [hstarts] at hstarted
    simpa [freshMachine, Machine.started] using hstarted
  subst hresult
  obtain rfl : ending = .failed := by
    cases htells with
    | failed => rfl
    | nothingVendored name f h => cases h
    | refused f h =>
        obtain ⟨⟨e, he⟩, -⟩ := h
        cases he
  exact ⟨stop, xs, haccepted, hrun, hcourse, hstarts, hfast, hlength, hcount⟩

end Build

end Drydock
