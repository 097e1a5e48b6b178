import Drydock.Proofs.Build.Agreement
import Drydock.Proofs.Build.Silence

/-!
# The course of a build

What a build starts, as a relation between the machine it begins on, the programs it starts and the
machine it leaves.  A launch carries the machine it is started on, so that what a program does may
depend on everything in front of it, and what lies between two launches is said exactly: messages,
or one of the actions that make files ready.

The relations are what a build is held against, so they are written from the outside.  They name
purposes, commands and endings, and they do not mention `Build.buildModule` or its parts, apart from
the actions on files, whose effects are not at issue here.  That every run of a build is such a
course is proved in `Drydock.Proofs.Build.FailFast`.  The endings tell apart why a course stops: a
command that failed, a file operation that was refused, or a package without the library that a
module wants to build.

Each relation has three consequences, which are proved along the same cases.  It accounts for the
programs in the history of the machine (`Starts`), a failing command is the last one (`FailFast`),
and tests for the language standard are few: at most one for each candidate, in front of the first
commands of the first module, since the flags that were found are handed on.  Tests are no commands
in this, because a test that fails is an answer.

Make is started for the library alone, and only when it is forced or something is missing.  What is
missing is the archive, or a file that the resolution expects besides it (`Build.MakesLibrary`).

* `Steps` — commands of a plan, one after the other.
* `Tests`, `Standards` — the search for the language standard.
* `Prebuilds` — the pre-build step of a module.
* `BuildsModule`, `Builds` — a module, and modules one after the other.
* `Starts` — the programs in the history of a machine.
* `FailFast` — a command that fails is the last one.
* `MakesLibrary` — what a run of make is for.
-/

namespace Drydock

/-! ## Launches -/

/-- What a program is started for. -/
inductive Purpose where
  /-- To build the vendored library. -/
  | make
  /-- To find the flags of the language standard. -/
  | test
  | compile
  | link
  deriving DecidableEq

/-- A program that a build starts, with the machine it is started on. -/
structure Launch where
  purpose : Purpose
  before : Machine
  invocation : Invocation

namespace Launch

/-- How the program ends. -/
def result (l : Launcher) (x : Launch) : Except IoError Exit := (l x.before x.invocation).1

/-- The program is started and ends well. -/
def Succeeds (l : Launcher) (x : Launch) : Prop := ∃ e, x.result l = .ok e ∧ e.success = true

/-- The launch in the history of a machine; make writes to the terminal. -/
def event (l : Launcher) (x : Launch) : Event :=
  .ran x.invocation (x.result l) (x.purpose = .make)

/-- The machine that the program leaves. -/
def after (l : Launcher) (x : Launch) : Machine :=
  (x.before.withTree (l x.before x.invocation).2).note (x.event l)

lemma started_after (l : Launcher) (x : Launch) :
    (x.after l).started = x.before.started ++ [x.event l] := Machine.started_note_ran _ _ _ _

end Launch

/-- Nothing but messages lies between two machines. -/
def Reports (m m' : Machine) : Prop :=
  ∃ messages : List (Level × String),
    m' = { m with events := m.events ++ messages.map fun (level, text) => .log level text }

lemma Reports.log {start : Machine} (level : Level) (message : String) :
    Reports start (start.note (.log level message)) := ⟨[(level, message)], rfl⟩

lemma Reports.workspace {m m' : Machine} (h : Reports m m') : m'.workspace = m.workspace := by
  obtain ⟨messages, rfl⟩ := h
  rfl

lemma accrues_reports : Accrues Reports where
  refl m := ⟨[], by simp⟩
  trans := by
    rintro m _ _ ⟨first, rfl⟩ ⟨second, rfl⟩
    exact ⟨first ++ second, by simp⟩
  log _ := .log

/-- How a build ends. -/
inductive Ending where
  | finished
  /-- The command that was started last failed. -/
  | failed
  /-- A module builds the vendored library of a package that declares none. -/
  | nothingVendored (moduleName : String)
  /-- The operating system refused a file operation. -/
  | refused
  deriving DecidableEq

/-- The result of an action tells its ending. -/
inductive Ending.Tells {α : Type} : Ending → Except Failure α → Prop where
  | finished (a : α) : Tells .finished (.ok a)
  | failed (f : Failure) : Tells .failed (.error f)
  | nothingVendored (name : String) (f : Failure) (h : f.cause = .nothingVendored name) :
      Tells (.nothingVendored name) (.error f)
  | refused (f : Failure) (h : f.OnFiles) : Tells .refused (.error f)

namespace Ending.Tells

variable {α : Type} {a : α} {f : Failure} {ending : Ending}

lemma eq_finished (h : ending.Tells (.ok a)) : ending = .finished := by
  cases h
  rfl

lemma ne_finished (h : ending.Tells (.error f : Except Failure α)) : ending ≠ .finished := by
  rintro rfl
  cases h

lemma error {β : Type} (h : ending.Tells (.error f : Except Failure α)) :
    ending.Tells (.error f : Except Failure β) := by
  cases h with
  | failed f => exact .failed f
  | nothingVendored name f h => exact .nothingVendored name f h
  | refused f h => exact .refused f h

lemma under (h : ending.Tells (.error f : Except Failure α)) (activity : Activity) :
    ending.Tells (.error (f.under activity) : Except Failure α) := by
  cases h with
  | failed f => exact .failed _
  | nothingVendored name f h => exact .nothingVendored name _ h
  | refused f h => exact .refused _ (h.under activity)

end Ending.Tells

namespace Build

/-! ## Commands of a plan -/

/-- A command of a plan with the file that it writes and the failure that it can have. -/
structure Step where
  purpose : Purpose
  command : Command
  output : Path
  cause : String → Cause

/-- The launch of a step. -/
def Step.launch (s : Step) (before : Machine) : Launch :=
  ⟨s.purpose, before, { command := s.command }⟩

/-- Steps are taken one after the other, each once the directory of its file is there; the first
command that fails is the last. -/
inductive Steps (l : Launcher) : List Step → Machine → List Launch → Ending → Machine → Prop where
  | done (m : Machine) : Steps l [] m [] .finished m
  | refused {s : Step} {rest : List Step} {m m' : Machine} {f : Failure}
      (hdir : (ensureDirectoryOf s.output).run l m = (.error f, m')) :
      Steps l (s :: rest) m [] .refused m'
  | failed {s : Step} {rest : List Step} {m ready before : Machine}
      (hdir : (ensureDirectoryOf s.output).run l m = (.ok (), ready)) (hlog : Reports ready before)
      (hfail : ¬ (s.launch before).Succeeds l) :
      Steps l (s :: rest) m [s.launch before] .failed ((s.launch before).after l)
  | next {s : Step} {rest : List Step} {m ready before m' : Machine} {xs : List Launch}
      {ending : Ending}
      (hdir : (ensureDirectoryOf s.output).run l m = (.ok (), ready)) (hlog : Reports ready before)
      (hok : (s.launch before).Succeeds l)
      (hrest : Steps l rest ((s.launch before).after l) xs ending m') :
      Steps l (s :: rest) m (s.launch before :: xs) ending m'

/-! ## The language standard -/

/-- The launch of a test compile with candidate flags. -/
def testLaunch (t : Toolchain) (cflags : List String) (dir : Path) (flags : List String)
    (before : Machine) : Launch :=
  let command := (t.withStandard flags).compile (dir.join ⟨"conftest_cstd.c"⟩)
    (dir.join ⟨"conftest_cstd.o"⟩) [] cflags
  ⟨.test, before, { command }⟩

/-- Candidates are tried one after the other until one compiles; its flags are the result, and where
none compiles there are no flags. -/
inductive Tests (l : Launcher) (t : Toolchain) (cflags : List String) (dir : Path) :
    List (List String) → Machine → List Launch → List String → Machine → Prop where
  | none (m : Machine) : Tests l t cflags dir [] m [] [] m
  | found {flags : List String} {rest : List (List String)} {before : Machine}
      (hok : (testLaunch t cflags dir flags before).Succeeds l) :
      Tests l t cflags dir (flags :: rest) before [testLaunch t cflags dir flags before] flags
        ((testLaunch t cflags dir flags before).after l)
  | next {flags found : List String} {rest : List (List String)} {before ready m' : Machine}
      {xs : List Launch} (hfail : ¬ (testLaunch t cflags dir flags before).Succeeds l)
      (hlog : Reports ((testLaunch t cflags dir flags before).after l) ready)
      (hrest : Tests l t cflags dir rest ready xs found m') :
      Tests l t cflags dir (flags :: rest) before (testLaunch t cflags dir flags before :: xs)
        found m'

/-- Makes the directory of the test program. -/
def reserveProbe (scratch : Path) : Build Path := do
  ensureDirectory scratch
  makeProbeDirectory scratch

/-- Makes the directory of the test program with the program in it. -/
def openProbe (scratch : Path) : Build Path := do
  let dir ← reserveProbe scratch
  writeText (dir.join ⟨"conftest_cstd.c"⟩) testProgram
  return dir

/-- The flags of the standard are tested for where they are not known. -/
inductive Standards (l : Launcher) (t : Toolchain) (cflags : List String) (scratch : Path) :
    Option (List String) → Machine → List Launch → Option (List String) → Machine → Prop where
  | known (flags : List String) (m : Machine) :
      Standards l t cflags scratch (some flags) m [] (some flags) m
  | tested {dir : Path} {found : List String} {m ready before last m' : Machine} {xs : List Launch}
      (hopen : (openProbe scratch).run l m = (.ok dir, ready)) (hlog : Reports ready before)
      (htests : Tests l t cflags dir standardCandidates before xs found last)
      (hclose : ∃ closing, Reports last closing ∧
        (removeDirectory dir).run l closing = (.ok (), m')) :
      Standards l t cflags scratch none m xs (some found) m'
  | refused {m m' : Machine} (hquiet : StartsNothing m m') :
      Standards l t cflags scratch none m [] none m'

/-! ## The pre-build step -/

/-- The module builds the vendored library, and the mode has it built. -/
def BuildsLibrary (c : BuildContext) (m : Module) (header : Path) : Prop :=
  m.prebuild = some (.buildVendoredLibrary header) ∧ c.resolution.mode.buildsVendored = true

/-- The archive, or an object that has to exist besides it, is missing. -/
def Missing (w : Workspace) (b : LibraryMake) : Prop :=
  ∃ p ∈ b.archive :: b.objects, w.exists p = false

/-- The launch of the make run for a prepared module. -/
def makeLaunch (b : LibraryMake) (m : Module) (before : Machine) : Launch :=
  ⟨.make, before, { command := b.command m.compileArgs m.defines, directory := some b.dir }⟩

/-- The pre-build step of a prepared module.  Make is started only for the vendored library, in a
mode that builds it, and only if it is forced or something is missing once the header is written. -/
inductive Prebuilds (l : Launcher) (c : BuildContext) (m : Module) (flags : CompilerFlags) :
    Machine → List Launch → Ending → Machine → Prop where
  | nothing {start stop : Machine} {outcome : Option LibraryOutcome}
      (h : ∀ header, ¬ BuildsLibrary c m header)
      (hrun : (prebuild c m flags).run l start = (.ok outcome, stop)) :
      Prebuilds l c m flags start [] .finished stop
  | nothingVendored {start : Machine} {header : Path} (h : BuildsLibrary c m header)
      (hnone : c.manifest.vendored = none) :
      Prebuilds l c m flags start [] (.nothingVendored m.name) start
  | kept {start ready written stop : Machine} {header dir : Path} {v : Vendored}
      (h : BuildsLibrary c m header) (hv : c.manifest.vendored = some v)
      (hdir : c.manifest.vendoredDir? = some dir) (hlog : Reports start ready)
      (hheader : (writeHeader (ConfigHeader.ofFlags v.keyPrefix flags []) header).run l ready =
        (.ok (), written))
      (hforce : c.settings.force = false)
      (hmade : ¬ Missing written.workspace (libraryMakeOf c v dir)) (hend : Reports written stop) :
      Prebuilds l c m flags start [] .finished stop
  | made {start ready written before : Machine} {header dir : Path} {v : Vendored}
      {ending : Ending}
      (h : BuildsLibrary c m header) (hv : c.manifest.vendored = some v)
      (hdir : c.manifest.vendoredDir? = some dir) (hlog : Reports start ready)
      (hheader : (writeHeader (ConfigHeader.ofFlags v.keyPrefix flags []) header).run l ready =
        (.ok (), written))
      (hneeded : c.settings.force = true ∨ Missing written.workspace (libraryMakeOf c v dir))
      (hbegin : Reports written before)
      (hend : ((makeLaunch (libraryMakeOf c v dir) m before).Succeeds l ∧ ending = .finished) ∨
        (¬ (makeLaunch (libraryMakeOf c v dir) m before).Succeeds l ∧ ending = .failed)) :
      Prebuilds l c m flags start [makeLaunch (libraryMakeOf c v dir) m before] ending
        ((makeLaunch (libraryMakeOf c v dir) m before).after l)
  | refused {start stop : Machine} (hquiet : StartsNothing start stop) :
      Prebuilds l c m flags start [] .refused stop

/-! ## Modules -/

/-- The commands of a module with the flags of the standard: one compile for each source, in their
order, then the link. -/
def stepsOf (c : BuildContext) (g : BuildGraph) (m : Module) (standard : List String) : List Step :=
  let flags := c.flags (c.prepare g m)
  let compiler := (c.compilerOf g m).withStandard standard
  (m.sources.map fun source =>
    ⟨.compile, compiler.compile source (c.objectOf m.name source) flags.cppflags flags.cflags,
      c.objectOf m.name source, .compilationFailed source⟩) ++
    [⟨.link, (c.planModule g m).link, c.outputPath m, .linkingFailed (c.outputPath m)⟩]

/-- A module is built: pre-build step, standard, commands.  The flags of the standard are known
afterwards unless the build ended in front of them. -/
inductive BuildsModule (l : Launcher) (c : BuildContext) (g : BuildGraph)
    (known : Option (List String)) (m : Module) :
    Machine → List Launch → Ending → Option (List String) → Machine → Prop where
  | stopped {start opened stop : Machine} {xs : List Launch} {ending : Ending}
      (hlog : Reports start opened)
      (hprebuild : Prebuilds l c (c.prepare g m) (c.flags (c.prepare g m)) opened xs ending stop)
      (hend : ending ≠ .finished) : BuildsModule l c g known m start xs ending none stop
  | untested {start opened ready stop : Machine} {xs : List Launch} (hlog : Reports start opened)
      (hprebuild : Prebuilds l c (c.prepare g m) (c.flags (c.prepare g m)) opened xs .finished
        ready)
      (hstandard : Standards l (c.compilerOf g m) (c.flags (c.prepare g m)).cflags
        c.manifest.buildDir known ready [] none stop) :
      BuildsModule l c g known m start xs .refused none stop
  | carried {start opened ready tested stop : Machine} {xs ys zs : List Launch} {ending : Ending}
      {standard : List String} (hlog : Reports start opened)
      (hprebuild : Prebuilds l c (c.prepare g m) (c.flags (c.prepare g m)) opened xs .finished
        ready)
      (hstandard : Standards l (c.compilerOf g m) (c.flags (c.prepare g m)).cflags
        c.manifest.buildDir known ready ys (some standard) tested)
      (hsteps : Steps l (stepsOf c g m standard) tested zs ending stop) :
      BuildsModule l c g known m start (xs ++ ys ++ zs) ending (some standard) stop

/-- Modules are built one after the other, with the flags of the standard that the first of them
found; the first that does not finish is the last. -/
inductive Builds (l : Launcher) (c : BuildContext) (g : BuildGraph) :
    Option (List String) → List Module → Machine → List Launch → Ending → Machine → Prop where
  | done (known : Option (List String)) (m : Machine) : Builds l c g known [] m [] .finished m
  | stopped {known standard : Option (List String)} {m : Module} {rest : List Module}
      {start stop : Machine} {xs : List Launch} {ending : Ending}
      (hmodule : BuildsModule l c g known m start xs ending standard stop)
      (hend : ending ≠ .finished) : Builds l c g known (m :: rest) start xs ending stop
  | next {known : Option (List String)} {standard : List String} {m : Module} {rest : List Module}
      {start mid stop : Machine} {xs ys : List Launch} {ending : Ending}
      (hmodule : BuildsModule l c g known m start xs .finished (some standard) mid)
      (hrest : Builds l c g (some standard) rest mid ys ending stop) :
      Builds l c g known (m :: rest) start (xs ++ ys) ending stop

/-! ## What a course starts -/

variable {l : Launcher} {c : BuildContext} {g : BuildGraph} {known : Option (List String)}
  {m : Module} {modules : List Module} {t : Toolchain} {cflags : List String}
  {start stop : Machine} {xs ys : List Launch} {ending : Ending}

lemma startsNothing_of_reports (h : Reports start stop) : StartsNothing start stop := by
  obtain ⟨messages, rfl⟩ := h
  have hnone :
      (messages.map fun (level, text) => Event.log level text).filter Event.isStart = [] := by
    rw [List.filter_eq_nil_iff]
    intro e he
    obtain ⟨message, -, rfl⟩ := List.mem_map.1 he
    simp [Event.isStart]
  simp [StartsNothing, Machine.started, hnone]

/-- The programs that were started between two machines are the launches. -/
def Starts (l : Launcher) (m : Machine) (xs : List Launch) (m' : Machine) : Prop :=
  m'.started = m.started ++ xs.map (Launch.event l)

lemma Starts.nil (h : StartsNothing start stop) : Starts l start [] stop := by
  rw [Starts, h, List.map_nil, List.append_nil]

lemma Starts.append {mid : Machine} (h : Starts l start xs mid) (h' : Starts l mid ys stop) :
    Starts l start (xs ++ ys) stop := by
  rw [Starts, h', h, List.map_append, List.append_assoc]

lemma Starts.single {x : Launch} (h : StartsNothing start x.before) :
    Starts l start [x] (x.after l) := by
  rw [Starts, Launch.started_after, h]
  rfl

lemma Steps.starts {steps : List Step} (h : Steps l steps start xs ending stop) :
    Starts l start xs stop := by
  induction h with
  | done m => exact .nil rfl
  | refused hdir => exact .nil ((silent_ensureDirectoryOf _).startsNothing hdir)
  | failed hdir hlog hfail =>
      have hready := (silent_ensureDirectoryOf _).startsNothing hdir
      exact .single (hready.trans (startsNothing_of_reports hlog))
  | next hdir hlog hok hrest ih =>
      have hready := (silent_ensureDirectoryOf _).startsNothing hdir
      exact Starts.append (.single (hready.trans (startsNothing_of_reports hlog))) ih

lemma Tests.starts {dir : Path} {candidates : List (List String)} {found : List String}
    (h : Tests l t cflags dir candidates start xs found stop) : Starts l start xs stop := by
  induction h with
  | none m => exact .nil rfl
  | found hok => exact .single rfl
  | next hfail hlog hrest ih =>
      exact Starts.append (.single rfl) (Starts.append (.nil (startsNothing_of_reports hlog)) ih)

lemma silent_reserveProbe (scratch : Path) : Silent (reserveProbe scratch) :=
  silent_bind (silent_ensureDirectory _) fun _ => silent_makeProbeDirectory _

lemma silent_openProbe (scratch : Path) : Silent (openProbe scratch) :=
  silent_bind (silent_reserveProbe _) fun _ =>
    silent_bind (silent_writeText _ _) fun _ => silent_pure _

lemma Standards.starts {scratch : Path} {found : Option (List String)}
    (h : Standards l t cflags scratch known start xs found stop) : Starts l start xs stop := by
  cases h with
  | known flags m => exact .nil rfl
  | tested hopen hlog htests hclose =>
      obtain ⟨closing, hreports, hremove⟩ := hclose
      -- Only the tests are programs; the directory around them is made and removed by the run.
      have hready := (silent_openProbe _).startsNothing hopen
      have hgone := (silent_removeDirectory _).startsNothing hremove
      have hfront := hready.trans (startsNothing_of_reports hlog)
      have hback := (startsNothing_of_reports hreports).trans hgone
      simpa using Starts.append (.nil hfront) (Starts.append htests.starts (.nil hback))
  | refused hquiet => exact .nil hquiet

lemma silent_prebuild (flags : CompilerFlags) (h : ∀ header, ¬ BuildsLibrary c m header) :
    Silent (prebuild c m flags) := by
  unfold prebuild
  split
  · exact silent_pure none
  · exact silent_bind (silent_log _ _) fun _ =>
      silent_bind (silent_writeHeader _ _) fun _ => silent_pure none
  · rename_i header hstep
    -- The step asks for the library, so it must be the mode that has none built.
    have hmode : c.resolution.mode.buildsVendored = false := by
      rw [Bool.eq_false_iff]
      exact fun hmode => h header ⟨hstep, hmode⟩
    rw [prebuildVendored, hmode, Bool.not_false, if_pos rfl]
    exact silent_bind (silent_log _ _) fun _ => silent_pure none

lemma Prebuilds.starts {flags : CompilerFlags} (h : Prebuilds l c m flags start xs ending stop) :
    Starts l start xs stop := by
  cases h with
  | nothing h hrun => exact .nil ((silent_prebuild flags h).startsNothing hrun)
  | nothingVendored h hnone => exact .nil rfl
  | kept h hv hdir hlog hheader hforce hmade hend =>
      have hwritten := (silent_writeHeader _ _).startsNothing hheader
      exact .nil (((startsNothing_of_reports hlog).trans hwritten).trans
        (startsNothing_of_reports hend))
  | made h hv hdir hlog hheader hneeded hbegin hend =>
      have hwritten := (silent_writeHeader _ _).startsNothing hheader
      exact .single (((startsNothing_of_reports hlog).trans hwritten).trans
        (startsNothing_of_reports hbegin))
  | refused hquiet => exact .nil hquiet

lemma BuildsModule.starts {standard : Option (List String)}
    (h : BuildsModule l c g known m start xs ending standard stop) : Starts l start xs stop := by
  cases h with
  | stopped hlog hprebuild hend =>
      exact Starts.append (.nil (startsNothing_of_reports hlog)) hprebuild.starts
  | untested hlog hprebuild hstandard =>
      have hfront := Starts.append (.nil (startsNothing_of_reports hlog)) hprebuild.starts
      simpa using Starts.append hfront hstandard.starts
  | carried hlog hprebuild hstandard hsteps =>
      have hfront := Starts.append (.nil (startsNothing_of_reports hlog)) hprebuild.starts
      exact Starts.append (Starts.append hfront hstandard.starts) hsteps.starts

/-- A course accounts for every program that was started. -/
lemma Builds.starts (h : Builds l c g known modules start xs ending stop) :
    Starts l start xs stop := by
  induction h with
  | done known m => exact .nil rfl
  | stopped hmodule hend => exact hmodule.starts
  | next hmodule hrest ih => exact hmodule.starts.append ih

/-! ## The first failure is the last launch -/

/-- Every command succeeds; tests may fail. -/
def CommandsSucceed (l : Launcher) (xs : List Launch) : Prop :=
  ∀ x ∈ xs, x.purpose ≠ .test → x.Succeeds l

/-- Either every command succeeds, or the last one fails and ends the build. -/
def FailFast (l : Launcher) (xs : List Launch) (ending : Ending) : Prop :=
  (ending ≠ .failed ∧ CommandsSucceed l xs) ∨
    ending = .failed ∧ ∃ front x, xs = front ++ [x] ∧ CommandsSucceed l front ∧
      x.purpose ≠ .test ∧ ¬ x.Succeeds l

lemma FailFast.nothing (h : ending ≠ .failed) : FailFast l [] ending :=
  .inl ⟨h, by simp [CommandsSucceed]⟩

lemma FailFast.single {x : Launch} (hpurpose : x.purpose ≠ .test) (h : ¬ x.Succeeds l) :
    FailFast l [x] .failed :=
  .inr ⟨rfl, [], x, rfl, by simp [CommandsSucceed], hpurpose, h⟩

lemma CommandsSucceed.append (h : CommandsSucceed l xs) (h' : CommandsSucceed l ys) :
    CommandsSucceed l (xs ++ ys) := by
  intro x hx
  rcases List.mem_append.1 hx with hx | hx
  · exact h x hx
  · exact h' x hx

lemma FailFast.append (h : CommandsSucceed l xs) (h' : FailFast l ys ending) :
    FailFast l (xs ++ ys) ending := by
  rcases h' with ⟨hend, hys⟩ | ⟨hend, front, x, rfl, hfront, hx⟩
  · exact .inl ⟨hend, h.append hys⟩
  · exact .inr ⟨hend, xs ++ front, x, (List.append_assoc _ _ _).symm, h.append hfront, hx⟩

lemma FailFast.succeed (h : FailFast l xs .finished) : CommandsSucceed l xs := by
  rcases h with ⟨-, h⟩ | ⟨hend, -⟩
  · exact h
  · cases hend

lemma Steps.purpose_ne {steps : List Step} {purpose : Purpose}
    (hpurpose : ∀ s ∈ steps, s.purpose ≠ purpose) (h : Steps l steps start xs ending stop) :
    ∀ x ∈ xs, x.purpose ≠ purpose := by
  induction h with
  | done m => simp
  | refused hdir => simp
  | failed hdir hlog hfail =>
      exact List.forall_mem_singleton.2 (hpurpose _ List.mem_cons_self)
  | next hdir hlog hok hrest ih =>
      exact List.forall_mem_cons.2 ⟨hpurpose _ List.mem_cons_self,
        ih fun s hs => hpurpose s (List.mem_cons_of_mem _ hs)⟩

lemma Steps.failFast {steps : List Step} (hpurpose : ∀ s ∈ steps, s.purpose ≠ .test)
    (h : Steps l steps start xs ending stop) : FailFast l xs ending := by
  induction h with
  | done m => exact .nothing (by simp)
  | refused hdir => exact .nothing (by simp)
  | failed hdir hlog hfail => exact .single (hpurpose _ List.mem_cons_self) hfail
  -- The command in front has succeeded, so a failure is one of the rest.
  | @next s rest m ready before m' xs ending hdir hlog hok hrest ih =>
      have hfirst : CommandsSucceed l [s.launch before] := by
        intro x hx _
        rwa [List.mem_singleton.1 hx]
      exact FailFast.append hfirst (ih fun s hs => hpurpose s (List.mem_cons_of_mem _ hs))

/-- Tests are all that the search for the standard starts, one for each candidate at most. -/
lemma Tests.purpose {dir : Path} {candidates : List (List String)} {found : List String}
    (h : Tests l t cflags dir candidates start xs found stop) :
    (∀ x ∈ xs, x.purpose = .test) ∧ xs.length ≤ candidates.length := by
  induction h with
  | none m => simp
  | found hok => simp [testLaunch]
  | next hfail hlog hrest ih =>
      obtain ⟨hall, hlength⟩ := ih
      exact ⟨List.forall_mem_cons.2 ⟨rfl, hall⟩, Nat.succ_le_succ hlength⟩

lemma Standards.purpose {scratch : Path} {found : Option (List String)}
    (h : Standards l t cflags scratch known start xs found stop) :
    (∀ x ∈ xs, x.purpose = .test) ∧ xs.length ≤ 3 ∧ (known.isSome → xs = []) := by
  cases h with
  | known flags m => simp
  | tested hopen hlog htests hclose =>
      obtain ⟨hall, hlength⟩ := htests.purpose
      exact ⟨hall, hlength, by simp⟩
  | refused hquiet => simp

lemma Prebuilds.failFast {flags : CompilerFlags}
    (h : Prebuilds l c m flags start xs ending stop) :
    FailFast l xs ending ∧ ∀ x ∈ xs, x.purpose ≠ .test := by
  cases h with
  | nothing h hrun => exact ⟨.nothing (by simp), by simp⟩
  | nothingVendored h hnone => exact ⟨.nothing (by simp), by simp⟩
  | kept h hv hdir hlog hheader hforce hmade hend => exact ⟨.nothing (by simp), by simp⟩
  | made h hv hdir hlog hheader hneeded hbegin hend =>
      refine ⟨?_, by simp [makeLaunch]⟩
      -- The make run is the only command of the step, and the ending tells how it went.
      rcases hend with ⟨hok, rfl⟩ | ⟨hfail, rfl⟩
      · exact .inl ⟨by simp, by simpa [CommandsSucceed] using fun _ => hok⟩
      · exact .single (by simp [makeLaunch]) hfail
  | refused hquiet => exact ⟨.nothing (by simp), by simp⟩

/-- The number of test compiles. -/
def testCount (xs : List Launch) : ℕ := xs.countP fun x => x.purpose = .test

lemma testCount_append : testCount (xs ++ ys) = testCount xs + testCount ys := List.countP_append

lemma testCount_eq_zero (h : ∀ x ∈ xs, x.purpose ≠ .test) : testCount xs = 0 :=
  List.countP_eq_zero.2 fun x hx => by simpa using h x hx

lemma stepsOf_purpose (standard : List String) :
    ∀ s ∈ stepsOf c g m standard, s.purpose = .compile ∨ s.purpose = .link := by
  intro s hs
  rcases List.mem_append.1 hs with hs | hs
  · obtain ⟨source, -, rfl⟩ := List.mem_map.1 hs
    exact .inl rfl
  · rw [List.mem_singleton.1 hs]
    exact .inr rfl

lemma stepsOf_ne {purpose : Purpose} (standard : List String) (hcompile : purpose ≠ .compile)
    (hlink : purpose ≠ .link) : ∀ s ∈ stepsOf c g m standard, s.purpose ≠ purpose := by
  rintro s hs rfl
  exact (stepsOf_purpose standard s hs).elim hcompile hlink

lemma commandsSucceed_of_tests (h : ∀ x ∈ xs, x.purpose = .test) : CommandsSucceed l xs :=
  fun x hx hpurpose => absurd (h x hx) hpurpose

/-- A module starts nothing behind the command that fails, and tests only where the flags of the
standard are not known. -/
lemma BuildsModule.failFast {standard : Option (List String)}
    (h : BuildsModule l c g known m start xs ending standard stop) :
    FailFast l xs ending ∧ testCount xs ≤ 3 ∧ (known.isSome → testCount xs = 0) := by
  cases h with
  | stopped hlog hprebuild hend =>
      obtain ⟨hfast, hpurpose⟩ := hprebuild.failFast
      have hnone := testCount_eq_zero hpurpose
      exact ⟨hfast, by omega, fun _ => hnone⟩
  | untested hlog hprebuild hstandard =>
      obtain ⟨hfast, hpurpose⟩ := hprebuild.failFast
      have hnone := testCount_eq_zero hpurpose
      exact ⟨.inl ⟨by simp, hfast.succeed⟩, by omega, fun _ => hnone⟩
  | carried hlog hprebuild hstandard hsteps =>
      -- Pre-build step and tests have gone through, so only a command of the plan can have failed.
      obtain ⟨hfast, hpurpose⟩ := hprebuild.failFast
      obtain ⟨htests, hlength, hknown⟩ := hstandard.purpose
      have hlast := hsteps.failFast (stepsOf_ne _ (by simp) (by simp))
      have hcommands : ∀ x : Launch, x ∈ _ → x.purpose ≠ .test :=
        hsteps.purpose_ne (stepsOf_ne _ (by simp) (by simp))
      have hfront := hfast.succeed.append (commandsSucceed_of_tests htests)
      refine ⟨FailFast.append hfront hlast, ?_, fun h => ?_⟩
      · rw [testCount_append, testCount_append, testCount_eq_zero hpurpose,
          testCount_eq_zero hcommands, Nat.zero_add]
        exact List.countP_le_length.trans hlength
      · rw [testCount_append, testCount_append, testCount_eq_zero hpurpose,
          testCount_eq_zero hcommands, hknown h]
        rfl

/-- A build starts nothing behind the command that fails, and at most three tests, none of them
where the flags of the standard are known. -/
lemma Builds.failFast (h : Builds l c g known modules start xs ending stop) :
    FailFast l xs ending ∧ testCount xs ≤ 3 ∧ (known.isSome → testCount xs = 0) := by
  induction h with
  | done known m => exact ⟨.nothing (by simp), by simp [testCount]⟩
  | stopped hmodule hend => exact hmodule.failFast
  | next hmodule hrest ih =>
      obtain ⟨hfast, hcount, hknown⟩ := hmodule.failFast
      -- The rest knows the flags, so all tests are those of the first module.
      obtain ⟨hrestFast, -, hrestKnown⟩ := ih
      refine ⟨FailFast.append hfast.succeed hrestFast, ?_, fun h => ?_⟩
      · rw [testCount_append, hrestKnown rfl]
        exact hcount
      · rw [testCount_append, hrestKnown rfl, hknown h]

/-! ## The make runs -/

/-- A make run for a prepared module.  The static target of the library is made in the directory of
the library, since that is forced or since the archive or an object of the library is missing. -/
def MakesLibrary (c : BuildContext) (m : Module) (x : Launch) : Prop :=
  ∃ header v dir, BuildsLibrary c m header ∧ c.manifest.vendored = some v ∧
    c.manifest.vendoredDir? = some dir ∧
    x.invocation = {
      command := ⟨c.settings.tools.makeProgram,
        ["ALL_CPPFLAGS=" ++ LibraryMake.cppflags m.compileArgs m.defines, v.staticTarget]⟩
      directory := some dir } ∧
    (c.settings.force = true ∨ x.before.workspace.exists (dir.join v.archive) = false ∨
      ∃ p ∈ c.resolution.artifacts.expected, x.before.workspace.exists p = false)

lemma Prebuilds.makesLibrary {flags : CompilerFlags} {x : Launch}
    (h : Prebuilds l c m flags start xs ending stop) (hx : x ∈ xs) : MakesLibrary c m x := by
  cases h with
  | @made ready written before header dir v _ h hv hdir hlog hheader hneeded hbegin hend =>
      obtain rfl := List.mem_singleton.1 hx
      refine ⟨header, v, dir, h, hv, hdir, rfl, hneeded.imp_right fun hmissing => ?_⟩
      -- Nothing is changed between the look for what is missing and the run.
      show before.workspace.exists _ = false ∨ ∃ p ∈ _, before.workspace.exists p = false
      rw [hbegin.workspace]
      simpa [Missing, libraryMakeOf] using hmissing
  | nothing | nothingVendored | kept | refused => simp at hx

lemma BuildsModule.makesLibrary {standard : Option (List String)} {x : Launch}
    (h : BuildsModule l c g known m start xs ending standard stop) (hx : x ∈ xs)
    (hmake : x.purpose = .make) : MakesLibrary c (c.prepare g m) x := by
  cases h with
  | stopped hlog hprebuild hend => exact hprebuild.makesLibrary hx
  | untested hlog hprebuild hstandard => exact hprebuild.makesLibrary hx
  | carried hlog hprebuild hstandard hsteps =>
      -- Of the three parts only the pre-build step starts make.
      rcases List.mem_append.1 hx with hx | hx
      · rcases List.mem_append.1 hx with hx | hx
        · exact hprebuild.makesLibrary hx
        · simp [hstandard.purpose.1 x hx] at hmake
      · exact absurd hmake (hsteps.purpose_ne (stepsOf_ne _ (by simp) (by simp)) x hx)

/-- Make is run for nothing but the library of the package. -/
lemma Builds.makesLibrary {x : Launch} (h : Builds l c g known modules start xs ending stop)
    (hx : x ∈ xs) (hmake : x.purpose = .make) :
    ∃ m ∈ modules, MakesLibrary c (c.prepare g m) x := by
  induction h with
  | done => simp at hx
  | stopped hmodule hend => exact ⟨_, List.mem_cons_self, hmodule.makesLibrary hx hmake⟩
  | next hmodule hrest ih =>
      rcases List.mem_append.1 hx with hx | hx
      · exact ⟨_, List.mem_cons_self, hmodule.makesLibrary hx hmake⟩
      · obtain ⟨m, hm, hmakes⟩ := ih hx
        exact ⟨m, List.mem_cons_of_mem _ hm, hmakes⟩

end Build

end Drydock
