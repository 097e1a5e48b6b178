import Drydock.Proofs.Build.FailFast
import Drydock.Proofs.Graph.Dependencies

/-!
# The vendored library and the links behind it

The artifacts of the vendored library are attached to modules by the link mode and the foundational
mark, but the library is built by a pre-build step that a module declares for itself.  So the
library has been built in front of a link exactly when the module, or one in front of it, declares
that step, whether or not the link takes the artifacts in.

A run is cut into milestones for this: the end of a library build and the start of a link, each with
the machine it happens on.  Between them anything may happen, and a run that fails has the
milestones up to its failure, so the theorem speaks of every run and not only of those that end
well.

That the step is declared by modules and not by the package is the design, and the last theorem
shows its price: a foundational module without the step is linked against objects that nobody has
built.

* `Build.buildModule_eq_parts` — a module is built in three parts, and the last one is its link.
* `Build.Milestones` — the library builds and the links of a run, in their order.
* `Build.buildGraph_library_first` — the links with a library build in front of them.
-/

namespace Drydock

namespace Build

/-! ## The parts of a module -/

/-- Opens a module with its pre-build step; the outcome is that of the library build, if the step
is one. -/
def prepareModule (c : BuildContext) (g : BuildGraph) (m : Module) :
    Build (Option LibraryOutcome) := do
  log .info ("building '" ++ m.name ++ "' extension")
  during (.preparing m.name) (prebuild c (c.prepare g m) (c.flags (c.prepare g m)))

/-- Compiles a module and makes its link ready.  It returns the flags of the standard. -/
def compileModule (c : BuildContext) (g : BuildGraph) (known : Option (List String))
    (m : Module) : Build (List String) := do
  let flags := c.flags (c.prepare g m)
  let standard ← standardFlags known (c.compilerOf g m) flags.cflags c.manifest.buildDir
  let plan := c.planPrepared g (c.prepare g m) ((c.compilerOf g m).withStandard standard) flags
  compileAll (plan.compile.zip (plan.sources.zip plan.objects))
  ensureDirectoryOf (c.outputPath m)
  log .debug (c.planModule g m).link.text
  return standard

/-- Starts the link of a module. -/
def linkModule (c : BuildContext) (g : BuildGraph) (m : Module) : Build Unit := do
  let e ← capture { command := (c.planModule g m).link }
  if e.success then return
  fail (Cause.linkingFailed (c.outputPath m) (Text.Utf8.decodeLossy e.stderr))

lemma buildModule_eq_parts (c : BuildContext) (g : BuildGraph) (known : Option (List String))
    (m : Module) : buildModule c g known m = (do
      let _ ← prepareModule c g m
      let standard ← compileModule c g known m
      linkModule c g m
      return (⟨m.name, c.outputPath m⟩, standard)) := by
  simp only [buildModule, carryOut, runStep, prepareModule, compileModule, linkModule, bind_assoc,
    pure_bind]
  rfl

/-! ## Milestones of a run -/

/-- What counts in a run for the order of the library and the links. -/
inductive Milestone where
  /-- The library build has ended well: the library is built, or was there already. -/
  | library (outcome : LibraryOutcome)
  /-- The link of a module is started on a machine. -/
  | link (m : Module) (before : Machine)

/-- The milestone of a pre-build step that ends well. -/
def libraryMilestones (outcome : Option LibraryOutcome) : List Milestone :=
  outcome.toList.map .library

/-- The milestones of a run that builds modules one after the other: for each module the library if
its pre-build step builds it, then its link.  The first part that fails is the last. -/
inductive Milestones (l : Launcher) (c : BuildContext) (g : BuildGraph) :
    Option (List String) → List Module → Machine → List Milestone → Machine → Prop where
  | done (known : Option (List String)) (start : Machine) : Milestones l c g known [] start [] start
  | unprepared {known : Option (List String)} {m : Module} {rest : List Module}
      {start stop : Machine} {f : Failure}
      (hprepare : (prepareModule c g m).run l start = (.error f, stop)) :
      Milestones l c g known (m :: rest) start [] stop
  | uncompiled {known : Option (List String)} {m : Module} {rest : List Module}
      {start ready stop : Machine} {outcome : Option LibraryOutcome} {f : Failure}
      (hprepare : (prepareModule c g m).run l start = (.ok outcome, ready))
      (hcompile : (compileModule c g known m).run l ready = (.error f, stop)) :
      Milestones l c g known (m :: rest) start (libraryMilestones outcome) stop
  | unlinked {known : Option (List String)} {m : Module} {rest : List Module}
      {start ready before stop : Machine} {outcome : Option LibraryOutcome}
      {standard : List String} {f : Failure}
      (hprepare : (prepareModule c g m).run l start = (.ok outcome, ready))
      (hcompile : (compileModule c g known m).run l ready = (.ok standard, before))
      (hlink : (linkModule c g m).run l before = (.error f, stop)) :
      Milestones l c g known (m :: rest) start
        (libraryMilestones outcome ++ [.link m before]) stop
  | next {known : Option (List String)} {m : Module} {rest : List Module}
      {start ready before linked stop : Machine} {outcome : Option LibraryOutcome}
      {standard : List String} {more : List Milestone}
      (hprepare : (prepareModule c g m).run l start = (.ok outcome, ready))
      (hcompile : (compileModule c g known m).run l ready = (.ok standard, before))
      (hlink : (linkModule c g m).run l before = (.ok (), linked))
      (hrest : Milestones l c g (some standard) rest linked more stop) :
      Milestones l c g known (m :: rest) start
        (libraryMilestones outcome ++ .link m before :: more) stop

variable {l : Launcher} {c : BuildContext} {g : BuildGraph} {known : Option (List String)}
  {m : Module} {modules : List Module} {start stop : Machine} {marks : List Milestone}

lemma exists_milestones (c : BuildContext) (g : BuildGraph) (known : Option (List String))
    (modules : List Module) (l : Launcher) (start : Machine) : ∃ result stop marks,
      (buildAll c g known modules).run l start = (result, stop) ∧
      Milestones l c g known modules start marks stop := by
  induction modules generalizing known start with
  | nil => exact ⟨.ok [], start, [], rfl, .done known start⟩
  | cons m rest ih =>
      rw [buildAll, buildModule_eq_parts]
      simp only [bind_assoc, pure_bind]
      -- A module ends in one of four places, and each has its case of the relation.
      rcases hprepare : (prepareModule c g m).run l start with ⟨f | outcome, ready⟩
      · exact ⟨.error f, ready, [], by rw [run_bind, hprepare], .unprepared hprepare⟩
      rw [run_bind_of_eq_ok hprepare]
      rcases hcompile : (compileModule c g known m).run l ready with ⟨f | standard, before⟩
      · exact ⟨.error f, before, _, by rw [run_bind, hcompile], .uncompiled hprepare hcompile⟩
      rw [run_bind_of_eq_ok hcompile]
      rcases hlink : (linkModule c g m).run l before with ⟨f | u, linked⟩
      · exact ⟨.error f, linked, _, by rw [run_bind, hlink], .unlinked hprepare hcompile hlink⟩
      rw [run_bind_of_eq_ok hlink]
      obtain ⟨result, stop, more, hrun, hmore⟩ := ih (some standard) linked
      have hmarks := Milestones.next hprepare hcompile hlink hmore
      cases result with
      | error f => exact ⟨.error f, stop, _, by rw [run_bind, hrun], hmarks⟩
      | ok built => exact ⟨_, stop, _, run_bind_of_eq_ok hrun, hmarks⟩

/-! ## What lies in front of a link -/

lemma prebuild_eq_ok {flags : CompilerFlags} {outcome : Option LibraryOutcome}
    (h : (prebuild c m flags).run l start = (.ok outcome, stop)) :
    (outcome = none ∧ ∀ header, ¬ BuildsLibrary c m header) ∨
      ∃ header v o ready, BuildsLibrary c m header ∧ c.manifest.vendored = some v ∧
        (makeLibrary (libraryMakeOf c v (c.manifest.path v.path)) m.compileArgs m.defines
          c.settings.force).run l ready = (.ok o, stop) ∧ outcome = some o := by
  unfold prebuild at h
  split at h
  · rename_i hstep
    obtain ⟨rfl, -⟩ := run_pure_eq_ok.1 h
    exact .inl ⟨rfl, fun header hlibrary => by simp [hlibrary.1] at hstep⟩
  · rename_i hstep
    obtain ⟨_, logged, -, h⟩ := run_bind_eq_ok.1 h
    obtain ⟨_, written, -, h⟩ := run_bind_eq_ok.1 h
    obtain ⟨rfl, -⟩ := run_pure_eq_ok.1 h
    exact .inl ⟨rfl, fun header hlibrary => by simp [hlibrary.1] at hstep⟩
  · rename_i header hstep
    -- The step is declared, and the mode decides whether there is a library to build.
    cases hmode : c.resolution.mode.buildsVendored with
    | false =>
        rw [prebuildVendored, hmode] at h
        obtain ⟨_, logged, -, h⟩ := run_bind_eq_ok.1 h
        obtain ⟨rfl, -⟩ := run_pure_eq_ok.1 h
        exact .inl ⟨rfl, fun header hlibrary => by simp [hlibrary.2] at hmode⟩
    | true =>
        rw [prebuildVendored, hmode] at h
        cases hv : c.manifest.vendored with
        | none =>
            rw [hv] at h
            cases h
        | some v =>
            have hdir : c.manifest.vendoredDir? = some (c.manifest.path v.path) := by
              simp [Manifest.vendoredDir?, hv]
            simp only [hv, hdir] at h
            obtain ⟨_, logged, -, h⟩ := run_bind_eq_ok.1 h
            obtain ⟨_, written, -, h⟩ := run_bind_eq_ok.1 h
            obtain ⟨o, made, hmake, h⟩ := run_bind_eq_ok.1 h
            obtain ⟨rfl, rfl⟩ := run_pure_eq_ok.1 h
            exact .inr ⟨header, v, o, written, ⟨hstep, hmode⟩, rfl, hmake, rfl⟩

lemma prepareModule_eq_ok {outcome : Option LibraryOutcome}
    (h : (prepareModule c g m).run l start = (.ok outcome, stop)) :
    (∃ o, outcome = some o) ↔ ∃ header, BuildsLibrary c m header := by
  obtain ⟨_, opened, -, h⟩ := run_bind_eq_ok.1 h
  rcases prebuild_eq_ok (run_during_eq_ok.1 h) with ⟨rfl, hnone⟩ |
    ⟨header, v, o, ready, hlibrary, -, -, rfl⟩
  · exact iff_of_false (by simp) fun ⟨header, hlibrary⟩ => hnone header hlibrary
  · exact iff_of_true ⟨o, rfl⟩ ⟨header, hlibrary⟩

/-- The milestone of a pre-build step is no link, so what is in front of a link starts with it. -/
lemma exists_past {outcome : Option LibraryOutcome} {past future : List Milestone}
    {before : Machine} (h : libraryMilestones outcome ++ marks = past ++ .link m before :: future) :
    ∃ behind, past = libraryMilestones outcome ++ behind ∧
      marks = behind ++ .link m before :: future := by
  cases outcome with
  | none => exact ⟨past, rfl, h⟩
  | some o =>
      cases past with
      | nil => simp [libraryMilestones] at h
      | cons first behind =>
          obtain ⟨rfl, hbehind⟩ := List.cons.inj h
          exact ⟨behind, rfl, hbehind⟩

lemma exists_library_mem {outcome : Option LibraryOutcome} {behind : List Milestone} :
    (∃ o, Milestone.library o ∈ libraryMilestones outcome ++ behind) ↔
      (∃ o, outcome = some o) ∨ ∃ o, Milestone.library o ∈ behind := by
  simp [libraryMilestones, exists_or]

/-- The library is built in front of a link exactly when the module, or one that the run has built
in front of it, builds the library. -/
lemma Milestones.library_iff (h : Milestones l c g known modules start marks stop)
    {past future : List Milestone} {before : Machine}
    (hmarks : marks = past ++ .link m before :: future) :
    ∃ front back, modules = front ++ m :: back ∧
      ((∃ o, Milestone.library o ∈ past) ↔
        ∃ d ∈ front ++ [m], ∃ header, BuildsLibrary c d header) := by
  induction h generalizing past with
  | done known start => simp at hmarks
  | unprepared hprepare => simp at hmarks
  | uncompiled hprepare hcompile =>
      obtain ⟨behind, -, hbehind⟩ := exists_past ((List.append_nil _).trans hmarks)
      simp at hbehind
  | @unlinked known m' rest start ready mid stop outcome standard f hprepare hcompile hlink =>
      obtain ⟨behind, rfl, hbehind⟩ := exists_past hmarks
      obtain ⟨rfl, ⟨rfl, rfl⟩, rfl⟩ : behind = [] ∧ (m = m' ∧ before = mid) ∧ future = [] := by
        simpa [List.append_eq_singleton_iff] using hbehind.symm
      rw [exists_library_mem, prepareModule_eq_ok hprepare]
      exact ⟨[], rest, rfl, by simp⟩
  | @next known m' rest start ready mid linked stop outcome standard more hprepare hcompile hlink
      hrest ih =>
      obtain ⟨behind, rfl, hbehind⟩ := exists_past hmarks
      rw [exists_library_mem, prepareModule_eq_ok hprepare]
      -- Either the link is that of the first module, or it is one of the rest.
      cases behind with
      | nil =>
          obtain ⟨⟨⟩, rfl⟩ := List.cons.inj hbehind
          exact ⟨[], rest, rfl, by simp⟩
      | cons first behind =>
          obtain ⟨rfl, hmore⟩ := List.cons.inj hbehind
          obtain ⟨front, back, rfl, hiff⟩ := ih hmore
          refine ⟨m' :: front, back, rfl, ?_⟩
          have hskip : (∃ o, Milestone.library o ∈ Milestone.link m' mid :: behind) ↔
              ∃ o, Milestone.library o ∈ behind := by simp
          rw [hskip, hiff]
          simp

/-- In front of a link the library build has ended well exactly when the module that is linked, or
one in front of it in the build order, declares it as its pre-build step.  The foundational module
has none in front of it, so there its own step counts. -/
theorem buildGraph_library_first {declared : List Module}
    (haccepted : BuildGraph.ofModules declared = .ok g) (c : BuildContext) (l : Launcher)
    (start : Machine) : ∃ result stop marks,
      (buildGraph c g).run l start = (result, stop) ∧
      Milestones l c g none g.modules start marks stop ∧
      ∀ past m before future, marks = past ++ .link m before :: future →
        ∃ front back, g.modules = front ++ m :: back ∧ (m.foundational = true → front = []) ∧
          ((∃ o, Milestone.library o ∈ past) ↔
            ∃ d ∈ front ++ [m], ∃ header, BuildsLibrary c d header) := by
  obtain ⟨result, stop, marks, hrun, hmarks⟩ := exists_milestones c g none g.modules l start
  refine ⟨result, stop, marks, hrun, hmarks, ?_⟩
  intro past m before future hlink
  obtain ⟨front, back, hmodules, hiff⟩ := hmarks.library_iff hlink
  refine ⟨front, back, hmodules, ?_, hiff⟩
  intro hfound
  obtain ⟨hperm, hnames, -⟩ := BuildGraph.of_ofModules haccepted
  have hm : m ∈ declared := hperm.mem_iff.1 (by simp [hmodules])
  obtain ⟨rest, hrest⟩ := BuildGraph.exists_modules_eq_cons haccepted hm hfound
  have hnodup : g.modules.Nodup := hnames.of_map
  cases front with
  | nil => rfl
  | cons d front =>
      -- The first module is the foundational one, and it does not come again.
      rw [hmodules] at hrest hnodup
      obtain ⟨rfl, -⟩ := List.cons.inj hrest
      simp at hnodup

/-- The first module of `viewModules` in build order builds the library, so it is built in front of
every link. -/
theorem buildGraph_library_first_view :
    BuildGraph.ofModules viewModules = .ok viewGraph ∧ ∃ result stop marks,
      (buildGraph viewContext viewGraph).run strictLauncher freshMachine =
        (result, stop) ∧
      Milestones strictLauncher viewContext viewGraph none viewModules.reverse
        freshMachine marks stop ∧
      ∀ past m before future, marks = past ++ .link m before :: future →
        ∃ o, Milestone.library o ∈ past := by
  have haccepted : BuildGraph.ofModules viewModules = .ok viewGraph := by cbv
  obtain ⟨result, stop, marks, hrun, hmarks, hlinks⟩ :=
    buildGraph_library_first haccepted viewContext strictLauncher freshMachine
  refine ⟨haccepted, result, stop, marks, hrun, hmarks, ?_⟩
  intro past m before future hlink
  obtain ⟨front, back, hmodules, -, hiff⟩ := hlinks past m before future hlink
  refine hiff.2 ?_
  cases front with
  | nil =>
      obtain ⟨rfl, -⟩ := List.cons.inj hmodules
      exact ⟨_, List.mem_singleton_self _, ⟨"h/config.h"⟩, rfl, rfl⟩
  | cons d front =>
      obtain ⟨rfl, -⟩ := List.cons.inj hmodules
      exact ⟨_, List.mem_append_left _ List.mem_cons_self, ⟨"h/config.h"⟩, rfl, rfl⟩

/-! ## A library that no step builds -/

/-- A foundational module without a pre-build step. -/
def coreModule : Module := { name := "libcore", sources := [⟨"core.c"⟩], foundational := true }

/-- That module alone. -/
def coreGraph : BuildGraph := ⟨[coreModule], [[]]⟩

/-- A package with a library and that module. -/
def corePackage : Manifest :=
  { tidyPackage with
    modules := [{ name := "libcore", sources := ["core.c"], foundational := true }] }

/-- A machine with the source of the module and the library, which has not been configured. -/
def coreMachine : Machine where
  workspace := { tree := ⟨[(["core.c"], .file [] false), (["h"], .directory),
    (["h", "configure"], .file [] true)]⟩ }

/-- A context of that package. -/
def coreContext : BuildContext := ⟨corePackage, {}, .ofPlatform .elf, reportedResolution⟩

/-- The machine once the library is configured. -/
def configuredMachine : Machine :=
  ((resolve corePackage {} (.ofPlatform .elf)).run reportingLauncher coreMachine).2

/-- The objects of the library are linked into the module although nothing has built them: the link
is the only milestone of the run. -/
theorem buildGraph_links_unbuilt_library :
    corePackage.modules? coreMachine.workspace = .ok [coreModule] ∧
      BuildGraph.ofModules [coreModule] = .ok coreGraph ∧
      (resolve corePackage {} (.ofPlatform .elf)).run reportingLauncher coreMachine =
        (.ok reportedResolution, configuredMachine) ∧
      "h/a.o" ∈ (coreContext.planModule coreGraph coreModule).link.args ∧
      ∃ before stop, (buildGraph coreContext coreGraph).run reportingLauncher
          configuredMachine = (.ok [⟨"libcore", ⟨"./libcore.so"⟩⟩], stop) ∧
        Milestones reportingLauncher coreContext coreGraph none [coreModule]
          configuredMachine [.link coreModule before] stop := by
  have hprepare := run_of_fst_eq_ok (b := prepareModule coreContext coreGraph coreModule)
    (l := reportingLauncher) (m := configuredMachine) (a := none) (by decide +kernel)
  obtain ⟨before, hcompile, hlink⟩ : ∃ before,
      (compileModule coreContext coreGraph none coreModule).run reportingLauncher
        ((prepareModule coreContext coreGraph coreModule).run reportingLauncher
          configuredMachine).2 = (.ok [], before) ∧
      ((linkModule coreContext coreGraph coreModule).run reportingLauncher before).1 =
        .ok () := ⟨_, run_of_fst_eq_ok (by decide +kernel), by decide +kernel⟩
  refine ⟨by decide +kernel, by cbv, run_of_fst_eq_ok (by decide +kernel), by decide +kernel,
    before, _, ?_, .next hprepare hcompile (run_of_fst_eq_ok hlink) (.done _ _)⟩
  have hlinked := run_of_fst_eq_ok hlink
  show (buildAll coreContext coreGraph none [coreModule]).run _ _ = _
  rw [buildAll, buildModule_eq_parts]
  simp only [bind_assoc, pure_bind]
  rw [run_bind_of_eq_ok hprepare, run_bind_of_eq_ok hcompile, run_bind_of_eq_ok hlinked]
  rfl

end Build
end Drydock
