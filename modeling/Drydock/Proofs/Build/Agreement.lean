import Drydock.Build.Session
import Drydock.Proofs.Build.Resolve

/-!
# Commands that only read agree with the build

A command that only reads resolves from the record of the last run, plans from that resolution and
looks for the outputs of the plan.  The build resolves by configuring the library, and goes its own
way through every module.  Both come to the same: the resolutions differ in the configure options
alone, and a build is its plan carried out, with the language standard selected.

A plan that is only shown does not know the language standard.  A build finds it out between its
pre-build step and its commands, and plans again with a compiler that has the flags.  The commands
of a build are therefore those of the plan with the flags of the standard put in
(`planPrepared_withStandard`); outputs and objects have no flags and are the same.

Resolving from the record takes that the file at its path is still the one that was written.  What a
run writes behind the record can only spoil it where two paths lead to one file, which is what
`RecordApart` excludes and what the last theorem is about.

* `ModulePlan.withStandard` — what selecting a language standard does to a plan.
* `Build.buildPlanned` — building a module by its plan.
* `BuildContext.Foretells` — one context plans what a build in another one does.
* `Build.inspectRecord_foretells` — resolving from the record foretells the build.
-/

namespace Drydock

/-! ## Plans and the language standard -/

/-- The plan with the flags of a language standard, which stand right behind the compiler's own
words. -/
def ModulePlan.withStandard (p : ModulePlan) (own : ℕ) (standard : List String) : ModulePlan :=
  { p with compile := p.compile.map fun c =>
      { c with args := c.args.take own ++ standard ++ c.args.drop own } }

namespace BuildContext

variable {c : BuildContext} {g : BuildGraph} {m : Module} {t : Toolchain} {standard : List String}

/-- The compiler that a module is built with. -/
def compilerOf (c : BuildContext) (g : BuildGraph) (m : Module) : Toolchain :=
  c.toolchain (c.flags (c.prepare g m))

/-- What a build without the record knows: everything but the configure options. -/
def forgetOptions (c : BuildContext) : BuildContext :=
  { c with resolution := { c.resolution with configureOptions := none } }

lemma standardFlags_ofCommandLine (cc : String) (shared : List String) :
    (Toolchain.ofCommandLine cc shared).standardFlags = [] := by
  unfold Toolchain.ofCommandLine
  split
  · rfl
  · rfl

/-- Selecting a standard adds its flags to the compile commands, behind the compiler's own words. -/
lemma planPrepared_withStandard (flags : CompilerFlags) (ht : t.standardFlags = []) :
    c.planPrepared g m (t.withStandard standard) flags =
      (c.planPrepared g m t flags).withStandard t.programArgs.length standard := by
  have hcompile : ∀ source output, (t.withStandard standard).compile source output flags.cppflags
      flags.cflags = { t.compile source output flags.cppflags flags.cflags with
        args := (t.compile source output flags.cppflags flags.cflags).args.take
            t.programArgs.length ++ standard ++
          (t.compile source output flags.cppflags flags.cflags).args.drop
            t.programArgs.length } := by
    intro source output
    simp [Toolchain.compile, Toolchain.withStandard, ht]
  simp only [planPrepared, ModulePlan.withStandard, List.map_map, Function.comp_def, hcompile]
  rfl

end BuildContext

namespace Build

variable {c : BuildContext} {g : BuildGraph} {l : Launcher} {before after : Machine}
  {modules : List Module} {built : List BuiltModule} {m : Manifest} {s : Settings}
  {d : CompilerDefaults} {r : Resolution}

/-- Builds a module by its plan, once the flags of the language standard are found. -/
def buildPlanned (c : BuildContext) (g : BuildGraph) (known : Option (List String)) (m : Module) :
    Build (BuiltModule × List String) := do
  let plan := c.planModule g m
  let compiler := c.compilerOf g m
  log .info ("building '" ++ plan.name ++ "' extension")
  let _ ← during (.preparing plan.name) (prebuild c (c.prepare g m) plan.flags)
  let standard ← standardFlags known compiler plan.flags.cflags c.manifest.buildDir
  carryOut (plan.withStandard compiler.programArgs.length standard)
  return (⟨plan.name, plan.output⟩, standard)

/-- A build carries out the plan of the same context. -/
lemma buildModule_eq_buildPlanned (c : BuildContext) (g : BuildGraph)
    (known : Option (List String)) (m : Module) :
    buildModule c g known m = buildPlanned c g known m := by
  have hplan : ∀ standard, c.planPrepared g (c.prepare g m)
      ((c.compilerOf g m).withStandard standard) (c.flags (c.prepare g m)) =
        (c.planModule g m).withStandard (c.compilerOf g m).programArgs.length standard :=
    fun standard => BuildContext.planPrepared_withStandard _
      (BuildContext.standardFlags_ofCommandLine _ _)
  rw [buildModule, buildPlanned]
  simp only [← hplan]
  rfl

/-! ## Outputs -/

lemma buildModule_eq_ok {known : Option (List String)} {mod : Module}
    {result : BuiltModule × List String}
    (h : (buildModule c g known mod).run l before = (.ok result, after)) :
    result.1 = ⟨mod.name, c.outputPath mod⟩ := by
  obtain ⟨_, m₁, hlog, h⟩ := run_bind_eq_ok.1 h
  obtain ⟨_, m₂, hprebuild, h⟩ := run_bind_eq_ok.1 h
  obtain ⟨standard, m₃, hstandard, h⟩ := run_bind_eq_ok.1 h
  obtain ⟨_, m₄, hcarry, h⟩ := run_bind_eq_ok.1 h
  obtain ⟨rfl, -⟩ := run_pure_eq_ok.1 h
  rfl

lemma buildAll_eq_ok {known : Option (List String)}
    (h : (buildAll c g known modules).run l before = (.ok built, after)) :
    built = modules.map fun mod => ⟨mod.name, c.outputPath mod⟩ := by
  induction modules generalizing known before after built with
  | nil => exact (run_pure_eq_ok.1 h).1.symm
  | cons mod rest ih =>
      obtain ⟨⟨first, standard⟩, m₁, hfirst, h⟩ := run_bind_eq_ok.1 h
      obtain ⟨more, m₂, hrest, h⟩ := run_bind_eq_ok.1 h
      obtain ⟨rfl, -⟩ := run_pure_eq_ok.1 h
      rw [ih hrest, List.map_cons, ← buildModule_eq_ok hfirst]

lemma existingOutputs_run (h : ∀ mod ∈ modules, before.workspace.exists (c.outputPath mod) = true) :
    (existingOutputs c modules).run l before =
      (.ok (modules.map fun mod => ⟨mod.name, c.outputPath mod⟩), before) := by
  induction modules with
  | nil => rfl
  | cons mod rest ih =>
      have hrest := ih fun mod hmod => h mod (List.mem_cons_of_mem _ hmod)
      rw [existingOutputs, run_bind_of_eq_ok run_workspace, if_pos (h mod (by simp)),
        run_bind_of_eq_ok hrest]
      rfl

end Build

/-! ## Agreement -/

/-- What `seen` plans is what a build under `made` does: every module is built by its plan, and the
outputs that are looked for afterwards are those that were built. -/
structure BuildContext.Foretells (seen made : BuildContext) : Prop where
  plan : ∀ g m standard,
    made.planPrepared g (made.prepare g m) ((made.compilerOf g m).withStandard standard)
        (made.flags (made.prepare g m)) =
      (seen.planModule g m).withStandard (seen.compilerOf g m).programArgs.length standard
  build : ∀ g known m, Build.buildModule made g known m = Build.buildPlanned seen g known m
  outputs : ∀ (g : BuildGraph) l l' before after later built,
    (Build.buildGraph made g).run l before = (.ok built, after) →
    (∀ m ∈ g.modules, later.workspace.exists (seen.planModule g m).output = true) →
    (Build.existingOutputs seen g.modules).run l' later = (.ok built, later)

lemma BuildContext.forgetOptions_foretells (c : BuildContext) : c.forgetOptions.Foretells c where
  plan _ _ _ := planPrepared_withStandard _ (standardFlags_ofCommandLine _ _)
  build g known m := (Build.buildModule_eq_buildPlanned c.forgetOptions g known m)
  outputs g l l' before after later built hbuild hthere := by
    rw [Build.buildAll_eq_ok hbuild]
    exact Build.existingOutputs_run hthere

namespace Build

variable {l : Launcher} {before after : Machine} {m : Manifest} {s : Settings}
  {d : CompilerDefaults} {r : Resolution}

/-- Resolving from the record that a run left gives the resolution of that run without its configure
options, changes no file, and foretells the build — unless the run wrote another file over the
record. -/
theorem inspectRecord_foretells (hrun : (resolve m s d).run l before = (.ok r, after))
    (hapart : ∀ v, m.vendored = some v → RecordApart m v before after) (l' : Launcher)
    (later : Machine) (hlater : ∀ v, m.vendored = some v →
      later.workspace.stat (m.recordPath v) = after.workspace.stat (m.recordPath v)) :
    (∃ events, (inspectRecord m s).run l' later =
      (.ok { r with configureOptions := none }, { later with events := later.events ++ events })) ∧
      BuildContext.Foretells ⟨m, s, d, { r with configureOptions := none }⟩ ⟨m, s, d, r⟩ := by
  refine ⟨?_, BuildContext.forgetOptions_foretells ⟨m, s, d, r⟩⟩
  -- Without a library there is no record, and the mode alone makes the resolution.
  cases hv : m.vendored with
  | none =>
      obtain ⟨mode, m₁, hselect, hrest⟩ := run_bind_eq_ok.1 hrun
      obtain ⟨events, hselected⟩ := selectMode_run s l' later
      rw [selectMode_eq_ok hselect] at hselected
      simp only [hv, Manifest.vendoredDir?, Option.map_none] at hrest
      obtain ⟨_, m₂, hlog, hrest⟩ := run_bind_eq_ok.1 hrest
      obtain ⟨_, m₃, hdebug, hrest⟩ := run_bind_eq_ok.1 hrest
      obtain ⟨rfl, -⟩ := run_pure_eq_ok.1 hrest
      refine ⟨events, ?_⟩
      rw [inspectRecord, run_bind_of_eq_ok hselected]
      simp only [hv]
      rfl
  | some v =>
      obtain ⟨mode, make, chosen, hselect, hmode, hbuilt, hempty⟩ :=
        resolve_eq_ok hv (hapart v hv) hrun
      refine inspectRecord_eq_ok hv hselect (forMode_without_options hmode) (fun hbuilds => ?_)
        hempty
      obtain ⟨hrecordable, executable, hstat⟩ := hbuilt hbuilds
      exact ⟨hrecordable, executable, (hlater v hv).trans hstat⟩

/-! ## Two packages -/

/-- A package that declares one default header of its library. -/
def headerPackage (header : Path) : Manifest where
  package := { name := "tools" }
  vendored := some {
    name := "hts"
    path := ⟨"h"⟩
    keyPrefix := "HTS"
    archive := ⟨"libhts.a"⟩
    objectsVariable := "OBJS"
    externalLibrary := "hts"
    defaultConfigHeaders := [header] }

/-- A library that can be configured and reports two objects. -/
def reportingLauncher : Launcher := fun m i =>
  let stdout :=
    if i.command.program = "make" then Text.Utf8.encode "OBJS = a.o b.o\nLIBS = -lz\n" else []
  (.ok { code := some 0, stdout }, m.workspace.tree)

/-- A machine on which the library has not been configured. -/
def freshMachine : Machine where
  workspace := { tree := ⟨[(["h"], .directory), (["h", "configure"], .file [] true)]⟩ }

/-- The resolution of the two objects. -/
def reportedResolution : Resolution where
  mode := .shared
  source := some .builtin
  configureOptions := some ""
  artifacts := .objects [⟨"h/a.o"⟩, ⟨"h/b.o"⟩]
  includeDirs := [⟨"h"⟩]
  libraries := ["z", "z"]
  makeVariables := .ofList [("LIBS", "-lz"), ("OBJS", "a.o b.o")]

/-- A package whose default header has a directory of its own. -/
def tidyPackage : Manifest := headerPackage ⟨"gen/config.h"⟩

/-- A package whose default header leads to the record, but only once `gen` is made. -/
def strayPackage : Manifest := headerPackage ⟨"gen/../build/slipway/hts-print-config.txt"⟩

theorem inspectRecord_foretells_tidyPackage :
    ∃ after, (resolve tidyPackage {} (.ofPlatform .elf)).run reportingLauncher freshMachine =
        (.ok reportedResolution, after) ∧
      (∃ events, (inspectRecord tidyPackage {}).run reportingLauncher after =
        (.ok { reportedResolution with configureOptions := none },
          { after with events := after.events ++ events })) ∧
      BuildContext.Foretells
        ⟨tidyPackage, {}, .ofPlatform .elf, { reportedResolution with configureOptions := none }⟩
        ⟨tidyPackage, {}, .ofPlatform .elf, reportedResolution⟩ := by
  have hrun := run_of_fst_eq_ok (b := resolve tidyPackage {} (.ofPlatform .elf))
    (l := reportingLauncher) (m := freshMachine) (a := reportedResolution) (by decide +kernel)
  refine ⟨_, hrun, inspectRecord_foretells hrun ?_ reportingLauncher _ fun _ _ => rfl⟩
  rintro _ ⟨⟩
  refine ⟨fun _ hvalues => by simp at hvalues, fun header hheader _ => ?_⟩
  obtain rfl := List.mem_singleton.1 hheader
  have hlocate : ((resolve tidyPackage {} (.ofPlatform .elf)).run reportingLauncher
      freshMachine).2.workspace.locate (tidyPackage.path ⟨"gen/config.h"⟩) =
        .ok ["gen", "config.h"] := by decide +kernel
  have hrecord : ((resolve tidyPackage {} (.ofPlatform .elf)).run reportingLauncher
      freshMachine).2.workspace.locate ⟨"build/slipway/hts-print-config.txt"⟩ =
        .ok ["build", "slipway", "hts-print-config.txt"] := by decide +kernel
  exact Workspace.not_sameFile_of_ne hlocate hrecord (by decide)

/-- A missing default header can turn out to be the record once its directory is made: it is
written over the record, and resolving from it fails. -/
theorem inspectRecord_fails_strayPackage :
    (∀ v, strayPackage.vendored = some v → v.configValues = none) ∧
      ∃ after, (resolve strayPackage {} (.ofPlatform .elf)).run reportingLauncher freshMachine =
          (.ok reportedResolution, after) ∧
        ((inspectRecord strayPackage {}).run reportingLauncher after).1 =
          .error (SetupError.missingMakeVariable "OBJS") := by
  refine ⟨?_, _, run_of_fst_eq_ok (by decide +kernel), by decide +kernel⟩
  rintro _ ⟨⟩
  rfl

end Build

end Drydock
