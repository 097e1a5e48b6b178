import Drydock.Plan
import Drydock.Proofs.Graph.Dependencies

/-!
# The vendored library in a plan

The link mode decides which modules carry the vendored library, and the graph decides who is linked
against whom.  In a shared plan the foundational module comes first and carries the objects, and
every other module is linked against it; in a separate plan every module carries the archive; in an
external plan no module carries anything and every one names the installed library.  Whatever a
module carries stands behind its own objects and in front of all flags and libraries of its link
command.

A mode is resolved once, in front of the graph, and its outcome is one value of three kinds: a list
of objects, an archive, or nothing.  Which kind it is follows from the mode alone, so the three
lemmas on `Resolution.forMode` are all that the rest of this module knows about it.

From there on a plan is read off its module.  The objects that a module compiles are its own
business and do not depend on the mode; what the mode adds comes behind the extra objects that the
module declares; and the order of a link command is the same for all of them.  That the foundational
module comes first, and that every other module depends on it in the first place, is a fact about
accepted graphs and is taken from there.

* `Resolution.artifacts_of_shared`, `Resolution.artifacts_of_separate`,
  `Resolution.artifacts_of_external` — what each mode has linked.
* `BuildContext.link_args` — the order of a link command.
* `BuildContext.LinksAgainst` — a module that is linked against the foundational one.
* `BuildContext.plan_topology` — the plans of the three modes.
-/

namespace Drydock

/-! ## What each mode has linked -/

namespace Resolution

variable {v : Vendored} {dir : Path} {s : Settings} {make : MakeVariables}
  {options : Option String} {r : Resolution}

/-- The objects are those that the vendored build reports, in their order. -/
lemma artifacts_of_shared (h : forMode .shared v dir s make options = .ok r) :
    ∃ reported, make.get? v.objectsVariable = some reported ∧
      r.artifacts = .objects ((Text.words reported).map fun file => dir.join ⟨file⟩) := by
  rw [forMode, MakeVariables.objects] at h
  -- A shared resolution without the variable fails, and says nothing about artifacts.
  cases hreported : make.get? v.objectsVariable with
  | none => simp [hreported, bind, Except.bind] at h
  | some reported =>
      simp only [hreported, bind, Except.bind, pure, Except.pure] at h
      obtain rfl := Except.ok.inj h
      exact ⟨reported, rfl, rfl⟩

lemma artifacts_of_separate (h : forMode .separate v dir s make options = .ok r) :
    r.artifacts = .archive (dir.join v.archive) := by
  obtain rfl := Except.ok.inj h
  rfl

lemma artifacts_of_external (h : forMode .external v dir s make options = .ok r) :
    r.artifacts = .none ∧ r.libraries = v.systemLibraries ++ [v.externalLibrary] := by
  rw [forMode] at h
  cases hdirs : s.externalDirs with
  | error e => simp [hdirs, bind, Except.bind] at h
  | ok dirs =>
      simp only [hdirs, bind, Except.bind, pure, Except.pure] at h
      obtain rfl := Except.ok.inj h
      exact ⟨rfl, rfl⟩

/-- The objects that have to be there once the library is made: those that are reported where the
foundational module carries them, and none where an archive is linked. -/
lemma expected_of_forMode {mode : LinkMode} (h : forMode mode v dir s make options = .ok r) :
    (mode = .shared → ∃ reported, make.get? v.objectsVariable = some reported ∧
      r.artifacts.expected = (Text.words reported).map fun file => dir.join ⟨file⟩) ∧
    (mode ≠ .shared → r.artifacts.expected = []) := by
  cases mode with
  | shared =>
      obtain ⟨reported, hreported, hobjects⟩ := artifacts_of_shared h
      exact ⟨fun _ => ⟨reported, hreported, by rw [hobjects, VendoredArtifacts.expected]⟩,
        fun hmode => absurd rfl hmode⟩
  | separate =>
      exact ⟨by simp, fun _ => by rw [artifacts_of_separate h, VendoredArtifacts.expected]; simp⟩
  | external =>
      exact ⟨by simp,
        fun _ => by rw [(artifacts_of_external h).1, VendoredArtifacts.expected]; simp⟩

end Resolution

namespace BuildContext

variable {c : BuildContext} {declared : List Module} {g : BuildGraph} {f m : Module}

/-! ## Plans of modules -/

/-- The artifacts of the mode stand behind the objects that a module declares. -/
lemma planModule_extraObjects (c : BuildContext) (g : BuildGraph) (m : Module) :
    (c.planModule g m).extraObjects =
      m.extraObjects ++ c.resolution.artifacts.forModule m.foundational := rfl

lemma planModule_objects (c : BuildContext) (g : BuildGraph) (m : Module) :
    (c.planModule g m).objects = m.sources.map (c.objectOf m.name) := rfl

lemma planModule_libraries (c : BuildContext) (g : BuildGraph) (m : Module) :
    (c.planModule g m).libraries = c.resolution.libraries ++ m.libraries ++
      (g.dependencies m.name).map fun dep => dep.linkName c.manifest.extSuffix := rfl

/-- The objects of a module, then its extra objects, then the linker flags, then the libraries, all
between the compiler's own words and the output. -/
lemma link_args (c : BuildContext) (g : BuildGraph) (m : Module) :
    (c.planModule g m).link.args =
      ((c.toolchain (c.planModule g m).flags).programArgs ++ c.defaults.sharedLinkFlags) ++
        (c.planModule g m).objects.map Path.text ++
        (c.planModule g m).extraObjects.map Path.text ++
        (c.planModule g m).flags.ldflags ++ (c.planModule g m).flags.libs ++
        ["-o", (c.planModule g m).output.text] := by
  have hshared : (c.toolchain (c.planModule g m).flags).sharedFlags =
      c.defaults.sharedLinkFlags := by
    rw [toolchain, Toolchain.ofCommandLine]
    split
    · rfl
    · rfl
  -- The objects and the extra objects are one list in the command; here they are told apart.
  rw [← hshared, List.append_assoc _ (List.map _ _) (List.map _ _), ← List.map_append]
  rfl

lemma outputDir_mem_ldflags (c : BuildContext) (g : BuildGraph) (m : Module) :
    "-L" ++ c.manifest.outputDir.text ∈ (c.planModule g m).flags.ldflags := by
  have hdir : c.manifest.outputDir ∈ (c.prepare g m).libraryDirs := by simp [prepare]
  have hflag := List.mem_map_of_mem (f := fun dir : Path => "-L" ++ dir.text) hdir
  exact List.mem_append_left _ (List.mem_append_right _ hflag)

lemma linkName_mem_libs (c : BuildContext) {dep : Module} (hdep : dep ∈ g.dependencies m.name) :
    "-l" ++ dep.linkName c.manifest.extSuffix ∈ (c.planModule g m).flags.libs := by
  have hname : dep.linkName c.manifest.extSuffix ∈ (c.prepare g m).libraries :=
    List.mem_append_right _ (List.mem_map_of_mem hdep)
  exact List.mem_map_of_mem hname

/-! ## Plans of a package -/

/-- A module carries nothing of the vendored library: it is linked against the foundational module
instead, which is its first dependency. -/
structure LinksAgainst (c : BuildContext) (g : BuildGraph) (f m : Module) : Prop where
  extraObjects : (c.planModule g m).extraObjects = m.extraObjects
  dependsOn : (c.planModule g m).dependsOn.head? = some f.name
  library : "-l" ++ f.linkName c.manifest.extSuffix ∈ (c.planModule g m).link.args
  directory : "-L" ++ c.manifest.outputDir.text ∈ (c.planModule g m).link.args

lemma linksAgainst_of_objects {paths : List Path}
    (haccepted : BuildGraph.ofModules declared = .ok g) (hf : f ∈ g.modules)
    (hfound : f.foundational = true) (hm : m ∈ g.modules) (hne : m ≠ f)
    (hobjects : c.resolution.artifacts = .objects paths) : c.LinksAgainst g f m := by
  -- There is one foundational module, so a module other than `f` is not foundational.
  have hplain : m.foundational = false := by
    rw [Bool.eq_false_iff]
    exact fun h => hne
      ((BuildGraph.wellDeclared_modules haccepted).eq_of_foundational hm hf h hfound)
  have hdeps := BuildGraph.dependencies_eq_cons haccepted hm hf hfound hne
  have hdep : f ∈ g.dependencies m.name := by
    rw [hdeps]
    exact List.mem_cons_self
  refine ⟨?_, ?_, ?_, ?_⟩
  · rw [planModule_extraObjects, hobjects, hplain]
    exact List.append_nil _
  · show ((g.dependencies m.name).map (·.name)).head? = some f.name
    rw [hdeps]
    rfl
  · rw [link_args]
    simp [linkName_mem_libs c hdep]
  · rw [link_args]
    simp [outputDir_mem_ldflags c g m]

/-- The foundational module is the first of a plan.  In a shared plan it carries the objects that
the vendored build reports, and all others are linked against it; in a separate plan every module
carries the archive; in an external plan no module carries anything and the installed library is
linked behind the system libraries.  Every link command has the objects of its module first, one for
each of the sources, then the extra ones, and the linker flags and libraries behind them. -/
theorem plan_topology (haccepted : BuildGraph.ofModules declared = .ok g) (hf : f ∈ declared)
    (hfound : f.foundational = true) {mode : LinkMode} {v : Vendored} {dir : Path} {s : Settings}
    {make : MakeVariables} {options : Option String}
    (hmode : Resolution.forMode mode v dir s make options = .ok c.resolution) :
    ∃ others, g.modules = f :: others ∧ (f :: others).Perm declared ∧ f ∉ others ∧
      (c.plan g).modules = c.planModule g f :: others.map (c.planModule g) ∧
      (mode = .shared → (∃ reported, make.get? v.objectsVariable = some reported ∧
          (c.planModule g f).extraObjects =
            f.extraObjects ++ (Text.words reported).map fun file => dir.join ⟨file⟩) ∧
        ∀ m ∈ others, c.LinksAgainst g f m) ∧
      (mode = .separate → ∀ m ∈ f :: others,
        (c.planModule g m).extraObjects = m.extraObjects ++ [dir.join v.archive]) ∧
      (mode = .external → ∀ m ∈ f :: others, (c.planModule g m).extraObjects = m.extraObjects ∧
        v.systemLibraries ++ [v.externalLibrary] <+: (c.planModule g m).libraries) ∧
      ∀ m ∈ f :: others, (c.planModule g m).objects = m.sources.map (c.objectOf m.name) ∧
        (c.planModule g m).link.args =
          ((c.toolchain (c.planModule g m).flags).programArgs ++ c.defaults.sharedLinkFlags) ++
            (c.planModule g m).objects.map Path.text ++
            (c.planModule g m).extraObjects.map Path.text ++
            (c.planModule g m).flags.ldflags ++ (c.planModule g m).flags.libs ++
            ["-o", (c.planModule g m).output.text] := by
  obtain ⟨others, hmodules⟩ := BuildGraph.exists_modules_eq_cons haccepted hf hfound
  obtain ⟨hperm, hnodup, -⟩ := BuildGraph.of_ofModules haccepted
  have hnot : f ∉ others := by
    have hlist := List.Nodup.of_map _ hnodup
    rw [hmodules] at hlist
    exact (List.nodup_cons.1 hlist).1
  have hfirst : f ∈ g.modules := by
    rw [hmodules]
    exact List.mem_cons_self
  refine ⟨others, hmodules, hmodules ▸ hperm, hnot, by rw [plan, hmodules, List.map_cons], ?_, ?_,
    ?_, fun m _ => ⟨planModule_objects c g m, link_args c g m⟩⟩
  -- Shared: the foundational module takes the objects, and the others link against it.
  · rintro rfl
    obtain ⟨reported, hreported, hobjects⟩ := Resolution.artifacts_of_shared hmode
    refine ⟨⟨reported, hreported, ?_⟩, fun m hm => ?_⟩
    · rw [planModule_extraObjects, hobjects, hfound]
      rfl
    · have hmem : m ∈ g.modules := by
        rw [hmodules]
        exact List.mem_cons_of_mem _ hm
      exact linksAgainst_of_objects haccepted hfirst hfound hmem (fun h => hnot (h ▸ hm)) hobjects
  · rintro rfl m -
    rw [planModule_extraObjects, Resolution.artifacts_of_separate hmode]
    rfl
  · rintro rfl m -
    obtain ⟨hnone, hlibraries⟩ := Resolution.artifacts_of_external hmode
    refine ⟨?_, ?_⟩
    · rw [planModule_extraObjects, hnone]
      exact List.append_nil _
    · rw [planModule_libraries, hlibraries, List.append_assoc]
      exact List.prefix_append _ _

/-- A library that is bundled with a package. -/
def bundledLibrary : Vendored where
  name := "hts"
  path := ⟨"h"⟩
  keyPrefix := "HTS"
  archive := ⟨"libhts.a"⟩
  objectsVariable := "OBJS"
  externalLibrary := "hts"

/-- A context in which the library reports two objects. -/
def bundledContext : BuildContext where
  manifest := { package := { name := "tools" }, vendored := some bundledLibrary }
  settings := {}
  defaults := .ofPlatform .elf
  resolution := {
    mode := .shared
    source := some .builtin
    artifacts := .objects [⟨"h/b.o"⟩, ⟨"h/a.o"⟩]
    includeDirs := [⟨"h"⟩]
    libraries := ["z", "z"]
    makeVariables := .ofList [("OBJS", "b.o a.o"), ("LIBS", "-lz")] }

/-- The foundational module of `BuildGraph.misordered`. -/
def bundledCore : Module := { name := "libcore", foundational := true }

/-- The module that was declared last is built first and carries both objects. -/
theorem plan_topology_misordered : ∃ others,
    BuildGraph.ofModules BuildGraph.misordered = .ok BuildGraph.misorderedGraph ∧
      BuildGraph.misorderedGraph.modules = bundledCore :: others ∧
      (bundledContext.planModule BuildGraph.misorderedGraph bundledCore).extraObjects =
        [⟨"h/b.o"⟩, ⟨"h/a.o"⟩] ∧
      others.length = 2 ∧
      ∀ m ∈ others, bundledContext.LinksAgainst BuildGraph.misorderedGraph bundledCore m := by
  have haccepted : BuildGraph.ofModules BuildGraph.misordered =
      .ok BuildGraph.misorderedGraph := by cbv
  have hmode : Resolution.forMode .shared bundledLibrary ⟨"h"⟩ {}
      bundledContext.resolution.makeVariables none = .ok bundledContext.resolution := by
    decide +kernel
  have hdeclared : bundledCore ∈ BuildGraph.misordered := by decide
  obtain ⟨others, hmodules, -, -, -, hshared, -⟩ := plan_topology haccepted hdeclared rfl hmode
  obtain ⟨-, hothers⟩ := hshared rfl
  obtain ⟨-, rfl⟩ := List.cons.inj hmodules
  exact ⟨_, haccepted, rfl, by decide +kernel, rfl, hothers⟩

end BuildContext

end Drydock
