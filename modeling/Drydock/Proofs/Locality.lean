import Drydock.Proofs.Graph.LinkOrder
import Drydock.Proofs.Topology

/-!
# Plans are local

The plan of a module is the same in whatever company the module is declared.  Two accepted graphs
that both hold it may build it at different places, and what they store of its dependencies are
positions, which differ as soon as the build orders do.  None of this is seen in a plan.

A position that a graph stores is read back as the module that stands there, and
`BuildGraph.dependencies_eq` says that the modules read back are those of the names that the
declaration gives: the implicit name first, then the listed ones without repetition.  So the
positions are gone once the dependencies are read, and what is left to compare are names.

All that a plan takes from the modules it finds are their names: the listed dependencies are names,
and a link name is made of a name and a suffix that is the same for all modules.  Which names these
are does not depend on the build order, since every name that a module gives is declared and there
is one foundational module at most.

This gives more than the law itself.  A plan lists the names that its module depends on, so two
plans that agree have the same names in the same order, and the condition is exact.

* `BuildGraph.map_name_dependencies` — the names of what a module is linked against, read off the
  declared modules.
* `BuildContext.planModule_eq_iff` — when two graphs give a module the same plan.
* `BuildContext.planModule_local` — what else is declared does not change the plan of a module.
-/

namespace Drydock

variable {declared declared' : List Module} {g g' : BuildGraph} {m : Module} {c : BuildContext}

namespace BuildGraph

lemma map_name_filterMap_get? {names : List String}
    (hknown : ∀ name ∈ names, ∃ d, g.get? name = some d) :
    (names.filterMap g.get?).map (·.name) = names := by
  induction names with
  | nil => rfl
  | cons name rest ih =>
      obtain ⟨d, hd⟩ := hknown name List.mem_cons_self
      have hname : d.name = name := by simpa using List.find?_some hd
      have hrest := ih fun other hother => hknown other (List.mem_cons_of_mem _ hother)
      rw [List.filterMap_cons_some hd, List.map_cons, hname, hrest]

/-- The modules that a module is linked against have the names that it depends on, in their
order. -/
lemma map_name_dependencies (haccepted : ofModules declared = .ok g) (hm : m ∈ declared) :
    (g.dependencies m.name).map (·.name) = dependencyNames declared m := by
  obtain ⟨hperm, -⟩ := of_ofModules haccepted
  obtain ⟨hdeclared, -⟩ := error?_eq_none_iff.1 (ofModules_eq_ok_iff.1 haccepted).1
  have hmem : m ∈ g.modules := hperm.mem_iff.2 hm
  -- From positions to names: the modules read back are the ones that the names look up.
  rw [dependencies_eq haccepted hmem, map_name_filterMap_get?,
    dependencyNames_of_perm hdeclared hperm]
  intro name hname
  obtain ⟨d, hdep, rfl⟩ := ((wellDeclared_modules haccepted).mem_dependencyNames hmem).1 hname
  exact ⟨d, get?_eq_some haccepted hdep.2.1⟩

end BuildGraph

lemma Module.linkName_congr {d : Module} (h : m.name = d.name) (suffix : String) :
    m.linkName suffix = d.linkName suffix := by
  rw [linkName, linkName, outputFile, outputFile, h]

namespace BuildContext

lemma librariesOf_congr
    (h : (g.dependencies m.name).map (·.name) = (g'.dependencies m.name).map (·.name)) :
    c.librariesOf g m = c.librariesOf g' m := by
  -- The link names of a list of modules are made from the names alone.
  have hlink : ∀ deps : List Module, deps.map (·.linkName c.manifest.extSuffix) =
      (deps.map (·.name)).map fun name => ({ name } : Module).linkName c.manifest.extSuffix := by
    intro deps
    rw [List.map_map]
    exact List.map_congr_left fun dep _ => Module.linkName_congr rfl _
  rw [librariesOf, librariesOf, hlink, hlink, h]

/-- Of the graph, a plan sees the names of the dependencies and nothing else. -/
lemma planModule_congr
    (h : (g.dependencies m.name).map (·.name) = (g'.dependencies m.name).map (·.name)) :
    c.planModule g m = c.planModule g' m := by
  have hprepare : c.prepare g m = c.prepare g' m := by
    rw [prepare, prepare, librariesOf_congr h]
  have hname : (c.prepare g' m).name = m.name := rfl
  rw [planModule, planModule, hprepare, planPrepared, planPrepared, hname, h]

lemma planModule_eq_iff (haccepted : BuildGraph.ofModules declared = .ok g)
    (haccepted' : BuildGraph.ofModules declared' = .ok g') (hm : m ∈ declared)
    (hm' : m ∈ declared') : c.planModule g m = c.planModule g' m ↔
      dependencyNames declared m = dependencyNames declared' m := by
  rw [← BuildGraph.map_name_dependencies haccepted hm,
    ← BuildGraph.map_name_dependencies haccepted' hm']
  -- One direction reads the names off the plan, which lists them.
  exact ⟨fun h => congrArg ModulePlan.dependsOn h, planModule_congr⟩

/-- In whatever company a module is declared, its plan is the same as long as the name of the
foundational module is: other modules may be added, removed, reordered or changed in everything but
their names. -/
theorem planModule_local (haccepted : BuildGraph.ofModules declared = .ok g)
    (haccepted' : BuildGraph.ofModules declared' = .ok g') (hm : m ∈ declared)
    (hm' : m ∈ declared')
    (hfound : (foundational? declared).map (·.name) = (foundational? declared').map (·.name))
    (c : BuildContext) : c.planModule g m = c.planModule g' m := by
  rw [planModule_eq_iff haccepted haccepted' hm hm', dependencyNames, dependencyNames,
    implicitDependency, implicitDependency, hfound]

/-- The module of `BuildGraph.misordered` that needs the two others. -/
def viewModule : Module := { name := "libview", dependsOn := ["libutils", "libutils"] }

/-- The same module among others: one stands in front of all, one needs it, and those that it needs
are declared in another order and with other contents. -/
def crowded : List Module :=
  [{ name := "libalpha", sources := [⟨"alpha.c"⟩] },
    { name := "libtools", dependsOn := ["libview", "libalpha"] },
    viewModule,
    { name := "libcore", sources := [⟨"core.c"⟩], linkArgs := ["-s"], foundational := true },
    { name := "libutils", dependsOn := ["libalpha"], compileArgs := ["-DUTILS"] }]

/-- The module is built third and fourth, and its second dependency stands at different positions,
but it has one plan. -/
theorem planModule_local_crowded : ∃ g g',
    BuildGraph.ofModules BuildGraph.misordered = .ok g ∧ BuildGraph.ofModules crowded = .ok g' ∧
      g.modules[2]? = some viewModule ∧ g.deps[2]? = some [0, 1] ∧
      g'.modules[3]? = some viewModule ∧ g'.deps[3]? = some [0, 2] ∧
      bundledContext.planModule g viewModule = bundledContext.planModule g' viewModule := by
  have haccepted : BuildGraph.ofModules BuildGraph.misordered =
      .ok BuildGraph.misorderedGraph := by cbv
  have haccepted' : BuildGraph.ofModules crowded =
      .ok ⟨[crowded[3], crowded[0], crowded[4], crowded[2], crowded[1]],
        [[], [0], [0, 1], [0, 2], [0, 3, 1]]⟩ := by cbv
  exact ⟨_, _, haccepted, haccepted', rfl, rfl, rfl, rfl,
    planModule_local haccepted haccepted' (by decide) (by decide) (by decide) bundledContext⟩

end BuildContext

end Drydock
