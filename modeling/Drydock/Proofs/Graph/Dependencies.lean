import Drydock.Proofs.Graph.Acceptance

/-!
# The stored dependencies of a graph

A graph does not keep the names that its modules depend on.  `BuildGraph.ofModules` collects places
of the declaration, drops repeated places, and when the modules have been put in order it stores for
each of them the positions that these places have got.  `BuildGraph.dependencies` follows the
positions.

Where a name is declared at one place, the place of a name moves with its module.  So the positions
that are stored are the places at which the modules in build order have their dependencies, and
following them is the same as looking the names up.  Nothing of the declared places is left in an
accepted graph.

* `BuildGraph.deps_eq` — the stored positions are the places in the build order.
* `BuildGraph.dependencies_eq` — they read back as the modules of `dependencyNames`.
* `BuildGraph.exists_modules_eq_cons` — the foundational module is the first one to be built.
* `BuildGraph.dependencies_eq_cons` — it is the first dependency of every other module.
-/

namespace Drydock.BuildGraph

variable {declared : List Module} {order : List ℕ} {g : BuildGraph} {f m d : Module}
  {name : String} {k : ℕ}

/-! ## The modules of a graph -/

lemma wellDeclared_modules (haccepted : ofModules declared = .ok g) : WellDeclared g.modules := by
  obtain ⟨herror, -⟩ := ofModules_eq_ok_iff.1 haccepted
  obtain ⟨hdeclared, -⟩ := error?_eq_none_iff.1 herror
  exact hdeclared.perm (of_ofModules haccepted).1

lemma get?_eq_bind (g : BuildGraph) (name : String) :
    g.get? name = (placeOf? g.modules name).bind (g.modules[·]?) :=
  List.find?_eq_bind_findIdx?_getElem?

lemma get?_eq_some (haccepted : ofModules declared = .ok g) (hm : m ∈ g.modules) :
    g.get? m.name = some m := by
  have hplace := getElem?_idxOf hm
  rw [get?_eq_bind, (placeOf?_eq_some_iff (wellDeclared_modules haccepted)).2 ⟨m, hplace, rfl⟩,
    Option.bind_some, hplace]

lemma get?_eq_some_iff (haccepted : ofModules declared = .ok g) :
    g.get? name = some d ↔ d ∈ g.modules ∧ d.name = name := by
  constructor
  · intro hget
    exact ⟨List.mem_of_find?_eq_some hget, by simpa using List.find?_some hget⟩
  · rintro ⟨hd, rfl⟩
    exact get?_eq_some haccepted hd

/-! ## Stored positions -/

/-- The order of the modules does not decide which of them is foundational. -/
lemma dependencyNames_of_perm {modules : List Module} (h : WellDeclared declared)
    (hperm : modules.Perm declared) (m : Module) :
    dependencyNames modules m = dependencyNames declared m := by
  have hfound : Drydock.foundational? modules = Drydock.foundational? declared := by
    refine Option.ext fun f => ?_
    rw [(h.perm hperm).foundational?_eq_some_iff, h.foundational?_eq_some_iff, hperm.mem_iff]
  rw [dependencyNames, dependencyNames, implicitDependency, implicitDependency, hfound]

section Positions

variable (h : WellDeclared declared) (hperm : order.Perm (List.range declared.length))

include hperm in
lemma getElem?_modules :
    (arrange declared order).modules[k]? = order[k]?.bind (declared[·]?) :=
  getElem?_filterMap_of_lt fun _ hi => List.mem_range.1 (hperm.mem_iff.1 hi)

include h hperm

lemma placeOf?_modules (name : String) :
    placeOf? (arrange declared order).modules name =
      (placeOf? declared name).map order.idxOf := by
  have hnodup : order.Nodup := hperm.nodup_iff.2 List.nodup_range
  refine Option.ext fun k => ?_
  rw [placeOf?_eq_some_iff (h.perm (modules_arrange_perm hperm)), Option.map_eq_some_iff]
  simp only [placeOf?_eq_some_iff h, getElem?_modules hperm, Option.bind_eq_some_iff]
  constructor
  · rintro ⟨m, ⟨i, hi, hm⟩, rfl⟩
    exact ⟨i, ⟨m, hm, rfl⟩, idxOf_of_getElem? hnodup hi⟩
  · rintro ⟨i, ⟨m, hm, rfl⟩, rfl⟩
    have hi : i ∈ order :=
      hperm.mem_iff.2 (List.mem_range.2 (List.getElem?_eq_some_iff.1 hm).1)
    exact ⟨m, ⟨i, getElem?_idxOf hi, hm⟩, rfl⟩

/-- What is stored beside the arranged modules are their dependencies in the new order. -/
lemma deps_arrange :
    (arrange declared order).deps = declaredDependencies (arrange declared order).modules := by
  have hmodules := modules_arrange_perm hperm
  refine List.ext_getElem? fun k => ?_
  rw [getElem?_declaredDependencies, getElem?_modules hperm]
  show (order.map _)[k]? = _
  rw [List.getElem?_map]
  cases hi : order[k]? with
  | none => rfl
  | some i =>
      have hlt : i < declared.length :=
        List.mem_range.1 (hperm.mem_iff.1 (List.mem_of_getElem? hi))
      have hm := List.getElem?_eq_getElem hlt
      have hposition : (arrange declared order).modules[k]? = some declared[i] := by
        rw [getElem?_modules hperm, hi, Option.bind_some, hm]
      -- Both sides are lists of names read as places, and the names are the same.
      rw [Option.map_some, Option.bind_some, hm, Option.map_some, getElem?_declaredDependencies,
        hm, Option.map_some, Option.getD_some, dependencyPlaces_eq h hm,
        dependencyPlaces_eq (h.perm hmodules) hposition, dependencyNames_of_perm h hmodules,
        List.map_filterMap]
      exact congrArg some (List.filterMap_congr fun name _ => (placeOf?_modules h hperm name).symm)

end Positions

lemma deps_eq (haccepted : ofModules declared = .ok g) :
    g.deps = declaredDependencies g.modules := by
  obtain ⟨herror, rfl⟩ := ofModules_eq_ok_iff.1 haccepted
  obtain ⟨hdeclared, hacyclic⟩ := error?_eq_none_iff.1 herror
  exact deps_arrange hdeclared (buildOrder_perm hdeclared hacyclic)

lemma dependencies_eq (haccepted : ofModules declared = .ok g) (hm : m ∈ g.modules) :
    g.dependencies m.name = (dependencyNames g.modules m).filterMap g.get? := by
  have hdeclared := wellDeclared_modules haccepted
  have hplace := getElem?_idxOf hm
  have hfind : g.modules.findIdx? (fun d => decide (d.name = m.name)) =
      some (g.modules.idxOf m) := (placeOf?_eq_some_iff hdeclared).2 ⟨m, hplace, rfl⟩
  rw [dependencies, hfind]
  dsimp only
  rw [deps_eq haccepted, getElem?_declaredDependencies, hplace, Option.map_some, Option.getD_some,
    dependencyPlaces_eq hdeclared hplace, List.filterMap_filterMap]
  exact List.filterMap_congr fun name _ => (get?_eq_bind g name).symm

lemma dependencies_eq_nil (hname : name ∉ g.names) : g.dependencies name = [] := by
  have hfind : g.modules.findIdx? (fun d => decide (d.name = name)) = none :=
    List.findIdx?_eq_none_iff.2 fun m hm => by
      simpa using fun hmname => hname (List.mem_map.2 ⟨m, hm, hmname⟩)
  rw [dependencies, hfind]

/-! ## The foundational module -/

lemma exists_modules_eq_cons (haccepted : ofModules declared = .ok g) (hf : f ∈ declared)
    (hfound : f.foundational = true) : ∃ rest, g.modules = f :: rest := by
  obtain ⟨hperm, horder⟩ := modules_spec haccepted
  cases hmodules : g.modules with
  | nil =>
      rw [hmodules] at hperm
      exact absurd (hperm.mem_iff.2 hf) List.not_mem_nil
  | cons first rest =>
      rw [hmodules] at hperm horder
      -- Any other module would stand in front of one that it depends on.
      obtain rfl : first = f := by
        by_contra hne
        have hfirst : first ∈ declared := hperm.mem_iff.1 List.mem_cons_self
        have hlt := horder first f ⟨hfirst, hf, .inr ⟨hfound, hne⟩⟩
        simp at hlt
      exact ⟨rest, rfl⟩

/-- Every other module depends on the foundational one first, and on the modules it names behind
it. -/
lemma dependencies_eq_cons (haccepted : ofModules declared = .ok g) (hm : m ∈ g.modules)
    (hf : f ∈ g.modules) (hfound : f.foundational = true) (hne : m ≠ f) :
    g.dependencies m.name =
      f :: ((m.dependsOn.filter (· ≠ f.name)).eraseDups.filterMap g.get?) := by
  have hdeclared := wellDeclared_modules haccepted
  have hname : f.name ≠ m.name := fun h => hne (hdeclared.eq_of_name_eq hm hf h.symm)
  have himplicit : implicitDependency g.modules m = [f.name] := by
    rw [implicitDependency, hdeclared.foundational?_eq_some_iff.2 ⟨hf, hfound⟩]
    simp [hname]
  have hnames : dependencyNames g.modules m =
      f.name :: (m.dependsOn.filter (· ≠ f.name)).eraseDups := by
    have hfilter : m.dependsOn.filter (fun name => !name == f.name) =
        m.dependsOn.filter (· ≠ f.name) := List.filter_congr fun name _ => by simp [beq_eq_decide]
    rw [dependencyNames, himplicit, List.singleton_append, List.eraseDups_cons, hfilter]
  rw [dependencies_eq haccepted hm, hnames,
    List.filterMap_cons_some (get?_eq_some haccepted hf)]

end Drydock.BuildGraph
