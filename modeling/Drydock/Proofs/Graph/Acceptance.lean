import Drydock.Proofs.Graph.BreadthFirst
import Drydock.Proofs.Graph.DepthFirst
import Drydock.Proofs.Graph.Places
import Mathlib.Data.List.Permutation

/-!
# Which declarations are accepted, and what is said of a cycle

`BuildGraph.ofModules` checks names, the foundational module and unknown dependencies, asks
`Digraph.cycle?` for a cycle and otherwise arranges the modules in `buildOrder`.  Two algorithms of
different kinds have to agree here: the depth-first walk decides whether there is an order, and the
counting of `Digraph.stableOrder` makes one.  Where they disagreed, modules would be lost without a
word, since a node that is never ready is never placed.

They meet in a numbering of the places that rises along every edge.  The walk gives one when it
finds no cycle, and where there is one every place is placed.

* `BuildGraph.buildOrder_perm` — where the walk finds no cycle, the counting leaves out no place.
* `BuildGraph.ofModules_accepts` — a declaration is accepted exactly when it is in order and without
  cycles; the build order then loses nothing and puts every module behind its dependencies.
* `BuildGraph.ofModules_cycle` — otherwise, where only a cycle is at fault, a shortest closed chain
  of dependencies is reported.
-/

namespace Drydock.BuildGraph

variable {declared : List Module} {order : List ℕ} {m d : Module} {a b : String} {i j k : ℕ}

/-! ## The checks in front of the cycle check -/

lemma isLinkable_iff {name : String} :
    isLinkable name = true ↔ "lib".toList <+: name.toList ∧ "lib".length < name.length := by
  have hlength : name.length = name.toList.length := String.length_toList.symm
  have hlib : "lib".length = 3 := rfl
  rw [isLinkable, hlength, hlib]
  split
  · rename_i hname
    rw [hname]
    simp
  · rename_i hname
    simp only [Bool.false_eq_true, false_iff, not_and, not_lt]
    rintro ⟨rest, hrest⟩
    cases rest with
    | nil =>
        rw [← hrest]
        simp
    | cons c rest => exact absurd hrest.symm (hname c rest)

lemma nameError?_eq_none_iff {seen : List String} :
    nameError? seen declared = none ↔ (∀ m ∈ declared, m.name ∉ seen) ∧
      (declared.map (·.name)).Nodup ∧ ∀ m ∈ declared, isLinkable m.name = true := by
  -- The names that were seen grow with the list, so the induction runs over all of them.
  induction declared generalizing seen with
  | nil => simp [nameError?]
  | cons m rest ih =>
      unfold nameError?
      split
      · simp_all
      · rename_i hseen
        split
        · rename_i hlink
          rw [ih]
          simp only [List.mem_cons, not_or, List.map_cons, List.nodup_cons, List.mem_map,
            forall_eq_or_imp, hseen, hlink, not_false_eq_true, true_and]
          constructor
          · rintro ⟨hrest, hnodup, hall⟩
            exact ⟨fun w hw => (hrest w hw).2, ⟨fun ⟨w, hw, hname⟩ => (hrest w hw).1 hname, hnodup⟩,
              hall⟩
          · rintro ⟨hrest, ⟨hnot, hnodup⟩, hall⟩
            exact ⟨fun w hw => ⟨fun hname => hnot ⟨w, hw, hname⟩, hrest w hw⟩, hnodup, hall⟩
        · rename_i hlink
          simp [hlink]

lemma foundationalError?_eq_none_iff :
    foundationalError? declared = none ↔ declared.countP (·.foundational) ≤ 1 := by
  simp [foundationalError?, List.countP_eq_length_filter]

lemma dependencyError?_eq_none_iff :
    dependencyError? declared m = none ↔
      ∀ name ∈ m.dependsOn, ∃ d ∈ declared, d.name = name := by
  simp [dependencyError?]

/-- The checks in front of the cycle check let through what is well declared. -/
lemma error?_eq_cycleError? (h : WellDeclared declared) :
    error? declared = cycleError? declared := by
  have hname : nameError? [] declared = none := nameError?_eq_none_iff.2
    ⟨by simp, h.distinct, fun m hm => isLinkable_iff.2 (h.linkable m hm)⟩
  have hknown : declared.findSome? (dependencyError? declared) = none :=
    List.findSome?_eq_none_iff.2 fun m hm => dependencyError?_eq_none_iff.2 (h.known m hm)
  simp [error?, hname, foundationalError?_eq_none_iff.2 h.foundational, hknown]

lemma wellDeclared_of_error? (h : error? declared = none) :
    WellDeclared declared ∧ cycleError? declared = none := by
  simp only [error?, Option.or_eq_none_iff] at h
  obtain ⟨hname, hfound, hknown, hcycle⟩ := h
  obtain ⟨-, hdistinct, hlink⟩ := nameError?_eq_none_iff.1 hname
  refine ⟨⟨hdistinct, fun m hm => isLinkable_iff.1 (hlink m hm),
    foundationalError?_eq_none_iff.1 hfound, fun m hm => ?_⟩, hcycle⟩
  exact dependencyError?_eq_none_iff.1 (List.findSome?_eq_none_iff.1 hknown m hm)

lemma cycleError?_eq_none_iff (h : WellDeclared declared) :
    cycleError? declared = none ↔ Acyclic declared := by
  rw [cycleError?, Digraph.cycle?, Option.map_eq_none_iff, Option.map_eq_none_iff,
    Digraph.nodeOnCycle?_eq_none_iff (wellFormed_digraph h), ← not_exists, exists_onCycle_iff h,
    not_not]

lemma error?_eq_none_iff :
    error? declared = none ↔ WellDeclared declared ∧ Acyclic declared := by
  constructor
  · intro h
    obtain ⟨hdeclared, hcycle⟩ := wellDeclared_of_error? h
    exact ⟨hdeclared, (cycleError?_eq_none_iff hdeclared).1 hcycle⟩
  · rintro ⟨hdeclared, hacyclic⟩
    rw [error?_eq_cycleError? hdeclared]
    exact (cycleError?_eq_none_iff hdeclared).2 hacyclic

/-! ## The places in build order -/

/-- The counting goes through, so the build order is what it gives and no default. -/
lemma stableOrder_digraph (h : WellDeclared declared) :
    (digraph declared).stableOrder = some (buildOrder declared) := by
  obtain ⟨order, hsome, -⟩ := Digraph.exists_stableOrder (wellFormed_digraph h)
  rw [buildOrder, hsome, Option.getD_some]

lemma placedInTurn_buildOrder (h : WellDeclared declared) :
    (digraph declared).PlacedInTurn [] (buildOrder declared) := by
  obtain ⟨order, hsome, horder⟩ := Digraph.exists_stableOrder (wellFormed_digraph h)
  rw [stableOrder_digraph h] at hsome
  exact Option.some.inj hsome ▸ horder

/-- Without cycles every place is placed.  The order in which the depth-first walk finishes with the
places is a numbering along the edges. -/
lemma buildOrder_perm (h : WellDeclared declared) (hacyclic : Acyclic declared) :
    (buildOrder declared).Perm (List.range declared.length) := by
  have hform := wellFormed_digraph h
  have hnode : (digraph declared).nodeOnCycle? = none := by
    have hcycle := (cycleError?_eq_none_iff h).2 hacyclic
    simpa [cycleError?, Digraph.cycle?] using hcycle
  obtain ⟨rank, hrank⟩ := Digraph.rank_of_nodeOnCycle?_eq_none hform hnode
  have hperm := (placedInTurn_buildOrder h).perm hform rank hrank
  rwa [Digraph.nodes, size_digraph] at hperm

/-! ## Arranged modules -/

/-- What is taken from a list by places that are all inside stands in the order of the places. -/
lemma getElem?_filterMap_of_lt {α : Type} {xs : List α} (h : ∀ i ∈ order, i < xs.length) :
    (order.filterMap (xs[·]?))[k]? = order[k]?.bind (xs[·]?) := by
  induction order generalizing k with
  | nil => rfl
  | cons i order ih =>
      have hi := List.getElem?_eq_getElem (h i List.mem_cons_self)
      rw [List.filterMap_cons_some hi]
      cases k with
      | zero => simp [hi]
      | succ k => simpa using ih (fun i hi => h i (List.mem_cons_of_mem _ hi)) (k := k)

lemma filterMap_range {α : Type} (xs : List α) :
    (List.range xs.length).filterMap (xs[·]?) = xs := by
  refine List.ext_getElem? fun k => ?_
  rw [getElem?_filterMap_of_lt fun i hi => List.mem_range.1 hi]
  by_cases hk : k < xs.length
  · rw [List.getElem?_range hk, Option.bind_some]
  · rw [List.getElem?_eq_none (by simpa using hk), List.getElem?_eq_none (by simpa using hk),
      Option.bind_none]

lemma modules_arrange_perm (h : order.Perm (List.range declared.length)) :
    (arrange declared order).modules.Perm declared := by
  have hperm := h.filterMap (declared[·]?)
  rwa [filterMap_range] at hperm

/-! ## Acceptance -/

lemma ofModules_eq_ok_iff {g : BuildGraph} :
    ofModules declared = .ok g ↔
      error? declared = none ∧ g = arrange declared (buildOrder declared) := by
  unfold ofModules
  split
  · rename_i e he
    simp [he]
  · rename_i hnone
    simp [hnone, eq_comm]

lemma modules_spec {g : BuildGraph} (haccepted : ofModules declared = .ok g) :
    g.modules.Perm declared ∧
      ∀ m d, DependsOn declared m d → g.modules.idxOf d < g.modules.idxOf m := by
  obtain ⟨herror, rfl⟩ := ofModules_eq_ok_iff.1 haccepted
  obtain ⟨hdeclared, hacyclic⟩ := error?_eq_none_iff.1 herror
  have hperm := modules_arrange_perm (buildOrder_perm hdeclared hacyclic)
  have horder : (arrange declared (buildOrder declared)).modules.Pairwise
      fun m d => ¬ DependsOn declared m d := by
    refine List.pairwise_filterMap.2 ((placedInTurn_buildOrder hdeclared).pairwise.imp ?_)
    intro i j hedge m hm d hd hdep
    exact hedge ((edge_digraph hdeclared).2 ⟨m, d, hm, hd, hdep⟩)
  refine ⟨hperm, fun m d hdep => ?_⟩
  have hne : d ≠ m := by
    rintro rfl
    exact hacyclic d (.single hdep)
  exact Digraph.idxOf_lt_idxOf horder (hperm.mem_iff.2 hdep.2.1) (hperm.mem_iff.2 hdep.1) hne hdep

lemma of_ofModules {g : BuildGraph} (h : ofModules declared = .ok g) :
    g.modules.Perm declared ∧ g.names.Nodup ∧ ∀ name ∈ g.names, isLinkable name = true := by
  obtain ⟨hperm, -⟩ := modules_spec h
  obtain ⟨hdeclared, -⟩ := error?_eq_none_iff.1 (ofModules_eq_ok_iff.1 h).1
  refine ⟨hperm, (hperm.map _).nodup_iff.2 hdeclared.distinct, ?_⟩
  intro name hname
  obtain ⟨m, hm, rfl⟩ := List.mem_map.1 hname
  exact isLinkable_iff.2 (hdeclared.linkable m (hperm.mem_iff.1 hm))

/-- A declaration is accepted exactly when its names are distinct and can be linked, at most one
module is foundational, every dependency is declared and no module depends on itself.  The build
order then holds every declared module as it was declared, and each one behind all modules that it
depends on. -/
theorem ofModules_accepts (declared : List Module) :
    ((∃ g, ofModules declared = .ok g) ↔ WellDeclared declared ∧ Acyclic declared) ∧
      ∀ g, ofModules declared = .ok g → g.modules.Perm declared ∧
        ∀ m d, DependsOn declared m d → g.modules.idxOf d < g.modules.idxOf m := by
  refine ⟨⟨?_, ?_⟩, ?_⟩
  · rintro ⟨g, hg⟩
    exact error?_eq_none_iff.1 (ofModules_eq_ok_iff.1 hg).1
  · intro h
    exact ⟨_, ofModules_eq_ok_iff.2 ⟨error?_eq_none_iff.2 h, rfl⟩⟩
  · intro g hg
    exact modules_spec hg

/-- Modules declared in an order in which none can be built. -/
def misordered : List Module :=
  [{ name := "libview", dependsOn := ["libutils", "libutils"] }, { name := "libutils" },
    { name := "libcore", foundational := true }]

/-- The same modules in build order, each with the positions of those that it needs. -/
def misorderedGraph : BuildGraph := ⟨misordered.reverse, [[], [0], [0, 1]]⟩

theorem ofModules_accepts_misordered :
    ∃ g, ofModules misordered = .ok g ∧ g.modules.Perm misordered ∧
      ∀ m d, DependsOn misordered m d → g.modules.idxOf d < g.modules.idxOf m := by
  have hok : ofModules misordered = .ok misorderedGraph := by cbv
  exact ⟨_, hok, (ofModules_accepts misordered).2 _ hok⟩

/-! ## The reported cycle -/

/-- The module named `b` depends on the module named `a`. -/
def NameDependsOn (declared : List Module) (a b : String) : Prop :=
  ∃ m d, DependsOn declared m d ∧ d.name = a ∧ m.name = b

/-- Names of modules, each of them a dependency of the module that follows, with the first name
repeated at the end. -/
structure ClosedChain (declared : List Module) (names : List String) : Prop where
  two_le : 2 ≤ names.length
  closed : names.head? = names.getLast?
  linked : names.IsChain (NameDependsOn declared)

/-- The name of the module at a place. -/
def nameAt (declared : List Module) (i : ℕ) : String := (declared[i]?.map (·.name)).getD ""

/-- The place of a name. -/
def placeOf (declared : List Module) (name : String) : ℕ := (placeOf? declared name).getD 0

lemma nameAt_eq (hm : declared[i]? = some m) : nameAt declared i = m.name := by
  rw [nameAt, hm, Option.map_some, Option.getD_some]

lemma placeOf_eq (h : WellDeclared declared) (hm : declared[i]? = some m) :
    placeOf declared m.name = i := by
  rw [placeOf, (placeOf?_eq_some_iff h).2 ⟨m, hm, rfl⟩, Option.getD_some]

lemma nameDependsOn_of_edge (h : WellDeclared declared) (hedge : (digraph declared).Edge j i) :
    NameDependsOn declared (nameAt declared j) (nameAt declared i) := by
  obtain ⟨m, d, hm, hd, hdep⟩ := (edge_digraph h).1 hedge
  exact ⟨m, d, hdep, (nameAt_eq hd).symm, (nameAt_eq hm).symm⟩

lemma edge_of_nameDependsOn (h : WellDeclared declared) (hdep : NameDependsOn declared a b) :
    (digraph declared).Edge (placeOf declared a) (placeOf declared b) := by
  obtain ⟨m, d, hdep, rfl, rfl⟩ := hdep
  have hm := getElem?_idxOf hdep.1
  have hd := getElem?_idxOf hdep.2.1
  rw [placeOf_eq h hm, placeOf_eq h hd]
  exact (edge_digraph h).2 ⟨m, d, hm, hd, hdep⟩

-- A chain of edges runs inside the declaration, where different places have different names.
lemma names_of_places (h : WellDeclared declared) {places : List ℕ}
    (hinside : ∀ i ∈ places, ∃ m, declared[i]? = some m) :
    places.filterMap (fun i => declared[i]?.map (·.name)) = places.map (nameAt declared) ∧
      (places.dropLast.Nodup → (places.map (nameAt declared)).dropLast.Nodup) := by
  refine ⟨?_, fun hnodup => ?_⟩
  · rw [← List.filterMap_eq_map]
    refine List.filterMap_congr fun i hi => ?_
    obtain ⟨m, hm⟩ := hinside i hi
    rw [Function.comp_apply, nameAt_eq hm, hm, Option.map_some]
  · rw [← List.map_dropLast]
    refine hnodup.map_on fun i hi j hj hname => ?_
    obtain ⟨m, hm⟩ := hinside i (List.dropLast_subset _ hi)
    obtain ⟨d, hd⟩ := hinside j (List.dropLast_subset _ hj)
    rw [nameAt_eq hm, nameAt_eq hd] at hname
    rw [← placeOf_eq h hm, hname, placeOf_eq h hd]

/-- A closed chain of names is as long as the cycle of edges between their places. -/
lemma cycleThrough_le_of_closedChain (h : WellDeclared declared) {other : List String}
    (hother : ClosedChain declared other) (hm : declared[i]? = some m) (hmem : m.name ∈ other)
    (hcycle : (digraph declared).OnCycle i) :
    ((digraph declared).cycleThrough i).length ≤ other.length := by
  obtain ⟨-, -, -, -, -, hshort⟩ := Digraph.cycleThrough_spec (wellFormed_digraph h) hcycle
  have hplaces := hshort (other.map (placeOf declared))
    ((List.isChain_map _).2 (hother.linked.imp fun a b => edge_of_nameDependsOn h))
    (by rw [List.head?_map, List.getLast?_map, hother.closed]) (by simpa using hother.two_le)
    (List.mem_map.2 ⟨m.name, hmem, placeOf_eq h hm⟩)
  rwa [List.length_map] at hplaces

/-- Where only a cycle is at fault, the names on a shortest cycle of edges are reported. -/
lemma exists_cycle (h : WellDeclared declared) (hcyclic : ¬ Acyclic declared) :
    ∃ names, error? declared = some (.cycle names) ∧ ClosedChain declared names ∧
      names.dropLast.Nodup ∧
      ∀ other, ClosedChain declared other → (∃ first ∈ names.head?, first ∈ other) →
        names.length ≤ other.length := by
  have hform := wellFormed_digraph h
  obtain ⟨node, hnode⟩ : ∃ node, (digraph declared).nodeOnCycle? = some node := by
    rw [← Option.isSome_iff_exists, Option.isSome_iff_ne_none]
    intro hnone
    obtain ⟨i, hi⟩ := (exists_onCycle_iff h).2 hcyclic
    exact (Digraph.nodeOnCycle?_eq_none_iff hform).1 hnone i hi
  -- The first node of the list is the reported one, so only chains through it are compared.
  have hcycle := Digraph.onCycle_of_nodeOnCycle? hform hnode
  obtain ⟨htwo, hhead, hlast, hnodup, hchain, -⟩ := Digraph.cycleThrough_spec hform hcycle
  have hinside : ∀ i ∈ (digraph declared).cycleThrough node, ∃ m, declared[i]? = some m :=
    fun i hi => ⟨_, List.getElem?_eq_getElem
      (mem_nodes_digraph.1 (hform.mem_nodes_of_isChain hchain htwo hi))⟩
  obtain ⟨hnames, hdistinct⟩ := names_of_places h hinside
  refine ⟨((digraph declared).cycleThrough node).map (nameAt declared), ?_,
    ⟨by simpa using htwo, ?_, ?_⟩, hdistinct hnodup, ?_⟩
  · rw [error?_eq_cycleError? h, cycleError?, Digraph.cycle?, hnode, Option.map_some,
      Option.map_some, hnames]
  · rw [List.head?_map, List.getLast?_map, hhead, hlast]
  · exact (List.isChain_map _).2 (hchain.imp fun j i => nameDependsOn_of_edge h)
  · rintro other hother ⟨first, hfirst, hmem⟩
    obtain ⟨m, hm⟩ := hinside node (List.mem_of_head? hhead)
    obtain rfl : m.name = first := by simpa [hhead, nameAt_eq hm] using hfirst
    rw [List.length_map]
    exact cycleThrough_le_of_closedChain h hother hm hmem hcycle

/-- Where a cycle is all that is wrong with a declaration, the error names a closed chain of
dependencies.  It meets no module twice, except that its first one stands at both ends, and no
closed chain through that module is shorter. -/
theorem ofModules_cycle (declared : List Module) (hdeclared : WellDeclared declared)
    (hcyclic : ¬ Acyclic declared) :
    ∃ names, ofModules declared = .error (.cycle names) ∧ ClosedChain declared names ∧
      names.dropLast.Nodup ∧
      ∀ other, ClosedChain declared other → (∃ first ∈ names.head?, first ∈ other) →
        names.length ≤ other.length := by
  obtain ⟨names, herror, hnames⟩ := exists_cycle hdeclared hcyclic
  exact ⟨names, by rw [ofModules, herror], hnames⟩

/-- A foundational module that needs one of the modules built on it. -/
def entangled : List Module :=
  [{ name := "libtools", dependsOn := ["libview"] }, { name := "libview" },
    { name := "libcore", dependsOn := ["libview"], foundational := true }]

theorem ofModules_cycle_entangled :
    WellDeclared entangled ∧ ¬ Acyclic entangled ∧
      ∃ names, ofModules entangled = .error (.cycle names) ∧ ClosedChain entangled names ∧
        names.dropLast.Nodup ∧
        ∀ other, ClosedChain entangled other → (∃ first ∈ names.head?, first ∈ other) →
          names.length ≤ other.length := by
  have hdeclared : WellDeclared entangled := ⟨by decide, by decide, by decide, by decide⟩
  have hview : DependsOn entangled { name := "libview" }
      { name := "libcore", dependsOn := ["libview"], foundational := true } := by decide
  have hcore : DependsOn entangled
      { name := "libcore", dependsOn := ["libview"], foundational := true }
      { name := "libview" } := by decide
  have hcyclic : ¬ Acyclic entangled := fun h => h _ (.tail (.single hview) hcore)
  exact ⟨hdeclared, hcyclic, ofModules_cycle entangled hdeclared hcyclic⟩

end Drydock.BuildGraph
