import Drydock.Proofs.Graph.BuildOrder
import Drydock.Proofs.Graph.StableOrder

/-!
# Dependencies as places

A graph is made of places.  `dependencyPlaces` collects the places that a module depends on,
`digraph` makes edges of them, and everything that is decided about a declaration is decided about
these edges.  In a declaration that is in order a name is found at one place only, so places may be
read as names, and the dropping of repeated places as that of repeated names.

Repetitions are dropped among places, where a name that was listed twice gives the same place twice.
That this is the dropping of repeated names needs different names to have different places, which
holds in every declaration, and the rest needs every name to have one, which holds in those that are
in order.  `List.eraseDups` works from the front and `pushNew` at the back of what is collected, so
the lemmas on repetitions go by induction on the list from its end.

An edge leads from a dependency to the module that needs it, against the direction of `DependsAt`.
Cycles do not care, and in the order of the edges a predecessor is what has to be built before.

* `BuildGraph.dependencyPlaces_eq` — the places of a module are those of its `dependencyNames`.
* `DependsAt` — the dependencies between modules as a relation between their places.
* `BuildGraph.edge_digraph`, `BuildGraph.free_digraph` — the edges of a declaration, and what can be
  placed next.
-/

namespace Drydock

variable {declared : List Module} {m d : Module} {name : String} {i j : ℕ}

/-! ## Dropping repetitions -/

section Repetitions

variable {α β : Type} [DecidableEq α] [DecidableEq β] {x : α} {xs : List α}

lemma eraseDups_concat :
    (xs ++ [x]).eraseDups = if x ∈ xs then xs.eraseDups else xs.eraseDups ++ [x] := by
  rw [List.eraseDups_append]
  split
  · rename_i hmem
    simp [List.removeAll, hmem]
  · rename_i hmem
    simp [List.removeAll, hmem, List.eraseDups_cons]

/-- Where different entries have different values, repeated values come from repeated entries. -/
lemma eraseDups_filterMap {f : α → Option β}
    (hf : ∀ x y b, f x = some b → f y = some b → x = y) (xs : List α) :
    (xs.filterMap f).eraseDups = xs.eraseDups.filterMap f := by
  induction xs using List.reverseRecOn with
  | nil => simp
  | append_singleton xs x ih =>
      rw [List.filterMap_append, eraseDups_concat]
      cases hx : f x with
      | none => split <;> simp [hx, ih]
      | some b =>
          have hmem : b ∈ xs.filterMap f ↔ x ∈ xs := by
            rw [List.mem_filterMap]
            exact ⟨fun ⟨y, hy, hyb⟩ => hf y x b hyb hx ▸ hy, fun h => ⟨x, h, hx⟩⟩
          rw [List.filterMap_cons_some hx, List.filterMap_nil, eraseDups_concat, ih]
          simp only [hmem]
          split <;> simp [hx]

end Repetitions

/-! ## Places of names -/

lemma getElem?_idxOf {α : Type} [DecidableEq α] {xs : List α} {x : α} (hx : x ∈ xs) :
    xs[xs.idxOf x]? = some x := by
  rw [List.getElem?_eq_getElem (List.idxOf_lt_length_iff.2 hx), List.getElem_idxOf]

lemma idxOf_of_getElem? {α : Type} [DecidableEq α] {xs : List α} {x : α} (hnodup : xs.Nodup)
    (hx : xs[i]? = some x) : xs.idxOf x = i := by
  obtain ⟨hi, rfl⟩ := List.getElem?_eq_some_iff.1 hx
  exact hnodup.idxOf_getElem i hi

namespace BuildGraph

lemma getElem?_of_placeOf? (h : placeOf? declared name = some i) :
    ∃ m, declared[i]? = some m ∧ m.name = name := by
  obtain ⟨hi, hname, -⟩ := List.findIdx?_eq_some_iff_getElem.1 h
  exact ⟨declared[i], List.getElem?_eq_getElem hi, by simpa using hname⟩

lemma placeOf?_eq_some_iff (h : WellDeclared declared) :
    placeOf? declared name = some i ↔ ∃ m, declared[i]? = some m ∧ m.name = name := by
  refine ⟨getElem?_of_placeOf?, ?_⟩
  rintro ⟨m, hm, rfl⟩
  have hsome : (placeOf? declared m.name).isSome := by
    rw [placeOf?, List.findIdx?_isSome, List.any_eq_true]
    exact ⟨m, List.mem_of_getElem? hm, by simp⟩
  -- The search ends at the first module of that name, which is the only one.
  obtain ⟨j, hj⟩ := Option.isSome_iff_exists.1 hsome
  obtain ⟨d, hd, hname⟩ := getElem?_of_placeOf? hj
  obtain rfl := h.eq_of_name_eq (List.mem_of_getElem? hd) (List.mem_of_getElem? hm) hname
  rw [hj, ← idxOf_of_getElem? h.nodup hd, idxOf_of_getElem? h.nodup hm]

/-! ## Collecting the places -/

/-- Adding entries unless they are there leaves the first mention of each. -/
lemma foldl_pushNew (xs : List ℕ) : xs.foldl pushNew [] = xs.eraseDups := by
  induction xs using List.reverseRecOn with
  | nil => rfl
  | append_singleton xs x ih =>
      rw [List.foldl_append, ih, List.foldl_cons, List.foldl_nil, pushNew, eraseDups_concat]
      simp only [List.mem_eraseDups]

lemma implicitPlace?_toList (h : WellDeclared declared) (hm : declared[i]? = some m) :
    (implicitPlace? declared i).toList =
      (implicitDependency declared m).filterMap (placeOf? declared) := by
  rw [implicitPlace?, implicitDependency]
  cases hfind : declared.findIdx? (·.foundational) with
  | none =>
      have hnone : Drydock.foundational? declared = none :=
        List.find?_eq_none.2 fun f hf => by simpa using List.findIdx?_eq_none_iff.1 hfind f hf
      simp [hnone]
  | some j =>
      obtain ⟨hj, hfound, hbefore⟩ := List.findIdx?_eq_some_iff_getElem.1 hfind
      have hf := List.getElem?_eq_getElem hj
      have hsome : Drydock.foundational? declared = some declared[j] :=
        List.find?_eq_some_iff_getElem.2 ⟨hfound, j, hj, rfl, by simpa using hbefore⟩
      have hplace : placeOf? declared declared[j].name = some j :=
        (placeOf?_eq_some_iff h).2 ⟨_, hf, rfl⟩
      -- The place is dropped where it is the own one, the name where it is the own one.
      have hself : declared[j].name = m.name ↔ j = i := by
        constructor
        · intro hname
          have hsame := h.eq_of_name_eq (List.mem_of_getElem? hf) (List.mem_of_getElem? hm) hname
          rw [← idxOf_of_getElem? h.nodup hf, hsame, idxOf_of_getElem? h.nodup hm]
        · rintro rfl
          rw [Option.some.inj (hf.symm.trans hm)]
      rw [hsome, Option.map_some, Option.filter_some, Option.filter_some]
      simp only [ne_eq, decide_not, Bool.not_eq_true', decide_eq_false_iff_not, hself]
      split
      · rw [Option.toList_some, Option.toList_some, List.filterMap_cons_some hplace,
          List.filterMap_nil]
      · rfl

/-- The places that are collected for a module are those of the names that it depends on, in their
order. -/
lemma dependencyPlaces_eq (h : WellDeclared declared) (hm : declared[i]? = some m) :
    dependencyPlaces declared m i =
      (dependencyNames declared m).filterMap (placeOf? declared) := by
  have hinit : ∀ start : Option ℕ, start.toList.foldl pushNew [] = start.toList := by
    rintro (_ | j) <;> rfl
  have hinj : ∀ a b k, placeOf? declared a = some k → placeOf? declared b = some k → a = b := by
    intro a b k ha hb
    obtain ⟨d, hd, rfl⟩ := getElem?_of_placeOf? ha
    obtain ⟨d', hd', rfl⟩ := getElem?_of_placeOf? hb
    rw [Option.some.inj (hd.symm.trans hd')]
  rw [dependencyPlaces, ← hinit, ← List.foldl_append, foldl_pushNew, implicitPlace?_toList h hm,
    ← List.filterMap_append, eraseDups_filterMap hinj, dependencyNames]

/-! ## Dependencies between places -/

end BuildGraph

/-- The module declared at one place depends on the one declared at another. -/
def DependsAt (declared : List Module) (i j : ℕ) : Prop :=
  ∃ m d, declared[i]? = some m ∧ declared[j]? = some d ∧ DependsOn declared m d

lemma acyclic_iff_dependsAt :
    Acyclic declared ↔ ∀ i, ¬ Relation.TransGen (DependsAt declared) i i := by
  constructor
  · intro h i hcycle
    -- A place without a module is on no cycle, so any value will do for it.
    have hlift : ∀ i j, DependsAt declared i j →
        DependsOn declared (declared[i]?.getD default) (declared[j]?.getD default) := by
      rintro i j ⟨m, d, hm, hd, hdep⟩
      simpa [hm, hd] using hdep
    exact h _ (hcycle.lift _ hlift)
  · intro h m hcycle
    have hlift : ∀ m d, DependsOn declared m d →
        DependsAt declared (declared.idxOf m) (declared.idxOf d) := fun m d hdep =>
      ⟨m, d, getElem?_idxOf hdep.1, getElem?_idxOf hdep.2.1, hdep⟩
    exact h _ (hcycle.lift _ hlift)

/-- The places from which the next module can be taken when some places have been taken. -/
def freePlaces (declared : List Module) (taken : List ℕ) : Set ℕ :=
  {i | i < declared.length ∧ i ∉ taken ∧ ∀ j, DependsAt declared i j → j ∈ taken}

namespace BuildGraph

variable {taken : List ℕ}

lemma mem_dependencyPlaces (h : WellDeclared declared) (hm : declared[i]? = some m) :
    j ∈ dependencyPlaces declared m i ↔ DependsAt declared i j := by
  have hmem := List.mem_of_getElem? hm
  simp only [dependencyPlaces_eq h hm, List.mem_filterMap, h.mem_dependencyNames hmem,
    placeOf?_eq_some_iff h]
  constructor
  · rintro ⟨name, ⟨d, hdep, rfl⟩, d', hd', hname⟩
    obtain rfl := h.eq_of_name_eq (List.mem_of_getElem? hd') hdep.2.1 hname
    exact ⟨m, d', hm, hd', hdep⟩
  · rintro ⟨m', d, hm', hd, hdep⟩
    obtain rfl := Option.some.inj (hm.symm.trans hm')
    exact ⟨d.name, ⟨d, hdep, rfl⟩, d, hd, rfl⟩

lemma getElem?_declaredDependencies :
    (declaredDependencies declared)[i]? =
      declared[i]?.map fun m => dependencyPlaces declared m i := by
  rw [declaredDependencies, List.getElem?_map, List.getElem?_zipIdx, Option.map_map]
  simp [Function.comp_def]

lemma size_digraph : (digraph declared).size = declared.length :=
  Digraph.size_foldl_updateEdge

lemma edge_digraph (h : WellDeclared declared) :
    (digraph declared).Edge j i ↔ DependsAt declared i j := by
  have hstart : ¬ ({ size := declared.length } : Digraph).Edge j i := List.not_mem_nil
  rw [digraph, Digraph.edge_foldl_updateEdge, or_iff_right hstart, dependencyEdges,
    List.mem_flatMap]
  simp only [Prod.exists, List.mem_zipIdx_iff_getElem?, getElem?_declaredDependencies,
    Option.map_eq_some_iff, List.mem_map, Prod.mk.injEq]
  constructor
  · rintro ⟨_, _, ⟨m, hm, rfl⟩, _, hj, rfl, rfl⟩
    exact (mem_dependencyPlaces h hm).1 hj
  · rintro hdep
    obtain ⟨m, d, hm, hd, -⟩ := id hdep
    exact ⟨_, i, ⟨m, hm, rfl⟩, j, (mem_dependencyPlaces h hm).2 hdep, rfl, rfl⟩

lemma mem_nodes_digraph : i ∈ (digraph declared).nodes ↔ i < declared.length := by
  rw [Digraph.nodes, List.mem_range, size_digraph]

lemma wellFormed_digraph (h : WellDeclared declared) : (digraph declared).WellFormed where
  nodup_edges := Digraph.nodup_foldl_updateEdge List.nodup_nil
  source_mem := by
    intro a b hedge
    obtain ⟨-, d, -, hd, -⟩ := (edge_digraph h).1 hedge
    exact mem_nodes_digraph.2 (List.getElem?_eq_some_iff.1 hd).1
  target_mem := by
    intro a b hedge
    obtain ⟨m, -, hm, -⟩ := (edge_digraph h).1 hedge
    exact mem_nodes_digraph.2 (List.getElem?_eq_some_iff.1 hm).1

/-- The free nodes are the places from which the next module can be taken. -/
lemma free_digraph (h : WellDeclared declared) :
    (digraph declared).free taken = freePlaces declared taken := by
  ext i
  simp only [Digraph.free, freePlaces, Set.mem_ofPred_eq, mem_nodes_digraph, edge_digraph h]

/-- A cycle of edges is one of dependencies, the other way round. -/
lemma exists_onCycle_iff (h : WellDeclared declared) :
    (∃ i, (digraph declared).OnCycle i) ↔ ¬ Acyclic declared := by
  have hswap : (digraph declared).Edge = Function.swap (DependsAt declared) := by
    funext j i
    exact propext (edge_digraph h)
  rw [acyclic_iff_dependsAt, not_forall]
  refine exists_congr fun i => ?_
  rw [Digraph.onCycle_iff_transGen, hswap, Relation.transGen_swap, not_not]

end BuildGraph

end Drydock
