import Drydock.Proofs.Graph.Dependencies
import Mathlib.Order.Bounds.Basic

/-!
# Which module is placed next

The counting of `Digraph.stableOrder` places the least free node at every step, which is a statement
about places.  Read as modules, the next module is always the earliest declared one among those
whose dependencies are placed.

Nothing else enters the order.  It is fixed by the dependencies between the places of a declaration,
so other names, other contents and other lists of the same dependencies leave it as it is.  A
declaration that is in order already is kept, and since every build order is in order, a build order
that is declared again is accepted with the same modules and the same stored dependencies.

Two declarations are compared by places, since their modules need not have a name in common.  That
is enough because `Digraph.PlacedInTurn` determines the order by the free nodes alone, and the free
nodes of a declaration are places (`BuildGraph.free_digraph`).  The statement about entries is the
case in which the modules keep their names, and is read back from places to modules.

* `IsNext` — the module that has to be placed next.
* `BuildGraph.isNext_modules` — at every position that module is placed.
* `SameDependencies`, `BuildGraph.buildOrder_eq` — declarations that depend in the same way are
  ordered in the same way.
* `BuildGraph.ofModules_earliest` — the build order of an accepted declaration.
-/

namespace Drydock

variable {declared other placed : List Module} {m d w : Module} {i j k : ℕ}

/-! ## The module to be placed -/

/-- A declared module that is not placed yet, while everything it depends on is. -/
structure Placeable (declared placed : List Module) (m : Module) : Prop where
  mem : m ∈ declared
  waits : m ∉ placed
  ready : ∀ d, DependsOn declared m d → d ∈ placed

/-- The earliest declared of the modules that can be placed. -/
structure IsNext (declared placed : List Module) (m : Module) : Prop
    extends Placeable declared placed m where
  earliest : ∀ w, Placeable declared placed w → declared.idxOf m ≤ declared.idxOf w

/-- The modules that can be placed are those at the free places. -/
lemma placeable_iff (hnodup : declared.Nodup) (hsub : placed ⊆ declared)
    (hm : declared[i]? = some m) :
    Placeable declared placed m ↔ i ∈ freePlaces declared (placed.map declared.idxOf) := by
  have hplaced : ∀ {j w}, declared[j]? = some w →
      (j ∈ placed.map declared.idxOf ↔ w ∈ placed) := by
    intro j w hw
    rw [← idxOf_of_getElem? hnodup hw]
    constructor
    · intro hmem
      obtain ⟨x, hx, hsame⟩ := List.mem_map.1 hmem
      rwa [← (List.idxOf_inj (hsub hx)).1 hsame]
    · exact fun hmem => List.mem_map_of_mem hmem
  constructor
  · rintro ⟨-, hwaits, hready⟩
    refine ⟨(List.getElem?_eq_some_iff.1 hm).1, (hplaced hm).not.2 hwaits, ?_⟩
    rintro j ⟨m', d, hm', hd, hdep⟩
    obtain rfl := Option.some.inj (hm.symm.trans hm')
    exact (hplaced hd).2 (hready d hdep)
  · rintro ⟨-, htaken, hdeps⟩
    refine ⟨List.mem_of_getElem? hm, (hplaced hm).not.1 htaken, fun d hdep => ?_⟩
    have hd := getElem?_idxOf hdep.2.1
    exact (hplaced hd).1 (hdeps _ ⟨m, d, hm, hd, hdep⟩)

lemma isNext_of_isLeast (hnodup : declared.Nodup) (hsub : placed ⊆ declared)
    (hm : declared[i]? = some m)
    (h : IsLeast (freePlaces declared (placed.map declared.idxOf)) i) :
    IsNext declared placed m := by
  refine ⟨(placeable_iff hnodup hsub hm).2 h.1, fun w hw => ?_⟩
  have hplace := getElem?_idxOf hw.mem
  rw [idxOf_of_getElem? hnodup hm]
  exact h.2 ((placeable_iff hnodup hsub hplace).1 hw)

/-- A declaration in which every module stands behind everything it depends on. -/
def InOrder (declared : List Module) : Prop :=
  ∀ m d, DependsOn declared m d → declared.idxOf d < declared.idxOf m

/-! ## Declarations that depend in the same way -/

/-- Two declarations with the same dependencies between their places. -/
structure SameDependencies (declared other : List Module) : Prop where
  length_eq : declared.length = other.length
  dependsAt_iff : ∀ i j, DependsAt declared i j ↔ DependsAt other i j

lemma SameDependencies.acyclic_iff (h : SameDependencies declared other) :
    Acyclic declared ↔ Acyclic other := by
  have hsame : DependsAt declared = DependsAt other := by
    funext i j
    exact propext (h.dependsAt_iff i j)
  rw [acyclic_iff_dependsAt, acyclic_iff_dependsAt, hsame]

lemma SameDependencies.freePlaces_eq (h : SameDependencies declared other) (taken : List ℕ) :
    freePlaces declared taken = freePlaces other taken := by
  simp only [freePlaces, h.length_eq, h.dependsAt_iff]

lemma map_places {modules : List Module} (hsub : modules ⊆ declared) :
    (modules.map declared.idxOf).map (fun i => declared[i]?.getD default) = modules := by
  rw [List.map_map]
  refine (List.map_congr_left fun m hm => ?_).trans (List.map_id modules)
  simp [getElem?_idxOf (hsub hm)]

/-! ## Lists of dependencies -/

/-- The module with other entries in its list of dependencies. -/
def relist (entries : Module → List String) (m : Module) : Module :=
  { m with dependsOn := entries m }

section Relist

variable {entries : Module → List String}
  (hentries : ∀ m ∈ declared, ∀ name, name ∈ entries m ↔ name ∈ m.dependsOn)

include hentries

lemma WellDeclared.relist (h : WellDeclared declared) :
    WellDeclared (declared.map (relist entries)) where
  distinct := by
    rw [List.map_map]
    exact h.distinct
  linkable := by
    intro m' hm'
    obtain ⟨m, hm, rfl⟩ := List.mem_map.1 hm'
    exact h.linkable m hm
  foundational := by
    rw [List.countP_map]
    exact h.foundational
  known := by
    intro m' hm' name hname
    obtain ⟨m, hm, rfl⟩ := List.mem_map.1 hm'
    obtain ⟨d, hd, hdname⟩ := h.known m hm name ((hentries m hm name).1 hname)
    exact ⟨_, List.mem_map_of_mem hd, hdname⟩

lemma dependsOn_relist (h : WellDeclared declared) (hm : m ∈ declared) (hd : d ∈ declared) :
    DependsOn (declared.map (relist entries)) (relist entries m) (relist entries d) ↔
      DependsOn declared m d := by
  -- A module keeps its name, by which it is known, so no two become one.
  have hsame : relist entries m = relist entries d ↔ m = d := by
    refine ⟨fun heq => h.eq_of_name_eq hm hd ?_, fun heq => heq ▸ rfl⟩
    show (relist entries m).name = (relist entries d).name
    rw [heq]
  have hname : (relist entries d).name ∈ (relist entries m).dependsOn ↔ d.name ∈ m.dependsOn :=
    hentries m hm d.name
  have hfound : (relist entries d).foundational = d.foundational := rfl
  simp only [DependsOn, List.mem_map_of_mem hm, List.mem_map_of_mem hd, hm, hd, hname, hfound,
    ne_eq, hsame]

/-- The order of the entries and their repetition play no part in the dependencies. -/
lemma sameDependencies_relist (h : WellDeclared declared) :
    SameDependencies declared (declared.map (relist entries)) where
  length_eq := (List.length_map _).symm
  dependsAt_iff i j := by
    constructor
    · rintro ⟨m, d, hm, hd, hdep⟩
      exact ⟨_, _, by simp [hm], by simp [hd],
        (dependsOn_relist hentries h hdep.1 hdep.2.1).2 hdep⟩
    · rintro ⟨m', d', hm', hd', hdep⟩
      rw [List.getElem?_map, Option.map_eq_some_iff] at hm' hd'
      obtain ⟨m, hm, rfl⟩ := hm'
      obtain ⟨d, hd, rfl⟩ := hd'
      exact ⟨m, d, hm, hd, (dependsOn_relist hentries h (List.mem_of_getElem? hm)
        (List.mem_of_getElem? hd)).1 hdep⟩

end Relist

namespace BuildGraph

variable {g g' : BuildGraph}

/-! ## The build order -/

lemma map_idxOf_modules (haccepted : ofModules declared = .ok g) :
    g.modules.map declared.idxOf = buildOrder declared := by
  obtain ⟨herror, rfl⟩ := ofModules_eq_ok_iff.1 haccepted
  obtain ⟨hdeclared, hacyclic⟩ := error?_eq_none_iff.1 herror
  have hperm := buildOrder_perm hdeclared hacyclic
  -- A module of the declaration stands there once, at the place it was taken from.
  refine List.ext_getElem? fun k => ?_
  rw [List.getElem?_map, getElem?_modules hperm]
  cases hi : (buildOrder declared)[k]? with
  | none => rfl
  | some i =>
      have hm := List.getElem?_eq_getElem
        (List.mem_range.1 (hperm.mem_iff.1 (List.mem_of_getElem? hi)))
      rw [Option.bind_some, hm, Option.map_some, idxOf_of_getElem? hdeclared.nodup hm]

lemma isNext_modules (haccepted : ofModules declared = .ok g) (hk : g.modules[k]? = some m) :
    IsNext declared (g.modules.take k) m := by
  obtain ⟨hdeclared, -⟩ := error?_eq_none_iff.1 (ofModules_eq_ok_iff.1 haccepted).1
  have hsub : g.modules ⊆ declared := (modules_spec haccepted).1.subset
  have hplace : (buildOrder declared)[k]? = some (declared.idxOf m) := by
    rw [← map_idxOf_modules haccepted, List.getElem?_map, hk, Option.map_some]
  have hleast := (placedInTurn_buildOrder hdeclared).least k _ hplace
  rw [List.nil_append, free_digraph hdeclared, ← map_idxOf_modules haccepted,
    ← List.map_take] at hleast
  exact isNext_of_isLeast hdeclared.nodup (fun w hw => hsub (List.mem_of_mem_take hw))
    (getElem?_idxOf (hsub (List.mem_of_getElem? hk))) hleast

lemma buildOrder_eq (hdeclared : WellDeclared declared) (hother : WellDeclared other)
    (hsame : SameDependencies declared other) : buildOrder other = buildOrder declared := by
  refine ((placedInTurn_buildOrder hdeclared).unique (fun taken => ?_)
    (placedInTurn_buildOrder hother)).symm
  rw [free_digraph hdeclared, free_digraph hother, hsame.freePlaces_eq]

lemma modules_of_inOrder (haccepted : ofModules declared = .ok g) (hinorder : InOrder declared) :
    g.modules = declared := by
  obtain ⟨herror, rfl⟩ := ofModules_eq_ok_iff.1 haccepted
  obtain ⟨hdeclared, -⟩ := error?_eq_none_iff.1 herror
  have hrise : ∀ a b, (digraph declared).Edge a b → a < b := by
    intro a b hedge
    obtain ⟨m, d, hm, hd, hdep⟩ := (edge_digraph hdeclared).1 hedge
    have hlt := hinorder m d hdep
    rwa [idxOf_of_getElem? hdeclared.nodup hd, idxOf_of_getElem? hdeclared.nodup hm] at hlt
  -- All edges rise, and then the places in their own order are the least free ones in turn.
  have horder : buildOrder declared = List.range declared.length := by
    rw [← size_digraph]
    exact (placedInTurn_buildOrder hdeclared).unique (fun _ => rfl)
      (Digraph.placedInTurn_nodes hrise)
  rw [horder]
  exact filterMap_range declared

lemma accepted_modules (haccepted : ofModules declared = .ok g) :
    (∃ g', ofModules g.modules = .ok g') ∧ InOrder g.modules := by
  obtain ⟨hperm, hbehind⟩ := modules_spec haccepted
  obtain ⟨-, hacyclic⟩ := error?_eq_none_iff.1 (ofModules_eq_ok_iff.1 haccepted).1
  have hsame : DependsOn g.modules = DependsOn declared := by
    funext m d
    simp only [DependsOn, hperm.mem_iff]
  have hacyclic' : Acyclic g.modules := by rwa [Acyclic, hsame]
  refine ⟨⟨_, ofModules_eq_ok_iff.2
    ⟨error?_eq_none_iff.2 ⟨wellDeclared_modules haccepted, hacyclic'⟩, rfl⟩⟩, fun m d hdep => ?_⟩
  exact hbehind m d (hsame ▸ hdep)

lemma exists_sameOrder (haccepted : ofModules declared = .ok g) (hother : WellDeclared other)
    (hsame : SameDependencies declared other) : ∃ g', ofModules other = .ok g' ∧
      g'.modules.map other.idxOf = g.modules.map declared.idxOf := by
  obtain ⟨hdeclared, hacyclic⟩ := error?_eq_none_iff.1 (ofModules_eq_ok_iff.1 haccepted).1
  have hok : ofModules other = .ok (arrange other (buildOrder other)) := ofModules_eq_ok_iff.2
    ⟨error?_eq_none_iff.2 ⟨hother, hsame.acyclic_iff.1 hacyclic⟩, rfl⟩
  refine ⟨_, hok, ?_⟩
  rw [map_idxOf_modules hok, map_idxOf_modules haccepted, buildOrder_eq hdeclared hother hsame]

/-- Other lists of the same dependencies leave the order as it is. -/
lemma exists_ofModules_relist (haccepted : ofModules declared = .ok g)
    {entries : Module → List String}
    (hentries : ∀ m ∈ declared, ∀ name, name ∈ entries m ↔ name ∈ m.dependsOn) :
    ∃ g', ofModules (declared.map (relist entries)) = .ok g' ∧
      g'.modules = g.modules.map (relist entries) := by
  have hdeclared := (error?_eq_none_iff.1 (ofModules_eq_ok_iff.1 haccepted).1).1
  obtain ⟨g', hok, hplaces⟩ := exists_sameOrder haccepted (hdeclared.relist hentries)
    (sameDependencies_relist hentries hdeclared)
  have hsub : g.modules ⊆ declared := (modules_spec haccepted).1.subset
  refine ⟨g', hok, ?_⟩
  rw [← map_places (modules_spec hok).1.subset, hplaces, List.map_map]
  refine List.map_congr_left fun m hm => ?_
  simp [getElem?_idxOf (hsub hm)]

/-- A build order that is declared again is accepted as it is, with what is stored beside it. -/
lemma ofModules_modules (haccepted : ofModules declared = .ok g) : ofModules g.modules = .ok g := by
  obtain ⟨⟨g', hok⟩, hinorder⟩ := accepted_modules haccepted
  have hmodules : g'.modules = g.modules := modules_of_inOrder hok hinorder
  have hdeps : g'.deps = g.deps := by rw [deps_eq hok, deps_eq haccepted, hmodules]
  have hsame : g' = g := by
    cases g'
    cases g
    exact congrArg₂ BuildGraph.mk hmodules hdeps
  rw [hok, hsame]

/-- The build order of an accepted declaration takes, at every position, the earliest declared
module that can be placed there.  So another declaration with the same dependencies between its
places is accepted and ordered by the same places; the order and the repetition of the entries in
the lists of dependencies do not count; a declaration that is in order is kept, and a build order
that is declared again is accepted as it is. -/
theorem ofModules_earliest (haccepted : ofModules declared = .ok g) :
    (∀ k m, g.modules[k]? = some m → IsNext declared (g.modules.take k) m) ∧
      (∀ other, WellDeclared other → SameDependencies declared other →
        ∃ g', ofModules other = .ok g' ∧
          g'.modules.map other.idxOf = g.modules.map declared.idxOf) ∧
      (∀ entries : Module → List String,
        (∀ m ∈ declared, ∀ name, name ∈ entries m ↔ name ∈ m.dependsOn) →
          ∃ g', ofModules (declared.map (relist entries)) = .ok g' ∧
            g'.modules = g.modules.map (relist entries)) ∧
      (InOrder declared → g.modules = declared) ∧ ofModules g.modules = .ok g := by
  refine ⟨?_, ?_, ?_, ?_, ?_⟩
  · intro k m hk
    exact isNext_modules haccepted hk
  · intro other hother hsame
    exact exists_sameOrder haccepted hother hsame
  · intro entries hentries
    exact exists_ofModules_relist haccepted hentries
  · exact modules_of_inOrder haccepted
  · exact ofModules_modules haccepted

/-- Of the three modules only the last one can be placed first, and with its repeated entry listed
once the first one is still placed last. -/
theorem ofModules_earliest_misordered :
    ofModules misordered = .ok misorderedGraph ∧
      IsNext misordered [] { name := "libcore", foundational := true } ∧
      (∃ g', ofModules (misordered.map (relist fun m => m.dependsOn.eraseDups)) = .ok g' ∧
        g'.modules = misordered.reverse.map (relist fun m => m.dependsOn.eraseDups)) ∧
      ofModules misordered.reverse = .ok misorderedGraph := by
  have hok : ofModules misordered = .ok misorderedGraph := by cbv
  obtain ⟨hnext, -, hentries, -, hagain⟩ := ofModules_earliest hok
  exact ⟨hok, hnext 0 _ rfl, hentries _ fun m _ name => List.mem_eraseDups, hagain⟩

end BuildGraph

end Drydock
