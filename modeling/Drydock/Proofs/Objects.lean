import Drydock.Plan
import Drydock.Proofs.Graph.Acceptance
import Drydock.Proofs.Path.Names

/-!
# Which sources share an object

The object of a source keeps the directories of the source, with `..` spelled `__`, and its file
name up to the last extension; everything else about the source is lost.  Two sources of a module
share an object exactly when they agree in what is kept.  This happens to `../x.c` and `__/x.c`, and
to `x.c` and `x.cpp`; below the root and without `..` it happens to twins only.

An object path is put together in two steps: the source is reduced to names, and the names are
joined to the directory of the module.  The second step loses nothing, since names are joined
component by component, so everything that is lost is lost in the first.  `objectKey` is what
remains after it, and two objects of one module are the same file name for file name exactly when
their keys are equal.

Across modules nothing is shared, because the object directory of a module is its own name, and
names of modules are different in an accepted graph.  This needs names without slashes; a name with
one would reach into the directory of another module.

Below the root the key is easily said: the directories are kept as they are, and the file loses its
last extension.  So there the general condition becomes the one on twins, which speaks of paths
alone.

* `objectKey` — what an object keeps of its source.
* `components_objectPath` — the components of an object.
* `BuildContext.plan_objects_apart_iff` — when the objects of a plan are pairwise different.
-/

namespace Drydock

/-- What an object keeps of its source. -/
structure ObjectKey where
  directories : List String
  /-- The file name up to its last extension. -/
  stem : List Char
  deriving DecidableEq

namespace ObjectKey

/-- The names of the object below the directory of its module. -/
def names (k : ObjectKey) : List String := k.directories ++ [.ofList (k.stem ++ ['.', 'o'])]

lemma names_inj {k k' : ObjectKey} : k.names = k'.names ↔ k = k' := by
  constructor
  · intro h
    obtain ⟨hdirectories, hfile⟩ := List.append_inj' h rfl
    have hchars := congrArg String.toList (List.singleton_inj.1 hfile)
    have hstem : k.stem = k'.stem := by simpa using hchars
    cases k
    cases k'
    simp_all
  · rintro rfl
    rfl

end ObjectKey

/-- The names of a source below the root, or its whole path where it is not below the root. -/
def keptNames (root source : Path) : List String :=
  objectNames
    ((Path.stripComponents? root.components source.components).getD source.components)

/-- The key of a source; a source without names is called `out`. -/
def objectKey (root source : Path) : ObjectKey :=
  match (keptNames root source).reverse with
  | [] => ⟨[], ['o', 'u', 't']⟩
  | last :: parents => ⟨parents.reverse, Path.fileStem last.toList⟩

variable {root source a b : Path} {name : String} {names : List String}

/-! ## The names of an object -/

lemma objectTail_keptNames :
    objectTail (keptNames root source) = (objectKey root source).names := by
  rw [objectTail, objectKey]
  cases hnames : (keptNames root source).reverse with
  | nil => rfl
  | cons last parents => simp [ObjectKey.names, objectFile]

lemma isName_of_mem_keptNames (h : name ∈ keptNames root source) : Path.IsName name := by
  obtain ⟨component, hcomponent, hname⟩ := List.mem_filterMap.1 h
  have hmem : component ∈ source.components := by
    unfold Path.stripComponents? at hcomponent
    split at hcomponent
    · exact List.mem_of_mem_drop hcomponent
    · exact hcomponent
  -- The root and `.` give no name, `..` gives `__`, and a name is kept as it is.
  cases component with
  | root => simp at hname
  | here => simp at hname
  | up =>
      obtain rfl : "__" = name := by simpa using hname
      exact Path.isName_iff.2 (by decide)
  | name s =>
      obtain rfl : s = name := by simpa using hname
      exact Path.isName_of_mem hmem

lemma fileStem_subset (file : List Char) : Path.fileStem file ⊆ file := by
  intro x hx
  unfold Path.fileStem at hx
  simp only at hx
  split at hx
  · exact hx
  · rename_i dot stem htail
    split at hx
    · exact hx
    · have hmem : x ∈ file.reverse.dropWhile (· ≠ '.') := by
        rw [htail]
        exact List.mem_cons_of_mem _ (List.mem_reverse.1 hx)
      exact List.mem_reverse.1 ((List.dropWhile_suffix _).subset hmem)

lemma isName_object {stem : List Char} (h : '/' ∉ stem) :
    Path.IsName (.ofList (stem ++ ['.', 'o'])) := by
  -- The text ends in `o`, and neither `.` nor `..` does.
  refine Path.isName_iff.2 ⟨by simp, ?_, ?_, by simpa using h⟩
  · intro heq
    have hlast := congrArg List.getLast? heq
    simp at hlast
  · intro heq
    have hlast := congrArg List.getLast? heq
    simp at hlast

lemma isName_of_mem_objectKey (h : name ∈ (objectKey root source).names) : Path.IsName name := by
  -- A source without names is called `out`; any other keeps names, the last with a new extension.
  unfold objectKey at h
  split at h
  · obtain rfl : name = "out.o" := by simpa [ObjectKey.names] using h
    exact Path.isName_iff.2 (by decide)
  · rename_i last parents hreverse
    have hkept : ∀ s ∈ last :: parents, Path.IsName s := fun s hs =>
      isName_of_mem_keptNames (List.mem_reverse.1 (hreverse ▸ hs))
    rcases List.mem_append.1 h with hparent | hlast
    · exact hkept name (List.mem_cons_of_mem _ (List.mem_reverse.1 hparent))
    · rw [List.mem_singleton.1 hlast]
      exact isName_object fun hslash =>
        (hkept last List.mem_cons_self).noSlash (fileStem_subset _ hslash)

/-- An object stands below the directory that it is placed in, under names. -/
lemma components_objectPath (dir root source : Path) : (objectPath dir root source).components =
    dir.components ++ (objectKey root source).names.map .name := by
  have hpath : objectPath dir root source =
      dir.join ⟨"/".intercalate (objectTail (keptNames root source))⟩ := rfl
  rw [hpath, objectTail_keptNames]
  exact Path.components_join_names dir (by simp [ObjectKey.names]) fun _ => isName_of_mem_objectKey

/-! ## Twins -/

namespace Path

/-- Files of one directory whose names agree up to the last extension. -/
def Twins (a b : Path) : Prop :=
  a.components.dropLast = b.components.dropLast ∧
    a.fileName?.map (fun file => fileStem file.toList) =
      b.fileName?.map (fun file => fileStem file.toList)

instance : DecidableRel Twins := fun _ _ => inferInstanceAs (Decidable (_ ∧ _))

/-- The path leads down from the root by names, and not to the root itself. -/
def Below (root p : Path) : Prop :=
  ∃ names, names ≠ [] ∧ p.components = root.components ++ names.map .name

end Path

lemma objectNames_names (names : List String) : objectNames (names.map .name) = names := by
  simp [objectNames, List.filterMap_map]

lemma objectKey_of_keptNames (hne : names ≠ []) (h : keptNames root source = names) :
    objectKey root source = ⟨names.dropLast, Path.fileStem (names.getLast hne).toList⟩ := by
  have hreverse : names.reverse = names.getLast hne :: names.dropLast.reverse := by
    conv_lhs => rw [← List.dropLast_append_getLast hne]
    simp
  rw [objectKey, h, hreverse]
  simp

lemma objectKey_of_names (hne : names ≠ [])
    (h : source.components = root.components ++ names.map .name) :
    objectKey root source = ⟨names.dropLast, Path.fileStem (names.getLast hne).toList⟩ := by
  refine objectKey_of_keptNames hne ?_
  rw [keptNames, h, Path.stripComponents?, if_pos (by simp), List.drop_left, Option.getD_some,
    objectNames_names]

lemma Path.of_components_names {p : Path} {front : List Component} (hne : names ≠ [])
    (h : p.components = front ++ names.map .name) :
    p.components.dropLast = front ++ names.dropLast.map .name ∧
      p.fileName? = some (names.getLast hne) := by
  have hmap : names.map Component.name ≠ [] := by simpa using hne
  constructor
  · rw [h, List.dropLast_append_of_ne_nil hmap, List.map_dropLast]
  · rw [fileName?, h, List.getLast?_append_of_ne_nil _ hmap, List.getLast?_map,
      List.getLast?_eq_some_getLast hne]
    rfl

lemma map_name_inj {others : List String} :
    names.map Component.name = others.map .name ↔ names = others :=
  List.map_inj_right fun _ _ => Component.name.inj

lemma objectKey_eq_iff_twins (ha : Path.Below root a) (hb : Path.Below root b) :
    objectKey root a = objectKey root b ↔ a.Twins b := by
  obtain ⟨names, hne, hnames⟩ := ha
  obtain ⟨others, hothers, hother⟩ := hb
  obtain ⟨hdirectory, hfile⟩ := Path.of_components_names hne hnames
  obtain ⟨hdirectory', hfile'⟩ := Path.of_components_names hothers hother
  rw [objectKey_of_names hne hnames, objectKey_of_names hothers hother, Path.Twins, hdirectory,
    hdirectory', hfile, hfile', List.append_cancel_left_eq, map_name_inj]
  simp

/-! ## Objects of a plan -/

namespace BuildContext

variable {c : BuildContext} {g : BuildGraph} {declared : List Module} {m m' : String}

lemma isName_of_isLinkable (hlink : BuildGraph.isLinkable name = true)
    (hslash : '/' ∉ name.toList) : Path.IsName name := by
  obtain ⟨⟨rest, hrest⟩, -⟩ := BuildGraph.isLinkable_iff.1 hlink
  rw [← hrest] at hslash
  exact Path.isName_iff.2 (by rw [← hrest]; simpa using hslash)

lemma components_objectOf (hm : Path.IsName m) (source : Path) :
    (c.objectOf m source).components = c.manifest.buildDir.components ++
      .name m :: (objectKey c.manifest.root source).names.map .name := by
  have hdir : c.manifest.objectDir m = c.manifest.buildDir.join ⟨"/".intercalate [m]⟩ := by
    rw [String.intercalate_singleton]
    rfl
  have hname : ∀ s ∈ [m], Path.IsName s := fun s hs => by rwa [List.mem_singleton.1 hs]
  rw [objectOf, components_objectPath, hdir,
    Path.components_join_names _ (List.cons_ne_nil _ _) hname, List.append_assoc]
  rfl

/-- An object belongs to one module and to the sources with one key. -/
lemma same_objectOf_iff (hm : Path.IsName m) (hm' : Path.IsName m') :
    (c.objectOf m a).Same (c.objectOf m' b) ↔
      m = m' ∧ objectKey c.manifest.root a = objectKey c.manifest.root b := by
  rw [Path.Same, components_objectOf hm, components_objectOf hm', List.append_cancel_left_eq,
    List.cons.injEq, Component.name.injEq, map_name_inj, ObjectKey.names_inj]

lemma pairwise_objects_iff (hnodup : g.names.Nodup) (hname : ∀ name ∈ g.names, Path.IsName name) :
    ((c.plan g).modules.flatMap (·.objects)).Pairwise (fun p q => ¬ p.Same q) ↔
      ∀ m ∈ g.modules, m.sources.Pairwise fun a b =>
        objectKey c.manifest.root a ≠ objectKey c.manifest.root b := by
  have hobjects : (c.plan g).modules.flatMap (·.objects) =
      g.modules.flatMap fun m => m.sources.map (c.objectOf m.name) := by
    rw [plan, List.flatMap_map]
    rfl
  have hmodule : ∀ m ∈ g.modules, Path.IsName m.name := fun m hm =>
    hname m.name (List.mem_map_of_mem hm)
  -- Names are distinct, and the name of its module stands in front of every object.
  have hacross : g.modules.Pairwise fun m m' => ∀ p ∈ m.sources.map (c.objectOf m.name),
      ∀ q ∈ m'.sources.map (c.objectOf m'.name), ¬ p.Same q := by
    refine (List.pairwise_map.1 hnodup).imp_of_mem fun hm hm' hne p hp q hq hsame => ?_
    obtain ⟨a, -, rfl⟩ := List.mem_map.1 hp
    obtain ⟨b, -, rfl⟩ := List.mem_map.1 hq
    exact hne ((same_objectOf_iff (hmodule _ hm) (hmodule _ hm')).1 hsame).1
  rw [hobjects, List.pairwise_flatMap, and_iff_left hacross]
  refine forall₂_congr fun m hm => ?_
  rw [List.pairwise_map]
  simp only [same_objectOf_iff (hmodule m hm) (hmodule m hm), true_and, ne_eq]

/-- In an accepted graph whose module names have no slashes, the objects of the plan are pairwise
different exactly when the sources of each module keep different things; and below the root they are
exactly when no module has two sources that are twins. -/
theorem plan_objects_apart_iff (haccepted : BuildGraph.ofModules declared = .ok g)
    (hflat : ∀ name ∈ g.names, '/' ∉ name.toList) (c : BuildContext) :
    (((c.plan g).modules.flatMap (·.objects)).Pairwise (fun p q => ¬ p.Same q) ↔
      ∀ m ∈ g.modules, m.sources.Pairwise fun a b =>
        objectKey c.manifest.root a ≠ objectKey c.manifest.root b) ∧
    ((∀ m ∈ g.modules, ∀ source ∈ m.sources, Path.Below c.manifest.root source) →
      (((c.plan g).modules.flatMap (·.objects)).Pairwise (fun p q => ¬ p.Same q) ↔
        ∀ m ∈ g.modules, m.sources.Pairwise fun a b => ¬ a.Twins b)) := by
  obtain ⟨-, hnodup, hlink⟩ := BuildGraph.of_ofModules haccepted
  have hname : ∀ name ∈ g.names, Path.IsName name := fun name hmem =>
    isName_of_isLinkable (hlink name hmem) (hflat name hmem)
  have hkeys := pairwise_objects_iff (c := c) hnodup hname
  refine ⟨hkeys, fun hbelow => hkeys.trans (forall₂_congr fun m hm => ?_)⟩
  refine ⟨fun h => h.imp_of_mem ?_, fun h => h.imp_of_mem ?_⟩
  · intro a b ha hb hne htwins
    exact hne ((objectKey_eq_iff_twins (hbelow m hm a ha) (hbelow m hm b hb)).2 htwins)
  · intro a b ha hb hnot hkey
    exact hnot ((objectKey_eq_iff_twins (hbelow m hm a ha) (hbelow m hm b hb)).1 hkey)

/-- A package in the directory `p`. -/
def nestedContext : BuildContext where
  manifest := { package := { name := "pysam" }, root := ⟨"p"⟩ }
  settings := {}
  defaults := .ofPlatform .elf
  resolution := .standalone .shared

/-- Sources of one name in several directories, and in two modules. -/
def sameNamed : List Module :=
  [{ name := "libcore", sources := [⟨"p/core/util.c"⟩, ⟨"p/view/util.c"⟩, ⟨"p/__/util.c"⟩] },
    { name := "libview", sources := [⟨"p/view/util.c"⟩, ⟨"p/./util.c"⟩] }]

theorem plan_objects_apart_iff_sameNamed :
    BuildGraph.ofModules sameNamed = .ok ⟨sameNamed, [[], []]⟩ ∧
      ((nestedContext.plan ⟨sameNamed, [[], []]⟩).modules.flatMap (·.objects)).Pairwise fun p q =>
        ¬ p.Same q := by
  have haccepted : BuildGraph.ofModules sameNamed = .ok ⟨sameNamed, [[], []]⟩ := by cbv
  have hflat : ∀ name ∈ (BuildGraph.mk sameNamed [[], []]).names, '/' ∉ name.toList := by decide
  have hbelow : ∀ m ∈ sameNamed, ∀ source ∈ m.sources, Path.Below ⟨"p"⟩ source := by
    have hnames : ∀ m ∈ sameNamed, ∀ source ∈ m.sources,
        source.components = Component.name "p" :: (source.components.drop 1) ∧
          source.components.drop 1 = (objectNames (source.components.drop 1)).map .name ∧
          objectNames (source.components.drop 1) ≠ [] := by decide +kernel
    intro m hm source hsource
    obtain ⟨hroot, hrest, hne⟩ := hnames m hm source hsource
    exact ⟨_, hne, hroot.trans (congrArg (Component.name "p" :: ·) hrest)⟩
  exact ⟨haccepted, ((plan_objects_apart_iff haccepted hflat nestedContext).2 hbelow).2
    (by decide +kernel)⟩

/-- A source beside the package, and one in a directory with the name that `..` is spelled with. -/
def besideModules : List Module :=
  [{ name := "libcore", sources := [⟨"p/../x.c"⟩, ⟨"p/__/x.c"⟩] }]

/-- Two sources of one name in different directories can share an object. -/
theorem plan_objects_collide_beside :
    ∃ g, BuildGraph.ofModules besideModules = .ok g ∧
      (∀ m ∈ g.modules, m.sources.Pairwise fun a b => ¬ a.Same b) ∧
      ¬ ((nestedContext.plan g).modules.flatMap (·.objects)).Pairwise fun p q => ¬ p.Same q := by
  have haccepted : BuildGraph.ofModules besideModules = .ok ⟨besideModules, [[]]⟩ := by cbv
  exact ⟨_, haccepted, by decide +kernel, by decide +kernel⟩

end BuildContext

end Drydock
