import Drydock.Graph
import Mathlib.Data.List.Nodup
import Mathlib.Logic.Relation

/-!
# What a build order has to respect

The dependencies of a list of declared modules as a relation, `DependsOn`, and the conditions under
which the names and the foundational module of a declaration can be trusted, `WellDeclared`.

A module depends on the modules that it names, and it depends on the foundational module whether it
names it or not.  The relation is stated between modules and not between names, so that it does not
presuppose that a name stands for one module; that it does is a condition of `WellDeclared`, and
every lemma that passes from names to modules asks for it.

What a module depends on can also be told by names, as its declaration does: the foundational module
and then the entries of its list, none of them twice.  Under these conditions a name stands for one
module, so the names in `dependencyNames` are exactly those of the modules that it depends on.  A
graph stores places in place of names, and is judged by these lists.

* `DependsOn`, `Acyclic`, `WellDeclared` — what a declaration has to be.
* `WellDeclared.mem_dependencyNames` — the listed names are the dependencies.
-/

namespace Drydock

variable {declared modules : List Module} {m d : Module} {name : String}

/-! ## Dependencies of declared modules -/

/-- A declared module depends on the declared modules that it names, and on the foundational module
unless it is that module itself. -/
def DependsOn (declared : List Module) (m d : Module) : Prop :=
  m ∈ declared ∧ d ∈ declared ∧ (d.name ∈ m.dependsOn ∨ d.foundational = true ∧ m ≠ d)

instance : Decidable (DependsOn declared m d) := by
  unfold DependsOn
  infer_instance

/-- No declared module depends on itself, directly or through others. -/
def Acyclic (declared : List Module) : Prop := ∀ m, ¬ Relation.TransGen (DependsOn declared) m m

/-- A declaration that is in order, dependency cycles apart. -/
structure WellDeclared (declared : List Module) : Prop where
  distinct : (declared.map (·.name)).Nodup
  /-- A name starts with `lib` and is longer than that. -/
  linkable : ∀ m ∈ declared, "lib".toList <+: m.name.toList ∧ "lib".length < m.name.length
  foundational : declared.countP (·.foundational) ≤ 1
  known : ∀ m ∈ declared, ∀ name ∈ m.dependsOn, ∃ d ∈ declared, d.name = name

/-! ## Dependencies by name -/

/-- The name of the foundational module, for every module but itself. -/
def implicitDependency (declared : List Module) (m : Module) : List String :=
  (((foundational? declared).map (·.name)).filter (· ≠ m.name)).toList

/-- The names that a module depends on: the foundational module, then its entries, none of them
twice. -/
def dependencyNames (declared : List Module) (m : Module) : List String :=
  (implicitDependency declared m ++ m.dependsOn).eraseDups

namespace WellDeclared

/-- Whether a declaration is in order does not depend on the order of its modules. -/
lemma perm (h : WellDeclared declared) (hperm : modules.Perm declared) : WellDeclared modules where
  distinct := (hperm.map _).nodup_iff.2 h.distinct
  linkable m hm := h.linkable m (hperm.mem_iff.1 hm)
  foundational := hperm.countP_eq _ ▸ h.foundational
  known m hm name hname := by
    obtain ⟨d, hd, hdname⟩ := h.known m (hperm.mem_iff.1 hm) name hname
    exact ⟨d, hperm.mem_iff.2 hd, hdname⟩

lemma nodup (h : WellDeclared declared) : declared.Nodup := h.distinct.of_map _

lemma eq_of_name_eq (h : WellDeclared declared) (hm : m ∈ declared) (hd : d ∈ declared)
    (hname : m.name = d.name) : m = d :=
  List.inj_on_of_nodup_map h.distinct hm hd hname

lemma eq_of_foundational (h : WellDeclared declared) (hm : m ∈ declared) (hd : d ∈ declared)
    (hfm : m.foundational = true) (hfd : d.foundational = true) : m = d := by
  have hlen := h.foundational
  rw [List.countP_eq_length_filter] at hlen
  have hm' : m ∈ declared.filter (·.foundational) := List.mem_filter.2 ⟨hm, hfm⟩
  have hd' : d ∈ declared.filter (·.foundational) := List.mem_filter.2 ⟨hd, hfd⟩
  cases hfilter : declared.filter (·.foundational) with
  | nil => simp [hfilter] at hm'
  | cons x rest =>
      rw [hfilter] at hm' hd' hlen
      obtain rfl : rest = [] := by simpa using hlen
      rw [List.mem_singleton.1 hm', List.mem_singleton.1 hd']

/-- The foundational module is found wherever it is declared. -/
lemma foundational?_eq_some_iff (h : WellDeclared declared) :
    foundational? declared = some d ↔ d ∈ declared ∧ d.foundational = true := by
  constructor
  · intro hfind
    exact ⟨List.mem_of_find?_eq_some hfind, List.find?_some hfind⟩
  · rintro ⟨hd, hfd⟩
    have hsome : (foundational? declared).isSome := List.find?_isSome.2 ⟨d, hd, hfd⟩
    obtain ⟨f, hfind⟩ := Option.isSome_iff_exists.1 hsome
    have hsame : f = d := h.eq_of_foundational (List.mem_of_find?_eq_some hfind) hd
      (List.find?_some hfind) hfd
    rw [hfind, hsame]

/-- The foundational module is an implicit dependency of every other module. -/
lemma mem_implicitDependency (h : WellDeclared declared) (hm : m ∈ declared) :
    name ∈ implicitDependency declared m ↔
      ∃ d ∈ declared, d.foundational = true ∧ m ≠ d ∧ d.name = name := by
  simp only [implicitDependency, Option.mem_toList, Option.filter_eq_some_iff,
    Option.map_eq_some_iff]
  constructor
  · rintro ⟨⟨d, hfind, rfl⟩, hne⟩
    obtain ⟨hd, hfd⟩ := h.foundational?_eq_some_iff.1 hfind
    refine ⟨d, hd, hfd, ?_, rfl⟩
    rintro rfl
    simp at hne
  · rintro ⟨d, hd, hfd, hne, rfl⟩
    refine ⟨⟨d, h.foundational?_eq_some_iff.2 ⟨hd, hfd⟩, rfl⟩, ?_⟩
    simpa using fun hname : d.name = m.name => hne (h.eq_of_name_eq hm hd hname.symm)

lemma mem_dependencyNames (h : WellDeclared declared) (hm : m ∈ declared) :
    name ∈ dependencyNames declared m ↔ ∃ d, DependsOn declared m d ∧ d.name = name := by
  rw [dependencyNames, List.mem_eraseDups, List.mem_append, h.mem_implicitDependency hm]
  constructor
  · rintro (⟨d, hd, hfd, hne, rfl⟩ | hname)
    · exact ⟨d, ⟨hm, hd, .inr ⟨hfd, hne⟩⟩, rfl⟩
    · obtain ⟨d, hd, rfl⟩ := h.known m hm name hname
      exact ⟨d, ⟨hm, hd, .inl hname⟩, rfl⟩
  · rintro ⟨d, ⟨-, hd, hname | ⟨hfd, hne⟩⟩, rfl⟩
    · exact .inr hname
    · exact .inl ⟨d, hd, hfd, hne, rfl⟩

end WellDeclared

end Drydock
