import Drydock.Proofs.Graph.Placement

/-!
# What a module is linked against

`BuildGraph.dependencies` follows stored positions, which read back as the modules of certain names:
those in `dependencyNames`, where repetitions are dropped.  In an accepted graph every name has its
module, so the result can be said in terms of modules: the foundational one, unless it is the module
itself, and behind it the modules that are named, each at the place of its first mention.

First mentions are compared by `List.idxOf`, which finds the first place of an entry.  That dropping
repetitions keeps first mentions in their order is a fact about `List.eraseDups`, which takes out of
the tail what equals the head; the proof follows it by the length of the list, since what is left of
the tail is no part of the list as it stands.

The foundational module is named by nobody in particular, and a module that does name it gains
nothing: the name is dropped as a repetition of the implicit one.  So it is filtered out of the
named modules in one case and cannot be among them in the other, when the module is itself the
foundational one or there is none (`BuildGraph.exists_named_of_ne`,
`BuildGraph.namedInOrder_dependencies`).

* `NamedInOrder` — the modules that a module names, in the order in which they are named first.
* `BuildGraph.mem_dependencies` — the modules linked against are those that are depended on.
* `BuildGraph.dependencies_linkOrder` — the list of them, for every name.
-/

namespace Drydock

/-! ## First mentions -/

section FirstMention

variable {α : Type} [DecidableEq α] {xs : List α} {p : α → Bool} {a b : α}

/-- What is kept of a list is mentioned in the same order as in the list. -/
lemma idxOf_lt_of_filter (ha : p a = true) (hb : p b = true)
    (h : (xs.filter p).idxOf a < (xs.filter p).idxOf b) : xs.idxOf a < xs.idxOf b := by
  induction xs with
  | nil => simp at h
  | cons x xs ih =>
      -- An entry that is kept counts on both sides, one that is dropped is neither `a` nor `b`.
      by_cases hx : p x = true
      · rw [List.filter_cons_of_pos hx] at h
        by_cases hxb : x = b
        · subst hxb
          simp at h
        · by_cases hxa : x = a
          · subst hxa
            rw [List.idxOf_cons_self, List.idxOf_cons_ne _ hxb]
            omega
          · rw [List.idxOf_cons_ne _ hxa, List.idxOf_cons_ne _ hxb] at h ⊢
            have := ih (by omega)
            omega
      · rw [List.filter_cons_of_neg hx] at h
        have hxa : x ≠ a := fun heq => hx (heq ▸ ha)
        have hxb : x ≠ b := fun heq => hx (heq ▸ hb)
        rw [List.idxOf_cons_ne _ hxa, List.idxOf_cons_ne _ hxb]
        have := ih h
        omega

lemma pairwise_eraseDups (xs : List α) :
    xs.eraseDups.Pairwise fun a b => xs.idxOf a < xs.idxOf b := by
  induction hn : xs.length using Nat.strong_induction_on generalizing xs with
  | _ n ih =>
      cases xs with
      | nil => simp
      | cons x xs =>
          have hlength : (xs.filter fun y => !y == x).length < n := by
            have := List.length_filter_le (fun y => !y == x) xs
            simp only [List.length_cons] at hn
            omega
          rw [List.eraseDups_cons]
          refine List.pairwise_cons.2 ⟨fun b hb => ?_, ?_⟩
          · have hbx : x ≠ b := by
              rintro rfl
              simp at hb
            rw [List.idxOf_cons_self, List.idxOf_cons_ne _ hbx]
            omega
          -- Behind the first entry the order is that of the filtered rest, and filtering keeps it.
          · refine (ih _ hlength _ rfl).imp_of_mem fun {a b} ha hb hlt => ?_
            have hkept : ∀ y ∈ (xs.filter fun y => !y == x).eraseDups, (!y == x) = true := by
              intro y hy
              exact (List.mem_filter.1 (List.mem_eraseDups.1 hy)).2
            have hxa : x ≠ a := by
              rintro rfl
              simpa using hkept x ha
            have hxb : x ≠ b := by
              rintro rfl
              simpa using hkept x hb
            have hrest := idxOf_lt_of_filter (p := fun y => !y == x) (hkept a ha) (hkept b hb) hlt
            rw [List.idxOf_cons_ne _ hxa, List.idxOf_cons_ne _ hxb]
            omega

lemma nodup_eraseDups (xs : List α) : xs.eraseDups.Nodup := by
  refine (pairwise_eraseDups xs).imp ?_
  rintro a b hlt rfl
  exact lt_irrefl _ hlt

end FirstMention

/-- The modules of a graph that a module names, each of them once, in the order in which they are
named first; the foundational one is left out. -/
structure NamedInOrder (g : BuildGraph) (m : Module) (named : List Module) : Prop where
  mem_iff : ∀ d, d ∈ named ↔
    d ∈ g.modules ∧ d.name ∈ m.dependsOn ∧ d.foundational = false
  order : named.Pairwise fun a b => m.dependsOn.idxOf a.name < m.dependsOn.idxOf b.name

namespace BuildGraph

variable {declared : List Module} {g : BuildGraph} {f m d : Module} {name : String}

lemma mem_dependencies (haccepted : ofModules declared = .ok g) (hm : m ∈ g.modules) :
    d ∈ g.dependencies m.name ↔ DependsOn g.modules m d := by
  rw [dependencies_eq haccepted hm, List.mem_filterMap]
  constructor
  · rintro ⟨name, hname, hget⟩
    obtain ⟨hd, hdname⟩ := (get?_eq_some_iff haccepted).1 hget
    have hdeclared := wellDeclared_modules haccepted
    obtain ⟨x, hdep, hx⟩ := (hdeclared.mem_dependencyNames hm).1 hname
    rwa [hdeclared.eq_of_name_eq hd hdep.2.1 (hdname.trans hx.symm)]
  · intro hdep
    refine ⟨d.name, ?_, get?_eq_some haccepted hdep.2.1⟩
    exact ((wellDeclared_modules haccepted).mem_dependencyNames hm).2 ⟨d, hdep, rfl⟩

lemma not_dependsOn_foundational (haccepted : ofModules declared = .ok g) (hf : f ∈ g.modules)
    (hfound : f.foundational = true) : ¬ DependsOn g.modules f d := by
  intro hdep
  have hlt := (accepted_modules haccepted).2 f d hdep
  have hdeclared : f ∈ declared := (modules_spec haccepted).1.mem_iff.1 hf
  obtain ⟨rest, hrest⟩ := exists_modules_eq_cons haccepted hdeclared hfound
  -- It stands at the first position, and nothing is built in front of that.
  rw [hrest, List.idxOf_cons_self] at hlt
  omega

lemma dependsOn_foundational_eq_nil (haccepted : ofModules declared = .ok g) (hf : f ∈ g.modules)
    (hfound : f.foundational = true) : f.dependsOn = [] := by
  rw [List.eq_nil_iff_forall_not_mem]
  intro name hname
  obtain ⟨d, hd, rfl⟩ := (wellDeclared_modules haccepted).known f hf name hname
  exact not_dependsOn_foundational haccepted hf hfound ⟨hf, hd, .inl hname⟩

/-- The modules of some of the names that a module lists, each at the place of its first mention. -/
lemma filterMap_get?_spec (haccepted : ofModules declared = .ok g) (p : String → Bool) :
    let named := (m.dependsOn.filter p).eraseDups.filterMap g.get?
    (∀ d, d ∈ named ↔ d ∈ g.modules ∧ d.name ∈ m.dependsOn ∧ p d.name = true) ∧
      named.Pairwise fun a b => m.dependsOn.idxOf a.name < m.dependsOn.idxOf b.name := by
  refine ⟨fun d => ?_, ?_⟩
  · simp only [List.mem_filterMap, List.mem_eraseDups, List.mem_filter,
      get?_eq_some_iff haccepted]
    constructor
    · rintro ⟨name, ⟨hname, hp⟩, hd, rfl⟩
      exact ⟨hd, hname, hp⟩
    · rintro ⟨hd, hname, hp⟩
      exact ⟨d.name, ⟨hname, hp⟩, hd, rfl⟩
  · rw [List.pairwise_filterMap]
    refine (pairwise_eraseDups _).imp_of_mem fun {x y} hx hy hlt a ha b hb => ?_
    obtain ⟨-, rfl⟩ := (get?_eq_some_iff haccepted).1 ha
    obtain ⟨-, rfl⟩ := (get?_eq_some_iff haccepted).1 hb
    have hkept : ∀ z ∈ (m.dependsOn.filter p).eraseDups, p z = true := fun z hz =>
      (List.mem_filter.1 (List.mem_eraseDups.1 hz)).2
    exact idxOf_lt_of_filter (hkept _ hx) (hkept _ hy) hlt

/-- A foundational module other than the given one is listed in front of the modules that are
named. -/
lemma exists_named_of_ne (haccepted : ofModules declared = .ok g) (hm : m ∈ g.modules)
    (hf : f ∈ g.modules) (hfound : f.foundational = true) (hne : m ≠ f) :
    ∃ named, g.dependencies m.name = f :: named ∧ NamedInOrder g m named := by
  have hdeclared := wellDeclared_modules haccepted
  obtain ⟨hnamed, horder⟩ :=
    filterMap_get?_spec (m := m) haccepted fun name => decide (name ≠ f.name)
  refine ⟨_, dependencies_eq_cons haccepted hm hf hfound hne, fun d => ?_, horder⟩
  rw [hnamed, decide_eq_true_eq]
  refine and_congr_right fun hd => and_congr_right fun _ => ?_
  rw [← Bool.not_eq_true, not_iff_not]
  constructor
  · intro hname
    rwa [hdeclared.eq_of_name_eq hd hf hname]
  · intro hd'
    rw [hdeclared.eq_of_foundational hd hf hd' hfound]

lemma namedInOrder_dependencies (haccepted : ofModules declared = .ok g) (hm : m ∈ g.modules)
    (honly : ∀ f ∈ g.modules, f.foundational = true → m = f) :
    NamedInOrder g m (g.dependencies m.name) := by
  have hdeclared := wellDeclared_modules haccepted
  have himplicit : implicitDependency g.modules m = [] := by
    cases hf : Drydock.foundational? g.modules with
    | none => simp [implicitDependency, hf]
    | some f =>
        obtain ⟨hmem, hfound⟩ := hdeclared.foundational?_eq_some_iff.1 hf
        obtain rfl := honly f hmem hfound
        simp [implicitDependency, hf]
  obtain ⟨hnamed, horder⟩ := filterMap_get?_spec (m := m) haccepted fun _ => true
  rw [List.filter_true] at hnamed horder
  rw [dependencies_eq haccepted hm, dependencyNames, himplicit, List.nil_append]
  refine ⟨fun d => ?_, horder⟩
  rw [hnamed]
  refine and_congr_right fun hd => and_congr_right fun hname => iff_of_true rfl ?_
  -- The foundational module would be this one, which would then name itself.
  rw [← Bool.not_eq_true]
  intro hfound
  obtain rfl := honly d hd hfound
  exact not_dependsOn_foundational haccepted hd hfound ⟨hd, hd, .inl hname⟩

lemma exists_named (haccepted : ofModules declared = .ok g) (hm : m ∈ g.modules) :
    ∃ named, g.dependencies m.name = g.foundational?.toList.filter (· ≠ m) ++ named ∧
      NamedInOrder g m named := by
  have hfind : ∀ f, g.foundational? = some f ↔ f ∈ g.modules ∧ f.foundational = true :=
    fun f => (wellDeclared_modules haccepted).foundational?_eq_some_iff
  by_cases hother : ∃ f, g.foundational? = some f ∧ m ≠ f
  · obtain ⟨f, hf, hne⟩ := hother
    obtain ⟨hmem, hfound⟩ := (hfind f).1 hf
    obtain ⟨named, hlist, hnamed⟩ := exists_named_of_ne haccepted hm hmem hfound hne
    refine ⟨named, ?_, hnamed⟩
    simp [hlist, hf, Ne.symm hne]
  · have honly : ∀ f, g.foundational? = some f → m = f := by
      intro f hf
      by_contra hne
      exact hother ⟨f, hf, hne⟩
    refine ⟨g.dependencies m.name, ?_, ?_⟩
    · cases hf : g.foundational? with
      | none => simp
      | some f => simp [honly f hf]
    · exact namedInOrder_dependencies haccepted hm fun f hmem hfound =>
        honly f ((hfind f).2 ⟨hmem, hfound⟩)

lemma nodup_dependencies (haccepted : ofModules declared = .ok g) (hm : m ∈ g.modules) :
    (g.dependencies m.name).Nodup := by
  rw [dependencies_eq haccepted hm]
  refine (nodup_eraseDups _).filterMap fun a b d ha hb => ?_
  rw [← ((get?_eq_some_iff haccepted).1 ha).2, ← ((get?_eq_some_iff haccepted).1 hb).2]

/-- In an accepted graph a module is linked against the foundational module, where there is one and
it is not the module itself, and behind it against the other modules that it names, in the order in
which they are named first.  Each of them is listed once and is built before the module.  The
foundational module is the first one to be built, names no module and has no dependencies.  A name
that is not in the graph has none either. -/
theorem dependencies_linkOrder (haccepted : ofModules declared = .ok g) :
    (∀ m ∈ g.modules, ∃ named,
      g.dependencies m.name = g.foundational?.toList.filter (· ≠ m) ++ named ∧
      NamedInOrder g m named ∧ (g.dependencies m.name).Nodup ∧
      ∀ d ∈ g.dependencies m.name, g.modules.idxOf d < g.modules.idxOf m) ∧
    (∀ f ∈ g.modules, f.foundational = true →
      g.foundational? = some f ∧ g.modules[0]? = some f ∧ f.dependsOn = [] ∧
        g.dependencies f.name = []) ∧
    ∀ name ∉ g.names, g.dependencies name = [] := by
  refine ⟨fun m hm => ?_, fun f hf hfound => ⟨?_, ?_, ?_, ?_⟩, fun name hname => ?_⟩
  · obtain ⟨named, hlist, hnamed⟩ := exists_named haccepted hm
    refine ⟨named, hlist, hnamed, nodup_dependencies haccepted hm, fun d hd => ?_⟩
    apply (accepted_modules haccepted).2
    exact (mem_dependencies haccepted hm).1 hd
  · exact (wellDeclared_modules haccepted).foundational?_eq_some_iff.2 ⟨hf, hfound⟩
  · have hdeclared : f ∈ declared := (modules_spec haccepted).1.mem_iff.1 hf
    obtain ⟨rest, hrest⟩ := exists_modules_eq_cons haccepted hdeclared hfound
    rw [hrest, List.getElem?_cons_zero]
  · exact dependsOn_foundational_eq_nil haccepted hf hfound
  · rw [List.eq_nil_iff_forall_not_mem]
    intro d hd
    exact not_dependsOn_foundational haccepted hf hfound ((mem_dependencies haccepted hf).1 hd)
  · exact dependencies_eq_nil hname

/-- Modules of which one names the foundational module between two mentions of another one. -/
def repeated : List Module :=
  [{ name := "libview", dependsOn := ["libutils", "libcore", "libtools", "libutils"] },
    { name := "libcore", foundational := true }, { name := "libtools" }, { name := "libutils" }]

/-- The first of these modules is built last, and is linked against the foundational one first. -/
theorem dependencies_linkOrder_repeated :
    ∃ g, ofModules repeated = .ok g ∧
      (g.dependencies "libview").map (·.name) = ["libcore", "libutils", "libtools"] ∧
      (∀ d ∈ g.dependencies "libview", g.modules.idxOf d < 3) ∧
      g.modules[0]? = some { name := "libcore", foundational := true } ∧
      g.dependencies "libcore" = [] ∧ g.dependencies "libnone" = [] := by
  have hok : ofModules repeated = .ok
      ⟨[{ name := "libcore", foundational := true }, { name := "libtools" }, { name := "libutils" },
        { name := "libview", dependsOn := ["libutils", "libcore", "libtools", "libutils"] }],
        [[], [0], [0], [0, 2, 1]]⟩ := by
    cbv
  obtain ⟨hlinked, hfound, hother⟩ := dependencies_linkOrder hok
  obtain ⟨-, -, -, -, hbefore⟩ := hlinked _ (List.mem_of_getElem? (i := 3) rfl)
  obtain ⟨-, hfirst, -, hnone⟩ := hfound _ List.mem_cons_self rfl
  exact ⟨_, hok, by decide, hbefore, hfirst, hnone, hother "libnone" (by decide)⟩

end BuildGraph

end Drydock
