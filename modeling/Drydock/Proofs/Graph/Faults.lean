import Drydock.Proofs.Graph.Acceptance

/-!
# Which fault of a declaration is reported

A declaration can be faulty in many ways at once, and one error is reported.  `Fault` says which:
names come first, module by module; then the foundational modules; then the entries of the lists of
dependencies, module by module and entry by entry; and cycles where nothing else is wrong.  Each
error carries the conditions under which the faults that come before it are absent.

The conditions are part of the constructors, so a declaration has at most one fault apart from
cycles, and the two directions of `BuildGraph.ofModules_rejects` fix the error that a caller sees.
A cycle is left open on purpose: several closed chains may run through a declaration, and which of
them is found depends on the depth-first walk.

The checks of names run with the names in front of them, which are kept in reverse.  They are
therefore taken apart at the first module with a fault (`BuildGraph.exists_of_nameError?`), and what
is left is the check of a single module.

* `NamesStand` — a declaration, or the front of one, whose names are in order.
* `Fault` — the errors that a declaration can be refused with.
* `BuildGraph.ofModules_rejects` — they are reported where they apply, and only there.
-/

namespace Drydock

/-- A name that starts with `lib` and is longer than that. -/
def Linkable (name : String) : Prop :=
  "lib".toList <+: name.toList ∧ "lib".length < name.length

instance (name : String) : Decidable (Linkable name) := by
  unfold Linkable
  infer_instance

/-- Some module has the name. -/
def Declares (declared : List Module) (name : String) : Prop := ∃ d ∈ declared, d.name = name

/-- Names that differ and that can be linked. -/
structure NamesStand (declared : List Module) : Prop where
  distinct : (declared.map (·.name)).Nodup
  linkable : ∀ m ∈ declared, Linkable m.name

/-- The error that a declaration is refused with. -/
inductive Fault (declared : List Module) : GraphError → Prop where
  /-- The first module whose name is not in order has the name of an earlier one. -/
  | duplicateModule {front rest : List Module} {m : Module}
      (split : declared = front ++ m :: rest) (stands : NamesStand front)
      (repeated : Declares front m.name) :
      Fault declared (.duplicateModule m.name)
  /-- The first module whose name is not in order has a new name, which cannot be linked. -/
  | unlinkableName {front rest : List Module} {m : Module}
      (split : declared = front ++ m :: rest) (stands : NamesStand front)
      (fresh : ¬ Declares front m.name) (unlinkable : ¬ Linkable m.name) :
      Fault declared (.unlinkableName m.name)
  /-- The names are in order, and several modules are foundational. -/
  | severalFoundational (stands : NamesStand declared)
      (several : 1 < declared.countP (·.foundational)) :
      Fault declared (.severalFoundational ((declared.filter (·.foundational)).map (·.name)))
  /-- Names and foundational modules are in order, and the list of `m` holds the first entry that
  names no module. -/
  | unknownDependency {front rest : List Module} {m : Module} {before after : List String}
      {name : String} (stands : NamesStand declared)
      (single : declared.countP (·.foundational) ≤ 1) (split : declared = front ++ m :: rest)
      (front_known : ∀ w ∈ front, ∀ entry ∈ w.dependsOn, Declares declared entry)
      (entries : m.dependsOn = before ++ name :: after)
      (before_known : ∀ entry ∈ before, Declares declared entry)
      (unknown : ¬ Declares declared name) :
      Fault declared (.unknownDependency m.name name)
  /-- Nothing is wrong but that the modules depend on one another in a circle. -/
  | cycle {names : List String} (stands : WellDeclared declared) (cyclic : ¬ Acyclic declared)
      (chain : BuildGraph.ClosedChain declared names) :
      Fault declared (.cycle names)

namespace BuildGraph

variable {declared front : List Module} {m : Module} {seen names : List String} {e : GraphError}

/-! ## Names -/

lemma namesStand_iff : NamesStand declared ↔ nameError? [] declared = none := by
  rw [nameError?_eq_none_iff]
  constructor
  · intro h
    exact ⟨by simp, h.distinct, fun m hm => isLinkable_iff.2 (h.linkable m hm)⟩
  · rintro ⟨-, hdistinct, hlinkable⟩
    exact ⟨hdistinct, fun m hm => isLinkable_iff.1 (hlinkable m hm)⟩

/-- The check of a name looks at the names in front of it only. -/
lemma nameError?_append {rest : List Module} :
    nameError? seen (front ++ rest) =
      (nameError? seen front).or (nameError? ((front.map (·.name)).reverse ++ seen) rest) := by
  induction front generalizing seen with
  | nil => rfl
  | cons m front ih =>
      rw [List.cons_append, nameError?, nameError?]
      split
      · rfl
      · split
        · rw [ih, List.map_cons, List.reverse_cons, List.append_assoc, List.singleton_append]
        · rfl

lemma exists_of_nameError? (h : nameError? seen declared = some e) :
    ∃ front m rest, declared = front ++ m :: rest ∧ nameError? seen front = none ∧
      nameError? ((front.map (·.name)).reverse ++ seen) [m] = some e := by
  induction declared generalizing seen with
  | nil => simp [nameError?] at h
  | cons m rest ih =>
      by_cases hm : nameError? seen [m] = none
      · rw [← List.singleton_append, nameError?_append, hm, Option.none_or] at h
        obtain ⟨front, w, back, rfl, hfront, hw⟩ := ih h
        refine ⟨m :: front, w, back, rfl, ?_, ?_⟩
        · rw [← List.singleton_append, nameError?_append, hm, Option.none_or, hfront]
        · simpa using hw
      · obtain ⟨e', he'⟩ := Option.ne_none_iff_exists'.1 hm
        rw [← List.singleton_append, nameError?_append, he', Option.some_or] at h
        exact ⟨[], m, rest, rfl, rfl, he'.trans h⟩

lemma nameError?_singleton_eq_some_iff :
    nameError? seen [m] = some e ↔ m.name ∈ seen ∧ .duplicateModule m.name = e ∨
      m.name ∉ seen ∧ ¬ Linkable m.name ∧ .unlinkableName m.name = e := by
  have hlinkable : isLinkable m.name = true ↔ Linkable m.name := isLinkable_iff
  unfold nameError?
  split
  · rename_i hseen
    simp [hseen]
  · rename_i hseen
    split
    · rename_i hm
      simp [hseen, hlinkable.1 hm, nameError?]
    · rename_i hm
      rw [hlinkable] at hm
      simp [hseen, hm]

lemma mem_names_reverse {name : String} :
    name ∈ (front.map (·.name)).reverse ++ [] ↔ Declares front name := by
  simp [Declares]

lemma fault_of_nameError? (h : nameError? [] declared = some e) : Fault declared e := by
  obtain ⟨front, m, rest, hsplit, hfront, hm⟩ := exists_of_nameError? h
  have hstands := namesStand_iff.2 hfront
  rw [nameError?_singleton_eq_some_iff, mem_names_reverse] at hm
  obtain ⟨hrepeated, rfl⟩ | ⟨hfresh, hunlinkable, rfl⟩ := hm
  · exact .duplicateModule hsplit hstands hrepeated
  · exact .unlinkableName hsplit hstands hfresh hunlinkable

lemma error?_of_name {rest : List Module} (hsplit : declared = front ++ m :: rest)
    (hstands : NamesStand front)
    (hm : nameError? ((front.map (·.name)).reverse ++ []) [m] = some e) :
    error? declared = some e := by
  have hname : nameError? [] declared = some e := by
    rw [hsplit, nameError?_append, namesStand_iff.1 hstands, Option.none_or,
      ← List.singleton_append, nameError?_append, hm, Option.some_or]
  rw [error?, hname, Option.some_or]

/-! ## Foundational modules and dependencies -/

lemma foundationalError?_eq_some_iff :
    foundationalError? declared = some e ↔ 1 < declared.countP (·.foundational) ∧
      .severalFoundational ((declared.filter (·.foundational)).map (·.name)) = e := by
  simp [foundationalError?, List.countP_eq_length_filter]

/-- The first entry of a list that names no module is reported. -/
lemma dependencyError?_eq_some_iff :
    dependencyError? declared m = some e ↔ ∃ before name after,
      m.dependsOn = before ++ name :: after ∧ (∀ entry ∈ before, Declares declared entry) ∧
        ¬ Declares declared name ∧ .unknownDependency m.name name = e := by
  simp only [dependencyError?, Option.map_eq_some_iff, List.find?_eq_some_iff_append, Declares]
  constructor
  · rintro ⟨name, ⟨hunknown, before, after, hsplit, hknown⟩, rfl⟩
    exact ⟨before, name, after, hsplit, by simpa using hknown, by simpa using hunknown, rfl⟩
  · rintro ⟨before, name, after, hsplit, hknown, hunknown, rfl⟩
    exact ⟨name, ⟨by simpa using hunknown, before, after, hsplit, by simpa using hknown⟩, rfl⟩

/-! ## Cycles -/

lemma fault_of_cycleError? (h : WellDeclared declared) (he : cycleError? declared = some e) :
    Fault declared e := by
  have hcyclic : ¬ Acyclic declared := by
    rw [← cycleError?_eq_none_iff h, he]
    exact Option.some_ne_none e
  obtain ⟨names, herror, hclosed, -⟩ := exists_cycle h hcyclic
  rw [error?_eq_cycleError? h, he] at herror
  obtain rfl := Option.some.inj herror
  exact .cycle h hcyclic hclosed

/-! ## The order of the checks -/

lemma fault_of_error? (h : error? declared = some e) : Fault declared e := by
  rw [error?, Option.or_eq_some_iff, Option.or_eq_some_iff, Option.or_eq_some_iff] at h
  -- Each alternative brings along that the checks in front of it have passed.
  obtain hname | ⟨hname, hfound | ⟨hfound, hknown | ⟨hknown, hcycle⟩⟩⟩ := h
  · exact fault_of_nameError? hname
  · obtain ⟨hseveral, rfl⟩ := foundationalError?_eq_some_iff.1 hfound
    exact .severalFoundational (namesStand_iff.2 hname) hseveral
  · obtain ⟨front, m, rest, hsplit, hm, hfront⟩ := List.findSome?_eq_some_iff.1 hknown
    obtain ⟨before, name, after, hentries, hbefore, hunknown, rfl⟩ :=
      dependencyError?_eq_some_iff.1 hm
    exact .unknownDependency (namesStand_iff.2 hname) (foundationalError?_eq_none_iff.1 hfound)
      hsplit (fun w hw => dependencyError?_eq_none_iff.1 (hfront w hw)) hentries hbefore hunknown
  · have hstands := namesStand_iff.2 hname
    have hsingle := foundationalError?_eq_none_iff.1 hfound
    have hdeclared : WellDeclared declared :=
      ⟨hstands.distinct, hstands.linkable, hsingle, fun m hm =>
        dependencyError?_eq_none_iff.1 (List.findSome?_eq_none_iff.1 hknown m hm)⟩
    exact fault_of_cycleError? hdeclared hcycle

/-- A fault is reported; for a cycle it may be another cycle. -/
lemma error?_of_fault (h : Fault declared e) :
    error? declared = some e ∨
      ∃ names other, e = .cycle names ∧ error? declared = some (.cycle other) := by
  cases h with
  | duplicateModule hsplit hstands hrepeated =>
      left
      refine error?_of_name hsplit hstands (nameError?_singleton_eq_some_iff.2 (.inl ⟨?_, rfl⟩))
      exact mem_names_reverse.2 hrepeated
  | unlinkableName hsplit hstands hfresh hunlinkable =>
      left
      refine error?_of_name hsplit hstands
        (nameError?_singleton_eq_some_iff.2 (.inr ⟨?_, hunlinkable, rfl⟩))
      exact mem_names_reverse.not.2 hfresh
  | severalFoundational hstands hseveral =>
      left
      rw [error?, namesStand_iff.1 hstands, Option.none_or,
        foundationalError?_eq_some_iff.2 ⟨hseveral, rfl⟩, Option.some_or]
  | unknownDependency hstands hsingle hsplit hfront hentries hbefore hunknown =>
      left
      have hm := dependencyError?_eq_some_iff.2 ⟨_, _, _, hentries, hbefore, hunknown, rfl⟩
      have hfirst := List.findSome?_eq_some_iff.2
        ⟨_, _, _, hsplit, hm, fun w hw => dependencyError?_eq_none_iff.2 (hfront w hw)⟩
      rw [error?, namesStand_iff.1 hstands, Option.none_or,
        foundationalError?_eq_none_iff.2 hsingle, Option.none_or, hfirst, Option.some_or]
  | cycle hstands hcyclic hchain =>
      right
      -- The chain of the fault need not be the one that the search comes upon.
      obtain ⟨other, hother, -⟩ := exists_cycle hstands hcyclic
      exact ⟨_, other, rfl, hother⟩

lemma ofModules_eq_error_iff : ofModules declared = .error e ↔ error? declared = some e := by
  unfold ofModules
  split
  · rename_i e' he
    simp [he]
  · rename_i hnone
    simp [hnone]

/-- A refused declaration is refused with the fault that comes first, and a declaration with a fault
is refused with it; only the choice of the reported cycle is left open. -/
theorem ofModules_rejects (declared : List Module) :
    (∀ e, ofModules declared = .error e → Fault declared e) ∧
      ∀ e, Fault declared e → ofModules declared = .error e ∨
        ∃ names other, e = .cycle names ∧ ofModules declared = .error (.cycle other) := by
  constructor
  · intro e he
    exact fault_of_error? (ofModules_eq_error_iff.1 he)
  · intro e he
    simpa only [ofModules_eq_error_iff] using error?_of_fault he

/-- Modules with faults of every kind. -/
def faulty : List Module :=
  [{ name := "libview", dependsOn := ["libnone"], foundational := true },
    { name := "libcore", dependsOn := ["libcore"], foundational := true }, { name := "lib" },
    { name := "libview" }]

/-- Of all these faults the third name is reported, since it stands in front of the repeated one;
without the last two modules it is the two foundational ones. -/
theorem ofModules_rejects_faulty :
    (ofModules faulty = .error (.unlinkableName "lib") ∧
      Fault faulty (.unlinkableName "lib")) ∧
    Fault (faulty.take 2) (.severalFoundational ["libview", "libcore"]) ∧
      ofModules (faulty.take 2) = .error (.severalFoundational ["libview", "libcore"]) := by
  have herror : ofModules faulty = .error (.unlinkableName "lib") := by cbv
  have hfault : Fault (faulty.take 2) (.severalFoundational ["libview", "libcore"]) :=
    .severalFoundational ⟨by decide, by decide⟩ (by decide)
  refine ⟨⟨herror, (ofModules_rejects faulty).1 _ herror⟩, hfault, ?_⟩
  rcases (ofModules_rejects (faulty.take 2)).2 _ hfault with hreported | ⟨names, other, hcycle, -⟩
  · exact hreported
  · cases hcycle

end BuildGraph

end Drydock
