import Drydock.Plan
import Drydock.Proofs.ConfigureVariables

/-!
# Empty variables

An empty `SLIPWAY_` variable counts as absent, and an empty compiler variable does not.  So the
settings of an environment can differ from those of the same environment without its empty values,
but only in the five compiler variables.  The mode, the directories and the configure options that
are tried first never change; an empty `MAKE` changes the program that drives the vendored build, an
empty `CC`, `CFLAGS` or `LDFLAGS` the variables of the configure script, and an empty `CC` every
plan, unless the host has an empty compiler itself.

An environment is read through a look-up, so the environment without its empty values is the same
look-up with a filter behind it.  Filtering twice is filtering once, and the `SLIPWAY_` variables
are looked up through the filter in any case; hence everything that is made of them alone is
unchanged, and the two settings differ in the compiler variables or not at all.

What an empty compiler variable changes depends on who reads it.  Flags are cut into words, and the
empty text has none, so for the flags of a module empty and absent are the same.  The compiler and
the make program are single values, which an empty text replaces.  The configure script gets a
variable with its origin, so there an empty value is seen even if the host has an empty value too,
because the origin is another one.

* `ToolVariables.dropEmpty` — compiler variables without the empty ones.
* `Settings.ofVariables_nonEmpty` — what reading without empty values changes.
* `Settings.ofVariables_nonEmpty_iff` — when it changes nothing, and what each empty value changes.
-/

namespace Drydock

variable {get : Variables} {tools : ToolVariables} {defaults : CompilerDefaults} {name : String}
  {o : Option String}

/-! ## Values that may be empty -/

/-- A value that is not empty. -/
def presentValue (o : Option String) : Option String := o.filter (· ≠ "")

@[simp] lemma presentValue_none : presentValue none = none := rfl

@[simp] lemma presentValue_empty : presentValue (some "") = none := rfl

lemma presentValue_of_ne (h : o ≠ some "") : presentValue o = o := by
  cases o with
  | none => rfl
  | some value =>
      have hvalue : value ≠ "" := fun heq => h (congrArg some heq)
      simp [presentValue, hvalue]

lemma presentValue_eq_self_iff : presentValue o = o ↔ o ≠ some "" := by
  refine ⟨?_, presentValue_of_ne⟩
  rintro h rfl
  simp at h

lemma splitOption_presentValue (o : Option String) :
    Flags.splitOption (presentValue o) = Flags.splitOption o := by
  by_cases h : o = some ""
  · subst h
    rfl
  · rw [presentValue_of_ne h]

/-! ## Compiler variables -/

namespace ToolVariables

/-- The compiler variables of which an empty value is not taken as absent. -/
def names : List String := ["CC", "CPPFLAGS", "CFLAGS", "LDFLAGS", "MAKE"]

/-- The same variables without the empty ones. -/
def dropEmpty (v : ToolVariables) : ToolVariables :=
  { v with
    cc := presentValue v.cc
    cppflags := presentValue v.cppflags
    cflags := presentValue v.cflags
    ldflags := presentValue v.ldflags
    make := presentValue v.make }

lemma ofVariables_nonEmpty (get : Variables) :
    ofVariables (Settings.nonEmpty get) = (ofVariables get).dropEmpty := by
  simp [ofVariables, dropEmpty, presentValue, Settings.nonEmpty]

lemma dropEmpty_ofVariables_iff (get : Variables) :
    (ofVariables get).dropEmpty = ofVariables get ↔ ∀ name ∈ names, get name ≠ some "" := by
  simp [ofVariables, dropEmpty, names, presentValue_eq_self_iff]

lemma get?_dropEmpty (v : ToolVariables) (name : String) :
    v.dropEmpty.get? name = presentValue (v.get? name) := by
  unfold get? dropEmpty
  split_ifs <;> rfl

lemma makeProgram_dropEmpty_iff (v : ToolVariables) :
    v.dropEmpty.makeProgram = v.makeProgram ↔ v.make ≠ some "" := by
  constructor
  · intro h hmake
    simp [makeProgram, dropEmpty, hmake] at h
  · intro h
    rw [makeProgram, dropEmpty, presentValue_of_ne h, makeProgram]

end ToolVariables

/-! ## What reads the compiler variables -/

/-- The variables that the configure script gets. -/
def scriptNames : List String := ["CC", "CFLAGS", "LDFLAGS"]

@[simp] lemma withShared_origin (defaults : CompilerDefaults) (v : ConfigureVariable) :
    (v.withShared defaults).origin = v.origin := by
  unfold ConfigureVariable.withShared
  split
  · split <;> rfl
  · rfl

lemma origin_of_choose {v : ConfigureVariable}
    (h : ConfigureVariable.choose tools defaults name = some v) :
    v.origin = .environment ↔ (tools.get? name).isSome = true := by
  unfold ConfigureVariable.choose at h
  split at h
  · rename_i value _ hget
    obtain rfl := Option.some.inj h
    simp [hget]
  · rename_i value hget _
    obtain rfl := Option.some.inj h
    simp [hget]
  · simp at h

lemma exists_environment_iff (defaults : CompilerDefaults) (hname : name ∈ scriptNames) :
    (∃ v ∈ configureVariables tools defaults, v.name = name ∧ v.origin = .environment) ↔
      (tools.get? name).isSome = true := by
  constructor
  · rintro ⟨v, hv, rfl, horigin⟩
    obtain ⟨key, -, hkey⟩ := List.mem_filterMap.1 hv
    obtain ⟨u, hu, rfl⟩ := Option.map_eq_some_iff.1 hkey
    rw [ConfigureVariable.withShared_name, (ConfigureVariable.choose_eq_some hu).1]
    exact (origin_of_choose hu).1 (by simpa using horigin)
  · intro hsome
    have hchoose : (ConfigureVariable.choose tools defaults name).isSome = true := by
      rw [ConfigureVariable.isSome_choose, hsome, Bool.true_or]
    obtain ⟨u, hu⟩ := Option.isSome_iff_exists.1 hchoose
    refine ⟨u.withShared defaults, ?_, ?_, ?_⟩
    · exact List.mem_filterMap.2 ⟨name, hname, by rw [hu, Option.map_some]⟩
    · rw [ConfigureVariable.withShared_name, (ConfigureVariable.choose_eq_some hu).1]
    · rw [withShared_origin, origin_of_choose hu, hsome]

/-- Each variable of the script changes when it is empty: it loses its value, or is taken from the
host. -/
lemma configureVariables_dropEmpty_iff (tools : ToolVariables) (defaults : CompilerDefaults) :
    configureVariables tools.dropEmpty defaults = configureVariables tools defaults ↔
      ∀ name ∈ scriptNames, tools.get? name ≠ some "" := by
  constructor
  · intro h name hname hempty
    -- An empty value still comes from the environment, and without it nothing does.
    have hthere := (exists_environment_iff defaults hname).2 (by rw [hempty]; rfl)
    rw [← h, exists_environment_iff defaults hname, ToolVariables.get?_dropEmpty, hempty] at hthere
    simp at hthere
  · intro h
    refine List.filterMap_congr fun name hname => ?_
    have hsame : tools.dropEmpty.get? name = tools.get? name := by
      rw [ToolVariables.get?_dropEmpty, presentValue_of_ne (h name hname)]
    rw [ConfigureVariable.choose, hsame, ConfigureVariable.choose]

/-- Of the flags of a module an empty variable changes the compiler at most. -/
lemma merge_dropEmpty (tools : ToolVariables) (defaults : CompilerDefaults) (m : Module) :
    CompilerFlags.merge tools.dropEmpty defaults m =
      { CompilerFlags.merge tools defaults m with
        cc := ((presentValue tools.cc).or defaults.cc).getD "gcc" } := by
  simp [CompilerFlags.merge, ToolVariables.dropEmpty, splitOption_presentValue]

lemma cc_presentValue_iff (o o' : Option String) :
    ((presentValue o).or o').getD "gcc" = (o.or o').getD "gcc" ↔ (o = some "" → o' = some "") := by
  by_cases h : o = some ""
  · subst h
    cases o' with
    | none => simp
    | some value => simp
  · rw [presentValue_of_ne h]
    simp [h]

/-! ## Settings -/

namespace Settings

/-- The same settings without empty compiler variables. -/
def dropEmpty (s : Settings) : Settings := { s with tools := s.tools.dropEmpty }

/-- Without the empty values of an environment its settings have no empty compiler variables, and
are the same otherwise. -/
lemma ofVariables_nonEmpty (get : Variables) :
    ofVariables (nonEmpty get) = (ofVariables get).map dropEmpty := by
  have hown : ∀ key, nonEmpty (nonEmpty get) key = nonEmpty get key := by
    intro key
    simp [nonEmpty, Option.filter_filter]
  rw [ofVariables, ofVariables]
  simp only [hown, ToolVariables.ofVariables_nonEmpty]
  cases requestedModeOf (nonEmpty get linkModeVariable) with
  | error e => rfl
  | ok mode => rfl

lemma tools_of_ofVariables {s : Settings} (h : ofVariables get = .ok s) :
    s.tools = .ofVariables get := by
  rw [ofVariables] at h
  cases hmode : requestedModeOf (nonEmpty get linkModeVariable) with
  | error e => simp [hmode, bind, Except.bind] at h
  | ok mode =>
      rw [hmode] at h
      obtain rfl := Except.ok.inj h
      rfl

lemma planModule_dropEmpty_iff (c : BuildContext) (g : BuildGraph) (m : Module) (s : Settings) :
    { c with settings := s.dropEmpty }.planModule g m = { c with settings := s }.planModule g m ↔
      (s.tools.cc = some "" → c.defaults.cc = some "") := by
  have hflags : ∀ m, { c with settings := s.dropEmpty }.flags m =
      { { c with settings := s }.flags m with
        cc := ((presentValue s.tools.cc).or c.defaults.cc).getD "gcc" } :=
    merge_dropEmpty s.tools c.defaults
  rw [← cc_presentValue_iff]
  constructor
  · intro h
    have hcc := congrArg (fun plan => plan.flags.cc) h
    exact hcc
  · intro h
    have hsame : ∀ m, { c with settings := s.dropEmpty }.flags m =
        { c with settings := s }.flags m := by
      intro m
      rw [hflags, h]
      rfl
    -- A plan is made of the flags and of what does not depend on the settings.
    exact congrArg (fun flags => c.planPrepared g ({ c with settings := s }.prepare g m)
      (c.toolchain flags) flags) (hsame _)

/-- Empty values count as absent exactly where no compiler variable is empty, or where no settings
are read at all because the requested mode is unknown.  Otherwise the settings differ in the empty
compiler variables alone: mode, directories and first configure options are the same, and the
program that drives the vendored build, the variables of the configure script and the plans change
each by the empty variables that they are made of. -/
theorem ofVariables_nonEmpty_iff (get : Variables) :
    (ofVariables (nonEmpty get) = ofVariables get ↔
      (∃ e, ofVariables get = .error e) ∨ ∀ name ∈ ToolVariables.names, get name ≠ some "") ∧
    (∀ e, ofVariables get = .error e → ofVariables (nonEmpty get) = .error e) ∧
    ∀ s, ofVariables get = .ok s → ∃ s', ofVariables (nonEmpty get) = .ok s' ∧
      s' = { s with tools := s.tools.dropEmpty } ∧ s'.selectMode = s.selectMode ∧
      (∀ v, Resolution.preferredOptions s' v = Resolution.preferredOptions s v) ∧
      (∀ mode v dir make options, Resolution.forMode mode v dir s' make options =
        Resolution.forMode mode v dir s make options) ∧
      (s'.tools.makeProgram = s.tools.makeProgram ↔ get "MAKE" ≠ some "") ∧
      (∀ defaults, configureVariables s'.tools defaults = configureVariables s.tools defaults ↔
        ∀ name ∈ scriptNames, get name ≠ some "") ∧
      ∀ (c : BuildContext) (g : BuildGraph) (m : Module),
        { c with settings := s' }.planModule g m = { c with settings := s }.planModule g m ↔
          (get "CC" = some "" → c.defaults.cc = some "") := by
  refine ⟨?_, fun e he => ?_, fun s hs => ?_⟩
  · rw [ofVariables_nonEmpty]
    cases hread : ofVariables get with
    | error e => simp [Except.map]
    | ok s =>
        have hsame : s.dropEmpty = s ↔ s.tools.dropEmpty = s.tools :=
          ⟨congrArg Settings.tools, fun h => by rw [dropEmpty, h]⟩
        rw [Except.map, Except.ok.injEq, hsame, tools_of_ofVariables hread,
          ToolVariables.dropEmpty_ofVariables_iff]
        simp
  · rw [ofVariables_nonEmpty, he]
    rfl
  · have htools := tools_of_ofVariables hs
    refine ⟨s.dropEmpty, by rw [ofVariables_nonEmpty, hs]; rfl, rfl, rfl, fun _ => rfl, ?_, ?_, ?_,
      ?_⟩
    · intro mode v dir make options
      cases mode <;> rfl
    · rw [dropEmpty, ToolVariables.makeProgram_dropEmpty_iff, htools]
      rfl
    · intro defaults
      have hget : ∀ name ∈ scriptNames, s.tools.get? name = get name := by
        rw [htools]
        simp [scriptNames, ToolVariables.get?, ToolVariables.ofVariables]
      rw [dropEmpty, configureVariables_dropEmpty_iff]
      exact forall₂_congr fun name hname => by rw [hget name hname]
    · intro c g m
      rw [planModule_dropEmpty_iff, htools]
      rfl

/-- An environment that exports some variables, empty. -/
def exportedEmpty (names : List String) : Variables := fun name =>
  if name ∈ names then some "" else none

theorem ofVariables_nonEmpty_iff_emptyMake : ∃ s s',
    ofVariables (exportedEmpty ["SLIPWAY_LINK_MODE", "CFLAGS", "MAKE"]) = .ok s ∧
      ofVariables (nonEmpty (exportedEmpty ["SLIPWAY_LINK_MODE", "CFLAGS", "MAKE"])) = .ok s' ∧
      s'.selectMode = s.selectMode ∧ s'.tools.makeProgram ≠ s.tools.makeProgram ∧
      configureVariables s'.tools (.ofPlatform .elf) ≠
        configureVariables s.tools (.ofPlatform .elf) := by
  obtain ⟨s, hs⟩ : ∃ s, ofVariables (exportedEmpty ["SLIPWAY_LINK_MODE", "CFLAGS", "MAKE"]) =
      .ok s := ⟨_, rfl⟩
  obtain ⟨-, -, hread⟩ :=
    ofVariables_nonEmpty_iff (exportedEmpty ["SLIPWAY_LINK_MODE", "CFLAGS", "MAKE"])
  obtain ⟨s', hs', -, hmode, -, -, hmake, hscript, -⟩ := hread s hs
  refine ⟨s, s', hs, hs', hmode, fun h => hmake.1 h (by decide), fun h => ?_⟩
  exact (hscript _).1 h "CFLAGS" (by decide) (by decide)

/-- An exported but empty `CC` takes the place of the compiler of the host. -/
theorem ofVariables_nonEmpty_ne_emptyCompiler :
    ofVariables (nonEmpty (exportedEmpty ["CC"])) ≠ ofVariables (exportedEmpty ["CC"]) ∧
      (CompilerFlags.merge (.ofVariables (exportedEmpty ["CC"])) (.ofPlatform .darwin)
        { name := "libcore" }).cc = "" ∧
      (CompilerFlags.merge (.ofVariables (nonEmpty (exportedEmpty ["CC"]))) (.ofPlatform .darwin)
        { name := "libcore" }).cc = "clang" := by
  refine ⟨?_, by decide, by decide⟩
  decide

end Settings

end Drydock
