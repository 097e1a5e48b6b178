import Drydock.CompilerFlags
import Drydock.Proofs.Flags.Grammar

/-!
# Configure sees the flags that modules are compiled with

The configure script gets its variables as texts, of which one source is chosen for each; a module
gets lists of flags, in which all sources stand behind each other.  What the script sees is part of
what the module gets: the same compiler, and words of its lists in their order.

Only `CFLAGS` is put together from two texts.  A quote that the first one leaves open swallows the
second, so here the quotes of the first one have to be closed.

The two merges treat the sources differently.  For the script one of them is chosen, the environment
before the platform; for a module the words of both are used, those of the platform first.  So the
script never sees a word that the module does not get, but it can miss those of the platform.  For
the compiler, which is one value, the choice is the same on both sides.

Words are compared after cutting, since a text is cut as a whole and a module puts lists together
that were cut before.  For `LDFLAGS` this makes no difference.  `CFLAGS` gets the flags for
position-independent code behind it as text, and only closed quotes guarantee that the words of the
joined text are the words of its two halves.

* `ConfigureVariable.choose_eq_some` — which source a variable is taken from.
* `configureVariables_agree` — the variables, one by one, against the flags of a module.
-/

namespace Drydock

open Flags

variable {tools : ToolVariables} {defaults : CompilerDefaults} {name : String}
  {v : ConfigureVariable}

/-! ## Which variables there are -/

namespace ConfigureVariable

lemma choose_eq_some (h : choose tools defaults name = some v) :
    v.name = name ∧ (tools.get? name).or (defaults.get? name) = some v.value := by
  unfold choose at h
  split at h
  · rename_i value _ hget
    obtain rfl := Option.some.inj h
    simp [hget]
  · rename_i value hget hdefault
    obtain rfl := Option.some.inj h
    simp [hget, hdefault]
  · simp at h

lemma isSome_choose (tools : ToolVariables) (defaults : CompilerDefaults) (name : String) :
    (choose tools defaults name).isSome =
      ((tools.get? name).isSome || (defaults.get? name).isSome) := by
  unfold choose
  split <;> simp [*]

@[simp] lemma withShared_name (defaults : CompilerDefaults) (v : ConfigureVariable) :
    (v.withShared defaults).name = v.name := by
  unfold withShared
  split
  · split <;> rfl
  · rfl

lemma withShared_of_ne (h : v.name ≠ "CFLAGS") : v.withShared defaults = v := by
  unfold withShared
  split
  · rw [if_neg h]
  · rfl

lemma split_withShared (defaults : CompilerDefaults) (hname : v.name = "CFLAGS")
    (hclosed : QuotesClosed v.value) :
    split (v.withShared defaults).value = split v.value ++ splitOption defaults.ccshared := by
  have hspace : ∀ c ∈ " ".toList, Text.isBlank c = true := List.all_eq_true.1 (by decide)
  cases hshared : defaults.ccshared with
  | none => simp [withShared, hshared, splitOption]
  | some ccshared =>
      simpa [withShared, hshared, hname, splitOption] using
        split_append_of_closed hclosed (by decide) hspace ccshared

end ConfigureVariable

/-- The variables stand in their order, and one is there when one of the two sources sets it. -/
lemma map_name_configureVariables (tools : ToolVariables) (defaults : CompilerDefaults) :
    (configureVariables tools defaults).map (·.name) =
      ["CC", "CFLAGS", "LDFLAGS"].filter fun name =>
        (tools.get? name).isSome || (defaults.get? name).isSome := by
  rw [configureVariables, List.map_filterMap, ← List.filterMap_eq_filter]
  -- Name by name: a variable is there exactly when the choice finds a source.
  refine List.filterMap_congr fun name _ => ?_
  simp only [← ConfigureVariable.isSome_choose]
  cases hchoose : ConfigureVariable.choose tools defaults name with
  | none => simp [Option.guard, hchoose]
  | some v => simp [Option.guard, hchoose, (ConfigureVariable.choose_eq_some hchoose).1]

lemma value_of_mem (h : v ∈ configureVariables tools defaults) (hname : v.name = name)
    (hne : name ≠ "CFLAGS") : (tools.get? name).or (defaults.get? name) = some v.value := by
  obtain ⟨key, -, hkey⟩ := List.mem_filterMap.1 h
  obtain ⟨u, hu, rfl⟩ := Option.map_eq_some_iff.1 hkey
  obtain ⟨rfl, hvalue⟩ := ConfigureVariable.choose_eq_some hu
  rw [ConfigureVariable.withShared_name] at hname
  rwa [ConfigureVariable.withShared_of_ne (hname ▸ hne), ← hname]

/-- `CFLAGS` has the value of the source that is chosen, with the flags for position-independent
code behind it. -/
lemma exists_cflags {base : String} (h : tools.cflags.or defaults.cflags = some base) :
    ∃ u : ConfigureVariable, u.name = "CFLAGS" ∧ u.value = base ∧
      u.withShared defaults ∈ configureVariables tools defaults := by
  have hget : (tools.get? "CFLAGS").or (defaults.get? "CFLAGS") = some base := h
  have hsome : (ConfigureVariable.choose tools defaults "CFLAGS").isSome = true := by
    rw [ConfigureVariable.isSome_choose, ← Option.isSome_or, hget]
    rfl
  obtain ⟨u, hu⟩ := Option.isSome_iff_exists.1 hsome
  obtain ⟨hname, hvalue⟩ := ConfigureVariable.choose_eq_some hu
  have hmem : u.withShared defaults ∈ configureVariables tools defaults :=
    List.mem_filterMap.2 ⟨"CFLAGS", by simp, by rw [hu, Option.map_some]⟩
  exact ⟨u, hname, Option.some_inj.1 (hvalue.symm.trans hget), hmem⟩

/-! ## Words of one source and of both -/

lemma splitOption_or_sublist (a b : Option String) :
    (splitOption (a.or b)).Sublist (splitOption b ++ splitOption a) := by
  cases a with
  | none => simp [splitOption]
  | some value => exact List.sublist_append_right _ _

/-- The variables of the configure script agree with the flags of every module.  The compiler is the
same, the words of `LDFLAGS` are some of the link flags in their order, and so are those of `CFLAGS`
and the compile flags where the quotes of the chosen value are closed: they are its words and all
those for position-independent code.  A variable is left out when no source sets it. -/
theorem configureVariables_agree (tools : ToolVariables) (defaults : CompilerDefaults)
    (m : Module) :
    ((configureVariables tools defaults).map (·.name) =
        ["CC", "CFLAGS", "LDFLAGS"].filter fun name =>
          (tools.get? name).isSome || (defaults.get? name).isSome) ∧
      (∀ v ∈ configureVariables tools defaults, v.name = "CC" →
        v.value = (CompilerFlags.merge tools defaults m).cc) ∧
      (∀ v ∈ configureVariables tools defaults, v.name = "LDFLAGS" →
        (split v.value).Sublist (CompilerFlags.merge tools defaults m).ldflags) ∧
      ∀ base, tools.cflags.or defaults.cflags = some base →
        ∃ v ∈ configureVariables tools defaults, v.name = "CFLAGS" ∧
          (QuotesClosed base → split v.value = split base ++ splitOption defaults.ccshared ∧
            (split v.value).Sublist (CompilerFlags.merge tools defaults m).cflags) := by
  refine ⟨map_name_configureVariables tools defaults, fun v hv hname => ?_, fun v hv hname => ?_,
    fun base hbase => ?_⟩
  · have hcc : tools.cc.or defaults.cc = some v.value := value_of_mem hv hname (by decide)
    rw [CompilerFlags.merge, hcc]
    rfl
  · have hldflags : tools.ldflags.or defaults.ldflags = some v.value :=
      value_of_mem hv hname (by decide)
    have hwords := splitOption_or_sublist tools.ldflags defaults.ldflags
    rw [hldflags] at hwords
    -- The words of both sources stand in front of all other link flags.
    exact ((hwords.trans (List.sublist_append_left _ _)).trans (List.sublist_append_left _ _)).trans
      (List.sublist_append_left _ _)
  · obtain ⟨u, hname, rfl, hmem⟩ := exists_cflags hbase
    refine ⟨_, hmem, by rw [ConfigureVariable.withShared_name, hname], fun hclosed => ?_⟩
    -- With closed quotes the text is cut where its two halves meet.
    have hvalue := ConfigureVariable.split_withShared defaults hname hclosed
    have hwords := splitOption_or_sublist tools.cflags defaults.cflags
    rw [hbase] at hwords
    refine ⟨hvalue, ?_⟩
    rw [hvalue]
    exact (hwords.append (List.Sublist.refl _)).trans (List.sublist_append_left _ _)

theorem configureVariables_agree_quotedCflags :
    QuotesClosed "-D'A B'" ∧
      ∃ v ∈ configureVariables { cflags := some "-D'A B'" } (.ofPlatform .elf),
        v.name = "CFLAGS" ∧ split v.value = ["-DA B", "-fPIC"] ∧
          (split v.value).Sublist (CompilerFlags.merge { cflags := some "-D'A B'" }
            (.ofPlatform .elf) { name := "libcore" }).cflags := by
  have hclosed : QuotesClosed "-D'A B'" := by decide
  obtain ⟨-, -, -, hcflags⟩ := configureVariables_agree { cflags := some "-D'A B'" }
    (.ofPlatform .elf) { name := "libcore" }
  obtain ⟨v, hv, hname, hagree⟩ := hcflags "-D'A B'" rfl
  obtain ⟨hwords, hsublist⟩ := hagree hclosed
  exact ⟨hclosed, v, hv, hname, hwords.trans (by decide), hsublist⟩

/-- A quote left open by the environment swallows the flags for position-independent code. -/
example : (configureVariables { cflags := some "-D'A" } (.ofPlatform .elf)).map
      (fun v => split v.value) = [["cc"], ["-DA -fPIC"]] := by
  decide

end Drydock
