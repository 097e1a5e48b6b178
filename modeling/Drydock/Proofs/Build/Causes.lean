import Drydock.Build.Verify
import Drydock.Proofs.Build.FailFast

/-!
# Why actions fail

A failure carries the innermost cause, and an activity around an action does not change it.  So a
property of the causes of an action is put together from those of its parts.  A package is refused
where its settings, its declarations or its vendored tree do not fit together, and none of the
actions behind a resolved configuration does that.

The lemmas below follow the actions of a build one by one, each citing those of the actions that it
is made of.  None of them looks into a run: an action that is a chain of actions fails with what one
of them fails with, and the programs in it fail with an error of the operating system or with what
the action makes of their end.  Where an action only touches files, `Build.Silent` says it already.

* `Build.FailsWith` — what the causes of an action have in common.
* `Cause.isRefusal` — the causes that refuse a package.
* `Build.RefusesNothing` — actions that fail for other causes: asking the vendored build, building
  modules, checking their symbols.
-/

namespace Drydock

/-- The package is refused: its settings, its declarations or its vendored tree do not fit
together. -/
def Cause.isRefusal : Cause → Bool
  | .setup _ | .graph _ => true
  | _ => false

namespace Build

variable {α β : Type} {P : Cause → Prop} {b : Build α} {f : α → Build β} {l : Launcher}
  {start stop : Machine} {e : Failure}

/-! ## Causes of an action -/

/-- An action fails for causes with a property only. -/
def FailsWith (P : Cause → Prop) (b : Build α) : Prop :=
  ∀ l m e, (b.run l m).1 = .error e → P e.cause

lemma FailsWith.cause (h : FailsWith P b) (hrun : b.run l start = (.error e, stop)) : P e.cause :=
  h l start e (by rw [hrun])

lemma Silent.failsWith (hP : ∀ e, P (.io e)) (h : Silent b) : FailsWith P b := by
  intro l m e he
  obtain ⟨⟨io, hcause⟩, -⟩ := h.onFiles l m e he
  rw [hcause]
  exact hP io

lemma failsWith_bind (hb : FailsWith P b) (hf : ∀ a, FailsWith P (f a)) :
    FailsWith P (b >>= f) := by
  intro l m e he
  rcases run_bind_eq_error.1 (Prod.ext he rfl) with hrun | ⟨a, mid, -, hrun⟩
  · exact hb.cause hrun
  · exact (hf a).cause hrun

lemma failsWith_during {activity : Activity} (hb : FailsWith P b) :
    FailsWith P (during activity b) := by
  intro l m e he
  rw [run_during] at he
  rcases hrun : b.run l m with ⟨e' | a, mid⟩
  · rw [hrun] at he
    cases he
    show P e'.cause
    exact hb.cause hrun
  · rw [hrun] at he
    cases he

lemma failsWith_outcome : FailsWith P (outcome b) := fun _ _ _ h => by cases h

lemma failsWith_fail (h : P e.cause) : FailsWith P (fail e : Build α) := by
  rintro l m _ ⟨⟩
  exact h

lemma failsWith_launch (hP : ∀ e, P (.io e)) (i : Invocation) (shown : Bool) :
    FailsWith P (launch i shown) := by
  intro l m e he
  unfold run launch at he
  rcases hstart : l m i with ⟨io | exit, tree⟩
  · rw [hstart] at he
    cases he
    exact hP io
  · rw [hstart] at he
    cases he

lemma failsWith_capture (hP : ∀ e, P (.io e)) (i : Invocation) : FailsWith P (capture i) :=
  failsWith_during (failsWith_launch hP i false)

/-! ## Actions that refuse nothing -/

/-- The action does not refuse the package; it fails for other causes only. -/
abbrev RefusesNothing (b : Build α) : Prop := FailsWith (fun cause => cause.isRefusal = false) b

/-- So a failure that refuses the package is not one of the action. -/
lemma RefusesNothing.not_refused (h : RefusesNothing b)
    (hrun : b.run l start = (.error e, stop)) : e.cause.isRefusal ≠ true := by
  have hother : e.cause.isRefusal = false := h.cause hrun
  simp [hother]

lemma refusesNothing_of_silent (h : Silent b) : RefusesNothing b := h.failsWith fun _ => rfl

lemma refusesNothing_runChecked (i : Invocation) : RefusesNothing (runChecked i) := by
  refine failsWith_bind (failsWith_capture (fun _ => rfl) i) fun e => ?_
  split
  · exact refusesNothing_of_silent (silent_pure e)
  · exact failsWith_fail rfl

lemma refusesNothing_showChecked (i : Invocation) : RefusesNothing (showChecked i) := by
  refine failsWith_bind (failsWith_during (failsWith_launch (fun _ => rfl) i true)) fun e => ?_
  split
  · exact refusesNothing_of_silent (silent_pure ())
  · exact failsWith_fail rfl

lemma refusesNothing_queryVariables (dir : Path) (make : String) :
    RefusesNothing (queryVariables dir make) :=
  failsWith_bind (failsWith_during (refusesNothing_runChecked _)) fun _ =>
    failsWith_bind (refusesNothing_of_silent (silent_logAll _ _)) fun _ =>
      refusesNothing_of_silent (silent_pure _)

lemma refusesNothing_makeLibrary (b : LibraryMake) (compileArgs : List String)
    (defines : List Define) (force : Bool) :
    RefusesNothing (makeLibrary b compileArgs defines force) := by
  have hbuild : RefusesNothing (do
      during (.buildingArchive b.archive) (showChecked {
        command := b.command compileArgs defines
        directory := some b.dir })
      return .built : Build LibraryOutcome) :=
    failsWith_bind (failsWith_during (refusesNothing_showChecked _)) fun _ =>
      refusesNothing_of_silent (silent_pure _)
  refine failsWith_bind (refusesNothing_of_silent silent_workspace) fun w => ?_
  split
  · exact refusesNothing_of_silent (silent_bind (silent_log _ _) fun _ => silent_pure _)
  · exact failsWith_bind (refusesNothing_of_silent (silent_log _ _)) fun _ => hbuild

lemma refusesNothing_prebuild (c : BuildContext) (m : Module) (flags : CompilerFlags) :
    RefusesNothing (prebuild c m flags) := by
  by_cases hlibrary : ∃ header, BuildsLibrary c m header
  · obtain ⟨header, hstep, hmode⟩ := hlibrary
    rw [prebuild, hstep]
    show RefusesNothing (prebuildVendored c m flags header)
    rw [prebuildVendored, hmode, if_neg (by simp)]
    split
    · exact failsWith_bind (refusesNothing_of_silent (silent_log _ _)) fun _ =>
        failsWith_bind (refusesNothing_of_silent (silent_writeHeader _ _)) fun _ =>
          failsWith_bind (refusesNothing_makeLibrary _ _ _ _) fun _ =>
            refusesNothing_of_silent (silent_pure _)
    · exact failsWith_fail rfl
  · exact refusesNothing_of_silent (silent_prebuild flags (not_exists.1 hlibrary))

lemma refusesNothing_standardFlags (known : Option (List String)) (t : Toolchain)
    (cflags : List String) (scratch : Path) :
    RefusesNothing (standardFlags known t cflags scratch) := by
  intro l m e he
  obtain ⟨result, stop, hrun, ⟨flags, xs, rfl, -⟩ | ⟨f, rfl, ⟨⟨io, hcause⟩, -⟩, -⟩⟩ :=
    exists_standards known t cflags scratch l m
  · rw [hrun] at he
    cases he
  · rw [hrun] at he
    cases he
    rw [hcause]
    rfl

lemma refusesNothing_runStep (command : Command) (output : Path) {cause : String → Cause}
    (hcause : ∀ text, (cause text).isRefusal = false) :
    RefusesNothing (runStep command output cause) := by
  refine failsWith_bind (refusesNothing_of_silent (silent_ensureDirectoryOf output)) fun _ => ?_
  refine failsWith_bind (refusesNothing_of_silent (silent_log _ _)) fun _ => ?_
  refine failsWith_bind (failsWith_capture (fun _ => rfl) _) fun e => ?_
  split
  · exact refusesNothing_of_silent (silent_pure ())
  · exact failsWith_fail (hcause _)

lemma refusesNothing_compileAll (commands : List (Command × Path × Path)) :
    RefusesNothing (compileAll commands) := by
  induction commands with
  | nil => exact refusesNothing_of_silent (silent_pure ())
  | cons first rest ih =>
      exact failsWith_bind (refusesNothing_runStep _ _ fun _ => rfl) fun _ => ih

lemma refusesNothing_buildModule (c : BuildContext) (g : BuildGraph)
    (known : Option (List String)) (m : Module) : RefusesNothing (buildModule c g known m) :=
  failsWith_bind (refusesNothing_of_silent (silent_log _ _)) fun _ =>
    failsWith_bind (failsWith_during (refusesNothing_prebuild c _ _)) fun _ =>
      failsWith_bind (refusesNothing_standardFlags known _ _ _) fun _ =>
        failsWith_bind (failsWith_bind (refusesNothing_compileAll _) fun _ =>
          refusesNothing_runStep _ _ fun _ => rfl) fun _ =>
            refusesNothing_of_silent (silent_pure _)

lemma refusesNothing_buildAll (c : BuildContext) (g : BuildGraph) (known : Option (List String))
    (modules : List Module) : RefusesNothing (buildAll c g known modules) := by
  induction modules generalizing known with
  | nil => exact refusesNothing_of_silent (silent_pure [])
  | cons m rest ih =>
      exact failsWith_bind (refusesNothing_buildModule c g known m) fun _ =>
        failsWith_bind (ih _) fun _ => refusesNothing_of_silent (silent_pure _)

lemma refusesNothing_checkSymbols (mode : LinkMode)
    {source : Path → Build (Except String SymbolTable)}
    (hsource : ∀ artifact, RefusesNothing (source artifact)) (modules : List BuiltModule)
    (ignored : List String) : RefusesNothing (checkSymbols mode source modules ignored) := by
  have hpure : ∀ {γ : Type} (a : γ), RefusesNothing (pure a : Build γ) := fun a =>
    refusesNothing_of_silent (silent_pure a)
  have htables : RefusesNothing (readTables source modules) := by
    induction modules with
    | nil => exact hpure _
    | cons b rest ih =>
        refine failsWith_bind (hsource b.output) fun table => ?_
        cases table with
        | error message => exact hpure _
        | ok table => exact failsWith_bind ih fun _ => hpure _
  unfold checkSymbols
  split
  · exact hpure _
  · refine failsWith_bind htables fun tables => ?_
    cases tables with
    | error message => exact hpure _
    | ok tables => exact hpure _

lemma silent_logCheck (check : Except (List SymbolConflict) SymbolCheck) :
    Silent (logCheck check) := by
  unfold logCheck
  split
  · exact silent_log _ _
  · exact silent_log _ _
  · exact silent_log _ _
  · exact silent_logAll _ _

lemma refusesNothing_verify (mode : LinkMode) (nm : String) (platform : Platform)
    (modules : List BuiltModule) (ignored : List String) :
    RefusesNothing (verify mode nm platform modules ignored) := by
  have hsource : ∀ tool artifact, RefusesNothing (symbolsOrReason tool platform artifact) :=
    fun tool artifact => failsWith_bind failsWith_outcome fun _ =>
      refusesNothing_of_silent (silent_pure _)
  refine failsWith_bind (refusesNothing_of_silent silent_machine) fun m => ?_
  refine failsWith_bind (refusesNothing_checkSymbols mode (hsource _) modules ignored) fun r => ?_
  refine failsWith_bind (refusesNothing_of_silent (silent_logCheck r)) fun _ => ?_
  intro l m e he
  cases r with
  | ok check => cases he
  | error conflicts =>
      cases he
      rfl

end Build

end Drydock
