import Drydock.Build.Resolve
import Drydock.Proofs.Build.Files

/-!
# What every resolved run keeps

A relation that holds across every message, every change and every end of a program holds across the
actions below, whether or not they succeed.  Each action asks only for what it does itself: the
selection of a mode reports, the writing of features changes files, and only the vendored library
starts programs.

The hypotheses `Accrues`, `AccruesChanges` and `AccruesLaunches` are the three degrees of this.  An
action that keeps more relations does less, so the weakest hypothesis of a lemma is a statement
about the action: it says which kinds of steps it can take.

* `keeps_selectMode` — reports and nothing else.
* `keeps_writeFeatures` — changes files and starts nothing.
* `keeps_configureVendored`, `keeps_queryVariables`, `keeps_resolveBuiltin` — start programs.
-/

namespace Drydock

namespace Build

variable {R : Machine → Machine → Prop}

/-! ## Settings -/

lemma keeps_warnOverruled (hR : Accrues R) (s : Settings) : Keeps R (warnOverruled s) := by
  unfold warnOverruled
  split
  · exact keeps_log hR _ _
  · exact keeps_pure hR ()

lemma keeps_selectMode (hR : Accrues R) (s : Settings) : Keeps R (selectMode s) :=
  keeps_bind hR (keeps_warnOverruled hR s) fun _ => keeps_ofSetup hR _

/-! ## The vendored library -/

lemma keeps_capture (hR : AccruesLaunches R) (i : Invocation) : Keeps R (capture i) :=
  keeps_during (keeps_launch hR i false)

lemma keeps_tryConfigure (hR : AccruesLaunches R) (dir : Path) (vars : List ConfigureVariable)
    (options : String) : Keeps R (tryConfigure dir vars options) := by
  have hA := hR.toAccrues
  refine keeps_bind hA (keeps_log hA _ _) fun _ => ?_
  refine keeps_bind hA (keeps_outcome (keeps_capture hR _)) fun result => ?_
  cases result with
  | error f => exact keeps_bind hA (keeps_log hA _ _) fun _ => keeps_pure hA _
  | ok e =>
      dsimp only
      split
      · exact keeps_pure hA _
      · refine keeps_bind hA (keeps_log hA _ _) fun _ => ?_
        exact keeps_bind hA (keeps_logAll hA _ _) fun _ => keeps_pure hA _

lemma keeps_firstAccepted (hR : AccruesLaunches R) (dir : Path) (vars : List ConfigureVariable)
    (candidates : List String) : Keeps R (firstAccepted dir vars candidates) := by
  induction candidates with
  | nil => exact keeps_pure hR.toAccrues _
  | cons options rest ih =>
      refine keeps_bind hR.toAccrues (keeps_tryConfigure hR dir vars options) fun accepted => ?_
      split
      · exact keeps_pure hR.toAccrues _
      · exact ih

lemma keeps_configureLibrary (hR : AccruesLaunches R) (dir : Path) (preferred : Option String)
    (fallbacks : List String) (vars : List ConfigureVariable) :
    Keeps R (configureLibrary dir preferred fallbacks vars) := by
  refine keeps_bind hR.toAccrues (keeps_workspace hR.toAccrues) fun w => ?_
  split
  · refine keeps_bind hR.toAccrues (keeps_fail hR.toAccrues _) fun _ => ?_
    exact keeps_firstAccepted hR dir vars _
  · exact keeps_firstAccepted hR dir vars _

lemma keeps_configureVendored (hR : AccruesLaunches R) (v : Vendored) (dir : Path) (s : Settings)
    (d : CompilerDefaults) : Keeps R (configureVendored v dir s d) := by
  have hA := hR.toAccrues
  refine keeps_bind hA (keeps_log hA _ _) fun _ => ?_
  refine keeps_bind hA (keeps_logAll hA _ _) fun _ => ?_
  refine keeps_bind hA (keeps_configureLibrary hR dir _ _ _) fun chosen => ?_
  cases chosen with
  | some options => exact keeps_bind hA (keeps_log hA _ _) fun _ => keeps_pure hA _
  | none =>
      refine keeps_bind hA (keeps_log hA _ _) fun _ => ?_
      exact keeps_bind hA (keeps_writeMinimalHeader hR.toAccruesChanges _) fun _ => keeps_pure hA _

lemma keeps_runChecked (hR : AccruesLaunches R) (i : Invocation) : Keeps R (runChecked i) := by
  refine keeps_bind hR.toAccrues (keeps_capture hR i) fun e => ?_
  split
  · exact keeps_pure hR.toAccrues e
  · exact keeps_fail hR.toAccrues _

lemma keeps_queryVariables (hR : AccruesLaunches R) (dir : Path) (program : String) :
    Keeps R (queryVariables dir program) := by
  refine keeps_bind hR.toAccrues (keeps_during (keeps_runChecked hR _)) fun e => ?_
  exact keeps_bind hR.toAccrues (keeps_logAll hR.toAccrues _ _) fun _ => keeps_pure hR.toAccrues _

/-! ## Resolving -/

lemma keeps_resolveBuiltin (hR : AccruesLaunches R) (m : Manifest) (v : Vendored) (dir : Path)
    (mode : LinkMode) (s : Settings) (d : CompilerDefaults) :
    Keeps R (resolveBuiltin m v dir mode s d) := by
  have hA := hR.toAccrues
  refine keeps_bind hA (keeps_configureVendored hR v dir s d) fun chosen => ?_
  refine keeps_bind hA (keeps_queryVariables hR dir _) fun make => ?_
  refine keeps_bind hA (keeps_logAll hA _ _) fun _ => ?_
  exact keeps_bind hA (keeps_writeText hR.toAccruesChanges _ _) fun _ => keeps_ofSetup hA _

lemma keeps_featureDefines (hR : Accrues R) (source : LibrarySource) (dir : Path) :
    Keeps R (featureDefines source dir) := by
  have hread := keeps_readText hR (configHeaderOf dir)
  refine keeps_bind hR (keeps_workspace hR) fun w => ?_
  split
  · exact keeps_bind hR hread fun _ => keeps_pure hR _
  · exact keeps_pure hR _

lemma keeps_writeFeatures (hR : AccruesChanges R) (m : Manifest) (v : Vendored) (dir : Path)
    (r : Resolution) : Keeps R (writeFeatures m v dir r) := by
  unfold writeFeatures
  split
  · exact keeps_pure hR.toAccrues ()
  · refine keeps_bind hR.toAccrues (keeps_featureDefines hR.toAccrues _ _) fun defines => ?_
    exact keeps_writeConfigValues hR _ _

end Build

end Drydock
