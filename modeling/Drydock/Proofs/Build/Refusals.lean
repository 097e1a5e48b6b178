import Drydock.Build.Session
import Drydock.Proofs.Build.Causes
import Drydock.Proofs.Build.Configure

/-!
# Refused packages

Settings, declarations and the vendored tree are checked before the first program is started, except
for the variable that lists the objects of the library: only the vendored build can tell whether
there is one.  So a refused package has not been touched, or the library has been configured and
asked, and no more.

The proofs go through a session from its beginning.  At each action either the run has failed there,
and the failure is looked at, or it goes on with what has been done so far.  Actions that refuse
nothing (`Build.RefusesNothing`) drop out at once, and what remains are the few places that check
something.  All of them but one lie in front of the first program.

* `Build.OnlyConfigured` — nothing but the configure script and the question for variables ran.
* `Build.resolve_refused`, `Build.openSession_refused` — what is done where a package is refused.
* `Build.buildPackage_refused` — what a build that is refused has done.
-/

namespace Drydock

namespace Build

variable {l : Launcher} {start stop : Machine} {e : Failure} {m : Manifest} {v : Vendored}
  {dir : Path} {s : Settings} {d : CompilerDefaults} {mode : LinkMode}

/-! ## Resolving -/

lemma configureVendored_refused
    (hrun : (configureVendored v dir s d).run l start = (.error e, stop))
    (hrefused : e.cause.isRefusal = true) : Reports start stop := by
  obtain ⟨before, tail, hlog, htail, heq⟩ := exists_configureLibrary v dir s d l start
  rw [heq] at hrun
  rcases run_bind_eq_error.1 hrun with hrun | ⟨chosen, configured, -, hrun⟩
  · rwa [configureLibrary_eq_error hrun]
  · exact absurd hrefused ((refusesNothing_of_silent (htail chosen)).not_refused hrun)

/-- Between two machines the configure script was tried, with candidates in their order and each of
them once, and the vendored build was asked for its variables.  Nothing else was started. -/
def OnlyConfigured (l : Launcher) (m : Manifest) (v : Vendored) (s : Settings)
    (d : CompilerDefaults) (start stop : Machine) : Prop :=
  let query := queryInvocation (m.path v.path) s.tools.makeProgram
  ∃ (xs : List Attempt) (asked : Machine),
    xs.map (·.options) <+:
        configureCandidates (Resolution.preferredOptions s v) v.configureFallbacks ∧
      stop.started = start.started ++
        xs.map (Attempt.event l (m.path v.path) (configureVariables s.tools d)) ++
        [.ran query (l asked query).1 false]

/-- In the modes that build the library all that can be missing is the list of its objects. -/
lemma forMode_eq_error {make : MakeVariables} {chosen : Option String} {reason : SetupError}
    (hbuilds : mode.buildsVendored = true)
    (h : Resolution.forMode mode v dir s make chosen = .error reason) :
    reason = .missingMakeVariable v.objectsVariable := by
  cases mode with
  | external => cases hbuilds
  | separate => cases h
  | shared =>
      rw [Resolution.forMode, MakeVariables.objects] at h
      cases hget : make.get? v.objectsVariable with
      | some value =>
          rw [hget] at h
          cases h
      | none =>
          rw [hget] at h
          cases h
          rfl

lemma OnlyConfigured.of_reports {before : Machine} (hlog : Reports start before)
    (h : OnlyConfigured l m v s d before stop) : OnlyConfigured l m v s d start stop := by
  obtain ⟨xs, asked, hoptions, hstarted⟩ := h
  rw [startsNothing_of_reports hlog] at hstarted
  exact ⟨xs, asked, hoptions, hstarted⟩

/-- A library that is refused is either not touched, or has reported no list of its objects. -/
lemma resolveBuiltin_refused (hbuilds : mode.buildsVendored = true)
    (hrun : (resolveBuiltin m v (m.path v.path) mode s d).run l start = (.error e, stop))
    (hrefused : e.cause.isRefusal = true) : Reports start stop ∨
      e.cause = .setup (.missingMakeVariable v.objectsVariable) ∧
        OnlyConfigured l m v s d start stop := by
  rcases run_bind_eq_error.1 hrun with hrun | ⟨chosen, configured, hconfigure, hrun⟩
  · exact .inl (configureVendored_refused hrun hrefused)
  obtain ⟨xs, hoptions, hconfigured⟩ := configureVendored_started hconfigure
  rcases run_bind_eq_error.1 hrun with hrun | ⟨make, asked, hquery, hrun⟩
  · exact absurd hrefused ((refusesNothing_queryVariables _ _).not_refused hrun)
  have hasked := queryVariables_started hquery
  rcases run_bind_eq_error.1 hrun with hrun | ⟨_, logged, hlog, hrun⟩
  · exact absurd hrefused ((refusesNothing_of_silent (silent_logAll _ _)).not_refused hrun)
  rcases run_bind_eq_error.1 hrun with hrun | ⟨_, recorded, hwrite, hrun⟩
  · exact absurd hrefused ((refusesNothing_of_silent (silent_writeText _ _)).not_refused hrun)
  have hquiet := ((silent_logAll _ _).startsNothing hlog).trans
    ((silent_writeText _ _).startsNothing hwrite)
  refine .inr ?_
  -- All programs have run by now, and the last check is that of their report.
  cases hmode : Resolution.forMode mode v (m.path v.path) s make chosen with
  | ok r =>
      rw [hmode] at hrun
      cases hrun
  | error reason =>
      rw [hmode] at hrun
      obtain ⟨⟨⟩, rfl⟩ := Prod.mk.inj hrun
      refine ⟨by rw [forMode_eq_error hbuilds hmode]; rfl, xs, configured, hoptions, ?_⟩
      rw [hquiet, hasked, hconfigured]

lemma silent_writeFeatures (m : Manifest) (v : Vendored) (dir : Path) (r : Resolution) :
    Silent (writeFeatures m v dir r) := by
  have hdefines : ∀ source, Silent (featureDefines source dir) := by
    intro source
    refine silent_bind silent_workspace fun w => ?_
    split
    · exact silent_bind (silent_inspect rfl _) fun _ => silent_pure _
    · exact silent_pure _
  unfold writeFeatures
  split
  · exact silent_pure ()
  · exact silent_bind (hdefines _) fun _ => silent_writeConfigValues _ _

lemma silent_writeDefaultHeaders (m : Manifest) (v : Vendored) :
    Silent (writeDefaultHeaders m v) :=
  silent_bind (silent_ensureHeaders _) fun _ => silent_logAll _ _

lemma resolve_refused (hrun : (resolve m s d).run l start = (.error e, stop))
    (hrefused : e.cause.isRefusal = true) : Reports start stop ∨
      ∃ v, m.vendored = some v ∧ e.cause = .setup (.missingMakeVariable v.objectsVariable) ∧
        OnlyConfigured l m v s d start stop := by
  rcases run_bind_eq_error.1 hrun with hrun | ⟨mode, selected, hselect, hrun⟩
  · exact .inl ((keeps_selectMode accrues_reports s).of_run hrun)
  have hselected := (keeps_selectMode accrues_reports s).of_run hselect
  rcases run_bind_eq_error.1 hrun with hrun | ⟨_, logged, hlog, hrun⟩
  · cases hrun
  have hfront := accrues_reports.trans hselected ((keeps_log accrues_reports _ _).of_run hlog)
  cases hv : m.vendored with
  | none =>
      simp only [hv, Manifest.vendoredDir?, Option.map_none] at hrun
      have hstandalone : Silent (do
          log .debug "no vendored library declared"
          return Resolution.standalone mode : Build Resolution) :=
        silent_bind (silent_log _ _) fun _ => silent_pure _
      exact absurd hrefused ((refusesNothing_of_silent hstandalone).not_refused hrun)
  | some v =>
      simp only [hv, Manifest.vendoredDir?, Option.map_some] at hrun
      -- Behind the resolution files are written and nothing is checked any more.
      have htail : ∀ r : Resolution, Silent (do
          writeFeatures m v (m.path v.path) r
          writeDefaultHeaders m v
          return r : Build Resolution) := fun r =>
        silent_bind (silent_writeFeatures m v _ r) fun _ =>
          silent_bind (silent_writeDefaultHeaders m v) fun _ => silent_pure r
      cases hbuilds : mode.buildsVendored with
      | true =>
          rw [hbuilds, if_pos rfl] at hrun
          rcases run_bind_eq_error.1 hrun with hrun | ⟨r, built, -, hrun⟩
          · rcases resolveBuiltin_refused hbuilds hrun hrefused with hlog | ⟨hcause, honly⟩
            · exact .inl (accrues_reports.trans hfront hlog)
            · exact .inr ⟨v, rfl, hcause, honly.of_reports hfront⟩
          · exact absurd hrefused ((refusesNothing_of_silent (htail r)).not_refused hrun)
      | false =>
          rw [hbuilds, if_neg Bool.false_ne_true] at hrun
          rcases run_bind_eq_error.1 hrun with hrun | ⟨r, built, -, hrun⟩
          · have hreason := (keeps_ofSetup accrues_reports _).of_run hrun
            exact .inl (accrues_reports.trans hfront hreason)
          · exact absurd hrefused ((refusesNothing_of_silent (htail r)).not_refused hrun)

/-! ## Sessions and builds -/

lemma keeps_locateManifest {R : Machine → Machine → Prop} (hR : Accrues R)
    (explicit : Option Path) : Keeps R (locateManifest explicit) := by
  unfold locateManifest
  split
  · exact keeps_pure hR _
  · refine keeps_bind hR (fun _ m => hR.refl m) fun m => ?_
    split
    · exact keeps_pure hR _
    · exact keeps_fail hR _

lemma keeps_loadManifest {R : Machine → Machine → Prop} (hR : Accrues R) (p : Path) :
    Keeps R (loadManifest p) :=
  keeps_bind hR (keeps_during (keeps_inspect hR _)) fun _ => keeps_during (keeps_ofExcept hR _)

lemma keeps_orderModules {R : Machine → Machine → Prop} (hR : Accrues R) (m : Manifest) :
    Keeps R (orderModules m) :=
  keeps_bind hR (keeps_workspace hR) fun _ =>
    keeps_bind hR (keeps_ofExcept hR _) fun _ =>
      keeps_bind hR (keeps_ofExcept hR _) fun _ =>
        keeps_bind hR (keeps_log hR _ _) fun _ => keeps_pure hR _

/-- Reads the manifest of a request. -/
def requestManifest (r : Request) : Build Manifest := do
  loadManifest (← locateManifest r.manifestPath)

lemma keeps_requestManifest {R : Machine → Machine → Prop} (hR : Accrues R) (r : Request) :
    Keeps R (requestManifest r) :=
  keeps_bind hR (keeps_locateManifest hR _) fun p => keeps_loadManifest hR p

/-- The defaults of the compiler that a manifest overrides. -/
def defaultsOf (m : Manifest) : CompilerDefaults :=
  (CompilerDefaults.ofPlatform .elf).override m.compiler

lemma openSession_eq (r : Request) : openSession r true = (do
    let m ← requestManifest r
    log .debug ("using manifest in " ++ m.root.text)
    let g ← orderModules m
    log .debug ("build order: " ++ " ".intercalate g.names)
    let resolution ← resolve m r.settings (defaultsOf m)
    return ⟨⟨m, r.settings, defaultsOf m, resolution⟩, g⟩) := by
  simp only [openSession, requestManifest, bind_assoc]
  rfl

/-- Declarations are refused before the settings are looked at. -/
lemma openSession_refused {r : Request}
    (hrun : (openSession r true).run l start = (.error e, stop))
    (hrefused : e.cause.isRefusal = true) : Reports start stop ∨
      ∃ m v loaded, (requestManifest r).run l start = (.ok m, loaded) ∧ m.vendored = some v ∧
        e.cause = .setup (.missingMakeVariable v.objectsVariable) ∧
        OnlyConfigured l m v r.settings (defaultsOf m) start stop := by
  have hR := accrues_reports
  rw [openSession_eq] at hrun
  rcases run_bind_eq_error.1 hrun with hrun | ⟨m, loaded, hload, hrun⟩
  · exact .inl ((keeps_requestManifest hR r).of_run hrun)
  have hloaded := (keeps_requestManifest hR r).of_run hload
  -- A report cannot fail, so the run has come past it.
  rcases run_bind_eq_error.1 hrun with ⟨⟨⟩⟩ | ⟨_, named, hname, hrun⟩
  have hnamed := hR.trans hloaded ((keeps_log hR _ _).of_run hname)
  rcases run_bind_eq_error.1 hrun with hrun | ⟨g, ordered, horder, hrun⟩
  · exact .inl (hR.trans hnamed ((keeps_orderModules hR m).of_run hrun))
  have hordered := hR.trans hnamed ((keeps_orderModules hR m).of_run horder)
  rcases run_bind_eq_error.1 hrun with ⟨⟨⟩⟩ | ⟨_, listed, hlist, hrun⟩
  have hfront := hR.trans hordered ((keeps_log hR _ _).of_run hlist)
  rcases run_bind_eq_error.1 hrun with hrun | ⟨resolution, resolved, -, hrun⟩
  · rcases resolve_refused hrun hrefused with hlog | ⟨v, hv, hcause, honly⟩
    · exact .inl (hR.trans hfront hlog)
    · exact .inr ⟨m, v, loaded, hload, hv, hcause, honly.of_reports hfront⟩
  · cases hrun

lemma openSession_of_refused {r : Request} {skipVerify : Bool}
    (hrun : (buildPackage r skipVerify).run l start = (.error e, stop))
    (hrefused : e.cause.isRefusal = true) :
    (openSession r true).run l start = (.error e, stop) := by
  have hpure : ∀ {γ : Type} (a : γ), RefusesNothing (pure a : Build γ) := fun a =>
    refusesNothing_of_silent (silent_pure a)
  rcases run_bind_eq_error.1 hrun with hrun | ⟨s, opened, -, hrun⟩
  · exact hrun
  rcases run_bind_eq_error.1 hrun with hrun | ⟨modules, built, -, hrun⟩
  · exact absurd hrefused ((refusesNothing_buildAll s.context s.graph none _).not_refused hrun)
  cases skipVerify with
  | true =>
      have hskip : RefusesNothing (do
          log .info "skipping symbol collision check (disabled)"
          let verified ← pure none
          return ⟨s.context.resolution.mode, modules, verified⟩ : Build BuildReport) :=
        failsWith_bind (refusesNothing_of_silent (silent_log _ _)) fun _ => hpure _
      exact absurd hrefused (hskip.not_refused hrun)
  | false =>
      have hverify : RefusesNothing (do
          let verified ← some <$> verifySession s modules
          return ⟨s.context.resolution.mode, modules, verified⟩ : Build BuildReport) :=
        failsWith_bind (failsWith_bind (refusesNothing_verify _ _ _ _ _) fun _ => hpure _)
          fun _ => hpure _
      exact absurd hrefused (hverify.not_refused hrun)

/-- A build that refuses its package, whatever the programs do, ends while the session is opened.
Either it has only reported, so that no program was started and no file changed, or the library does
not report its objects; then the configure script and the question for the variables are all that
was started. -/
theorem buildPackage_refused {r : Request} {skipVerify : Bool}
    (hrun : (buildPackage r skipVerify).run l start = (.error e, stop))
    (hrefused : e.cause.isRefusal = true) :
    (openSession r true).run l start = (.error e, stop) ∧
      (Reports start stop ∨
        ∃ m v loaded, (requestManifest r).run l start = (.ok m, loaded) ∧ m.vendored = some v ∧
          e.cause = .setup (.missingMakeVariable v.objectsVariable) ∧
          OnlyConfigured l m v r.settings (defaultsOf m) start stop) := by
  have hsession := openSession_of_refused hrun hrefused
  exact ⟨hsession, openSession_refused hsession hrefused⟩

/-- A manifest in the working directory, beside one source and a library that is not configured. -/
def packageMachine (manifest : String) : Machine where
  workspace := { tree := ⟨[(["Slipway.toml"], .file (Text.Utf8.encode manifest) false),
    (["a.c"], .file [] false), (["h"], .directory), (["h", "configure"], .file [] true)]⟩ }

/-- A request for the manifest in the working directory. -/
def packageRequest : Request := { manifestPath := some ⟨"Slipway.toml"⟩ }

/-- A package without modules whose library reports its objects under another name. -/
def unreportedManifest : String :=
  "[package]\nname='t'\n[vendored]\nname='h'\npath='h'\nprefix='H'\narchive='a'\n" ++
    "objects-variable='O'\nexternal-library='h'\n"

/-- A package with a module that cannot be linked by name. -/
def unlinkableManifest : String :=
  "[package]\nname='t'\n[[module]]\nname='x'\nsources=['a.c']\n"

/-- The name of a module is refused at once; a library without the list of its objects only after
the configure script and the question, which are two programs. -/
theorem buildPackage_refused_unlinkable_unreported :
    (∃ stop, (buildPackage packageRequest true).run reportingLauncher
          (packageMachine unlinkableManifest) =
        (.error { cause := .graph (.unlinkableName "x") }, stop) ∧
      Reports (packageMachine unlinkableManifest) stop) ∧
    ∃ stop m v, (buildPackage packageRequest true).run reportingLauncher
          (packageMachine unreportedManifest) =
        (.error { cause := .setup (.missingMakeVariable "O") }, stop) ∧
      stop.started.length = 2 ∧
      OnlyConfigured reportingLauncher m v {} (defaultsOf m) (packageMachine unreportedManifest)
        stop := by
  constructor
  · have hrun := run_of_fst_eq_error (b := buildPackage packageRequest true)
      (l := reportingLauncher) (m := packageMachine unlinkableManifest)
      (e := { cause := .graph (.unlinkableName "x") }) (by decide +kernel)
    obtain ⟨-, hlog | ⟨m, v, loaded, -, -, hcause, -⟩⟩ := buildPackage_refused hrun rfl
    · exact ⟨_, hrun, hlog⟩
    · cases hcause
  · have hends : ((buildPackage packageRequest true).run reportingLauncher
          (packageMachine unreportedManifest)).1 =
          .error { cause := .setup (.missingMakeVariable "O") } ∧
        ((buildPackage packageRequest true).run reportingLauncher
          (packageMachine unreportedManifest)).2.started.length = 2 := by decide +kernel
    have hrun := run_of_fst_eq_error hends.1
    obtain ⟨-, hlog | ⟨m, v, loaded, -, -, -, honly⟩⟩ := buildPackage_refused hrun rfl
    · have hlength := hends.2
      rw [startsNothing_of_reports hlog] at hlength
      cases hlength
    · exact ⟨_, m, v, hrun, hends.2, honly⟩

end Build

end Drydock
