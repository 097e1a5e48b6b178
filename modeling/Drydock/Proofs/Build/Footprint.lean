import Drydock.Proofs.Build.Agreement
import Drydock.Proofs.Build.DefaultHeaders

/-!
# What resolving writes

Without a vendored library resolving only reports.  With an external copy it writes the
config-values file and default headers; with a bundled one it configures the library, asks its build
for variables and records them first.  Everything it does to files is listed here, deed by deed.

The order of the deeds matters.  The record of the variables is written before the config-values
file and the default headers, so that these find it in place, and the headers come last, so that
each of them is looked for when everything else is there.  Their list is not a list of deeds of its
own, because which of them are written depends on the tree they find (`HeaderTurns`).

* `ValuesDeeds`, `ResolveDeeds` — what is done in front of the default headers.
* `Build.resolve_writes` — a run that resolves does this and nothing else.
* `Build.resolve_overwrites_strayHeader` — a default header can be written over another one.
-/

namespace Drydock

/-- The config-values file is written where the manifest declares one. -/
inductive ValuesDeeds (m : Manifest) (v : Vendored) (r : Resolution) : List Deed → Prop where
  | undeclared (h : v.configValues = none) : ValuesDeeds m v r []
  | declared {file : Path} (h : v.configValues = some file) (defines : Table String) :
      ValuesDeeds m v r [.write (m.path file) (ConfigValues.ofDefines v.name
        (r.source.getD .external) v.features defines).render]

/-- What is done in front of the default headers.  With an external copy of the library that is the
config-values file alone.  A bundled copy is configured and asked for its variables, which are
recorded. -/
inductive ResolveDeeds (m : Manifest) (v : Vendored) (s : Settings) (d : CompilerDefaults)
    (r : Resolution) : List Deed → Prop where
  | external {values : List Deed} (hmode : s.selectMode = .ok .external)
      (hvalues : ValuesDeeds m v r values) : ResolveDeeds m v s d r values
  | builtin {mode : LinkMode} {configure values : List Deed} {e : Exit}
      (hmode : s.selectMode = .ok mode) (hbuilds : mode.buildsVendored = true)
      (hconfigure : ConfigureDeeds (m.path v.path) (configureVariables s.tools d)
        (Build.configureCandidates (Resolution.preferredOptions s v) v.configureFallbacks)
        configure)
      (hsuccess : e.success = true) (hvalues : ValuesDeeds m v r values) :
      ResolveDeeds m v s d r (configure ++
        .start (Build.queryInvocation (m.path v.path) s.tools.makeProgram) (.ok e) ::
        .write (m.recordPath v) (MakeVariables.parse (Text.Utf8.decodeLossy e.stdout)).render ::
        values)

namespace Build

variable {l : Launcher} {before mid after : Machine} {m : Manifest} {v : Vendored} {dir : Path}
  {mode : LinkMode} {s : Settings} {d : CompilerDefaults} {r : Resolution} {make : String}
  {reported : MakeVariables}

/-! ## The steps of a run -/

lemma runChecked_deeds {i : Invocation} {e : Exit}
    (h : (runChecked i).run l before = (.ok e, after)) :
    e.success = true ∧ Deeds l before [.start i (.ok e)] after := by
  obtain ⟨e', captured, hcapture, hchecked⟩ := run_bind_eq_ok.1 h
  rw [run_capture, Prod.mk.injEq] at hcapture
  obtain ⟨hresult, rfl⟩ := hcapture
  split at hchecked
  · rename_i hsuccess
    obtain ⟨rfl, rfl⟩ := run_pure_eq_ok.1 hchecked
    -- The check only passes an end of the program on.
    have hended : (l before i).1 = .ok e' := by
      cases hl : (l before i).1 with
      | error io =>
          rw [hl] at hresult
          cases hresult
      | ok ended =>
          rw [hl] at hresult
          exact congrArg _ (Except.ok.inj hresult)
    refine ⟨hsuccess, ?_⟩
    rw [← hended]
    exact .start (accrues_reports.refl _) (.none (accrues_reports.refl _))
  · cases hchecked

lemma queryVariables_deeds (h : (queryVariables dir make).run l before = (.ok reported, after)) :
    ∃ e : Exit, e.success = true ∧ reported = .parse (Text.Utf8.decodeLossy e.stdout) ∧
      Deeds l before [.start (queryInvocation dir make) (.ok e)] after := by
  obtain ⟨e, answered, hquery, h⟩ := run_bind_eq_ok.1 h
  obtain ⟨_, reporting, hlog, h⟩ := run_bind_eq_ok.1 h
  obtain ⟨rfl, rfl⟩ := run_pure_eq_ok.1 h
  obtain ⟨hsuccess, hasked⟩ := runChecked_deeds (run_during_eq_ok.1 hquery)
  have hreports : Reports answered reporting := (keeps_logAll accrues_reports _ _).of_run hlog
  exact ⟨e, hsuccess, rfl, hasked.then_reports hreports⟩

/-- Features are looked up in what is there, and written where the manifest declares a file. -/
lemma writeFeatures_deeds (h : (writeFeatures m v dir r).run l before = (.ok (), after)) :
    ∃ ds, Deeds l before ds after ∧ ValuesDeeds m v r ds := by
  unfold writeFeatures at h
  split at h
  · rename_i hnone
    obtain ⟨-, rfl⟩ := run_pure_eq_ok.1 h
    exact ⟨[], .none (accrues_reports.refl _), .undeclared hnone⟩
  · rename_i file hfile
    obtain ⟨defines, looked, hdefines, h⟩ := run_bind_eq_ok.1 h
    obtain rfl := featureDefines_eq_ok hdefines
    obtain ⟨_, logged, hlog, hwrite⟩ := run_bind_eq_ok.1 h
    have hreports : Reports before logged := (keeps_logAll accrues_reports _ _).of_run hlog
    exact ⟨_, .of_reports hreports (writeText_deeds hwrite), .declared hfile defines⟩

lemma resolveBuiltin_deeds (h : (resolveBuiltin m v dir mode s d).run l before = (.ok r, after)) :
    ∃ configure e, e.success = true ∧
      ConfigureDeeds dir (configureVariables s.tools d)
        (configureCandidates (Resolution.preferredOptions s v) v.configureFallbacks) configure ∧
      Deeds l before (configure ++
        [.start (queryInvocation dir s.tools.makeProgram) (.ok e),
          .write (m.recordPath v)
            (MakeVariables.parse (Text.Utf8.decodeLossy e.stdout)).render]) after := by
  obtain ⟨chosen, configured, hconfigure, h⟩ := run_bind_eq_ok.1 h
  obtain ⟨make, answered, hquery, h⟩ := run_bind_eq_ok.1 h
  obtain ⟨_, logged, hlog, h⟩ := run_bind_eq_ok.1 h
  obtain ⟨_, written, hwrite, h⟩ := run_bind_eq_ok.1 h
  obtain ⟨-, rfl⟩ := run_ofSetup_eq_ok.1 h
  obtain ⟨configure, hdone, hspec⟩ := configureVendored_deeds hconfigure
  obtain ⟨e, hsuccess, rfl, hasked⟩ := queryVariables_deeds hquery
  have hreports : Reports answered logged := (keeps_logAll accrues_reports _ _).of_run hlog
  have hrecord := Deeds.of_reports hreports (writeText_deeds hwrite)
  exact ⟨configure, e, hsuccess, hspec, hdone.append (hasked.append hrecord)⟩

/-! ## Resolving -/

lemma resolve_reports (hv : m.vendored = none)
    (h : (resolve m s d).run l before = (.ok r, after)) : Reports before after := by
  obtain ⟨mode, selected, hselect, h⟩ := run_bind_eq_ok.1 h
  obtain ⟨_, ready, hmode, h⟩ := run_bind_eq_ok.1 h
  simp only [hv, Manifest.vendoredDir?, Option.map_none] at h
  obtain ⟨_, stopped, hstop, h⟩ := run_bind_eq_ok.1 h
  obtain ⟨-, rfl⟩ := run_pure_eq_ok.1 h
  have hR := accrues_reports
  exact hR.trans ((keeps_selectMode hR s).of_run hselect)
    (hR.trans ((keeps_log hR _ _).of_run hmode) ((keeps_log hR _ _).of_run hstop))

lemma finish_deeds {r' : Resolution}
    (h : (do writeFeatures m v dir r; writeDefaultHeaders m v; return r : Build Resolution).run l
      before = (.ok r', after)) :
    r = r' ∧ ∃ values mid created made, Deeds l before values mid ∧ ValuesDeeds m v r values ∧
      (ensureHeaders (v.defaultConfigHeaders.map m.path)).run l mid = (.ok created, made) ∧
      Reports made after := by
  obtain ⟨_, mid, hfeatures, h⟩ := run_bind_eq_ok.1 h
  obtain ⟨_, finished, hheaders, h⟩ := run_bind_eq_ok.1 h
  obtain ⟨rfl, rfl⟩ := run_pure_eq_ok.1 h
  obtain ⟨created, made, hensure, hlog⟩ := run_bind_eq_ok.1 hheaders
  obtain ⟨values, hdone, hvalues⟩ := writeFeatures_deeds hfeatures
  exact ⟨rfl, values, mid, created, made, hdone, hvalues, hensure,
    (keeps_logAll accrues_reports _ _).of_run hlog⟩

/-- With a vendored library, what a run does in front of the default headers, and the headers. -/
lemma resolve_deeds (hv : m.vendored = some v)
    (h : (resolve m s d).run l before = (.ok r, after)) : ∃ ds mid created made,
      Deeds l before ds mid ∧ ResolveDeeds m v s d r ds ∧
      (ensureHeaders (v.defaultConfigHeaders.map m.path)).run l mid = (.ok created, made) ∧
      Reports made after := by
  obtain ⟨mode, selected, hselect, h⟩ := run_bind_eq_ok.1 h
  obtain ⟨_, ready, hmode, h⟩ := run_bind_eq_ok.1 h
  have hlog : Reports before ready := accrues_reports.trans
    ((keeps_selectMode accrues_reports s).of_run hselect)
    ((keeps_log accrues_reports _ _).of_run hmode)
  have hselected := selectMode_eq_ok hselect
  simp only [hv, Manifest.vendoredDir?, Option.map_some] at h
  split at h
  · rename_i hbuilds
    obtain ⟨r', resolved, hresolve, h⟩ := run_bind_eq_ok.1 h
    obtain ⟨rfl, values, mid, created, made, hdone, hvalues, hensure, hreports⟩ := finish_deeds h
    obtain ⟨configure, e, hsuccess, hconfigure, hbuilt⟩ := resolveBuiltin_deeds hresolve
    have hall := Deeds.of_reports hlog (hbuilt.append hdone)
    rw [List.append_assoc] at hall
    exact ⟨_, mid, created, made, hall,
      .builtin hselected hbuilds hconfigure hsuccess hvalues, hensure, hreports⟩
  · rename_i hbuilds
    obtain ⟨r', resolved, hresolve, h⟩ := run_bind_eq_ok.1 h
    obtain ⟨rfl, values, mid, created, made, hdone, hvalues, hensure, hreports⟩ := finish_deeds h
    obtain ⟨-, rfl⟩ := run_ofSetup_eq_ok.1 hresolve
    -- The mode builds no library, so it is the one that takes an installed copy.
    obtain rfl : mode = .external := by
      cases mode with
      | shared => exact absurd rfl hbuilds
      | separate => exact absurd rfl hbuilds
      | external => rfl
    exact ⟨values, mid, created, made, .of_reports hlog hdone, .external hselected hvalues,
      hensure, hreports⟩

lemma exists_values {ds : List Deed} (h : ValuesDeeds m v r ds) : ∃ texts : List (Path × String),
    ds = texts.map (fun (p, text) => .write p text) ∧
      texts.map (·.1) = v.configValues.toList.map m.path := by
  cases h with
  | undeclared hnone => exact ⟨[], rfl, by simp [hnone]⟩
  | declared hfile defines => exact ⟨[(_, _)], rfl, by simp [hfile]⟩

lemma valuesDeeds_of_external {ds : List Deed} (h : ResolveDeeds m v s d r ds)
    (hexternal : s.selectMode = .ok .external) : ValuesDeeds m v r ds := by
  cases h with
  | external hmode hvalues => exact hvalues
  | builtin hmode hbuilds hconfigure hsuccess hvalues =>
      rw [hexternal, Except.ok.injEq] at hmode
      subst hmode
      cases hbuilds

/-- With an external copy nothing is started, and nothing is written but the config-values file and
the headers that were missing. -/
lemma writes_of_external {ds : List Deed} {ps created : List Path}
    (hdone : Deeds l before ds mid) (hvalues : ValuesDeeds m v r ds)
    (hturns : HeaderTurns ps mid created after) : StartsNothing before after ∧
      Workspace.Writes (v.configValues.toList.map m.path ++ created) before.workspace
        after.workspace := by
  obtain ⟨texts, rfl, hpaths⟩ := exists_values hvalues
  have hall : Deeds l before ((texts ++ created.map fun p => (p, ConfigHeader.minimal)).map
      fun (p, text) => .write p text) after := by
    rw [List.map_append, List.map_map]
    exact hdone.append hturns.deeds
  obtain ⟨hquiet, hwrites⟩ := hall.writes
  rw [List.map_append, hpaths, List.map_map] at hwrites
  exact ⟨hquiet, by simpa [Function.comp_def] using hwrites⟩

/-- A run that resolves does the following to files.  Without a vendored library it only reports.
Otherwise it does what `ResolveDeeds` says and then looks for the default headers; with an external
copy of the library it starts nothing, and nothing changes but the config-values file, the headers
that it creates and missing directories above these.  Each header is written if it is missing when
its turn comes, none is written twice, and a second run over the headers creates nothing.  In a
proper tree, headers that step up only out of directories that are there leave everything that is
there as it is. -/
theorem resolve_writes (l : Launcher) :
    (∀ m s d r before after, (resolve m s d).run l before = (.ok r, after) →
      (m.vendored = none → Reports before after) ∧
      ∀ v, m.vendored = some v → ∃ ds mid created made,
        Deeds l before ds mid ∧ ResolveDeeds m v s d r ds ∧
        (ensureHeaders (v.defaultConfigHeaders.map m.path)).run l mid = (.ok created, made) ∧
        Reports made after ∧
        (s.selectMode = .ok .external → StartsNothing before after ∧
          Workspace.Writes (v.configValues.toList.map m.path ++ created) before.workspace
            after.workspace)) ∧
    ∀ ps created before after, (ensureHeaders ps).run l before = (.ok created, after) →
      HeaderTurns ps before created after ∧ created.Nodup ∧
      (∀ l' later, later.workspace = after.workspace →
        (ensureHeaders ps).run l' later = (.ok [], later)) ∧
      (before.workspace.WellFormed → (∀ p ∈ ps, before.workspace.StepsUpInside p) →
        ∀ k node, before.workspace.tree.node? k = some node →
          after.workspace.tree.node? k = some node) := by
  refine ⟨fun m s d r before after hrun => ⟨fun hv => resolve_reports hv hrun, fun v hv => ?_⟩,
    fun ps created before after hrun => ?_⟩
  · obtain ⟨ds, mid, created, made, hdone, hspec, hensure, hlog⟩ := resolve_deeds hv hrun
    refine ⟨ds, mid, created, made, hdone, hspec, hensure, hlog, fun hexternal => ?_⟩
    obtain ⟨hquiet, hwrites⟩ := writes_of_external hdone
      (valuesDeeds_of_external hspec hexternal) (ensureHeaders_turns hensure)
    rw [hlog.workspace]
    exact ⟨hquiet.trans (startsNothing_of_reports hlog), hwrites⟩
  · have hturns := ensureHeaders_turns hrun
    refine ⟨hturns, hturns.nodup, fun l' later hlater => ensureHeaders_of_exists ?_,
      fun hw hsteps k node hk => ensureHeaders_keeps hrun hw hsteps hk⟩
    rw [hlater]
    exact hturns.exists

/-! ## Two packages -/

/-- The package of `headerPackage` with other default headers. -/
def headersPackage (headers : List Path) : Manifest :=
  let m := headerPackage ⟨"cfg.h"⟩
  { m with vendored := m.vendored.map fun v => { v with defaultConfigHeaders := headers } }

/-- A library that cannot be configured. -/
def refusingLauncher : Launcher := fun m i =>
  if i.command.program = "sh" then (.ok { code := some 1 }, m.workspace.tree)
  else reportingLauncher m i

/-- A package that lists a header twice, spelled so that it steps up out of the library. -/
def twicePackage : Manifest := headersPackage [⟨"h/../new.h"⟩, ⟨"new.h"⟩, ⟨"h/../new.h"⟩]

/-- A package whose second default header leads to the first one, but only once `gen` is made. -/
def overlapPackage : Manifest := headersPackage [⟨"cfg.h"⟩, ⟨"gen/../cfg.h"⟩]

/-- Directories of an installed copy. -/
def installedSettings : Settings := { libraryDir := some ⟨"/l"⟩, includeDir := some ⟨"/i"⟩ }

/-- The resolution of the installed copy. -/
def installedResolution : Resolution where
  mode := .external
  source := some .external
  includeDirs := [⟨"/i"⟩]
  libraryDirs := [⟨"/l"⟩]
  libraries := ["z", "hts"]

/-- A machine with a header that was written by hand. -/
def handwrittenMachine : Machine where
  workspace :=
    { tree := ⟨[(["cfg.h"], .file (Text.Utf8.encode "#define HAVE_CURSES 1\n") false)]⟩ }

/-- `twicePackage` is resolved although its library cannot be configured, and without starting
anything where a copy is installed; its header is written once, and the library is left alone. -/
theorem resolve_writes_twicePackage :
    (∃ after, (resolve twicePackage {} (.ofPlatform .elf)).run refusingLauncher freshMachine =
        (.ok { reportedResolution with configureOptions := none }, after) ∧
      ∃ v ∈ twicePackage.vendored, ∃ ds mid, Deeds refusingLauncher freshMachine ds mid ∧
        ResolveDeeds twicePackage v {} (.ofPlatform .elf)
          { reportedResolution with configureOptions := none } ds) ∧
    (∃ after, (resolve twicePackage installedSettings (.ofPlatform .elf)).run refusingLauncher
        freshMachine = (.ok installedResolution, after) ∧ StartsNothing freshMachine after) ∧
    ∃ made, (ensureHeaders [⟨"h/../new.h"⟩, ⟨"new.h"⟩, ⟨"h/../new.h"⟩]).run refusingLauncher
        freshMachine = (.ok [⟨"h/../new.h"⟩], made) ∧
      (ensureHeaders [⟨"h/../new.h"⟩, ⟨"new.h"⟩, ⟨"h/../new.h"⟩]).run refusingLauncher made =
        (.ok [], made) ∧
      ∀ k node, freshMachine.workspace.tree.node? k = some node →
        made.workspace.tree.node? k = some node := by
  have hbuiltin := run_of_fst_eq_ok (b := resolve twicePackage {} (.ofPlatform .elf))
    (l := refusingLauncher) (m := freshMachine)
    (a := { reportedResolution with configureOptions := none }) (by decide +kernel)
  have hinstalled := run_of_fst_eq_ok
    (b := resolve twicePackage installedSettings (.ofPlatform .elf)) (l := refusingLauncher)
    (m := freshMachine) (a := installedResolution) (by decide +kernel)
  have hheaders := run_of_fst_eq_ok
    (b := ensureHeaders [⟨"h/../new.h"⟩, ⟨"new.h"⟩, ⟨"h/../new.h"⟩]) (l := refusingLauncher)
    (m := freshMachine) (a := [⟨"h/../new.h"⟩]) (by decide +kernel)
  obtain ⟨hresolve, hensure⟩ := resolve_writes refusingLauncher
  obtain ⟨ds, mid, created, made, hdone, hspec, -⟩ := (hresolve _ _ _ _ _ _ hbuiltin).2 _ rfl
  obtain ⟨_, _, _, _, -, -, -, -, hexternal⟩ := (hresolve _ _ _ _ _ _ hinstalled).2 _ rfl
  obtain ⟨-, -, hagain, hkeeps⟩ := hensure _ _ _ _ hheaders
  have hw : freshMachine.workspace.WellFormed := ⟨.of_entries (by decide) (by decide), by decide⟩
  exact ⟨⟨_, hbuiltin, _, rfl, ds, mid, hdone, hspec⟩, ⟨_, hinstalled, (hexternal rfl).1⟩,
    _, hheaders, hagain _ _ rfl, hkeeps hw (by decide +kernel)⟩

/-- A header that was written by hand is lost when another default header, missing until its
directory is made, turns out to lead to it. -/
theorem resolve_overwrites_strayHeader :
    (∃ v ∈ overlapPackage.vendored, ⟨"cfg.h"⟩ ∈ v.defaultConfigHeaders) ∧
      handwrittenMachine.workspace.readText (overlapPackage.path ⟨"cfg.h"⟩) =
        .ok "#define HAVE_CURSES 1\n" ∧
      ∃ after, (resolve overlapPackage installedSettings (.ofPlatform .elf)).run reportingLauncher
          handwrittenMachine = (.ok installedResolution, after) ∧
        after.workspace.readText (overlapPackage.path ⟨"cfg.h"⟩) = .ok ConfigHeader.minimal := by
  refine ⟨⟨_, rfl, List.mem_cons_self⟩, by decide +kernel, _,
    run_of_fst_eq_ok (by decide +kernel), by decide +kernel⟩

end Build

end Drydock
