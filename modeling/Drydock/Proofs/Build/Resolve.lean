import Drydock.Build.Resolve
import Drydock.Proofs.Build.History
import Drydock.Proofs.MakeVariables

/-!
# What a resolved run leaves behind

`resolve` records the variables of the vendored build half way through, and writes other files
afterwards.  The record is what later runs resolve from, so it matters that those files are not the
record.

Two paths may lead to one file, so it is not enough that they differ as texts.  `RecordApart` asks
that no other file of the run is the record, and it asks that only of the headers that the run
reports as created: a header that is there is not written.  The hypothesis is about what a run did,
and a caller can check it against the messages of the run.

* `Build.ReportsDefault` — a run reported that it created a default header.
* `Build.Recorded` — the file of the record holds the given variables.
* `Build.resolve_eq_ok` — where the resolution comes from, and that the record holds its variables.
* `Build.inspectRecord_eq_ok` — the resolution that such a record gives back.
-/

namespace Drydock

namespace Build

variable {l : Launcher} {before mid after : Machine} {m : Manifest}
  {v : Vendored} {dir : Path} {mode : LinkMode} {s : Settings} {d : CompilerDefaults}
  {r : Resolution} {make : MakeVariables} {chosen : Option String}

/-- Between two machines of a run a default header was reported as created. -/
def ReportsDefault (before after : Machine) (p : Path) : Prop :=
  Event.log .info ("created default " ++ p.text) ∈ after.events.drop before.events.length

/-- Nothing that a run writes behind the record of a library is the record: neither the
config-values file nor a default header that was missing. -/
structure RecordApart (m : Manifest) (v : Vendored) (before after : Machine) : Prop where
  values : ∀ file, v.configValues = some file →
    ¬ after.workspace.SameFile (m.path file) (m.recordPath v)
  headers : ∀ header ∈ v.defaultConfigHeaders, ReportsDefault before after (m.path header) →
    ¬ after.workspace.SameFile (m.path header) (m.recordPath v)

/-- The file at a path is the record of the given variables. -/
def Recorded (w : Workspace) (p : Path) (make : MakeVariables) : Prop :=
  ∃ executable, w.stat p = .ok (.file (Text.Utf8.encode make.render) executable)

/-! ## The steps of a run -/

lemma selectMode_run (s : Settings) (l : Launcher) (m : Machine) : ∃ events,
    (selectMode s).run l m =
      (s.selectMode.mapError Failure.ofSetup, { m with events := m.events ++ events }) := by
  rw [selectMode, warnOverruled]
  split
  · exact ⟨[_], rfl⟩
  · exact ⟨[], by simp [ofSetup]⟩

lemma selectMode_eq_ok (h : (selectMode s).run l before = (.ok mode, after)) :
    s.selectMode = .ok mode := by
  obtain ⟨events, hrun⟩ := selectMode_run s l before
  rw [hrun, Prod.mk.injEq] at h
  cases hmode : s.selectMode with
  | error e => simp [hmode, Except.mapError] at h
  | ok selected => simpa [hmode, Except.mapError] using h.1

/-- The record is written before the resolution is worked out, which writes nothing. -/
lemma resolveBuiltin_eq_ok (h : (resolveBuiltin m v dir mode s d).run l before = (.ok r, after)) :
    ∃ make chosen, MakeVariables.Recordable make ∧
      Resolution.forMode mode v dir s make chosen = .ok r ∧
      Recorded after.workspace (m.recordPath v) make := by
  obtain ⟨chosen, m₁, hconfigure, h⟩ := run_bind_eq_ok.1 h
  obtain ⟨make, m₂, hquery, h⟩ := run_bind_eq_ok.1 h
  obtain ⟨_, m₃, hlog, h⟩ := run_bind_eq_ok.1 h
  obtain ⟨_, m₄, hwrite, h⟩ := run_bind_eq_ok.1 h
  obtain ⟨hmode, rfl⟩ := run_ofSetup_eq_ok.1 h
  obtain ⟨e, m₅, hrun, hquery⟩ := run_bind_eq_ok.1 hquery
  obtain ⟨_, m₆, hdebug, hquery⟩ := run_bind_eq_ok.1 hquery
  obtain ⟨rfl, rfl⟩ := run_pure_eq_ok.1 hquery
  obtain ⟨-, k, hwrote⟩ := writeText_eq_ok hwrite
  exact ⟨_, chosen, MakeVariables.recordable_parse _, hmode, hwrote.stat⟩

lemma featureDefines_eq_ok {source : LibrarySource} {defines : Table String}
    (h : (featureDefines source dir).run l before = (.ok defines, after)) : before = after := by
  rw [featureDefines, run_bind_of_eq_ok run_workspace] at h
  split at h
  · obtain ⟨text, mid, hread, h⟩ := run_bind_eq_ok.1 h
    obtain ⟨-, rfl⟩ := readText_eq_ok.1 hread
    exact (run_pure_eq_ok.1 h).2
  · exact (run_pure_eq_ok.1 h).2

lemma writeFeatures_eq_ok (h : (writeFeatures m v dir r).run l before = (.ok (), after)) :
    Workspace.Writes (v.configValues.toList.map m.path) before.workspace after.workspace := by
  unfold writeFeatures at h
  split at h
  · rename_i hnone
    obtain ⟨-, rfl⟩ := run_pure_eq_ok.1 h
    simpa [hnone] using Workspace.Writes.refl _
  · rename_i file hfile
    obtain ⟨defines, mid, hdefines, h⟩ := run_bind_eq_ok.1 h
    obtain rfl := featureDefines_eq_ok hdefines
    simpa [hfile] using writeConfigValues_eq_ok h

lemma writeDefaultHeaders_eq_ok (h : (writeDefaultHeaders m v).run l mid = (.ok (), after))
    (hhistory : HistoryGrows before mid) :
    ∃ created ⊆ v.defaultConfigHeaders.map m.path,
      Workspace.Writes created mid.workspace after.workspace ∧
      ∀ p ∈ created, ReportsDefault before after p := by
  obtain ⟨created, m₁, hensure, h⟩ := run_bind_eq_ok.1 h
  rw [run_logAll] at h
  obtain rfl := (Prod.mk.inj h).2
  obtain ⟨hsub, hwrites⟩ := ensureHeaders_eq_ok hensure
  have hkept : HistoryGrows mid m₁ :=
    (keeps_ensureHeaders accruesLaunches_historyGrows.toAccruesChanges _).of_run hensure
  refine ⟨created, hsub, hwrites, fun p hp => ?_⟩
  obtain ⟨events, hevents⟩ := hhistory.trans hkept
  rw [ReportsDefault, ← hevents]
  simpa using .inr ⟨p, hp, rfl⟩

/-! ## Resolving -/

/-- Where the resolution of a library comes from: the variables that the record holds in the end, in
the modes that build it, and none in the others. -/
lemma resolve_eq_ok (hv : m.vendored = some v) (hapart : RecordApart m v before after)
    (h : (resolve m s d).run l before = (.ok r, after)) :
    ∃ mode make chosen, s.selectMode = .ok mode ∧
      Resolution.forMode mode v (m.path v.path) s make chosen = .ok r ∧
      (mode.buildsVendored = true →
        MakeVariables.Recordable make ∧ Recorded after.workspace (m.recordPath v) make) ∧
      (mode.buildsVendored = false → make = .empty) := by
  have hR := accruesLaunches_historyGrows
  obtain ⟨mode, m₁, hselect, h⟩ := run_bind_eq_ok.1 h
  obtain ⟨_, m₂, hlog, h⟩ := run_bind_eq_ok.1 h
  have hselected : HistoryGrows before m₁ := (keeps_selectMode hR.toAccrues s).of_run hselect
  have hstart := hselected.trans ((keeps_log hR.toAccrues _ _).of_run hlog)
  simp only [hv, Manifest.vendoredDir?, Option.map_some] at h
  refine ⟨mode, ?_⟩
  cases hbuilds : mode.buildsVendored with
  | false =>
      rw [hbuilds, if_neg Bool.false_ne_true] at h
      obtain ⟨r', m₃, hresolve, h⟩ := run_bind_eq_ok.1 h
      obtain ⟨_, m₄, hfeatures, h⟩ := run_bind_eq_ok.1 h
      obtain ⟨_, m₅, hheaders, h⟩ := run_bind_eq_ok.1 h
      obtain ⟨rfl, rfl⟩ := run_pure_eq_ok.1 h
      exact ⟨.empty, none, selectMode_eq_ok hselect, (run_ofSetup_eq_ok.1 hresolve).1, by simp,
        by simp⟩
  | true =>
      rw [hbuilds, if_pos rfl] at h
      obtain ⟨r', m₃, hresolve, h⟩ := run_bind_eq_ok.1 h
      obtain ⟨_, m₄, hfeatures, h⟩ := run_bind_eq_ok.1 h
      obtain ⟨_, m₅, hheaders, h⟩ := run_bind_eq_ok.1 h
      obtain ⟨rfl, rfl⟩ := run_pure_eq_ok.1 h
      obtain ⟨make, chosen, hrecordable, hmode, executable, hstat⟩ := resolveBuiltin_eq_ok hresolve
      have hbuilt : HistoryGrows m₂ m₃ := (keeps_resolveBuiltin hR m v _ mode s d).of_run hresolve
      have hfeatured : HistoryGrows m₃ m₄ :=
        (keeps_writeFeatures hR.toAccruesChanges m v _ _).of_run hfeatures
      have hhistory := (hstart.trans hbuilt).trans hfeatured
      obtain ⟨created, hsub, hcreated, hreports⟩ := writeDefaultHeaders_eq_ok hheaders hhistory
      -- What is written behind the record is the config-values file and the created headers.
      have hwrites := (writeFeatures_eq_ok hfeatures).trans hcreated
      have hkept : ∀ p ∈ v.configValues.toList.map m.path ++ created,
          ¬ m₅.workspace.SameFile p (m.recordPath v) := by
        intro p hp
        rcases List.mem_append.1 hp with hp | hp
        · obtain ⟨file, hfile, rfl⟩ := List.mem_map.1 hp
          exact hapart.values file (Option.mem_toList.1 hfile)
        · obtain ⟨header, hheader, rfl⟩ := List.mem_map.1 (hsub hp)
          exact hapart.headers header hheader (hreports _ hp)
      exact ⟨make, chosen, selectMode_eq_ok hselect, hmode,
        fun _ => ⟨hrecordable, executable, hwrites.stat_of_not_sameFile hstat hkept⟩, by simp⟩

/-- The configure options enter a resolution in one field only. -/
lemma forMode_without_options (h : Resolution.forMode mode v dir s make chosen = .ok r) :
    Resolution.forMode mode v dir s make none = .ok { r with configureOptions := none } := by
  cases mode with
  | separate =>
      obtain rfl := Except.ok.inj h
      rfl
  | external =>
      rw [Resolution.forMode] at h ⊢
      cases hdirs : s.externalDirs with
      | error e => simp [hdirs, bind, Except.bind] at h
      | ok dirs =>
          obtain rfl : _ = r := by simpa [hdirs, bind, Except.bind, pure, Except.pure] using h
          rfl
  | shared =>
      rw [Resolution.forMode] at h ⊢
      cases hobjects : make.objects v.objectsVariable dir with
      | error e => simp [hobjects, bind, Except.bind] at h
      | ok objects =>
          obtain rfl : _ = r := by simpa [hobjects, bind, Except.bind, pure, Except.pure] using h
          rfl

lemma recordedVariables_run (hrecordable : MakeVariables.Recordable make)
    (hrecorded : Recorded before.workspace (m.recordPath v) make) : ∃ events,
    (recordedVariables m v).run l before =
      (.ok make, { before with events := before.events ++ events }) := by
  obtain ⟨executable, hstat⟩ := hrecorded
  have hfile : before.workspace.isFile (m.recordPath v) = true := by
    simp [Workspace.isFile, hstat]
  have hread : ∀ e, (readText (m.recordPath v)).run l (before.note e) =
      (.ok make.render, before.note e) := fun e => readText_of_stat hstat
  rw [recordedVariables, run_bind_of_eq_ok run_workspace, if_pos hfile,
    run_bind_of_eq_ok (run_log _ _), run_bind_of_eq_ok (hread _),
    MakeVariables.parse_render hrecordable]
  exact ⟨[_], rfl⟩

lemma inspectRecord_eq_ok (hv : m.vendored = some v) (hselect : s.selectMode = .ok mode)
    (hmode : Resolution.forMode mode v (m.path v.path) s make none = .ok r)
    (hrecord : mode.buildsVendored = true →
      MakeVariables.Recordable make ∧ Recorded before.workspace (m.recordPath v) make)
    (hempty : mode.buildsVendored = false → make = .empty) : ∃ events,
    (inspectRecord m s).run l before =
      (.ok r, { before with events := before.events ++ events }) := by
  obtain ⟨events, hrun⟩ := selectMode_run s l before
  rw [hselect] at hrun
  rw [inspectRecord, run_bind_of_eq_ok hrun]
  simp only [hv, Manifest.vendoredDir?, Option.map_some]
  cases hbuilds : mode.buildsVendored with
  | false =>
      rw [if_neg Bool.false_ne_true, run_bind_of_eq_ok (run_pure _ _ _), ← hempty hbuilds]
      exact ⟨events, run_ofSetup_eq_ok.2 ⟨hmode, rfl⟩⟩
  | true =>
      obtain ⟨hrecordable, hrecorded⟩ := hrecord hbuilds
      obtain ⟨more, hread⟩ : ∃ more, (recordedVariables m v).run l
          { before with events := before.events ++ events } = (.ok make,
          { before with events := before.events ++ events ++ more }) :=
        recordedVariables_run hrecordable hrecorded
      rw [if_pos rfl, run_bind_of_eq_ok hread]
      exact ⟨events ++ more, run_ofSetup_eq_ok.2 ⟨hmode, by simp⟩⟩

end Build

end Drydock
