import Drydock.Proofs.Build.Clean
import Drydock.Proofs.Glob.Once

/-!
# When cleaning succeeds

Removing what patterns find removes each file at the path it is listed under.  A file that is listed
under two paths is gone when its second path is reached, and the removal fails there with part of
its work done.  So it succeeds exactly when no file is found under two paths that differ, and then
it removes every file that is found, and nothing else.

The two paths of such a file are two spellings, found by two patterns or by one, and the removal
does not compare where paths lead.  A category that comes later may find a file under two spellings
and do no harm, when a category in front of it has removed the file.  That is why `Build.OnceEach`
passes along the patterns that have been served (`Glob.Once`, with what is gone as a predicate).

Both directions go through the locations that the paths lead to.  A removal that succeeds shows that
they were distinct (`Build.nodup_of_removeAll`), and distinct locations can be removed one after the
other (`Build.removeAll_run`).

* `Build.Removed`, `Build.exists_removeMatching_of_once` — which files are removed, and when.
* `Build.OnceEach`, `Build.Cleaned` — which packages can be cleaned, and what they are like then.
* `Build.Cleaned.again` — cleaning once more finds nothing.
* `Build.cleaning_succeeds_iff` — all of this, with the patterns for which it never fails.
-/

namespace Drydock

open Glob (Found Once LeadTo LeadsDown Confined Selected WellSpelled Query hasMark)

namespace Build

variable {l : Launcher} {m m' : Machine} {w w' w'' : Workspace} {base : Path}
  {patterns more : List String} {found : List Path} {p : Manifest} {report : CleanReport}

/-! ## Removing files -/

lemma nodup_of_removeAll (hw : m.workspace.WellFormed)
    (h : (removeAll found).run l m = (.ok (), m')) :
    ∃ ks : List Location, found.map m.workspace.locate = ks.map .ok ∧ ks.Nodup := by
  induction found generalizing m with
  | nil => exact ⟨[], rfl, .nil⟩
  | cons p rest ih =>
      have hcons : removeAll (p :: rest) = (do
          during (.removing p) (change fun w => w.remove p)
          removeAll rest) := rfl
      rw [hcons, run_bind_eq_ok] at h
      obtain ⟨_, mid, hone, hrest⟩ := h
      obtain ⟨w₁, hremove, rfl⟩ := run_change_eq_ok.1 (run_during_eq_ok.1 hone)
      obtain ⟨k, -, -, hk, -, hloses⟩ := Workspace.loses_of_remove hremove
      obtain ⟨ks, hks, hnodup⟩ := @ih { m with workspace := w₁ } (hloses.wellFormed hw) hrest
      obtain ⟨hks, hapart⟩ := (hloses.map_locate_iff hw).1 hks
      exact ⟨k :: ks, by rw [List.map_cons, hk, hks, List.map_cons],
        List.nodup_cons.2 ⟨fun hmem => hapart k hmem rfl, hnodup⟩⟩

/-- Paths that lead to the files that patterns find, one to each, and a tree without them. -/
structure Removed (w w' : Workspace) (base : Path) (patterns : List String) (found : List Path) :
    Prop where
  leads : LeadTo w found (Found w base patterns)
  loses : w.Loses w' (Found w base patterns)

lemma removeMatching_run_eq_ok : (removeMatching base patterns).run l m = (.ok found, m') ↔
    Glob.files m.workspace base patterns = .ok found ∧
      (removeAll found).run l m = (.ok (), m') := by
  rw [removeMatching, run_bind_of_eq_ok run_workspace, run_bind_eq_ok]
  constructor
  · rintro ⟨files, mid, hlist, hrest⟩
    obtain ⟨hfiles, hmid⟩ := Prod.mk.inj ((run_ofExcept _).symm.trans hlist)
    obtain ⟨_, next, hrun, hdone⟩ := run_bind_eq_ok.1 hrest
    obtain ⟨rfl, rfl⟩ := run_pure_eq_ok.1 hdone
    exact ⟨hfiles, hmid ▸ hrun⟩
  · rintro ⟨hfiles, hrun⟩
    refine ⟨found, m, by rw [run_ofExcept, hfiles], ?_⟩
    rw [run_bind_of_eq_ok hrun]
    rfl

lemma removed_of_leadTo (hw : m.workspace.WellFormed)
    (hleads : LeadTo m.workspace found (Found m.workspace base patterns)) : ∃ w',
    (removeAll found).run l m = (.ok (), { m with workspace := w' }) ∧
      Removed m.workspace w' base patterns found := by
  obtain ⟨ks, hfound, hnodup, hks⟩ := hleads
  obtain ⟨w', hrun, hloses⟩ := @removeAll_run l m found ks hfound hnodup
    (fun k hk => ((hks k).1 hk).exists_file) hw
  exact ⟨w', hrun, ⟨ks, hfound, hnodup, hks⟩, hloses.congr hks⟩

/-- A removal that succeeds removes every file that the patterns find, and nothing else. -/
lemma removed_of_run (hw : m.workspace.WellFormed)
    (h : (removeMatching base patterns).run l m = (.ok found, m')) :
    ∃ w', m' = { m with workspace := w' } ∧ Removed m.workspace w' base patterns found := by
  obtain ⟨hfiles, hrun⟩ := removeMatching_run_eq_ok.1 h
  obtain ⟨ks, hfound, hnodup⟩ := nodup_of_removeAll hw hrun
  obtain ⟨w', hrun', hremoved⟩ := removed_of_leadTo (l := l) hw
    ⟨ks, hfound, hnodup, fun k => (Glob.lists_of_files hfiles).mem_iff hfound⟩
  exact ⟨w', (Prod.mk.inj (hrun.symm.trans hrun')).2, hremoved⟩

lemma once_of_run (hw : m.workspace.WellFormed)
    (h : (removeMatching base patterns).run l m = (.ok found, m')) :
    Once m.workspace base patterns fun _ => False := by
  obtain ⟨w', -, hremoved⟩ := removed_of_run hw h
  exact (Glob.lists_of_files (removeMatching_run_eq_ok.1 h).1).leadTo_iff.1 hremoved.leads

lemma exists_removeMatching_of_once (hw : m.workspace.WellFormed)
    (hspelled : ∀ pattern ∈ patterns, WellSpelled (base.join ⟨pattern⟩))
    (honce : Once m.workspace base patterns fun _ => False) : ∃ found w',
    (removeMatching base patterns).run l m = (.ok found, { m with workspace := w' }) ∧
      Removed m.workspace w' base patterns found := by
  obtain ⟨found, hfiles⟩ := Glob.exists_files_iff.2 hspelled
  obtain ⟨w', hrun, hremoved⟩ := removed_of_leadTo (l := l) hw
    ((Glob.lists_of_files hfiles).leadTo_iff.2 honce)
  exact ⟨found, w', removeMatching_run_eq_ok.2 ⟨hfiles, hrun⟩, hremoved⟩

/-- Where patterns find nothing, nothing is removed. -/
lemma removeMatching_run_of_not_found
    (hspelled : ∀ pattern ∈ patterns, WellSpelled (base.join ⟨pattern⟩))
    (hnone : ∀ k, ¬ Found m.workspace base patterns k) :
    (removeMatching base patterns).run l m = (.ok [], m) := by
  obtain ⟨found, hfiles⟩ := Glob.exists_files_iff.2 hspelled
  obtain rfl := (Glob.lists_of_files hfiles).eq_nil hnone
  exact removeMatching_run_eq_ok.2 ⟨hfiles, rfl⟩

/-! ## One category behind another -/

lemma once_behind (hw : w.WellFormed) (h : w.Loses w' (Found w base patterns)) :
    Once w' base more (fun _ => False) ↔ Once w base more (Found w base patterns) := by
  rw [Glob.once_of_loses h hw]
  simp only [or_false]

lemma Removed.behind (hw : w.WellFormed) (h : w.Loses w' (Found w base patterns))
    (h' : Removed w' w'' base more found) :
    LeadTo w found (fun k => Found w base more k ∧ ¬ Found w base patterns k) ∧
      w.Loses w'' (Found w base (patterns ++ more)) := by
  refine ⟨(h'.leads.of_loses h hw).congr fun k => Glob.found_of_loses h hw,
    (h.trans h'.loses).congr fun k => ?_⟩
  rw [Glob.found_of_loses h hw, Glob.found_append]
  tauto

/-! ## Cleaning a package -/

/-- What the categories of a package find, less what the categories in front of them find, is found
under one path in each of them. -/
structure OnceEach (w : Workspace) (p : Manifest) : Prop where
  sources : Once w p.root p.cleaning.generatedSources fun _ => False
  headers : Once w p.root p.cleaning.configHeaders (Found w p.root p.cleaning.generatedSources)
  objects : Once w p.root p.cleaning.objects
    (Found w p.root (p.cleaning.generatedSources ++ p.cleaning.configHeaders))

/-- A package that was cleaned: every file that some pattern finds is gone and nothing else has
changed, and each of them is reported in the first category that finds it. -/
structure Cleaned (w w' : Workspace) (p : Manifest) (report : CleanReport) : Prop where
  sources : LeadTo w report.generatedSources (Found w p.root p.cleaning.generatedSources)
  headers : LeadTo w report.configHeaders fun k =>
    Found w p.root p.cleaning.configHeaders k ∧ ¬ Found w p.root p.cleaning.generatedSources k
  objects : LeadTo w report.objects fun k => Found w p.root p.cleaning.objects k ∧
    ¬ Found w p.root (p.cleaning.generatedSources ++ p.cleaning.configHeaders) k
  loses : w.Loses w' (Found w p.root (allPatterns p.cleaning))

lemma cleanPackage_run_eq_ok : (cleanPackage p).run l m = (.ok report, m') ↔ ∃ m₁ m₂ m₃,
    (removeMatching p.root p.cleaning.generatedSources).run l m =
      (.ok report.generatedSources, m₁) ∧
    (removeMatching p.root p.cleaning.configHeaders).run l m₁ = (.ok report.configHeaders, m₂) ∧
    (removeMatching p.root p.cleaning.objects).run l m₂ = (.ok report.objects, m₃) ∧
    m' = { m₃ with
      events := m₃.events ++ (report.counts.map fun (name, count) =>
        "removed " ++ toString count ++ " " ++ name).map (.log .debug) } := by
  rw [cleanPackage, run_bind_eq_ok]
  constructor
  · rintro ⟨sources, m₁, h₁, h⟩
    obtain ⟨headers, m₂, h₂, h⟩ := run_bind_eq_ok.1 h
    obtain ⟨objects, m₃, h₃, h⟩ := run_bind_eq_ok.1 h
    dsimp only at h
    rw [run_bind_of_eq_ok (run_logAll _ _)] at h
    obtain ⟨rfl, rfl⟩ := run_pure_eq_ok.1 h
    exact ⟨m₁, m₂, m₃, h₁, h₂, h₃, rfl⟩
  · rintro ⟨m₁, m₂, m₃, h₁, h₂, h₃, rfl⟩
    refine ⟨_, m₁, h₁, ?_⟩
    rw [run_bind_of_eq_ok h₂, run_bind_of_eq_ok h₃]
    dsimp only
    rw [run_bind_of_eq_ok (run_logAll _ _)]
    rfl

/-- A package that was cleaned has lost what its patterns find, category by category. -/
lemma cleaned_of_run (hw : m.workspace.WellFormed)
    (h : (cleanPackage p).run l m = (.ok report, m')) :
    ∃ w' events, m' = { m with workspace := w', events := m.events ++ events } ∧
      Cleaned m.workspace w' p report ∧ OnceEach m.workspace p := by
  obtain ⟨m₁, m₂, m₃, h₁, h₂, h₃, rfl⟩ := cleanPackage_run_eq_ok.1 h
  obtain ⟨w₁, rfl, hsources⟩ := removed_of_run hw h₁
  have hw₁ := hsources.loses.wellFormed hw
  have honce₂ := once_of_run (m := { m with workspace := w₁ }) hw₁ h₂
  obtain ⟨w₂, rfl, hremoved₂⟩ := removed_of_run (m := { m with workspace := w₁ }) hw₁ h₂
  obtain ⟨hheaders, hloses₂⟩ := hremoved₂.behind hw hsources.loses
  have hw₂ := hloses₂.wellFormed hw
  have honce₃ := once_of_run (m := { m with workspace := w₂ }) hw₂ h₃
  obtain ⟨w₃, rfl, hremoved₃⟩ := removed_of_run (m := { m with workspace := w₂ }) hw₂ h₃
  obtain ⟨hobjects, hloses₃⟩ := hremoved₃.behind hw hloses₂
  exact ⟨w₃, _, rfl, ⟨hsources.leads, hheaders, hobjects, hloses₃⟩, once_of_run hw h₁,
    (once_behind hw hsources.loses).1 honce₂, (once_behind hw hloses₂).1 honce₃⟩

lemma exists_cleanPackage_of_once (hw : m.workspace.WellFormed)
    (hspelled : ∀ pattern ∈ allPatterns p.cleaning, WellSpelled (p.root.join ⟨pattern⟩))
    (honce : OnceEach m.workspace p) :
    ∃ report m', (cleanPackage p).run l m = (.ok report, m') := by
  obtain ⟨hsources, hheaders, hobjects⟩ := forall_allPatterns_iff.1 hspelled
  obtain ⟨sources, w₁, h₁, hremoved₁⟩ :=
    exists_removeMatching_of_once (l := l) hw hsources honce.sources
  have hw₁ := hremoved₁.loses.wellFormed hw
  obtain ⟨headers, w₂, h₂, hremoved₂⟩ :=
    exists_removeMatching_of_once (l := l) (m := { m with workspace := w₁ }) hw₁ hheaders
      ((once_behind hw hremoved₁.loses).2 honce.headers)
  obtain ⟨-, hloses₂⟩ := hremoved₂.behind hw hremoved₁.loses
  obtain ⟨objects, w₃, h₃, -⟩ := exists_removeMatching_of_once (l := l)
    (m := { m with workspace := w₂ }) (hloses₂.wellFormed hw) hobjects
    ((once_behind hw hloses₂).2 honce.objects)
  exact ⟨⟨sources, headers, objects⟩, _,
    cleanPackage_run_eq_ok.2 ⟨_, _, _, h₁, h₂, h₃, rfl⟩⟩

/-! ## Afterwards -/

namespace Cleaned

lemma exists_changes (h : Cleaned w w' p report) : ∃ ks : List Location, ks.Nodup ∧
    ks.length = report.total ∧ ∀ k, k ∈ ks ↔ w'.tree.node? k ≠ w.tree.node? k := by
  obtain ⟨ks₁, hleads₁, hnodup₁, hks₁⟩ := h.sources
  obtain ⟨ks₂, hleads₂, hnodup₂, hks₂⟩ := h.headers
  obtain ⟨ks₃, hleads₃, hnodup₃, hks₃⟩ := h.objects
  have hlength : ∀ {found : List Path} {ks : List Location},
      found.map w.locate = ks.map .ok → ks.length = found.length := by
    intro found ks hleads
    simpa using (congrArg List.length hleads).symm
  -- What is removed in a later category was not found by the patterns in front of it.
  refine ⟨ks₁ ++ ks₂ ++ ks₃, ?_, ?_, fun k => ?_⟩
  · refine List.Nodup.append (List.Nodup.append hnodup₁ hnodup₂ ?_) hnodup₃ ?_
    · intro k hk hk'
      exact ((hks₂ k).1 hk').2 ((hks₁ k).1 hk)
    · intro k hk hk'
      refine ((hks₃ k).1 hk').2 (Glob.found_append.2 ?_)
      rcases List.mem_append.1 hk with hk | hk
      · exact .inl ((hks₁ k).1 hk)
      · exact .inr ((hks₂ k).1 hk).1
  · rw [List.length_append, List.length_append, hlength hleads₁, hlength hleads₂, hlength hleads₃,
      CleanReport.total]
  · rw [h.loses.node?_ne_iff, List.mem_append, List.mem_append, hks₁, hks₂, hks₃, allPatterns]
    simp only [Glob.found_append]
    tauto

lemma not_found (h : Cleaned w w' p report) (hw : w.WellFormed)
    (hsub : patterns ⊆ allPatterns p.cleaning) (k : Location) : ¬ Found w' p.root patterns k := by
  intro hk
  obtain ⟨hk, hgone⟩ := (Glob.found_of_loses h.loses hw).1 hk
  exact hgone (hk.mono hsub)

lemma again (h : Cleaned w w' p report) (hw : w.WellFormed)
    (hspelled : ∀ pattern ∈ allPatterns p.cleaning, WellSpelled (p.root.join ⟨pattern⟩))
    (hm : m.workspace = w') : ∃ events, (cleanPackage p).run l m =
      (.ok ⟨[], [], []⟩, { m with events := m.events ++ events }) := by
  have hnone : ∀ patterns, patterns ⊆ allPatterns p.cleaning →
      (removeMatching p.root patterns).run l m = (.ok [], m) := by
    intro patterns hsub
    refine removeMatching_run_of_not_found (fun pattern h => hspelled pattern (hsub h)) ?_
    rw [hm]
    exact h.not_found hw hsub
  obtain ⟨hsources, hheaders, hobjects⟩ := forall_allPatterns_iff.1 fun _ h => h
  exact ⟨_, cleanPackage_run_eq_ok.2
    ⟨m, m, m, hnone _ hsources, hnone _ hheaders, hnone _ hobjects, rfl⟩⟩

end Cleaned

/-- Removing what patterns find succeeds exactly when no file is found under two paths that differ,
and cleaning a package when this holds of each of its categories, where what the categories in front
find does not count.  Then every file that is found is removed, once, and reported in the first
category that finds it, nothing else has changed, no pattern finds a file any more, and cleaning
once more does nothing.  Behind a base without marks, patterns that lead down always succeed, and
those that do not stall find what they select. -/
theorem cleaning_succeeds_iff (l : Launcher) (m : Machine) (hw : m.workspace.WellFormed) :
    (∀ base patterns, (∀ pattern ∈ patterns, WellSpelled (base.join ⟨pattern⟩)) →
      ((∃ found m', (removeMatching base patterns).run l m = (.ok found, m')) ↔
        Once m.workspace base patterns fun _ => False) ∧
      ∀ found m', (removeMatching base patterns).run l m = (.ok found, m') →
        ∃ w', m' = { m with workspace := w' } ∧ Removed m.workspace w' base patterns found) ∧
    (∀ p : Manifest,
      (∀ pattern ∈ allPatterns p.cleaning, WellSpelled (p.root.join ⟨pattern⟩)) →
      ((∃ report m', (cleanPackage p).run l m = (.ok report, m')) ↔ OnceEach m.workspace p) ∧
      ∀ report m', (cleanPackage p).run l m = (.ok report, m') → ∃ w' events,
        m' = { m with workspace := w', events := m.events ++ events } ∧
        Cleaned m.workspace w' p report ∧
        (∃ ks : List Location, ks.Nodup ∧ ks.length = report.total ∧
          ∀ k, k ∈ ks ↔ w'.tree.node? k ≠ m.workspace.tree.node? k) ∧
        (∀ pattern ∈ allPatterns p.cleaning, Glob.matching w' p.root pattern = .ok []) ∧
        ∃ more, (cleanPackage p).run l m' =
          (.ok ⟨[], [], []⟩, { m' with events := m'.events ++ more })) ∧
    ∀ base patterns, hasMark base.text = false →
      (∀ pattern ∈ patterns, (Path.mk pattern).isAbsolute = false ∧ WellSpelled ⟨pattern⟩) →
      (∀ pattern ∈ patterns, WellSpelled (base.join ⟨pattern⟩)) ∧
      ((∀ pattern ∈ patterns, LeadsDown pattern) →
        ∀ gone, Once m.workspace base patterns gone) ∧
      ((∀ pattern ∈ patterns, Confined base pattern) →
        ∀ k, Found m.workspace base patterns k ↔ Selected m.workspace base patterns k) := by
  -- One pattern list first, then the three categories of a package, then the texts of patterns.
  refine ⟨fun base patterns hspelled => ⟨⟨?_, ?_⟩, fun found m' h => removed_of_run hw h⟩,
    fun p hspelled => ⟨⟨?_, exists_cleanPackage_of_once hw hspelled⟩, fun report m' h => ?_⟩,
    fun base patterns hmark hrelative => ⟨fun pattern hpattern => ?_, fun hdown gone => ?_,
      fun hconfined k => Glob.found_iff_selected hw hmark hconfined⟩⟩
  · rintro ⟨found, m', h⟩
    exact once_of_run hw h
  · intro honce
    obtain ⟨found, w', hrun, -⟩ := exists_removeMatching_of_once (l := l) hw hspelled honce
    exact ⟨found, _, hrun⟩
  · rintro ⟨report, m', h⟩
    obtain ⟨-, -, -, -, honce⟩ := cleaned_of_run hw h
    exact honce
  · obtain ⟨w', events, rfl, hcleaned, -⟩ := cleaned_of_run hw h
    refine ⟨w', events, rfl, hcleaned, hcleaned.exists_changes, fun pattern hpattern => ?_,
      hcleaned.again hw hspelled rfl⟩
    exact Glob.matching_eq_nil (hspelled pattern hpattern)
      (hcleaned.not_found hw (by simpa using hpattern))
  · exact Glob.wellSpelled_join hmark (hrelative pattern hpattern).1 (hrelative pattern hpattern).2
  · exact Glob.once_of_leadsDown hw hmark hdown gone

/-! ## Two packages -/

/-- A package whose objects stand among its generated sources. -/
def mixedPackage : Manifest where
  package := { name := "tools" }
  cleaning := { generatedSources := ["gen/*"], objects := ["**/*.o", "*/./a.o"] }
  root := ⟨"pkg"⟩

/-- A machine with one file of that package. -/
def mixedMachine : Machine where
  workspace := { tree := ⟨[(["pkg"], .directory), (["pkg", "gen"], .directory),
    (["pkg", "gen", "a.o"], .file [] false)]⟩ }

theorem cleaning_succeeds_iff_mixedPackage :
    (∃ found m', (removeMatching ⟨"pkg"⟩ ["**/*.o", "*/./a.o"]).run idleLauncher mixedMachine =
        (.ok found, m') ∧ m'.workspace.tree.node? ["pkg", "gen", "a.o"] = none) ∧
      ∃ m' m'', (cleanPackage mixedPackage).run idleLauncher mixedMachine =
          (.ok ⟨[⟨"pkg/gen/a.o"⟩], [], []⟩, m') ∧
        OnceEach mixedMachine.workspace mixedPackage ∧
        (∀ pattern ∈ allPatterns mixedPackage.cleaning,
          Glob.matching m'.workspace ⟨"pkg"⟩ pattern = .ok []) ∧
        (cleanPackage mixedPackage).run idleLauncher m' = (.ok ⟨[], [], []⟩, m'') ∧
        m''.workspace = m'.workspace := by
  have hw : mixedMachine.workspace.WellFormed :=
    ⟨.of_entries (by decide +kernel) (by decide +kernel), by decide⟩
  have hobjects : Query.parse ⟨"**/*.o"⟩ = .ok
      ⟨false, [.directories, .marked [.anySequence, .char '.', .char 'o']], false⟩ := by
    decide +kernel
  have hconfined : ∀ pattern ∈ ["gen/*", "**/*.o", "*/./a.o"], Confined ⟨"pkg"⟩ pattern := by
    have hgen : Query.parse ⟨"gen/*"⟩ = .ok
        ⟨false, [.plain ['g', 'e', 'n'], .marked [.anySequence]], false⟩ := by decide +kernel
    have hstays : Query.parse ⟨"*/./a.o"⟩ = .ok
        ⟨false, [.marked [.anySequence], .plain ['.'], .plain ['a', '.', 'o']], false⟩ := by
      decide +kernel
    simp only [List.forall_mem_cons]
    exact ⟨⟨by decide, _, hgen, by decide, .inr (by decide +kernel)⟩,
      ⟨by decide, _, hobjects, by decide, .inr (by decide +kernel)⟩,
      ⟨by decide, _, hstays, by decide, .inr (by decide +kernel)⟩, List.forall_mem_nil _⟩
  have hbase : mixedMachine.workspace.locate (Glob.directoryOf ⟨"pkg"⟩) = .ok ["pkg"] := by
    decide +kernel
  have hselected : Selected mixedMachine.workspace ⟨"pkg"⟩ ["**/*.o", "*/./a.o"]
      ["pkg", "gen", "a.o"] := by
    refine ⟨["pkg"], ["gen", "a.o"], [], false, hbase, rfl, by simp, by decide, "**/*.o",
      by decide, _, hobjects, rfl, ?_⟩
    exact .directories ["gen"] (by decide) .nil
  obtain ⟨hremoving, hcleaning, hpatterns⟩ :=
    cleaning_succeeds_iff idleLauncher mixedMachine hw
  have hreads : ∀ patterns, patterns ⊆ ["gen/*", "**/*.o", "*/./a.o"] → ∀ pattern ∈ patterns,
      (Path.mk pattern).isAbsolute = false ∧ WellSpelled ⟨pattern⟩ := by
    intro patterns hsub pattern hpattern
    obtain ⟨hrel, q, hq, -⟩ := hconfined pattern (hsub hpattern)
    exact ⟨hrel, Glob.wellSpelled_iff.2 ⟨q, hq⟩⟩
  constructor
  · have hsub : ["**/*.o", "*/./a.o"] ⊆ ["gen/*", "**/*.o", "*/./a.o"] := by decide
    obtain ⟨hspelled, honce, hfound⟩ :=
      hpatterns ⟨"pkg"⟩ ["**/*.o", "*/./a.o"] (by decide) (hreads _ hsub)
    obtain ⟨hiff, hremoved⟩ := hremoving ⟨"pkg"⟩ _ hspelled
    obtain ⟨found, m', hrun⟩ := hiff.2
      (honce (fun pattern h => Glob.leadsDown_of_confined (hconfined pattern (hsub h))) _)
    obtain ⟨w', rfl, hloses⟩ := hremoved found m' hrun
    exact ⟨found, _, hrun, hloses.loses.absent _
      ((hfound (fun pattern h => hconfined pattern (hsub h)) _).2 hselected)⟩
  · have hrun := run_of_fst_eq_ok (b := cleanPackage mixedPackage) (l := idleLauncher)
      (m := mixedMachine) (a := ⟨[⟨"pkg/gen/a.o"⟩], [], []⟩) (by decide +kernel)
    have hspelled := (hpatterns ⟨"pkg"⟩ _ (by decide) (hreads _ (List.Subset.refl _))).1
    obtain ⟨hiff, hcleaned⟩ := hcleaning mixedPackage hspelled
    obtain ⟨w', events, hm', -, -, hnothing, more, hagain⟩ := hcleaned _ _ hrun
    refine ⟨_, _, hrun, hiff.1 ⟨_, _, hrun⟩, ?_, hagain, rfl⟩
    rw [hm']
    exact hnothing

/-- A machine with one object. -/
def oneObject : Machine where
  workspace := { tree := ⟨[(["pkg"], .directory), (["pkg", "a.o"], .file [] false)]⟩ }

/-- A component with marks that starts with a dot matches `..` too, so the one object is found under
two paths.  Its second removal fails, and the object is gone. -/
theorem removeMatching_fails_oneObject :
    oneObject.workspace.WellFormed ∧ hasMark "pkg" = false ∧
      (∀ pattern ∈ [".*/pkg/a.o", "a.o"], (Path.mk pattern).isAbsolute = false ∧
        .up ∉ (Path.mk pattern).components ∧ WellSpelled ⟨pattern⟩) ∧
      ∃ after, (removeMatching ⟨"pkg"⟩ [".*/pkg/a.o", "a.o"]).run idleLauncher oneObject =
          (.error { during := [.removing ⟨"pkg/a.o"⟩], cause := .io .notFound }, after) ∧
        after.workspace.tree.node? ["pkg", "a.o"] = none := by
  have hw : oneObject.workspace.WellFormed :=
    ⟨.of_entries (by decide +kernel) (by decide +kernel), by decide⟩
  have hpatterns : ∀ pattern ∈ [".*/pkg/a.o", "a.o"], (Path.mk pattern).isAbsolute = false ∧
      .up ∉ (Path.mk pattern).components ∧ WellSpelled ⟨pattern⟩ := by
    have hdots : Query.parse ⟨".*/pkg/a.o"⟩ = .ok ⟨false, [.marked [.char '.', .anySequence],
        .plain ['p', 'k', 'g'], .plain ['a', '.', 'o']], false⟩ := by decide +kernel
    have hplain : Query.parse ⟨"a.o"⟩ = .ok ⟨false, [.plain ['a', '.', 'o']], false⟩ := by
      decide +kernel
    simp only [List.forall_mem_cons]
    exact ⟨⟨by decide, by decide +kernel, Glob.wellSpelled_iff.2 ⟨_, hdots⟩⟩,
      ⟨by decide, by decide +kernel, Glob.wellSpelled_iff.2 ⟨_, hplain⟩⟩,
      List.forall_mem_nil _⟩
  have hfirst : Glob.matchingOrFail oneObject.workspace ⟨"pkg"⟩ ".*/pkg/a.o" =
      .ok [⟨"pkg/../pkg/a.o"⟩] := by decide +kernel
  have hsecond : Glob.matchingOrFail oneObject.workspace ⟨"pkg"⟩ "a.o" = .ok [⟨"pkg/a.o"⟩] := by
    decide +kernel
  have hsort : Path.sort [⟨"pkg/../pkg/a.o"⟩, ⟨"pkg/a.o"⟩] =
      [⟨"pkg/../pkg/a.o"⟩, ⟨"pkg/a.o"⟩] := List.mergeSort_of_pairwise (by decide +kernel)
  have hfiles : Glob.files oneObject.workspace ⟨"pkg"⟩ [".*/pkg/a.o", "a.o"] =
      .ok [⟨"pkg/../pkg/a.o"⟩, ⟨"pkg/a.o"⟩] := by
    have hlists : [".*/pkg/a.o", "a.o"].mapM (Glob.matchingOrFail oneObject.workspace ⟨"pkg"⟩) =
        .ok [[⟨"pkg/../pkg/a.o"⟩], [⟨"pkg/a.o"⟩]] := Glob.mapM_eq_ok_iff.2
      (.cons hfirst (.cons hsecond .nil))
    rw [Glob.files, hlists]
    simp only [bind, Except.bind, List.flatten_cons, List.flatten_nil, List.singleton_append, hsort]
    decide +kernel
  have hremove := run_of_fst_eq_error (b := removeAll [⟨"pkg/../pkg/a.o"⟩, ⟨"pkg/a.o"⟩])
    (l := idleLauncher) (m := oneObject)
    (e := { during := [.removing ⟨"pkg/a.o"⟩], cause := .io .notFound }) (by decide +kernel)
  have hrun : (removeMatching ⟨"pkg"⟩ [".*/pkg/a.o", "a.o"]).run idleLauncher oneObject =
      (.error { during := [.removing ⟨"pkg/a.o"⟩], cause := .io .notFound },
        ((removeAll [⟨"pkg/../pkg/a.o"⟩, ⟨"pkg/a.o"⟩]).run idleLauncher oneObject).2) := by
    rw [removeMatching, run_bind_of_eq_ok run_workspace, hfiles,
      run_bind_of_eq_ok (run_ofExcept _)]
    exact run_bind_eq_error.2 (.inl hremove)
  exact ⟨hw, by decide, hpatterns, _, hrun, by decide +kernel⟩

end Build

end Drydock
