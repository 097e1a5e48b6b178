import Drydock.Build.Session
import Drydock.Proofs.Build.Run
import Drydock.Proofs.FileTree.Remove
import Drydock.Proofs.Glob.Marks

/-!
# What cleaning removes

Cleaning removes what its patterns find, one category after the other, and every category is looked
for in what the one in front of it left.  Taken together it is the files that some pattern selects:
they lie below the directory of the package, and nothing else is touched.

The categories share their patterns' base, and a file may be selected in two of them.  It is removed
in the first and is not there for the second, so what is selected is always said of the tree in
front of the category (`Build.selected_of_loses`), and the whole is a union and not a sum.

The exception is a base with a mark in it.  It is joined to the patterns as a text, and the mark is
read like one of theirs, so the search leaves the package.

* `Build.removeAll_run` — removing files that are there, each one once, never fails.
* `Build.exists_removeMatching`, `Build.exists_cleanPackage` — what is removed.
* `Build.cleaning_confined` — for which bases and patterns that is what should be removed.
-/

namespace Drydock

open Glob (Selected LeadTo Confined Query hasMark directoryOf)

namespace Build

variable {l : Launcher} {m : Machine} {w w' : Workspace} {base : Path} {patterns : List String}
  {more : List String} {found : List Path} {ks : List Location} {gone : Location → Prop}
  {k : Location}

/-! ## Removing files -/

lemma removeAll_run (hfound : found.map m.workspace.locate = ks.map .ok) (hnodup : ks.Nodup)
    (hfiles : ∀ k ∈ ks, ∃ contents executable,
      m.workspace.tree.node? k = some (.file contents executable)) (hw : m.workspace.WellFormed) :
    ∃ w', (removeAll found).run l m = (.ok (), { m with workspace := w' }) ∧
      m.workspace.Loses w' (· ∈ ks) := by
  induction found generalizing m ks with
  | nil =>
      obtain rfl : ks = [] := by simpa using hfound.symm
      exact ⟨m.workspace, rfl, (Workspace.Loses.refl _).congr (by simp)⟩
  | cons p rest ih =>
      cases ks with
      | nil => simp at hfound
      | cons k ks =>
          obtain ⟨hp, hrest⟩ := List.cons.inj hfound
          obtain ⟨hk, hnodup⟩ := List.nodup_cons.1 hnodup
          obtain ⟨contents, executable, hfile⟩ := hfiles k (by simp)
          obtain ⟨w₁, hremove, hloses⟩ := Workspace.exists_remove hp hfile
          have hone : (during (.removing p) (change fun w => w.remove p)).run l m =
              (.ok (), { m with workspace := w₁ }) :=
            run_during_eq_ok.2 (run_change_eq_ok.2 ⟨w₁, hremove, rfl⟩)
          have hapart : ∀ j ∈ ks, j ≠ k := by
            rintro j hj rfl
            exact hk hj
          -- The paths behind lead where they led, since no other file is gone.
          have hrest' : rest.map w₁.locate = ks.map .ok :=
            (hloses.map_locate_iff hw).2 ⟨hrest, hapart⟩
          obtain ⟨w₂, hrun, hloses'⟩ := @ih { m with workspace := w₁ } ks hrest' hnodup
            (fun j hj => by
              rw [hloses.rest j (hapart j hj)]
              exact hfiles j (List.mem_cons_of_mem _ hj)) (hloses.wellFormed hw)
          refine ⟨w₂, ?_, (hloses.trans hloses').congr (by simp)⟩
          have hcons : removeAll (p :: rest) = (do
              during (.removing p) (change fun w => w.remove p)
              removeAll rest) := rfl
          rw [hcons, run_bind_of_eq_ok hone]
          exact hrun

/-! ## Patterns -/

lemma selected_append : Selected w base (patterns ++ more) k ↔
    Selected w base patterns k ∨ Selected w base more k := by
  simp only [Selected, List.mem_append, or_and_right, exists_or, and_or_left]

/-- What is selected when some files are gone is what was selected before, without those files. -/
lemma selected_of_loses (h : w.Loses w' gone) (hw : w.WellFormed) :
    Selected w' base patterns k ↔ Selected w base patterns k ∧ ¬ gone k := by
  constructor
  · rintro ⟨l, names, contents, executable, hl, rfl, hnames, hnode, hselects⟩
    have hk : ¬ gone (l ++ names) := (h.isSome_iff.1 (by rw [hnode]; rfl)).2
    rw [h.rest _ hk] at hnode
    have hl' := ((h.locate_iff hw).1 hl).1
    exact ⟨⟨l, names, contents, executable, hl', rfl, hnames, hnode, hselects⟩, hk⟩
  · rintro ⟨⟨l, names, contents, executable, hl, rfl, hnames, hnode, hselects⟩, hk⟩
    have hdir := hw.tree.isDirectoryAt_of_append (by rw [hnode]; rfl) hnames
    refine ⟨l, names, contents, executable,
      (h.locate_iff hw).2 ⟨hl, h.not_gone_of_isDirectoryAt hdir⟩, rfl, hnames, ?_, hselects⟩
    rw [h.rest _ hk, hnode]

lemma exists_removeMatching (hw : m.workspace.WellFormed) (hmark : hasMark base.text = false)
    (hconfined : ∀ pattern ∈ patterns, Confined base pattern) :
    ∃ found w', Glob.files m.workspace base patterns = .ok found ∧
      LeadTo m.workspace found (Selected m.workspace base patterns) ∧
      (removeMatching base patterns).run l m = (.ok found, { m with workspace := w' }) ∧
      m.workspace.Loses w' (Selected m.workspace base patterns) := by
  obtain ⟨found, hfiles, ks, hfound, hnodup, hks⟩ := Glob.exists_files hw hmark hconfined
  obtain ⟨w', hrun, hloses⟩ := @removeAll_run l m found ks hfound hnodup (fun k hk => by
    obtain ⟨-, -, contents, executable, -, -, -, hnode, -⟩ := (hks k).1 hk
    exact ⟨contents, executable, hnode⟩) hw
  refine ⟨found, w', hfiles, ⟨ks, hfound, hnodup, hks⟩, ?_, hloses.congr hks⟩
  rw [removeMatching, run_bind_of_eq_ok run_workspace, hfiles,
    run_bind_of_eq_ok (run_ofExcept _), run_bind_of_eq_ok hrun]
  rfl

/-- The patterns of all categories. -/
def allPatterns (c : Cleaning) : List String := c.generatedSources ++ c.configHeaders ++ c.objects

lemma forall_allPatterns_iff {c : Cleaning} {P : String → Prop} :
    (∀ pattern ∈ allPatterns c, P pattern) ↔ (∀ pattern ∈ c.generatedSources, P pattern) ∧
      (∀ pattern ∈ c.configHeaders, P pattern) ∧ ∀ pattern ∈ c.objects, P pattern := by
  simp only [allPatterns, List.mem_append, or_imp, forall_and, and_assoc]

lemma exists_cleanPackage {p : Manifest} (hw : m.workspace.WellFormed)
    (hmark : hasMark p.root.text = false)
    (hconfined : ∀ pattern ∈ allPatterns p.cleaning, Confined p.root pattern) :
    ∃ report w' events,
      (cleanPackage p).run l m =
        (.ok report, { m with workspace := w', events := m.events ++ events }) ∧
      m.workspace.Loses w' (Selected m.workspace p.root (allPatterns p.cleaning)) := by
  obtain ⟨hsources, hheaders, hobjects⟩ := forall_allPatterns_iff.1 hconfined
  obtain ⟨sources, w₁, -, -, hrun₁, hloses₁⟩ := @exists_removeMatching l m p.root
    p.cleaning.generatedSources hw hmark hsources
  have hw₁ := hloses₁.wellFormed hw
  obtain ⟨headers, w₂, -, -, hrun₂, hloses₂⟩ :=
    @exists_removeMatching l { m with workspace := w₁ } p.root p.cleaning.configHeaders hw₁ hmark
      hheaders
  have hw₂ := hloses₂.wellFormed hw₁
  obtain ⟨objects, w₃, -, -, hrun₃, hloses₃⟩ :=
    @exists_removeMatching l { m with workspace := w₂ } p.root p.cleaning.objects hw₂ hmark
      hobjects
  have hrun : ∃ events, (cleanPackage p).run l m = (.ok ⟨sources, headers, objects⟩,
      { m with workspace := w₃, events := m.events ++ events }) := by
    rw [cleanPackage, run_bind_of_eq_ok hrun₁, run_bind_of_eq_ok hrun₂, run_bind_of_eq_ok hrun₃]
    dsimp only
    rw [run_bind_of_eq_ok (run_logAll _ _)]
    exact ⟨_, rfl⟩
  obtain ⟨events, hrun⟩ := hrun
  -- What the later categories select is said of a tree that has lost something already.
  have hboth := hloses₁.trans hloses₂
  refine ⟨⟨sources, headers, objects⟩, w₃, events, hrun, (hboth.trans hloses₃).congr fun k => ?_⟩
  rw [selected_of_loses hboth hw, selected_of_loses hloses₁ hw, allPatterns, selected_append,
    selected_append]
  tauto

/-- Where the base holds no marks and the patterns lead down, the files that are found, and those
that are removed, are the files below the base that some pattern selects, and nothing else changes.
Where the base is a name with a mark, there is a tree in which other files are found. -/
theorem cleaning_confined (base : Path) :
    (hasMark base.text = false → ∀ (l : Launcher) (m : Machine) (patterns : List String),
      m.workspace.WellFormed → (∀ pattern ∈ patterns, Confined base pattern) →
      (∃ found w', Glob.files m.workspace base patterns = .ok found ∧
        LeadTo m.workspace found (Selected m.workspace base patterns) ∧
        (removeMatching base patterns).run l m = (.ok found, { m with workspace := w' }) ∧
        m.workspace.Loses w' (Selected m.workspace base patterns)) ∧
      ∀ p : Manifest, p.root = base → allPatterns p.cleaning ⊆ patterns → ∃ report w' events,
        (cleanPackage p).run l m =
          (.ok report, { m with workspace := w', events := m.events ++ events }) ∧
        m.workspace.Loses w' (Selected m.workspace base (allPatterns p.cleaning))) ∧
    (ValidName base.text → hasMark base.text = true →
      ∃ (w : Workspace) (pattern : String) (k : Location), w.WellFormed ∧
        w.locate (directoryOf base) = .ok k ∧ Confined base pattern ∧
        ¬ ∃ found, Glob.files w base [pattern] = .ok found ∧
          LeadTo w found (Selected w base [pattern])) := by
  constructor
  · intro hmark l m patterns hw hconfined
    refine ⟨exists_removeMatching hw hmark hconfined, ?_⟩
    rintro p rfl hpatterns
    exact exists_cleanPackage hw hmark fun pattern hpattern =>
      hconfined pattern (hpatterns hpattern)
  · intro hname hmark
    exact Glob.exists_not_leadTo hname hmark

/-! ## Two packages side by side -/

/-- A package that is cleaned of its objects. -/
def objectPackage : Manifest where
  package := { name := "tools" }
  cleaning := { objects := ["**/*.o"] }
  root := ⟨"pkg"⟩

/-- A machine with the object of a package, and the object of another package beside it. -/
def neighbours (name : String) : Machine where
  workspace := { tree := ⟨[([name], .directory), ([name, "a.o"], .file [] false),
    (["pkg2"], .directory), (["pkg2", "b.o"], .file [] false)]⟩ }

/-- A launcher of programs that do nothing. -/
def idleLauncher : Launcher := fun m _ => (.ok { code := some 0 }, m.workspace.tree)

theorem cleaning_confined_objectPackage : ∃ report w' events,
    (cleanPackage objectPackage).run idleLauncher (neighbours "pkg") =
      (.ok report, { neighbours "pkg" with workspace := w', events := events }) ∧
    w'.tree.node? ["pkg", "a.o"] = none ∧
    w'.tree.node? ["pkg2", "b.o"] = some (.file [] false) := by
  have hw : (neighbours "pkg").workspace.WellFormed :=
    ⟨.of_entries (by decide +kernel) (by decide +kernel), by decide⟩
  have hquery : Query.parse ⟨"**/*.o"⟩ = .ok
      ⟨false, [.directories, .marked [.anySequence, .char '.', .char 'o']], false⟩ := by
    decide +kernel
  have hconfined : ∀ pattern ∈ ["**/*.o"], Confined ⟨"pkg"⟩ pattern := by
    intro pattern hpattern
    rw [List.mem_singleton.1 hpattern]
    exact ⟨by decide, _, hquery, by decide, .inr (by decide +kernel)⟩
  have hbase : (neighbours "pkg").workspace.locate (directoryOf ⟨"pkg"⟩) = .ok ["pkg"] := by
    decide +kernel
  obtain ⟨report, w', events, hrun, hloses⟩ :=
    ((cleaning_confined ⟨"pkg"⟩).1 (by decide) idleLauncher (neighbours "pkg") ["**/*.o"] hw
      hconfined).2 objectPackage rfl (List.Subset.refl _)
  refine ⟨report, w', events, hrun, hloses.absent _ ?_, (hloses.rest _ ?_).trans (by decide)⟩
  · refine ⟨["pkg"], ["a.o"], [], false, hbase, rfl, by simp, by decide, "**/*.o", by decide, _,
      hquery, rfl, ?_⟩
    exact .directories [] (by decide) .nil
  · rintro ⟨l, names, -, -, hl, hk, -⟩
    obtain rfl := Except.ok.inj (hl.symm.trans hbase)
    simp at hk

/-- A mark in the name of a directory is read as a pattern, and what it stands for is cleaned too:
of two packages the one that is cleaned stays as it is, and the other one loses its object. -/
theorem removeMatching_strays_neighbours :
    (neighbours "p*").workspace.WellFormed ∧ Confined ⟨"p*"⟩ "b.*" ∧
      (neighbours "p*").workspace.locate ⟨"p*"⟩ = .ok ["p*"] ∧
      ¬ Selected (neighbours "p*").workspace ⟨"p*"⟩ ["b.*"] ["pkg2", "b.o"] ∧
      ∃ after, (removeMatching ⟨"p*"⟩ ["b.*"]).run idleLauncher (neighbours "p*") =
          (.ok [⟨"pkg2/b.o"⟩], after) ∧
        after.workspace.tree.node? ["pkg2", "b.o"] = none := by
  have hw : (neighbours "p*").workspace.WellFormed :=
    ⟨.of_entries (by decide +kernel) (by decide +kernel), by decide⟩
  have hnames : Glob.namesIn (neighbours "p*").workspace ⟨"."⟩ = ["p*", "pkg2"] := by
    rw [Glob.namesIn, Glob.locate_here hw]
    exact List.mergeSort_of_pairwise (by decide +kernel)
  have hquery : Query.parse ((⟨"p*"⟩ : Path).join ⟨"b.*"⟩) = .ok
      ⟨false, [.marked [.char 'p', .anySequence], .marked [.char 'b', .char '.', .anySequence]],
        false⟩ := by decide +kernel
  have hsearch : Query.run
      ⟨false, [.marked [.char 'p', .anySequence], .marked [.char 'b', .char '.', .anySequence]],
        false⟩ (neighbours "p*").workspace = [⟨"pkg2/b.o"⟩] := by
    rw [Query.run, Glob.search]
    simp only [Bool.false_eq_true, if_false, hnames]
    decide +kernel
  have hmatching : Glob.matching (neighbours "p*").workspace ⟨"p*"⟩ "b.*" =
      .ok [⟨"pkg2/b.o"⟩] := by
    rw [Glob.matching, hquery]
    simp only [bind, Except.bind, hsearch]
    decide +kernel
  have hfiles : Glob.files (neighbours "p*").workspace ⟨"p*"⟩ ["b.*"] = .ok [⟨"pkg2/b.o"⟩] := by
    rw [Glob.files, List.mapM_cons, List.mapM_nil, Glob.matchingOrFail, hmatching]
    decide +kernel
  have hremove := run_of_fst_eq_ok (b := removeAll [⟨"pkg2/b.o"⟩]) (l := idleLauncher)
    (m := neighbours "p*") (a := ()) (by decide +kernel)
  have hrun : (removeMatching ⟨"p*"⟩ ["b.*"]).run idleLauncher (neighbours "p*") =
      (.ok [⟨"pkg2/b.o"⟩],
        ((removeAll [⟨"pkg2/b.o"⟩]).run idleLauncher (neighbours "p*")).2) := by
    rw [removeMatching, run_bind_of_eq_ok run_workspace, hfiles,
      run_bind_of_eq_ok (run_ofExcept _), run_bind_of_eq_ok hremove]
    rfl
  have hbase : (neighbours "p*").workspace.locate ⟨"p*"⟩ = .ok ["p*"] := by decide +kernel
  have hconfined : Confined ⟨"p*"⟩ "b.*" :=
    ⟨by decide, ⟨false, [.marked [.char 'b', .char '.', .anySequence]], false⟩, by decide +kernel,
      by decide, .inr (by decide +kernel)⟩
  refine ⟨hw, hconfined, hbase, ?_, _, hrun, by decide +kernel⟩
  rintro ⟨l, names, -, -, hl, hk, -⟩
  obtain rfl := Except.ok.inj (hl.symm.trans hbase)
  simp at hk

end Build

end Drydock
