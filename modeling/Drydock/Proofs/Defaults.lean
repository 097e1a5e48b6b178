import Drydock.Manifest.Modules
import Drydock.Proofs.FileTree.Spelling
import Drydock.Proofs.Glob.Sources

/-!
# What modules share

The lists of `[defaults]` are put together with those of a module.  Directories, definitions and
arguments of the package stand in front of those of the module.  The sources are put together the
other way round, so of two spellings of one source that of the module stays, and the sources that
only the package names are compiled last.

For directories, definitions and arguments the result is the list of the package followed by the
list of the module, and there is nothing to prove but that.  Source lists are expanded, and
expanding drops every path that an earlier one has spelled, so putting them together is not an
append.  `Glob.beyond` is what is left of the second list: expanding two lists behind each other
gives the paths of the first and then what the second adds.

Since no path is lost either way, the order is all that the two ways of putting the lists together
can differ in.  They agree exactly when one of the expanded lists is the start of the other, and
then all of the shorter list is at the front in both.  A module with sources of its own and a
package with others is the ordinary case, and there they differ.

* `Glob.beyond` — what a source list adds to another one.
* `Glob.expand_append_eq_ok_iff` — two source lists behind each other.
* `Glob.append_beyond_eq_iff`, `Glob.append_beyond_same_iff` — when it does not matter which of the
  two stands in front.
* `Manifest.SharedFirst` — the lists in which the package comes first.
* `Manifest.module_lists` — all lists of a module, and when its sources are those of the package
  followed by its own.
-/

namespace Drydock

/-! ## Two source lists -/

namespace Glob

variable {w : Workspace} {base p : Path} {patterns more : List String}
  {seen all front back rest found : List Path}

/-- The paths of a list that are not mentioned in another one. -/
def beyond (seen all : List Path) : List Path :=
  all.filter fun p => !seen.any fun q => decide (p.Same q)

lemma mem_beyond : p ∈ beyond seen all ↔ p ∈ all ∧ ¬ Mentioned seen p := by
  rw [beyond, List.mem_filter, Bool.not_eq_true', ← Bool.not_eq_true, any_same_iff]

lemma beyond_append (seen front back : List Path) :
    beyond seen (front ++ back) = beyond seen front ++ beyond seen back := List.filter_append ..

lemma beyond_eq_self (h : ∀ p ∈ all, ¬ Mentioned seen p) : beyond seen all = all := by
  refine List.filter_eq_self.2 fun p hp => ?_
  rw [Bool.not_eq_true', ← Bool.not_eq_true, any_same_iff]
  exact h p hp

lemma beyond_eq_nil (h : ∀ p ∈ all, Mentioned seen p) : beyond seen all = [] := by
  refine List.eq_nil_iff_forall_not_mem.2 fun p hp => ?_
  obtain ⟨hall, hnew⟩ := mem_beyond.1 hp
  exact hnew (h p hall)

lemma mentioned_keepFirst : Mentioned (keepFirst [] all) p ↔ Mentioned all p := by
  obtain ⟨hall, hsub, -⟩ := keepFirst_spec all
  constructor
  · rintro ⟨q, hq, hsame⟩
    exact ⟨q, hsub.subset hq, hsame⟩
  · rintro ⟨q, hq, hsame⟩
    obtain ⟨r, hr, hrsame⟩ := hall q hq
    exact ⟨r, hr, hrsame.trans hsame⟩

lemma keepFirst_eq_beyond (seen all : List Path) :
    keepFirst seen all = beyond seen (keepFirst [] all) := by
  classical
  induction all using List.reverseRecOn with
  | nil => rfl
  | append_singleton all p ih =>
      rw [keepFirst_append, keepFirst_concat, ih, keepFirst, keepFirst]
      -- The last path is mentioned before in the list, or in what was seen, or it is new.
      by_cases hall : Mentioned all p
      · rw [if_pos hall, if_pos (any_same_iff.2 (mentioned_append.2 (.inl hall))),
          List.append_nil]
      · rw [if_neg hall, beyond_append]
        by_cases hseen : Mentioned seen p
        · have hlast : beyond seen [p] = [] := beyond_eq_nil (by simpa using hseen)
          rw [if_pos (any_same_iff.2 (mentioned_append.2 (.inr hseen))), hlast]
        · have hlast : beyond seen [p] = [p] := beyond_eq_self (by simpa using hseen)
          have hnew : ¬ Mentioned (all ++ seen) p := by
            rw [mentioned_append]
            exact not_or.2 ⟨hall, hseen⟩
          rw [if_neg (mt any_same_iff.1 hnew), keepFirst, hlast]

lemma keepFirst_append_eq_beyond (all behind : List Path) : keepFirst [] (all ++ behind) =
    keepFirst [] all ++ beyond (keepFirst [] all) (keepFirst [] behind) := by
  rw [keepFirst_append, List.append_nil, ← keepFirst_eq_beyond]
  exact congrArg _ (keepFirst_congr (fun p => mentioned_keepFirst.symm) behind)

/-- Two source lists behind each other stand for the paths of the first and for those that the
second adds. -/
lemma expand_append_eq_ok_iff : expand w base (patterns ++ more) = .ok found ↔
    ∃ front back, expand w base patterns = .ok front ∧ expand w base more = .ok back ∧
      found = front ++ beyond front back := by
  simp only [expand_eq_ok_iff]
  constructor
  · rintro ⟨lists, hall, rfl⟩
    have hfront := List.forall₂_take patterns.length hall
    have hback := List.forall₂_drop patterns.length hall
    rw [List.take_left] at hfront
    rw [List.drop_left] at hback
    refine ⟨_, _, ⟨_, hfront, rfl⟩, ⟨_, hback, rfl⟩, ?_⟩
    rw [← keepFirst_append_eq_beyond, ← List.flatten_append, List.take_append_drop]
  · rintro ⟨front, back, ⟨lists, hfront, rfl⟩, ⟨lists', hback, rfl⟩, rfl⟩
    refine ⟨lists ++ lists', List.rel_append hfront hback, ?_⟩
    rw [List.flatten_append, keepFirst_append_eq_beyond]

lemma expand_pairwise (h : expand w base patterns = .ok found) :
    found.Pairwise fun p q => ¬ p.Same q := by
  obtain ⟨lists, -, rfl⟩ := expand_eq_ok_iff.1 h
  exact (keepFirst_spec lists.flatten).2.2

lemma mentioned_append_beyond :
    Mentioned (front ++ beyond front back) p ↔ Mentioned front p ∨ Mentioned back p := by
  rw [mentioned_append]
  constructor
  · rintro (hfront | ⟨q, hq, hsame⟩)
    · exact .inl hfront
    · exact .inr ⟨q, (mem_beyond.1 hq).1, hsame⟩
  · rintro (hfront | ⟨q, hq, hsame⟩)
    · exact .inl hfront
    · by_cases hmentioned : Mentioned front q
      · obtain ⟨r, hr, hrsame⟩ := hmentioned
        exact .inl ⟨r, hr, hrsame.trans hsame⟩
      · exact .inr ⟨q, mem_beyond.2 ⟨hq, hmentioned⟩, hsame⟩

lemma mentioned_iff_components : Mentioned all p ↔ p.components ∈ all.map Path.components :=
  List.mem_map.symm

/-- A list that starts with the paths of another one, however they are spelled, adds its rest. -/
lemma beyond_of_same_start (h : (front ++ rest).Pairwise fun p q => ¬ p.Same q)
    (hsame : front.map Path.components = all.map Path.components) :
    beyond all (front ++ rest) = rest ∧ beyond (front ++ rest) all = [] := by
  obtain ⟨-, -, hapart⟩ := List.pairwise_append.1 h
  have hall : ∀ p, Mentioned all p ↔ Mentioned front p := by
    intro p
    rw [mentioned_iff_components, mentioned_iff_components, hsame]
  constructor
  · rw [beyond_append, beyond_eq_nil fun p hp => (hall p).2 ⟨p, hp, rfl⟩, List.nil_append]
    refine beyond_eq_self fun p hp hmentioned => ?_
    obtain ⟨q, hq, hqp⟩ := (hall p).1 hmentioned
    exact hapart q hq p hp hqp
  · exact beyond_eq_nil fun p hp =>
      mentioned_append.2 (.inl ((hall p).1 ⟨p, hp, rfl⟩))

/-- It does not matter which of two source lists stands in front exactly when one of them starts
with the other. -/
lemma append_beyond_eq_iff (hfront : front.Pairwise fun p q => ¬ p.Same q)
    (hback : back.Pairwise fun p q => ¬ p.Same q) :
    front ++ beyond front back = back ++ beyond back front ↔ front <+: back ∨ back <+: front := by
  constructor
  · intro h
    -- Both lists are starts of the same one, so one is a start of the other.
    refine List.prefix_or_prefix_of_prefix (List.prefix_append front (beyond front back)) ?_
    rw [h]
    exact List.prefix_append back _
  · rintro (⟨rest, rfl⟩ | ⟨rest, rfl⟩)
    · obtain ⟨hadds, hnothing⟩ := beyond_of_same_start hback rfl
      rw [hadds, hnothing, List.append_nil]
    · obtain ⟨hadds, hnothing⟩ := beyond_of_same_start hfront rfl
      rw [hadds, hnothing, List.append_nil]

/-- Up to the spelling of the paths, it does not matter exactly when one of the lists starts with
the paths of the other. -/
lemma append_beyond_same_iff (hfront : front.Pairwise fun p q => ¬ p.Same q)
    (hback : back.Pairwise fun p q => ¬ p.Same q) :
    (front ++ beyond front back).map Path.components =
        (back ++ beyond back front).map Path.components ↔
      front.map Path.components <+: back.map Path.components ∨
        back.map Path.components <+: front.map Path.components := by
  constructor
  · intro h
    refine List.prefix_or_prefix_of_prefix
      ((List.prefix_append front (beyond front back)).map Path.components) ?_
    rw [h]
    exact (List.prefix_append back _).map Path.components
  -- The start that agrees is one of spellings, so the list is cut after as many paths.
  · rintro (⟨_, h⟩ | ⟨_, h⟩)
    · obtain ⟨start, rest, rfl, hstart, rfl⟩ := List.map_eq_append_iff.1 h.symm
      obtain ⟨hadds, hnothing⟩ := beyond_of_same_start hback hstart
      rw [hadds, hnothing, List.append_nil, List.map_append, List.map_append, hstart]
    · obtain ⟨start, rest, rfl, hstart, rfl⟩ := List.map_eq_append_iff.1 h.symm
      obtain ⟨hadds, hnothing⟩ := beyond_of_same_start hfront hstart
      rw [hadds, hnothing, List.append_nil, List.map_append, List.map_append, hstart]

end Glob

/-! ## Modules -/

namespace Manifest

variable {m : Manifest} {w : Workspace} {entry : ModuleEntry} {module : Module}

/-- An absolute path of a manifest stays, any other one is looked for in the directory of the
manifest. -/
lemma path_spec (m : Manifest) (p : Path) : (p.isAbsolute = true → m.path p = p) ∧
    (p.isAbsolute = false → (m.path p).components.filter (· ≠ .here) =
      m.root.components.filter (· ≠ .here) ++ p.components.filter (· ≠ .here)) := by
  constructor
  · intro h
    rw [path, Path.join, if_pos (.inl h)]
  · exact Path.filter_ne_here_join m.root

/-- The options that the package and a module list, with those of the package in front. -/
structure SharedFirst (m : Manifest) (entry : ModuleEntry) (module : Module) : Prop where
  includeDirs : module.includeDirs =
    m.defaults.includeDirs.map m.path ++ entry.includeDirs.map m.path
  libraryDirs : module.libraryDirs =
    m.defaults.libraryDirs.map m.path ++ entry.libraryDirs.map m.path
  defines : module.defines =
    m.defaults.defines.map Define.ofText ++ entry.defines.map Define.ofText
  compileArgs : module.compileArgs = m.defaults.compileArgs ++ entry.compileArgs
  linkArgs : module.linkArgs = m.defaults.linkArgs ++ entry.linkArgs

lemma sharedFirst_resolveModule (m : Manifest) (entry : ModuleEntry) (sources : List Path) :
    m.SharedFirst entry (m.resolveModule entry sources) where
  includeDirs := List.map_append
  libraryDirs := List.map_append
  defines := List.map_append
  compileArgs := rfl
  linkArgs := rfl

lemma module?_eq_ok_iff : m.module? w entry = .ok module ↔ ∃ sources, sources ≠ [] ∧
    Glob.expand w m.root (m.sourcePatterns entry) = .ok sources ∧
      m.resolveModule entry sources = module := by
  rw [module?]
  cases hexpand : Glob.expand w m.root (m.sourcePatterns entry) with
  | error e => simp [bind, Except.bind]
  | ok sources =>
      cases sources with
      | nil => simp [bind, Except.bind]
      | cons p rest => simp [bind, Except.bind, pure, Except.pure]

/-- The lists of a module.  Directories, definitions and arguments of the package stand in front of
those of the module, and paths that are not absolute are resolved against the directory of the
manifest.  The sources are those of the module followed by what the package adds to them, so that
none is lost.  They are those of the package followed by what the module adds, as the other lists
are, exactly when the paths of one of the two lists start with those of the other. -/
theorem module_lists (m : Manifest) (w : Workspace) :
    (∀ p : Path, (p.isAbsolute = true → m.path p = p) ∧
      (p.isAbsolute = false → (m.path p).components.filter (· ≠ .here) =
        m.root.components.filter (· ≠ .here) ++ p.components.filter (· ≠ .here))) ∧
    (∀ modules, m.modules? w = .ok modules ↔
      List.Forall₂ (fun entry module => m.module? w entry = .ok module) m.modules modules) ∧
    ∀ entry module, m.module? w entry = .ok module → m.SharedFirst entry module ∧
      ∃ own shared, Glob.expand w m.root entry.sources = .ok own ∧
        Glob.expand w m.root m.defaults.sources = .ok shared ∧
        module.sources = own ++ Glob.beyond own shared ∧
        (∀ p, Glob.Mentioned module.sources p ↔
          Glob.Mentioned own p ∨ Glob.Mentioned shared p) ∧
        ∃ found, Glob.expand w m.root (m.defaults.sources ++ entry.sources) = .ok found ∧
          found = shared ++ Glob.beyond shared own ∧
          (module.sources = found ↔ own <+: shared ∨ shared <+: own) ∧
          (module.sources.map Path.components = found.map Path.components ↔
            own.map Path.components <+: shared.map Path.components ∨
              shared.map Path.components <+: own.map Path.components) := by
  refine ⟨path_spec m, fun modules => Glob.mapM_eq_ok_iff, fun entry module h => ?_⟩
  obtain ⟨sources, -, hexpand, rfl⟩ := module?_eq_ok_iff.1 h
  obtain ⟨own, shared, hown, hshared, hsources⟩ := Glob.expand_append_eq_ok_iff.1 hexpand
  have hownApart := Glob.expand_pairwise hown
  have hsharedApart := Glob.expand_pairwise hshared
  refine ⟨sharedFirst_resolveModule m entry sources, own, shared, hown, hshared, hsources,
    fun p => ?_, _, Glob.expand_append_eq_ok_iff.2 ⟨shared, own, hshared, hown, rfl⟩, rfl, ?_, ?_⟩
  · rw [show (m.resolveModule entry sources).sources = _ from hsources]
    exact Glob.mentioned_append_beyond
  · rw [show (m.resolveModule entry sources).sources = _ from hsources]
    exact Glob.append_beyond_eq_iff hownApart hsharedApart
  · rw [show (m.resolveModule entry sources).sources = _ from hsources]
    exact Glob.append_beyond_same_iff hownApart hsharedApart

/-- A module with one source of its own. -/
def ownEntry : ModuleEntry where
  name := "libx"
  sources := ["own.c"]

/-- A module that names a source of the package, too. -/
def overlappingEntry : ModuleEntry where
  name := "liby"
  sources := ["own.c", "./a.c"]
  includeDirs := [⟨"/usr/include"⟩]
  defines := ["B"]

/-- A package whose modules share sources, a directory and a definition. -/
def sharingPackage : Manifest where
  package := { name := "pysam" }
  defaults := { sources := ["*.c", "base.c"], includeDirs := [⟨"h"⟩], defines := ["A=1"] }
  modules := [ownEntry, overlappingEntry]
  root := ⟨"pkg"⟩

/-- The second module of the package. -/
def overlappingModule : Module where
  name := "liby"
  sources := [⟨"pkg/own.c"⟩, ⟨"pkg/./a.c"⟩, ⟨"pkg/base.c"⟩]
  includeDirs := [⟨"pkg/h"⟩, ⟨"/usr/include"⟩]
  defines := [⟨"A", some "1"⟩, ⟨"B", none⟩]

theorem module_lists_overlapping :
    sharingPackage.module? Glob.oneSource overlappingEntry = .ok overlappingModule ∧
      sharingPackage.SharedFirst overlappingEntry overlappingModule ∧
      sharingPackage.path ⟨"/usr/include"⟩ = ⟨"/usr/include"⟩ ∧
      Glob.Mentioned overlappingModule.sources ⟨"pkg/a.c"⟩ := by
  have hmodule : sharingPackage.module? Glob.oneSource overlappingEntry =
      .ok overlappingModule := by decide +kernel
  obtain ⟨hpath, -, hlists⟩ := module_lists sharingPackage Glob.oneSource
  obtain ⟨hfirst, own, shared, -, hshared, -, hmentioned, -⟩ := hlists _ _ hmodule
  have hpaths : Glob.expand Glob.oneSource sharingPackage.root sharingPackage.defaults.sources =
      .ok [⟨"pkg/a.c"⟩, ⟨"pkg/base.c"⟩] := by decide +kernel
  obtain rfl := Except.ok.inj (hshared.symm.trans hpaths)
  exact ⟨hmodule, hfirst, (hpath _).1 (by decide),
    (hmentioned _).2 (.inr ⟨_, List.mem_cons_self, rfl⟩)⟩

/-- The source of a module stands in front of those that the package lists for all modules. -/
theorem module_sources_own_first : ∃ module found,
    sharingPackage.module? Glob.oneSource ownEntry = .ok module ∧
      Glob.expand Glob.oneSource sharingPackage.root
        (sharingPackage.defaults.sources ++ ownEntry.sources) = .ok found ∧
      module.sources = [⟨"pkg/own.c"⟩, ⟨"pkg/a.c"⟩, ⟨"pkg/base.c"⟩] ∧
      found = [⟨"pkg/a.c"⟩, ⟨"pkg/base.c"⟩, ⟨"pkg/own.c"⟩] ∧
      module.sources.map Path.components ≠ found.map Path.components := by
  refine ⟨sharingPackage.resolveModule ownEntry
    [⟨"pkg/own.c"⟩, ⟨"pkg/a.c"⟩, ⟨"pkg/base.c"⟩], _, ?_, ?_, rfl, rfl, ?_⟩
  · decide +kernel
  · decide +kernel
  · decide +kernel

end Manifest

end Drydock
