import Drydock.Proofs.Text.Cuts
import Drydock.Proofs.Topology

/-!
# Libraries that the vendored build reports

The words of `LIBS` become libraries of every module: each loses the `-l` in front of it, if there
is one, and gets an `-l` when the module is linked.  So a word that starts with `-l` is linked as it
was reported, and every other word with an `-l` in front of it.  For a bare name that is what it
takes to link the library; another option of the linker, such as `-pthread`, becomes the name of a
library that there is none of.

A library is stored by its name, so the way of a reported word goes through a name and back.  Taking
`-l` away and putting it back is the identity on the words that have it and adds it to all others;
`linkOption_eq` is this, and the rest is about where the words stand.

The words are behind the libraries of the system and in front of those of the module, and what is
behind them does not matter for their order.  So the options among the reported words are a sublist
of the link options as soon as none of them is changed.  The converse holds because every library
option of a plan begins with `-l`: a word that does not begin so is not among them at all.

A bare name such as `bz2` is the reason why a word without `-l` gets one.  The words are not told
apart any further, which is what happens to `-pthread`.

* `MakeVariables.linkOption` — the option that a reported word is linked by.
* `Resolution.libraries_of_builtin` — the libraries of the modes that build the library.
* `BuildContext.planModule_links_reported` — the reported words in the link command of a module.
-/

namespace Drydock

variable {word : String} {value : String}

/-! ## Words -/

namespace MakeVariables

/-- Whether a word is an option. -/
def isOption (word : String) : Bool := word.toList.head? = some '-'

/-- Whether a word is an option that names a library. -/
def namesLibrary (word : String) : Bool := ['-', 'l'].isPrefixOf word.toList

/-- The option that a reported word is linked by. -/
def linkOption (word : String) : String := "-l" ++ libraryName word

lemma linkOption_eq (word : String) :
    linkOption word = if namesLibrary word then word else "-l" ++ word := by
  rw [← String.toList_inj, linkOption, libraryName, namesLibrary]
  -- Either there is no `-l` to take away, or what is left is the word without it.
  cases hdrop : Text.dropStart? ['-', 'l'] word.toList with
  | none =>
      have hnot : ¬ ['-', 'l'].isPrefixOf word.toList = true := by
        intro hprefix
        simp [Text.dropStart?, hprefix] at hdrop
      simp [hnot]
  | some rest =>
      have hword := Text.dropStart?_eq_some_iff.1 hdrop
      have hprefix : ['-', 'l'].isPrefixOf word.toList = true := by
        rw [← hword]
        simp
      rw [if_pos hprefix, ← hword]
      simp

lemma namesLibrary_append (name : String) : namesLibrary ("-l" ++ name) = true := by
  simp [namesLibrary]

lemma linkOption_of_namesLibrary (h : namesLibrary word = true) : linkOption word = word := by
  rw [linkOption_eq, if_pos h]

lemma filter_isOption_sublist {words : List String}
    (h : ∀ word ∈ words, isOption word = true → namesLibrary word = true) :
    (words.filter isOption).Sublist (words.map linkOption) := by
  have hsame : (words.filter isOption).map linkOption = words.filter isOption := by
    refine (List.map_congr_left fun word hword => ?_).trans (List.map_id _)
    obtain ⟨hmem, hoption⟩ := List.mem_filter.1 hword
    exact linkOption_of_namesLibrary (h word hmem hoption)
  rw [← hsame]
  exact List.Sublist.map _ List.filter_sublist

end MakeVariables

open MakeVariables

/-! ## Link commands -/

lemma Resolution.libraries_of_builtin {mode : LinkMode} {v : Vendored} {dir : Path} {s : Settings}
    {make : MakeVariables} {options : Option String} {r : Resolution} (hmode : mode ≠ .external)
    (h : forMode mode v dir s make options = .ok r) :
    r.libraries = v.systemLibraries ++ make.libraries := by
  cases mode with
  | external => exact absurd rfl hmode
  | separate =>
      obtain rfl := Except.ok.inj h
      rfl
  | shared =>
      rw [forMode] at h
      -- A shared resolution needs the reported objects, and has failed without them.
      cases hobjects : make.objects v.objectsVariable dir with
      | error e => simp [hobjects, bind, Except.bind] at h
      | ok objects =>
          rw [hobjects] at h
          obtain rfl := Except.ok.inj h
          rfl

namespace BuildContext

variable {c : BuildContext} {mode : LinkMode} {v : Vendored} {dir : Path} {s : Settings}
  {make : MakeVariables} {options : Option String}

lemma namesLibrary_of_mem_libs {g : BuildGraph} {m : Module}
    (h : word ∈ (c.planModule g m).flags.libs) : namesLibrary word = true := by
  obtain ⟨name, -, rfl⟩ := List.mem_map.1 h
  exact namesLibrary_append name

/-- The reported words stand behind the system libraries and in front of the module's own. -/
lemma libs_eq (hmode : mode ≠ .external)
    (hresolved : Resolution.forMode mode v dir s make options = .ok c.resolution)
    (hreported : make.get? "LIBS" = some value) (g : BuildGraph) (m : Module) :
    (c.planModule g m).flags.libs = v.systemLibraries.map ("-l" ++ ·) ++
      (Text.words value).map linkOption ++ (m.libraries ++ (g.dependencies m.name).map fun dep =>
        dep.linkName c.manifest.extSuffix).map ("-l" ++ ·) := by
  have hlibs : (c.planModule g m).flags.libs = (c.librariesOf g m).map ("-l" ++ ·) := rfl
  rw [hlibs, librariesOf, Resolution.libraries_of_builtin hmode hresolved, MakeVariables.libraries,
    hreported]
  simp [linkOption]

/-- In the modes that build the vendored library every link command names, behind all objects and
flags, the system libraries, then the reported words in their order, then the other libraries of the
module.  A reported word stands there as it was reported when it starts with `-l`, and with `-l` in
front of it otherwise; so the options among the words are passed on, in their order, exactly when
all of them start with `-l`. -/
theorem planModule_links_reported (hmode : mode ≠ .external)
    (hresolved : Resolution.forMode mode v dir s make options = .ok c.resolution)
    (hreported : make.get? "LIBS" = some value) (g : BuildGraph) (m : Module) :
    (∃ front, (c.planModule g m).link.args =
      front ++ (c.planModule g m).flags.libs ++ ["-o", (c.planModule g m).output.text]) ∧
    ((c.planModule g m).flags.libs = v.systemLibraries.map ("-l" ++ ·) ++
      ((Text.words value).map fun word => if namesLibrary word then word else "-l" ++ word) ++
        (m.libraries ++ (g.dependencies m.name).map fun dep =>
          dep.linkName c.manifest.extSuffix).map ("-l" ++ ·)) ∧
    (∀ word ∈ Text.words value, isOption word = true →
      (word ∈ (c.planModule g m).flags.libs ↔ namesLibrary word = true)) ∧
    (((Text.words value).filter isOption).Sublist (c.planModule g m).flags.libs ↔
      ∀ word ∈ Text.words value, isOption word = true → namesLibrary word = true) := by
  have hlibs := libs_eq hmode hresolved hreported g m
  refine ⟨⟨_, link_args c g m⟩, ?_,
    fun word hword _ => ⟨namesLibrary_of_mem_libs, fun hnames => ?_⟩,
    fun hsub word hword hoption => ?_, fun hall => ?_⟩
  · rw [hlibs, funext linkOption_eq]
  · rw [hlibs]
    refine List.mem_append_left _ (List.mem_append_right _ (List.mem_map.2 ⟨word, hword, ?_⟩))
    exact linkOption_of_namesLibrary hnames
  · exact namesLibrary_of_mem_libs (hsub.subset (List.mem_filter.2 ⟨hword, hoption⟩))
  · rw [hlibs]
    -- The reported words are one of the three parts that the libraries are put together from.
    exact ((filter_isOption_sublist hall).trans (List.sublist_append_right _ _)).trans
      (List.sublist_append_left _ _)

/-- The variables of a library that reports its libraries. -/
def reporting (libs : String) : MakeVariables := MakeVariables.parse ("OBJS = a.o\nLIBS = " ++ libs)

/-- A context in which the vendored library reports its libraries. -/
def reportingContext (libs : String) : BuildContext where
  manifest := { package := { name := "tools" }, vendored := some bundledLibrary }
  settings := {}
  defaults := .ofPlatform .elf
  resolution := {
    mode := .shared
    source := some .builtin
    artifacts := .objects [⟨"h/a.o"⟩]
    includeDirs := [⟨"h"⟩]
    libraries := ["z"] ++ (reporting libs).libraries
    makeVariables := reporting libs }

/-- The module that is linked with the library, alone. -/
def bundledGraph : BuildGraph := ⟨[bundledCore], [[]]⟩

theorem planModule_links_reported_bareName :
    LinkMode.shared ≠ .external ∧
      Resolution.forMode .shared bundledLibrary ⟨"h"⟩ {} (reporting "-lm  bz2 -l-x") none =
        .ok (reportingContext "-lm  bz2 -l-x").resolution ∧
      (reporting "-lm  bz2 -l-x").get? "LIBS" = some "-lm  bz2 -l-x" ∧
      ((reportingContext "-lm  bz2 -l-x").planModule bundledGraph bundledCore).flags.libs =
        ["-lz", "-lm", "-lbz2", "-l-x"] ∧
      ["-lm", "-l-x"].Sublist
        ((reportingContext "-lm  bz2 -l-x").planModule bundledGraph bundledCore).flags.libs := by
  have hresolved : Resolution.forMode .shared bundledLibrary ⟨"h"⟩ {}
      (reporting "-lm  bz2 -l-x") none = .ok (reportingContext "-lm  bz2 -l-x").resolution := by
    decide +kernel
  have hreported : (reporting "-lm  bz2 -l-x").get? "LIBS" = some "-lm  bz2 -l-x" := by
    decide +kernel
  obtain ⟨-, hlibs, -, hsublist⟩ := planModule_links_reported (by decide) hresolved hreported
    bundledGraph bundledCore
  have hoptions : (Text.words "-lm  bz2 -l-x").filter isOption = ["-lm", "-l-x"] := by
    decide +kernel
  exact ⟨by decide, hresolved, hreported, hlibs.trans (by decide +kernel),
    hoptions ▸ hsublist.2 (by decide +kernel)⟩

/-- An option of the linker that names no library is linked as the name of one. -/
theorem planModule_renames_pthread :
    Resolution.forMode .shared bundledLibrary ⟨"h"⟩ {} (reporting "-lz -pthread") none =
        .ok (reportingContext "-lz -pthread").resolution ∧
      Text.words "-lz -pthread" = ["-lz", "-pthread"] ∧
      "-pthread" ∉
        ((reportingContext "-lz -pthread").planModule bundledGraph bundledCore).link.args ∧
      "-l-pthread" ∈
        ((reportingContext "-lz -pthread").planModule bundledGraph bundledCore).link.args := by
  refine ⟨by decide +kernel, by decide +kernel, by decide +kernel, by decide +kernel⟩

end BuildContext

end Drydock
