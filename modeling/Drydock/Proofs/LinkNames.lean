import Drydock.Proofs.Graph.LinkOrder
import Drydock.Proofs.Text.Cuts
import Drydock.Proofs.Topology

/-!
# What a link name stands for

The name by which a module is linked is its file name without `lib` in front and without the last
extension, and a linker puts both back.  Nothing is lost where the file name begins with `lib`,
since no dot stands there: the last extension is then cut off behind these letters, whether the dot
it begins with belongs to the name of the module or to the suffix.  Where the suffix has a dot the
same extension is cut off all names, so that two link names agree only if the file names do.

The file name of a module is `lib`, the rest of the name, and a suffix.  Cutting the last extension
off and then `lib` in front gives the link name, and the two cuts do not meet: the dot that the
extension begins with stands behind `lib`.  So the linker, which writes `lib`, the link name and an
extension, gets the file name back, and which extension it has to write is the part that was cut
off.

That part belongs to the file and not to the suffix alone, and for suffixes without a dot it may
come from the name of the module: with the suffix `-x` a module `libview.2` has the extension
`.2-x`.  Two modules can then have one link name.  With a dot in the suffix the extension is the
same for all modules, the link name determines the file, and the file the module.

* `Path.extension` — the part of a file name from its last dot on.
* `Module.linkedFile_eq` — the file name of a module, put together from its link name.
* `BuildContext.planModule_libs` — the library options of a plan.
* `BuildContext.linkName_identifies` — a link name leads back to the file, and to one module only.
-/

namespace Drydock

/-! ## Last extensions -/

namespace Path

variable {file front behind start : List Char}

/-- The part of a file name from its last dot on, and nothing where it has no dot. -/
def extension (file : List Char) : List Char :=
  if '.' ∈ file then '.' :: (file.reverse.takeWhile (· ≠ '.')).reverse else []

lemma exists_lastDot (h : '.' ∈ file) :
    ∃ front behind, file = front ++ '.' :: behind ∧ '.' ∉ behind := by
  obtain ⟨before, after, hreverse, hdot⟩ := List.eq_append_cons_of_mem (List.mem_reverse.2 h)
  refine ⟨after.reverse, before.reverse, ?_, by simpa using hdot⟩
  rw [← List.reverse_reverse file, hreverse]
  simp

lemma takeWhile_notMem (h : '.' ∉ behind) (rest : List Char) :
    (behind ++ '.' :: rest).takeWhile (· ≠ '.') = behind ∧
      (behind ++ '.' :: rest).dropWhile (· ≠ '.') = '.' :: rest := by
  have hall : ∀ c ∈ behind, decide (c ≠ '.') = true := by
    intro c hc
    rw [decide_eq_true_eq]
    rintro rfl
    exact h hc
  constructor
  · rw [List.takeWhile_append_of_pos hall]
    simp
  · rw [List.dropWhile_append_of_pos hall]
    simp

lemma extension_append (h : '.' ∉ behind) : extension (front ++ '.' :: behind) = '.' :: behind := by
  have hreverse : (front ++ '.' :: behind).reverse = behind.reverse ++ '.' :: front.reverse := by
    simp
  rw [extension, if_pos (by simp), hreverse, (takeWhile_notMem (by simpa using h) _).1,
    List.reverse_reverse]

lemma fileStem_append (hfront : front ≠ []) (h : '.' ∉ behind) :
    fileStem (front ++ '.' :: behind) = front := by
  have hreverse : (front ++ '.' :: behind).reverse = behind.reverse ++ '.' :: front.reverse := by
    simp
  rw [fileStem, hreverse, (takeWhile_notMem (by simpa using h) _).2]
  simp [hfront]

lemma fileStem_of_notMem (h : '.' ∉ file) : fileStem file = file := by
  have hnone : file.reverse.dropWhile (· ≠ '.') = [] := by
    rw [List.dropWhile_eq_nil_iff]
    intro c hc
    rw [decide_eq_true_eq]
    rintro rfl
    exact h (List.mem_reverse.1 hc)
  rw [fileStem, hnone]

/-- A name that does not begin with its only dot is its stem and its last extension. -/
lemma exists_fileStem_eq (hstart : start ≠ []) (h : '.' ∉ start) (rest : List Char) :
    ∃ stem, fileStem (start ++ rest) = start ++ stem ∧
      start ++ stem ++ extension (start ++ rest) = start ++ rest := by
  -- The last dot is in `rest` or there is none, since `start` has none.
  by_cases hdot : '.' ∈ rest
  · obtain ⟨front, behind, rfl, hlast⟩ := exists_lastDot hdot
    rw [← List.append_assoc]
    refine ⟨front, fileStem_append (by simp [hstart]) hlast, ?_⟩
    rw [extension_append hlast]
  · have hnone : '.' ∉ start ++ rest := by simp [h, hdot]
    refine ⟨rest, fileStem_of_notMem hnone, ?_⟩
    rw [extension, if_neg hnone, List.append_nil]

end Path

/-! ## From the link name to the file -/

namespace Module

variable {m d : Module} {suffix : String}

/-- What a linker makes of a link name: `lib` in front of it and the extension behind it. -/
def linkedFile (m : Module) (suffix : String) : String :=
  "lib" ++ m.linkName suffix ++ .ofList (Path.extension (m.outputFile suffix).toList)

lemma linkedFile_eq (hlink : BuildGraph.isLinkable m.name = true) (suffix : String) :
    m.linkedFile suffix = m.outputFile suffix := by
  obtain ⟨⟨rest, hrest⟩, -⟩ := BuildGraph.isLinkable_iff.1 hlink
  have hfile : (m.outputFile suffix).toList = "lib".toList ++ (rest ++ suffix.toList) := by
    rw [outputFile, String.toList_append, ← hrest, List.append_assoc]
  have hstart : "lib".toList ≠ [] := by decide
  have hnodot : '.' ∉ "lib".toList := by decide
  -- Neither cut reaches the other: the stem keeps `lib`, which has no dot.
  obtain ⟨stem, hstem, hwhole⟩ :=
    Path.exists_fileStem_eq hstart hnodot (rest ++ suffix.toList)
  have hdrop : Text.dropStart? ['l', 'i', 'b'] ("lib".toList ++ stem) = some stem :=
    Text.dropStart?_eq_some_iff.2 rfl
  have hname : (m.linkName suffix).toList = stem := by
    rw [linkName, hfile, withoutExtension, hstem, withoutLib, hdrop, Option.getD_some,
      String.toList_ofList]
  have hbehind : (String.ofList (Path.extension (m.outputFile suffix).toList)).toList =
      Path.extension (m.outputFile suffix).toList := String.toList_ofList
  rw [← String.toList_inj, linkedFile, String.toList_append, String.toList_append, hname, hbehind,
    hfile, hwhole]

lemma extension_outputFile (hdot : '.' ∈ suffix.toList) (m : Module) :
    Path.extension (m.outputFile suffix).toList = Path.extension suffix.toList := by
  obtain ⟨front, behind, hsuffix, hlast⟩ := Path.exists_lastDot hdot
  rw [outputFile, String.toList_append, hsuffix, ← List.append_assoc,
    Path.extension_append hlast, Path.extension_append hlast]

/-- Behind a suffix with a dot, modules that are linked by one name have one name. -/
lemma name_eq_of_linkName_eq (hdot : '.' ∈ suffix.toList)
    (hm : BuildGraph.isLinkable m.name = true) (hd : BuildGraph.isLinkable d.name = true)
    (h : m.linkName suffix = d.linkName suffix) : m.name = d.name := by
  have hfile : m.name ++ suffix = d.name ++ suffix := by
    calc m.name ++ suffix = m.linkedFile suffix := (linkedFile_eq hm suffix).symm
      _ = d.linkedFile suffix := by
        rw [linkedFile, linkedFile, h, extension_outputFile hdot, extension_outputFile hdot]
      _ = d.name ++ suffix := linkedFile_eq hd suffix
  exact (String.append_left_inj suffix).1 hfile

end Module

/-! ## The libraries of a plan -/

namespace BuildContext

variable {declared : List Module} {g : BuildGraph} {m : Module}

/-- The options by which a plan links the dependencies of a module. -/
def dependencyOptions (c : BuildContext) (g : BuildGraph) (m : Module) : List String :=
  (g.dependencies m.name).map fun dep => "-l" ++ dep.linkName c.manifest.extSuffix

/-- The dependencies of a module are linked behind all other libraries. -/
lemma planModule_libs (c : BuildContext) (g : BuildGraph) (m : Module) :
    (c.planModule g m).flags.libs =
      (c.resolution.libraries ++ m.libraries).map ("-l" ++ ·) ++ c.dependencyOptions g m := by
  have hlibs : (c.planModule g m).flags.libs = (c.planModule g m).libraries.map ("-l" ++ ·) := rfl
  rw [hlibs, planModule_libraries, List.map_append, List.map_map]
  rfl

/-- In an accepted graph every link name, with `lib` in front of it and the last extension of the
file behind it, is the file name of its module, whatever the suffix.  Where the suffix has a dot,
different modules have different link names, and each option by which a plan links a dependency
belongs to one module of the graph. -/
theorem linkName_identifies (haccepted : BuildGraph.ofModules declared = .ok g) :
    (∀ m ∈ g.modules, ∀ suffix,
      "lib" ++ m.linkName suffix ++ .ofList (Path.extension (m.outputFile suffix).toList) =
        m.outputFile suffix) ∧
    (∀ suffix : String, '.' ∈ suffix.toList → ∀ m ∈ g.modules, ∀ d ∈ g.modules,
      m ≠ d → m.linkName suffix ≠ d.linkName suffix) ∧
    ∀ (c : BuildContext) (m : Module), (c.planModule g m).flags.libs =
        (c.resolution.libraries ++ m.libraries).map ("-l" ++ ·) ++ c.dependencyOptions g m ∧
      ('.' ∈ c.manifest.extSuffix.toList → m ∈ g.modules →
        ∀ option ∈ c.dependencyOptions g m, ∃! d, d ∈ g.modules ∧
          option = "-l" ++ d.linkName c.manifest.extSuffix) := by
  obtain ⟨-, -, hlink⟩ := BuildGraph.of_ofModules haccepted
  have hlinkable : ∀ m ∈ g.modules, BuildGraph.isLinkable m.name = true := fun m hm =>
    hlink m.name (List.mem_map_of_mem hm)
  -- Different modules have different names, so it is enough to get the name back.
  have hinj : ∀ suffix : String, '.' ∈ suffix.toList → ∀ m ∈ g.modules, ∀ d ∈ g.modules,
      m.linkName suffix = d.linkName suffix → m = d := by
    intro suffix hdot m hm d hd h
    exact (BuildGraph.wellDeclared_modules haccepted).eq_of_name_eq hm hd
      (Module.name_eq_of_linkName_eq hdot (hlinkable m hm) (hlinkable d hd) h)
  refine ⟨fun m hm suffix => Module.linkedFile_eq (hlinkable m hm) suffix,
    fun suffix hdot m hm d hd hne h => hne (hinj suffix hdot m hm d hd h),
    fun c m => ⟨planModule_libs c g m, fun hdot hm option hoption => ?_⟩⟩
  obtain ⟨dep, hdep, rfl⟩ := List.mem_map.1 hoption
  have hmem : dep ∈ g.modules := ((BuildGraph.mem_dependencies haccepted hm).1 hdep).2.1
  refine ⟨dep, ⟨hmem, rfl⟩, fun d hd => ?_⟩
  obtain ⟨hd, hsame⟩ := hd
  have hname : dep.linkName c.manifest.extSuffix = d.linkName c.manifest.extSuffix :=
    (String.append_right_inj "-l").1 hsame
  exact (hinj _ hdot dep hmem d hd hname).symm

/-- Modules with dots and a second `lib` in their names. -/
def dottedModules : List Module :=
  [{ name := "liblib.core", foundational := true }, { name := "lib.core" },
    { name := "libview.2", dependsOn := ["lib.core"] }]

/-- A suffix without a dot leaves the last dot to the name, and one with a dot keeps the names of
the dependencies apart. -/
theorem linkName_identifies_dotted :
    BuildGraph.ofModules dottedModules = .ok ⟨dottedModules, [[], [0], [0, 1]]⟩ ∧
      "lib" ++ dottedModules[2].linkName "-x" ++
          .ofList (Path.extension (dottedModules[2].outputFile "-x").toList) = "libview.2-x" ∧
      dottedModules[0].linkName ".so" ≠ dottedModules[1].linkName ".so" ∧
      bundledContext.dependencyOptions ⟨dottedModules, [[], [0], [0, 1]]⟩ dottedModules[2] =
        ["-llib.core", "-l.core"] ∧
      ∃! d, d ∈ dottedModules ∧ "-l.core" = "-l" ++ d.linkName ".so" := by
  have haccepted :
      BuildGraph.ofModules dottedModules = .ok ⟨dottedModules, [[], [0], [0, 1]]⟩ := by cbv
  have hoptions : bundledContext.dependencyOptions ⟨dottedModules, [[], [0], [0, 1]]⟩
      dottedModules[2] = ["-llib.core", "-l.core"] := by decide +kernel
  have hmem : ∀ m ∈ dottedModules,
      m ∈ (BuildGraph.mk dottedModules [[], [0], [0, 1]]).modules := fun _ h => h
  obtain ⟨hfile, hapart, hplan⟩ := linkName_identifies haccepted
  obtain ⟨-, hoption⟩ := hplan bundledContext dottedModules[2]
  exact ⟨haccepted, hfile _ (hmem _ (by decide)) "-x",
    hapart ".so" (by decide) _ (hmem _ (by decide)) _ (hmem _ (by decide)) (by decide), hoptions,
    hoption (by decide) (hmem _ (by decide)) "-l.core" (by simp [hoptions])⟩

end BuildContext

end Drydock
