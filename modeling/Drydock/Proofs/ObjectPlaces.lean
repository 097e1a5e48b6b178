import Drydock.Proofs.FileTree.Spelling
import Drydock.Proofs.Objects

/-!
# Where objects are placed

However a source is spelled, its object is the directory of its module with names behind it, the
last of which ends in `.o`.  A walk along names only leads down, so an object is created below the
place where the directory stands.  Of a source below the root, the object keeps the way from the
root to the source as it is, up to a leading `.` and the last extension.

Two things are said, the first about every source and the second about sources below the root.  An
object is joined to the directory of its module by names, and a file system resolves a path piece by
piece, so the walk to an object is the walk to the directory and then a walk along names.  The
second part meets no `..`, and the trees here have no links; so it ends below the place where the
first part ended, whatever that place is.  Opening a file in this way also needs the directory to be
there, and nothing is said about paths that cannot be opened.

Below the root a source is the root with a way behind it.  Where the way does not lead up, the names
on it are the names that the object keeps, and nothing is lost but idle components and the last
extension.  Hence two such sources that share an object stand in one directory, even if a directory
of theirs is called `__`; this name is ambiguous only for sources whose way leads up.

* `Path.IsObjectTail` — what stands behind the directory of a module.
* `Workspace.location_of_slot_join` — where a file is created whose path is a directory with names
  behind it.
* `Path.Way` — the way from the root to a source below it.
* `objectPath_confined` — an object stays in its directory, and sources below the root share one
  only if they stand in one directory with names that agree up to the last extension.
-/

namespace Drydock

variable {dir root source p a b way way' : Path} {names : List String}

/-! ## Behind the directory -/

namespace Path

/-- A relative path that is made of names, the last of which ends in `.o`. -/
structure IsObjectTail (tail : Path) : Prop where
  relative : tail.isAbsolute = false
  names : ∀ c ∈ tail.components, ∃ name, c = .name name
  ends : ∃ file, tail.fileName? = some file ∧ ['.', 'o'] <:+ file.toList

end Path

/-- What is placed behind the directory of a module for a source. -/
def objectEnd (root source : Path) : Path := ⟨"/".intercalate (objectKey root source).names⟩

lemma ObjectKey.names_ne_nil (k : ObjectKey) : k.names ≠ [] := by simp [ObjectKey.names]

lemma components_objectEnd (root source : Path) :
    (objectEnd root source).components = (objectKey root source).names.map .name :=
  Path.components_names (ObjectKey.names_ne_nil _) fun _ => isName_of_mem_objectKey

lemma objectPath_eq_join (dir root source : Path) :
    objectPath dir root source = dir.join (objectEnd root source) := by
  rw [objectEnd, ← objectTail_keptNames]
  rfl

lemma isObjectTail_objectEnd (root source : Path) : (objectEnd root source).IsObjectTail where
  relative := Path.isAbsolute_names (ObjectKey.names_ne_nil _) fun _ => isName_of_mem_objectKey
  names := by
    intro c hc
    rw [components_objectEnd] at hc
    obtain ⟨name, -, rfl⟩ := List.mem_map.1 hc
    exact ⟨name, rfl⟩
  ends := by
    refine ⟨.ofList ((objectKey root source).stem ++ ['.', 'o']), ?_, ?_⟩
    · rw [Path.fileName?, components_objectEnd, ObjectKey.names, List.map_append,
        List.map_singleton, List.getLast?_concat]
    · rw [String.toList_ofList]
      exact List.suffix_append _ _

/-! ## Walks along names -/

namespace Workspace

variable {w : Workspace} {t : FileTree} {start k l : Location} {s : Slot}
  {front pieces : List (List Char)}

lemma eq_append_of_walk_names (hnames : ∀ name ∈ names, Path.IsName name)
    (h : walk t start (names.map String.toList) = .ok l) : l = start ++ names := by
  induction names generalizing start with
  | nil =>
      obtain rfl := Except.ok.inj h
      exact (List.append_nil _).symm
  | cons name rest ih =>
      obtain ⟨mid, hstep, hwalk⟩ := walk_cons_eq_ok_iff.1 h
      obtain ⟨hnil, hhere, hup, -⟩ := Path.isName_iff.1 (hnames name List.mem_cons_self)
      -- A name is neither an idle piece nor `..`, so the step goes down.
      have hmid : mid = start ++ [name] := by
        rcases (step_eq_ok_iff.1 hstep).2 with ⟨hidle, -⟩ | ⟨habove, -⟩ | ⟨-, -, -, -, -, rfl⟩
        · exact absurd hidle (not_or.2 ⟨hnil, hhere⟩)
        · exact absurd habove hup
        · rw [String.ofList_toList]
      have hrest := ih (fun other hother => hnames other (List.mem_cons_of_mem _ hother)) hwalk
      rw [hrest, hmid, List.append_assoc, List.singleton_append]

/-- A walk that ends at a directory starts at one. -/
lemma isDirectoryAt_of_walk (h : walk t start pieces = .ok l) (hdir : t.isDirectoryAt l = true) :
    t.isDirectoryAt start = true := by
  cases pieces with
  | nil =>
      obtain rfl := Except.ok.inj h
      exact hdir
  | cons piece rest =>
      obtain ⟨mid, hstep, -⟩ := walk_cons_eq_ok_iff.1 h
      exact (step_eq_ok_iff.1 hstep).1

lemma idle_eq_nil {file last : List Char} {before idle : List (List Char)}
    (h : pieces ++ [file] = before ++ last :: idle) (hidle : ∀ piece ∈ idle, piece = [])
    (hfile : file ≠ []) : idle = [] := by
  rcases List.eq_nil_or_concat' idle with hnil | ⟨idles, piece, rfl⟩
  · exact hnil
  · rw [← List.cons_append, ← List.append_assoc] at h
    obtain ⟨-, hlast⟩ := List.append_inj' h rfl
    have hempty : piece = [] := hidle piece (by simp)
    exact absurd ((List.singleton_inj.1 hlast).trans hempty) hfile

lemma location_of_slot (hnames : ∀ name ∈ names, Path.IsName name) (hne : names ≠ [])
    (hroute : w.route p = (start, front ++ names.map String.toList))
    (h : w.slot p = .ok (some s)) :
    ∃ l, walk w.tree start front = .ok l ∧ w.tree.isDirectoryAt l = true ∧
      s.location = l ++ names := by
  obtain ⟨-, hparent, before, last, idle, hpieces, hidle, -, hwalk, -, -, -, hname, -⟩ :=
    slot_spec h
  obtain ⟨parents, file, rfl⟩ : ∃ parents file, names = parents ++ [file] :=
    ⟨_, _, (List.dropLast_append_getLast hne).symm⟩
  -- The last piece is a name, so nothing idle stands behind it.
  have hfile : file.toList ≠ [] := (Path.isName_iff.1 (hnames file (by simp))).1
  rw [hroute] at hpieces hwalk
  dsimp only at hpieces hwalk
  rw [List.map_append, ← List.append_assoc] at hpieces
  -- Now the way splits where the names begin, and so does the walk along it.
  rw [idle_eq_nil hpieces hidle hfile] at hpieces
  obtain ⟨hbefore, hlast⟩ := List.append_inj' hpieces rfl
  obtain rfl : file.toList = last := List.singleton_inj.1 hlast
  rw [← hbefore] at hwalk
  obtain ⟨l, hfront, hdown⟩ := walk_append_eq_ok_iff.1 hwalk
  have hdownNames := eq_append_of_walk_names
    (fun name hmem => hnames name (List.mem_append_left _ hmem)) hdown
  refine ⟨l, hfront, isDirectoryAt_of_walk hdown hparent, ?_⟩
  rw [Slot.location, hdownNames, hname, String.ofList_toList, List.append_assoc]

/-- Where a path leads that other paths are joined to: the empty one stands for the working
directory. -/
def Holds (w : Workspace) (p : Path) (l : Location) : Prop :=
  if p.text = "" then l = w.directory else w.locate p = .ok l

/-- A file whose path is a directory with names behind it is created below that directory. -/
lemma location_of_slot_join (hnames : ∀ name ∈ names, Path.IsName name) (hne : names ≠ [])
    (h : w.slot (p.join ⟨"/".intercalate names⟩) = .ok (some s)) :
    ∃ l, w.Holds p l ∧ s.location = l ++ names := by
  have hrelative := Path.isAbsolute_names hne hnames
  have hpieces := Path.pieces_names hne hnames
  -- Behind the empty path the walk starts in the working directory.
  by_cases hp : p.text = ""
  · have hroute : w.route (p.join ⟨"/".intercalate names⟩) =
        (w.directory, [] ++ names.map String.toList) := by
      rw [Path.join, if_pos (.inr hp), route_eq, hrelative, hpieces]
      rfl
    obtain ⟨l, hwalk, -, hlocation⟩ := location_of_slot hnames hne hroute h
    refine ⟨l, ?_, hlocation⟩
    rw [Holds, if_pos hp]
    exact (Except.ok.inj hwalk).symm
  · have hroute := route_join (w := w) hp hrelative
    rw [hpieces] at hroute
    obtain ⟨l, hwalk, hdir, hlocation⟩ := location_of_slot hnames hne hroute h
    refine ⟨l, ?_, hlocation⟩
    rw [Holds, if_neg hp]
    refine locate_of_walk_steps (checkPath_eq_ok_iff.2 ⟨?_, hp⟩) hwalk hdir
    have hnul := (checkPath_eq_ok_iff.1 (slot_spec h).1).1
    rw [Path.join, if_neg (by simp [hrelative, hp])] at hnul
    intro hmem
    split at hnul
    · exact hnul (by simp [String.toList_append, hmem])
    · exact hnul (by simp [String.toList_append, hmem])

end Workspace

/-! ## The way to a source -/

namespace Path

/-- A file name up to its last extension. -/
def stem? (p : Path) : Option (List Char) := p.fileName?.map fun file => fileStem file.toList

/-- The components of the directory that a file stands in.  A leading `.` is the directory in which
the path starts, so it counts for nothing. -/
def directory (p : Path) : List Component := p.components.dropLast.filter (· ≠ .here)

/-- The path lies strictly below `root`: it is `root` with a relative path behind it, the way, and
the way goes somewhere. -/
structure Way (root way p : Path) : Prop where
  relative : way.isAbsolute = false
  moves : ∃ c ∈ way.components, c ≠ .here
  same : p.Same (root.join way)

end Path

lemma filter_inBody_eq {cs : List Component} (hup : .up ∉ cs) :
    cs.filter (·.inBody) = (objectNames cs).map .name := by
  induction cs with
  | nil => rfl
  | cons c rest ih =>
      obtain ⟨hc, hrest⟩ := not_or.1 (List.mem_cons.not.1 hup)
      cases c with
      | root => exact ih hrest
      | here => exact ih hrest
      | up => exact absurd rfl hc
      | name s => exact congrArg (Component.name s :: ·) (ih hrest)

lemma objectNames_append (front back : List Component) :
    objectNames (front ++ back) = objectNames front ++ objectNames back := List.filterMap_append

lemma Path.Way.names_ne_nil (h : Path.Way root way p) (hup : .up ∉ way.components) :
    objectNames way.components ≠ [] := by
  obtain ⟨c, hc, hhere⟩ := h.moves
  have hroot : c ≠ .root := by
    rintro rfl
    have habs := Path.isAbsolute_iff.2 hc
    rw [h.relative] at habs
    exact Bool.false_ne_true habs
  have hmem : c ∈ way.components.filter (·.inBody) := by
    refine List.mem_filter.2 ⟨hc, ?_⟩
    cases c with
    | root => exact absurd rfl hroot
    | here => exact absurd rfl hhere
    | up => rfl
    | name s => rfl
  intro hnil
  rw [filter_inBody_eq hup, hnil] at hmem
  exact List.not_mem_nil hmem

lemma Path.Way.exists_names (h : Path.Way root way p) (hup : .up ∉ way.components) :
    ∃ front names, names ≠ [] ∧ p.components = front ++ names.map .name ∧
      keptNames root p = names ∧ front.filter (· ≠ .here) = root.components.filter (· ≠ .here) := by
  obtain ⟨start, hstart, hjoin⟩ := Path.components_join_body root h.relative
  have hbody := filter_inBody_eq hup
  have hcomponents : p.components = root.components ++
      (start ++ (objectNames way.components).map .name) := by
    rw [show p.components = (root.join way).components from h.same, hjoin, hbody]
  -- What is joined in front of the way is `.` at most, and that gives no name.
  have hnone : objectNames start = [] := by
    rw [objectNames, List.filterMap_eq_nil_iff]
    intro c hc
    rw [hstart c hc]
  refine ⟨root.components ++ start, objectNames way.components, ?_, ?_, ?_, ?_⟩
  · exact h.names_ne_nil hup
  · rw [hcomponents, List.append_assoc]
  · rw [keptNames, hcomponents, Path.stripComponents?, if_pos (by simp), List.drop_left,
      Option.getD_some, objectNames_append, hnone, List.nil_append, objectNames_names]
  · rw [List.filter_append, Path.filter_ne_here_eq_nil hstart, List.append_nil]

/-- The directory and the stem of a source below the root, and the key that they make. -/
lemma Path.Way.spec (h : Path.Way root way p) (hup : .up ∉ way.components) :
    p.directory =
        root.components.filter (· ≠ .here) ++ (objectKey root p).directories.map .name ∧
      p.stem? = some (objectKey root p).stem := by
  obtain ⟨front, names, hne, hcomponents, hkept, hfront⟩ := h.exists_names hup
  obtain ⟨hdirectory, hfile⟩ := Path.of_components_names hne hcomponents
  have hnames : (names.dropLast.map Component.name).filter (· ≠ .here) =
      names.dropLast.map .name := by
    rw [List.filter_eq_self]
    intro c hc
    obtain ⟨name, -, rfl⟩ := List.mem_map.1 hc
    simp
  rw [objectKey_of_keptNames hne hkept]
  constructor
  · rw [Path.directory, hdirectory, List.filter_append, hfront, hnames]
  · rw [Path.stem?, hfile, Option.map_some]

/-! ## Objects that are shared -/

lemma ObjectKey.eq_iff {k k' : ObjectKey} :
    k = k' ↔ k.directories = k'.directories ∧ k.stem = k'.stem := by
  cases k
  cases k'
  simp

lemma same_objectPath_iff : (objectPath dir root a).Same (objectPath dir root b) ↔
    objectKey root a = objectKey root b := by
  rw [Path.Same, components_objectPath, components_objectPath, List.append_cancel_left_eq,
    map_name_inj, ObjectKey.names_inj]

/-- An object is the directory of its module with a relative path behind it that is made of names
and ends in `.o`; so whatever the source, it is created below the place where the directory stands.
Two sources that lie strictly below the root, and whose ways from there do not lead up, share an
object exactly when they stand in one directory and their names agree up to the last extension.  A
directory `__` may stand on these ways, since there is no `..` that it could be taken for. -/
theorem objectPath_confined (dir root : Path) :
    (∀ source, ∃ tail : Path, objectPath dir root source = dir.join tail ∧ tail.IsObjectTail ∧
      (objectPath dir root source).components = dir.components ++ tail.components ∧
      ∀ (w : Workspace) (s : Workspace.Slot), w.slot (objectPath dir root source) = .ok (some s) →
        ∃ l names, w.Holds dir l ∧ tail.components = names.map .name ∧
          s.location = l ++ names) ∧
    ∀ a b way way', Path.Way root way a → Path.Way root way' b →
      .up ∉ way.components → .up ∉ way'.components →
      ((objectPath dir root a).Same (objectPath dir root b) ↔
        a.directory = b.directory ∧ a.stem? = b.stem?) := by
  refine ⟨fun source => ?_, fun a b way way' ha hb hup hup' => ?_⟩
  · refine ⟨objectEnd root source, objectPath_eq_join dir root source,
      isObjectTail_objectEnd root source, ?_, fun w s hslot => ?_⟩
    · rw [components_objectPath, components_objectEnd]
    · rw [objectPath_eq_join] at hslot
      obtain ⟨l, hl, hlocation⟩ := Workspace.location_of_slot_join
        (fun _ => isName_of_mem_objectKey) (ObjectKey.names_ne_nil _) hslot
      exact ⟨l, _, hl, components_objectEnd root source, hlocation⟩
  · obtain ⟨hdirectory, hstem⟩ := ha.spec hup
    obtain ⟨hdirectory', hstem'⟩ := hb.spec hup'
    rw [same_objectPath_iff, ObjectKey.eq_iff, hdirectory, hdirectory', hstem, hstem',
      List.append_cancel_left_eq, map_name_inj, Option.some_inj]

/-- A source outside the root with a hidden file name, and two sources below it, of which one is
spelled with idle pieces. -/
theorem objectPath_confined_spelled :
    objectPath ⟨"build/libx"⟩ ⟨"p"⟩ ⟨"/opt/../.c"⟩ = ⟨"build/libx/opt/__/.c.o"⟩ ∧
      (∃ tail : Path, ⟨"build/libx/opt/__/.c.o"⟩ = (⟨"build/libx"⟩ : Path).join tail ∧
        tail.IsObjectTail) ∧
      Path.Way ⟨"p"⟩ ⟨"sub/x.c"⟩ ⟨"p//./sub/x.c"⟩ ∧ Path.Way ⟨"p"⟩ ⟨"./sub/x."⟩ ⟨"p/sub/x."⟩ ∧
      (objectPath ⟨"build/libx"⟩ ⟨"p"⟩ ⟨"p//./sub/x.c"⟩).Same
        (objectPath ⟨"build/libx"⟩ ⟨"p"⟩ ⟨"p/sub/x."⟩) := by
  have hobject : objectPath ⟨"build/libx"⟩ ⟨"p"⟩ ⟨"/opt/../.c"⟩ = ⟨"build/libx/opt/__/.c.o"⟩ := by
    decide +kernel
  have hway : Path.Way ⟨"p"⟩ ⟨"sub/x.c"⟩ ⟨"p//./sub/x.c"⟩ :=
    ⟨by decide, ⟨.name "sub", by decide +kernel, by decide⟩, by decide +kernel⟩
  have hway' : Path.Way ⟨"p"⟩ ⟨"./sub/x."⟩ ⟨"p/sub/x."⟩ :=
    ⟨by decide, ⟨.name "sub", by decide +kernel, by decide⟩, by decide +kernel⟩
  obtain ⟨hall, hshared⟩ := objectPath_confined ⟨"build/libx"⟩ ⟨"p"⟩
  obtain ⟨tail, hjoin, htail, -, -⟩ := hall ⟨"/opt/../.c"⟩
  exact ⟨hobject, ⟨tail, hobject ▸ hjoin, htail⟩, hway, hway',
    (hshared _ _ _ _ hway hway' (by decide +kernel) (by decide +kernel)).2 (by decide +kernel)⟩

end Drydock
