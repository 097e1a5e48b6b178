import Drydock.Proofs.Glob.Alike
import Drydock.Proofs.Glob.Files
import Drydock.Proofs.Glob.Sources
import Mathlib.Data.List.Pairwise

/-!
# Source lists behind different spellings of a base

One directory is spelled in many ways, and a source list may be expanded behind any of them.  A
plain path keeps the spelling of its base, while a search drops a leading `.`, and paths are told
apart by their components.  So a file that is mentioned with and without the `.` is listed twice;
but for this the spelling of the base does not matter.

The components of a path are a start and a trail.  The start is the root, a `.` or nothing, and the
trail is what a walk goes along.  Entries of a source list that lead down have, behind one base,
trails that tell where they lead, so the same file is mentioned twice exactly when the same trail
is; and paths of one trail are told apart by their start alone, that is, by a leading `.`.

From two spellings of one directory the entries lead to the same places, entry by entry
(`Glob.Counterpart`).  The lists that are kept correspond to each other when the same mentions are
dropped on both sides, and that is where a leading `.` comes in.

* `Path.trail` — the components of a path behind its start.
* `Glob.SourcePattern` — the entries that lead down from a base.
* `Glob.Counterpart` — paths that lead to one place by the same names below two bases.
* `Glob.expand_respelled` — what two spellings of a base list, and when they list the same.
-/

namespace Drydock

/-! ## Components behind the start -/

namespace Path

variable {p q : Path}

/-- The components of a path behind its start: neither the root nor a leading `.` counts. -/
def trail (p : Path) : List Component := p.components.filter (·.inBody)

lemma trail_eq (p : Path) : p.trail = p.pieces.filterMap bodyComponent := filter_components p

lemma bodyComponent_ne {piece : List Char} {c : Component} (hc : c.inBody = false) :
    bodyComponent piece ≠ some c := by
  intro h
  rw [(bodyComponent_spec h).1] at hc
  exact Bool.false_ne_true hc.symm

lemma notMem_filterMap_bodyComponent {c : Component} (hc : c.inBody = false)
    (pieces : List (List Char)) : c ∉ pieces.filterMap bodyComponent := by
  intro hmem
  obtain ⟨piece, -, hpiece⟩ := List.mem_filterMap.1 hmem
  exact bodyComponent_ne hc hpiece

lemma components_eq (p : Path) : p.components = (if p.isAbsolute then [Component.root]
    else if .here ∈ p.components then [.here] else []) ++ p.trail := by
  obtain ⟨first, rest, hpieces⟩ := List.exists_cons_of_ne_nil p.pieces_ne_nil
  have hrest : Component.here ∉ rest.filterMap bodyComponent :=
    notMem_filterMap_bodyComponent rfl rest
  rw [trail_eq, components_of_pieces hpieces, hpieces, List.filterMap_cons]
  by_cases habs : p.isAbsolute = true
  · obtain ⟨more, hmore⟩ := exists_pieces_of_isAbsolute habs
    obtain ⟨rfl, -⟩ := List.cons.inj (hpieces.symm.trans hmore)
    simp [habs, bodyComponent]
  · by_cases hhere : first = ['.']
    · simp [habs, hhere, bodyComponent]
    · cases hbody : bodyComponent first with
      | none => simp [habs, hhere, hrest]
      | some c =>
          have hc : c ≠ .here := by
            rintro rfl
            exact bodyComponent_ne rfl hbody
          simp [habs, hhere, hrest, Ne.symm hc]

lemma same_or_of_trail_eq (habs : p.isAbsolute = q.isAbsolute) (h : p.trail = q.trail) :
    p.Same q ∨ p.components = .here :: q.components ∨ q.components = .here :: p.components := by
  have hp := components_eq p
  have hq := components_eq q
  rw [habs, h] at hp
  rw [Same]
  by_cases hroot : q.isAbsolute = true
  · rw [if_pos hroot] at hp hq
    exact .inl (hp.trans hq.symm)
  · rw [if_neg hroot] at hp hq
    split at hp <;> split at hq
    · exact .inl (hp.trans hq.symm)
    · exact .inr (.inl (by rw [hp, hq]; rfl))
    · exact .inr (.inr (by rw [hp, hq]; rfl))
    · exact .inl (hp.trans hq.symm)

lemma trail_of_cons_here (h : p.components = .here :: q.components) : p.trail = q.trail := by
  rw [trail, trail, h]
  rfl

lemma trail_openPieces (p : Path) : p.openPieces.filterMap bodyComponent = p.trail := by
  rw [trail_eq]
  rcases pieces_eq_openPieces p with hsame | hmore
  · rw [hsame]
  · rw [hmore, List.filterMap_append]
    simp [bodyComponent]

lemma trail_join (hq : q.isAbsolute = false) : (p.join q).trail = p.trail ++ q.trail := by
  by_cases hp : p.text = ""
  · have hempty : p.trail = [] := by
      rw [trail_eq, pieces, hp]
      rfl
    rw [join, if_pos (.inr hp), hempty, List.nil_append]
  · rw [trail_eq, pieces_join hp hq, List.filterMap_append, trail_openPieces, trail_eq q]

end Path

namespace Glob

variable {w : Workspace} {base base' p p' q q' : Path} {l k : Location} {names : List String}
  {pattern : String} {patterns : List String} {all all' found found' seen seen' : List Path}

/-! ## Entries that lead down -/

/-- An entry of a source list that leads down from a base: a relative path without `..` and, where
it has marks, a pattern that can be read, that does not lead up, and that does not stall. -/
structure SourcePattern (base : Path) (pattern : String) : Prop where
  relative : (Path.mk pattern).isAbsolute = false
  nonempty : pattern ≠ ""
  noUp : ['.', '.'] ∉ (Path.mk pattern).pieces
  confined : hasMark pattern = true → Confined base pattern

/-- A base without marks that leads to a directory. -/
structure Spells (w : Workspace) (base : Path) (l : Location) : Prop where
  unmarked : hasMark base.text = false
  leads : w.locate (directoryOf base) = .ok l
  directory : w.tree.isDirectoryAt l = true

/-- A path names what `names` lead to from the directory of a base: its trail is that of the base
and the names, it starts where the base does, and it leads nowhere else. -/
structure Below (w : Workspace) (base : Path) (l : Location) (names : List String) (p : Path) :
    Prop where
  trail : p.trail = base.trail ++ names.map .name
  absolute : p.isAbsolute = base.isAbsolute
  dotted : .here ∈ p.components → base.text = "" ∨ .here ∈ base.components
  lands : ∀ k, w.locate p = .ok k → k = l ++ names

/-- Two paths name the same below two bases, and lead to the same place if they lead anywhere. -/
def Counterpart (w : Workspace) (base base' : Path) (l : Location) (p p' : Path) : Prop :=
  (∃ names, Below w base l names p ∧ Below w base' l names p') ∧
    ∀ k, w.locate p = .ok k ↔ w.locate p' = .ok k

/-! ## Plain entries -/

lemma checkPath_join_pattern (hbase : Spells w base l) (hrel : (Path.mk pattern).isAbsolute = false)
    (hne : pattern ≠ "") (hnul : '\x00' ∉ pattern.toList) :
    Workspace.checkPath (base.join ⟨pattern⟩) = .ok () := by
  rw [Workspace.checkPath_eq_ok_iff]
  by_cases hempty : base.text = ""
  · rw [Path.join, if_pos (.inr hempty)]
    exact ⟨hnul, hne⟩
  · have hleads := hbase.leads
    rw [directoryOf, if_neg hempty] at hleads
    obtain ⟨hbaseNul, -⟩ := Workspace.checkPath_eq_ok_iff.1 (Workspace.locate_eq_ok_iff.1 hleads).1
    obtain ⟨front, htext, hfront, -⟩ := Path.toList_join hempty hrel
    constructor
    · rw [htext, List.mem_append, List.mem_cons]
      rintro (hmem | hmem | hmem)
      · exact hbaseNul (hfront hmem)
      · simp at hmem
      · exact hnul hmem
    · intro hjoin
      rw [hjoin] at htext
      simp at htext

lemma locate_join_pattern (hw : w.WellFormed) (hbase : Spells w base l)
    (hrel : (Path.mk pattern).isAbsolute = false) (hne : pattern ≠ "") :
    w.locate (base.join ⟨pattern⟩) = .ok k ↔
      Workspace.walk w.tree l (Path.mk pattern).pieces = .ok k := by
  have hwalk := (locate_directoryOf_iff hw hbase.directory).1 hbase.leads
  have hroute : w.route (base.join ⟨pattern⟩) =
      (w.origin base, leading base ++ (Path.mk pattern).pieces) := by
    by_cases hempty : base.text = ""
    · have hbaseRel : base.isAbsolute = false := by simp [Path.isAbsolute, hempty]
      rw [Path.join, if_pos (.inr hempty), Workspace.route_eq, hrel, if_neg Bool.false_ne_true,
        leading, if_pos hempty, Workspace.origin, hbaseRel, if_neg Bool.false_ne_true]
      rfl
    · rw [Workspace.route_join hempty hrel, leading, if_neg hempty]
  rw [Workspace.locate_eq_ok_iff, hroute, Workspace.walk_append_eq_ok_iff]
  constructor
  · rintro ⟨-, mid, hmid, hrest⟩
    rwa [Except.ok.inj (hmid.symm.trans hwalk)] at hrest
  · intro hrest
    refine ⟨checkPath_join_pattern hbase hrel hne fun hnul => ?_, l, hwalk, hrest⟩
    obtain ⟨piece, hpiece, hmem⟩ := Text.exists_mem_splitChars hnul (show '\x00' ≠ '/' by decide)
    exact Workspace.noNul_of_walk hw.tree hrest hpiece hmem

/-- Pieces without `..` are names, and a walk along them leads down by these. -/
lemma exists_names_of_pieces {pieces : List (List Char)} (hup : ['.', '.'] ∉ pieces) :
    ∃ names : List String, pieces.filterMap Path.bodyComponent = names.map .name ∧
      ∀ l k, Workspace.walk w.tree l pieces = .ok k → k = l ++ names := by
  induction pieces with
  | nil => exact ⟨[], rfl, fun l k h => by simpa using (Except.ok.inj h).symm⟩
  | cons piece rest ih =>
      obtain ⟨hpiece, hrest⟩ := not_or.1 (List.mem_cons.not.1 hup)
      obtain ⟨names, hnames, hwalks⟩ := ih hrest
      by_cases hidle : piece = [] ∨ piece = ['.']
      · refine ⟨names, ?_, fun l k h => ?_⟩
        · rw [List.filterMap_cons, Path.bodyComponent, if_pos hidle]
          exact hnames
        · obtain ⟨mid, hstep, hwalk⟩ := Workspace.walk_cons_eq_ok_iff.1 h
          have hone : Workspace.walk w.tree l [piece] = .ok mid :=
            Workspace.walk_cons_eq_ok_iff.2 ⟨mid, hstep, Workspace.walk_nil⟩
          obtain rfl : mid = l := Workspace.walk_idle (by simpa using hidle) hone
          exact hwalks mid k hwalk
      · refine ⟨.ofList piece :: names, ?_, fun l k h => ?_⟩
        · rw [List.filterMap_cons, Path.bodyComponent, if_neg hidle, if_neg (Ne.symm hpiece)]
          simp [hnames]
        · obtain ⟨mid, hstep, hwalk⟩ := Workspace.walk_cons_eq_ok_iff.1 h
          obtain ⟨-, ⟨hstay, -⟩ | ⟨hup', -⟩ | ⟨-, -, -, -, -, rfl⟩⟩ :=
            Workspace.step_eq_ok_iff.1 hstep
          · exact absurd hstay hidle
          · exact absurd hup'.symm hpiece
          · rw [hwalks _ k hwalk]
            simp

lemma exists_below_plain (hw : w.WellFormed) (hrel : (Path.mk pattern).isAbsolute = false)
    (hne : pattern ≠ "") (hup : ['.', '.'] ∉ (Path.mk pattern).pieces) :
    ∃ names, ∀ base, Spells w base l → Below w base l names (base.join ⟨pattern⟩) := by
  obtain ⟨names, hnames, hwalks⟩ := @exists_names_of_pieces w _ hup
  refine ⟨names, fun base hbase => ⟨?_, ?_, fun hhere => ?_, fun k hk => ?_⟩⟩
  · rw [Path.trail_join hrel, Path.trail_eq ⟨pattern⟩, hnames]
  · by_cases hempty : base.text = ""
    · rw [Path.join, if_pos (.inr hempty), hrel]
      simp [Path.isAbsolute, hempty]
    · exact Path.isAbsolute_join hempty hrel
  · by_cases hempty : base.text = ""
    · exact .inl hempty
    · rw [Path.components_join_relative hempty hrel, List.mem_append] at hhere
      exact .inr (hhere.resolve_right (Path.notMem_filterMap_bodyComponent rfl _))
  · exact hwalks l k ((locate_join_pattern hw hbase hrel hne).1 hk)

/-! ## Patterns -/

lemma filterMap_leading (base : Path) :
    (leading base).filterMap Path.bodyComponent = base.trail := by
  by_cases hempty : base.text = ""
  · rw [leading, if_pos hempty, Path.trail_eq, Path.pieces, hempty]
    rfl
  · rw [leading, if_neg hempty, ← Path.trail_openPieces, Path.steps]
    split
    · -- The piece in front of the root is empty.
      rename_i habs
      obtain ⟨rest, hrest⟩ := Path.exists_pieces_of_isAbsolute habs
      obtain ⟨first, others, hopen⟩ := List.exists_cons_of_ne_nil base.openPieces_ne_nil
      have hfirst : first = [] := by
        rcases Path.pieces_eq_openPieces base with hsame | hmore
        · rw [hsame, hopen] at hrest
          exact (List.cons.inj hrest).1
        · rw [hmore, hopen, List.cons_append] at hrest
          exact (List.cons.inj hrest).1
      rw [hopen, hfirst]
      simp [Path.bodyComponent]
    · rfl

/-- The stem of the directory of a base: its root, if it has one, and its trail. -/
def baseStem (base : Path) : List Component :=
  (if base.isAbsolute then [Component.root] else []) ++ base.trail

lemma exists_run_join (hw : w.WellFormed) (hbase : Spells w base l) (hne : pattern ≠ "")
    (hrel : (Path.mk pattern).isAbsolute = false) {query : Query}
    (hquery : Query.parse ⟨pattern⟩ = .ok query)
    (hstall : base.isAbsolute = true ∨ stalls ((leading base).map .plain ++ query.parts) = false) :
    (∃ joined, Query.parse (base.join ⟨pattern⟩) = .ok joined ∧
      (joined.run w).filter w.isFile = filesOf w (fun path => !query.directoriesOnly ||
        w.isDirectory path) query.parts (footOf base)) ∧
    w.locate (footOf base) = .ok l ∧
    (isStart (footOf base) = true → stalls query.parts = false) ∧
    stem (footOf base) = baseStem base := by
  have hparts := (Query.parts_spec hquery hrel).1
  have hwalk := (locate_directoryOf_iff hw hbase.directory).1 hbase.leads
  have hstall' : isStart (originOf base) = true →
      stalls ((leading base).map .plain ++ query.parts) = false := by
    intro hstart
    refine hstall.resolve_left fun habs => ?_
    rw [originOf, if_pos habs] at hstart
    exact absurd hstart (by decide)
  obtain ⟨hsearch, hfoot, hstallFoot, hstem⟩ :=
    @search_pieces w (fun path => !query.directoriesOnly || w.isDirectory path) (originOf base) _ l
      _ query.parts hw.tree (fun _ => noSlash_of_mem_leading) hparts hstall'
      (locate_originOf hw base) hwalk
  have hjoin := (parse_join hbase.unmarked hrel hquery).resolve_right fun h => hne h.1
  refine ⟨⟨_, hjoin, ?_⟩, hfoot, hstallFoot, ?_⟩
  · rw [filesOf, footOf, ← hsearch]
    rfl
  · rw [footOf, hstem, filterMap_leading, baseStem, originOf]
    split <;> rfl

/-- What a search finds below a base is spelled by the stem of the base and the names. -/
lemma below_of_stem (hnames : names ≠ []) (hstem : stem q = baseStem base ++ names.map .name)
    (hlocate : w.locate q = .ok (l ++ names)) : Below w base l names q := by
  have hcomponents := components_of_stem hstem hnames
  rw [baseStem, List.append_assoc] at hcomponents
  have hbody : ∀ c ∈ base.trail ++ names.map .name, c.inBody = true := by
    intro c hmem
    rcases List.mem_append.1 hmem with hmem | hmem
    · exact (List.mem_filter.1 hmem).2
    · obtain ⟨name, -, rfl⟩ := List.mem_map.1 hmem
      rfl
  have hidle : ∀ c : Component, c.inBody = false → c ∉ base.trail ++ names.map .name :=
    fun c hc hmem => Bool.false_ne_true (hc.symm.trans (hbody c hmem))
  have hroot : (if base.isAbsolute then [Component.root] else []).filter (·.inBody) = [] := by
    split <;> rfl
  refine ⟨?_, ?_, fun hhere => ?_, fun k hk => Except.ok.inj (hk.symm.trans hlocate)⟩
  · rw [Path.trail, hcomponents, List.filter_append, hroot, List.nil_append,
      List.filter_eq_self.2 hbody]
  · rw [Bool.eq_iff_iff, Path.isAbsolute_iff, hcomponents, List.mem_append,
      or_iff_left (hidle _ rfl)]
    cases base.isAbsolute with
    | true => simp
    | false => simp
  · rw [hcomponents, List.mem_append, or_iff_left (hidle _ rfl)] at hhere
    split at hhere <;> simp at hhere

lemma impartial_directories (w : Workspace) (only : Bool) :
    Impartial w fun path => !only || w.isDirectory path := fun p p' l h h' => by
  simp only [isDirectory_congr h h']

/-- A pattern that leads down stands for the same files behind two spellings of a directory. -/
lemma exists_counterparts_of_marked (hw : w.WellFormed) (hbase : Spells w base l)
    (hbase' : Spells w base' l) (hmark : hasMark pattern = true)
    (hpattern : SourcePattern base pattern) (hpattern' : SourcePattern base' pattern) :
    ∃ list list', Expands w base pattern list ∧ Expands w base' pattern list' ∧
      List.Forall₂ (Counterpart w base base' l) list list' := by
  obtain ⟨hrel, query, hquery, hup, hstall⟩ := hpattern.confined hmark
  obtain ⟨-, query', hquery', -, hstall'⟩ := hpattern'.confined hmark
  obtain rfl := Except.ok.inj (hquery.symm.trans hquery')
  obtain ⟨⟨joined, hjoin, hrun⟩, hfoot, hstart, hstem⟩ :=
    exists_run_join hw hbase hpattern.nonempty hrel hquery hstall
  obtain ⟨⟨joined', hjoin', hrun'⟩, hfoot', hstart', hstem'⟩ :=
    exists_run_join hw hbase' hpattern.nonempty hrel hquery hstall'
  have hfound := forall₂_search hw.tree (impartial_directories w query.directoriesOnly) hup
    (Query.parts_spec hquery hrel).2 hstart hstart' hfoot hfoot'
  have hfiles : ∀ q ∈ (joined.run w).filter w.isFile, w.isFile q = true := fun q hq =>
    (List.mem_filter.1 hq).2
  rw [← hrun, ← hrun'] at hfound
  have hsorted := forall₂_sort hbase.directory hfiles hfound
  refine ⟨_, _, .files hmark hjoin, .files hmark hjoin', ?_⟩
  refine ((List.forall₂_and_left _ _).2 ⟨fun q hq => hfiles q (Path.mem_sort.1 hq), hsorted⟩).imp ?_
  rintro q q' ⟨hfile, names, hleads⟩
  have hnames := hleads.names_ne_nil hbase.directory hfile
  refine ⟨⟨names, below_of_stem hnames (hstem ▸ hleads.stem_left) hleads.left,
    below_of_stem hnames (hstem' ▸ hleads.stem_right) hleads.right⟩, fun k => ?_⟩
  rw [hleads.left, hleads.right]

lemma exists_counterparts (hw : w.WellFormed) (hbase : Spells w base l)
    (hbase' : Spells w base' l) (hpattern : SourcePattern base pattern)
    (hpattern' : SourcePattern base' pattern) :
    ∃ list list', Expands w base pattern list ∧ Expands w base' pattern list' ∧
      List.Forall₂ (Counterpart w base base' l) list list' := by
  cases hmark : hasMark pattern with
  | true => exact exists_counterparts_of_marked hw hbase hbase' hmark hpattern hpattern'
  | false =>
      obtain ⟨names, hnames⟩ :=
        @exists_below_plain w l _ hw hpattern.relative hpattern.nonempty hpattern.noUp
      refine ⟨_, _, .plain hmark, .plain hmark, .cons ⟨⟨names, hnames base hbase,
        hnames base' hbase'⟩, fun k => ?_⟩ .nil⟩
      rw [locate_join_pattern hw hbase hpattern.relative hpattern.nonempty,
        locate_join_pattern hw hbase' hpattern.relative hpattern.nonempty]

/-! ## Lists -/

/-- The paths that the entries of a list mention, in the order of the list. -/
def Mentions (w : Workspace) (base : Path) (patterns : List String) (all : List Path) : Prop :=
  ∃ lists, List.Forall₂ (Expands w base) patterns lists ∧ all = lists.flatten

lemma expand_of_mentions (h : Mentions w base patterns all) :
    expand w base patterns = .ok (keepFirst [] all) := by
  obtain ⟨lists, hlists, rfl⟩ := h
  exact expand_eq_ok_iff.2 ⟨lists, hlists, rfl⟩

lemma exists_mentions (hw : w.WellFormed) (hbase : Spells w base l) (hbase' : Spells w base' l)
    (hpatterns : ∀ pattern ∈ patterns, SourcePattern base pattern ∧ SourcePattern base' pattern) :
    ∃ all all', Mentions w base patterns all ∧ Mentions w base' patterns all' ∧
      List.Forall₂ (Counterpart w base base' l) all all' := by
  induction patterns with
  | nil => exact ⟨[], [], ⟨[], .nil, rfl⟩, ⟨[], .nil, rfl⟩, .nil⟩
  | cons pattern patterns ih =>
      obtain ⟨hpattern, hpattern'⟩ := hpatterns pattern (by simp)
      obtain ⟨list, list', hlist, hlist', hfirst⟩ :=
        exists_counterparts hw hbase hbase' hpattern hpattern'
      obtain ⟨_, _, ⟨lists, hlists, rfl⟩, ⟨lists', hlists', rfl⟩, hrest⟩ :=
        ih fun pattern hpattern => hpatterns pattern (List.mem_cons_of_mem _ hpattern)
      exact ⟨_, _, ⟨list :: lists, .cons hlist hlists, rfl⟩, ⟨list' :: lists', .cons hlist' hlists',
        rfl⟩, List.rel_append hfirst hrest⟩

/-! ## Files that are listed twice -/

/-- Two paths name one file: they have one trail, or they lead to one place. -/
def SameFile (w : Workspace) (p q : Path) : Prop :=
  p.trail = q.trail ∨ ∃ k, w.locate p = .ok k ∧ w.locate q = .ok k

lemma SameFile.symm (h : SameFile w p q) : SameFile w q p :=
  h.imp Eq.symm fun ⟨k, hp, hq⟩ => ⟨k, hq, hp⟩

/-- Some path is mentioned both with a leading `.` and without it. -/
def Blurred (all : List Path) : Prop := ∃ p ∈ all, ∃ q ∈ all, p.components = .here :: q.components

/-- Below one base, paths with different trails lead to different places. -/
lemma Below.sameFile_iff {names' : List String} (hp : Below w base l names p)
    (hq : Below w base l names' q) : SameFile w p q ↔ p.trail = q.trail := by
  refine ⟨fun h => h.elim id ?_, .inl⟩
  rintro ⟨k, hpk, hqk⟩
  have hnames := (hp.lands k hpk).symm.trans (hq.lands k hqk)
  rw [hp.trail, hq.trail, List.append_cancel_left hnames]

lemma pairwise_sameFile_iff (hbelow : ∀ p ∈ all, ∃ names, Below w base l names p) :
    (keepFirst [] all).Pairwise (fun p q => ¬ SameFile w p q) ↔ ¬ Blurred all := by
  obtain ⟨hmentioned, hsub, hapart⟩ := keepFirst_spec all
  have htrail : ∀ p ∈ all, ∀ q ∈ all, (SameFile w p q ↔ p.trail = q.trail) := by
    intro p hp q hq
    obtain ⟨names, hnames⟩ := hbelow p hp
    obtain ⟨names', hnames'⟩ := hbelow q hq
    exact hnames.sameFile_iff hnames'
  constructor
  · rintro hpairwise ⟨p, hp, q, hq, hdotted⟩
    obtain ⟨p', hp', hsame⟩ := hmentioned p hp
    obtain ⟨q', hq', hsame'⟩ := hmentioned q hq
    have hdotted' : p'.components = .here :: q'.components := by
      rw [show p'.components = p.components from hsame,
        show q'.components = q.components from hsame', hdotted]
    have hne : p' ≠ q' := by
      rintro rfl
      exact absurd (congrArg List.length hdotted') (by simp)
    have hsymm : Std.Symm fun p q => ¬ SameFile w p q := ⟨fun p q h hqp => h hqp.symm⟩
    exact hpairwise.forall hp' hq' hne (.inl (Path.trail_of_cons_here hdotted'))
  · intro hclear
    refine hapart.imp_of_mem fun {p q} hp hq hother hfile => ?_
    have hpall := hsub.subset hp
    have hqall := hsub.subset hq
    obtain ⟨names, hnames⟩ := hbelow p hpall
    obtain ⟨names', hnames'⟩ := hbelow q hqall
    rcases Path.same_or_of_trail_eq (hnames.absolute.trans hnames'.absolute.symm)
      ((htrail p hpall q hqall).1 hfile) with hsame | hdotted | hdotted
    · exact hother hsame
    · exact hclear ⟨p, hpall, q, hqall, hdotted⟩
    · exact hclear ⟨q, hqall, p, hpall, hdotted⟩

/-- Where no path is mentioned in two ways, the same paths are those with one trail. -/
lemma same_iff_trail_eq (hbelow : ∀ p ∈ all, ∃ names, Below w base l names p)
    (hclear : ¬ Blurred all) (hp : p ∈ all) (hq : q ∈ all) : p.Same q ↔ p.trail = q.trail := by
  refine ⟨fun hsame => ?_, fun htrail => ?_⟩
  · rw [Path.trail, Path.trail, show p.components = q.components from hsame]
  obtain ⟨names, hnames⟩ := hbelow p hp
  obtain ⟨names', hnames'⟩ := hbelow q hq
  rcases Path.same_or_of_trail_eq (hnames.absolute.trans hnames'.absolute.symm) htrail with
    hsame | hdotted | hdotted
  · exact hsame
  · exact absurd ⟨p, hp, q, hq, hdotted⟩ hclear
  · exact absurd ⟨q, hq, p, hp, hdotted⟩ hclear

/-! ## Two spellings -/

lemma Counterpart.trail_eq_iff (hp : Counterpart w base base' l p p')
    (hq : Counterpart w base base' l q q') : p.trail = q.trail ↔ p'.trail = q'.trail := by
  obtain ⟨⟨names, hleft, hright⟩, -⟩ := hp
  obtain ⟨⟨names', hleft', hright'⟩, -⟩ := hq
  rw [hleft.trail, hleft'.trail, hright.trail, hright'.trail, List.append_cancel_left_eq,
    List.append_cancel_left_eq]

lemma Counterpart.sameFile (hp : Counterpart w base base' l p p')
    (hq : Counterpart w base base' l q q') (h : SameFile w p q) : SameFile w p' q' :=
  h.imp (hp.trail_eq_iff hq).1 fun ⟨k, hpk, hqk⟩ => ⟨k, (hp.2 k).1 hpk, (hq.2 k).1 hqk⟩

lemma pairwise_of_counterparts (h : List.Forall₂ (Counterpart w base base' l) all all')
    (hapart : all'.Pairwise fun p q => ¬ SameFile w p q) :
    all.Pairwise fun p q => ¬ SameFile w p q := by
  induction h with
  | nil => exact .nil
  | @cons p p' rest rest' hp hrest ih =>
      obtain ⟨hfirst, hapart⟩ := List.pairwise_cons.1 hapart
      refine List.pairwise_cons.2 ⟨fun q hq hfile => ?_, ih hapart⟩
      obtain ⟨q', hq', hcounterpart⟩ := exists_of_mem_forall₂ hrest.flip hq
      exact hfirst q' hq' (hp.sameFile hcounterpart hfile)

lemma forall₂_keepFirst (hall : List.Forall₂ (Counterpart w base base' l) all all')
    (hbelow : ∀ p ∈ all, ∃ names, Below w base l names p)
    (hbelow' : ∀ p ∈ all', ∃ names, Below w base' l names p)
    (hclear : ¬ Blurred all) (hclear' : ¬ Blurred all') :
    List.Forall₂ (Counterpart w base base' l) (keepFirst [] all) (keepFirst [] all') := by
  obtain ⟨hlength, hrel⟩ := List.forall₂_iff_zip.1 hall
  have hmembers : List.Forall₂ (fun p p' => Counterpart w base base' l p p' ∧ p ∈ all ∧ p' ∈ all')
      all all' :=
    List.forall₂_iff_zip.2 ⟨hlength, fun h => ⟨hrel h, List.of_mem_zip h⟩⟩
  refine (keepFirst_forall₂ ?_ .nil hmembers).imp fun _ _ => And.left
  rintro p p' q q' ⟨hp, hpall, hpall'⟩ ⟨hq, hqall, hqall'⟩
  rw [same_iff_trail_eq hbelow hclear hpall hqall, hp.trail_eq_iff hq,
    same_iff_trail_eq hbelow' hclear' hpall' hqall']

/-- Behind two spellings of a directory a source list can be expanded both times.  It lists no file
twice exactly when no path is mentioned both with a leading `.` and without it, which is always so
behind a base that is not empty and has no leading `.`.  Compared with a spelling for which it is
so, the other one names the same files, in the same order and the same number of times, exactly
when it is so for the other one too. -/
theorem expand_respelled (hw : w.WellFormed) (hbase : Spells w base l) (hbase' : Spells w base' l)
    (hpatterns : ∀ pattern ∈ patterns, SourcePattern base pattern ∧ SourcePattern base' pattern) :
    ∃ all all' found found', Mentions w base patterns all ∧ Mentions w base' patterns all' ∧
      expand w base patterns = .ok found ∧ expand w base' patterns = .ok found' ∧
      (found.Pairwise (fun p q => ¬ SameFile w p q) ↔ ¬ Blurred all) ∧
      (base'.text ≠ "" → .here ∉ base'.components → ¬ Blurred all') ∧
      (¬ Blurred all' →
        (List.Forall₂ (Counterpart w base base' l) found found' ↔ ¬ Blurred all)) := by
  obtain ⟨all, all', hmentions, hmentions', hall⟩ := exists_mentions hw hbase hbase' hpatterns
  have hbelow : ∀ p ∈ all, ∃ names, Below w base l names p := by
    intro p hp
    obtain ⟨p', -, ⟨names, hnames, -⟩, -⟩ := exists_of_mem_forall₂ hall.flip hp
    exact ⟨names, hnames⟩
  have hbelow' : ∀ p' ∈ all', ∃ names, Below w base' l names p' := by
    intro p' hp'
    obtain ⟨p, -, ⟨names, -, hnames⟩, -⟩ := exists_of_mem_forall₂ hall hp'
    exact ⟨names, hnames⟩
  refine ⟨all, all', _, _, hmentions, hmentions', expand_of_mentions hmentions,
    expand_of_mentions hmentions', pairwise_sameFile_iff hbelow, ?_, fun hclear' => ?_⟩
  · rintro hne hhere ⟨p, hp, q, -, hdotted⟩
    obtain ⟨names, hnames⟩ := hbelow' p hp
    exact (hnames.dotted (by simp [hdotted])).elim hne hhere
  · constructor
    · intro hfound
      have hapart := (pairwise_sameFile_iff hbelow').2 hclear'
      exact (pairwise_sameFile_iff hbelow).1 (pairwise_of_counterparts hfound hapart)
    · exact fun hclear => forall₂_keepFirst hall hbelow hbelow' hclear hclear'

/-- A working directory with one source. -/
def rootSource : Workspace where
  tree := ⟨[(["x.c"], .file [] false)]⟩

lemma wellFormed_rootSource : rootSource.WellFormed :=
  ⟨.of_entries (by decide +kernel) (by decide +kernel), by decide⟩

lemma spells_here : Spells rootSource ⟨"."⟩ [] := ⟨by decide, by decide +kernel, by decide⟩

lemma sourcePattern_plain (hmark : hasMark pattern = false)
    (hrel : (Path.mk pattern).isAbsolute = false) (hne : pattern ≠ "")
    (hup : ['.', '.'] ∉ (Path.mk pattern).pieces) (base : Path) : SourcePattern base pattern :=
  ⟨hrel, hne, hup, fun h => by simp [hmark] at h⟩

/-- The pattern of all sources leads down from every base behind which it does not stall. -/
lemma sourcePattern_sources (hbase : base.isAbsolute = true ∨ stalls
    ((leading base).map .plain ++ [.marked [.anySequence, .char '.', .char 'c']]) = false) :
    SourcePattern base "*.c" := by
  have hquery : Query.parse ⟨"*.c"⟩ =
      .ok ⟨false, [.marked [.anySequence, .char '.', .char 'c']], false⟩ := by decide +kernel
  exact ⟨by decide, by decide, by decide +kernel, fun _ => ⟨by decide, _, hquery, by decide, hbase⟩⟩

/-- A missing source that is named and the one that is there, from the working directory and from
the root that it is. -/
theorem expand_respelled_rootSource :
    expand rootSource ⟨"."⟩ ["main.c", "*.c"] = .ok [⟨"./main.c"⟩, ⟨"x.c"⟩] ∧
      expand rootSource ⟨"/"⟩ ["main.c", "*.c"] = .ok [⟨"/main.c"⟩, ⟨"/x.c"⟩] ∧
      List.Forall₂ (Counterpart rootSource ⟨"."⟩ ⟨"/"⟩ []) [⟨"./main.c"⟩, ⟨"x.c"⟩]
        [⟨"/main.c"⟩, ⟨"/x.c"⟩] := by
  have hpatterns : ∀ pattern ∈ ["main.c", "*.c"],
      SourcePattern ⟨"."⟩ pattern ∧ SourcePattern ⟨"/"⟩ pattern := by
    simp only [List.forall_mem_cons]
    have hmain := @sourcePattern_plain "main.c" (by decide) (by decide) (by decide)
      (by decide +kernel)
    exact ⟨⟨hmain _, hmain _⟩, ⟨sourcePattern_sources (.inr (by decide +kernel)),
      sourcePattern_sources (.inl (by decide))⟩, List.forall_mem_nil _⟩
  have hexpand : expand rootSource ⟨"."⟩ ["main.c", "*.c"] = .ok [⟨"./main.c"⟩, ⟨"x.c"⟩] := by
    decide +kernel
  have hexpand' : expand rootSource ⟨"/"⟩ ["main.c", "*.c"] = .ok [⟨"/main.c"⟩, ⟨"/x.c"⟩] := by
    decide +kernel
  have hroot : Spells rootSource ⟨"/"⟩ [] := ⟨by decide, by decide +kernel, by decide⟩
  obtain ⟨all, all', found, found', -, -, hfound, hfound', hapart, hclear', hagree⟩ :=
    expand_respelled wellFormed_rootSource spells_here hroot hpatterns
  obtain rfl := Except.ok.inj (hexpand.symm.trans hfound)
  obtain rfl := Except.ok.inj (hexpand'.symm.trans hfound')
  have hother : ¬ SameFile rootSource ⟨"./main.c"⟩ ⟨"x.c"⟩ := by
    have hmissing : rootSource.locate ⟨"./main.c"⟩ = .error .notFound := by decide +kernel
    rintro (htrail | ⟨k, hk, -⟩)
    · exact absurd htrail (by decide +kernel)
    · rw [hmissing] at hk
      cases hk
  exact ⟨hexpand, hexpand', (hagree (hclear' (by decide) (by decide +kernel))).2
    (hapart.1 (by simpa using hother))⟩

/-- A source that is named and matched is listed twice behind `.`, and once behind the empty
path. -/
theorem expand_lists_twice :
    rootSource.WellFormed ∧ Spells rootSource ⟨"."⟩ [] ∧ Spells rootSource ⟨""⟩ [] ∧
      (∀ pattern ∈ ["x.c", "*.c"], SourcePattern ⟨"."⟩ pattern ∧ SourcePattern ⟨""⟩ pattern) ∧
      expand rootSource ⟨"."⟩ ["x.c", "*.c"] = .ok [⟨"./x.c"⟩, ⟨"x.c"⟩] ∧
      expand rootSource ⟨""⟩ ["x.c", "*.c"] = .ok [⟨"x.c"⟩] ∧
      SameFile rootSource ⟨"./x.c"⟩ ⟨"x.c"⟩ := by
  have hpatterns : ∀ pattern ∈ ["x.c", "*.c"],
      SourcePattern ⟨"."⟩ pattern ∧ SourcePattern ⟨""⟩ pattern := by
    simp only [List.forall_mem_cons]
    have hplain := @sourcePattern_plain "x.c" (by decide) (by decide) (by decide)
      (by decide +kernel)
    exact ⟨⟨hplain _, hplain _⟩, ⟨sourcePattern_sources (.inr (by decide +kernel)),
      sourcePattern_sources (.inr (by decide +kernel))⟩, List.forall_mem_nil _⟩
  exact ⟨wellFormed_rootSource, spells_here, ⟨by decide, by decide +kernel, by decide⟩,
    hpatterns, by decide +kernel, by decide +kernel,
    .inr ⟨["x.c"], by decide +kernel, by decide +kernel⟩⟩

end Glob

end Drydock
