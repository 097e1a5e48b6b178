import Drydock.Glob
import Drydock.Proofs.Glob.Parse
import Drydock.Proofs.Path.Order
import Mathlib.Data.List.Induction

/-!
# Source lists

A source list is expanded entry by entry: a plain path stands for itself, whether or not anything is
there, and a pattern for the files that match it, sorted.  Of the paths that all entries stand for,
in the order of the list, those stay that no path in front of them is the same as.

First mentions are places and not paths: `FirstMentions` asks for rising places, so that the list it
describes is determined (`FirstMentions.unique`) and keeps the order and the spelling of what is
mentioned.  `keepFirst` goes through a list from the front with what it has kept so far, so its laws
are those of a list that grows at its end.

Nothing but a pattern can fail, and it fails by its spelling behind the base.  A plain path is not
looked for, which is how a source that has yet to be generated can be listed.

* `Glob.keepFirst_concat` — one more path stays unless it was mentioned before.
* `Glob.FirstMentions` — the paths of a list at the places where they are mentioned first.
* `Glob.Expands` — what an entry stands for.
* `Glob.expand_firstMentions` — what a source list is expanded to, and when it cannot be.
-/

namespace Drydock.Glob

variable {w : Workspace} {base p : Path} {pattern : String} {patterns more : List String}
  {seen seen' all behind kept list : List Path} {lists : List (List Path)} {places : List ℕ}
  {q : Query}

/-! ## First mentions -/

/-- A path that is the same as one of a list. -/
def Mentioned (all : List Path) (p : Path) : Prop := ∃ q ∈ all, q.Same p

lemma any_same_iff : (seen.any fun q => decide (p.Same q)) = true ↔ Mentioned seen p := by
  rw [List.any_eq_true]
  refine exists_congr fun q => and_congr_right fun _ => ?_
  rw [decide_eq_true_eq, Path.Same, eq_comm, Path.Same]

lemma mentioned_append : Mentioned (all ++ behind) p ↔ Mentioned all p ∨ Mentioned behind p := by
  simp only [Mentioned, List.mem_append, or_and_right, exists_or]

lemma mentioned_cons {r : Path} : Mentioned (r :: all) p ↔ r.Same p ∨ Mentioned all p :=
  List.exists_mem_cons_iff ..

lemma keepFirst_congr (h : ∀ p, Mentioned seen p ↔ Mentioned seen' p) (all : List Path) :
    keepFirst seen all = keepFirst seen' all := by
  induction all generalizing seen seen' with
  | nil => rfl
  | cons p rest ih =>
      have hany : (seen.any fun q => decide (p.Same q)) = seen'.any fun q => decide (p.Same q) := by
        rw [Bool.eq_iff_iff, any_same_iff, any_same_iff]
        exact h p
      have hcons : ∀ r, Mentioned (p :: seen) r ↔ Mentioned (p :: seen') r := by
        intro r
        rw [mentioned_cons, mentioned_cons, h r]
      rw [keepFirst, keepFirst, hany, ih h, ih hcons]

/-- What is kept of the back of a list is not mentioned in its front. -/
lemma keepFirst_append (seen all behind : List Path) :
    keepFirst seen (all ++ behind) = keepFirst seen all ++ keepFirst (all ++ seen) behind := by
  induction all generalizing seen with
  | nil => rfl
  | cons p rest ih =>
      rw [List.cons_append, keepFirst, keepFirst, ih, ih]
      split
      · rename_i hseen
        -- The path that is dropped is the same as one that has been seen.
        refine congrArg _ (keepFirst_congr (fun r => ?_) behind)
        obtain ⟨q, hq, hsame⟩ := any_same_iff.1 hseen
        rw [List.cons_append, mentioned_cons]
        refine ⟨.inr, fun hr => hr.elim (fun hr => ⟨q, ?_, hsame.trans hr⟩) id⟩
        exact List.mem_append_right _ hq
      · rw [List.cons_append]
        refine congrArg (fun found => p :: (_ ++ found)) (keepFirst_congr (fun r => ?_) behind)
        rw [List.cons_append, mentioned_append, mentioned_cons, mentioned_cons, mentioned_append,
          or_left_comm]

lemma keepFirst_concat [Decidable (Mentioned all p)] : keepFirst [] (all ++ [p]) =
    if Mentioned all p then keepFirst [] all else keepFirst [] all ++ [p] := by
  rw [keepFirst_append, List.append_nil, keepFirst, keepFirst]
  by_cases h : Mentioned all p
  · rw [if_pos h, if_pos (any_same_iff.2 h), List.append_nil]
  · rw [if_neg h, if_neg (mt any_same_iff.1 h), keepFirst]

/-- From two lists that are related side by side the same is kept, where the relation tells which
paths are the same. -/
lemma keepFirst_forall₂ {R : Path → Path → Prop} {all' : List Path}
    (hsame : ∀ p p' q q', R p p' → R q q' → (p.Same q ↔ p'.Same q'))
    (hseen : List.Forall₂ R seen seen') (hall : List.Forall₂ R all all') :
    List.Forall₂ R (keepFirst seen all) (keepFirst seen' all') := by
  induction hall generalizing seen seen' with
  | nil => exact .nil
  | @cons p p' rest rest' hp hrest ih =>
      have hmentioned : Mentioned seen p ↔ Mentioned seen' p' := by
        constructor
        · rintro ⟨q, hq, hqp⟩
          obtain ⟨q', hq', hrel⟩ := exists_of_mem_forall₂ hseen.flip hq
          exact ⟨q', hq', (hsame q q' p p' hrel hp).1 hqp⟩
        · rintro ⟨q', hq', hqp⟩
          obtain ⟨q, hq, hrel⟩ := exists_of_mem_forall₂ hseen hq'
          exact ⟨q, hq, (hsame q q' p p' hrel hp).2 hqp⟩
      have hany : (seen.any fun q => decide (p.Same q)) =
          seen'.any fun q => decide (p'.Same q) := by
        rw [Bool.eq_iff_iff, any_same_iff, any_same_iff]
        exact hmentioned
      rw [keepFirst, keepFirst, hany]
      split
      · exact ih hseen
      · exact .cons hp (ih (.cons hp hseen))

/-- The paths of a list at the places where they are mentioned first: the places rise, and a
position is one of them exactly when no path in front of it is the same. -/
structure FirstMentions (all : List Path) (places : List ℕ) (kept : List Path) : Prop where
  rising : places.Pairwise (· < ·)
  kept_eq : kept.map some = places.map fun i => all[i]?
  mem_iff : ∀ i, i ∈ places ↔ ∃ p, all[i]? = some p ∧ ¬ Mentioned (all.take i) p

namespace FirstMentions

lemma lt_length (h : FirstMentions all places kept) {i : ℕ} (hi : i ∈ places) :
    i < all.length := by
  obtain ⟨p, hp, -⟩ := (h.mem_iff i).1 hi
  exact (List.getElem?_eq_some_iff.1 hp).1

/-- There is one choice of places, and so one list that is kept. -/
lemma unique {places' : List ℕ} {kept' : List Path} (h : FirstMentions all places kept)
    (h' : FirstMentions all places' kept') : kept = kept' := by
  have hperm : places.Perm places' := by
    refine (List.perm_ext_iff_of_nodup (h.rising.imp Nat.ne_of_lt)
      (h'.rising.imp Nat.ne_of_lt)).2 fun i => ?_
    rw [h.mem_iff, h'.mem_iff]
  have hplaces : places = places' := by
    refine List.Perm.eq_of_pairwise (fun i j _ _ hij hji => ?_) h.rising h'.rising hperm
    exact absurd hij (Nat.lt_asymm hji)
  have hmap : kept.map some = kept'.map some := by rw [h.kept_eq, h'.kept_eq, hplaces]
  exact List.map_injective_iff.2 (fun _ _ => Option.some.inj) hmap

lemma concat_of_mentioned (h : FirstMentions all places kept) (hp : Mentioned all p) :
    FirstMentions (all ++ [p]) places kept where
  rising := h.rising
  kept_eq := by
    rw [h.kept_eq]
    exact List.map_congr_left fun i hi => (List.getElem?_append_left (h.lt_length hi)).symm
  mem_iff i := by
    rw [h.mem_iff]
    rcases Nat.lt_trichotomy i all.length with hi | rfl | hi
    · rw [List.getElem?_append_left hi, List.take_append_of_le_length (Nat.le_of_lt hi)]
    · simpa using hp
    · rw [List.getElem?_eq_none (Nat.le_of_lt hi), List.getElem?_eq_none (by simp; omega)]
      simp

lemma concat_of_new (h : FirstMentions all places kept) (hp : ¬ Mentioned all p) :
    FirstMentions (all ++ [p]) (places ++ [all.length]) (kept ++ [p]) where
  rising := by
    refine List.pairwise_append.2 ⟨h.rising, List.pairwise_singleton _ _, fun i hi j hj => ?_⟩
    rw [List.mem_singleton.1 hj]
    exact h.lt_length hi
  kept_eq := by
    have hplaces : places.map (fun i => all[i]?) = places.map fun i => (all ++ [p])[i]? :=
      List.map_congr_left fun i hi => (List.getElem?_append_left (h.lt_length hi)).symm
    rw [List.map_append, List.map_append, h.kept_eq, hplaces]
    simp
  mem_iff i := by
    rw [List.mem_append, h.mem_iff, List.mem_singleton]
    rcases Nat.lt_trichotomy i all.length with hi | rfl | hi
    · rw [List.getElem?_append_left hi, List.take_append_of_le_length (Nat.le_of_lt hi)]
      simp [Nat.ne_of_lt hi]
    · simpa using hp
    · rw [List.getElem?_eq_none (Nat.le_of_lt hi), List.getElem?_eq_none (by simp; omega)]
      simp [Nat.ne_of_gt hi]

end FirstMentions

lemma exists_firstMentions (all : List Path) :
    ∃ places, FirstMentions all places (keepFirst [] all) := by
  classical
  induction all using List.reverseRecOn with
  | nil => exact ⟨[], .nil, rfl, by simp⟩
  | append_singleton all p ih =>
      obtain ⟨places, hplaces⟩ := ih
      rw [keepFirst_concat]
      by_cases hp : Mentioned all p
      · rw [if_pos hp]
        exact ⟨places, hplaces.concat_of_mentioned hp⟩
      · rw [if_neg hp]
        exact ⟨_, hplaces.concat_of_new hp⟩

lemma keepFirst_eq_iff : keepFirst [] all = kept ↔ ∃ places, FirstMentions all places kept := by
  constructor
  · rintro rfl
    exact exists_firstMentions all
  · rintro ⟨places, hplaces⟩
    obtain ⟨places', hplaces'⟩ := exists_firstMentions all
    exact hplaces'.unique hplaces

/-- No path is lost, and no two that are kept are the same. -/
lemma keepFirst_spec (all : List Path) :
    (∀ p ∈ all, Mentioned (keepFirst [] all) p) ∧
      (keepFirst [] all).Sublist all ∧ (keepFirst [] all).Pairwise fun p q => ¬ p.Same q := by
  classical
  induction all using List.reverseRecOn with
  | nil => exact ⟨by simp, .slnil, .nil⟩
  | append_singleton all p ih =>
      obtain ⟨hall, hsub, hapart⟩ := ih
      rw [keepFirst_concat]
      by_cases hp : Mentioned all p
      · rw [if_pos hp]
        refine ⟨fun r hr => ?_, hsub.trans (List.sublist_append_left _ _), hapart⟩
        rcases List.mem_append.1 hr with hr | hr
        · exact hall r hr
        · obtain ⟨q, hq, hsame⟩ := hp
          obtain ⟨q', hq', hsame'⟩ := hall q hq
          rw [List.mem_singleton.1 hr]
          exact ⟨q', hq', hsame'.trans hsame⟩
      · rw [if_neg hp]
        refine ⟨fun r hr => mentioned_append.2 ?_, hsub.append (.refl _), ?_⟩
        · rcases List.mem_append.1 hr with hr | hr
          · exact .inl (hall r hr)
          · exact .inr ⟨r, hr, rfl⟩
        · refine List.pairwise_append.2 ⟨hapart, List.pairwise_singleton _ _, ?_⟩
          rintro q hq r hr hsame
          rw [List.mem_singleton.1 hr] at hsame
          exact hp ⟨q, hsub.subset hq, hsame⟩

/-! ## Entries -/

/-- What one entry of a source list stands for. -/
inductive Expands (w : Workspace) (base : Path) (pattern : String) : List Path → Prop
  | plain (hplain : hasMark pattern = false) : Expands w base pattern [base.join ⟨pattern⟩]
  | files {q : Query} (hmark : hasMark pattern = true)
      (hq : Query.parse (base.join ⟨pattern⟩) = .ok q) :
      Expands w base pattern (Path.sort ((q.run w).filter w.isFile))

lemma expandOne_eq_ok_iff : expandOne w base pattern = .ok list ↔ Expands w base pattern list := by
  rw [expandOne]
  constructor
  · intro h
    split at h
    · rename_i hmark
      obtain ⟨q, hq, rfl⟩ := matchingOrFail_eq_ok_iff.1 h
      exact .files hmark hq
    · rename_i hplain
      obtain rfl := Except.ok.inj h
      exact .plain (by simpa using hplain)
  · intro h
    cases h with
    | plain hplain => simp [hplain]
    | files hmark hq =>
        rw [if_pos hmark]
        exact matchingOrFail_eq_ok_iff.2 ⟨_, hq, rfl⟩

lemma Expands.sorted_files (h : Expands w base pattern list) (hmark : hasMark pattern = true) :
    list.Pairwise (fun p q => p.le q = true) ∧ ∃ q, Query.parse (base.join ⟨pattern⟩) = .ok q ∧
      ∀ p, p ∈ list ↔ p ∈ q.run w ∧ w.isFile p = true := by
  cases h with
  | plain hplain => simp [hmark] at hplain
  | @files q _ hq =>
      refine ⟨Path.pairwise_sort _, q, hq, fun p => ?_⟩
      rw [Path.mem_sort, List.mem_filter]

/-- An entry cannot be expanded exactly when it is a pattern that cannot be read behind the base. -/
lemma exists_expands_iff : (∃ list, Expands w base pattern list) ↔
    (hasMark pattern = true → WellSpelled (base.join ⟨pattern⟩)) := by
  constructor
  · rintro ⟨list, hlist⟩ hmark
    obtain ⟨-, q, hq, -⟩ := hlist.sorted_files hmark
    exact wellSpelled_iff.2 ⟨q, hq⟩
  · intro h
    cases hmark : hasMark pattern with
    | false => exact ⟨_, .plain hmark⟩
    | true =>
        obtain ⟨q, hq⟩ := wellSpelled_iff.1 (h hmark)
        exact ⟨_, .files hmark hq⟩

/-! ## Lists -/

lemma expand_eq_ok_iff {found : List Path} : expand w base patterns = .ok found ↔
    ∃ lists, List.Forall₂ (Expands w base) patterns lists ∧ keepFirst [] lists.flatten = found := by
  have hlists : ∀ lists, patterns.mapM (expandOne w base) = .ok lists ↔
      List.Forall₂ (Expands w base) patterns lists := by
    intro lists
    rw [mapM_eq_ok_iff]
    exact ⟨fun h => h.imp fun _ _ => expandOne_eq_ok_iff.1,
      fun h => h.imp fun _ _ => expandOne_eq_ok_iff.2⟩
  rw [expand]
  constructor
  · intro h
    cases hmap : patterns.mapM (expandOne w base) with
    | error e => simp [hmap, bind, Except.bind] at h
    | ok lists =>
        rw [hmap] at h
        exact ⟨lists, (hlists lists).1 hmap, Except.ok.inj h⟩
  · rintro ⟨lists, hall, rfl⟩
    rw [(hlists lists).2 hall]
    rfl

lemma exists_expand_iff : (∃ found, expand w base patterns = .ok found) ↔
    ∀ pattern ∈ patterns, ∃ list, Expands w base pattern list := by
  simp only [← expandOne_eq_ok_iff, ← exists_mapM_iff]
  rw [expand]
  cases patterns.mapM (expandOne w base) with
  | error e => simp [bind, Except.bind]
  | ok lists => simp [bind, Except.bind, pure, Except.pure]

/-- A source list stands for what its entries stand for, in its order and with the first mention of
every path: no two paths are the same, none is lost, and more entries only add paths behind the
others.  It cannot be expanded exactly when one of its patterns cannot be read behind the base. -/
theorem expand_firstMentions (w : Workspace) (base : Path) (patterns : List String) :
    (∀ found, expand w base patterns = .ok found ↔
      ∃ lists places, List.Forall₂ (Expands w base) patterns lists ∧
        FirstMentions lists.flatten places found) ∧
    (∀ pattern list, Expands w base pattern list → hasMark pattern = true →
      list.Pairwise (fun p q => p.le q = true) ∧
        ∃ q, Query.parse (base.join ⟨pattern⟩) = .ok q ∧
          ∀ p, p ∈ list ↔ p ∈ q.run w ∧ w.isFile p = true) ∧
    (∀ found, expand w base patterns = .ok found → found.Pairwise (fun p q => ¬ p.Same q) ∧
      ∀ pattern ∈ patterns, ∀ list, Expands w base pattern list → ∀ p ∈ list, Mentioned found p) ∧
    (∀ more found, expand w base (patterns ++ more) = .ok found →
      ∃ front, expand w base patterns = .ok front ∧ front <+: found) ∧
    ((∃ e, expand w base patterns = .error e) ↔
      ∃ pattern ∈ patterns, hasMark pattern = true ∧ ¬ WellSpelled (base.join ⟨pattern⟩)) := by
  refine ⟨fun found => ?_, fun pattern list => Expands.sorted_files, fun found h => ?_,
    fun more found h => ?_, ?_⟩
  · rw [expand_eq_ok_iff]
    simp only [keepFirst_eq_iff, exists_and_left]
  · obtain ⟨lists, hall, rfl⟩ := expand_eq_ok_iff.1 h
    obtain ⟨hmentioned, -, hapart⟩ := keepFirst_spec lists.flatten
    refine ⟨hapart, fun pattern hpattern list hlist p hp => hmentioned p ?_⟩
    obtain ⟨list', hlist', hexpands⟩ := exists_of_mem_forall₂ hall.flip hpattern
    have hsame : list = list' := Except.ok.inj
      ((expandOne_eq_ok_iff.2 hlist).symm.trans (expandOne_eq_ok_iff.2 hexpands))
    exact List.mem_flatten.2 ⟨list', hlist', hsame ▸ hp⟩
  · obtain ⟨lists, hall, rfl⟩ := expand_eq_ok_iff.1 h
    have hfront := List.forall₂_take patterns.length hall
    rw [List.take_left] at hfront
    refine ⟨_, expand_eq_ok_iff.2 ⟨_, hfront, rfl⟩, ?_⟩
    rw [← List.take_append_drop patterns.length lists, List.flatten_append, keepFirst_append,
      List.take_append_drop]
    exact List.prefix_append _ _
  · have hfails : (∃ e, expand w base patterns = .error e) ↔
        ¬ ∃ found, expand w base patterns = .ok found := by
      cases expand w base patterns with
      | error e => simp
      | ok found => simp
    rw [hfails, exists_expand_iff]
    simp only [exists_expands_iff]
    push Not
    rfl

/-- A directory with one source. -/
def oneSource : Workspace where
  tree := ⟨[(["pkg"], .directory), (["pkg", "a.c"], .file [] false)]⟩

theorem expand_firstMentions_overlapping :
    expand oneSource ⟨"pkg"⟩ (["b.c", "*.c"] ++ ["./b.c", "a.c", "[a-c].c"]) =
        .ok [⟨"pkg/b.c"⟩, ⟨"pkg/a.c"⟩] ∧
      hasMark "*.c" = true ∧ Expands oneSource ⟨"pkg"⟩ "*.c" [⟨"pkg/a.c"⟩] ∧
      ([⟨"pkg/b.c"⟩, ⟨"pkg/a.c"⟩] : List Path).Pairwise (fun p q => ¬ p.Same q) ∧
      (∃ front, expand oneSource ⟨"pkg"⟩ ["b.c", "*.c"] = .ok front ∧
        front <+: [⟨"pkg/b.c"⟩, ⟨"pkg/a.c"⟩]) ∧
      ∃ q, Query.parse ⟨"pkg/*.c"⟩ = .ok q ∧ ⟨"pkg/a.c"⟩ ∈ q.run oneSource := by
  have hexpand : expand oneSource ⟨"pkg"⟩ (["b.c", "*.c"] ++ ["./b.c", "a.c", "[a-c].c"]) =
      .ok [⟨"pkg/b.c"⟩, ⟨"pkg/a.c"⟩] := by decide +kernel
  have hexpands : Expands oneSource ⟨"pkg"⟩ "*.c" [⟨"pkg/a.c"⟩] :=
    expandOne_eq_ok_iff.1 (by decide +kernel)
  obtain ⟨-, hfiles, -, hprefix, -⟩ := expand_firstMentions oneSource ⟨"pkg"⟩ ["b.c", "*.c"]
  obtain ⟨-, -, hapart, -, -⟩ :=
    expand_firstMentions oneSource ⟨"pkg"⟩ (["b.c", "*.c"] ++ ["./b.c", "a.c", "[a-c].c"])
  obtain ⟨-, q, hq, hmem⟩ := hfiles "*.c" _ hexpands (by decide)
  exact ⟨hexpand, by decide, hexpands, (hapart _ hexpand).1, hprefix _ _ hexpand, q, hq,
    ((hmem _).1 (List.mem_singleton_self _)).1⟩

end Drydock.Glob
