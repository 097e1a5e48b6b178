import Drydock.Path
import Mathlib.Data.List.Basic
import Mathlib.Tactic.Lemma

/-!
# Sorted paths without repetition

The order of paths is total, and two paths that stand in both orders are the same.  So sorting
brings the same paths together, and dropping neighbours leaves each of them once.

Paths are ordered by their components, so spellings of one path are equal in this order without
being equal as texts.  Which of them is left is decided by the sort, which is stable: the one that
was found first.  Antisymmetry is what makes the neighbours enough.  If something stood between two
spellings of one path in a sorted list, it would be between them in the order, too, and so be a
third spelling.

* `Path.pairwise_sort` — sorting puts paths in order.
* `Path.pairwise_dedupNeighbours` — of sorted paths no two that are left are the same.
* `Path.exists_same_dedupNeighbours` — every path is left, up to its spelling.
-/

namespace Drydock

/-! ## Components -/

namespace Component

variable {a b c : Component}

lemma lt_irrefl (a : Component) : a.lt a = false := by
  cases a with
  | name s => simp [lt]
  | root => rfl
  | here => rfl
  | up => rfl

/-- Names stand behind everything else, and among themselves by their text. -/
lemma lt_iff : a.lt b = true ↔
    a.rank < b.rank ∨ ∃ s t, a = name s ∧ b = name t ∧ s < t := by
  cases a <;> cases b <;> simp [lt, rank]

lemma lt_trans (hab : a.lt b = true) (hbc : b.lt c = true) : a.lt c = true := by
  rw [lt_iff] at hab hbc ⊢
  rcases hab with hab | ⟨s, t, rfl, rfl, hst⟩
  · rcases hbc with hbc | ⟨t, u, rfl, rfl, -⟩
    · exact .inl (Nat.lt_trans hab hbc)
    · exact .inl hab
  · rcases hbc with hbc | ⟨t', u, ht, rfl, htu⟩
    · exact .inl hbc
    · obtain rfl := Component.name.inj ht
      exact .inr ⟨s, u, rfl, rfl, String.lt_trans hst htu⟩

lemma lt_or_eq_or_lt (a b : Component) : a.lt b = true ∨ a = b ∨ b.lt a = true := by
  have hnames : ∀ s t : String, s < t ∨ s = t ∨ t < s := by
    intro s t
    by_cases hst : s < t
    · exact .inl hst
    · by_cases hts : t < s
      · exact .inr (.inr hts)
      · exact .inr (.inl (String.le_antisymm (String.not_lt.1 hts) (String.not_lt.1 hst)))
  rcases Nat.lt_trichotomy a.rank b.rank with hlt | hrank | hlt
  · exact .inl (lt_iff.2 (.inl hlt))
  · cases a with
    | name s =>
        cases b with
        | name t =>
            rcases hnames s t with hst | rfl | hts
            · exact .inl (lt_iff.2 (.inr ⟨s, t, rfl, rfl, hst⟩))
            · exact .inr (.inl rfl)
            · exact .inr (.inr (lt_iff.2 (.inr ⟨t, s, rfl, rfl, hts⟩)))
        | _ => simp [rank] at hrank
    | _ => cases b <;> simp [rank] at hrank ⊢
  · exact .inr (.inr (lt_iff.2 (.inl hlt)))

lemma lt_asymm (hab : a.lt b = true) : b.lt a = false := by
  by_contra hba
  have h := lt_trans hab (Bool.not_eq_false _ ▸ hba)
  rw [lt_irrefl] at h
  exact Bool.false_ne_true h

end Component

namespace Path

variable {p q r : Path} {ps : List Path}

lemma componentsLe_trans {as bs cs : List Component} (h : componentsLe as bs = true)
    (h' : componentsLe bs cs = true) : componentsLe as cs = true := by
  induction as generalizing bs cs with
  | nil => rfl
  | cons a as ih =>
      cases bs with
      | nil => simp [componentsLe] at h
      | cons b bs =>
          cases cs with
          | nil => simp [componentsLe] at h'
          | cons c cs =>
              rw [componentsLe] at h h' ⊢
              -- Where the two pairs differ first decides.
              by_cases hab : a = b
              · subst hab
                rw [if_pos rfl] at h
                by_cases hac : a = c
                · rw [if_pos hac] at h' ⊢
                  exact ih h h'
                · rwa [if_neg hac] at h' ⊢
              · rw [if_neg hab] at h
                by_cases hbc : b = c
                · subst hbc
                  rwa [if_neg hab]
                · rw [if_neg hbc] at h'
                  have hlt := Component.lt_trans h h'
                  rw [if_neg, hlt]
                  rintro rfl
                  rw [Component.lt_asymm h] at h'
                  exact Bool.false_ne_true h'

lemma componentsLe_total (as bs : List Component) :
    componentsLe as bs = true ∨ componentsLe bs as = true := by
  induction as generalizing bs with
  | nil => exact .inl rfl
  | cons a as ih =>
      cases bs with
      | nil => exact .inr rfl
      | cons b bs =>
          rw [componentsLe, componentsLe]
          by_cases hab : a = b
          · subst hab
            simpa using ih bs
          · rw [if_neg hab, if_neg (Ne.symm hab)]
            rcases Component.lt_or_eq_or_lt a b with h | h | h
            · exact .inl h
            · exact absurd h hab
            · exact .inr h

lemma componentsLe_antisymm {as bs : List Component} (h : componentsLe as bs = true)
    (h' : componentsLe bs as = true) : as = bs := by
  induction as generalizing bs with
  | nil =>
      cases bs with
      | nil => rfl
      | cons b bs => simp [componentsLe] at h'
  | cons a as ih =>
      cases bs with
      | nil => simp [componentsLe] at h
      | cons b bs =>
          unfold componentsLe at h h'
          by_cases hab : a = b
          · subst hab
            rw [if_pos rfl] at h h'
            rw [ih h h']
          · rw [if_neg hab] at h
            rw [if_neg (Ne.symm hab), Component.lt_asymm h] at h'
            exact absurd h' Bool.false_ne_true

/-! ## Sorting -/

lemma mem_sort : p ∈ sort ps ↔ p ∈ ps := List.mem_mergeSort

lemma pairwise_sort (ps : List Path) : (sort ps).Pairwise fun p q => p.le q = true := by
  have htrans : ∀ a b c : Path, a.le b = true → b.le c = true → a.le c = true :=
    fun a b c hab hbc => componentsLe_trans hab hbc
  have htotal : ∀ a b : Path, (a.le b || b.le a) = true := by
    intro a b
    rw [Bool.or_eq_true]
    exact componentsLe_total a.components b.components
  exact List.pairwise_mergeSort htrans htotal ps

/-! ## Neighbours -/

lemma mem_of_mem_dedupNeighbours (h : p ∈ dedupNeighbours ps) : p ∈ ps := by
  fun_induction dedupNeighbours ps with
  | case1 => exact h
  | case2 q => exact h
  | case3 q r rest hsame ih =>
      rcases List.mem_cons.1 (ih h) with rfl | hrest
      · simp
      · simp [hrest]
  | case4 q r rest hother ih =>
      rcases List.mem_cons.1 h with rfl | hrest
      · simp
      · exact List.mem_cons_of_mem _ (ih hrest)

/-- What is dropped is the same as a path that is left. -/
lemma exists_same_dedupNeighbours (h : p ∈ ps) : ∃ q ∈ dedupNeighbours ps, q.Same p := by
  fun_induction dedupNeighbours ps generalizing p with
  | case1 => simp at h
  | case2 q =>
      obtain rfl := List.mem_singleton.1 h
      exact ⟨p, by simp, rfl⟩
  | case3 q r rest hsame ih =>
      rcases List.mem_cons.1 h with rfl | h
      · exact ih (by simp)
      · rcases List.mem_cons.1 h with rfl | h
        · obtain ⟨q', hq', hsame'⟩ := ih (List.mem_cons_self ..)
          exact ⟨q', hq', hsame'.trans hsame⟩
        · exact ih (by simp [h])
  | case4 q r rest hother ih =>
      rcases List.mem_cons.1 h with rfl | h
      · exact ⟨p, by simp, rfl⟩
      · obtain ⟨q', hq', hsame⟩ := ih h
        exact ⟨q', List.mem_cons_of_mem _ hq', hsame⟩

lemma pairwise_dedupNeighbours (h : ps.Pairwise fun p q => p.le q = true) :
    (dedupNeighbours ps).Pairwise fun p q => ¬ p.Same q := by
  fun_induction dedupNeighbours ps with
  | case1 => simp
  | case2 q => simp
  | case3 q r rest hsame ih =>
      exact ih (h.sublist ((List.sublist_cons_self r rest).cons_cons q))
  | case4 q r rest hother ih =>
      obtain ⟨hfirst, htail⟩ := List.pairwise_cons.1 h
      refine List.pairwise_cons.2 ⟨fun p hp hsame => hother ?_, ih htail⟩
      -- A path that is the same as `q` and stands behind `r` puts `r` in front of `q`.
      have hqr : q.le r = true := hfirst r (by simp)
      have hrp : r.le p = true := by
        rcases List.mem_cons.1 (mem_of_mem_dedupNeighbours hp) with rfl | hrest
        · rcases componentsLe_total p.components p.components with hle | hle
          · exact hle
          · exact hle
        · exact (List.pairwise_cons.1 htail).1 p hrest
      have hrq : componentsLe r.components q.components = true := by
        rw [show q.components = p.components from hsame]
        exact hrp
      exact componentsLe_antisymm hqr hrq

end Path

end Drydock
