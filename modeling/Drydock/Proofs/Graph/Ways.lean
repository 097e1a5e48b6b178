import Drydock.Proofs.Graph.Walks

/-!
# The ways in the queue of a breadth-first walk

A breadth-first walk that looks for a way back to `start` keeps a queue of ways, which are simple
walks from `start`.  It goes on from the end of the first way to the nodes that it has not met, and
puts the longer ways at the end of the queue.  The ways are shortest first and no two lengths more
than one apart.  Two facts carry the walk to a shortest cycle.

* A node that is met but stands at the end of no way in the queue is nearer to `start` than the end
  of every way in it.
* Some way in the queue can be continued to a closed walk that is no longer than a shortest one.

The second fact keeps the queue from running empty, and it needs the first one: the node next on a
shortest cycle may have been met before, and then a way to it is in the queue already.

The walk may leave out what is not in the strongly connected component of `start`, since no closed
walk through `start` leaves it.  So the invariant speaks of a region, and only its nodes have to be
met.

* `Digraph.IsWay` — a way in the queue, its last node first.
* `Digraph.BreadthInvariant` — where the walk stands.
* `Digraph.BreadthInvariant.advance` — a step along the first way keeps the invariant.
-/

namespace Drydock.Digraph

variable {g : Digraph} {start node x L : ℕ} {unmet way region : List ℕ} {queue : List (List ℕ)}

/-! ## Ways -/

/-- A walk from `start` that meets no node twice and none of the unmet nodes, the last node
first. -/
structure IsWay (g : Digraph) (start : ℕ) (unmet way : List ℕ) : Prop where
  starts : way.getLast? = some start
  chain : way.IsChain fun x y => g.Edge y x
  nodup : way.Nodup
  met : ∀ x ∈ way, x ∉ unmet

lemma IsWay.ne_nil (h : IsWay g start unmet way) : way ≠ [] := by
  rintro rfl
  simpa using h.starts

lemma IsWay.head?_eq (h : IsWay g start unmet way) : way.head? = some (way.headD start) := by
  cases way with
  | nil => exact absurd rfl h.ne_nil
  | cons x way => rfl

lemma IsWay.length_pos (h : IsWay g start unmet way) : 0 < way.length :=
  List.length_pos_of_ne_nil h.ne_nil

lemma IsWay.walk (h : IsWay g start unmet way) :
    g.Walk (way.length - 1) start (way.headD start) := by
  have hchain : way.reverse.IsChain g.Edge := List.isChain_reverse.2 h.chain
  have hhead : way.reverse.head? = some start := by simpa using h.starts
  -- A way is kept with its last node in front, a walk is read from `start`.
  cases hway : way.reverse with
  | nil => simp [hway] at hhead
  | cons first rest =>
      obtain rfl : first = start := by simpa [hway] using hhead
      rw [hway] at hchain
      have hwalk := walk_of_isChain hchain
      have hlast : (first :: rest).getLast (by simp) = way.headD first := by
        have hrev : way = (first :: rest).reverse := by rw [← hway, List.reverse_reverse]
        have hlast? : way.head? = some ((first :: rest).getLast (by simp)) := by
          rw [hrev, List.head?_reverse, List.getLast?_eq_some_getLast]
        exact (Option.some.inj (h.head?_eq.symm.trans hlast?)).symm
      have hlen : way.length - 1 = rest.length := by
        rw [← List.length_reverse, hway]
        simp
      rw [hlen, ← hlast]
      exact hwalk

lemma IsWay.extend (h : IsWay g start unmet way) (hedge : g.Edge (way.headD start) node)
    (hunmet : node ∈ unmet) {fewer : List ℕ} (hsub : fewer ⊆ unmet) (hnot : node ∉ fewer) :
    IsWay g start fewer (node :: way) := by
  refine ⟨?_, ?_, ?_, ?_⟩
  · rw [List.getLast?_cons, h.starts]
    rfl
  · cases way with
    | nil => exact absurd rfl h.ne_nil
    | cons x way => exact List.isChain_cons_cons.2 ⟨hedge, h.chain⟩
  · exact List.nodup_cons.2 ⟨fun hmem => h.met node hmem hunmet, h.nodup⟩
  · intro x hx
    rcases List.mem_cons.1 hx with rfl | hx
    · exact hnot
    · exact fun hfewer => h.met x hx (hsub hfewer)

/-! ## The invariant of the search -/

/-- Where a search in a region stands, when closed walks through `start` have at least `L` edges. -/
structure BreadthInvariant (g : Digraph) (start L : ℕ) (region unmet : List ℕ)
    (queue : List (List ℕ)) : Prop where
  ways : ∀ way ∈ queue, IsWay g start unmet way
  sorted : queue.Pairwise fun a b => a.length ≤ b.length
  spread : ∀ a ∈ queue, ∀ b ∈ queue, b.length ≤ a.length + 1
  met : ∀ node ∈ region, node ∉ unmet → (∃ way ∈ queue, way.headD start = node) ∨
    ∃ n, g.Walk n start node ∧ ∀ way ∈ queue, n < way.length
  completes : ∃ way ∈ queue, ∃ n, g.Walk (n + 1) (way.headD start) start ∧ way.length + n ≤ L

/-- The ways that a step of the search puts into the queue. -/
def continuations (g : Digraph) (start : ℕ) (unmet way : List ℕ) : List (List ℕ) :=
  ((g.successors (way.headD start)).filter (· ∈ unmet)).map (· :: way)

/-- The nodes of a list that are not among others. -/
def without (nodes gone : List ℕ) : List ℕ := nodes.filter (· ∉ gone)

lemma mem_continuations {w : List ℕ} :
    w ∈ g.continuations start unmet way ↔
      ∃ x, g.Edge (way.headD start) x ∧ x ∈ unmet ∧ x :: way = w := by
  simp [continuations, and_assoc]

lemma length_of_mem_continuations {w : List ℕ} (h : w ∈ g.continuations start unmet way) :
    w.length = way.length + 1 := by
  obtain ⟨x, -, -, rfl⟩ := mem_continuations.1 h
  simp

lemma mem_without {nodes gone : List ℕ} :
    node ∈ without nodes gone ↔ node ∈ nodes ∧ node ∉ gone := by
  simp [without]

/-! ## One step of the search -/

/-- No way is shorter than the first one, before the step along it and after. -/
lemma BreadthInvariant.first_le (h : BreadthInvariant g start L region unmet (way :: queue))
    {w : List ℕ} (hw : w ∈ queue ++ g.continuations start unmet way) :
    way.length ≤ w.length := by
  rcases List.mem_append.1 hw with hw | hw
  · exact (List.pairwise_cons.1 h.sorted).1 w hw
  · have := length_of_mem_continuations hw
    omega

lemma BreadthInvariant.le_first (h : BreadthInvariant g start L region unmet (way :: queue))
    {w : List ℕ} (hw : w ∈ queue ++ g.continuations start unmet way) :
    w.length ≤ way.length + 1 := by
  rcases List.mem_append.1 hw with hw | hw
  · exact h.spread way (by simp) w (List.mem_cons_of_mem _ hw)
  · exact (length_of_mem_continuations hw).le

/-- The ways after a step along the first one meet none of the nodes that are still unmet. -/
lemma BreadthInvariant.ways_advance (h : BreadthInvariant g start L region unmet (way :: queue))
    {w : List ℕ} (hw : w ∈ queue ++ g.continuations start unmet way) :
    IsWay g start (without unmet (g.successors (way.headD start))) w := by
  have hsub : without unmet (g.successors (way.headD start)) ⊆ unmet := fun x hx =>
    (mem_without.1 hx).1
  rcases List.mem_append.1 hw with hw | hw
  · have hold := h.ways w (List.mem_cons_of_mem _ hw)
    exact ⟨hold.starts, hold.chain, hold.nodup, fun x hx hx' => hold.met x hx (hsub hx')⟩
  · obtain ⟨x, hedge, hx, rfl⟩ := mem_continuations.1 hw
    exact (h.ways way (by simp)).extend hedge hx hsub fun hx' =>
      (mem_without.1 hx').2 (mem_successors.2 hedge)

/-- A node that is met after a step along the first way ends a way, or is nearer than all ends. -/
lemma BreadthInvariant.met_advance (h : BreadthInvariant g start L region unmet (way :: queue))
    (hnode : node ∈ region) (hmet : node ∉ without unmet (g.successors (way.headD start))) :
    (∃ w ∈ queue ++ g.continuations start unmet way, w.headD start = node) ∨
      ∃ n, g.Walk n start node ∧
        ∀ w ∈ queue ++ g.continuations start unmet way, n < w.length := by
  by_cases hunmet : node ∈ unmet
  · -- The node is met by this step.
    have hedge : g.Edge (way.headD start) node := by
      by_contra hnot
      exact hmet (mem_without.2 ⟨hunmet, fun hmem => hnot (mem_successors.1 hmem)⟩)
    exact .inl ⟨node :: way,
      List.mem_append_right _ (mem_continuations.2 ⟨node, hedge, hunmet, rfl⟩), rfl⟩
  · rcases h.met node hnode hunmet with ⟨w, hw, hend⟩ | ⟨n, hwalk, hlt⟩
    · rcases List.mem_cons.1 hw with rfl | hw
      · -- The way that is left behind was the way to its end.
        have hway := h.ways w (by simp)
        refine .inr ⟨w.length - 1, hend ▸ hway.walk, fun b hb => ?_⟩
        have := hway.length_pos
        have := h.first_le hb
        omega
      · exact .inl ⟨w, List.mem_append_left _ hw, hend⟩
    · have := hlt way (by simp)
      exact .inr ⟨n, hwalk, fun b hb => this.trans_le (h.first_le hb)⟩

variable (hregion : ∀ x, g.Reach start x → g.Reach x start → x ∈ region)
  (hmin : ∀ n, g.Walk (n + 1) start start → L ≤ n + 1)

include hregion hmin in
/-- After a step along a way that does not close, some way still leads to a shortest cycle. -/
lemma BreadthInvariant.completes_advance
    (h : BreadthInvariant g start L region unmet (way :: queue))
    (hopen : ¬ g.Edge (way.headD start) start) :
    ∃ w ∈ queue ++ g.continuations start unmet way, ∃ n,
      g.Walk (n + 1) (w.headD start) start ∧ w.length + n ≤ L := by
  obtain ⟨w, hw, n, hwalk, hle⟩ := h.completes
  rcases List.mem_cons.1 hw with rfl | hw
  · obtain ⟨x, hedge, hrest⟩ := walk_succ hwalk
    have hway := h.ways w (by simp)
    have hpos := hway.length_pos
    cases n with
    | zero => exact absurd (walk_zero hrest ▸ hedge) hopen
    | succ n =>
        by_cases hunmet : x ∈ unmet
        · exact ⟨x :: w, List.mem_append_right _ (mem_continuations.2 ⟨x, hedge, hunmet, rfl⟩),
            n, hrest, by simp; omega⟩
        -- A node that was nearer to `start` would close a walk of fewer than `L` edges.
        · have hshorter : ∀ k, g.Walk k start x → w.length ≤ k := by
            intro k hk
            have := hmin (k + n) (hk.append hrest)
            omega
          have hx : x ∈ region := hregion x (Reach.edge ⟨_, hway.walk⟩ hedge) ⟨_, hrest⟩
          rcases h.met x hx hunmet with ⟨b, hb, hend⟩ | ⟨k, hk, hlt⟩
          · rcases List.mem_cons.1 hb with rfl | hb
            · have := hshorter _ (hend ▸ hway.walk)
              omega
            · have hb := List.mem_append_left (g.continuations start unmet w) hb
              have := h.le_first hb
              exact ⟨b, hb, n, hend.symm ▸ hrest, by omega⟩
          · have := hshorter k hk
            have := hlt w (by simp)
            omega
  · exact ⟨w, List.mem_append_left _ hw, n, hwalk, hle⟩

include hregion hmin in
/-- A step along the first way of the queue, which does not lead back to `start`. -/
lemma BreadthInvariant.advance (h : BreadthInvariant g start L region unmet (way :: queue))
    (hopen : ¬ g.Edge (way.headD start) start) :
    BreadthInvariant g start L region (without unmet (g.successors (way.headD start)))
      (queue ++ g.continuations start unmet way) where
  ways _ hw := h.ways_advance hw
  sorted := by
    refine List.pairwise_append.2 ⟨(List.pairwise_cons.1 h.sorted).2, ?_, fun a ha b hb => ?_⟩
    · refine List.pairwise_of_forall_mem_list fun a ha b hb => ?_
      rw [length_of_mem_continuations ha, length_of_mem_continuations hb]
    · rw [length_of_mem_continuations hb]
      exact h.le_first (List.mem_append_left _ ha)
  spread a ha b hb := by
    have := h.first_le ha
    have := h.le_first hb
    omega
  met _ hnode hmet := h.met_advance hnode hmet
  completes := h.completes_advance hregion hmin hopen

end Drydock.Digraph
