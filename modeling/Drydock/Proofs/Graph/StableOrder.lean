import Drydock.Graph.Order
import Drydock.Proofs.Graph.Walks
import Mathlib.Data.List.Perm.Subperm
import Mathlib.Order.Bounds.Basic

/-!
# The least free node is placed next

A node is *free* behind some placed nodes when it is not among them and all of its predecessors are.
`Digraph.stableOrder` places the least free node until there is none, but it never asks which nodes
are free.  All that it has are counts and a heap, and what these say of the placed nodes is an
invariant of its loop.

* The count of a node is the number of its predecessors that are not placed.
* The heap holds the free nodes and nothing else, in rising order.

While the successors of a node are visited, both are behind by the successors that are still to
come: each of these is counted once more than it should be, and is not in the heap.  So a count that
is to be lowered is never zero, and a node gets into the heap at the last of the visits that it is
due.  The invariant is therefore stated with the list of visits that are left, which is empty
between two steps.

An order of this kind is determined by the free nodes.  Graphs with the same edges have the same
one, and where all edges rise it is the order of the nodes themselves.

* `Digraph.PlacingInvariant` — what counts and heap say of the placed nodes.
* `Digraph.PlacingInvariant.lower`, `Digraph.PlacingInvariant.take` — one visit, and the step from
  one node to the next.
* `Digraph.PlacedInTurn` — the least free node at every position, until none is left.
* `Digraph.exists_stableOrder` — the loop gives such an order on every graph.
* `Digraph.PlacedInTurn.perm` — where the nodes can be numbered along the edges, none is left out.
-/

namespace Drydock.Digraph

variable {g g' : Digraph} {placed rest order : List ℕ} {p : Placing} {node n a b : ℕ}

/-! ## Free nodes -/

/-- The nodes that can be placed next. -/
def free (g : Digraph) (placed : List ℕ) : Set ℕ :=
  {n | n ∈ g.nodes ∧ n ∉ placed ∧ ∀ a, g.Edge a n → a ∈ placed}

/-- How many predecessors of a node are not placed. -/
def waiting (g : Digraph) (placed : List ℕ) (n : ℕ) : ℕ :=
  (g.predecessors n).countP (· ∉ placed)

lemma waiting_eq_zero : g.waiting placed n = 0 ↔ ∀ a, g.Edge a n → a ∈ placed := by
  simp [waiting, List.countP_eq_zero]

lemma count_successors : (g.successors a).count b = g.edges.count (a, b) := by
  rw [successors, List.count_reverse, List.count, List.count, List.countP_map, List.countP_filter]
  refine List.countP_congr fun edge _ => ?_
  simp [Prod.ext_iff, and_comm]

lemma count_predecessors : (g.predecessors b).count a = g.edges.count (a, b) := by
  rw [predecessors, List.count_reverse, List.count, List.count, List.countP_map, List.countP_filter]
  refine List.countP_congr fun edge _ => ?_
  simp [Prod.ext_iff]

/-- A node that is placed is a predecessor less for each of its successors. -/
lemma waiting_concat (hnode : node ∉ placed) :
    g.waiting placed n = g.waiting (placed ++ [node]) n + (g.successors node).count n := by
  rw [count_successors, ← count_predecessors, waiting, waiting]
  -- Both counts go over the predecessors of `n`; an edge is one entry in either list.
  induction g.predecessors n with
  | nil => rfl
  | cons a rest ih =>
      rw [List.countP_cons, List.countP_cons, List.count_cons, ih]
      by_cases ha : a = node
      · subst ha
        simp [hnode]
        omega
      · by_cases hplaced : a ∈ placed <;> simp [ha, hplaced]
        omega

/-! ## The heap -/

@[simp] lemma mem_push {heap : List ℕ} : n ∈ push node heap ↔ n = node ∨ n ∈ heap := by
  fun_induction push node heap with
  | case1 => simp
  | case2 => simp
  | case3 first rest _ ih =>
      rw [List.mem_cons, ih, List.mem_cons]
      tauto

lemma pairwise_push {heap : List ℕ} (hheap : heap.Pairwise (· < ·)) (hnode : node ∉ heap) :
    (push node heap).Pairwise (· < ·) := by
  fun_induction push node heap with
  | case1 => simp
  | case2 first rest hle =>
      have hlt : node < first := lt_of_le_of_ne hle fun heq => hnode (heq ▸ List.mem_cons_self)
      refine List.pairwise_cons.2 ⟨fun x hx => ?_, hheap⟩
      rcases List.mem_cons.1 hx with rfl | hx
      · exact hlt
      · exact hlt.trans ((List.pairwise_cons.1 hheap).1 x hx)
  | case3 first rest hle ih =>
      obtain ⟨hfirst, hrest⟩ := List.pairwise_cons.1 hheap
      refine List.pairwise_cons.2 ⟨fun x hx => ?_,
        ih hrest fun hmem => hnode (List.mem_cons_of_mem _ hmem)⟩
      rcases mem_push.1 hx with rfl | hx
      · omega
      · exact hfirst x hx

lemma mem_foldr_push {nodes : List ℕ} : n ∈ nodes.foldr push [] ↔ n ∈ nodes := by
  induction nodes with
  | nil => simp
  | cons first nodes ih => rw [List.foldr_cons, mem_push, ih, List.mem_cons]

lemma pairwise_foldr_push {nodes : List ℕ} (hnodup : nodes.Nodup) :
    (nodes.foldr push []).Pairwise (· < ·) := by
  induction nodes with
  | nil => exact .nil
  | cons first nodes ih =>
      obtain ⟨hfirst, hnodup⟩ := List.nodup_cons.1 hnodup
      exact pairwise_push (ih hnodup) fun hmem => hfirst (mem_foldr_push.1 hmem)

/-! ## The invariant of the loop -/

/-- What counts and heap say when the nodes of `placed` are placed and those of `rest` have still to
be visited, one by one. -/
structure PlacingInvariant (g : Digraph) (placed rest : List ℕ) (p : Placing) : Prop where
  counts : ∀ n ∈ g.nodes, p.counts[n]? = some (g.waiting placed n + rest.count n)
  mem_ready_iff : ∀ n, n ∈ p.ready ↔ n ∈ g.free placed ∧ n ∉ rest
  rising : p.ready.Pairwise (· < ·)

lemma placingInvariant_unplaced (g : Digraph) : PlacingInvariant g [] [] g.unplaced where
  counts n hn := by
    have hlt : n < g.size := List.mem_range.1 hn
    simp [unplaced, nodes, waiting, hlt]
  mem_ready_iff n := by
    have hwaiting : (g.predecessors n).length = 0 ↔ ∀ a, ¬ g.Edge a n := by
      rw [List.length_eq_zero_iff, List.eq_nil_iff_forall_not_mem]
      exact forall_congr' fun a => mem_predecessors.not
    rw [unplaced, mem_foldr_push, List.mem_filter, decide_eq_true_eq, hwaiting]
    simp [free]
  rising := pairwise_foldr_push ((nodup_nodes g).filter _)

/-- One visit: the count is there to be lowered, and the node is ready if it was the last one. -/
lemma PlacingInvariant.lower (h : PlacingInvariant g placed (node :: rest) p)
    (hnode : node ∈ g.nodes) (hwaits : node ∉ placed) :
    ∃ p', p.lower node = some p' ∧ PlacingInvariant g placed rest p' := by
  have hcount : p.counts[node]? = some (g.waiting placed node + rest.count node + 1) := by
    rw [h.counts node hnode, List.count_cons_self, Nat.add_assoc]
  have hready : g.waiting placed node + rest.count node = 0 ↔
      node ∈ g.free placed ∧ node ∉ rest := by
    rw [Nat.add_eq_zero_iff, waiting_eq_zero, List.count_eq_zero]
    exact and_congr_left fun _ => ⟨fun hall => ⟨hnode, hwaits, hall⟩, fun hfree => hfree.2.2⟩
  have hother : ∀ n, n ≠ node → (n ∈ p.ready ↔ n ∈ g.free placed ∧ n ∉ rest) := by
    intro n hne
    rw [h.mem_ready_iff, List.mem_cons, not_or, and_iff_right hne]
  have hnot : node ∉ p.ready := fun hmem =>
    ((h.mem_ready_iff node).1 hmem).2 List.mem_cons_self
  -- Only `node` has its count lowered, and only `node` may get into the heap.
  refine ⟨_, by rw [Placing.lower, hcount], fun n hn => ?_, fun n => ?_, ?_⟩
  · by_cases hne : node = n
    · subst hne
      rw [List.getElem?_set_self (List.getElem?_eq_some_iff.1 hcount).1]
    · rw [List.getElem?_set_ne hne, h.counts n hn, List.count_cons_of_ne hne]
  · dsimp only
    by_cases hne : n = node
    · subst hne
      split
      · rename_i hzero
        exact iff_of_true (mem_push.2 (.inl rfl)) (hready.1 hzero)
      · rename_i hpos
        exact iff_of_false hnot fun hfree => hpos (hready.2 hfree)
    · split
      · rw [mem_push, or_iff_right hne, hother n hne]
      · exact hother n hne
  · dsimp only
    split
    · exact pairwise_push h.rising hnot
    · exact h.rising

lemma PlacingInvariant.lowerAll (h : PlacingInvariant g placed rest p)
    (hrest : ∀ n ∈ rest, n ∈ g.nodes ∧ n ∉ placed) :
    ∃ p', p.lowerAll rest = some p' ∧ PlacingInvariant g placed [] p' := by
  induction rest generalizing p with
  | nil => exact ⟨p, rfl, h⟩
  | cons node rest ih =>
      obtain ⟨hnode, hwaits⟩ := hrest node List.mem_cons_self
      obtain ⟨between, hlower, hbetween⟩ := h.lower hnode hwaits
      obtain ⟨p', hall, hp'⟩ := ih hbetween fun n hn => hrest n (List.mem_cons_of_mem _ hn)
      exact ⟨p', by rw [Placing.lowerAll, hlower, Option.bind_some, hall], hp'⟩

/-- The top of the heap is placed, and its successors are to be visited. -/
lemma PlacingInvariant.take {counts ready : List ℕ}
    (h : PlacingInvariant g placed [] ⟨counts, node :: ready⟩) :
    IsLeast (g.free placed) node ∧
      PlacingInvariant g (placed ++ [node]) (g.successors node) ⟨counts, ready⟩ := by
  have hmem : ∀ n, n ∈ g.free placed ↔ n = node ∨ n ∈ ready := by
    intro n
    have hn := h.mem_ready_iff n
    rw [List.mem_cons, and_iff_left List.not_mem_nil] at hn
    exact hn.symm
  obtain ⟨hleast, hrising⟩ := List.pairwise_cons.1 h.rising
  have hnode : node ∈ g.free placed := (hmem node).2 (.inl rfl)
  refine ⟨⟨hnode, fun n hn => ?_⟩, fun n hn => ?_, fun n => ?_, hrising⟩
  · rcases (hmem n).1 hn with rfl | hn
    · exact le_rfl
    · exact (hleast n hn).le
  · rw [h.counts n hn, waiting_concat hnode.2.1, List.count_nil, Nat.add_zero]
  · rw [mem_successors]
    constructor
    · intro hn
      obtain ⟨hnodes, hwaits, hpreds⟩ := (hmem n).2 (.inr hn)
      -- The heap rises strictly, so `node` is not in it a second time.
      have hne : n ≠ node := fun heq => lt_irrefl node (hleast node (heq ▸ hn))
      exact ⟨⟨hnodes, by simp [hwaits, hne], fun a ha => List.mem_append_left _ (hpreds a ha)⟩,
        fun hedge => hnode.2.1 (hpreds node hedge)⟩
    · rintro ⟨⟨hnodes, hwaits, hpreds⟩, hedge⟩
      rw [List.mem_append, List.mem_singleton, not_or] at hwaits
      refine ((hmem n).1 ⟨hnodes, hwaits.1, fun a ha => ?_⟩).resolve_left hwaits.2
      refine (List.mem_append.1 (hpreds a ha)).resolve_right fun hlast => hedge ?_
      rwa [← List.mem_singleton.1 hlast]

/-- Nodes that are placed with everything in front of them. -/
def Settled (g : Digraph) (placed : List ℕ) : Prop :=
  ∀ n ∈ placed, ∀ a, g.Edge a n → a ∈ placed

lemma Settled.concat (h : Settled g placed) (hnode : node ∈ g.free placed) :
    Settled g (placed ++ [node]) := by
  intro n hn a hedge
  rcases List.mem_append.1 hn with hn | hn
  · exact List.mem_append_left _ (h n hn a hedge)
  · exact List.mem_append_left _ (hnode.2.2 a (List.mem_singleton.1 hn ▸ hedge))

/-- A step of the loop.  The successors of the node that is placed are not placed themselves, since
they have waited for it. -/
lemma PlacingInvariant.step (hg : g.WellFormed) {counts ready : List ℕ}
    (h : PlacingInvariant g placed [] ⟨counts, node :: ready⟩) (hplaced : Settled g placed) :
    ∃ p', Placing.lowerAll ⟨counts, ready⟩ (g.successors node) = some p' ∧
      PlacingInvariant g (placed ++ [node]) [] p' := by
  obtain ⟨⟨hnode, -⟩, hvisits⟩ := h.take
  refine hvisits.lowerAll fun n hn => ?_
  have hedge := mem_successors.1 hn
  refine ⟨hg.target_mem hedge, fun hmem => hnode.2.1 ?_⟩
  rcases List.mem_append.1 hmem with hmem | hmem
  · exact hplaced n hmem node hedge
  · exact hnode.2.2 node (List.mem_singleton.1 hmem ▸ hedge)

/-! ## The whole order -/

/-- Behind some placed nodes, `order` goes on with the least free node, until no node is free. -/
structure PlacedInTurn (g : Digraph) (placed order : List ℕ) : Prop where
  least : ∀ k n, order[k]? = some n → IsLeast (g.free (placed ++ order.take k)) n
  complete : g.free (placed ++ order) = ∅

lemma placedInTurn_nil (h : g.free placed = ∅) : PlacedInTurn g placed [] where
  least k n hk := by simp at hk
  complete := by rwa [List.append_nil]

lemma PlacedInTurn.cons (hleast : IsLeast (g.free placed) node)
    (h : PlacedInTurn g (placed ++ [node]) order) : PlacedInTurn g placed (node :: order) where
  least k n hk := by
    cases k with
    | zero =>
        obtain rfl : node = n := by simpa using hk
        simpa using hleast
    | succ k => simpa using h.least k n (by simpa using hk)
  complete := by simpa using h.complete

lemma PlacedInTurn.of_cons (h : PlacedInTurn g placed (node :: order)) :
    IsLeast (g.free placed) node ∧ PlacedInTurn g (placed ++ [node]) order := by
  refine ⟨by simpa using h.least 0 node rfl, fun k n hk => ?_, by simpa using h.complete⟩
  simpa using h.least (k + 1) n (by simpa using hk)

lemma PlacingInvariant.place (hg : g.WellFormed) (h : PlacingInvariant g placed [] p)
    (hplaced : Settled g placed) :
    ∃ order, g.place p = some order ∧ PlacedInTurn g placed order := by
  fun_induction Digraph.place g p generalizing placed with
  | case1 counts =>
      refine ⟨[], rfl, placedInTurn_nil (Set.eq_empty_of_forall_notMem fun n hn => ?_)⟩
      simpa using (h.mem_ready_iff n).2 ⟨hn, List.not_mem_nil⟩
  -- A count below zero would end the loop here.
  | case2 counts node ready hnone =>
      obtain ⟨p', hsome, -⟩ := h.step hg hplaced
      simp [hnone] at hsome
  | case3 counts node ready p' hsome ih =>
      obtain ⟨hleast, -⟩ := h.take
      obtain ⟨p'', hsome', hinv⟩ := h.step hg hplaced
      obtain rfl : p' = p'' := Option.some.inj (hsome.symm.trans hsome')
      obtain ⟨order, horder, hturn⟩ := ih hinv (hplaced.concat hleast.1)
      exact ⟨node :: order, by rw [horder, Option.map_some], hturn.cons hleast⟩

/-- No count is lowered below zero, and the nodes are placed in turn. -/
theorem exists_stableOrder (hg : g.WellFormed) :
    ∃ order, g.stableOrder = some order ∧ PlacedInTurn g [] order :=
  (placingInvariant_unplaced g).place hg fun _ hn => absurd hn List.not_mem_nil

/-! ## What an order of this kind is -/

/-- The order is the only one of its kind, and nothing of the graph but its free nodes enters it. -/
lemma PlacedInTurn.unique {order' : List ℕ} (hfree : ∀ placed, g.free placed = g'.free placed)
    (h : PlacedInTurn g placed order) (h' : PlacedInTurn g' placed order') : order = order' := by
  -- Both orders go on with the least free node, and end where none is free.
  induction order generalizing placed order' with
  | nil =>
      cases order' with
      | nil => rfl
      | cons n order' =>
          have hn := h'.of_cons.1.1
          rw [← hfree, ← List.append_nil placed, h.complete] at hn
          exact absurd hn (Set.notMem_empty n)
  | cons n order ih =>
      obtain ⟨hleast, hrest⟩ := h.of_cons
      cases order' with
      | nil =>
          have hn := hleast.1
          rw [hfree, ← List.append_nil placed, h'.complete] at hn
          exact absurd hn (Set.notMem_empty n)
      | cons n' order' =>
          obtain ⟨hleast', hrest'⟩ := h'.of_cons
          rw [← hfree] at hleast'
          obtain rfl := hleast.unique hleast'
          rw [ih hrest hrest']

lemma PlacedInTurn.mem_nodes (h : PlacedInTurn g [] order) (hn : n ∈ order) : n ∈ g.nodes := by
  obtain ⟨k, hk⟩ := List.getElem?_of_mem hn
  exact (h.least k n hk).1.1

lemma PlacedInTurn.nodup (h : PlacedInTurn g [] order) : order.Nodup := by
  rw [List.nodup_iff_getElem?_ne_getElem?]
  intro i j hij hj hsame
  have hn := (h.least j _ (List.getElem?_eq_getElem hj)).1.2.1
  refine hn ?_
  rw [List.nil_append]
  refine List.mem_of_getElem? (i := i) ?_
  rw [List.getElem?_take_of_lt hij, hsame, List.getElem?_eq_getElem hj]

lemma PlacedInTurn.pairwise (h : PlacedInTurn g [] order) :
    order.Pairwise fun a b => ¬ g.Edge b a := by
  rw [List.pairwise_iff_getElem]
  intro i j hi hj hij hedge
  have hmem := (h.least i _ (List.getElem?_eq_getElem hi)).1.2.2 _ hedge
  rw [List.nil_append] at hmem
  obtain ⟨k, hk, hsame⟩ := List.mem_take_iff_getElem.1 hmem
  have := (h.nodup.getElem_inj_iff).1 hsame
  omega

/-- Nodes that can be numbered along the edges are all placed: the unplaced node with the least
number would be free. -/
lemma PlacedInTurn.perm (h : PlacedInTurn g [] order) (hg : g.WellFormed) (rank : ℕ → ℕ)
    (hrank : ∀ a b, g.Edge a b → rank a < rank b) : order.Perm g.nodes := by
  have hall : ∀ k n, n ∈ g.nodes → rank n = k → n ∈ order := by
    intro k
    induction k using Nat.strong_induction_on with
    | _ k ih =>
        rintro n hn rfl
        by_contra hnot
        have hfree : n ∈ g.free ([] ++ order) := ⟨hn, hnot, fun a hedge =>
          ih (rank a) (hrank a n hedge) a (hg.source_mem hedge) rfl⟩
        rw [h.complete] at hfree
        exact hfree
  exact (List.perm_ext_iff_of_nodup h.nodup (nodup_nodes g)).2 fun n =>
    ⟨h.mem_nodes, fun hn => hall _ n hn rfl⟩

/-- Where all edges rise, the nodes are placed in their own order. -/
lemma placedInTurn_nodes (hrise : ∀ a b, g.Edge a b → a < b) :
    PlacedInTurn g [] g.nodes where
  least k n hk := by
    have hlt : k < g.size := by simpa [nodes] using (List.getElem?_eq_some_iff.1 hk).1
    obtain rfl : k = n := by simpa [nodes, List.getElem?_range hlt] using hk
    have hmem : ∀ a, a ∈ g.nodes.take k ↔ a < k := by
      intro a
      simp only [nodes, List.take_range, List.mem_range]
      omega
    rw [List.nil_append]
    refine ⟨⟨List.mem_range.2 hlt, fun hself => lt_irrefl k ((hmem k).1 hself), fun a hedge =>
      (hmem a).2 (hrise a k hedge)⟩, fun m hm => ?_⟩
    exact not_lt.1 fun hlt => hm.2.1 ((hmem m).2 hlt)
  complete := Set.eq_empty_of_forall_notMem fun _ hn => hn.2.1 hn.1

end Drydock.Digraph
