import Drydock.Graph.Digraph
import Mathlib.Data.List.Chain
import Mathlib.Data.List.Nodup
import Mathlib.Logic.Relation

/-!
# Walks in a directed graph

A walk follows edges from node to node, and carries the number of its edges.  Both searches of
`Drydock.Digraph` are judged by walks: a node lies on a cycle when a walk of at least one edge leads
from it back to itself, and a way back is shortest when no walk has fewer edges.

The number stands in the type of a walk, since the two searches need different things of it.  The
depth-first one only asks whether there is a walk (`Digraph.Reach`), the breadth-first one compares
lengths.  What is said of a declaration uses neither: there a cycle is a loop of the transitive
closure of the dependencies, which `Digraph.onCycle_iff_transGen` puts beside closed walks.

A graph is given by the list of its edges, and `Digraph.WellFormed` is all that the searches need of
it.  Every graph that is built by `Digraph.updateEdge` over its own nodes is of this kind.

* `Digraph.Walk`, `Digraph.Reach`, `Digraph.OnCycle` — walks of a length, of any length, and closed
  ones.
* `Digraph.WellFormed` — what the searches need of a graph: no node twice, no edge to a stranger.
* `Digraph.walk_of_isChain`, `Digraph.closedWalk_of_isChain` — walks read off lists of nodes.
-/

namespace Drydock.Digraph

variable {g : Digraph} {a b c m n : ℕ}

/-! ## Edges -/

/-- An edge leads from `a` to `b`. -/
def Edge (g : Digraph) (a b : ℕ) : Prop := (a, b) ∈ g.edges

@[simp] lemma mem_successors : b ∈ g.successors a ↔ g.Edge a b := by
  simp [successors, Edge]

@[simp] lemma mem_predecessors : a ∈ g.predecessors b ↔ g.Edge a b := by
  simp [predecessors, Edge]

lemma nodup_nodes (g : Digraph) : g.nodes.Nodup := List.nodup_range

/-- No edge is listed twice and edges run between nodes. -/
structure WellFormed (g : Digraph) : Prop where
  nodup_edges : g.edges.Nodup
  source_mem : ∀ {a b}, g.Edge a b → a ∈ g.nodes
  target_mem : ∀ {a b}, g.Edge a b → b ∈ g.nodes

lemma size_foldl_updateEdge {edges : List (ℕ × ℕ)} :
    (edges.foldl updateEdge g).size = g.size := by
  induction edges generalizing g with
  | nil => rfl
  | cons edge edges ih =>
      rw [List.foldl_cons, ih, updateEdge]
      split <;> rfl

lemma edge_foldl_updateEdge {edges : List (ℕ × ℕ)} :
    (edges.foldl updateEdge g).Edge a b ↔ g.Edge a b ∨ (a, b) ∈ edges := by
  induction edges generalizing g with
  | nil => simp
  | cons edge edges ih =>
      have hstep : (g.updateEdge edge).Edge a b ↔ g.Edge a b ∨ (a, b) = edge := by
        rw [updateEdge, Edge, Edge]
        split
        · rename_i hmem
          exact (or_iff_left_of_imp fun heq => heq ▸ hmem).symm
        · simp
      rw [List.foldl_cons, ih, hstep, List.mem_cons, or_assoc]

lemma nodup_foldl_updateEdge {edges : List (ℕ × ℕ)} (h : g.edges.Nodup) :
    (edges.foldl updateEdge g).edges.Nodup := by
  induction edges generalizing g with
  | nil => exact h
  | cons edge edges ih =>
      refine ih ?_
      rw [updateEdge]
      split
      · exact h
      · rename_i hnot
        rw [← List.concat_eq_append]
        exact h.concat hnot

-- Of the edges at one node, the other end tells which edge it is.
lemma WellFormed.nodup_successors (hg : g.WellFormed) (a : ℕ) : (g.successors a).Nodup := by
  refine List.nodup_reverse.2 ((hg.nodup_edges.filter _).map_on fun x hx y hy hxy => ?_)
  simp only [List.mem_filter, decide_eq_true_eq] at hx hy
  exact Prod.ext (hx.2.trans hy.2.symm) hxy

/-! ## Walks -/

/-- A walk of a number of edges from one node to another. -/
inductive Walk (g : Digraph) : ℕ → ℕ → ℕ → Prop where
  | refl (a : ℕ) : Walk g 0 a a
  | step {n : ℕ} {a b c : ℕ} : g.Edge a b → Walk g n b c → Walk g (n + 1) a c

/-- Some walk leads from `a` to `b`. -/
def Reach (g : Digraph) (a b : ℕ) : Prop := ∃ n, g.Walk n a b

/-- A walk of at least one edge leads from `a` back to `a`. -/
def OnCycle (g : Digraph) (a : ℕ) : Prop := ∃ n, g.Walk (n + 1) a a

lemma Walk.single (h : g.Edge a b) : g.Walk 1 a b := .step h (.refl b)

lemma Walk.append (h : g.Walk m a b) (h' : g.Walk n b c) : g.Walk (m + n) a c := by
  induction h with
  | refl a => simpa using h'
  | @step k a b d hedge _ ih =>
      have hlen : k + 1 + n = k + n + 1 := by omega
      rw [hlen]
      exact .step hedge (ih h')

lemma Reach.refl (a : ℕ) : g.Reach a a := ⟨0, .refl a⟩

lemma Reach.edge (h : g.Reach a b) (h' : g.Edge b c) : g.Reach a c := by
  obtain ⟨n, hwalk⟩ := h
  exact ⟨n + 1, hwalk.append (.single h')⟩

/-- An edge out of a node that its target leads back to closes a cycle. -/
lemma OnCycle.of_edge (h : g.Edge a b) (h' : g.Reach b a) : g.OnCycle a := by
  obtain ⟨n, hwalk⟩ := h'
  exact ⟨n, .step h hwalk⟩

lemma walk_zero (h : g.Walk 0 a b) : a = b := by
  cases h
  rfl

lemma walk_succ (h : g.Walk (n + 1) a c) : ∃ b, g.Edge a b ∧ g.Walk n b c := by
  cases h with
  | step hedge hwalk => exact ⟨_, hedge, hwalk⟩

/-- Closed walks are the loops of the transitive closure of the edges. -/
theorem onCycle_iff_transGen : g.OnCycle a ↔ Relation.TransGen g.Edge a a := by
  have htrans : ∀ n a b, g.Walk (n + 1) a b → Relation.TransGen g.Edge a b := by
    intro n
    induction n with
    | zero =>
        intro a b h
        obtain ⟨c, hedge, hwalk⟩ := walk_succ h
        exact walk_zero hwalk ▸ .single hedge
    | succ n ih =>
        intro a b h
        obtain ⟨c, hedge, hwalk⟩ := walk_succ h
        exact .head hedge (ih c b hwalk)
  have hwalk : ∀ b, Relation.TransGen g.Edge a b → ∃ n, g.Walk (n + 1) a b := by
    intro b h
    induction h with
    | single hedge => exact ⟨0, .single hedge⟩
    | tail _ hedge ih =>
        obtain ⟨n, hn⟩ := ih
        exact ⟨n + 1, hn.append (.single hedge)⟩
  exact ⟨fun ⟨n, h⟩ => htrans n a a h, hwalk a⟩

/-- Nodes that can be numbered so that every edge rises lie on no cycle. -/
lemma not_onCycle_of_rank (rank : ℕ → ℕ) (h : ∀ a b, g.Edge a b → rank a < rank b)
    (a : ℕ) : ¬ g.OnCycle a := by
  -- Along a walk the number rises by one at least with every edge.
  have hrise : ∀ {n a b}, g.Walk n a b → rank a + n ≤ rank b := by
    intro n a b hwalk
    induction hwalk with
    | refl a => simp
    | step hedge _ ih =>
        have := h _ _ hedge
        omega
  rintro ⟨n, hwalk⟩
  have := hrise hwalk
  omega

/-! ## Walks as lists of nodes -/

lemma walk_of_isChain {nodes : List ℕ} (h : (a :: nodes).IsChain g.Edge) :
    g.Walk nodes.length a ((a :: nodes).getLast (by simp)) := by
  induction nodes generalizing a with
  | nil => exact .refl a
  | cons b nodes ih =>
      obtain ⟨hedge, hchain⟩ := List.isChain_cons_cons.1 h
      exact .step hedge (ih hchain)

/-- A chain of at least one edge runs between nodes. -/
lemma WellFormed.mem_nodes_of_isChain (hg : g.WellFormed) {nodes : List ℕ}
    (hchain : nodes.IsChain g.Edge) (hlen : 2 ≤ nodes.length) (hmem : a ∈ nodes) :
    a ∈ g.nodes := by
  induction nodes with
  | nil => simp at hmem
  | cons first rest ih =>
      cases rest with
      | nil => simp at hlen
      | cons second rest =>
          obtain ⟨hedge, hchain⟩ := List.isChain_cons_cons.1 hchain
          rcases List.mem_cons.1 hmem with rfl | hmem
          · exact hg.source_mem hedge
          -- Every edge vouches for its source, so only the last node needs the edge in front of it.
          · cases rest with
            | nil => exact List.mem_singleton.1 hmem ▸ hg.target_mem hedge
            | cons third rest => exact ih hchain (by simp) hmem

/-- A closed chain of edges that passes through a node is a closed walk from that node, with one
edge less than the chain has entries. -/
lemma closedWalk_of_isChain {nodes : List ℕ} (hchain : nodes.IsChain g.Edge)
    (hclosed : nodes.head? = nodes.getLast?) (hlen : 2 ≤ nodes.length) (hmem : a ∈ nodes) :
    ∃ n, nodes.length = n + 2 ∧ g.Walk (n + 1) a a := by
  obtain ⟨front, back, rfl⟩ := List.append_of_mem hmem
  obtain ⟨hfront, hback⟩ := List.isChain_split.1 hchain
  have hout := walk_of_isChain hback
  -- The chain is walked from `a` to its end, and from its beginning, the same node, to `a`.
  cases front with
  | nil =>
      have hlast : (a :: back).getLast (by simp) = a := by
        simpa [List.getLast?_eq_some_getLast, eq_comm] using hclosed
      rw [hlast] at hout
      obtain ⟨n, hn⟩ : ∃ n, back.length = n + 1 := ⟨back.length - 1, by simp at hlen; omega⟩
      exact ⟨n, by simp [hn], hn ▸ hout⟩
  | cons first front =>
      have hin := walk_of_isChain hfront
      have hlast : (a :: back).getLast (by simp) = first := by
        simpa [List.getLast?_append, List.getLast?_eq_some_getLast, eq_comm] using hclosed
      rw [hlast] at hout
      have hwalk := hout.append hin
      exact ⟨back.length + front.length, by simp; omega, by simpa [Nat.add_assoc] using hwalk⟩

/-! ## Places in an order -/

/-- In a list with nothing in front of what it needs, what an entry needs stands before it. -/
lemma idxOf_lt_idxOf {α : Type} [DecidableEq α] {order : List α} {needs : α → α → Prop}
    (horder : order.Pairwise fun x y => ¬ needs x y) {x y : α} (hx : x ∈ order) (hy : y ∈ order)
    (hne : x ≠ y) (h : needs y x) : order.idxOf x < order.idxOf y := by
  have hxlen := List.idxOf_lt_length_iff.2 hx
  have hylen := List.idxOf_lt_length_iff.2 hy
  rcases lt_trichotomy (order.idxOf x) (order.idxOf y) with hlt | heq | hlt
  · exact hlt
  · exact absurd ((List.idxOf_inj hx).1 heq) hne
  · have hnot := List.pairwise_iff_getElem.1 horder _ _ hylen hxlen hlt
    simp only [List.getElem_idxOf] at hnot
    exact absurd h hnot

end Drydock.Digraph
