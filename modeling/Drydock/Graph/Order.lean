import Drydock.Graph.Digraph

/-!
# Placing the nodes of a graph

`Digraph.stableOrder` places nodes one by one, each behind its predecessors.  For every node it
counts the predecessors that are not placed yet, and it keeps the nodes for which none is left in a
heap, the least one on top.  Placing a node lowers the counts of its successors, and a count that
reaches zero puts its node into the heap.

A node that is never ready is never placed, so a graph with a cycle has a shorter order.
-/

namespace Drydock.Digraph

/-- Where the placing of nodes stands: for every node how many of its predecessors wait, and the
nodes that are ready, the least one first. -/
structure Placing where
  counts : List Nat
  ready : List Nat
  deriving DecidableEq, Repr

/-- Puts a node into a heap, which is kept as a rising list. -/
def push (node : Nat) : List Nat → List Nat
  | [] => [node]
  | first :: rest => if node ≤ first then node :: first :: rest else first :: push node rest

namespace Placing

/-- One predecessor less waits for a node, which gets ready when it was the last one.  There is no
result where none waited. -/
def lower (p : Placing) (node : Nat) : Option Placing :=
  match p.counts[node]? with
  | some (count + 1) => some
      { counts := p.counts.set node count
        ready := if count = 0 then push node p.ready else p.ready }
  | _ => none

/-- Lowers the counts of some nodes one by one. -/
def lowerAll (p : Placing) : List Nat → Option Placing
  | [] => some p
  | node :: nodes => (p.lower node).bind fun p => p.lowerAll nodes

/-- How much is left to do: the nodes that wait, and those that are ready. -/
def remaining (p : Placing) : Nat := p.counts.countP (0 < ·) + p.ready.length

theorem length_push (node : Nat) (heap : List Nat) :
    (push node heap).length = heap.length + 1 := by
  fun_induction push node heap <;> simp_all

/-- A node stops waiting when it gets ready. -/
theorem remaining_lower {p p' : Placing} {node : Nat} (h : p.lower node = some p') :
    p'.remaining = p.remaining := by
  unfold lower at h
  split at h
  · rename_i count found
    obtain rfl := Option.some.inj h
    obtain ⟨inside, value⟩ := List.getElem?_eq_some_iff.1 found
    have waits : 0 < p.counts.countP (0 < ·) :=
      List.countP_pos_iff.2 ⟨count + 1, List.mem_of_getElem? found, by simp⟩
    have counts := List.countP_set (p := fun n : Nat => decide (0 < n)) (a := count) inside
    simp only [value, Nat.succ_pos, decide_true, if_true] at counts
    simp only [remaining, counts]
    cases count with
    | zero => simp only [if_true, length_push, Nat.lt_irrefl, decide_false]; simp; omega
    | succ count => simp; omega
  · simp at h

theorem remaining_lowerAll {p p' : Placing} {nodes : List Nat} (h : p.lowerAll nodes = some p') :
    p'.remaining = p.remaining := by
  induction nodes generalizing p with
  | nil =>
      obtain rfl := Option.some.inj h
      rfl
  | cons node nodes ih =>
      obtain ⟨between, hlower, hrest⟩ := Option.bind_eq_some_iff.1 h
      exact (ih hrest).trans (remaining_lower hlower)

end Placing

/-- Places the ready nodes, the least one first, until none is ready. -/
def place (g : Digraph) : Placing → Option (List Nat)
  | ⟨_, []⟩ => some []
  | ⟨counts, node :: ready⟩ =>
      match _lowered : Placing.lowerAll ⟨counts, ready⟩ (g.successors node) with
      | none => none
      | some p => (g.place p).map (node :: ·)
termination_by p => p.remaining
decreasing_by
  rw [Placing.remaining_lowerAll _lowered]
  simp only [Placing.remaining, List.length_cons]
  omega

/-- Before the first node is placed, the nodes without predecessors are ready. -/
def unplaced (g : Digraph) : Placing where
  counts := g.nodes.map fun node => (g.predecessors node).length
  ready := (g.nodes.filter fun node => (g.predecessors node).length = 0).foldr push []

/-- The nodes, each behind its predecessors and otherwise as early as it can be; a node on a cycle
is left out.  There is always a result. -/
def stableOrder (g : Digraph) : Option (List Nat) := g.place g.unplaced

end Drydock.Digraph
