/-!
# Directed graphs and their cycles

A `Digraph` has numbered nodes and edges in the order in which they were added, none of them twice.
This module finds a cycle where there is one, in three steps.

* `Digraph.finish` — a depth-first walk over all nodes, which lists them by falling finishing time
  or meets a node that is its own successor.
* `Digraph.nodeOnCycle?` — in a graph without cycles that list is a topological order; a node with
  a predecessor further down the list betrays a cycle through that predecessor.
* `Digraph.cycleThrough` — a shortest cycle through a node.  A breadth-first walk inside the strongly
  connected component of the node notes for every node it meets the one from which it came; where it
  closes, these notes are followed back.

Neighbours are visited from the newest edge to the oldest, which fixes the cycle that is reported.
-/

namespace Drydock

/-- Nodes numbered from zero, and edges between them, each from the node that comes first to the one
behind it. -/
structure Digraph where
  size : Nat
  edges : List (Nat × Nat) := []
  deriving DecidableEq, Repr

namespace Digraph

/-- The nodes, in their order. -/
def nodes (g : Digraph) : List Nat := List.range g.size

/-- Adds an edge unless it is there. -/
def updateEdge (g : Digraph) (edge : Nat × Nat) : Digraph :=
  if edge ∈ g.edges then g else { g with edges := g.edges ++ [edge] }

/-- The nodes that an edge leads to from `node`, by the newest edge first. -/
def successors (g : Digraph) (node : Nat) : List Nat :=
  ((g.edges.filter (·.1 = node)).map (·.2)).reverse

/-- The nodes from which an edge leads to `node`, by the newest edge first. -/
def predecessors (g : Digraph) (node : Nat) : List Nat :=
  ((g.edges.filter (·.2 = node)).map (·.1)).reverse

/-! ## Depth-first walk -/

/-- Where a depth-first walk stands: the nodes not met yet, and those done with, the last one
first. -/
structure Walked where
  unmet : List Nat
  finished : List Nat
  deriving Repr

/-- Continues a depth-first walk.  A node that comes to the top of the stack for the first time puts
its unmet successors on the stack; the next time it is finished.  A node that is its own successor
ends the walk. -/
def descend (g : Digraph) (state : Walked) : List Nat → Except Nat Walked
  | [] => .ok state
  | top :: stack =>
      if top ∈ state.unmet then
        if top ∈ g.successors top then .error top
        else
          let unmet := state.unmet.erase top
          let fresh := (g.successors top).filter (· ∈ unmet)
          g.descend { state with unmet } (fresh.reverse ++ top :: stack)
      else if top ∈ state.finished then g.descend state stack
      else g.descend { state with finished := top :: state.finished } stack
termination_by stack => (state.unmet.length, stack.length)
decreasing_by
  · rename_i met _
    have shorter := List.length_erase_of_mem met
    have nonempty := List.length_pos_of_mem met
    exact Prod.Lex.left _ _ (by simp only [shorter]; omega)
  · exact Prod.Lex.right _ (by simp)
  · exact Prod.Lex.right _ (by simp)

/-- Walks from every node that has not been met yet. -/
def finishFrom (g : Digraph) : Walked → List Nat → Except Nat Walked
  | state, [] => .ok state
  | state, node :: nodes => do
      if node ∈ state.unmet then g.finishFrom (← g.descend state [node]) nodes
      else g.finishFrom state nodes

/-- The nodes by falling finishing time, or a node that is its own successor. -/
def finish (g : Digraph) : Except Nat (List Nat) :=
  (g.finishFrom ⟨g.nodes, []⟩ g.nodes).map (·.finished)

/-- The first node of a list that has a predecessor further down; of its predecessors there, the
one with the oldest edge. -/
def backwardEdge? (g : Digraph) : List Nat → Option Nat
  | [] => none
  | node :: later =>
      match (g.predecessors node).reverse.find? (· ∈ later) with
      | some predecessor => some predecessor
      | none => g.backwardEdge? later

/-- A node on a cycle, if there is a cycle. -/
def nodeOnCycle? (g : Digraph) : Option Nat :=
  match g.finish with
  | .error node => some node
  | .ok order => g.backwardEdge? order

/-! ## Strongly connected components -/

/-- The nodes that the nodes of a stack lead to, each of them once, among those not met yet. -/
def collect (g : Digraph) (unmet : List Nat) : List Nat → List Nat
  | [] => []
  | node :: stack =>
      if node ∈ unmet then node :: g.collect (unmet.erase node) (g.successors node ++ stack)
      else g.collect unmet stack
termination_by stack => (unmet.length, stack.length)
decreasing_by
  · rename_i met
    have shorter := List.length_erase_of_mem met
    have nonempty := List.length_pos_of_mem met
    exact Prod.Lex.left _ _ (by omega)
  · exact Prod.Lex.right _ (by simp)

/-- The nodes that a node leads to, itself included. -/
def reached (g : Digraph) (node : Nat) : List Nat := g.collect g.nodes [node]

/-- The strongly connected component of a node: what it leads to and what leads back to it. -/
def component (g : Digraph) (node : Nat) : List Nat :=
  (g.reached node).filter fun other => node ∈ g.reached other

/-! ## Breadth-first walk -/

/-- Where a breadth-first walk stands: for every node met so far the node from which it was met, the
last one first, and the nodes to go on from. -/
structure Trail where
  parents : List (Nat × Nat)
  queue : List Nat
  deriving DecidableEq, Repr

namespace Trail

/-- Whether a node has been met. -/
def isMet (t : Trail) (node : Nat) : Bool := t.parents.any (·.1 = node)

/-- Meets a node from another one. -/
def meet (t : Trail) (node origin : Nat) : Trail where
  parents := (node, origin) :: t.parents
  queue := t.queue ++ [node]

/-- Looks at the successors of `node` one by one and meets those of the component that are new.  The
walk ends, with an error, where one of them is `start`. -/
def scan (start : Nat) (component : List Nat) (node : Nat) : Trail → List Nat → Except Trail Trail
  | t, [] => .ok t
  | t, next :: rest =>
      if next = start then .error t
      else if next ∈ component ∧ t.isMet next = false then
        scan start component node (t.meet next node) rest
      else scan start component node t rest

/-- How much of a component is left to a walk: what is not met and what is in the queue. -/
def remaining (component : List Nat) (t : Trail) : Nat :=
  (component.filter fun node => !t.isMet node).length + t.queue.length

theorem remaining_meet {component : List Nat} {t : Trail} {next : Nat} (node : Nat)
    (member : next ∈ component) (new : t.isMet next = false) :
    (t.meet next node).remaining component ≤ t.remaining component := by
  have unmet : (component.filter fun other => !(t.meet next node).isMet other) =
      (component.filter fun other => !t.isMet other).filter fun other => !decide (next = other) := by
    rw [List.filter_filter]
    refine List.filter_congr fun other _ => ?_
    simp only [isMet, meet, List.any_cons, Bool.not_or]
  have fewer : (component.filter fun other => !(t.meet next node).isMet other).length <
      (component.filter fun other => !t.isMet other).length := by
    rw [unmet]
    exact List.length_filter_lt_length_iff_exists.2
      ⟨next, List.mem_filter.2 ⟨member, by rw [new]; rfl⟩, by simp⟩
  have queue : (t.meet next node).queue.length = t.queue.length + 1 := List.length_append
  simp only [remaining]
  omega

theorem remaining_scan {start node : Nat} {component : List Nat} {t t' : Trail} {next : List Nat}
    (h : scan start component node t next = .ok t') :
    t'.remaining component ≤ t.remaining component := by
  fun_induction scan start component node t next with
  | case1 t => simp_all
  | case2 => simp at h
  | case3 t next rest _ fresh ih =>
      exact Nat.le_trans (ih h) (remaining_meet node fresh.1 fresh.2)
  | case4 _ _ _ _ _ ih => exact ih h

end Trail

/-- Continues a breadth-first walk that looks for a way back to `start`: the node from which an edge
closes it, and the notes made so far. -/
def search (g : Digraph) (start : Nat) (component : List Nat) :
    Trail → Option (Nat × List (Nat × Nat))
  | ⟨_, []⟩ => none
  | ⟨parents, node :: queue⟩ =>
      match _scanned : Trail.scan start component node ⟨parents, queue⟩ (g.successors node) with
      | .error t => some (node, t.parents)
      | .ok t => g.search start component t
termination_by t => t.remaining component
decreasing_by
  refine Nat.lt_of_le_of_lt (Trail.remaining_scan _scanned) ?_
  simp only [Trail.remaining, Trail.isMet, List.length_cons]
  omega

/-- Follows the notes from a node back to `start`, which is left out.  The node from which a node was
met has been met before it, so it is noted further down the list. -/
def backWalk (start : Nat) : List (Nat × Nat) → Nat → List Nat
  | [], _ => []
  | (child, parent) :: earlier, node =>
      if node = start then []
      else if child = node then node :: backWalk start earlier parent
      else backWalk start earlier node

/-- A shortest cycle through `start`, which stands at both ends. -/
def cycleThrough (g : Digraph) (start : Nat) : List Nat :=
  match g.search start (g.component start) ⟨[], [start]⟩ with
  | some (closing, parents) => start :: (backWalk start parents closing).reverse ++ [start]
  | none => [start, start]

/-- A cycle, if there is one; its first node stands at both ends. -/
def cycle? (g : Digraph) : Option (List Nat) := g.nodeOnCycle?.map g.cycleThrough

end Digraph

end Drydock
