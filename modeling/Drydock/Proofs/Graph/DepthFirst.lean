import Drydock.Proofs.Graph.Walks
import Mathlib.Data.List.TakeWhile

/-!
# The depth-first walk finds a cycle wherever there is one

`Digraph.nodeOnCycle?` walks the graph twice: `Digraph.finish` lists the nodes by falling finishing
time, and `Digraph.backwardEdge?` looks for an edge that runs against this list.

The walk is kept honest by one invariant, `DepthInvariant`.  A node is *open* while it is met but
not finished.  Everything on the stack above an open node is reachable from it, and its successors
are met or still above it.  So when a node is finished, each of its successors is finished before it
or leads back to it (`FinishOrder`): an edge that runs against the list lies on a cycle, and without
such an edge the list numbers the nodes so that every edge rises.

The stack may hold a node more than once, since a node is pushed for every predecessor that is met
before it.  Only the topmost place of a node counts, which is why `above` stops at the first one,
and why a node that is taken from the stack again, finished by then, is dropped
(`DepthInvariant.pop`).

A node that is its own successor ends the walk at once, so every finished node is known not to be
one.  Without that clause in the invariant an edge from a node to itself would run against no list.

* `Digraph.onCycle_of_nodeOnCycle?` — the reported node lies on a cycle.
* `Digraph.rank_of_nodeOnCycle?_eq_none` — where none is reported, the nodes can be numbered.
* `Digraph.nodeOnCycle?_eq_none_iff` — none is reported exactly where there is no cycle.
-/

namespace Drydock.Digraph

variable {g : Digraph} {state final : Walked} {stack order : List ℕ} {top node u v : ℕ}

/-! ## What stands above a node on the stack -/

/-- The part of a stack above the topmost place of a node. -/
def above (stack : List ℕ) (node : ℕ) : List ℕ := stack.takeWhile (· ≠ node)

@[simp] lemma above_self : above (node :: stack) node = [] := by simp [above]

lemma above_cons (h : top ≠ node) : above (top :: stack) node = top :: above stack node := by
  simp [above, h]

lemma above_append {fresh : List ℕ} (h : node ∉ fresh) :
    above (fresh ++ stack) node = fresh ++ above stack node :=
  List.takeWhile_append_of_pos fun x hx => by simpa using fun hxn : x = node => h (hxn ▸ hx)

/-! ## Orders of finishing -/

/-- A list of finished nodes, the last one first: no node is its own successor, and every successor
of a node is finished before it or leads back to it. -/
def FinishOrder (g : Digraph) : List ℕ → Prop
  | [] => True
  | u :: earlier =>
      ¬ g.Edge u u ∧ (∀ v, g.Edge u v → v ∈ earlier ∨ g.Reach v u) ∧ FinishOrder g earlier

lemma FinishOrder.not_edge_self (h : FinishOrder g order) (hu : u ∈ order) : ¬ g.Edge u u := by
  induction order with
  | nil => simp at hu
  | cons w earlier ih =>
      rcases List.mem_cons.1 hu with rfl | hu
      · exact h.1
      · exact ih h.2.2 hu

lemma FinishOrder.mem_or_reach (h : FinishOrder g order) (hu : u ∈ order) (huv : g.Edge u v) :
    v ∈ order ∨ g.Reach v u := by
  induction order with
  | nil => simp at hu
  | cons w earlier ih =>
      rcases List.mem_cons.1 hu with rfl | hu
      · exact (h.2.1 v huv).imp_left (List.mem_cons_of_mem _)
      · exact (ih h.2.2 hu).imp_left (List.mem_cons_of_mem _)

/-! ## The invariant of the walk -/

/-- A node that is met but not done with. -/
def Walked.Open (state : Walked) (node : ℕ) : Prop :=
  node ∉ state.unmet ∧ node ∉ state.finished

/-- Where a walk stands, with its stack. -/
structure DepthInvariant (g : Digraph) (state : Walked) (stack : List ℕ) : Prop where
  nodup_unmet : state.unmet.Nodup
  nodup_finished : state.finished.Nodup
  not_mem_unmet : ∀ node ∈ state.finished, node ∉ state.unmet
  finishOrder : FinishOrder g state.finished
  mem_stack : ∀ node ∈ g.nodes, state.Open node → node ∈ stack
  not_edge_self : ∀ node ∈ stack, state.Open node → ¬ g.Edge node node
  reach_above : ∀ node ∈ stack, state.Open node → ∀ x ∈ above stack node, g.Reach node x
  unmet_above : ∀ node ∈ stack, state.Open node →
    ∀ v, g.Edge node v → v ∈ state.unmet → v ∈ above stack node

/-- A node that is met for the first time becomes open, below its unmet successors. -/
lemma DepthInvariant.meet (h : DepthInvariant g state (top :: stack)) (hmet : top ∈ state.unmet)
    (hloop : ¬ g.Edge top top) :
    DepthInvariant g { state with unmet := state.unmet.erase top }
      (((g.successors top).filter (· ∈ state.unmet.erase top)).reverse ++ top :: stack) := by
  set fresh := ((g.successors top).filter (· ∈ state.unmet.erase top)).reverse with hfresh
  have mem_fresh : ∀ x, x ∈ fresh ↔ g.Edge top x ∧ x ∈ state.unmet.erase top := by
    simp [hfresh]
  have mem_erase : ∀ x, x ∈ state.unmet.erase top ↔ x ≠ top ∧ x ∈ state.unmet := fun x =>
    h.nodup_unmet.mem_erase_iff
  -- An open node is `top` itself, or it was open before and stands below `top`.
  have hopen : ∀ node, Walked.Open { state with unmet := state.unmet.erase top } node →
      node ∉ fresh ∧ (node = top ∨ node ≠ top ∧ state.Open node) := by
    rintro node ⟨hunmet, hfinished⟩
    refine ⟨fun hx => hunmet ((mem_fresh node).1 hx).2, ?_⟩
    by_cases htop : node = top
    · exact .inl htop
    · exact .inr ⟨htop, fun hx => hunmet ((mem_erase node).2 ⟨htop, hx⟩), hfinished⟩
  have hbelow : ∀ node ∈ fresh ++ top :: stack, node ∉ fresh → node ∈ top :: stack := by
    intro node hnode hnot
    exact (List.mem_append.1 hnode).resolve_left hnot
  refine ⟨h.nodup_unmet.erase top, h.nodup_finished, ?_, h.finishOrder, ?_, ?_, ?_, ?_⟩
  · intro node hnode hmem
    exact h.not_mem_unmet node hnode ((mem_erase node).1 hmem).2
  · intro node hnode ho
    rcases (hopen node ho).2 with rfl | ⟨_, ho⟩
    · simp
    · exact List.mem_append_right _ (h.mem_stack node hnode ho)
  · intro node hnode ho
    obtain ⟨hnot, rfl | ⟨_, ho⟩⟩ := hopen node ho
    · exact hloop
    · exact h.not_edge_self node (hbelow node hnode hnot) ho
  · intro node hnode ho x hx
    obtain ⟨hnot, rfl | ⟨hne, ho⟩⟩ := hopen node ho
    · rw [above_append hnot, above_self, List.append_nil] at hx
      exact (Reach.refl node).edge ((mem_fresh x).1 hx).1
    · rw [above_append hnot] at hx
      rcases List.mem_append.1 hx with hx | hx
      · have htop : g.Reach node top :=
          h.reach_above node (hbelow node hnode hnot) ho top (by simp [above_cons hne.symm])
        exact htop.edge ((mem_fresh x).1 hx).1
      · exact h.reach_above node (hbelow node hnode hnot) ho x hx
  · intro node hnode ho w hedge hw
    obtain ⟨hnot, rfl | ⟨_, ho⟩⟩ := hopen node ho
    · rw [above_append hnot]
      exact List.mem_append_left _ ((mem_fresh w).2 ⟨hedge, hw⟩)
    · rw [above_append hnot]
      exact List.mem_append_right _
        (h.unmet_above node (hbelow node hnode hnot) ho w hedge ((mem_erase w).1 hw).2)

lemma DepthInvariant.pop (h : DepthInvariant g state (top :: stack))
    (hdone : top ∈ state.finished) : DepthInvariant g state stack := by
  have hne : ∀ node, state.Open node → top ≠ node := by
    rintro node ⟨_, hfinished⟩ rfl
    exact hfinished hdone
  refine ⟨h.nodup_unmet, h.nodup_finished, h.not_mem_unmet, h.finishOrder, ?_, ?_, ?_, ?_⟩
  · intro node hnode ho
    exact (List.mem_cons.1 (h.mem_stack node hnode ho)).resolve_left (hne node ho).symm
  · intro node hnode ho
    exact h.not_edge_self node (List.mem_cons_of_mem _ hnode) ho
  · intro node hnode ho x hx
    refine h.reach_above node (List.mem_cons_of_mem _ hnode) ho x ?_
    rw [above_cons (hne node ho)]
    exact List.mem_cons_of_mem _ hx
  · intro node hnode ho w hedge hw
    have hmem := h.unmet_above node (List.mem_cons_of_mem _ hnode) ho w hedge hw
    rw [above_cons (hne node ho)] at hmem
    refine (List.mem_cons.1 hmem).resolve_left ?_
    rintro rfl
    -- What leaves the stack is finished, and no unmet node is.
    exact h.not_mem_unmet w hdone hw

lemma DepthInvariant.finishTop (hg : g.WellFormed) (h : DepthInvariant g state (top :: stack))
    (hopen : state.Open top) :
    DepthInvariant g { state with finished := top :: state.finished } (top :: stack) := by
  have hloop : ¬ g.Edge top top := h.not_edge_self top (by simp) hopen
  have hleaves : ∀ v, g.Edge top v → v ∈ state.finished ∨ g.Reach v top := by
    intro v hedge
    by_cases hfinished : v ∈ state.finished
    · exact .inl hfinished
    have hmet : v ∉ state.unmet := fun hv => by
      simpa using h.unmet_above top (by simp) hopen v hedge hv
    have hne : top ≠ v := by
      rintro rfl
      exact hloop hedge
    -- Met and not finished, `v` is open and lies below `top`, so it leads up to it.
    have hstack := h.mem_stack v (hg.target_mem hedge) ⟨hmet, hfinished⟩
    exact .inr (h.reach_above v hstack ⟨hmet, hfinished⟩ top (by simp [above_cons hne]))
  have hold : ∀ node, Walked.Open { state with finished := top :: state.finished } node →
      state.Open node := fun node ho => ⟨ho.1, fun hx => ho.2 (List.mem_cons_of_mem _ hx)⟩
  refine ⟨h.nodup_unmet, List.nodup_cons.2 ⟨hopen.2, h.nodup_finished⟩, ?_,
    ⟨hloop, hleaves, h.finishOrder⟩, ?_, ?_, ?_, ?_⟩
  · intro node hnode
    rcases List.mem_cons.1 hnode with rfl | hnode
    · exact hopen.1
    · exact h.not_mem_unmet node hnode
  · exact fun node hnode ho => h.mem_stack node hnode (hold node ho)
  · exact fun node hnode ho => h.not_edge_self node hnode (hold node ho)
  · exact fun node hnode ho => h.reach_above node hnode (hold node ho)
  · exact fun node hnode ho => h.unmet_above node hnode (hold node ho)

/-! ## The walk from one stack -/

lemma edge_self_of_descend (h : g.descend state stack = .error node) : g.Edge node node := by
  fun_induction descend g state stack with
  | case1 => simp at h
  | case2 state top stack _ hloop =>
      simp only [Except.error.injEq] at h
      exact h ▸ mem_successors.1 hloop
  | case3 state top stack _ _ _ _ ih => exact ih h
  | case4 state top stack _ _ ih => exact ih h
  | case5 state top stack _ _ ih => exact ih h

lemma DepthInvariant.descend (hg : g.WellFormed) (h : DepthInvariant g state stack)
    (hrun : g.descend state stack = .ok final) : DepthInvariant g final [] := by
  fun_induction Digraph.descend g state stack with
  | case1 state => simp only [Except.ok.injEq] at hrun; exact hrun ▸ h
  | case2 => simp at hrun
  | case3 state top stack hmet hloop unmet fresh ih =>
      exact ih (h.meet hmet fun hedge => hloop (mem_successors.2 hedge)) hrun
  | case4 state top stack hmet hdone ih => exact ih (h.pop hdone) hrun
  | case5 state top stack hmet hdone ih =>
      exact ih ((h.finishTop hg ⟨hmet, hdone⟩).pop (by simp)) hrun

/-- A walk meets everything on its stack and forgets no node that was met. -/
lemma not_mem_unmet_of_descend (hnodup : state.unmet.Nodup)
    (hrun : g.descend state stack = .ok final) :
    final.unmet ⊆ state.unmet ∧ ∀ node ∈ stack, node ∉ final.unmet := by
  fun_induction Digraph.descend g state stack with
  | case1 state => simp only [Except.ok.injEq] at hrun; simp [hrun]
  | case2 => simp at hrun
  | case3 state top stack hmet hloop unmet fresh ih =>
      obtain ⟨hsub, hall⟩ := ih (hnodup.erase top) hrun
      exact ⟨fun x hx => List.mem_of_mem_erase (hsub hx),
        fun node hnode => hall node (List.mem_append_right _ hnode)⟩
  -- In both cases that drop or finish the top of the stack, it has been met before.
  | case4 state top stack hmet hdone ih =>
      obtain ⟨hsub, hall⟩ := ih hnodup hrun
      refine ⟨hsub, fun node hnode => ?_⟩
      rcases List.mem_cons.1 hnode with rfl | hnode
      · exact fun hx => hmet (hsub hx)
      · exact hall node hnode
  | case5 state top stack hmet hdone ih =>
      obtain ⟨hsub, hall⟩ := ih hnodup hrun
      refine ⟨hsub, fun node hnode => ?_⟩
      rcases List.mem_cons.1 hnode with rfl | hnode
      · exact fun hx => hmet (hsub hx)
      · exact hall node hnode

/-! ## The walk from every node -/

lemma DepthInvariant.start (h : DepthInvariant g state []) (hmet : node ∈ state.unmet) :
    DepthInvariant g state [node] := by
  have hopen : ∀ x ∈ [node], ¬ state.Open x := by
    intro x hx ho
    rw [List.mem_singleton.1 hx] at ho
    exact ho.1 hmet
  refine ⟨h.nodup_unmet, h.nodup_finished, h.not_mem_unmet, h.finishOrder, ?_, ?_, ?_, ?_⟩
  · exact fun x hx ho => absurd (h.mem_stack x hx ho) (by simp)
  · exact fun x hx ho => absurd ho (hopen x hx)
  · exact fun x hx ho => absurd ho (hopen x hx)
  · exact fun x hx ho => absurd ho (hopen x hx)

lemma edge_self_of_finishFrom {nodes : List ℕ}
    (h : g.finishFrom state nodes = .error node) : g.Edge node node := by
  induction nodes generalizing state with
  | nil => simp [finishFrom] at h
  | cons first nodes ih =>
      unfold finishFrom at h
      split at h
      · cases hwalk : g.descend state [first] with
        | error w =>
            rw [hwalk] at h
            have hw : w = node := by simpa [bind, Except.bind] using h
            exact hw ▸ edge_self_of_descend hwalk
        | ok next =>
            rw [hwalk] at h
            exact ih (by simpa [bind, Except.bind] using h)
      · exact ih h

lemma DepthInvariant.finishFrom (hg : g.WellFormed) {nodes : List ℕ}
    (h : DepthInvariant g state []) (hrun : g.finishFrom state nodes = .ok final) :
    DepthInvariant g final [] ∧ final.unmet ⊆ state.unmet ∧ ∀ x ∈ nodes, x ∉ final.unmet := by
  induction nodes generalizing state with
  | nil =>
      simp only [Digraph.finishFrom, Except.ok.injEq] at hrun
      subst hrun
      exact ⟨h, fun _ hx => hx, by simp⟩
  | cons first nodes ih =>
      unfold Digraph.finishFrom at hrun
      split at hrun
      · rename_i hmet
        -- A node that was not met is met by its own walk, and no later walk forgets it.
        cases hwalk : g.descend state [first] with
        | error w => simp [hwalk, bind, Except.bind] at hrun
        | ok next =>
            rw [hwalk] at hrun
            obtain ⟨hsub, hall⟩ := not_mem_unmet_of_descend h.nodup_unmet hwalk
            obtain ⟨hfinal, hsub', hall'⟩ := ih ((h.start hmet).descend hg hwalk)
              (by simpa [bind, Except.bind] using hrun)
            refine ⟨hfinal, fun x hx => hsub (hsub' hx), fun x hx => ?_⟩
            rcases List.mem_cons.1 hx with rfl | hx
            · exact fun hx => hall x (by simp) (hsub' hx)
            · exact hall' x hx
      · rename_i hmet
        obtain ⟨hfinal, hsub, hall⟩ := ih h hrun
        refine ⟨hfinal, hsub, fun x hx => ?_⟩
        rcases List.mem_cons.1 hx with rfl | hx
        · exact fun hx => hmet (hsub hx)
        · exact hall x hx

/-- A whole walk lists every node once, in an order of finishing. -/
lemma finishOrder_of_finish (hg : g.WellFormed) (h : g.finish = .ok order) :
    FinishOrder g order ∧ order.Nodup ∧ ∀ x ∈ g.nodes, x ∈ order := by
  have hstart : DepthInvariant g ⟨g.nodes, []⟩ [] :=
    ⟨g.nodup_nodes, .nil, by simp, trivial, fun x hx ho => absurd hx ho.1, by simp, by simp,
      by simp⟩
  cases hwalk : g.finishFrom ⟨g.nodes, []⟩ g.nodes with
  | error w => simp [finish, hwalk, Except.map] at h
  | ok final =>
      have horder : final.finished = order := by simpa [finish, hwalk, Except.map] using h
      obtain ⟨hfinal, -, hmet⟩ := hstart.finishFrom hg hwalk
      refine ⟨horder ▸ hfinal.finishOrder, horder ▸ hfinal.nodup_finished, fun x hx => ?_⟩
      -- A met node that is not finished would be open, and an open node is on the stack.
      by_contra hnot
      exact absurd (hfinal.mem_stack x hx ⟨hmet x hx, horder ▸ hnot⟩) (by simp)

/-! ## Edges against the order -/

/-- An edge that runs against an order of finishing starts at a node on a cycle. -/
lemma onCycle_of_backwardEdge? (hnodup : order.Nodup) (horder : FinishOrder g order)
    (h : g.backwardEdge? order = some node) : g.OnCycle node := by
  induction order with
  | nil => simp [backwardEdge?] at h
  | cons first later ih =>
      unfold backwardEdge? at h
      split at h
      · rename_i found hfind
        obtain rfl : found = node := by simpa using h
        have hedge : g.Edge found first :=
          mem_predecessors.1 (List.mem_reverse.1 (List.mem_of_find?_eq_some hfind))
        have hlater : found ∈ later := by simpa using List.find?_some hfind
        have hback := (horder.2.2.mem_or_reach hlater hedge).resolve_left
          (List.nodup_cons.1 hnodup).1
        exact .of_edge hedge hback
      · exact ih (List.nodup_cons.1 hnodup).2 horder.2.2 h

/-- Without such an edge, no edge leads from a node to one in front of it. -/
lemma pairwise_of_backwardEdge? (h : g.backwardEdge? order = none) :
    order.Pairwise fun x y => ¬ g.Edge y x := by
  induction order with
  | nil => exact .nil
  | cons first later ih =>
      unfold backwardEdge? at h
      split at h
      · simp at h
      · rename_i hfind
        refine List.pairwise_cons.2 ⟨fun x hx hedge => ?_, ih h⟩
        have hnone := List.find?_eq_none.1 hfind x (by simpa using hedge)
        simp [hx] at hnone

/-! ## The reported node -/

theorem onCycle_of_nodeOnCycle? (hg : g.WellFormed) (h : g.nodeOnCycle? = some node) :
    g.OnCycle node := by
  unfold nodeOnCycle? at h
  cases hfinish : g.finish with
  | error w =>
      obtain rfl : w = node := by simpa [hfinish] using h
      cases hwalk : g.finishFrom ⟨g.nodes, []⟩ g.nodes with
      | error x =>
          obtain rfl : x = w := by simpa [finish, hwalk, Except.map] using hfinish
          exact .of_edge (edge_self_of_finishFrom hwalk) (.refl x)
      | ok final => simp [finish, hwalk, Except.map] at hfinish
  | ok order =>
      obtain ⟨horder, hnodup, -⟩ := finishOrder_of_finish hg hfinish
      exact onCycle_of_backwardEdge? hnodup horder (by simpa [hfinish] using h)

/-- Where no node is reported, the places in the order of finishing number the nodes so that every
edge rises. -/
theorem rank_of_nodeOnCycle?_eq_none (hg : g.WellFormed) (h : g.nodeOnCycle? = none) :
    ∃ rank : ℕ → ℕ, ∀ a b, g.Edge a b → rank a < rank b := by
  unfold nodeOnCycle? at h
  cases hfinish : g.finish with
  | error w => simp [hfinish] at h
  | ok order =>
      obtain ⟨horder, -, hall⟩ := finishOrder_of_finish hg hfinish
      have hnone : g.backwardEdge? order = none := by simpa [hfinish] using h
      have hback := pairwise_of_backwardEdge? hnone
      refine ⟨order.idxOf, fun a b hedge => ?_⟩
      have ha := hall a (hg.source_mem hedge)
      have hne : a ≠ b := by
        rintro rfl
        exact horder.not_edge_self ha hedge
      exact idxOf_lt_idxOf hback ha (hall b (hg.target_mem hedge)) hne hedge

theorem nodeOnCycle?_eq_none_iff (hg : g.WellFormed) :
    g.nodeOnCycle? = none ↔ ∀ node, ¬ g.OnCycle node := by
  constructor
  · intro h
    obtain ⟨rank, hrank⟩ := rank_of_nodeOnCycle?_eq_none hg h
    exact not_onCycle_of_rank rank hrank
  · intro h
    by_contra hsome
    obtain ⟨node, hnode⟩ := Option.ne_none_iff_exists'.1 hsome
    exact h node (onCycle_of_nodeOnCycle? hg hnode)

end Drydock.Digraph
