import Drydock.Proofs.Graph.Ways
import Mathlib.Data.Nat.Find

/-!
# The breadth-first walk finds a shortest cycle

`Digraph.search` keeps nodes in its queue, and for every node that it has met the node from which it
was met.  Followed back, these notes give a way from `start` to each node of the queue, and the
search is the walk of `Digraph.BreadthInvariant` on these ways.

Nodes are noted one by one, and a note never changes the way to another node: the way to a node is
read from its own note down the list, and what is noted later stands above it.  So a step of the
search may be taken as if its nodes were met all at once.  The search stops in the middle of a step
when it comes to `start`; what it has noted by then does not matter for the way that it closes.

* `Digraph.mem_component` — the component of a node is what it leads to and what leads back to it.
* `Digraph.Trail.scan_eq_ok`, `Digraph.Trail.scan_eq_error` — what a look at some successors does.
* `Digraph.TrailInvariant.search` — the search ends with a way that closes a shortest cycle.
* `Digraph.cycleThrough_spec` — what the list of a cycle looks like.
-/

namespace Drydock.Digraph

section Component

variable {g : Digraph} {node x : ℕ} {unmet : List ℕ}

/-! ## Strongly connected components -/

lemma reach_of_mem_collect {stack : List ℕ} (h : x ∈ g.collect unmet stack) :
    ∃ node ∈ stack, g.Reach node x := by
  fun_induction collect g unmet stack with
  | case1 => simp at h
  | case2 unmet node stack hmet ih =>
      rcases List.mem_cons.1 h with rfl | h
      · exact ⟨x, List.mem_cons_self, .refl x⟩
      · obtain ⟨s, hs, hreach⟩ := ih h
        rcases List.mem_append.1 hs with hs | hs
        · obtain ⟨n, hwalk⟩ := hreach
          exact ⟨node, List.mem_cons_self, n + 1, .step (mem_successors.1 hs) hwalk⟩
        · exact ⟨s, List.mem_cons_of_mem _ hs, hreach⟩
  | case3 unmet node stack hmet ih =>
      obtain ⟨s, hs, hreach⟩ := ih h
      exact ⟨s, List.mem_cons_of_mem _ hs, hreach⟩

lemma collect_closed (g : Digraph) (unmet stack : List ℕ) :
    (∀ s ∈ stack, s ∈ unmet → s ∈ g.collect unmet stack) ∧
      ∀ a ∈ g.collect unmet stack, ∀ b, g.Edge a b → b ∈ unmet → b ∈ g.collect unmet stack := by
  fun_induction collect g unmet stack with
  | case1 => simp
  | case2 unmet node stack hmet ih =>
      obtain ⟨hstack, hclosed⟩ := ih
      -- The node itself stands in front, so only other unmet nodes are left to collect.
      have hrest : ∀ b ∈ unmet, (b ≠ node → b ∈ g.collect (unmet.erase node)
          (g.successors node ++ stack)) → b ∈ node :: g.collect (unmet.erase node)
          (g.successors node ++ stack) := by
        intro b _ h
        by_cases hb : b = node
        · exact hb ▸ List.mem_cons_self
        · exact List.mem_cons_of_mem _ (h hb)
      refine ⟨fun s hs hunmet => hrest s hunmet fun hne => ?_, fun a ha b hedge hunmet =>
        hrest b hunmet fun hne => ?_⟩
      · have hs' : s ∈ stack := (List.mem_cons.1 hs).resolve_left hne
        exact hstack s (List.mem_append_right _ hs') ((List.mem_erase_of_ne hne).2 hunmet)
      · have hb := (List.mem_erase_of_ne hne).2 hunmet
        rcases List.mem_cons.1 ha with rfl | ha
        · exact hstack b (List.mem_append_left _ (mem_successors.2 hedge)) hb
        · exact hclosed a ha b hedge hb
  | case3 unmet node stack hmet ih =>
      obtain ⟨hstack, hclosed⟩ := ih
      refine ⟨fun s hs hunmet => ?_, hclosed⟩
      rcases List.mem_cons.1 hs with rfl | hs
      · exact absurd hunmet hmet
      · exact hstack s hs hunmet

lemma mem_reached (hg : g.WellFormed) (hnode : node ∈ g.nodes) :
    x ∈ g.reached node ↔ g.Reach node x := by
  constructor
  · intro h
    obtain ⟨s, hs, hreach⟩ := reach_of_mem_collect h
    rwa [List.mem_singleton.1 hs] at hreach
  · rintro ⟨n, hwalk⟩
    obtain ⟨hstack, hclosed⟩ := collect_closed g g.nodes [node]
    -- What is collected is closed under edges, so it holds the end of every walk.
    have hgo : ∀ {n a b}, g.Walk n a b → a ∈ g.reached node → b ∈ g.reached node := by
      intro n a b hwalk
      induction hwalk with
      | refl => exact id
      | step hedge _ ih => exact fun ha => ih (hclosed _ ha _ hedge (hg.target_mem hedge))
    exact hgo hwalk (hstack node List.mem_cons_self hnode)

lemma mem_component (hg : g.WellFormed) (hnode : node ∈ g.nodes) :
    x ∈ g.component node ↔ g.Reach node x ∧ g.Reach x node := by
  rw [component, List.mem_filter, mem_reached hg hnode, decide_eq_true_eq]
  refine and_congr_right fun hreach => mem_reached hg ?_
  obtain ⟨n, hwalk⟩ := hreach
  induction hwalk with
  | refl => exact hnode
  | step hedge _ ih => exact ih (hg.target_mem hedge)

end Component

/-! ## Ways read off the parents -/

namespace Trail

variable {start node x : ℕ} {region : List ℕ} {t t' : Trail}

/-- The way to a node as the parents tell it, the node first. -/
def way (t : Trail) (start node : ℕ) : List ℕ := backWalk start t.parents node ++ [start]

/-- The ways to the nodes in the queue. -/
def ways (t : Trail) (start : ℕ) : List (List ℕ) := t.queue.map (t.way start)

/-- The nodes of a region that a walk from `start` has not met. -/
def unmet (t : Trail) (start : ℕ) (region : List ℕ) : List ℕ :=
  region.filter fun x => decide (x ≠ start) && !t.isMet x

lemma mem_unmet : x ∈ t.unmet start region ↔ x ∈ region ∧ x ≠ start ∧ t.isMet x = false := by
  simp [unmet]

lemma isMet_meet {origin : ℕ} :
    (t.meet node origin).isMet x = true ↔ node = x ∨ t.isMet x = true := by
  simp [isMet, meet]

lemma way_self (t : Trail) (start : ℕ) : t.way start start = [start] := by
  rw [way]
  cases t.parents with
  | nil => rfl
  | cons note earlier =>
      rw [backWalk, if_pos rfl]
      rfl

lemma way_meet_of_ne {origin : ℕ} (h : node ≠ x) :
    (t.meet node origin).way start x = t.way start x := by
  by_cases hstart : x = start
  · rw [hstart, way_self, way_self]
  · rw [way, meet, backWalk, if_neg hstart, if_neg h]
    rfl

lemma way_meet_self {origin : ℕ} (h : node ≠ start) :
    (t.meet node origin).way start node = node :: t.way start origin := by
  rw [way, meet, backWalk, if_neg h, if_pos rfl]
  rfl

lemma headD_way (h : node = start ∨ t.isMet node = true) :
    (t.way start node).headD start = node := by
  rcases eq_or_ne node start with rfl | hne
  · rw [way_self]
    rfl
  · have hmet := h.resolve_left hne
    rw [isMet] at hmet
    rw [way]
    generalize t.parents = parents at hmet ⊢
    induction parents with
    | nil => simp at hmet
    | cons note earlier ih =>
        obtain ⟨child, parent⟩ := note
        rw [backWalk, if_neg hne]
        by_cases hchild : child = node
        · rw [if_pos hchild]
          rfl
        · rw [if_neg hchild]
          exact ih (by simpa [hchild] using hmet)

/-- Meets some nodes from one. -/
def meetAll (t : Trail) (origin : ℕ) (nodes : List ℕ) : Trail :=
  nodes.foldl (fun t node => t.meet node origin) t

lemma queue_meetAll (origin : ℕ) (nodes : List ℕ) :
    (t.meetAll origin nodes).queue = t.queue ++ nodes := by
  induction nodes generalizing t with
  | nil => exact (List.append_nil _).symm
  | cons node nodes ih =>
      rw [meetAll, List.foldl_cons, ← meetAll, ih, meet, List.append_assoc, List.singleton_append]

lemma isMet_meetAll {origin : ℕ} {nodes : List ℕ} :
    (t.meetAll origin nodes).isMet x = true ↔ x ∈ nodes ∨ t.isMet x = true := by
  induction nodes generalizing t with
  | nil => simp [meetAll]
  | cons node nodes ih =>
      rw [meetAll, List.foldl_cons, ← meetAll, ih, isMet_meet, List.mem_cons, eq_comm]
      tauto

lemma way_meetAll_of_notMem {origin : ℕ} {nodes : List ℕ} (h : x ∉ nodes) :
    (t.meetAll origin nodes).way start x = t.way start x := by
  induction nodes generalizing t with
  | nil => rfl
  | cons node nodes ih =>
      obtain ⟨hne, hrest⟩ := not_or.1 (List.mem_cons.not.1 h)
      rw [meetAll, List.foldl_cons, ← meetAll, ih hrest, way_meet_of_ne (Ne.symm hne)]

lemma way_meetAll {origin : ℕ} {nodes : List ℕ} (hnodup : nodes.Nodup) (hstart : start ∉ nodes)
    (horigin : origin ∉ nodes) (h : x ∈ nodes) :
    (t.meetAll origin nodes).way start x = x :: t.way start origin := by
  induction nodes generalizing t with
  | nil => simp at h
  | cons node nodes ih =>
      obtain ⟨hnode, hnodup⟩ := List.nodup_cons.1 hnodup
      obtain ⟨hne, hstart⟩ := not_or.1 (List.mem_cons.not.1 hstart)
      obtain ⟨hne', horigin⟩ := not_or.1 (List.mem_cons.not.1 horigin)
      rw [meetAll, List.foldl_cons, ← meetAll]
      rcases List.mem_cons.1 h with rfl | h
      · rw [way_meetAll_of_notMem hnode, way_meet_self (Ne.symm hne)]
      · rw [ih hnodup hstart horigin h, way_meet_of_ne (Ne.symm hne')]

/-- Of the nodes unmet before, those stay unmet that are not met now. -/
lemma unmet_meetAll {origin : ℕ} {nodes : List ℕ} :
    (t.meetAll origin (nodes.filter (· ∈ t.unmet start region))).unmet start region =
      without (t.unmet start region) nodes := by
  set fresh := nodes.filter (· ∈ t.unmet start region) with hfresh
  rw [unmet, without, unmet, List.filter_filter]
  refine List.filter_congr fun x hx => ?_
  have hmet : (t.meetAll origin fresh).isMet x = true ↔
      (x ∈ nodes ∧ x ≠ start ∧ t.isMet x = false) ∨ t.isMet x = true := by
    rw [isMet_meetAll, hfresh, List.mem_filter, decide_eq_true_eq, mem_unmet, and_iff_right hx]
  rw [Bool.eq_iff_iff]
  simp only [Bool.and_eq_true, Bool.not_eq_true', decide_eq_true_eq, ← Bool.not_eq_true] at hmet ⊢
  rw [hmet]
  tauto

/-- A look at successors without `start` meets those of the region that are new. -/
lemma scan_eq_ok {next : List ℕ} (hnodup : next.Nodup)
    (h : scan start region node t next = .ok t') :
    start ∉ next ∧ t' = t.meetAll node (next.filter (· ∈ t.unmet start region)) := by
  fun_induction scan start region node t next with
  | case1 t => exact ⟨List.not_mem_nil, (Except.ok.inj h).symm⟩
  | case2 => simp at h
  | case3 t x rest hne hfresh ih =>
      obtain ⟨hx, hnodup⟩ := List.nodup_cons.1 hnodup
      obtain ⟨hstart, rfl⟩ := ih hnodup h
      have hunmet : x ∈ t.unmet start region := mem_unmet.2 ⟨hfresh.1, hne, hfresh.2⟩
      -- Meeting `x` changes nothing for the successors behind it, which are other nodes.
      have hrest : rest.filter (· ∈ (t.meet x node).unmet start region) =
          rest.filter (· ∈ t.unmet start region) := by
        refine List.filter_congr fun y hy => ?_
        have hyx : x ≠ y := fun heq => hx (heq ▸ hy)
        have hmet : (t.meet x node).isMet y = t.isMet y := by
          rw [Bool.eq_iff_iff, isMet_meet]
          simp [hyx]
        simp only [mem_unmet, hmet]
      refine ⟨List.mem_cons.not.2 (not_or.2 ⟨Ne.symm hne, hstart⟩), ?_⟩
      rw [List.filter_cons_of_pos (by simpa using hunmet), hrest]
      rfl
  | case4 t x rest hne hfresh ih =>
      obtain ⟨hx, hnodup⟩ := List.nodup_cons.1 hnodup
      obtain ⟨hstart, rfl⟩ := ih hnodup h
      have hmet : x ∉ t.unmet start region := fun hmem =>
        hfresh ⟨(mem_unmet.1 hmem).1, (mem_unmet.1 hmem).2.2⟩
      refine ⟨List.mem_cons.not.2 (not_or.2 ⟨Ne.symm hne, hstart⟩), ?_⟩
      rw [List.filter_cons_of_neg (by simpa using hmet)]

/-- A look that ends early has found `start`, and has not changed the way to a node met before. -/
lemma scan_eq_error {next : List ℕ} (hnode : x = start ∨ t.isMet x = true)
    (h : scan start region node t next = .error t') :
    start ∈ next ∧ t'.way start x = t.way start x := by
  fun_induction scan start region node t next with
  | case1 => simp at h
  | case2 t rest => exact ⟨List.mem_cons_self, by rw [Except.error.inj h]⟩
  | case3 t y rest hne hfresh ih =>
      obtain ⟨hstart, hway⟩ := ih (hnode.imp_right fun hmet => isMet_meet.2 (.inr hmet)) h
      have hyx : y ≠ x := by
        rintro rfl
        simp [hne, hfresh.2] at hnode
      exact ⟨List.mem_cons_of_mem _ hstart, by rw [hway, way_meet_of_ne hyx]⟩
  | case4 t y rest hne hfresh ih =>
      obtain ⟨hstart, hway⟩ := ih hnode h
      exact ⟨List.mem_cons_of_mem _ hstart, hway⟩

end Trail

/-! ## The search -/

variable {g : Digraph} {start node L : ℕ} {region : List ℕ} {t t' : Trail}

/-- Where the search stands, said about its parents and its queue. -/
structure TrailInvariant (g : Digraph) (start L : ℕ) (region : List ℕ) (t : Trail) : Prop where
  queued : ∀ node ∈ t.queue, node = start ∨ t.isMet node = true
  breadth : BreadthInvariant g start L region (t.unmet start region) (t.ways start)

variable (hregion : ∀ x, g.Reach start x → g.Reach x start → x ∈ region)
  (hmin : ∀ n, g.Walk (n + 1) start start → L ≤ n + 1)

include hregion hmin in
lemma TrailInvariant.advance (hg : g.WellFormed) {parents : List (ℕ × ℕ)} {rest : List ℕ}
    (h : TrailInvariant g start L region ⟨parents, node :: rest⟩)
    (hscan : Trail.scan start region node ⟨parents, rest⟩ (g.successors node) = .ok t') :
    TrailInvariant g start L region t' := by
  set t : Trail := ⟨parents, rest⟩ with ht
  obtain ⟨hopen, rfl⟩ := Trail.scan_eq_ok (hg.nodup_successors node) hscan
  set fresh := (g.successors node).filter (· ∈ t.unmet start region) with hfresh
  have hnode : node = start ∨ t.isMet node = true := h.queued node List.mem_cons_self
  have hold : ∀ x, x = start ∨ t.isMet x = true → x ∉ fresh := by
    intro x hx hxfresh
    have hunmet : x ∈ t.unmet start region := by simpa using (List.mem_filter.1 hxfresh).2
    obtain ⟨-, hne, hnew⟩ := Trail.mem_unmet.1 hunmet
    simp [hne, hnew] at hx
  -- On ways, the step is one along the way to the node that is taken.
  have hhead : (t.way start node).headD start = node := Trail.headD_way hnode
  have hstep : BreadthInvariant g start L region
      (without (t.unmet start region) (g.successors ((t.way start node).headD start)))
      (t.ways start ++ g.continuations start (t.unmet start region) (t.way start node)) :=
    h.breadth.advance hregion hmin fun hedge => hopen (mem_successors.2 (hhead ▸ hedge))
  have hways : (t.meetAll node fresh).ways start =
      t.ways start ++ g.continuations start (t.unmet start region) (t.way start node) := by
    rw [Trail.ways, Trail.queue_meetAll, List.map_append, continuations, hhead]
    congr 1
    · exact List.map_congr_left fun x hx => Trail.way_meetAll_of_notMem
        (hold x (h.queued x (List.mem_cons_of_mem _ hx)))
    · exact List.map_congr_left fun x hx => Trail.way_meetAll ((hg.nodup_successors node).filter _)
        (hold start (.inl rfl)) (hold node hnode) hx
  refine ⟨fun x hx => ?_, ?_⟩
  · rw [Trail.queue_meetAll] at hx
    rw [Trail.isMet_meetAll]
    rcases List.mem_append.1 hx with hx | hx
    · exact (h.queued x (List.mem_cons_of_mem _ hx)).imp_right .inr
    · exact .inr (.inl hx)
  · rw [hhead] at hstep
    rw [hways, Trail.unmet_meetAll]
    exact hstep

include hregion hmin in
/-- A search that stands well ends with a node that closes its way, which has no more than `L`
nodes. -/
lemma TrailInvariant.search (hg : g.WellFormed) (h : TrailInvariant g start L region t) :
    ∃ (node : ℕ) (final : Trail), g.search start region t = some (node, final.parents) ∧
      g.Edge node start ∧ (final.way start node).headD start = node ∧
      (final.way start node).length ≤ L ∧ ∃ unmet, IsWay g start unmet (final.way start node) := by
  fun_induction Digraph.search g start region t with
  | case1 parents =>
      obtain ⟨w, hw, -⟩ := h.breadth.completes
      simp [Trail.ways] at hw
  | case2 parents node queue t' hscan =>
      have hnode : node = start ∨ Trail.isMet ⟨parents, queue⟩ node = true :=
        h.queued node List.mem_cons_self
      obtain ⟨hclose, hway⟩ := Trail.scan_eq_error hnode hscan
      -- The queue is sorted, so no way is shorter than the one that closes.
      obtain ⟨w, hw, n, -, hle⟩ := h.breadth.completes
      have hfirst : (Trail.way ⟨parents, queue⟩ start node).length ≤ w.length := by
        rcases List.mem_cons.1 hw with rfl | hw
        · exact le_rfl
        · exact (List.pairwise_cons.1 h.breadth.sorted).1 w hw
      refine ⟨node, t', rfl, mem_successors.1 hclose, ?_, ?_,
        Trail.unmet ⟨parents, queue⟩ start region, ?_⟩
      · rw [hway]
        exact Trail.headD_way hnode
      · rw [hway]
        omega
      · rw [hway]
        exact h.breadth.ways (Trail.way ⟨parents, queue⟩ start node) List.mem_cons_self
  | case3 parents node queue t' hscan ih => exact ih (h.advance hregion hmin hg hscan)

/-! ## The cycle through a node -/

/-- The list of a cycle through a node on one: it starts and ends at the node, meets no other node
twice, follows edges, and no closed chain of edges through the node is shorter. -/
theorem cycleThrough_spec (hg : g.WellFormed) (h : g.OnCycle start) :
    2 ≤ (g.cycleThrough start).length ∧ (g.cycleThrough start).head? = some start ∧
      (g.cycleThrough start).getLast? = some start ∧ (g.cycleThrough start).dropLast.Nodup ∧
      (g.cycleThrough start).IsChain g.Edge ∧
      ∀ chain : List ℕ, chain.IsChain g.Edge → chain.head? = chain.getLast? →
        2 ≤ chain.length → start ∈ chain → (g.cycleThrough start).length ≤ chain.length := by
  classical
  -- The bound is the length of a shortest closed walk, which the search never sees.
  have hmin : ∀ n, g.Walk (n + 1) start start → Nat.find h + 1 ≤ n + 1 := fun n hn =>
    Nat.succ_le_succ (Nat.find_min' h hn)
  have hnode : start ∈ g.nodes := by
    obtain ⟨n, hn⟩ := h
    obtain ⟨b, hedge, -⟩ := walk_succ hn
    exact hg.source_mem hedge
  have hregion : ∀ x, g.Reach start x → g.Reach x start → x ∈ g.component start :=
    fun x hout hback => (mem_component hg hnode).2 ⟨hout, hback⟩
  have hstart : TrailInvariant g start (Nat.find h + 1) (g.component start) ⟨[], [start]⟩ := by
    refine ⟨fun x hx => .inl (List.mem_singleton.1 hx), ?_, by simp [Trail.ways], by
      simp [Trail.ways], fun x hx hmet => ?_, ?_⟩
    · intro way hway
      rw [List.mem_singleton.1 hway, Trail.way_self]
      exact ⟨rfl, .singleton start, by simp, by simp [Trail.mem_unmet]⟩
    · have hsame : x = start := by simpa [Trail.mem_unmet, hx, Trail.isMet] using hmet
      exact .inl ⟨[start], List.mem_singleton.2 (Trail.way_self _ _).symm, hsame.symm⟩
    · exact ⟨[start], List.mem_singleton.2 (Trail.way_self _ _).symm, Nat.find h,
        Nat.find_spec h, by simp; omega⟩
  obtain ⟨node, final, hfound, hclose, hend, hlen, unmet, hway⟩ :=
    hstart.search hregion hmin hg
  set way := final.way start node with hdef
  -- The list is the way that was found, read forwards and closed.
  have hcycle : g.cycleThrough start = way.reverse ++ [start] := by
    rw [cycleThrough, hfound, hdef, Trail.way, List.reverse_append]
    rfl
  have hpos := hway.length_pos
  rw [hcycle]
  refine ⟨by simp; omega, ?_, by simp, by simpa using hway.nodup, ?_, ?_⟩
  · simp [List.head?_append, hway.starts]
  · refine List.isChain_append.2 ⟨List.isChain_reverse.2 hway.chain, .singleton start, ?_⟩
    intro x hx y hy
    rw [List.getLast?_reverse, hway.head?_eq, hend] at hx
    obtain rfl := Option.some.inj hx
    obtain rfl := Option.some.inj hy
    exact hclose
  · intro chain hchain' hclosed htwo hmem
    obtain ⟨n, hn, hwalk⟩ := closedWalk_of_isChain hchain' hclosed htwo hmem
    have := hmin n hwalk
    simp
    omega

end Drydock.Digraph
