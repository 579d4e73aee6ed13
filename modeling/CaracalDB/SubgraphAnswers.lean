import CaracalDB.SubgraphBounds

/-!
# What a subgraph holds

A search ends. While neither bound is reached it is a search as far as its depth: its nodes are those
within this depth at their least distances, and its edges those that lead on from a node above it.
-/

namespace CaracalDB.BoundedSubgraph

open Database Neighbors Paths Spreading

/-! ## Progress -/

section Progress

variable {edges : List StoredEdge} {direction : String} {seeds : List Int} {search : Search}
  {level fuel : Nat} {state next last : State} {step : EdgeStep}

/-- What one step does to the nodes: nothing, or it adds the one that it leads to. -/
theorem visit_nodes (search : Search) (level : Nat) (state : State) (step : EdgeStep) :
    ((visit search level state step).node_depth = state.node_depth ∧
        (visit search level state step).queue = state.queue) ∨
      (step.next ∉ state.node_depth.keys ∧
        (visit search level state step).node_depth = state.node_depth.set step.next (level + 1) ∧
          (visit search level state step).queue = state.queue ++ [(step.next, level + 1)]) := by
  rw [visit]
  split
  · exact .inl ⟨rfl, rfl⟩
  · rw [accept]
    split
    · next both =>
      rw [record_node_depth] at both
      right
      dsimp only
      rw [record_node_depth, record_queue]
      exact ⟨both.1, rfl, rfl⟩
    · rw [record_node_depth, record_queue]
      exact .inl ⟨rfl, rfl⟩

theorem set_new_entries {dict : Dict Int Nat} {node : Int} (new : node ∉ dict.keys) (depth : Nat) :
    (dict.set node depth).entries = dict.entries ++ [(node, depth)] := if_neg new

theorem keys_length (dict : Dict Int Nat) : dict.keys.length = dict.entries.length :=
  List.length_map _

/-- What the steps from a node do to the nodes: those that are new are kept and queued. -/
theorem visits_nodes (search : Search) (level : Nat) (steps : List EdgeStep) (state : State) :
    ∃ fresh : List EdgeStep, (∀ step ∈ fresh, step ∈ steps) ∧
      (steps.foldl (visit search level) state).node_depth.entries =
        state.node_depth.entries ++ fresh.map (fun step => (step.next, level + 1)) ∧
      (steps.foldl (visit search level) state).queue =
        state.queue ++ fresh.map fun step => (step.next, level + 1) := by
  induction steps generalizing state with
  | nil => exact ⟨[], nofun, (List.append_nil _).symm, (List.append_nil _).symm⟩
  | cons step steps inductionHypothesis =>
    obtain ⟨fresh, given, entries, queue⟩ := inductionHypothesis (visit search level state step)
    rw [List.foldl_cons]
    rcases visit_nodes search level state step with
      ⟨sameNodes, sameQueue⟩ | ⟨new, added, queued⟩
    · rw [sameNodes] at entries
      rw [sameQueue] at queue
      exact ⟨fresh, fun other member => List.mem_cons_of_mem step (given other member),
        entries, queue⟩
    · rw [added, set_new_entries new, List.append_assoc] at entries
      rw [queued, List.append_assoc] at queue
      refine ⟨step :: fresh, ?_, entries, queue⟩
      intro other member
      rcases List.mem_cons.mp member with rfl | later
      · exact List.mem_cons_self
      · exact List.mem_cons_of_mem step (given other later)

theorem visit_rows_length : state.edge_rows.length ≤ (visit search level state step).edge_rows.length := by
  rw [visit]
  split
  · exact Nat.le_refl _
  · rw [accept_edge_rows]
    rcases record_rows search level state step with
      same | more
    · rw [same]
    · rw [more, List.length_append]
      exact Nat.le_add_right _ _

/-- Nodes and edges only grow in number. -/
structure Grown (before after : State) : Prop where
  nodes : before.node_depth.keys.length ≤ after.node_depth.keys.length
  edges : before.edge_rows.length ≤ after.edge_rows.length

theorem Grown.refl (state : State) : Grown state state := ⟨Nat.le_refl _, Nat.le_refl _⟩

theorem Grown.trans {first second third : State} (before : Grown first second)
    (behind : Grown second third) : Grown first third :=
  ⟨Nat.le_trans before.nodes behind.nodes, Nat.le_trans before.edges behind.edges⟩

theorem grown_visits (search : Search) (level : Nat) (steps : List EdgeStep) (state : State) :
    Grown state (steps.foldl (visit search level) state) := by
  constructor
  · obtain ⟨fresh, _, entries, _⟩ := visits_nodes search level steps state
    rw [keys_length, keys_length, entries, List.length_append]
    exact Nat.le_add_right _ _
  · induction steps generalizing state with
    | nil => exact Nat.le_refl _
    | cons step steps inductionHypothesis =>
      exact Nat.le_trans visit_rows_length (inductionHypothesis _)

theorem grown_turn (turned : turn search state = some next) : Grown state next := by
  obtain ⟨current, level, queue, _, _, ⟨_, rfl⟩ | ⟨_, rfl⟩⟩ := turn_cases turned
  · exact ⟨Nat.le_refl _, Nat.le_refl _⟩
  · have grown := grown_visits search level (stepsFrom search.adjacency current) { state with queue }
    exact ⟨grown.nodes, grown.edges⟩

theorem grown_run (ends : searchQueue search fuel state = some last) : Grown state last := by
  induction fuel generalizing state with
  | zero => cases ends
  | succ fuel inductionHypothesis =>
    rw [searchQueue] at ends
    split at ends
    · cases ends
      exact Grown.refl _
    · next turned => exact (grown_turn turned).trans (inductionHypothesis ends)

/-- With enough fuel the search comes to its end. -/
theorem run_ends (reads : ∀ node step, step ∈ stepsFrom search.adjacency node ↔
      step ∈ allowedSteps edges direction node)
    (inside : ∀ node ∈ state.node_depth.keys, node ∈ allNodes edges seeds)
    (enough : state.queue.length + (allNodes edges seeds).length <
      fuel + state.node_depth.keys.length) :
    ∃ last, searchQueue search fuel state = some last := by
  induction fuel generalizing state with
  | zero =>
    have bounded := (List.subperm_of_subset state.node_depth.distinct inside).length_le
    rw [Dict.keys] at enough
    omega
  | succ fuel inductionHypothesis =>
    rw [searchQueue]
    split
    · exact ⟨state, rfl⟩
    · next next turned =>
      obtain ⟨current, level, queue, taken, _, made⟩ := turn_cases turned
      rw [taken, List.length_cons] at enough
      rcases made with ⟨_, rfl⟩ | ⟨_, rfl⟩
      · refine inductionHypothesis inside ?_
        dsimp only
        omega
      · obtain ⟨fresh, given, entries, queued⟩ := visits_nodes search level
          (stepsFrom search.adjacency current) { state with queue }
        refine inductionHypothesis ?_ ?_
        · intro node member
          rw [Dict.keys, entries, List.map_append, List.map_map] at member
          rcases List.mem_append.mp member with before | added
          · exact inside node before
          · obtain ⟨step, isFresh, rfl⟩ := List.mem_map.mp added
            exact adjacent_mem ⟨step, (reads current step).mp (given step isFresh), rfl⟩
        · rw [keys_length] at enough
          rw [queued, keys_length, entries, List.length_append, List.length_append,
            List.length_map]
          dsimp only
          omega

end Progress

/-! ## Below the bounds -/

/-- Neither bound is reached. -/
def Below (search : Search) (state : State) : Prop :=
  state.node_depth.keys.length < search.max_nodes ∧ state.edge_rows.length < search.max_edges

theorem Below.before {search : Search} {before after : State} (below : Below search after)
    (grown : Grown before after) : Below search before :=
  ⟨Nat.lt_of_le_of_lt grown.nodes below.1, Nat.lt_of_le_of_lt grown.edges below.2⟩

/-- Where a search is that has reached no bound. -/
structure Exploring (edges : List StoredEdge) (direction : String) (seeds : List Int)
    (search : Search) (state : State) : Prop where
  spread : Spread (Adjacent edges direction) seeds search.depth state.node_depth.entries state.queue
  led : ∀ key ∈ state.seen_edges, ∃ item ∈ state.node_depth.entries, item.2 < search.depth ∧
    ∃ step ∈ allowedSteps edges direction item.1, edgeKey step = key
  kept : ∀ item ∈ state.node_depth.entries, item.2 < search.depth → item ∈ state.queue ∨
    ∀ step ∈ allowedSteps edges direction item.1, edgeKey step ∈ state.seen_edges

section Exploration

variable {edges : List StoredEdge} {direction : String} {seeds : List Int} {search : Search}
  {level fuel : Nat} {state next last : State} {step : EdgeStep}

theorem record_seen (key : Int × String) : key ∈ (record search level state step).seen_edges ↔
    key = edgeKey step ∨ key ∈ state.seen_edges := by
  rw [record]
  split
  · next seen =>
    constructor
    · exact .inr
    · rintro (rfl | before)
      · exact seen
      · exact before
  · exact List.mem_cons

/-- What the steps from a node do below the bounds. -/
structure Opened (level : Nat) (steps : List EdgeStep) (before after : State)
    (fresh : List EdgeStep) : Prop where
  entries : after.node_depth.entries =
    before.node_depth.entries ++ fresh.map fun step => (step.next, level + 1)
  queue : after.queue = before.queue ++ fresh.map fun step => (step.next, level + 1)
  given : ∀ step ∈ fresh, step ∈ steps
  distinct : (fresh.map EdgeStep.next).Nodup
  new : ∀ step ∈ fresh, step.next ∉ before.node_depth.keys
  all : ∀ step ∈ steps, step.next ∈ before.node_depth.keys ∨ step.next ∈ fresh.map EdgeStep.next
  seen : ∀ key, key ∈ after.seen_edges ↔
    key ∈ before.seen_edges ∨ ∃ step ∈ steps, edgeKey step = key

theorem visits_opened (level : Nat) (steps : List EdgeStep) (before : State)
    (below : Below search (steps.foldl (visit search level) before)) :
    ∃ fresh, Opened level steps before (steps.foldl (visit search level) before) fresh := by
  induction steps generalizing before with
  | nil =>
    refine ⟨[], (List.append_nil _).symm, (List.append_nil _).symm, nofun, List.nodup_nil, nofun,
      nofun, ?_⟩
    intro key
    simp
  | cons step steps inductionHypothesis =>
    have belowBefore : Below search before :=
      below.before (grown_visits search level (step :: steps) before)
    rw [List.foldl_cons] at below ⊢
    obtain ⟨fresh, opened⟩ := inductionHypothesis _ below
    obtain ⟨entries, queue, given, distinct, new, all, seen⟩ := opened
    have isVisit : visit search level before step =
        accept search level (record search level before step) step := visit_below belowBefore.2
    have keyRow : ∀ key, key ∈ (visit search level before step).seen_edges ↔
        key = edgeKey step ∨ key ∈ before.seen_edges := by
      intro key
      rw [isVisit, accept_seen_edges, record_seen]
    have seenAll : ∀ key, key ∈ ((steps.foldl (visit search level)
        (visit search level before step))).seen_edges ↔
          key ∈ before.seen_edges ∨ ∃ other ∈ step :: steps, edgeKey other = key := by
      intro key
      rw [seen, keyRow, List.exists_mem_cons_iff, eq_comm (a := key)]
      tauto
    by_cases known : step.next ∈ before.node_depth.keys
    · have same : (visit search level before step).node_depth = before.node_depth ∧
          (visit search level before step).queue = before.queue := by
        rw [isVisit, accept_known (by rw [record_node_depth]; exact known), record_node_depth,
          record_queue]
        exact ⟨rfl, rfl⟩
      rw [same.1] at entries new all
      rw [same.2] at queue
      refine ⟨fresh, entries, queue, ?_, distinct, new, ?_, seenAll⟩
      · exact fun other member => List.mem_cons_of_mem step (given other member)
      · intro other member
        rcases List.mem_cons.mp member with rfl | later
        · exact .inl known
        · exact all other later
    · have room : before.node_depth.keys.length < search.max_nodes := belowBefore.1
      have added : (visit search level before step).node_depth =
            before.node_depth.set step.next (level + 1) ∧
          (visit search level before step).queue = before.queue ++ [(step.next, level + 1)] := by
        rw [isVisit, accept, if_pos (by rw [record_node_depth]; exact ⟨known, room⟩)]
        dsimp only
        rw [record_node_depth, record_queue]
        exact ⟨rfl, rfl⟩
      have keys : ∀ node, node ∈ (visit search level before step).node_depth.keys ↔
          node = step.next ∨ node ∈ before.node_depth.keys := by
        intro node
        rw [added.1, Dict.mem_keys_set]
      rw [added.1, set_new_entries known, List.append_assoc] at entries
      rw [added.2, List.append_assoc] at queue
      refine ⟨step :: fresh, entries, queue, ?_, ?_, ?_, ?_, seenAll⟩
      · intro other member
        rcases List.mem_cons.mp member with rfl | later
        · exact List.mem_cons_self
        · exact List.mem_cons_of_mem step (given other later)
      · rw [List.map_cons, List.nodup_cons]
        refine ⟨?_, distinct⟩
        intro again
        obtain ⟨other, member, same⟩ := List.mem_map.mp again
        exact new other member ((keys _).mpr (.inl same))
      · intro other member
        rcases List.mem_cons.mp member with rfl | later
        · exact known
        · exact fun before => new other later ((keys _).mpr (.inr before))
      · intro other member
        rw [List.map_cons, List.mem_cons]
        rcases List.mem_cons.mp member with rfl | later
        · exact .inr (.inl rfl)
        · rcases all other later with before | added
          · rcases (keys _).mp before with same | old
            · exact .inr (.inl same)
            · exact .inl old
          · exact .inr (.inr added)

theorem Exploring.deepest {item : Int × Nat} {queue : List (Int × Nat)}
    (exploring : Exploring edges direction seeds search state)
    (taken : state.queue = item :: queue) (bottom : search.depth ≤ item.2) :
    Exploring edges direction seeds search { state with queue } where
  spread := by
    have spread := exploring.spread
    rw [taken] at spread
    exact spread.last bottom
  led := exploring.led
  kept := by
    intro other member above
    rcases exploring.kept other member above with queued | all
    · rw [taken] at queued
      rcases List.mem_cons.mp queued with rfl | later
      · exact absurd above (Nat.not_lt.mpr bottom)
      · exact .inl later
    · exact .inr all

theorem Exploring.turn {current : Int} {queue : List (Int × Nat)}
    (exploring : Exploring edges direction seeds search state)
    (reads : ∀ node step, step ∈ stepsFrom search.adjacency node ↔
      step ∈ allowedSteps edges direction node)
    (taken : state.queue = (current, level) :: queue) (above : level < search.depth)
    (below : Below search ((stepsFrom search.adjacency current).foldl (visit search level)
      { state with queue })) :
    Exploring edges direction seeds search ((stepsFrom search.adjacency current).foldl
      (visit search level) { state with queue }) := by
  obtain ⟨fresh, opened⟩ := visits_opened level _ _ below
  obtain ⟨entries, queued, given, distinct, new, all, seen⟩ := opened
  dsimp only at entries queued new all seen
  have spread := exploring.spread
  rw [taken] at spread
  have here : (current, level) ∈ state.node_depth.entries := spread.queued _ List.mem_cons_self
  refine ⟨?_, ?_, ?_⟩
  · have named : (fresh.map fun step => (step.next, level + 1)) =
        (fresh.map EdgeStep.next).map fun next => (next, level + 1) := by
      rw [List.map_map]
      rfl
    rw [entries, queued, named]
    refine spread.turn above distinct ?_ ?_
    · intro next member
      obtain ⟨step, isFresh, rfl⟩ := List.mem_map.mp member
      exact ⟨⟨step, (reads _ step).mp (given step isFresh), rfl⟩, new step isFresh⟩
    · rintro next ⟨step, isStep, rfl⟩
      exact (all step ((reads _ step).mpr isStep)).symm
  · intro key member
    rw [entries]
    rcases (seen key).mp member with before | ⟨step, isStep, same⟩
    · obtain ⟨item, found, shallow, led⟩ := exploring.led key before
      exact ⟨item, List.mem_append_left _ found, shallow, led⟩
    · exact ⟨_, List.mem_append_left _ here, above, step, (reads _ step).mp isStep, same⟩
  · intro item member shallow
    rw [entries] at member
    rcases List.mem_append.mp member with before | added
    · rcases exploring.kept item before shallow with waiting | keys
      · rw [taken] at waiting
        rcases List.mem_cons.mp waiting with rfl | later
        · right
          intro step isStep
          exact (seen _).mpr (.inr ⟨step, (reads _ step).mpr isStep, rfl⟩)
        · rw [queued]
          exact .inl (List.mem_append_left _ later)
      · right
        intro step isStep
        exact (seen _).mpr (.inl (keys step isStep))
    · rw [queued]
      exact .inl (List.mem_append_right _ added)

/-- A search that reaches no bound goes on until the queue is empty. -/
theorem Exploring.run (exploring : Exploring edges direction seeds search state)
    (reads : ∀ node step, step ∈ stepsFrom search.adjacency node ↔
      step ∈ allowedSteps edges direction node)
    (ends : searchQueue search fuel state = some last) (below : Below search last) :
    last.queue = [] ∧ Exploring edges direction seeds search last := by
  induction fuel generalizing state with
  | zero => cases ends
  | succ fuel inductionHypothesis =>
    rw [searchQueue] at ends
    split at ends
    · next finished =>
      cases ends
      rcases turn_none finished with empty | full
      · exact ⟨empty, exploring⟩
      · exact absurd below.1 (Nat.not_lt.mpr full)
    · next next turned =>
      have belowNext := below.before (grown_run ends)
      refine inductionHypothesis ?_ ends
      obtain ⟨current, level, queue, taken, _, ⟨bottom, rfl⟩ | ⟨above, rfl⟩⟩ := turn_cases turned
      · exact exploring.deepest taken bottom
      · exact exploring.turn reads taken above belowNext

end Exploration

/-! ## The answer -/

/-- A subgraph within its bounds: no node and no edge is listed twice, both ends of every edge are
listed, and below the bounds the nodes are those within the depth, at their least distances, and the
edges those that lead on from a node above it. -/
structure Bounded (edges : List StoredEdge) (direction : String) (seeds : List Int)
    (search : Search) (answer : Subgraph) : Prop where
  nodes_few : answer.nodes.length ≤ search.max_nodes
  nodes_once : (answer.nodes.map NodeRow.internal_id).Nodup
  edges_few : answer.edges.length ≤ search.max_edges
  edges_once : (answer.edges.map rowKey).Nodup
  stored : ∀ row ∈ answer.edges, ∃ edge ∈ edges, row.edge_id = edge.edge_id ∧
    row.edge_type = edge.edge_type ∧ row.src_internal_id = edge.src ∧ row.dst_internal_id = edge.dst
  closed : ∀ row ∈ answer.edges, row.src_internal_id ∈ answer.nodes.map NodeRow.internal_id ∧
    row.dst_internal_id ∈ answer.nodes.map NodeRow.internal_id
  within : answer.nodes.length < search.max_nodes → answer.edges.length < search.max_edges →
    ∀ node level, (∃ row ∈ answer.nodes, row.internal_id = node ∧ row.depth = level) ↔
      level ≤ search.depth ∧ Nearest (Adjacent edges direction) seeds node level
  along : answer.nodes.length < search.max_nodes → answer.edges.length < search.max_edges →
    ∀ key, key ∈ answer.edges.map rowKey ↔ ∃ node level,
      (level < search.depth ∧ Nearest (Adjacent edges direction) seeds node level) ∧
        ∃ step ∈ allowedSteps edges direction node, edgeKey step = key

section Answers

variable {edges : List StoredEdge} {direction : String} {seeds : List Int} {search : Search}
  {state : State} {fuel : Nat}

theorem mem_nodes {node : Int} {level : Nat} :
    (∃ row ∈ (subgraphOf search state).nodes, row.internal_id = node ∧ row.depth = level) ↔
      (node, level) ∈ state.node_depth.entries := by
  constructor
  · rintro ⟨row, member, rfl, rfl⟩
    obtain ⟨item, isItem, rfl⟩ := List.mem_map.mp member
    exact mem_ranked.mp isItem
  · intro member
    exact ⟨_, List.mem_map_of_mem (mem_ranked.mpr member), rfl, rfl⟩

theorem nodes_perm (search : Search) (state : State) :
    ((subgraphOf search state).nodes.map NodeRow.internal_id).Perm state.node_depth.keys := by
  rw [subgraphOf, List.map_map]
  exact (ranked_perm _ state.node_depth.entries).map Prod.fst

theorem nodes_length (search : Search) (state : State) :
    (subgraphOf search state).nodes.length = state.node_depth.keys.length := by
  rw [← (nodes_perm search state).length_eq, List.length_map]

/-- The search begins with each node at the depth zero. -/
theorem mem_begin (item : Int × Nat) :
    item ∈ (begin seeds).node_depth.entries ↔ ∃ start ∈ seeds, (start, 0) = item := by
  rw [begin, Dict.ofEntries, List.foldl_map]
  refine foldl_invariant (fun dict seed => Dict.set dict seed 0)
    (fun done (dict : Dict Int Nat) => ∀ item, item ∈ dict.entries ↔ ∃ start ∈ done, (start, 0) = item)
    (fun done seed dict held item => ?_) seeds Dict.empty ?_ item
  · rw [Dict.mem_set, held]
    constructor
    · rintro (rfl | ⟨_, start, given, same⟩)
      · exact ⟨seed, List.mem_append_right _ List.mem_cons_self, rfl⟩
      · exact ⟨start, List.mem_append_left _ given, same⟩
    · rintro ⟨start, given, rfl⟩
      by_cases same : start = seed
      · exact .inl (by rw [same])
      · rcases List.mem_append.mp given with before | here
        · exact .inr ⟨same, start, before, rfl⟩
        · exact absurd (List.mem_singleton.mp here) same
  · intro item
    constructor
    · intro impossible
      cases impossible
    · rintro ⟨_, impossible, _⟩
      cases impossible

theorem mem_begin_keys (node : Int) : node ∈ (begin seeds).node_depth.keys ↔ node ∈ seeds := by
  rw [Dict.keys, List.mem_map]
  constructor
  · rintro ⟨item, member, rfl⟩
    obtain ⟨start, given, rfl⟩ := (mem_begin item).mp member
    exact given
  · intro given
    exact ⟨(node, 0), (mem_begin _).mpr ⟨node, given, rfl⟩, rfl⟩

theorem begin_length (seeds : List Int) :
    (begin seeds).node_depth.keys.length = seeds.dedup.length := by
  refine ((List.perm_ext_iff_of_nodup (begin seeds).node_depth.distinct seeds.nodup_dedup).mpr
    fun node => ?_).length_eq
  rw [List.mem_dedup]
  exact mem_begin_keys node

theorem Kept.begins : Kept edges search (begin seeds) where
  seen := fun _ => Iff.rfl
  once := List.nodup_nil
  few := Nat.zero_le _
  stored := nofun
  queued := by
    intro item member
    obtain ⟨start, given, rfl⟩ := List.mem_map.mp member
    exact (mem_begin_keys start).mpr given

theorem Exploring.begins : Exploring edges direction seeds search (begin seeds) where
  spread := Spread.begins _ _ (begin seeds).node_depth.distinct mem_begin
  led := nofun
  kept := fun item member _ => .inl (List.mem_map.mpr ((mem_begin item).mp member))

/-- A search answers a subgraph within its bounds exactly when there is room for the nodes it begins
with and for the new nodes of every turn. -/
theorem bounded_iff (distinct : DistinctEdges edges)
    (reads : ∀ node step, step ∈ stepsFrom search.adjacency node ↔
      step ∈ allowedSteps edges direction node)
    (ends : searchQueue search fuel (begin seeds) = some state) :
    Bounded edges direction seeds search (subgraphOf search state) ↔
      seeds.dedup.length ≤ search.max_nodes ∧
        ∀ after, Reached search (begin seeds) after → Fits search after := by
  have kept : Kept edges search state := Kept.begins.run reads ends
  have closedIff : (∀ row ∈ (subgraphOf search state).edges,
      row.src_internal_id ∈ (subgraphOf search state).nodes.map NodeRow.internal_id ∧
        row.dst_internal_id ∈ (subgraphOf search state).nodes.map NodeRow.internal_id) ↔
      Closed state := by
    simp only [(nodes_perm search state).mem_iff]
    rfl
  have run := fun few => run_closed distinct reads ends Kept.begins nofun few
  rw [begin_length] at run
  constructor
  · intro bounded
    have few : seeds.dedup.length ≤ search.max_nodes := by
      have more := (grown_run ends).nodes
      have bound := bounded.nodes_few
      rw [nodes_length] at bound
      rw [begin_length] at more
      exact Nat.le_trans more bound
    exact ⟨few, (run few).2.mp (closedIff.mp bounded.closed)⟩
  · rintro ⟨few, fits⟩
    obtain ⟨fewNodes, closed⟩ := run few
    have explored : (subgraphOf search state).nodes.length < search.max_nodes →
        (subgraphOf search state).edges.length < search.max_edges →
          state.queue = [] ∧ Exploring edges direction seeds search state := by
      intro belowNodes belowEdges
      rw [nodes_length] at belowNodes
      exact Exploring.begins.run reads ends ⟨belowNodes, belowEdges⟩
    refine ⟨?_, ?_, kept.few, kept.once, kept.stored, closedIff.mpr (closed.mpr fits), ?_, ?_⟩
    · rw [nodes_length]
      exact fewNodes
    · exact (nodes_perm search state).nodup_iff.mpr state.node_depth.distinct
    · intro belowNodes belowEdges node level
      obtain ⟨empty, exploring⟩ := explored belowNodes belowEdges
      have spread := exploring.spread
      rw [empty] at spread
      rw [mem_nodes]
      exact spread.complete
    · intro belowNodes belowEdges key
      obtain ⟨empty, exploring⟩ := explored belowNodes belowEdges
      have spread := exploring.spread
      rw [empty] at spread
      have sameKeys := kept.seen key
      constructor
      · intro member
        obtain ⟨item, found, shallow, led⟩ := exploring.led key (sameKeys.mpr member)
        exact ⟨item.1, item.2, ⟨shallow, (spread.complete.mp found).2⟩, led⟩
      · rintro ⟨node, level, ⟨shallow, nearest⟩, step, allowed, rfl⟩
        have found := spread.complete.mpr ⟨Nat.le_of_lt shallow, nearest⟩
        rcases exploring.kept _ found shallow with waiting | keys
        · rw [empty] at waiting
          cases waiting
        · exact sameKeys.mp (keys step allowed)

end Answers

/-! ## Requests -/

section Requests

variable {runtime : Runtime} {db : Database} {pool : BufferPool} {request : Request}
  {seeds : List Int} {search : Search} {edges : List StoredEdge}

theorem adjacency_of_prepare (prepared : prepare runtime db pool request = .ok (seeds, search)) :
    orderedAdjacency runtime db pool request.edge_types request.direction Dict.empty none =
      .ok search.adjacency := by
  obtain ⟨_, _, rest⟩ := except_bind_ok prepared
  obtain ⟨_, _, rest⟩ := except_bind_ok rest
  obtain ⟨_, _, rest⟩ := except_bind_ok rest
  obtain ⟨adjacency, made, same⟩ := except_bind_ok rest
  cases same
  exact made

end Requests

/-! ## Two acquaintances -/

/-- Three persons, one of whom knows both others. -/
def acquaintances : Database :=
  Write.afterAll Runtime.plain
    [.insert_node_table (["ada", "bob", "eve"].map fun name =>
        Dict.ofEntries [("node_id", .str name), ("type", .str "Person")]) "node_id" "type",
      .insert_edge_table (["bob", "eve"].map fun name => Dict.ofEntries [("src", .str "ada"),
        ("dst", .str name), ("type", .str "knows")]) {}]
    (Database.create "graph.crcl")

/-- Whom the first of the persons knows. -/
def acquaintanceRequest (max_nodes : Int) : Request where
  seeds := [.value (.str "ada")]
  depth := 1
  edge_types := ["knows"]
  max_nodes := max_nodes

def acquaintanceSteps : List EdgeStep :=
  [1, 2].map fun node =>
    { edge_id := node - 1, edge_type := "knows", src := 0, dst := node
      properties := Dict.ofEntries [("type", .str "knows")], next := node, direction := "out" }

def acquaintanceEdges : List StoredEdge :=
  [1, 2].map fun node =>
    { edge_id := node - 1, edge_type := "knows", src := 0, dst := node
      properties := Dict.ofEntries [("type", .str "knows")] }

/-- What the search for acquaintances goes by. -/
def acquaintanceSearch (max_nodes : Nat) : Search where
  lookup := Dict.ofEntries (["ada", "bob", "eve"].zipIdx.map fun (name, index) =>
    ((index : Int), { node_id := .str name, node_type := some "Person" }))
  adjacency := Dict.ofEntries [(0, acquaintanceSteps)]
  depth := 1
  max_nodes := max_nodes
  max_edges := 2000

end CaracalDB.BoundedSubgraph
