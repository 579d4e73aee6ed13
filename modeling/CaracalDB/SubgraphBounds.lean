import CaracalDB.BoundedSubgraph
import CaracalDB.KeyTypes
import Mathlib.Data.Finset.Card
import Mathlib.Data.Finset.Dedup
import Mathlib.Data.Finset.Lattice.Lemmas
import Mathlib.Logic.Relation

/-!
# The bounds of a subgraph

The edges of a subgraph are never more than its bound. Its nodes are no more than theirs, and both
ends of every edge are among them, as long as there is room for the nodes that the search starts
from and, in every turn, for the new nodes that the edges of a node lead to: an edge is kept before
it is known whether there is room for its node.
-/

namespace CaracalDB.BoundedSubgraph

open Database Neighbors Paths Spreading

/-! ## One step -/

/-- What a step along an edge has of it. -/
structure StepOf (edge : StoredEdge) (current : Int) (step : EdgeStep) : Prop where
  edge_id : step.edge_id = edge.edge_id
  edge_type : step.edge_type = edge.edge_type
  src : step.src = edge.src
  dst : step.dst = edge.dst
  ends : (step.src = current ∧ step.dst = step.next) ∨ (step.dst = current ∧ step.src = step.next)

theorem stepOf_allowed {edges : List StoredEdge} {direction : String} {current : Int}
    {step : EdgeStep} (allowed : step ∈ allowedSteps edges direction current) :
    ∃ edge ∈ edges, StepOf edge current step := by
  obtain ⟨pair, member, rfl⟩ := List.mem_map.mp allowed
  obtain ⟨isPair, from_current⟩ := List.mem_filter.mp member
  rw [decide_eq_true_eq] at from_current
  obtain ⟨edge, stored, isStep⟩ := List.mem_flatMap.mp isPair
  refine ⟨edge, stored, ?_⟩
  rcases List.mem_append.mp isStep with out | back
  · split at out
    · rw [List.mem_singleton] at out
      subst out
      exact ⟨rfl, rfl, rfl, rfl, .inl ⟨from_current, rfl⟩⟩
    · cases out
  · split at back
    · rw [List.mem_singleton] at back
      subst back
      exact ⟨rfl, rfl, rfl, rfl, .inr ⟨from_current, rfl⟩⟩
    · cases back

def rowKey (row : EdgeRow) : Int × String := (row.edge_id, row.edge_type)

section Steps

variable {search : Search} {level : Nat} {state : State} {step : EdgeStep}

@[simp] theorem record_node_depth : (record search level state step).node_depth = state.node_depth := by
  rw [record]
  split <;> rfl

@[simp] theorem record_queue : (record search level state step).queue = state.queue := by
  rw [record]
  split <;> rfl

@[simp] theorem accept_edge_rows : (accept search level state step).edge_rows = state.edge_rows := by
  rw [accept]
  split <;> rfl

@[simp] theorem accept_seen_edges :
    (accept search level state step).seen_edges = state.seen_edges := by
  rw [accept]
  split <;> rfl

theorem record_rows (search : Search) (level : Nat) (state : State) (step : EdgeStep) :
    (record search level state step).edge_rows = state.edge_rows ∨
    (record search level state step).edge_rows =
      state.edge_rows ++ [kHopEdgeRow search.lookup step (level + 1)] := by
  rw [record]
  split
  · exact .inl rfl
  · exact .inr rfl

theorem record_new (new : edgeKey step ∉ state.seen_edges) :
    (record search level state step).edge_rows =
      state.edge_rows ++ [kHopEdgeRow search.lookup step (level + 1)] := by
  rw [record, if_neg new]

theorem visit_below (below : state.edge_rows.length < search.max_edges) :
    visit search level state step = accept search level (record search level state step) step :=
  if_neg (Nat.not_le.mpr below)

theorem visit_capped (capped : search.max_edges ≤ state.edge_rows.length) :
    visit search level state step = state := if_pos capped

/-- A node that is known is not kept again. -/
theorem accept_known (known : step.next ∈ state.node_depth.keys) :
    accept search level state step = state :=
  if_neg fun both => both.1 known

theorem accept_full (full : search.max_nodes ≤ state.node_depth.keys.length) :
    accept search level state step = state :=
  if_neg fun both => Nat.not_le.mpr both.2 full

theorem accept_keys (new : step.next ∉ state.node_depth.keys)
    (room : state.node_depth.keys.length < search.max_nodes) :
    (accept search level state step).node_depth.keys = state.node_depth.keys ++ [step.next] := by
  rw [accept, if_pos ⟨new, room⟩]
  dsimp only
  rw [Dict.keys_set, if_neg new]

/-- A row that is kept stays. -/
theorem mem_visit {row : EdgeRow} (member : row ∈ state.edge_rows) :
    row ∈ (visit search level state step).edge_rows := by
  rw [visit]
  split
  · exact member
  · rw [accept_edge_rows]
    rcases record_rows search level state step with
      same | more
    · rw [same]
      exact member
    · rw [more]
      exact List.mem_append_left _ member

theorem visits_rows {row : EdgeRow} (steps : List EdgeStep) (member : row ∈ state.edge_rows) :
    row ∈ (steps.foldl (visit search level) state).edge_rows := by
  induction steps generalizing state with
  | nil => exact member
  | cons step steps inductionHypothesis => exact inductionHypothesis (mem_visit member)

theorem visits_capped (steps : List EdgeStep) (capped : search.max_edges ≤ state.edge_rows.length) :
    steps.foldl (visit search level) state = state := by
  induction steps with
  | nil => rfl
  | cons step steps inductionHypothesis =>
    rw [List.foldl_cons, visit_capped capped]
    exact inductionHypothesis

/-- Once there are enough nodes no other one is kept. -/
theorem visits_full (steps : List EdgeStep)
    (full : search.max_nodes ≤ state.node_depth.keys.length) :
    (steps.foldl (visit search level) state).node_depth = state.node_depth := by
  induction steps generalizing state with
  | nil => rfl
  | cons step steps inductionHypothesis =>
    have same : (visit search level state step).node_depth = state.node_depth := by
      rw [visit]
      split
      · rfl
      · rw [accept_full (by rw [record_node_depth]; exact full), record_node_depth]
    rw [List.foldl_cons, inductionHypothesis (by rw [same]; exact full), same]

end Steps

/-! ## What a search keeps -/

/-- What the rows of edges are at any time: edges that are stored, each once and no more than asked
for. The nodes in the queue are kept. -/
structure Kept (edges : List StoredEdge) (search : Search) (state : State) : Prop where
  seen : ∀ key, key ∈ state.seen_edges ↔ key ∈ state.edge_rows.map rowKey
  once : (state.edge_rows.map rowKey).Nodup
  few : state.edge_rows.length ≤ search.max_edges
  stored : ∀ row ∈ state.edge_rows, ∃ edge ∈ edges, row.edge_id = edge.edge_id ∧
    row.edge_type = edge.edge_type ∧ row.src_internal_id = edge.src ∧ row.dst_internal_id = edge.dst
  queued : ∀ item ∈ state.queue, item.1 ∈ state.node_depth.keys

/-- Both ends of every edge are kept. -/
def Closed (state : State) : Prop :=
  ∀ row ∈ state.edge_rows, row.src_internal_id ∈ state.node_depth.keys ∧
    row.dst_internal_id ∈ state.node_depth.keys

section Keeping

variable {edges : List StoredEdge} {direction : String} {search : Search} {level : Nat}
  {state : State} {current : Int} {step : EdgeStep}

theorem Kept.record (kept : Kept edges search state)
    (below : state.edge_rows.length < search.max_edges)
    (allowed : step ∈ allowedSteps edges direction current) :
    Kept edges search (record search level state step) := by
  rw [BoundedSubgraph.record]
  split
  · exact kept
  · next new =>
    obtain ⟨edge, stored, along⟩ := stepOf_allowed allowed
    refine ⟨?_, ?_, ?_, ?_, kept.queued⟩
    · intro key
      rw [List.mem_cons, kept.seen, List.map_append, List.mem_append, or_comm]
      exact or_congr Iff.rfl List.mem_singleton.symm
    · rw [List.map_append, List.nodup_append]
      refine ⟨kept.once, List.nodup_singleton _, ?_⟩
      intro key member other isNew same
      rw [same, List.mem_singleton.mp isNew] at member
      exact new ((kept.seen _).mpr member)
    · rw [List.length_append]
      exact below
    · intro row member
      rcases List.mem_append.mp member with before | added
      · exact kept.stored row before
      · rw [List.mem_singleton.mp added]
        exact ⟨edge, stored, along.edge_id, along.edge_type, along.src, along.dst⟩

theorem Kept.accept (kept : Kept edges search state) :
    Kept edges search (accept search level state step) := by
  rw [BoundedSubgraph.accept]
  split
  · refine ⟨kept.seen, kept.once, kept.few, kept.stored, ?_⟩
    intro item member
    rw [Dict.mem_keys_set]
    rcases List.mem_append.mp member with before | added
    · exact .inr (kept.queued item before)
    · rw [List.mem_singleton.mp added]
      exact .inl rfl
  · exact kept

theorem Kept.visit (kept : Kept edges search state)
    (allowed : step ∈ allowedSteps edges direction current) :
    Kept edges search (visit search level state step) := by
  rw [BoundedSubgraph.visit]
  split
  · exact kept
  · next below => exact (kept.record (Nat.not_le.mp below) allowed).accept

theorem Kept.visits (kept : Kept edges search state) {steps : List EdgeStep}
    (allowed : ∀ step ∈ steps, step ∈ allowedSteps edges direction current) :
    Kept edges search (steps.foldl (BoundedSubgraph.visit search level) state) := by
  induction steps generalizing state with
  | nil => exact kept
  | cons step steps inductionHypothesis =>
    exact inductionHypothesis (kept.visit (allowed step List.mem_cons_self))
      fun other later => allowed other (List.mem_cons_of_mem step later)

/-! ## Room for the nodes -/

/-- The steps that are gone along when there is room for some more edges. -/
def goneAlong : Nat → List (Int × String) → List EdgeStep → List EdgeStep
  | _, _, [] => []
  | room, seen, step :: steps =>
      if room = 0 then []
      else step :: if edgeKey step ∈ seen then goneAlong room seen steps
        else goneAlong (room - 1) (edgeKey step :: seen) steps

/-- The nodes that are kept once a node is taken from the queue, if there is room for them: those
kept before, and those that the steps lead to. -/
def nodesWith (search : Search) (state : State) (steps : List EdgeStep) : Finset Int :=
  (state.node_depth.keys ++
    (goneAlong (search.max_edges - state.edge_rows.length) state.seen_edges steps).map
      EdgeStep.next).toFinset

/-- In the next turn there is room for all new nodes. -/
def Fits (search : Search) (state : State) : Prop :=
  ∀ current level queue, state.queue = (current, level) :: queue → level < search.depth →
    state.node_depth.keys.length < search.max_nodes →
      (nodesWith search state (stepsFrom search.adjacency current)).card ≤ search.max_nodes

theorem goneAlong_cons (level : Nat) (below : state.edge_rows.length < search.max_edges)
    (step : EdgeStep) (steps : List EdgeStep) :
    goneAlong (search.max_edges - state.edge_rows.length) state.seen_edges (step :: steps) =
      step :: goneAlong (search.max_edges - (record search level state step).edge_rows.length)
        (record search level state step).seen_edges steps := by
  rw [goneAlong, if_neg (by omega), BoundedSubgraph.record]
  split
  · rfl
  · rw [List.length_append, List.length_singleton, Nat.sub_sub]

/-- The ends of an edge that is kept are the node and the one that the step leads to. -/
theorem closed_record {after : State} (closed : Closed state)
    (rows : after.edge_rows = (record search level state step).edge_rows)
    (more : ∀ node ∈ state.node_depth.keys, node ∈ after.node_depth.keys)
    (known : current ∈ state.node_depth.keys) (next : step.next ∈ after.node_depth.keys)
    (allowed : step ∈ allowedSteps edges direction current) : Closed after := by
  obtain ⟨edge, _, along⟩ := stepOf_allowed allowed
  have before : ∀ row ∈ state.edge_rows, row.src_internal_id ∈ after.node_depth.keys ∧
      row.dst_internal_id ∈ after.node_depth.keys :=
    fun row member => ⟨more _ (closed row member).1, more _ (closed row member).2⟩
  intro row member
  rw [rows] at member
  rcases record_rows search level state step with
    same | grown
  · rw [same] at member
    exact before row member
  · rw [grown] at member
    rcases List.mem_append.mp member with old | added
    · exact before row old
    · rw [List.mem_singleton.mp added]
      dsimp only [kHopEdgeRow]
      rcases along.ends with ⟨src, dst⟩ | ⟨dst, src⟩
      · rw [src, dst]
        exact ⟨more _ known, next⟩
      · rw [src, dst]
        exact ⟨next, more _ known⟩

/-- An edge to a node that is not kept is not kept either. -/
theorem new_edge (distinct : DistinctEdges edges) (kept : Kept edges search state)
    (closed : Closed state) (allowed : step ∈ allowedSteps edges direction current)
    (new : step.next ∉ state.node_depth.keys) : edgeKey step ∉ state.seen_edges := by
  intro seen
  obtain ⟨row, member, same⟩ := List.mem_map.mp ((kept.seen _).mp seen)
  obtain ⟨edge, stored, along⟩ := stepOf_allowed allowed
  obtain ⟨other, isOther, edge_id, edge_type, src, dst⟩ := kept.stored row member
  have one : other = edge := by
    refine List.inj_on_of_nodup_map distinct isOther stored ?_
    have ids := congrArg Prod.fst same
    have types := congrArg Prod.snd same
    exact Prod.ext (edge_type.symm.trans (types.trans along.edge_type))
      (edge_id.symm.trans (ids.trans along.edge_id))
  obtain ⟨srcKnown, dstKnown⟩ := closed row member
  rw [src, one, ← along.src] at srcKnown
  rw [dst, one, ← along.dst] at dstKnown
  rcases along.ends with ⟨_, isNext⟩ | ⟨_, isNext⟩
  · exact new (isNext ▸ dstKnown)
  · exact new (isNext ▸ srcKnown)

/-- Behind the steps from a node either all new nodes had room, and both ends of every edge are kept,
or there are enough nodes and an edge has an end that is not kept. -/
theorem visits_closed (distinct : DistinctEdges edges) (level : Nat) (steps : List EdgeStep)
    (allowed : ∀ step ∈ steps, step ∈ allowedSteps edges direction current)
    (kept : Kept edges search state) (closed : Closed state)
    (known : current ∈ state.node_depth.keys)
    (few : state.node_depth.keys.length ≤ search.max_nodes) :
    ((nodesWith search state steps).card ≤ search.max_nodes ∧
        Closed (steps.foldl (visit search level) state) ∧
          (steps.foldl (visit search level) state).node_depth.keys.length ≤ search.max_nodes) ∨
      (¬ (nodesWith search state steps).card ≤ search.max_nodes ∧
        ¬ Closed (steps.foldl (visit search level) state) ∧
          (steps.foldl (visit search level) state).node_depth.keys.length = search.max_nodes) := by
  have alone : ∀ state : State, state.node_depth.keys.toFinset.card = state.node_depth.keys.length :=
    fun state => List.toFinset_card_of_nodup state.node_depth.distinct
  induction steps generalizing state with
  | nil =>
    left
    rw [nodesWith, goneAlong, List.map_nil, List.append_nil, alone]
    exact ⟨few, closed, few⟩
  | cons step steps inductionHypothesis =>
    have stepAllowed := allowed step List.mem_cons_self
    have later : ∀ other ∈ steps, other ∈ allowedSteps edges direction current :=
      fun other member => allowed other (List.mem_cons_of_mem step member)
    by_cases capped : search.max_edges ≤ state.edge_rows.length
    · left
      rw [visits_capped _ capped, nodesWith, goneAlong, if_pos (by omega), List.map_nil,
        List.append_nil, alone]
      exact ⟨few, closed, few⟩
    · have below := Nat.lt_of_not_le capped
      have recorded : Kept edges search (record search level state step) :=
        kept.record below stepAllowed
      have sameKeys : (record search level state step).node_depth.keys = state.node_depth.keys := by
        rw [record_node_depth]
      rw [List.foldl_cons, visit_below below, nodesWith, goneAlong_cons level below,
        List.map_cons]
      by_cases isKnown : step.next ∈ state.node_depth.keys
      · rw [accept_known (by rw [sameKeys]; exact isKnown)]
        have same : (state.node_depth.keys ++ step.next :: (goneAlong
            (search.max_edges - (record search level state step).edge_rows.length)
            (record search level state step).seen_edges steps).map EdgeStep.next).toFinset =
            nodesWith search (record search level state step) steps := by
          rw [nodesWith, sameKeys]
          ext node
          simp only [List.mem_toFinset, List.mem_append, List.mem_cons]
          constructor
          · rintro (before | rfl | after)
            · exact .inl before
            · exact .inl isKnown
            · exact .inr after
          · rintro (before | after)
            · exact .inl before
            · exact .inr (.inr after)
        rw [same]
        refine inductionHypothesis later recorded ?_ (sameKeys ▸ known) (sameKeys ▸ few)
        refine closed_record closed rfl ?_ known (sameKeys ▸ isKnown) stepAllowed
        rw [sameKeys]
        exact fun node member => member
      · by_cases room : state.node_depth.keys.length < search.max_nodes
        · have keys : (accept search level (record search level state step) step).node_depth.keys =
              state.node_depth.keys ++ [step.next] := by
            rw [accept_keys (by rw [sameKeys]; exact isKnown) (by rw [sameKeys]; exact room),
              sameKeys]
          have same : (state.node_depth.keys ++ step.next :: (goneAlong
              (search.max_edges - (record search level state step).edge_rows.length)
              (record search level state step).seen_edges steps).map EdgeStep.next).toFinset =
              nodesWith search (accept search level (record search level state step) step) steps := by
            rw [nodesWith, keys, accept_edge_rows, accept_seen_edges, List.append_assoc]
            rfl
          rw [same]
          refine inductionHypothesis later recorded.accept ?_ ?_ ?_
          · refine closed_record closed accept_edge_rows ?_ known ?_ stepAllowed
            · rw [keys]
              exact fun node member => List.mem_append_left _ member
            · rw [keys]
              exact List.mem_append_right _ List.mem_cons_self
          · rw [keys]
            exact List.mem_append_left _ known
          · rw [keys, List.length_append]
            exact room
        · right
          have full : search.max_nodes ≤ (record search level state step).node_depth.keys.length := by
            rw [sameKeys]
            exact Nat.not_lt.mp room
          rw [accept_full full, visits_full steps full, sameKeys]
          refine ⟨?_, ?_, by omega⟩
          · intro fits
            have more : (state.node_depth.keys ++ [step.next]).length ≤ search.max_nodes := by
              rw [← List.toFinset_card_of_nodup]
              · refine Nat.le_trans (Finset.card_le_card ?_) fits
                intro node
                simp only [List.mem_toFinset, List.mem_append, List.mem_cons]
                rintro (before | here | impossible)
                · exact .inl before
                · exact .inr (.inl here)
                · cases impossible
              · refine List.nodup_append.mpr ⟨state.node_depth.distinct, List.nodup_singleton _, ?_⟩
                rintro node member other isNew rfl
                rw [List.mem_singleton] at isNew
                exact isKnown (isNew ▸ member)
            rw [List.length_append, List.length_singleton] at more
            omega
          · -- the edge of the step is kept, but not the node that it leads to
            intro endsKept
            have new := new_edge distinct kept closed stepAllowed isKnown
            have member : kHopEdgeRow search.lookup step (level + 1) ∈
                (steps.foldl (visit search level) (record search level state step)).edge_rows := by
              refine visits_rows steps ?_
              rw [record_new new]
              exact List.mem_append_right _ List.mem_cons_self
            obtain ⟨srcKept, dstKept⟩ := endsKept _ member
            rw [visits_full steps full, sameKeys] at srcKept dstKept
            obtain ⟨_, _, along⟩ := stepOf_allowed stepAllowed
            rcases along.ends with ⟨_, isNext⟩ | ⟨_, isNext⟩
            · exact isKnown (isNext ▸ dstKept)
            · exact isKnown (isNext ▸ srcKept)

end Keeping

/-! ## Runs -/

/-- The states that turns lead to. -/
def Reached (search : Search) : State → State → Prop :=
  Relation.ReflTransGen fun before after => turn search before = some after

section Runs

variable {edges : List StoredEdge} {direction : String} {seeds : List Int} {search : Search}
  {state next last : State} {level fuel : Nat}

/-- What a turn does. -/
theorem turn_cases (turned : turn search state = some next) :
    ∃ current level queue, state.queue = (current, level) :: queue ∧
      state.node_depth.keys.length < search.max_nodes ∧
        ((search.depth ≤ level ∧ next = { state with queue }) ∨
          (level < search.depth ∧ next = (stepsFrom search.adjacency current).foldl
            (visit search level) { state with queue })) := by
  rw [turn] at turned
  split at turned
  · cases turned
  · next current level queue taken =>
    split at turned
    · cases turned
    · next room =>
      split at turned
      · next bottom =>
        cases turned
        exact ⟨current, level, queue, taken, Nat.lt_of_not_le room, .inl ⟨bottom, rfl⟩⟩
      · next above =>
        cases turned
        exact ⟨current, level, queue, taken, Nat.lt_of_not_le room,
          .inr ⟨Nat.lt_of_not_le above, rfl⟩⟩

theorem turn_none (finished : turn search state = none) :
    state.queue = [] ∨ search.max_nodes ≤ state.node_depth.keys.length := by
  rw [turn] at finished
  split at finished
  · next empty => exact .inl empty
  · split at finished
    · next full => exact .inr full
    · split at finished <;> cases finished

theorem turn_full (full : search.max_nodes ≤ state.node_depth.keys.length) :
    turn search state = none := by
  cases turned : turn search state with
  | none => rfl
  | some next =>
    obtain ⟨_, _, _, _, room, _⟩ := turn_cases turned
    exact absurd room (Nat.not_lt.mpr full)

theorem Kept.taken {item : Int × Nat} {queue : List (Int × Nat)} (kept : Kept edges search state)
    (taken : state.queue = item :: queue) :
    Kept edges search { state with queue } ∧ item.1 ∈ state.node_depth.keys :=
  ⟨⟨kept.seen, kept.once, kept.few, kept.stored, fun other member =>
    kept.queued other (taken ▸ List.mem_cons_of_mem item member)⟩,
    kept.queued item (taken ▸ List.mem_cons_self)⟩

theorem Kept.turn (reads : ∀ node step, step ∈ stepsFrom search.adjacency node ↔
      step ∈ allowedSteps edges direction node) (kept : Kept edges search state)
    (turned : turn search state = some next) : Kept edges search next := by
  obtain ⟨current, level, queue, taken, _, ⟨_, rfl⟩ | ⟨_, rfl⟩⟩ := turn_cases turned
  · exact (kept.taken taken).1
  · exact (kept.taken taken).1.visits fun step member => (reads current step).mp member

theorem Kept.run (reads : ∀ node step, step ∈ stepsFrom search.adjacency node ↔
      step ∈ allowedSteps edges direction node) (kept : Kept edges search state)
    (ends : searchQueue search fuel state = some last) : Kept edges search last := by
  induction fuel generalizing state with
  | zero => cases ends
  | succ fuel inductionHypothesis =>
    rw [searchQueue] at ends
    split at ends
    · cases ends
      exact kept
    · next turned => exact inductionHypothesis (kept.turn reads turned) ends

/-- A turn is made in the end, or the search is over: the states reached are the first and those
reached behind the turn. -/
theorem reached_iff {after : State} :
    Reached search state after ↔ state = after ∨
      ∃ next, turn search state = some next ∧ Reached search next after := by
  constructor
  · intro reached
    rcases Relation.ReflTransGen.cases_head reached with same | ⟨next, turned, later⟩
    · exact .inl same
    · exact .inr ⟨next, turned, later⟩
  · rintro (rfl | ⟨next, turned, later⟩)
    · exact .refl
    · exact .head turned later

/-- A search that begins with no more nodes than asked for ends with no more, and keeps both ends
of every edge exactly when there is room for the new nodes of every turn. -/
theorem run_closed (distinct : DistinctEdges edges)
    (reads : ∀ node step, step ∈ stepsFrom search.adjacency node ↔
      step ∈ allowedSteps edges direction node)
    (ends : searchQueue search fuel state = some last) (kept : Kept edges search state)
    (closed : Closed state) (few : state.node_depth.keys.length ≤ search.max_nodes) :
    last.node_depth.keys.length ≤ search.max_nodes ∧
      (Closed last ↔ ∀ after, Reached search state after → Fits search after) := by
  induction fuel generalizing state with
  | zero => cases ends
  | succ fuel inductionHypothesis =>
    rw [searchQueue] at ends
    split at ends
    · next finished =>
      cases ends
      refine ⟨few, fun _ after reached => ?_, fun _ => closed⟩
      rcases reached_iff.mp reached with rfl | ⟨next, turned, _⟩
      · intro current level queue taken _ room
        rcases turn_none finished with empty | full
        · rw [empty] at taken
          cases taken
        · exact absurd room (Nat.not_lt.mpr full)
      · rw [finished] at turned
        cases turned
    · next next turned =>
      have keptNext := kept.turn reads turned
      have first : (∀ after, Reached search state after → Fits search after) ↔
          Fits search state ∧ ∀ after, Reached search next after → Fits search after := by
        constructor
        · intro all
          exact ⟨all state .refl, fun after reached => all after (.head turned reached)⟩
        · rintro ⟨here, later⟩ after reached
          rcases reached_iff.mp reached with rfl | ⟨other, isOther, rest⟩
          · exact here
          · rw [turned] at isOther
            cases isOther
            exact later after rest
      rw [first]
      obtain ⟨current, level, queue, taken, room, ⟨bottom, rfl⟩ | ⟨above, rfl⟩⟩ := turn_cases turned
      · obtain ⟨fewLast, closedIff⟩ := inductionHypothesis ends keptNext closed few
        refine ⟨fewLast, closedIff.trans (and_iff_right ?_).symm⟩
        intro other deeper rest same shallow _
        rw [taken] at same
        cases same
        exact absurd shallow (Nat.not_lt.mpr bottom)
      · obtain ⟨keptTaken, known⟩ := kept.taken taken
        have fits : Fits search state ↔ (nodesWith search { state with queue }
            (stepsFrom search.adjacency current)).card ≤ search.max_nodes := by
          constructor
          · intro all
            exact all current level queue taken above room
          · intro one other deeper rest same _ _
            rw [taken] at same
            cases same
            exact one
        have turns := visits_closed distinct level (stepsFrom search.adjacency current)
          (fun step member => (reads current step).mp member) keptTaken closed known few
        rw [fits]
        rcases turns with ⟨roomForAll, closedNext, fewNext⟩ | ⟨noRoom, unclosed, full⟩
        · obtain ⟨fewLast, closedIff⟩ := inductionHypothesis ends keptNext closedNext fewNext
          exact ⟨fewLast, closedIff.trans (and_iff_right roomForAll).symm⟩
        · -- there are enough nodes, so the search is over
          have isLast : last = (stepsFrom search.adjacency current).foldl (visit search level)
              { state with queue } := by
            cases fuel with
            | zero => cases ends
            | succ fuel =>
              rw [searchQueue, turn_full (Nat.le_of_eq full.symm)] at ends
              exact (Option.some.inj ends).symm
          rw [isLast]
          refine ⟨Nat.le_of_eq full, fun endsKept => absurd endsKept unclosed, ?_⟩
          rintro ⟨roomForAll, _⟩
          exact absurd roomForAll noRoom

end Runs

end CaracalDB.BoundedSubgraph
