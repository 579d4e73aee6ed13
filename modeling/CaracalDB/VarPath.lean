import CaracalDB.CsrArrays
import CaracalDB.Walks
import CaracalDB.KeyTypes

/-!
# Paths of variable length

The Python operator goes from all seeds at once, hop by hop. It keeps the pairs of a seed
and a vertex that it has seen and goes on from new pairs only, so a pair is emitted at the
first hop that leads to it or not at all. A longer walk between the same vertices is lost
when the first hop is below the least one that is asked for.
-/

namespace CaracalDB.VarPath

open Walks Graph

/-! ## The reader -/

/-- `reader.degrees(vids)` -/
def degrees (csr : CaracalDB.CsrFile) (vids : List Nat) : List Nat :=
  vids.map fun vid => csr.offsets.getD (vid + 1) 0 - csr.offsets.getD vid 0

/-- `np.repeat(values, counts)` -/
def repeated (values counts : List Nat) : List Nat :=
  (values.zip counts).flatMap fun entry => List.replicate entry.2 entry.1

/-- `reader.batch_neighbors(vids)`: every vertex as often as it has edges, and their targets. -/
def batchNeighbors (csr : CaracalDB.CsrFile) (vids : List Nat) :
    Except Raised (List Nat × List Nat) := do
  if vids = [] then return ([], [])
  refuse (∃ vid ∈ vids, csr.num_vertices ≤ vid) (.caracal
    { code := "CDB-7083"
      message := "vertex id range [" ++ toString (vids.foldl min (vids.headD 0)) ++ ", " ++
        toString (vids.foldl max 0) ++ "] outside CSR vertex space [0, " ++
        toString csr.num_vertices ++ ")" })
  let lens := degrees csr vids
  let idx := (vids.zip lens).flatMap fun entry =>
    List.range' (csr.offsets.getD entry.1 0) entry.2
  return (repeated vids lens, idx.map (csr.neighbors.getD · 0))

/-! ## The operator -/

/-- What the traversal has seen and emitted, and the pairs from which it goes on. -/
structure Traversal where
  seen : List (Nat × Nat)
  out : List (Nat × Nat)
  frontier : List (Nat × Nat)

/-- The body of the loop over the pairs of one hop. -/
def Traversal.visit (emits : Bool) (state : Traversal) (pair : Nat × Nat) : Traversal :=
  if pair ∈ state.seen then state
  else
    { seen := pair :: state.seen
      out := if emits then state.out ++ [pair] else state.out
      frontier := state.frontier ++ [pair] }

/-- The seeds, which are emitted at hop zero if that is asked for. -/
def Traversal.start (hop_min : Nat) (seeds : List Nat) : Traversal :=
  let frontier := seeds.map fun seed => (seed, seed)
  let emitted := if hop_min = 0 then
    frontier.foldl (visit true) { seen := [], out := [], frontier := [] }
    else { seen := [], out := [], frontier := [] }
  { emitted with frontier }

/-- `for hop in range(1, self._hop_max + 1)`, with the number of hops that are left. -/
def hopLoop (csr : CaracalDB.CsrFile) (hop_min : Nat) : Nat → Nat → Traversal → Except Raised Traversal
  | 0, _, state => .ok state
  | left + 1, hop, state =>
      if state.frontier = [] then .ok state
      else do
        let frontier_dst := state.frontier.map Prod.snd
        let (src_rep, dst) ← batchNeighbors csr frontier_dst
        if dst = [] then return state
        let origin_per_dst := if hop = 1 then src_rep
          else repeated (state.frontier.map Prod.fst) (degrees csr frontier_dst)
        hopLoop csr hop_min left (hop + 1)
          ((origin_per_dst.zip dst).foldl (Traversal.visit (decide (hop_min ≤ hop)))
            { state with frontier := [] })

/-- `_traverse(seeds)`: no batch if there are no pairs. -/
def traverse (csr : CaracalDB.CsrFile) (hop_min hop_max : Nat) (seeds : List Nat) :
    Except Raised (Option (List (Nat × Nat))) := do
  let state ← hopLoop csr hop_min hop_max 1 (Traversal.start hop_min seeds)
  return if state.out = [] then none else some state.out

/-- `VarPathOperator(child, forward=csr, hop_min=..., hop_max=...)` run over the seeds of the
batches of its child: the pairs of the batch that it gives, if it gives one. -/
def varPath (csr : CaracalDB.CsrFile) (hop_min hop_max : Int) (batches : List (List Nat)) :
    Except Raised (List (Nat × Nat)) := do
  refuse (hop_min < 0 ∨ hop_max < hop_min) (.caracal
    { code := "CDB-6031"
      message := "invalid hop range: hop_min=" ++ toString hop_min ++ ", hop_max=" ++
        toString hop_max })
  let seed_chunks := batches.filter fun seeds => seeds ≠ []
  if seed_chunks = [] then return []
  return (← traverse csr hop_min.toNat hop_max.toNat seed_chunks.flatten).getD []

/-! ## Edges of a graph -/

/-- There is an edge from one vertex to another. -/
def Edge (arcs : List Arc) (source target : Nat) : Prop :=
  ∃ arc ∈ arcs, arc.src = source ∧ arc.dst = target

/-- The targets of the edges of a vertex, in the order of the edges. -/
def targets (arcs : List Arc) (vertex : Nat) : List Nat :=
  (arcs.filter fun arc => arc.src = vertex).map Arc.dst

theorem mem_targets {arcs : List Arc} {source target : Nat} :
    target ∈ targets arcs source ↔ Edge arcs source target := by
  rw [targets, List.mem_map, Edge]
  simp only [List.mem_filter, decide_eq_true_eq, and_assoc]

theorem zip_map_self {Item Given : Type} (items : List Item) (give : Item → Given) :
    items.zip (items.map give) = items.map fun item => (item, give item) := by
  induction items with
  | nil => rfl
  | cons item items inductionHypothesis =>
    rw [List.map_cons, List.zip_cons_cons, inductionHypothesis, List.map_cons]

/-- Pairs of items with what they give, side by side. -/
theorem zip_flatMap {Item Given : Type} (items : List (Given × Item)) (gives : Item → List Nat) :
    (items.flatMap fun item => List.replicate (gives item.2).length item.1).zip
        (items.flatMap fun item => gives item.2) =
      items.flatMap fun item => (gives item.2).map fun given => (item.1, given) := by
  induction items with
  | nil => rfl
  | cons item items inductionHypothesis =>
    have here : (List.replicate (gives item.2).length item.1).zip (gives item.2) =
        (gives item.2).map fun given => (item.1, given) := by
      induction gives item.2 with
      | nil => rfl
      | cons given rest inner => rw [List.length_cons, List.replicate_succ, List.zip_cons_cons, inner,
          List.map_cons]
    rw [List.flatMap_cons, List.flatMap_cons, List.flatMap_cons,
      List.zip_append List.length_replicate, here, inductionHypothesis]

section Graph

variable {arcs : List Arc} {vertices : Nat} (with_eids : Bool)

/-- The slice of a vertex has its targets. -/
theorem slice_targets {vertex : Nat} (inside : vertex < vertices) :
    ((CsrFile.build with_eids arcs vertices).neighbors.drop
      ((CsrFile.build with_eids arcs vertices).offsets.getD vertex 0)).take
        ((CsrFile.build with_eids arcs vertices).offsets.getD (vertex + 1) 0 -
          (CsrFile.build with_eids arcs vertices).offsets.getD vertex 0) = targets arcs vertex := by
  rw [targets, ← slice_build with_eids arcs inside, List.map_take, List.map_drop]
  rfl

theorem degree_targets {vertex : Nat} (inside : vertex < vertices) :
    (CsrFile.build with_eids arcs vertices).offsets.getD (vertex + 1) 0 -
      (CsrFile.build with_eids arcs vertices).offsets.getD vertex 0 =
        (targets arcs vertex).length := by
  rw [CsrFile.offset_build with_eids arcs inside.le, CsrFile.offset_build with_eids arcs inside,
    CsrFile.length_filter_succ, Nat.add_sub_cancel_left, targets, List.length_map]

/-- Indices in a slice read the slice. -/
theorem map_range'_getD (values : List Nat) (start count : Nat)
    (within : start + count ≤ values.length) :
    (List.range' start count).map (values.getD · 0) = (values.drop start).take count := by
  apply List.ext_getElem
  · rw [List.length_map, List.length_range', List.length_take, List.length_drop]
    omega
  · intro index first second
    rw [List.length_map, List.length_range'] at first
    rw [List.getElem_map, List.getElem_range', List.getElem_take, List.getElem_drop, Nat.one_mul,
      List.getD_eq_getElem?_getD, List.getElem?_eq_getElem (by omega), Option.getD_some]

theorem slice_within {vertex : Nat} (inside : vertex < vertices) :
    (CsrFile.build with_eids arcs vertices).offsets.getD vertex 0 + (targets arcs vertex).length ≤
      (CsrFile.build with_eids arcs vertices).neighbors.length := by
  have size : (CsrFile.build with_eids arcs vertices).neighbors.length = arcs.length :=
    CsrFile.num_edges_build with_eids arcs vertices
  have all : (arcs.filter fun arc => arc.src < vertex + 1).length ≤ arcs.length :=
    List.length_filter_le _ _
  rw [CsrFile.length_filter_succ] at all
  rw [CsrFile.offset_build with_eids arcs inside.le, size, targets, List.length_map]
  exact all

/-- The neighbors of vertices, with the vertices repeated. -/
theorem batchNeighbors_build {vids : List Nat} (inside : ∀ vid ∈ vids, vid < vertices) :
    batchNeighbors (CsrFile.build with_eids arcs vertices) vids =
      .ok (vids.flatMap fun vid => List.replicate (targets arcs vid).length vid,
        vids.flatMap (targets arcs)) := by
  by_cases none : vids = []
  · subst none
    rfl
  · have allowed : ¬ ∃ vid ∈ vids, (CsrFile.build with_eids arcs vertices).num_vertices ≤ vid := by
      rintro ⟨vid, member, beyond⟩
      rw [CsrFile.num_vertices_build] at beyond
      exact absurd (inside vid member) (Nat.not_lt.mpr beyond)
    have entries : vids.zip (degrees (CsrFile.build with_eids arcs vertices) vids) =
        vids.map fun vid => (vid, (targets arcs vid).length) := by
      rw [degrees, zip_map_self]
      exact List.map_congr_left fun vid member => by
        rw [degree_targets with_eids (inside vid member)]
    have sources : repeated vids (degrees (CsrFile.build with_eids arcs vertices) vids) =
        vids.flatMap fun vid => List.replicate (targets arcs vid).length vid := by
      rw [repeated, entries, List.flatMap_map]
    have read : ((vids.zip (degrees (CsrFile.build with_eids arcs vertices) vids)).flatMap
        fun entry => List.range' ((CsrFile.build with_eids arcs vertices).offsets.getD entry.1 0)
          entry.2).map ((CsrFile.build with_eids arcs vertices).neighbors.getD · 0) =
        vids.flatMap (targets arcs) := by
      rw [entries, List.flatMap_map, List.map_flatMap]
      refine List.flatMap_congr fun vid member => ?_
      have below := inside vid member
      rw [map_range'_getD _ _ _ (slice_within with_eids below), ← degree_targets with_eids below,
        slice_targets with_eids below]
    rw [batchNeighbors, if_neg none, refuse, if_neg allowed, ok_bind]
    simp only [sources, read]
    rfl

/-- Origins repeated by the degrees of their vertices. -/
theorem repeated_degrees {frontier : List (Nat × Nat)}
    (inside : ∀ vid ∈ frontier.map Prod.snd, vid < vertices) :
    repeated (frontier.map Prod.fst)
        (degrees (CsrFile.build with_eids arcs vertices) (frontier.map Prod.snd)) =
      frontier.flatMap fun pair => List.replicate (targets arcs pair.2).length pair.1 := by
  have entries : (frontier.map Prod.fst).zip
      (degrees (CsrFile.build with_eids arcs vertices) (frontier.map Prod.snd)) =
        frontier.map fun pair => (pair.1, (targets arcs pair.2).length) := by
    rw [degrees, List.map_map, List.zip_map']
    exact List.map_congr_left fun pair member => by
      rw [Function.comp, degree_targets with_eids (inside _ (List.mem_map_of_mem member))]
  rw [repeated, entries, List.flatMap_map]

/-- The pairs of one hop: those of a pair of the frontier with the targets of its vertex. -/
def candidates (arcs : List Arc) (frontier : List (Nat × Nat)) : List (Nat × Nat) :=
  frontier.flatMap fun pair => (targets arcs pair.2).map fun target => (pair.1, target)

theorem mem_candidates {frontier : List (Nat × Nat)} {seed target : Nat} :
    (seed, target) ∈ candidates arcs frontier ↔
      ∃ vertex, (seed, vertex) ∈ frontier ∧ Edge arcs vertex target := by
  rw [candidates, List.mem_flatMap]
  constructor
  · rintro ⟨⟨origin, vertex⟩, member, among⟩
    obtain ⟨_, reached, same⟩ := List.mem_map.mp among
    cases same
    exact ⟨vertex, member, mem_targets.mp reached⟩
  · rintro ⟨vertex, member, edge⟩
    exact ⟨(seed, vertex), member, List.mem_map.mpr ⟨target, mem_targets.mpr edge, rfl⟩⟩

end Graph

/-! ## One hop -/

/-- A fresh walk is one of some length, with no shorter one from a least length on. -/
def Fresh (arcs : List Arc) (low length start stop : Nat) : Prop :=
  Walk (Edge arcs) length start stop ∧
    ∀ shorter, low ≤ shorter → shorter < length → ¬ Walk (Edge arcs) shorter start stop

/-- What the traversal has reached after some hops from the seeds. -/
structure Traversal.Reached (arcs : List Arc) (seeds : List Nat) (hop_min low hops : Nat)
    (state : Traversal) : Prop where
  seen : ∀ seed stop, (seed, stop) ∈ state.seen ↔ seed ∈ seeds ∧
    ∃ length, low ≤ length ∧ length ≤ hops ∧ Walk (Edge arcs) length seed stop
  frontier : ∀ seed stop, (seed, stop) ∈ state.frontier ↔ seed ∈ seeds ∧ Fresh arcs low hops seed stop
  out : ∀ seed stop, (seed, stop) ∈ state.out ↔ seed ∈ seeds ∧
    ∃ length, hop_min ≤ length ∧ length ≤ hops ∧ Fresh arcs low length seed stop
  once : state.out.Nodup
  among : ∀ pair ∈ state.out, pair ∈ state.seen

/-- What visiting some pairs does. -/
structure Visited (emits : Bool) (pairs : List (Nat × Nat)) (state after : Traversal) : Prop where
  seen : ∀ pair, pair ∈ after.seen ↔ pair ∈ state.seen ∨ pair ∈ pairs
  frontier : ∀ pair, pair ∈ after.frontier ↔ pair ∈ state.frontier ∨ pair ∈ pairs ∧ pair ∉ state.seen
  out : ∀ pair, pair ∈ after.out ↔
    pair ∈ state.out ∨ emits = true ∧ pair ∈ pairs ∧ pair ∉ state.seen
  once : state.out.Nodup → (∀ pair ∈ state.out, pair ∈ state.seen) →
    after.out.Nodup ∧ ∀ pair ∈ after.out, pair ∈ after.seen

theorem visited (emits : Bool) (pairs : List (Nat × Nat)) (state : Traversal) :
    Visited emits pairs state (pairs.foldl (Traversal.visit emits) state) := by
  induction pairs generalizing state with
  | nil =>
    refine ⟨fun pair => ?_, fun pair => ?_, fun pair => ?_, fun once among => ⟨once, among⟩⟩ <;> simp
  | cons first pairs inductionHypothesis =>
    have rest := inductionHypothesis (state.visit emits first)
    rw [List.foldl_cons]
    by_cases old : first ∈ state.seen
    · have same : state.visit emits first = state := if_pos old
      rw [same] at rest ⊢
      have spare : ∀ pair, pair ∈ first :: pairs ∧ pair ∉ state.seen ↔
          pair ∈ pairs ∧ pair ∉ state.seen := by
        intro pair
        rw [List.mem_cons]
        refine and_congr_left fun fresh => or_iff_right ?_
        rintro rfl
        exact fresh old
      refine ⟨fun pair => ?_, fun pair => ?_, fun pair => ?_, rest.once⟩
      · rw [rest.seen, List.mem_cons]
        constructor
        · exact Or.imp_right Or.inr
        · rintro (seen | rfl | later)
          · exact .inl seen
          · exact .inl old
          · exact .inr later
      · rw [rest.frontier, spare]
      · rw [rest.out, spare]
    · have unfolded : state.visit emits first =
          { seen := first :: state.seen
            out := if emits then state.out ++ [first] else state.out
            frontier := state.frontier ++ [first] } := if_neg old
      rw [unfolded] at rest ⊢
      have spare : ∀ pair, pair ∈ first :: pairs ∧ pair ∉ state.seen ↔
          pair = first ∨ pair ∈ pairs ∧ pair ∉ first :: state.seen := by
        intro pair
        by_cases same : pair = first
        · subst same
          simp [old]
        · simp [same]
      refine ⟨fun pair => ?_, fun pair => ?_, fun pair => ?_, fun once among => ?_⟩
      · rw [rest.seen, List.mem_cons, List.mem_cons]
        exact or_assoc.trans or_left_comm
      · rw [rest.frontier, spare, List.mem_append, List.mem_singleton, or_assoc]
      · rw [rest.out, spare]
        cases emits with
        | false => simp
        | true => simp [or_assoc]
      · have absent : first ∉ state.out := fun member => old (among first member)
        refine rest.once ?_ ?_
        · cases emits with
          | false => exact once
          | true => exact List.nodup_append.mpr ⟨once, List.nodup_singleton _, by
              rintro pair member _ isFirst rfl
              exact absent (List.mem_singleton.mp isFirst ▸ member)⟩
        · intro pair member
          cases emits with
          | false => exact List.mem_cons_of_mem _ (among pair member)
          | true =>
            rcases List.mem_append.mp member with earlier | here
            · exact List.mem_cons_of_mem _ (among pair earlier)
            · exact List.mem_singleton.mp here ▸ List.mem_cons_self

/-! ## All hops -/

section Hops

variable {arcs : List Arc} {seeds : List Nat} {hop_min hops : Nat} {state : Traversal}

/-- A walk that is one edge longer ends in a pair of the next hop, or the pair was seen. -/
theorem candidate_or_shorter {low : Nat} (frontier : ∀ seed stop, (seed, stop) ∈ state.frontier ↔
    seed ∈ seeds ∧ Fresh arcs low hops seed stop) {seed stop : Nat} (isSeed : seed ∈ seeds)
    (walk : Walk (Edge arcs) (hops + 1) seed stop) :
    (seed, stop) ∈ candidates arcs state.frontier ∨
      ∃ length, low ≤ length ∧ length ≤ hops ∧ Walk (Edge arcs) length seed stop := by
  obtain ⟨middle, before, step⟩ := walk_succ.mp walk
  by_cases fresh : Fresh arcs low hops seed middle
  · exact .inl (mem_candidates.mpr ⟨middle, (frontier seed middle).mpr ⟨isSeed, fresh⟩, step⟩)
  · obtain ⟨shorter, atLeast, below, again⟩ : ∃ shorter, low ≤ shorter ∧ shorter < hops ∧
        Walk (Edge arcs) shorter seed middle := by
      by_contra none
      exact fresh ⟨before, fun shorter atLeast below again => none ⟨shorter, atLeast, below, again⟩⟩
    exact .inr ⟨shorter + 1, by omega, by omega, .further again step⟩

/-- One hop reaches what walks with one more edge reach. -/
theorem Traversal.Reached.hop {low : Nat} (small : low ≤ 1)
    (reached : state.Reached arcs seeds hop_min low hops) :
    ((candidates arcs state.frontier).foldl (Traversal.visit (decide (hop_min ≤ hops + 1)))
      { state with frontier := [] }).Reached arcs seeds hop_min low (hops + 1) := by
  have visits := visited (decide (hop_min ≤ hops + 1)) (candidates arcs state.frontier)
    { state with frontier := [] }
  have isCandidate (seed stop : Nat) (among : (seed, stop) ∈ candidates arcs state.frontier) :
      seed ∈ seeds ∧ Walk (Edge arcs) (hops + 1) seed stop := by
    obtain ⟨middle, from_middle, step⟩ := mem_candidates.mp among
    obtain ⟨isSeed, walk, _⟩ := (reached.frontier seed middle).mp from_middle
    exact ⟨isSeed, .further walk step⟩
  -- a pair is new exactly if its shortest walk has one edge more
  have isNew (seed stop : Nat) : (seed, stop) ∈ candidates arcs state.frontier ∧
      (seed, stop) ∉ state.seen ↔ seed ∈ seeds ∧ Fresh arcs low (hops + 1) seed stop := by
    constructor
    · rintro ⟨among, unseen⟩
      obtain ⟨isSeed, walk⟩ := isCandidate seed stop among
      refine ⟨isSeed, walk, fun shorter atLeast below again => unseen ?_⟩
      exact (reached.seen seed stop).mpr ⟨isSeed, shorter, atLeast, Nat.le_of_lt_succ below, again⟩
    · rintro ⟨isSeed, walk, none⟩
      have unseen : (seed, stop) ∉ state.seen := by
        intro seen
        obtain ⟨_, length, atLeast, within, again⟩ := (reached.seen seed stop).mp seen
        exact none length atLeast (Nat.lt_succ_of_le within) again
      refine ⟨(candidate_or_shorter reached.frontier isSeed walk).resolve_right ?_, unseen⟩
      rintro ⟨length, atLeast, within, again⟩
      exact none length atLeast (Nat.lt_succ_of_le within) again
  refine ⟨fun seed stop => ?_, fun seed stop => ?_, fun seed stop => ?_,
    (visits.once reached.once reached.among).1, (visits.once reached.once reached.among).2⟩
  · rw [visits.seen, reached.seen]
    constructor
    · rintro (⟨isSeed, length, atLeast, within, walk⟩ | among)
      · exact ⟨isSeed, length, atLeast, Nat.le_succ_of_le within, walk⟩
      · obtain ⟨isSeed, walk⟩ := isCandidate seed stop among
        exact ⟨isSeed, hops + 1, by omega, Nat.le_refl _, walk⟩
    · rintro ⟨isSeed, length, atLeast, within, walk⟩
      rcases Nat.lt_or_eq_of_le within with shorter | rfl
      · exact .inl ⟨isSeed, length, atLeast, Nat.le_of_lt_succ shorter, walk⟩
      · rcases candidate_or_shorter reached.frontier isSeed walk with among | shorter
        · exact .inr among
        · exact .inl ⟨isSeed, shorter⟩
  · rw [visits.frontier, isNew]
    exact or_iff_right List.not_mem_nil
  · rw [visits.out, reached.out, isNew, decide_eq_true_eq]
    constructor
    · rintro (⟨isSeed, length, atLeast, within, fresh⟩ | ⟨emits, isSeed, fresh⟩)
      · exact ⟨isSeed, length, atLeast, Nat.le_succ_of_le within, fresh⟩
      · exact ⟨isSeed, hops + 1, emits, Nat.le_refl _, fresh⟩
    · rintro ⟨isSeed, length, atLeast, within, fresh⟩
      rcases Nat.lt_or_eq_of_le within with shorter | rfl
      · exact .inl ⟨isSeed, length, atLeast, Nat.le_of_lt_succ shorter, fresh⟩
      · exact .inr ⟨atLeast, isSeed, fresh⟩

/-- Where the last hop leads nowhere, nothing is reached later. -/
theorem Traversal.Reached.rest {low : Nat} (small : low ≤ 1)
    (reached : state.Reached arcs seeds hop_min low hops)
    (none : candidates arcs state.frontier = []) (more : Nat) :
    ∀ seed stop, (seed, stop) ∈ state.out ↔ seed ∈ seeds ∧
      ∃ length, hop_min ≤ length ∧ length ≤ hops + more ∧ Fresh arcs low length seed stop := by
  induction more generalizing state hops with
  | zero => exact reached.out
  | succ more inductionHypothesis =>
    have next := reached.hop small
    rw [none] at next
    have later := inductionHypothesis next rfl
    rwa [Nat.add_right_comm, Nat.add_assoc] at later

/-- What is emitted in the end. -/
def Emitted (arcs : List Arc) (seeds : List Nat) (hop_min low hop_max : Nat)
    (out : List (Nat × Nat)) : Prop :=
  out.Nodup ∧ ∀ seed stop, (seed, stop) ∈ out ↔ seed ∈ seeds ∧
    ∃ length, hop_min ≤ length ∧ length ≤ hop_max ∧ Fresh arcs low length seed stop

/-- The loop emits what walks reach at last. -/
theorem hopLoop_emits (with_eids : Bool) {vertices : Nat}
    (inside : ∀ arc ∈ arcs, arc.src < vertices ∧ arc.dst < vertices)
    (vertex_seeds : ∀ seed ∈ seeds, seed < vertices) {low : Nat} (small : low ≤ 1)
    (left : Nat) (reached : state.Reached arcs seeds hop_min low hops)
    (begins : hops = 0 → ∀ pair ∈ state.frontier, pair.1 = pair.2) :
    ∃ final, hopLoop (CsrFile.build with_eids arcs vertices) hop_min left (hops + 1) state =
      .ok final ∧ Emitted arcs seeds hop_min low (hops + left) final.out := by
  induction left generalizing state hops with
  | zero => exact ⟨state, rfl, reached.once, reached.out⟩
  | succ left inductionHypothesis =>
    rw [hopLoop]
    by_cases done : state.frontier = []
    · rw [if_pos done]
      refine ⟨state, rfl, reached.once, reached.rest small ?_ _⟩
      rw [done]
      rfl
    · have known : ∀ vid ∈ state.frontier.map Prod.snd, vid < vertices := by
        intro vid member
        obtain ⟨⟨seed, stop⟩, among, rfl⟩ := List.mem_map.mp member
        obtain ⟨isSeed, walk, _⟩ := (reached.frontier seed stop).mp among
        refine walk.holds (· < vertices) ?_ (vertex_seeds seed isSeed)
        rintro _ _ ⟨arc, held, _, rfl⟩
        exact (inside arc held).2
      have read : (state.frontier.map Prod.snd).flatMap (targets arcs) =
          state.frontier.flatMap fun pair => targets arcs pair.2 := List.flatMap_map ..
      have origins : (if hops + 1 = 1 then (state.frontier.map Prod.snd).flatMap
            fun vid => List.replicate (targets arcs vid).length vid
          else repeated (state.frontier.map Prod.fst)
            (degrees (CsrFile.build with_eids arcs vertices) (state.frontier.map Prod.snd))) =
          state.frontier.flatMap fun pair =>
            List.replicate (targets arcs pair.2).length pair.1 := by
        by_cases first : hops = 0
        · rw [if_pos (by omega), List.flatMap_map]
          exact List.flatMap_congr fun pair member => by rw [begins first pair member]
        · rw [if_neg (by omega)]
          exact repeated_degrees with_eids known
      rw [if_neg done]
      simp only [batchNeighbors_build with_eids known, ok_bind, read, origins, zip_flatMap]
      by_cases none : (state.frontier.flatMap fun pair => targets arcs pair.2) = []
      · rw [if_pos none]
        refine ⟨state, rfl, reached.once, reached.rest small ?_ _⟩
        rw [List.flatMap_eq_nil_iff] at none
        rw [candidates, List.flatMap_eq_nil_iff]
        exact fun pair member => by rw [none pair member, List.map_nil]
      · rw [if_neg none]
        obtain ⟨final, loop, emitted⟩ := inductionHypothesis (reached.hop small)
          (fun impossible => absurd impossible (Nat.succ_ne_zero _))
        rw [Nat.add_right_comm, Nat.add_assoc] at emitted
        exact ⟨final, loop, emitted⟩

/-- The seeds are reached without a hop. -/
theorem Traversal.start_reached (arcs : List Arc) (hop_min : Nat) (seeds : List Nat) :
    (Traversal.start hop_min seeds).Reached arcs seeds hop_min (min hop_min 1) 0 ∧
      ∀ pair ∈ (Traversal.start hop_min seeds).frontier, pair.1 = pair.2 := by
  have paired (seed stop : Nat) : (seed, stop) ∈ (seeds.map fun seed => (seed, seed)) ↔
      seed ∈ seeds ∧ seed = stop := by
    rw [List.mem_map]
    constructor
    · rintro ⟨_, member, same⟩
      cases same
      exact ⟨member, rfl⟩
    · rintro ⟨member, rfl⟩
      exact ⟨seed, member, rfl⟩
  have freshZero (low seed stop : Nat) : Fresh arcs low 0 seed stop ↔ seed = stop := by
    rw [Fresh, walk_zero]
    exact and_iff_left fun shorter _ below => absurd below (Nat.not_lt_zero _)
  have frontier (seed stop : Nat) : (seed, stop) ∈ (Traversal.start hop_min seeds).frontier ↔
      seed ∈ seeds ∧ Fresh arcs (min hop_min 1) 0 seed stop := by
    rw [freshZero]
    exact paired seed stop
  refine ⟨?_, fun pair member => ((paired pair.1 pair.2).mp member).2⟩
  by_cases zero : hop_min = 0
  · subst zero
    have visits := visited true (seeds.map fun seed => (seed, seed))
      { seen := [], out := [], frontier := [] }
    have once := visits.once List.nodup_nil (List.forall_mem_nil _)
    refine ⟨fun seed stop => ?_, frontier, fun seed stop => ?_, once.1, once.2⟩
    · have seen := (visits.seen (seed, stop)).trans (or_iff_right List.not_mem_nil)
      refine (seen.trans (paired seed stop)).trans (and_congr_right fun _ => ?_)
      constructor
      · rintro rfl
        exact ⟨0, Nat.zero_le _, Nat.le_refl _, .here seed⟩
      · rintro ⟨length, _, none, walk⟩
        obtain rfl := Nat.le_zero.mp none
        exact walk_zero.mp walk
    · have out := (visits.out (seed, stop)).trans (or_iff_right List.not_mem_nil)
      have all : (seed, stop) ∈ (seeds.map fun seed => (seed, seed)) ∧ (seed, stop) ∉ ([] : List (Nat × Nat)) ↔
          (seed, stop) ∈ (seeds.map fun seed => (seed, seed)) := and_iff_left List.not_mem_nil
      refine ((out.trans (and_iff_right rfl)).trans (all.trans (paired seed stop))).trans
        (and_congr_right fun _ => ?_)
      constructor
      · rintro rfl
        exact ⟨0, Nat.zero_le _, Nat.le_refl _, (freshZero _ _ _).mpr rfl⟩
      · rintro ⟨length, _, none, fresh⟩
        obtain rfl := Nat.le_zero.mp none
        exact (freshZero _ _ _).mp fresh
  · have start : Traversal.start hop_min seeds =
        { seen := [], out := [], frontier := seeds.map fun seed => (seed, seed) } := by
      rw [Traversal.start, if_neg zero]
    rw [start]
    refine ⟨fun seed stop => ?_, start ▸ frontier, fun seed stop => ?_, List.nodup_nil,
      List.forall_mem_nil _⟩
    · refine iff_of_false List.not_mem_nil ?_
      rintro ⟨_, length, atLeast, none, _⟩
      omega
    · refine iff_of_false List.not_mem_nil ?_
      rintro ⟨_, length, atLeast, none, _⟩
      omega

end Hops

/-- The operator emits the pairs whose shortest walk, from hop zero or from hop one on, is in the
range. -/
theorem varPath_emits (with_eids : Bool) {arcs : List Arc} {vertices : Nat}
    (inside : ∀ arc ∈ arcs, arc.src < vertices ∧ arc.dst < vertices) {batches : List (List Nat)}
    (vertex_seeds : ∀ seed ∈ batches.flatten, seed < vertices) {hop_min hop_max : Nat}
    (range : hop_min ≤ hop_max) :
    ∃ out, varPath (CsrFile.build with_eids arcs vertices) hop_min hop_max batches = .ok out ∧
      Emitted arcs batches.flatten hop_min (min hop_min 1) hop_max out := by
  have allowed : ¬ ((hop_min : Int) < 0 ∨ (hop_max : Int) < hop_min) := by omega
  have chunks : (batches.filter fun seeds => seeds ≠ []).flatten = batches.flatten :=
    List.flatten_filter_ne_nil
  rw [varPath, refuse, if_neg allowed, ok_bind]
  by_cases none : (batches.filter fun seeds => seeds ≠ []) = []
  · have noSeed : batches.flatten = [] := by
      rw [← chunks, none]
      rfl
    simp only [none, if_true, noSeed]
    refine ⟨[], rfl, List.nodup_nil, fun seed stop => iff_of_false List.not_mem_nil ?_⟩
    rintro ⟨isSeed, _⟩
    exact List.not_mem_nil isSeed
  · obtain ⟨started, begins⟩ := Traversal.start_reached arcs hop_min batches.flatten
    obtain ⟨final, loop, emitted⟩ := hopLoop_emits with_eids inside vertex_seeds
      (Nat.min_le_right _ _) hop_max started fun _ => begins
    rw [Nat.zero_add] at loop emitted
    simp only [none, if_false, chunks, traverse, Int.toNat_natCast, loop, ok_bind]
    refine ⟨final.out, ?_, emitted⟩
    by_cases empty : final.out = []
    · rw [if_pos empty, empty]
      rfl
    · rw [if_neg empty]
      rfl

end CaracalDB.VarPath
