import CaracalDB.BreadthFirst
import CaracalDB.CsrSafety
import Mathlib.Data.List.ProdSigma

/-!
# Searches of the Rust engine

Both searches of the engine take nodes from a queue, each with a path to it, and queue what the edges
of a node lead to and was not seen. The search of some depth knows a node together with its depth, so
it comes to it once for every length of a walk, and the search for a path knows the node only.
-/

namespace CaracalDB.Graph

open BreadthFirst Walks

/-! ## Paths -/

/-- An edge of an adjacency, by its place. -/
def EdgeAt (csr : CsrFile) (index source target : Nat) : Prop :=
  csr.offsets.getD source 0 ≤ index ∧ index < csr.offsets.getD (source + 1) 0 ∧
    csr.neighbors[index]? = some target

def Linked (csr : CsrFile) (source target : Nat) : Prop := ∃ index, EdgeAt csr index source target

/-- A path along some edges: its nodes are their ends, and its ids are their ids if they have any. -/
structure Follows (csr : CsrFile) (start stop : Nat) (edges : List Nat) (path : GraphPath) : Prop where
  count : path.nodes.length = edges.length + 1
  first : path.nodes.head? = some start
  last : path.nodes.getLast? = some stop
  steps : ∀ place index, edges[place]? = some index → ∃ source target,
    path.nodes[place]? = some source ∧ path.nodes[place + 1]? = some target ∧
      EdgeAt csr index source target
  eids : ∀ eids ∈ csr.eids, path.eids.map some = edges.map (eids[·]?)
  no_eids : csr.eids = none → path.eids = []

section Paths

variable {csr : CsrFile} {start stop next index : Nat} {edges : List Nat} {path : GraphPath}

theorem Follows.here (csr : CsrFile) (start : Nat) :
    Follows csr start start [] { nodes := [start], eids := [] } :=
  ⟨rfl, rfl, rfl, nofun, fun _ _ => rfl, fun _ => rfl⟩

/-- A path goes on along an edge. -/
theorem Follows.further (follows : Follows csr start stop edges path)
    (edge : EdgeAt csr index stop next) {eid : Option Nat} (read : indexedIn csr.eids index = .ok eid) :
    Follows csr start next (edges ++ [index])
      { nodes := path.nodes ++ [next], eids := path.eids ++ eid.toList } := by
  have count := follows.count
  have filled : path.nodes ≠ [] := by
    intro empty
    rw [empty] at count
    cases count
  refine ⟨?_, ?_, List.getLast?_concat, ?_, ?_, ?_⟩
  · rw [List.length_append, List.length_append, count]
    rfl
  · rw [List.head?_append_of_ne_nil _ filled]
    exact follows.first
  · intro place other given
    rcases Nat.lt_trichotomy place edges.length with inside | atEnd | beyond
    · rw [List.getElem?_append_left inside] at given
      obtain ⟨source, target, from_node, to_node, along⟩ := follows.steps place other given
      refine ⟨source, target, ?_, ?_, along⟩
      · rw [List.getElem?_append_left (by omega)]
        exact from_node
      · rw [List.getElem?_append_left (by omega)]
        exact to_node
    · subst atEnd
      have same : index = other := by simpa using given
      subst same
      refine ⟨stop, next, ?_, ?_, edge⟩
      · have last := follows.last
        rw [List.getLast?_eq_getElem?, count, Nat.add_sub_cancel] at last
        rw [List.getElem?_append_left (by omega)]
        exact last
      · rw [← count]
        exact List.getElem?_concat_length
    · have none : (edges ++ [index])[place]? = none := by
        rw [List.getElem?_eq_none_iff, List.length_append, List.length_singleton]
        exact beyond
      rw [none] at given
      cases given
  · intro eids given
    rw [Option.mem_def.mp given, indexedIn, indexed] at read
    cases held : eids[index]? with
    | none =>
      rw [held] at read
      cases read
    | some value =>
      rw [held] at read
      cases read
      rw [List.map_append, List.map_append, follows.eids eids given]
      simp [held]
  · intro none
    rw [none, indexedIn] at read
    cases read
    rw [follows.no_eids none]
    rfl

end Paths

/-! ## The edges of a node -/

section Edges

variable {csr : CsrFile} {Key : Type}

/-- What the loop over the edges of a node finds: nodes with new keys, each once and with the path
along its edge, and none is left out. -/
structure Expansion (csr : CsrFile) (key : Nat → Key) (path : GraphPath) (indices : List Nat)
    (seen after : List Key) (made : List (Nat × GraphPath)) : Prop where
  grows : after = (made.map fun next => key next.1).reverse ++ seen
  distinct : (made.map fun next => key next.1).Nodup
  fresh : ∀ next ∈ made, key next.1 ∉ seen
  along : ∀ next ∈ made, ∃ index ∈ indices, csr.neighbors[index]? = some next.1 ∧
    ∃ eid, indexedIn csr.eids index = .ok eid ∧
      next.2 = { nodes := path.nodes ++ [next.1], eids := path.eids ++ eid.toList }
  all : ∀ index ∈ indices, ∀ node, csr.neighbors[index]? = some node → key node ∈ after

theorem expand_spec [DecidableEq Key] (shaped : csr.Shaped) (key : Nat → Key) (path : GraphPath) {indices : List Nat}
    (within : ∀ index ∈ indices, index < csr.neighbors.length) (seen : List Key)
    (found : List (Nat × GraphPath)) :
    ∃ after made, expand csr key path indices seen found = .ok (after, found ++ made) ∧
      Expansion csr key path indices seen after made := by
  induction indices generalizing seen found with
  | nil =>
    refine ⟨seen, [], ?_, rfl, List.nodup_nil, nofun, nofun, nofun⟩
    rw [List.append_nil]
    rfl
  | cons index indices inductionHypothesis =>
    obtain ⟨below, others⟩ := List.forall_mem_cons.mp within
    have held := List.getElem?_eq_getElem below
    generalize csr.neighbors[index] = next at held
    rw [expand, indexed_some held, ok_bind]
    by_cases again : key next ∈ seen
    · rw [if_pos again]
      obtain ⟨after, made, expanded, spec⟩ := inductionHypothesis others seen found
      refine ⟨after, made, expanded, spec.grows, spec.distinct, spec.fresh, fun item member => ?_, ?_⟩
      · obtain ⟨place, among, leads⟩ := spec.along item member
        exact ⟨place, List.mem_cons_of_mem _ among, leads⟩
      · refine List.forall_mem_cons.mpr ⟨fun node leads => ?_, spec.all⟩
        obtain rfl : next = node := Option.some.inj (held.symm.trans leads)
        rw [spec.grows]
        exact List.mem_append_right _ again
    · obtain ⟨eid, read⟩ : ∃ eid, indexedIn csr.eids index = .ok eid := by
        cases given : csr.eids with
        | none => exact ⟨none, rfl⟩
        | some eids =>
          have size := shaped.eids eids given
          have place : index < eids.length := by omega
          exact ⟨some eids[index], by rw [indexedIn, indexed_some (List.getElem?_eq_getElem place)]; rfl⟩
      rw [if_neg again, read, ok_bind]
      obtain ⟨after, made, expanded, spec⟩ := inductionHypothesis others (key next :: seen)
        (found ++ [(next, { nodes := path.nodes ++ [next], eids := path.eids ++ eid.toList })])
      rw [List.append_assoc] at expanded
      refine ⟨after, _, expanded, ?_, ?_, ?_, ?_, ?_⟩
      · rw [spec.grows]
        simp
      · refine List.nodup_cons.mpr ⟨fun member => ?_, spec.distinct⟩
        obtain ⟨item, among, same⟩ := List.mem_map.mp member
        exact spec.fresh item among (same ▸ List.mem_cons_self)
      · refine List.forall_mem_cons.mpr ⟨again, fun item member old => ?_⟩
        exact spec.fresh item member (List.mem_cons_of_mem _ old)
      · refine List.forall_mem_cons.mpr
          ⟨⟨index, List.mem_cons_self, held, eid, read, rfl⟩, fun item member => ?_⟩
        obtain ⟨place, among, leads⟩ := spec.along item member
        exact ⟨place, List.mem_cons_of_mem _ among, leads⟩
      · refine List.forall_mem_cons.mpr ⟨fun node leads => ?_, spec.all⟩
        obtain rfl : next = node := Option.some.inj (held.symm.trans leads)
        rw [spec.grows]
        exact List.mem_append_right _ List.mem_cons_self

/-- The places of the edges of a node. -/
theorem edgeIndices_spec (shaped : csr.Shaped) (sound : csr.Sound) {node : Nat}
    (inside : node < csr.num_vertices) :
    ∃ indices, edgeIndices csr node = .ok indices ∧
      (∀ index ∈ indices, index < csr.neighbors.length) ∧
      ∀ index target, EdgeAt csr index node target ↔
        index ∈ indices ∧ csr.neighbors[index]? = some target := by
  obtain ⟨low, high⟩ := shaped.edges inside
  obtain ⟨_, ordered, within⟩ := sound.slice shaped inside
  refine ⟨List.range' (csr.offsets.getD node 0)
    (csr.offsets.getD (node + 1) 0 - csr.offsets.getD node 0), ?_, ?_, ?_⟩
  · rw [edgeIndices, indexed_some low, ok_bind, indexed_some high, ok_bind]
    rfl
  · intro index member
    have bounds := List.mem_range'_1.mp member
    omega
  · intro index target
    rw [EdgeAt, List.mem_range'_1, ← and_assoc]
    refine and_congr_left fun _ => and_congr_right fun _ => ?_
    omega

/-- An edge of a vertex leads to a vertex. -/
theorem Linked.vertex (shaped : csr.Shaped) (sound : csr.Sound) {node target : Nat}
    (inside : node < csr.num_vertices) (linked : Linked csr node target) :
    target < csr.num_vertices := by
  obtain ⟨index, low, _, held⟩ := linked
  have behind := (sound.slice shaped inside).1
  exact sound.inside index target (by omega) held

variable {edge : Key → Key → Prop} {start vertex : Key} {limit level node : Nat}
  {done queue : List (Key × Nat)} {key : Nat → Key} {path : GraphPath} {indices : List Nat}
  {seen after : List Key} {made : List (Nat × GraphPath)}

/-- A turn of a search: the nodes that are found are queued, and seen. -/
theorem Expansion.turn (expansion : Expansion csr key path indices seen after made)
    (reads : ∀ index target, EdgeAt csr index node target ↔
      index ∈ indices ∧ csr.neighbors[index]? = some target)
    (follows : ∀ next, edge vertex next ↔ ∃ target, Linked csr node target ∧ key target = next)
    (progress : Progress edge start limit done ((vertex, level) :: queue)) (above : level < limit)
    (known : ∀ key, key ∈ seen ↔ key ∈ (done ++ (vertex, level) :: queue).map Prod.fst) :
    Progress edge start limit (done ++ [(vertex, level)])
        (queue ++ made.map fun next => (key next.1, level + 1)) ∧
      ∀ seen_key, seen_key ∈ after ↔ seen_key ∈ ((done ++ [(vertex, level)]) ++
        (queue ++ made.map fun next => (key next.1, level + 1))).map Prod.fst := by
  have grown (found : Key) : found ∈ after ↔
      found ∈ seen ∨ found ∈ made.map fun next => key next.1 := by
    rw [expansion.grows, List.mem_append, List.mem_reverse]
    exact or_comm
  have turned := progress.turn above expansion.distinct
    (fun next member => by
      obtain ⟨found, among, rfl⟩ := List.mem_map.mp member
      obtain ⟨index, listed, leads, _⟩ := expansion.along found among
      refine ⟨(follows _).mpr ⟨found.1, ⟨index, (reads index found.1).mpr ⟨listed, leads⟩⟩, rfl⟩, ?_⟩
      rw [← known]
      exact expansion.fresh found among)
    (fun next step => by
      obtain ⟨target, ⟨index, along⟩, rfl⟩ := (follows next).mp step
      obtain ⟨listed, leads⟩ := (reads index target).mp along
      rw [← known, or_comm, ← grown]
      exact expansion.all index listed target leads)
  rw [List.map_map] at turned
  refine ⟨turned, fun found => ?_⟩
  rw [grown, known]
  simp only [List.map_append, List.map_cons, List.map_map, List.mem_append, List.mem_cons,
    List.map_nil, Function.comp_def]
  tauto

end Edges

/-! ## The search of some depth -/

namespace KHopRow

def key (row : KHopRow) : Nat × Nat := (row.node, row.depth)

end KHopRow

/-- What the search of some depth gives for a seed: one row for each node and each length of a walk to
it in the range, ordered by the lengths, each with a path of its length. -/
structure HopRows (csr : CsrFile) (seed min_depth max_depth : Nat) (rows : List KHopRow) : Prop where
  origin : ∀ row ∈ rows, row.seed = seed
  once : (rows.map KHopRow.key).Nodup
  exact : ∀ node depth, (node, depth) ∈ rows.map KHopRow.key ↔
    min_depth ≤ depth ∧ depth ≤ max_depth ∧ Walk (Linked csr) depth seed node
  ordered : (rows.map KHopRow.depth).Pairwise (· ≤ ·)
  paths : ∀ row ∈ rows, ∃ edges, edges.length = row.depth ∧
    Follows csr seed row.node edges row.path

section KHop

variable {csr : CsrFile} {seed min_depth max_depth : Nat}

/-- A node of the queue with its depth, which is its level. -/
def keyed (item : Nat × Nat × GraphPath) : (Nat × Nat) × Nat := ((item.1, item.2.1), item.2.1)

def hopRow (seed : Nat) (item : Nat × Nat × GraphPath) : KHopRow :=
  { seed, node := item.1, depth := item.2.1, path := item.2.2 }

/-- A node is a vertex, with a path of its depth. -/
def Traced (csr : CsrFile) (seed : Nat) (item : Nat × Nat × GraphPath) : Prop :=
  item.1 < csr.num_vertices ∧
    ∃ edges, edges.length = item.2.1 ∧ Follows csr seed item.1 edges item.2.2

theorem deeper_follows (csr : CsrFile) (node depth : Nat) (next : Nat × Nat) :
    Deeper (Linked csr) (node, depth) next ↔
      ∃ target, Linked csr node target ∧ (target, depth + 1) = next := by
  constructor
  · rintro ⟨deeper, linked⟩
    exact ⟨next.1, linked, by rw [← deeper]⟩
  · rintro ⟨target, linked, rfl⟩
    exact ⟨rfl, linked⟩

/-- Where the loop is: its progress, what it has seen, and the paths to all nodes. -/
structure Hopping (csr : CsrFile) (seed max_depth : Nat) (done queue : List (Nat × Nat × GraphPath))
    (seen : List (Nat × Nat)) : Prop where
  progress : Progress (Deeper (Linked csr)) (seed, 0) max_depth (done.map keyed) (queue.map keyed)
  known : ∀ key, key ∈ seen ↔ key ∈ (done.map keyed ++ queue.map keyed).map Prod.fst
  traced : ∀ item ∈ done ++ queue, Traced csr seed item

/-- The rows of what was taken. -/
def emitted (seed min_depth : Nat) (done : List (Nat × Nat × GraphPath)) : List KHopRow :=
  (done.filter fun item => min_depth ≤ item.2.1).map (hopRow seed)

theorem emitted_concat (seed min_depth : Nat) (done : List (Nat × Nat × GraphPath))
    {node depth : Nat} (path : GraphPath) :
    emitted seed min_depth (done ++ [(node, depth, path)]) =
      emitted seed min_depth done ++ if min_depth ≤ depth then [⟨seed, node, depth, path⟩] else [] := by
  rw [emitted, emitted, List.filter_append, List.map_append]
  by_cases enough : min_depth ≤ depth
  · rw [if_pos enough, List.filter_cons_of_pos (by simpa using enough)]
    rfl
  · rw [if_neg enough, List.filter_cons_of_neg (by simpa using enough)]
    rfl

theorem Hopping.begins (csr : CsrFile) {seed : Nat} (inside : seed < csr.num_vertices)
    (max_depth : Nat) : Hopping csr seed max_depth []
      [(seed, 0, { nodes := [seed], eids := [] })] [(seed, 0)] := by
  refine ⟨Progress.begins _ _ _, fun key => by simp [keyed], ?_⟩
  exact List.forall_mem_singleton.mpr ⟨inside, [], rfl, Follows.here csr seed⟩

section Turns

variable {done queue : List (Nat × Nat × GraphPath)} {seen : List (Nat × Nat)} {node depth : Nat}
  {path : GraphPath}

/-- There are only so many nodes and depths. -/
theorem Hopping.bounded (hopping : Hopping csr seed max_depth done queue seen) :
    done.length + queue.length ≤ csr.num_vertices * (max_depth + 1) := by
  have inside : ∀ entry ∈ done.map keyed ++ queue.map keyed,
      entry.1 ∈ List.range csr.num_vertices ×ˢ List.range (max_depth + 1) := by
    intro entry member
    have few := (hopping.progress.walks entry member).1
    rw [← List.map_append] at member
    obtain ⟨item, among, rfl⟩ := List.mem_map.mp member
    exact List.pair_mem_product.mpr ⟨List.mem_range.mpr (hopping.traced item among).1,
      List.mem_range.mpr (Nat.lt_succ_of_le few)⟩
  have bounded := hopping.progress.bounded inside
  rwa [List.length_product, List.length_range, List.length_range, List.length_map,
    List.length_map] at bounded

/-- At the last depth a node is only taken. -/
theorem Hopping.last (hopping : Hopping csr seed max_depth done ((node, max_depth, path) :: queue) seen) :
    Hopping csr seed max_depth (done ++ [(node, max_depth, path)]) queue seen := by
  obtain ⟨progress, known, traced⟩ := hopping
  have moved : (done ++ [(node, max_depth, path)]).map keyed ++ queue.map keyed =
      done.map keyed ++ ((node, max_depth, path) :: queue).map keyed := by simp
  refine ⟨?_, ?_, ?_⟩
  · rw [List.map_append]
    exact progress.last
  · rw [moved]
    exact known
  · rw [List.append_assoc]
    exact traced

/-- Above it, the nodes behind its edges are queued. -/
theorem Hopping.turn (shaped : csr.Shaped) (sound : csr.Sound)
    (hopping : Hopping csr seed max_depth done ((node, depth, path) :: queue) seen)
    (shallow : depth ≠ max_depth) :
    ∃ indices after found, edgeIndices csr node = .ok indices ∧
      expand csr (fun next => (next, depth + 1)) path indices seen [] = .ok (after, found) ∧
      Hopping csr seed max_depth (done ++ [(node, depth, path)])
        (queue ++ found.map fun next => (next.1, depth + 1, next.2)) after := by
  obtain ⟨progress, known, traced⟩ := hopping
  obtain ⟨inside, edges, length, follows⟩ :=
    traced _ (List.mem_append_right _ List.mem_cons_self)
  have few : depth ≤ max_depth :=
    (progress.walks _ (List.mem_append_right _ List.mem_cons_self)).1
  obtain ⟨indices, listed, within, reads⟩ := edgeIndices_spec shaped sound inside
  obtain ⟨after, found, expanded, expansion⟩ := expand_spec shaped
    (fun next => (next, depth + 1)) path within seen []
  obtain ⟨turned, knownAfter⟩ := expansion.turn reads (deeper_follows csr node depth) progress
    (Nat.lt_of_le_of_ne few shallow) known
  have taken : (done ++ [(node, depth, path)]).map keyed =
      done.map keyed ++ [((node, depth), depth)] := List.map_append
  have queued : (queue ++ found.map fun next => (next.1, depth + 1, next.2)).map keyed =
      queue.map keyed ++ found.map fun next => ((next.1, depth + 1), depth + 1) := by
    rw [List.map_append, List.map_map]
    rfl
  refine ⟨indices, after, found, listed, expanded, ?_, ?_, ?_⟩
  · rw [taken, queued]
    exact turned
  · rw [taken, queued]
    exact knownAfter
  · intro item member
    rw [List.append_assoc, ← List.singleton_append, ← List.append_assoc,
      ← List.append_assoc] at member
    rcases List.mem_append.mp member with old | added
    · rw [List.append_assoc, List.append_assoc] at old
      exact traced item old
    · obtain ⟨next, among, rfl⟩ := List.mem_map.mp added
      obtain ⟨index, place, leads, eid, read, way⟩ := expansion.along next among
      have along := (reads index next.1).mpr ⟨place, leads⟩
      refine ⟨Linked.vertex shaped sound inside ⟨index, along⟩, edges ++ [index], ?_, ?_⟩
      · rw [List.length_append, length]
        rfl
      · rw [way]
        exact follows.further along read

variable (min_depth) in
/-- Enough turns take the queue to its end, and more turns change nothing. -/
theorem kHopLoop_takes (shaped : csr.Shaped) (sound : csr.Sound) (fuel : Nat)
    (hopping : Hopping csr seed max_depth done queue seen)
    (enough : csr.num_vertices * (max_depth + 1) < fuel + done.length) :
    ∃ taken after, Hopping csr seed max_depth taken [] after ∧ ∀ extra rows,
      kHopLoop csr seed min_depth max_depth (fuel + extra) queue seen
        (rows ++ emitted seed min_depth done) = .ok (rows ++ emitted seed min_depth taken) := by
  induction fuel generalizing done queue seen with
  | zero =>
    have bounded := hopping.bounded
    omega
  | succ fuel inductionHypothesis =>
    cases queue with
    | nil =>
      refine ⟨done, seen, hopping, fun extra rows => ?_⟩
      rw [Nat.add_right_comm]
      rfl
    | cons item queue =>
      obtain ⟨node, depth, path⟩ := item
      have few : depth ≤ max_depth :=
        (hopping.progress.walks _ (List.mem_append_right _ List.mem_cons_self)).1
      have more : csr.num_vertices * (max_depth + 1) <
          fuel + (done ++ [(node, depth, path)]).length := by
        rw [List.length_append, List.length_singleton]
        omega
      have emits (rows : List KHopRow) : (if min_depth ≤ depth ∧ depth ≤ max_depth then
          rows ++ emitted seed min_depth done ++ [⟨seed, node, depth, path⟩]
          else rows ++ emitted seed min_depth done) =
            rows ++ emitted seed min_depth (done ++ [(node, depth, path)]) := by
        rw [emitted_concat]
        by_cases deep : min_depth ≤ depth
        · rw [if_pos ⟨deep, few⟩, if_pos deep, List.append_assoc]
        · rw [if_neg fun both => deep both.1, if_neg deep, List.append_nil]
      by_cases deepest : depth = max_depth
      · subst deepest
        obtain ⟨taken, after, final, loop⟩ := inductionHypothesis hopping.last more
        refine ⟨taken, after, final, fun extra rows => ?_⟩
        rw [Nat.add_right_comm, kHopLoop, if_pos rfl, emits]
        exact loop extra rows
      · obtain ⟨indices, seenAfter, found, listed, expanded, turned⟩ :=
          hopping.turn shaped sound deepest
        obtain ⟨taken, after, final, loop⟩ := inductionHypothesis turned more
        refine ⟨taken, after, final, fun extra rows => ?_⟩
        rw [Nat.add_right_comm, CsrFile.kHopLoop_turn deepest listed expanded, emits]
        exact loop extra rows

/-- What was taken when the queue is empty are the rows of the seed. -/
theorem Hopping.rows (hopping : Hopping csr seed max_depth done [] seen) (min_depth : Nat) :
    HopRows csr seed min_depth max_depth (emitted seed min_depth done) := by
  obtain ⟨progress, _, traced⟩ := hopping
  rw [List.map_nil] at progress
  have mem_emitted {row : KHopRow} : row ∈ emitted seed min_depth done ↔
      ∃ item ∈ done, min_depth ≤ item.2.1 ∧ hopRow seed item = row := by
    rw [emitted, List.mem_map]
    simp only [List.mem_filter, decide_eq_true_eq, and_assoc]
  have keys : ((emitted seed min_depth done).map KHopRow.key).Sublist
      ((done.map keyed).map Prod.fst) := by
    rw [emitted, List.map_map, List.map_map]
    exact List.filter_sublist.map _
  have depths : ((emitted seed min_depth done).map KHopRow.depth).Sublist
      ((done.map keyed).map Prod.snd) := by
    rw [emitted, List.map_map, List.map_map]
    exact List.filter_sublist.map _
  have distinct := progress.distinct
  have rising := progress.rising
  rw [List.append_nil] at distinct rising
  refine ⟨?_, keys.nodup distinct, ?_, rising.sublist depths, ?_⟩
  · intro row member
    obtain ⟨item, _, _, rfl⟩ := mem_emitted.mp member
    rfl
  · intro node depth
    rw [List.mem_map]
    constructor
    · rintro ⟨row, member, key⟩
      obtain ⟨item, among, deep, rfl⟩ := mem_emitted.mp member
      cases key
      have taken : keyed item ∈ done.map keyed ++ [] := by
        rw [List.append_nil]
        exact List.mem_map_of_mem among
      obtain ⟨few, walk⟩ := progress.walks _ taken
      exact ⟨deep, few, (walk_deeper.mp walk).2⟩
    · rintro ⟨deep, few, walk⟩
      obtain ⟨level, _, taken⟩ := progress.complete few (walk_deeper.mpr ⟨rfl, walk⟩)
      obtain ⟨item, among, key⟩ := List.mem_map.mp taken
      cases key
      exact ⟨hopRow seed item, mem_emitted.mpr ⟨item, among, deep, rfl⟩, rfl⟩
  · intro row member
    obtain ⟨item, among, _, rfl⟩ := mem_emitted.mp member
    rw [List.append_nil] at traced
    exact (traced item among).2

end Turns

end KHop

/-- The rows of a seed, which do not depend on how many turns are more than enough. -/
theorem kHopFrom_rows {csr : CsrFile} (shaped : csr.Shaped) (sound : csr.Sound) {seed : Nat}
    (inside : seed < csr.num_vertices) (min_depth max_depth : Nat) :
    ∃ made, HopRows csr seed min_depth max_depth made ∧
      ∀ fuel, csr.num_vertices * (max_depth + 1) < fuel → ∀ rows,
        kHopFrom csr min_depth max_depth fuel rows seed = .ok (rows ++ made) := by
  obtain ⟨taken, after, final, loop⟩ := kHopLoop_takes min_depth shaped sound
    (csr.num_vertices * (max_depth + 1) + 1) (Hopping.begins csr inside max_depth)
    (Nat.lt_succ_self _)
  refine ⟨emitted seed min_depth taken, final.rows min_depth, fun fuel enough rows => ?_⟩
  have turns : csr.num_vertices * (max_depth + 1) + 1 +
      (fuel - (csr.num_vertices * (max_depth + 1) + 1)) = fuel := Nat.add_sub_of_le enough
  have run := loop (fuel - (csr.num_vertices * (max_depth + 1) + 1)) rows
  rw [turns] at run
  rw [kHopFrom, rejectIf_pass _ _ (Nat.not_le_of_lt inside), ok_bind, ← run]
  exact congrArg _ (List.append_nil rows).symm

/-- The rows of all seeds, one after the other. -/
theorem csrKHop_seeds {csr : CsrFile} {seeds : List Nat} {min_depth max_depth fuel : Nat}
    (range : min_depth ≤ max_depth) (rowsOf : Nat → List KHopRow)
    (each : ∀ rows, ∀ seed ∈ seeds,
      kHopFrom csr min_depth max_depth fuel rows seed = .ok (rows ++ rowsOf seed)) :
    csrKHop csr seeds min_depth max_depth fuel = .ok (seeds.flatMap rowsOf) := by
  rw [csrKHop, rejectIf_pass _ _ (Nat.not_lt_of_le range), ok_bind, foldlM_of_ok seeds each,
    ← List.flatMap_eq_foldl]

/-- Every vertex has its rows. -/
theorem exists_rowsOf {csr : CsrFile} (shaped : csr.Shaped) (sound : csr.Sound)
    (min_depth max_depth : Nat) :
    ∃ rowsOf : Nat → List KHopRow, ∀ seed < csr.num_vertices,
      HopRows csr seed min_depth max_depth (rowsOf seed) ∧
        ∀ fuel, csr.num_vertices * (max_depth + 1) < fuel → ∀ rows,
          kHopFrom csr min_depth max_depth fuel rows seed = .ok (rows ++ rowsOf seed) := by
  have each : ∀ seed, ∃ made, seed < csr.num_vertices → HopRows csr seed min_depth max_depth made ∧
      ∀ fuel, csr.num_vertices * (max_depth + 1) < fuel → ∀ rows,
        kHopFrom csr min_depth max_depth fuel rows seed = .ok (rows ++ made) := by
    intro seed
    by_cases vertex : seed < csr.num_vertices
    · obtain ⟨made, both⟩ := kHopFrom_rows shaped sound vertex min_depth max_depth
      exact ⟨made, fun _ => both⟩
    · exact ⟨[], fun known => absurd known vertex⟩
  choose rowsOf spec using each
  exact ⟨rowsOf, spec⟩

/-- The search of some depth ends, and gives for each seed in turn one row for each node and each
length of a walk to it in the range, ordered by the lengths, with a path of its length. -/
theorem k_hop_rows {csr : CsrFile} (shaped : csr.Shaped) (sound : csr.Sound) {seeds : List Nat}
    (inside : ∀ seed ∈ seeds, seed < csr.num_vertices) {min_depth max_depth : Nat}
    (range : min_depth ≤ max_depth) :
    ∃ rowsOf : Nat → List KHopRow,
      (∀ seed ∈ seeds, HopRows csr seed min_depth max_depth (rowsOf seed)) ∧
      ∀ fuel, csr.num_vertices * (max_depth + 1) < fuel →
        csrKHop csr seeds min_depth max_depth fuel = .ok (seeds.flatMap rowsOf) := by
  obtain ⟨rowsOf, spec⟩ := exists_rowsOf shaped sound min_depth max_depth
  refine ⟨rowsOf, fun seed member => (spec seed (inside seed member)).1, fun fuel enough => ?_⟩
  exact csrKHop_seeds range rowsOf fun rows seed member =>
    (spec seed (inside seed member)).2 fuel enough rows

/-- Two vertices with two edges one way and one edge back, which also has an edge to a third. -/
def smallCycle : CsrFile :=
  { num_vertices := 3, num_edges := 4, flags := 1, offsets := [0, 2, 4, 4], neighbors := [1, 1, 0, 2]
    eids := some [10, 11, 12, 13] }

theorem smallCycle_shaped : smallCycle.Shaped :=
  ⟨rfl, rfl, rfl, fun eids given => by rw [← Option.mem_some.mp given]; rfl⟩

theorem smallCycle_sound : smallCycle.Sound := by
  have vertices : ∀ node ∈ smallCycle.neighbors, node < smallCycle.num_vertices := by decide
  exact ⟨by decide, fun _ node _ held => vertices node (List.mem_of_getElem? held)⟩

/-- Around the cycle the first vertex is come to again. -/
theorem small_cycle_rows : ∃ rowsOf : Nat → List KHopRow,
    (∀ seed ∈ [0, 0], HopRows smallCycle seed 1 2 (rowsOf seed)) ∧
    ∀ fuel, smallCycle.num_vertices * (2 + 1) < fuel →
      csrKHop smallCycle [0, 0] 1 2 fuel = .ok ([0, 0].flatMap rowsOf) :=
  k_hop_rows smallCycle_shaped smallCycle_sound (by decide) (by decide)

/-! ## The search for a path -/

/-- What the search for a path gives: a path exactly if a walk of no more than `max_depth` edges leads
to the target, and then one with as few edges as there can be. -/
structure IsShortest (csr : CsrFile) (source target max_depth : Nat) (answer : Option GraphPath) :
    Prop where
  found : answer.isSome = true ↔ ∃ length ≤ max_depth, Walk (Linked csr) length source target
  path : ∀ path ∈ answer, ∃ edges, Follows csr source target edges path ∧
    edges.length ≤ max_depth ∧ ∀ length, Walk (Linked csr) length source target → edges.length ≤ length

section Shortest

variable {csr : CsrFile} {source target max_depth : Nat}

/-- A node of the queue with the number of edges of its path. -/
def levelled (item : Nat × GraphPath) : Nat × Nat := (item.1, item.2.nodes.length - 1)

/-- Where the loop is: the nodes that were taken are not the target. -/
structure Seeking (csr : CsrFile) (source target max_depth : Nat) (done : List (Nat × Nat))
    (queue : List (Nat × GraphPath)) (seen : List Nat) : Prop where
  progress : Progress (Linked csr) source max_depth done (queue.map levelled)
  known : ∀ node, node ∈ seen ↔ node ∈ (done ++ queue.map levelled).map Prod.fst
  vertices : ∀ entry ∈ done ++ queue.map levelled, entry.1 < csr.num_vertices
  traced : ∀ item ∈ queue, ∃ edges, Follows csr source item.1 edges item.2
  missed : ∀ entry ∈ done, entry.1 ≠ target

theorem Seeking.begins (csr : CsrFile) {source : Nat} (inside : source < csr.num_vertices)
    (target max_depth : Nat) : Seeking csr source target max_depth []
      [(source, { nodes := [source], eids := [] })] [source] := by
  refine ⟨Progress.begins _ _ _, fun node => by simp [levelled], ?_, ?_, nofun⟩
  · exact List.forall_mem_singleton.mpr inside
  · exact List.forall_mem_singleton.mpr ⟨[], Follows.here csr source⟩

variable {done : List (Nat × Nat)} {queue : List (Nat × GraphPath)} {seen : List Nat} {node : Nat}
  {path : GraphPath}

theorem Seeking.bounded (seeking : Seeking csr source target max_depth done queue seen) :
    done.length + queue.length ≤ csr.num_vertices := by
  have inside : ∀ entry ∈ done ++ queue.map levelled, entry.1 ∈ List.range csr.num_vertices :=
    fun entry member => List.mem_range.mpr (seeking.vertices entry member)
  have bounded := seeking.progress.bounded inside
  rwa [List.length_map, List.length_range] at bounded

/-- The target is taken with a path that is as short as there can be. -/
theorem Seeking.arrived (seeking : Seeking csr source target max_depth done ((target, path) :: queue) seen) :
    IsShortest csr source target max_depth (some path) := by
  obtain ⟨edges, follows⟩ := seeking.traced _ List.mem_cons_self
  have level : path.nodes.length - 1 = edges.length := by
    have count := follows.count
    simp only at count
    omega
  obtain ⟨few, walk⟩ := seeking.progress.walks _ (List.mem_append_right _ List.mem_cons_self)
  simp only [levelled, level] at few walk
  refine ⟨⟨fun _ => ⟨edges.length, few, walk⟩, fun _ => rfl⟩, ?_⟩
  intro answer given
  obtain rfl : path = answer := Option.mem_some.mp given
  refine ⟨edges, follows, few, fun length other => ?_⟩
  rw [← level]
  exact seeking.progress.shortest other

/-- When the queue is empty no walk leads to the target. -/
theorem Seeking.missing (seeking : Seeking csr source target max_depth done [] seen) :
    IsShortest csr source target max_depth none := by
  refine ⟨⟨nofun, ?_⟩, nofun⟩
  rintro ⟨length, few, walk⟩
  obtain ⟨level, _, taken⟩ := seeking.progress.complete few walk
  exact absurd rfl (seeking.missed _ taken)

/-- At the last depth a node is only taken. -/
theorem Seeking.last (seeking : Seeking csr source target max_depth done ((node, path) :: queue) seen)
    (other : node ≠ target) (deepest : max_depth ≤ path.nodes.length - 1) :
    Seeking csr source target max_depth (done ++ [levelled (node, path)]) queue seen := by
  obtain ⟨progress, known, vertices, traced, missed⟩ := seeking
  have moved : done ++ [levelled (node, path)] ++ queue.map levelled =
      done ++ ((node, path) :: queue).map levelled := by simp
  have level : levelled (node, path) = (node, max_depth) := by
    have few := (progress.walks _ (List.mem_append_right _ List.mem_cons_self)).1
    exact Prod.ext rfl (Nat.le_antisymm few deepest)
  refine ⟨?_, ?_, ?_, fun item member => traced item (List.mem_cons_of_mem _ member), ?_⟩
  · rw [List.map_cons, level] at progress
    rw [level]
    exact progress.last
  · rw [moved]
    exact known
  · rw [moved]
    exact vertices
  · exact List.forall_mem_append.mpr ⟨missed, List.forall_mem_singleton.mpr other⟩

/-- Above it, the nodes behind its edges are queued. -/
theorem Seeking.turn (shaped : csr.Shaped) (sound : csr.Sound)
    (seeking : Seeking csr source target max_depth done ((node, path) :: queue) seen)
    (other : node ≠ target) (shallow : ¬ max_depth ≤ path.nodes.length - 1) :
    ∃ indices after found, edgeIndices csr node = .ok indices ∧
      expand csr id path indices seen [] = .ok (after, found) ∧
      Seeking csr source target max_depth (done ++ [levelled (node, path)]) (queue ++ found) after := by
  obtain ⟨progress, known, vertices, traced, missed⟩ := seeking
  have inside : node < csr.num_vertices :=
    vertices (levelled (node, path)) (List.mem_append_right _ List.mem_cons_self)
  obtain ⟨edges, follows⟩ := traced _ List.mem_cons_self
  obtain ⟨indices, listed, within, reads⟩ := edgeIndices_spec shaped sound inside
  obtain ⟨after, found, expanded, expansion⟩ := expand_spec shaped id path within seen []
  have linked (next : Nat) : Linked csr node next ↔ ∃ target, Linked csr node target ∧ id target = next := by
    simp
  obtain ⟨turned, knownAfter⟩ := expansion.turn reads linked progress (Nat.lt_of_not_le shallow) known
  have deeper : ∀ next ∈ found, levelled next = (id next.1, path.nodes.length - 1 + 1) := by
    intro next among
    obtain ⟨_, _, _, _, _, way⟩ := expansion.along next among
    have count := follows.count
    rw [levelled, way, List.length_append, List.length_singleton]
    simp only at count
    exact Prod.ext rfl (by simp only; omega)
  have queued : (queue ++ found).map levelled =
      queue.map levelled ++ found.map fun next => (id next.1, path.nodes.length - 1 + 1) := by
    rw [List.map_append, List.map_congr_left deeper]
  refine ⟨indices, after, found, listed, expanded, ?_, ?_, ?_, ?_, ?_⟩
  · rw [queued]
    exact turned
  · rw [queued]
    exact knownAfter
  · rw [List.map_append, ← List.append_assoc]
    refine List.forall_mem_append.mpr ⟨?_, ?_⟩
    · rw [List.append_assoc]
      exact vertices
    · intro entry member
      obtain ⟨next, among, rfl⟩ := List.mem_map.mp member
      obtain ⟨index, place, leads, _⟩ := expansion.along next among
      exact Linked.vertex shaped sound inside ⟨index, (reads index next.1).mpr ⟨place, leads⟩⟩
  · refine List.forall_mem_append.mpr ⟨fun item member => traced item (List.mem_cons_of_mem _ member), ?_⟩
    intro next among
    obtain ⟨index, place, leads, eid, read, way⟩ := expansion.along next among
    rw [way]
    exact ⟨_, follows.further ((reads index next.1).mpr ⟨place, leads⟩) read⟩
  · exact List.forall_mem_append.mpr ⟨missed, List.forall_mem_singleton.mpr other⟩

/-- Enough turns find the target or take the queue to its end, and more turns change nothing. -/
theorem shortestLoop_finds (shaped : csr.Shaped) (sound : csr.Sound) (fuel : Nat)
    (seeking : Seeking csr source target max_depth done queue seen)
    (enough : csr.num_vertices < fuel + done.length) :
    ∃ answer, IsShortest csr source target max_depth answer ∧
      ∀ extra, shortestLoop csr target max_depth (fuel + extra) queue seen = .ok answer := by
  induction fuel generalizing done queue seen with
  | zero =>
    have bounded := seeking.bounded
    omega
  | succ fuel inductionHypothesis =>
    cases queue with
    | nil =>
      refine ⟨none, seeking.missing, fun extra => ?_⟩
      rw [Nat.add_right_comm]
      rfl
    | cons item queue =>
      obtain ⟨node, path⟩ := item
      have more : csr.num_vertices < fuel + (done ++ [levelled (node, path)]).length := by
        rw [List.length_append, List.length_singleton]
        omega
      by_cases arrived : node = target
      · subst arrived
        refine ⟨some path, seeking.arrived, fun extra => ?_⟩
        rw [Nat.add_right_comm, shortestLoop, if_pos rfl]
      · by_cases deepest : max_depth ≤ path.nodes.length - 1
        · obtain ⟨answer, shortest, loop⟩ := inductionHypothesis (seeking.last arrived deepest) more
          refine ⟨answer, shortest, fun extra => ?_⟩
          rw [Nat.add_right_comm, shortestLoop, if_neg arrived, if_pos deepest]
          exact loop extra
        · obtain ⟨indices, after, found, listed, expanded, turned⟩ :=
            seeking.turn shaped sound arrived deepest
          obtain ⟨answer, shortest, loop⟩ := inductionHypothesis turned more
          refine ⟨answer, shortest, fun extra => ?_⟩
          rw [Nat.add_right_comm, shortestLoop, if_neg arrived, if_neg deepest, listed, ok_bind,
            expanded, ok_bind]
          exact loop extra

end Shortest

/-- The search for a path ends. It gives a path exactly if a walk of no more than `max_depth` edges
leads from the source to the target, and then a path with as few edges as there can be. -/
theorem shortest_path_found {csr : CsrFile} (shaped : csr.Shaped) (sound : csr.Sound)
    {source target : Nat} (source_inside : source < csr.num_vertices)
    (target_inside : target < csr.num_vertices) (max_depth : Nat) :
    ∃ answer, IsShortest csr source target max_depth answer ∧
      ∀ fuel, csr.num_vertices < fuel →
        csrShortestPath csr source target max_depth fuel = .ok answer := by
  obtain ⟨answer, shortest, loop⟩ := shortestLoop_finds shaped sound (csr.num_vertices + 1)
    (Seeking.begins csr source_inside target max_depth) (Nat.lt_succ_self _)
  refine ⟨answer, shortest, fun fuel enough => ?_⟩
  have turns : csr.num_vertices + 1 + (fuel - (csr.num_vertices + 1)) = fuel :=
    Nat.add_sub_of_le enough
  have run := loop (fuel - (csr.num_vertices + 1))
  rw [turns] at run
  have passed : ¬ (csr.num_vertices ≤ source ∨ csr.num_vertices ≤ target) := by omega
  rw [csrShortestPath, rejectIf_pass _ _ passed, ok_bind]
  exact run

/-- The third vertex is found behind the second. -/
theorem small_cycle_path : ∃ answer, IsShortest smallCycle 0 2 3 answer ∧
    ∀ fuel, smallCycle.num_vertices < fuel → csrShortestPath smallCycle 0 2 3 fuel = .ok answer :=
  shortest_path_found smallCycle_shaped smallCycle_sound (by decide) (by decide) 3

end CaracalDB.Graph
