import CaracalDB.LayeredSampling
import Mathlib.Data.List.Zip

/-!
# Subgraphs for graph neural networks

`_sample_gnn_subgraph` samples the edges around some seeds, hop by hop, under caps for the
nodes and the edges, and numbers the nodes in the order in which it has met them. The edges
are numbered in one of two ways, through an array if the ids are dense and through a
dictionary otherwise. Vertices are counted in 63 bits, so no cast changes an id.
-/

namespace CaracalDB.Gnn

open CsrReader Layers

/-- What `_readers_for_relation(db, edge_type, direction)` gives. -/
structure Relation where
  forward : Option CsrFile
  reverse : Option CsrFile

/-- The arguments of `_sample_gnn_subgraph`, with the ids that `_gnn_seed_ids` finds for the seeds. -/
structure Request where
  seed_ids : List Nat
  fanouts : List Int
  edge_types : List String
  direction : String := "out"
  replace : Bool := false
  strategy : String := "uniform"
  max_nodes : Option Int := none
  max_edges : Option Int := none

/-- What the sampling reads: the readers of the relations, and what `rng.choice` gives for a fan-out of
a place among them, a type, a reader and a segment. -/
structure Sources where
  readers : String → Relation
  draw : Nat → String → Bool → Nat → Nat → List Nat

/-- What leaves the call instead of a sample. -/
inductive Failure where
  | valueError (message : String)
  | raised (raised : Raised)
deriving DecidableEq

/-- Raise a `ValueError` under a condition. -/
def reject (condition : Prop) [Decidable condition] (message : String) : Except Failure Unit :=
  if condition then .error (.valueError message) else .ok ()

/-- The checks of a request. -/
def checkRequest (request : Request) : Except Failure Unit := do
  reject (request.direction ∉ ["out", "in", "both"])
    "direction must be 'out', 'in', or 'both'"
  reject (request.strategy ∉ ["uniform", "first", "all"])
    "strategy must be one of 'uniform', 'first', or 'all'"
  reject (request.fanouts = []) "fanouts must be non-empty"
  reject (request.edge_types = []) "edge_types must be non-empty"
  reject (∃ fanout ∈ request.fanouts, fanout < 0) "fanouts must be >= 0"
  reject (∃ limit ∈ request.max_nodes, limit ≤ 0)
    "max_nodes must be positive when provided"
  reject (∃ limit ∈ request.max_edges, limit < 0)
    "max_edges must be >= 0 when provided"

/-- `_gnn_relation_readers(db, edge_type, direction)`: each reader, and whether its edges are incoming
ones. -/
def gnnRelationReaders (relation : Relation) (direction : String) : List (CsrFile × Bool) :=
  (if direction = "out" ∨ direction = "both" then
    relation.forward.toList.map fun forward => (forward, false) else []) ++
  if direction = "in" ∨ direction = "both" then
    relation.reverse.toList.map fun reverse => (reverse, true) else []

/-- What the loops carry: the nodes met so far, the edges, and the ends of the edges of this hop. -/
structure Progress where
  ordered_nodes : List Nat
  edges : List (Nat × Nat)
  next : List Nat
deriving DecidableEq

/-- `limit is not None and count >= limit` -/
def Spent (limit : Option Int) (count : Nat) : Prop := ∃ most ∈ limit, most ≤ count

instance (limit : Option Int) (count : Nat) : Decidable (Spent limit count) :=
  inferInstanceAs (Decidable (∃ most ∈ limit, most ≤ (count : Int)))

/-- The loop over the candidates for new nodes. -/
def addNodes (max_nodes : Option Int) : List Nat → List Nat → List Nat
  | [], nodes => nodes
  | node :: candidates, nodes =>
      if node ∈ nodes then addNodes max_nodes candidates nodes
      else if Spent max_nodes nodes.length then nodes
      else addNodes max_nodes candidates (nodes ++ [node])

section Loops

variable (request : Request) (sources : Sources)

/-- `src_global[:remaining]` and `dst_global[:remaining]` -/
def cut (progress : Progress) (pairs : List (Nat × Nat)) : List (Nat × Nat) :=
  match request.max_edges with
  | none => pairs
  | some most => pairs.take (most - progress.edges.length).toNat

/-- The edges of a call are taken up; `incoming` says which end they lead to. -/
def record (incoming : Bool) (progress : Progress) (taken : List (Nat × Nat)) : Progress :=
  { ordered_nodes :=
      if Spent request.max_nodes progress.ordered_nodes.length then progress.ordered_nodes
      else addNodes request.max_nodes (unique (taken.map Prod.fst ++ taken.map Prod.snd))
        progress.ordered_nodes
    edges := progress.edges ++ taken
    next := progress.next ++ taken.map fun edge => if incoming then edge.1 else edge.2 }

/-- What a reader gives for the vertices of the frontier that it has: pairs of a source and a target. -/
def callReader (hop : Nat) (fanout : Int) (edge_type : String) (reader : CsrFile × Bool)
    (frontier : List Nat) : Except Raised (List (Nat × Nat)) := do
  let columns ← batchNeighbors reader.1 (frontier.map Int.ofNat) false (some fanout) request.replace
    request.strategy (sources.draw hop edge_type reader.2)
  return if reader.2 then columns.dst_flat.zip columns.src_rep
    else columns.src_rep.zip columns.dst_flat

/-- The loop over the readers of a type. -/
def sampleReaders (hop : Nat) (fanout : Int) (frontier : List Nat) (edge_type : String) :
    List (CsrFile × Bool) → Progress → Except Raised Progress
  | [], progress => .ok progress
  | reader :: readers, progress =>
      let valid_frontier := frontier.filter fun vertex => vertex < reader.1.num_vertices
      if valid_frontier = [] then sampleReaders hop fanout frontier edge_type readers progress
      else do
        let pairs ← callReader request sources hop fanout edge_type reader valid_frontier
        if pairs = [] then sampleReaders hop fanout frontier edge_type readers progress
        else if Spent request.max_edges progress.edges.length then return progress
        else
          let recorded := record request reader.2 progress (cut request progress pairs)
          if Spent request.max_edges recorded.edges.length then return recorded
          else sampleReaders hop fanout frontier edge_type readers recorded

/-- The loop over the types. -/
def sampleTypes (hop : Nat) (fanout : Int) (frontier : List Nat) :
    List String → Progress → Except Raised Progress
  | [], progress => .ok progress
  | edge_type :: edge_types, progress => do
      let sampled ← sampleReaders request sources hop fanout frontier edge_type
        (gnnRelationReaders (sources.readers edge_type) request.direction) progress
      if Spent request.max_edges sampled.edges.length then return sampled
      else sampleTypes hop fanout frontier edge_types sampled

/-- The frontier behind a hop. -/
def nextFrontier (progress : Progress) : List Nat :=
  match request.max_nodes with
  | none => unique progress.next
  | some _ => (unique progress.next).filter fun vertex => vertex ∈ progress.ordered_nodes

/-- The loop over the fan-outs. -/
def sampleHops (hop : Nat) (frontier : List Nat) : List Int → Progress → Except Raised Progress
  | [], progress => .ok progress
  | fanout :: fanouts, progress =>
      if frontier = [] then .ok progress
      else do
        let sampled ← sampleTypes request sources hop fanout frontier request.edge_types
          { progress with next := [] }
        if sampled.next = [] then return sampled
        else sampleHops (hop + 1) (nextFrontier request sampled) fanouts sampled

/-- `dict.fromkeys(...)` of the seeds, up to `max_nodes` of them. -/
def seedNodes : List Nat :=
  let distinct := request.seed_ids.reverse.dedup.reverse
  match request.max_nodes with
  | none => distinct
  | some most => distinct.take most.toNat

end Loops

/-! ## Numbers -/

/-- `local_map`, for ids that are not greater than `top`. -/
def localMap (top : Nat) (n_id : List Nat) : List Int :=
  n_id.zipIdx.foldl (fun map (node, index) => map.set node index) (List.replicate (top + 1) (-1))

/-- The numbers of the ends of edges through an array. -/
def denseIndex (n_id : List Nat) (edges : List (Nat × Nat)) : List (Nat × Nat) :=
  let local_map := localMap (n_id.max?.getD 0) n_id
  let valid := edges.filter fun edge => edge.1 < local_map.length ∧ edge.2 < local_map.length
  let numbered := valid.map fun edge => (local_map.getD edge.1 (-1), local_map.getD edge.2 (-1))
  (numbered.filter fun ends => 0 ≤ ends.1 ∧ 0 ≤ ends.2).map fun ends => (ends.1.toNat, ends.2.toNat)

/-- The numbers of the ends of edges through a dictionary. -/
def dictIndex (n_id : List Nat) (edges : List (Nat × Nat)) : List (Nat × Nat) :=
  let numbers : Dict Nat Nat := Dict.ofEntries n_id.zipIdx
  (edges.filter fun edge => numbers.contains edge.1 && numbers.contains edge.2).map fun edge =>
    ((numbers.get? edge.1).getD 0, (numbers.get? edge.2).getD 0)

/-- Whether the ids are dense enough for an array. -/
def Dense (n_id : List Nat) : Prop := n_id ≠ [] ∧ n_id.max?.getD 0 < max (n_id.length * 4) 1024

instance (n_id : List Nat) : Decidable (Dense n_id) := inferInstanceAs (Decidable (_ ∧ _))

/-- The columns of `edge_index`. -/
def edgeIndex (n_id : List Nat) (edges : List (Nat × Nat)) : List (Nat × Nat) :=
  if edges = [] then [] else if Dense n_id then denseIndex n_id edges else dictIndex n_id edges

/-- `_sample_gnn_subgraph(db, seeds, fanouts, edge_types, ...)`: the progress of its loops, and
`edge_index`. -/
def sampleGnnSubgraph (request : Request) (sources : Sources) :
    Except Failure (Progress × List (Nat × Nat)) := do
  checkRequest request
  let sampled ← (sampleHops request sources 0 (seedNodes request) request.fanouts
    { ordered_nodes := seedNodes request, edges := [], next := [] }).mapError Failure.raised
  return (sampled, edgeIndex sampled.ordered_nodes sampled.edges)

section Numbers

variable {n_id : List Nat}

/-- The numbers of the ends of the edges between listed nodes. -/
def numbersOf (n_id : List Nat) (edges : List (Nat × Nat)) : List (Nat × Nat) :=
  edges.filterMap fun edge => (n_id.idxOf? edge.1).bind fun first =>
    (n_id.idxOf? edge.2).map fun second => (first, second)

theorem getD_set (map : List Int) {place : Nat} (held : place < map.length) (value : Int)
    (other : Nat) (default : Int) :
    (map.set place value).getD other default =
      if place = other then value else map.getD other default := by
  rw [List.getD_eq_getElem?_getD, List.getElem?_set]
  by_cases same : place = other
  · rw [if_pos same, if_pos same, if_pos (same ▸ held)]
    rfl
  · rw [if_neg same, if_neg same, List.getD_eq_getElem?_getD]

/-- The numbers of nodes are written over an array. -/
theorem numbered_get (distinct : n_id.Nodup) (first : Nat) {map : List Int}
    (within : ∀ node ∈ n_id, node < map.length) (node : Nat) :
    ((n_id.zipIdx first).foldl (fun map (node, index) => map.set node index) map).getD node (-1) =
      match n_id.idxOf? node with
      | some place => ((first + place : Nat) : Int)
      | none => map.getD node (-1) := by
  induction n_id generalizing first map with
  | nil => rfl
  | cons id n_id inductionHypothesis =>
    obtain ⟨absent, others⟩ := List.nodup_cons.mp distinct
    obtain ⟨held, rest⟩ := List.forall_mem_cons.mp within
    rw [List.zipIdx_cons, List.foldl_cons, inductionHypothesis others (first + 1) (by
      intro other member
      rw [List.length_set]
      exact rest other member), List.idxOf?_cons]
    by_cases same : id = node
    · subst same
      rw [List.idxOf?_eq_none_iff.mpr absent, if_pos (beq_self_eq_true id)]
      show (map.set id (first : Int)).getD id (-1) = _
      rw [getD_set map held, if_pos rfl]
      rfl
    · rw [if_neg (by simpa using same)]
      cases n_id.idxOf? node with
      | none =>
        show (map.set id (first : Int)).getD node (-1) = _
        rw [getD_set map held, if_neg same]
        rfl
      | some place =>
        show ((first + 1 + place : Nat) : Int) = (first + (place + 1) : Nat)
        omega

/-- A node is found in the array by its number, and no other id is. -/
theorem localMap_get (distinct : n_id.Nodup) {top : Nat} (within : ∀ node ∈ n_id, node ≤ top)
    (node : Nat) : (localMap top n_id).getD node (-1) =
      match n_id.idxOf? node with
      | some place => (place : Int)
      | none => -1 := by
  rw [localMap, numbered_get distinct 0 (by
    intro other member
    rw [List.length_replicate]
    exact Nat.lt_succ_of_le (within other member))]
  cases n_id.idxOf? node with
  | none =>
    simp only [List.getD_eq_getElem?_getD, List.getElem?_replicate]
    split <;> rfl
  | some place => simp

theorem localMap_length (top : Nat) (n_id : List Nat) : (localMap top n_id).length = top + 1 := by
  rw [localMap]
  have kept : ∀ (entries : List (Nat × Nat)) (map : List Int),
      (entries.foldl (fun map (node, index) => map.set node index) map).length = map.length := by
    intro entries
    induction entries with
    | nil => exact fun _ => rfl
    | cons entry entries inductionHypothesis =>
      intro map
      rw [List.foldl_cons, inductionHypothesis, List.length_set]
  rw [kept, List.length_replicate]

theorem le_top (n_id : List Nat) : ∀ node ∈ n_id, node ≤ n_id.max?.getD 0 := by
  intro node member
  cases greatest : n_id.max? with
  | none =>
    rw [List.max?_eq_none_iff.mp greatest] at member
    cases member
  | some top => exact (List.max?_le_iff greatest).mp (Nat.le_refl top) node member

theorem filterMap_stages {Item Half Made : Type} (keeps : Item → Bool) (make : Item → Half)
    (passes : Half → Bool) (finish : Half → Made) (items : List Item) :
    (((items.filter keeps).map make).filter passes).map finish =
      items.filterMap fun item =>
        if keeps item && passes (make item) then some (finish (make item)) else none := by
  induction items with
  | nil => rfl
  | cons item items inductionHypothesis =>
    rw [List.filterMap_cons, ← inductionHypothesis, List.filter_cons]
    cases keeps item with
    | false => rfl
    | true =>
      rw [if_pos rfl, List.map_cons, List.filter_cons]
      cases passes (make item) <;> rfl

/-- The array gives the edges between listed nodes their numbers. -/
theorem denseIndex_eq (distinct : n_id.Nodup) (edges : List (Nat × Nat)) :
    denseIndex n_id edges = numbersOf n_id edges := by
  have look (node : Nat) := localMap_get distinct (le_top n_id) node
  have size := localMap_length (n_id.max?.getD 0) n_id
  have inside {node place : Nat} (found : n_id.idxOf? node = some place) :
      node < (localMap (n_id.max?.getD 0) n_id).length := by
    obtain ⟨held, same, _⟩ := List.idxOf?_eq_some_iff.mp found
    rw [size, ← same]
    exact Nat.lt_succ_of_le (le_top n_id _ (List.getElem_mem held))
  simp only [denseIndex, numbersOf]
  rw [filterMap_stages]
  apply List.filterMap_congr
  intro edge _
  simp only [look]
  cases first : n_id.idxOf? edge.1 with
  | none => simp
  | some left =>
    cases second : n_id.idxOf? edge.2 with
    | none => simp
    | some right => simp [inside first, inside second]

/-- The dictionary gives the edges between listed nodes their numbers. -/
theorem dictIndex_eq (distinct : n_id.Nodup) (edges : List (Nat × Nat)) :
    dictIndex n_id edges = numbersOf n_id edges := by
  have entries : (Dict.ofEntries n_id.zipIdx : Dict Nat Nat).entries = n_id.zipIdx := by
    refine Dict.entries_foldl_set _ ?_ Dict.empty fun _ _ => List.not_mem_nil
    rw [List.zipIdx_map_fst]
    exact distinct
  have look (node : Nat) : (Dict.ofEntries n_id.zipIdx : Dict Nat Nat).get? node = n_id.idxOf? node := by
    apply Option.ext
    intro place
    rw [Dict.get_eq_some, entries, List.mem_zipIdx_iff_getElem?, List.idxOf?_eq_some_iff,
      List.getElem?_eq_some_iff]
    refine exists_congr fun held => ⟨fun same => ⟨same, fun before below again => ?_⟩, And.left⟩
    have same : n_id[place] = node := same
    rw [← same] at again
    have equal := (List.Nodup.getElem_inj_iff distinct).mp again
    omega
  simp only [dictIndex, numbersOf, Dict.contains, look]
  induction edges with
  | nil => rfl
  | cons edge edges inductionHypothesis =>
    rw [List.filterMap_cons, List.filter_cons, ← inductionHypothesis]
    cases first : n_id.idxOf? edge.1 with
    | none => simp
    | some left =>
      cases second : n_id.idxOf? edge.2 with
      | none => simp
      | some right => simp [first, second]

end Numbers

/-! ## The loops -/

/-- The readers of a relation hold its edges, each under its source and under its target. -/
structure Represents (edges : List (Nat × Nat)) (relation : Relation) : Prop where
  wellFormed : ∀ csr, csr ∈ relation.forward ∨ csr ∈ relation.reverse → WellFormed csr
  forward : ∀ csr ∈ relation.forward, ∀ source < csr.num_vertices, ∀ target,
    target ∈ csr.neighbors_of source ↔ (source, target) ∈ edges
  reverse : ∀ csr ∈ relation.reverse, ∀ target < csr.num_vertices, ∀ source,
    source ∈ csr.neighbors_of target ↔ (source, target) ∈ edges

/-- What holds of the nodes and the edges after every step. -/
structure Consistent (request : Request) (edges_of : String → List (Nat × Nat))
    (progress : Progress) : Prop where
  distinct : progress.ordered_nodes.Nodup
  starts : seedNodes request <+: progress.ordered_nodes
  few_nodes : ∀ most ∈ request.max_nodes, (progress.ordered_nodes.length : Int) ≤ most
  few_edges : ∀ most ∈ request.max_edges, (progress.edges.length : Int) ≤ most
  stored : ∀ edge ∈ progress.edges, ∃ edge_type ∈ request.edge_types, edge ∈ edges_of edge_type
  covered : request.max_nodes = none → ∀ edge ∈ progress.edges,
    edge.1 ∈ progress.ordered_nodes ∧ edge.2 ∈ progress.ordered_nodes

/-- New nodes are added behind the others, all of them if there is no cap. -/
theorem addNodes_spec (max_nodes : Option Int) (candidates : List Nat) {nodes : List Nat}
    (distinct : nodes.Nodup) (few : ∀ most ∈ max_nodes, (nodes.length : Int) ≤ most) :
    (addNodes max_nodes candidates nodes).Nodup ∧ nodes <+: addNodes max_nodes candidates nodes ∧
      (∀ most ∈ max_nodes, ((addNodes max_nodes candidates nodes).length : Int) ≤ most) ∧
        (max_nodes = none → ∀ node ∈ candidates, node ∈ addNodes max_nodes candidates nodes) := by
  induction candidates generalizing nodes with
  | nil => exact ⟨distinct, List.prefix_refl nodes, few, fun _ => List.forall_mem_nil _⟩
  | cons node candidates inductionHypothesis =>
    rw [addNodes]
    split
    · next known =>
      obtain ⟨once, behind, capped, all⟩ := inductionHypothesis distinct few
      refine ⟨once, behind, capped, fun uncapped => ?_⟩
      exact List.forall_mem_cons.mpr ⟨behind.subset known, all uncapped⟩
    · next unknown =>
      split
      · next spent =>
        refine ⟨distinct, List.prefix_refl nodes, few, fun uncapped => ?_⟩
        obtain ⟨most, given, _⟩ := spent
        rw [uncapped] at given
        cases given
      · next free =>
        have room (most : Int) (given : most ∈ max_nodes) :
            ((nodes ++ [node]).length : Int) ≤ most := by
          have below : ¬ most ≤ nodes.length := fun full => free ⟨most, given, full⟩
          rw [List.length_append, List.length_singleton]
          omega
        have longer : (nodes ++ [node]).Nodup := by
          rw [← List.concat_eq_append]
          exact List.Nodup.concat unknown distinct
        obtain ⟨once, behind, capped, all⟩ := inductionHypothesis longer room
        have before := (List.prefix_append nodes [node]).trans behind
        refine ⟨once, before, capped, fun uncapped => ?_⟩
        refine List.forall_mem_cons.mpr ⟨?_, all uncapped⟩
        exact behind.subset (List.mem_append_right _ (List.mem_singleton.mpr rfl))

variable {request : Request} {sources : Sources} {edges_of : String → List (Nat × Nat)}

/-- Taking up stored edges for which there is room keeps everything consistent. -/
theorem record_consistent {progress : Progress} (consistent : Consistent request edges_of progress)
    {taken : List (Nat × Nat)} (incoming : Bool)
    (stored : ∀ edge ∈ taken, ∃ edge_type ∈ request.edge_types, edge ∈ edges_of edge_type)
    (room : ∀ most ∈ request.max_edges, (progress.edges.length + taken.length : Int) ≤ most) :
    Consistent request edges_of (record request incoming progress taken) := by
  obtain ⟨once, behind, capped, all⟩ := addNodes_spec request.max_nodes
    (unique (taken.map Prod.fst ++ taken.map Prod.snd)) consistent.distinct consistent.few_nodes
  have edges : (record request incoming progress taken).edges = progress.edges ++ taken := rfl
  have few (most : Int) (given : most ∈ request.max_edges) :
      ((record request incoming progress taken).edges.length : Int) ≤ most := by
    have enough := room most given
    rw [edges, List.length_append]
    omega
  have sound : ∀ edge ∈ (record request incoming progress taken).edges,
      ∃ edge_type ∈ request.edge_types, edge ∈ edges_of edge_type := by
    intro edge member
    rcases List.mem_append.mp member with old | new
    · exact consistent.stored edge old
    · exact stored edge new
  by_cases full : Spent request.max_nodes progress.ordered_nodes.length
  · have nodes : (record request incoming progress taken).ordered_nodes = progress.ordered_nodes := by
      rw [record, if_pos full]
    refine ⟨nodes ▸ consistent.distinct, nodes ▸ consistent.starts, nodes ▸ consistent.few_nodes, few,
      sound, fun uncapped => ?_⟩
    obtain ⟨most, given, _⟩ := full
    rw [uncapped] at given
    cases given
  · have nodes : (record request incoming progress taken).ordered_nodes =
        addNodes request.max_nodes (unique (taken.map Prod.fst ++ taken.map Prod.snd))
          progress.ordered_nodes := by
      rw [record, if_neg full]
    refine ⟨nodes ▸ once, nodes ▸ consistent.starts.trans behind, nodes ▸ capped, few, sound, ?_⟩
    intro uncapped edge member
    rw [nodes]
    rcases List.mem_append.mp member with old | new
    · obtain ⟨first, second⟩ := consistent.covered uncapped edge old
      exact ⟨behind.subset first, behind.subset second⟩
    · constructor
      · exact all uncapped _ (mem_unique.mpr (List.mem_append_left _ (List.mem_map_of_mem new)))
      · exact all uncapped _ (mem_unique.mpr (List.mem_append_right _ (List.mem_map_of_mem new)))

/-- What the generator of random numbers gives for the hops. -/
def AllDraws (request : Request) (sources : Sources) : Prop :=
  ∀ hop fanout, request.fanouts[hop]? = some fanout → ∀ edge_type incoming,
    Draws fanout.toNat request.replace (sources.draw hop edge_type incoming)

/-- A call of a reader gives stored edges of its relation, from their sources to their targets. -/
theorem callReader_ok (known : request.strategy ∈ ["uniform", "first", "all"])
    {edge_type : String} (represents : Represents (edges_of edge_type) (sources.readers edge_type))
    {reader : CsrFile × Bool}
    (listed : reader ∈ gnnRelationReaders (sources.readers edge_type) request.direction)
    {frontier : List Nat} (distinct : frontier.Nodup)
    (inside : ∀ vertex ∈ frontier, vertex < reader.1.num_vertices) {hop : Nat} {fanout : Int}
    (allowed : 0 ≤ fanout)
    (draws : Draws fanout.toNat request.replace (sources.draw hop edge_type reader.2)) :
    ∃ pairs, callReader request sources hop fanout edge_type reader frontier = .ok pairs ∧
      ∀ edge ∈ pairs, edge ∈ edges_of edge_type := by
  obtain ⟨count, rfl⟩ := Int.eq_ofNat_of_zero_le allowed
  rw [Int.toNat_natCast] at draws
  have side : reader.1 ∈ (sources.readers edge_type).forward ∧ reader.2 = false ∨
      reader.1 ∈ (sources.readers edge_type).reverse ∧ reader.2 = true := by
    rcases List.mem_append.mp listed with out | back
    · split at out
      · obtain ⟨csr, isCsr, rfl⟩ := List.mem_map.mp out
        exact .inl ⟨Option.mem_toList.mp isCsr, rfl⟩
      · cases out
    · split at back
      · obtain ⟨csr, isCsr, rfl⟩ := List.mem_map.mp back
        exact .inr ⟨Option.mem_toList.mp isCsr, rfl⟩
      · cases back
  have wellFormed := represents.wellFormed reader.1 (side.imp And.left And.left)
  obtain ⟨kept, made, frontier_of, due⟩ := batch_due known wellFormed distinct inside draws
  have neighbor : ∀ pair ∈ (columnsOf reader.1 false kept).src_rep.zip
      (columnsOf reader.1 false kept).dst_flat,
        pair.1 < reader.1.num_vertices ∧ pair.2 ∈ reader.1.neighbors_of pair.1 := by
    intro pair member
    rw [zip_columns] at member
    obtain ⟨entry, isEntry, within⟩ := List.mem_flatMap.mp member
    obtain ⟨place, isPlace, rfl⟩ := List.mem_map.mp within
    have vertex := inside entry.1 (frontier_of ▸ List.mem_map_of_mem isEntry)
    refine ⟨vertex, ?_⟩
    rw [neighbors_of_column wellFormed vertex, column]
    exact List.mem_map_of_mem (List.mem_range'_1.mpr ((due entry isEntry).among isPlace))
  refine ⟨_, by rw [callReader, made, ok_bind]; rfl, fun edge member => ?_⟩
  rcases side with ⟨isForward, out⟩ | ⟨isReverse, back⟩
  · rw [out] at member
    obtain ⟨vertex, next⟩ := neighbor edge member
    exact (represents.forward reader.1 isForward edge.1 vertex edge.2).mp next
  · rw [back, if_pos rfl, ← List.zip_swap] at member
    obtain ⟨pair, isPair, rfl⟩ := List.mem_map.mp member
    obtain ⟨vertex, next⟩ := neighbor pair isPair
    exact (represents.reverse reader.1 isReverse pair.1 vertex pair.2).mp next

section Run

variable (known : request.strategy ∈ ["uniform", "first", "all"])
  (represents : ∀ edge_type ∈ request.edge_types,
    Represents (edges_of edge_type) (sources.readers edge_type))

/-- What is cut off leaves room. -/
theorem cut_room {progress : Progress} (free : ¬ Spent request.max_edges progress.edges.length)
    (pairs : List (Nat × Nat)) : ∀ most ∈ request.max_edges,
      (progress.edges.length + (cut request progress pairs).length : Int) ≤ most := by
  intro most given
  have below : ¬ most ≤ progress.edges.length := fun full => free ⟨most, given, full⟩
  have short : (cut request progress pairs).length ≤ (most - progress.edges.length).toNat := by
    rw [cut, Option.mem_def.mp given]
    exact List.length_take_le _ _
  omega

theorem cut_subset (progress : Progress) (pairs : List (Nat × Nat)) :
    cut request progress pairs ⊆ pairs := by
  rw [cut]
  split
  · exact List.Subset.refl pairs
  · exact (List.take_sublist _ pairs).subset

include known represents

theorem sampleReaders_ok {edge_type : String} (asked : edge_type ∈ request.edge_types)
    {frontier : List Nat} (distinct : frontier.Nodup) {hop : Nat} {fanout : Int}
    (allowed : 0 ≤ fanout)
    (draws : ∀ incoming, Draws fanout.toNat request.replace (sources.draw hop edge_type incoming))
    {readers : List (CsrFile × Bool)}
    (listed : ∀ reader ∈ readers,
      reader ∈ gnnRelationReaders (sources.readers edge_type) request.direction)
    {progress : Progress} (consistent : Consistent request edges_of progress) :
    ∃ after, sampleReaders request sources hop fanout frontier edge_type readers progress =
        .ok after ∧ Consistent request edges_of after := by
  induction readers generalizing progress with
  | nil => exact ⟨progress, rfl, consistent⟩
  | cons reader readers inductionHypothesis =>
    obtain ⟨here, others⟩ := List.forall_mem_cons.mp listed
    rw [sampleReaders]
    split
    · exact inductionHypothesis others consistent
    · obtain ⟨pairs, called, stored⟩ := callReader_ok known (represents edge_type asked) here
        (distinct.filter fun vertex => decide (vertex < reader.1.num_vertices))
        (fun vertex member => of_decide_eq_true (List.mem_filter.mp member).2) allowed (draws reader.2)
      rw [called, ok_bind]
      by_cases nothing : pairs = []
      · rw [if_pos nothing]
        exact inductionHypothesis others consistent
      · rw [if_neg nothing]
        by_cases full : Spent request.max_edges progress.edges.length
        · rw [if_pos full]
          exact ⟨progress, rfl, consistent⟩
        · have recorded := record_consistent consistent reader.2
            (fun edge member => ⟨edge_type, asked, stored edge (cut_subset progress pairs member)⟩)
            (cut_room full pairs)
          rw [if_neg full]
          dsimp only
          by_cases last : Spent request.max_edges
              (record request reader.2 progress (cut request progress pairs)).edges.length
          · rw [if_pos last]
            exact ⟨_, rfl, recorded⟩
          · rw [if_neg last]
            exact inductionHypothesis others recorded

theorem sampleTypes_ok {frontier : List Nat} (distinct : frontier.Nodup) {hop : Nat} {fanout : Int}
    (allowed : 0 ≤ fanout) (draws : ∀ edge_type incoming,
      Draws fanout.toNat request.replace (sources.draw hop edge_type incoming))
    {edge_types : List String} (asked : ∀ edge_type ∈ edge_types, edge_type ∈ request.edge_types)
    {progress : Progress} (consistent : Consistent request edges_of progress) :
    ∃ after, sampleTypes request sources hop fanout frontier edge_types progress = .ok after ∧
      Consistent request edges_of after := by
  induction edge_types generalizing progress with
  | nil => exact ⟨progress, rfl, consistent⟩
  | cons edge_type edge_types inductionHypothesis =>
    obtain ⟨here, others⟩ := List.forall_mem_cons.mp asked
    obtain ⟨sampled, goes, still⟩ := sampleReaders_ok known represents here distinct allowed
      (draws edge_type) (fun _ member => member) consistent
    rw [sampleTypes, goes, ok_bind]
    split
    · exact ⟨sampled, rfl, still⟩
    · exact inductionHypothesis others still

omit known represents in
theorem nextFrontier_nodup (progress : Progress) : (nextFrontier request progress).Nodup := by
  rw [nextFrontier]
  split
  · exact unique_nodup progress.next
  · exact (unique_nodup progress.next).filter _

/-- Every run of the loops ends with consistent nodes and edges. -/
theorem sampleHops_ok {fanouts : List Int} {hop : Nat} {frontier : List Nat}
    (distinct : frontier.Nodup) (allowed : ∀ fanout ∈ fanouts, 0 ≤ fanout)
    (draws : ∀ place fanout, fanouts[place]? = some fanout → ∀ edge_type incoming,
      Draws fanout.toNat request.replace (sources.draw (hop + place) edge_type incoming))
    {progress : Progress} (consistent : Consistent request edges_of progress) :
    ∃ after, sampleHops request sources hop frontier fanouts progress = .ok after ∧
      Consistent request edges_of after := by
  induction fanouts generalizing hop frontier progress with
  | nil => exact ⟨progress, rfl, consistent⟩
  | cons fanout fanouts inductionHypothesis =>
    obtain ⟨here, others⟩ := List.forall_mem_cons.mp allowed
    rw [sampleHops]
    split
    · exact ⟨progress, rfl, consistent⟩
    · have blank : Consistent request edges_of { progress with next := [] } :=
        ⟨consistent.distinct, consistent.starts, consistent.few_nodes, consistent.few_edges,
          consistent.stored, consistent.covered⟩
      have drawn := draws 0 fanout rfl
      rw [Nat.add_zero] at drawn
      obtain ⟨sampled, goes, still⟩ := sampleTypes_ok known represents distinct here drawn
        (fun _ member => member) blank
      rw [goes, ok_bind]
      split
      · exact ⟨sampled, rfl, still⟩
      · refine inductionHypothesis (nextFrontier_nodup sampled) others (fun place given isGiven => ?_)
          still
        rw [Nat.add_assoc, Nat.add_comm 1 place]
        exact draws (place + 1) given isGiven

end Run

/-! ## The subgraph -/

/-- The edge between two numbered nodes. -/
def back (n_id : List Nat) (column : Nat × Nat) : Nat × Nat :=
  (n_id.getD column.1 0, n_id.getD column.2 0)

theorem numbersOf_back {n_id : List Nat} {edges : List (Nat × Nat)} {column : Nat × Nat}
    (member : column ∈ numbersOf n_id edges) :
    (column.1 < n_id.length ∧ column.2 < n_id.length) ∧ back n_id column ∈ edges := by
  obtain ⟨edge, stored, made⟩ := List.mem_filterMap.mp member
  obtain ⟨first, isFirst, made⟩ := Option.bind_eq_some_iff.mp made
  obtain ⟨second, isSecond, rfl⟩ := Option.map_eq_some_iff.mp made
  obtain ⟨left, sameLeft, _⟩ := List.idxOf?_eq_some_iff.mp isFirst
  obtain ⟨right, sameRight, _⟩ := List.idxOf?_eq_some_iff.mp isSecond
  refine ⟨⟨left, right⟩, ?_⟩
  simp only [back, List.getD_eq_getElem?_getD, List.getElem?_eq_getElem left,
    List.getElem?_eq_getElem right, Option.getD_some, sameLeft, sameRight]
  exact stored

/-- Edges between listed nodes are all numbered. -/
theorem numbersOf_all {n_id : List Nat} {edges : List (Nat × Nat)}
    (covered : ∀ edge ∈ edges, edge.1 ∈ n_id ∧ edge.2 ∈ n_id) :
    (numbersOf n_id edges).map (back n_id) = edges := by
  induction edges with
  | nil => rfl
  | cons edge edges inductionHypothesis =>
    obtain ⟨⟨isFirst, isSecond⟩, others⟩ := List.forall_mem_cons.mp covered
    obtain ⟨first, foundFirst⟩ := Option.isSome_iff_exists.mp (List.isSome_idxOf?.mpr isFirst)
    obtain ⟨second, foundSecond⟩ := Option.isSome_iff_exists.mp (List.isSome_idxOf?.mpr isSecond)
    have numbered : numbersOf n_id (edge :: edges) = (first, second) :: numbersOf n_id edges := by
      rw [numbersOf, List.filterMap_cons, foundFirst, foundSecond]
      rfl
    obtain ⟨left, sameLeft, _⟩ := List.idxOf?_eq_some_iff.mp foundFirst
    obtain ⟨right, sameRight, _⟩ := List.idxOf?_eq_some_iff.mp foundSecond
    have own : back n_id (first, second) = edge := by
      simp only [back, List.getD_eq_getElem?_getD, List.getElem?_eq_getElem left,
        List.getElem?_eq_getElem right, Option.getD_some, sameLeft, sameRight]
    rw [numbered, List.map_cons, own, inductionHypothesis others]

theorem edgeIndex_eq {n_id : List Nat} (distinct : n_id.Nodup) (edges : List (Nat × Nat)) :
    edgeIndex n_id edges = numbersOf n_id edges := by
  rw [edgeIndex]
  split
  · next nothing =>
    rw [nothing]
    rfl
  · split
    · exact denseIndex_eq distinct edges
    · exact dictIndex_eq distinct edges

/-- What the sample ought to be: `n_id` lists the seeds and then other nodes, none twice, and the columns
of `edge_index` are numbers of nodes between which an edge is stored. -/
structure IsSample (request : Request) (edges_of : String → List (Nat × Nat)) (n_id : List Nat)
    (sampled edge_index : List (Nat × Nat)) : Prop where
  distinct : n_id.Nodup
  seeds : seedNodes request <+: n_id
  inside : ∀ column ∈ edge_index, column.1 < n_id.length ∧ column.2 < n_id.length
  stored : ∀ column ∈ edge_index, ∃ edge_type ∈ request.edge_types,
    back n_id column ∈ edges_of edge_type
  few_nodes : ∀ most ∈ request.max_nodes, (n_id.length : Int) ≤ most
  few_edges : ∀ most ∈ request.max_edges, (edge_index.length : Int) ≤ most
  kept : request.max_nodes = none → edge_index.map (back n_id) = sampled
  branches : denseIndex n_id sampled = dictIndex n_id sampled

/-- A request that passes its checks. -/
structure Allowed (request : Request) : Prop where
  direction : request.direction ∈ ["out", "in", "both"]
  strategy : request.strategy ∈ ["uniform", "first", "all"]
  some_fanout : request.fanouts ≠ []
  some_type : request.edge_types ≠ []
  fanouts : ∀ fanout ∈ request.fanouts, 0 ≤ fanout
  max_nodes : ∀ most ∈ request.max_nodes, 0 < most
  max_edges : ∀ most ∈ request.max_edges, 0 ≤ most

theorem checkRequest_ok (allowed : Allowed request) : checkRequest request = .ok () := by
  have fanouts : ¬ ∃ fanout ∈ request.fanouts, fanout < 0 := by
    rintro ⟨fanout, given, negative⟩
    exact absurd (allowed.fanouts fanout given) (Int.not_le.mpr negative)
  have nodes : ¬ ∃ most ∈ request.max_nodes, most ≤ 0 := by
    rintro ⟨most, given, low⟩
    exact absurd (allowed.max_nodes most given) (Int.not_lt.mpr low)
  have edges : ¬ ∃ most ∈ request.max_edges, most < 0 := by
    rintro ⟨most, given, negative⟩
    exact absurd (allowed.max_edges most given) (Int.not_le.mpr negative)
  rw [checkRequest, reject, if_neg (not_not_intro allowed.direction), ok_bind, reject,
    if_neg (not_not_intro allowed.strategy), ok_bind, reject, if_neg allowed.some_fanout, ok_bind,
    reject, if_neg allowed.some_type, ok_bind, reject, if_neg fanouts, ok_bind, reject, if_neg nodes,
    ok_bind, reject, if_neg edges]

theorem seedNodes_nodup (request : Request) : (seedNodes request).Nodup := by
  have distinct : request.seed_ids.reverse.dedup.reverse.Nodup :=
    List.nodup_reverse.mpr (List.nodup_dedup _)
  rw [seedNodes]
  split
  · exact distinct
  · exact distinct.sublist (List.take_sublist _ _)

/-- The three edges of the small file, under their sources and under their targets. -/
def smallRelation : Relation where
  forward := some smallFile
  reverse := some { offsets := [0, 1, 2, 3], neighbors := [2, 0, 0], eids := none }

def smallRequest : Request where
  seed_ids := [2, 2, 0]
  fanouts := [1, 0]
  edge_types := ["knows"]
  direction := "both"
  max_nodes := some 2
  max_edges := some 3

def smallSources : Sources where
  readers _ := smallRelation
  draw hop _ _ _ _ := if hop = 0 then [0] else []

end CaracalDB.Gnn
