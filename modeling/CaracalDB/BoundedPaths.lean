import CaracalDB.CsrReaders
import CaracalDB.KHop
import CaracalDB.NeighborSearch

/-!
# Paths between two nodes

`Database.paths` enumerates the paths from one node to another up to a depth and answers
the first of them in an order that puts shorter paths before longer ones, so that
`shortest_path` is its first answer. The enumeration records a path when a step reaches
the target, and never the path that has not left its source.
-/

namespace CaracalDB.BoundedPaths

open Database Neighbors Paths Walks

/-- The arguments that `paths` and `shortest_path` share. -/
structure Request where
  source : NodeRef
  target : NodeRef
  edge_types : List String
  direction : String := "out"
  edge_filters : Dict String Value := Dict.empty
  node_key_col : String := "node_id"

/-- The checks of `_paths`. -/
def checkPaths (request : Request) (max_depth limit : Int) : Except Raised Unit := do
  refuse (max_depth < 1)
    (.caracal { code := "CDB-6031", message := "paths max_depth must be >= 1" })
  refuse (limit < 0)
    (.caracal { code := "CDB-6020", message := "paths limit must be >= 0" })
  refuse (request.direction ∉ ["out", "in", "both"]) (.caracal
    { code := "CDB-6020"
      message := "direction must be 'out', 'in', or 'both', got " ++ Value.quoted request.direction })

/-- The paths that `_enumerate_path_rows(db, ...)` makes rows of, as long as there is fuel. -/
def enumeratePaths (fuel : Nat) (source_id target_id : Int) (adjacency : Adjacency)
    (max_depth : Nat) : Option (List Path) :=
  SimplePaths.search EdgeStep.next (stepsFrom adjacency) max_depth
    (fun path => path.current = target_id) fuel [SimplePaths.start source_id] []

/-- The row of a path. -/
def rowOf (services : Services) (lookup : Dict Int NodeInfo) (path : Path) : Row :=
  pathResultRow services (lookup.mapValues NodeInfo.node_id) path.nodes path.edges

/-- `_paths(db, ..., score=None)`: nothing, when the enumeration has run out of fuel. -/
def paths (services : Services) (fuel : Nat) (db : Database) (pool : BufferPool) (request : Request)
    (max_depth limit : Int) : Except Raised (Option (List Row)) := do
  checkPaths request max_depth limit
  let id_map ← idMap services.runtime request.node_key_col db
  let source_id ← resolveGraphNodeId id_map request.node_key_col request.source
  let target_id ← resolveGraphNodeId id_map request.node_key_col request.target
  let adjacency ← typedAdjacency services.runtime db pool request.edge_types request.direction
    request.edge_filters
  let lookup ← nodeInfos services.runtime db request.node_key_col
  return (enumeratePaths fuel source_id target_id adjacency max_depth.toNat).map fun found =>
    ((ranked pathKey found).take limit.toNat).map (rowOf services lookup)

/-- `max_depth if max_depth is not None else max(1, _global_vertex_count(db))` -/
def depthBound {runtime : Runtime} (greatest : Greatest runtime) (db : Database) :
    Option Int → Except Raised Int
  | some max_depth => .ok max_depth
  | none => do return max 1 (← globalVertexCount greatest db)

/-- `_shortest_path(db, ...)`: nothing, when the enumeration has run out of fuel. -/
def shortestPath (services : Services) (greatest : Greatest services.runtime) (fuel : Nat)
    (db : Database) (pool : BufferPool) (request : Request) (max_depth : Option Int) :
    Except Raised (Option (Option Row)) := do
  refuse (∃ depth ∈ max_depth, depth < 1)
    (.caracal { code := "CDB-6031", message := "shortest_path max_depth must be >= 1" })
  let bound ← depthBound greatest db max_depth
  return (← paths services fuel db pool request bound 1).map List.head?

/-! ## What the answers ought to be -/

/-- A simple path of some edges between two nodes. -/
structure Connects (edges : List StoredEdge) (direction : String) (source target : Int)
    (max_depth : Nat) (path : Path) : Prop where
  simple : SimplePaths.Simple EdgeStep.next (allowedSteps edges direction) source path.edges
  made : path = SimplePaths.extendAll EdgeStep.next (SimplePaths.start source) path.edges
  ends : path.current = target
  short : path.edges.length ≤ max_depth

/-- The first rows, by the order of their keys, of those of all simple paths. -/
def FirstPaths (services : Services) (lookup : Dict Int NodeInfo) (edges : List StoredEdge)
    (direction : String) (source target : Int) (max_depth limit : Nat) (rows : List Row) : Prop :=
  ∃ all : List Path, all.Nodup ∧
    (∀ path, path ∈ all ↔ Connects edges direction source target max_depth path) ∧
      all.Pairwise (fun first second => pathKey first ≤ pathKey second) ∧
        rows = (all.take limit).map (rowOf services lookup)

/-- A matching edge leads from one node to another. -/
abbrev Reaches (edges : List StoredEdge) (direction : String) : Int → Int → Prop :=
  SimplePaths.Leads EdgeStep.next (allowedSteps edges direction)

/-- The adjacency of the Rust engine for some edges. -/
structure HoldsEdges (csr : Graph.CsrFile) (edges : List StoredEdge) : Prop where
  shaped : csr.Shaped
  sound : csr.Sound
  vertices : ∀ edge ∈ edges, 0 ≤ edge.src ∧ 0 ≤ edge.dst
  linked : ∀ source target : Nat, Graph.Linked csr source target ↔
    ∃ edge ∈ edges, edge.src = source ∧ edge.dst = target

/-- A row of a path with as few edges as there can be, exactly if there is one within the bound, and
the same as what the Rust engine finds. -/
structure ShortestPath (services : Services) (lookup : Dict Int NodeInfo) (edges : List StoredEdge)
    (direction : String) (source target : Int) (bound : Nat) (answer : Option Row) : Prop where
  found : answer.isSome = true ↔
    ∃ length ≤ bound, Walk (Reaches edges direction) length source target
  minimal : ∀ row ∈ answer, ∃ path, Connects edges direction source target bound path ∧
    row = rowOf services lookup path ∧
      ∀ length, Walk (Reaches edges direction) length source target → path.edges.length ≤ length
  engine : direction = "out" → ∀ csr, HoldsEdges csr edges → ∀ first last : Nat,
    source = first → target = last → first < csr.num_vertices → last < csr.num_vertices →
      ∀ fuel, csr.num_vertices < fuel → ∃ found,
        Graph.csrShortestPath csr first last bound fuel = .ok found ∧
          answer.map (fun row => row.read "depth") =
            found.map fun path => .int (path.nodes.length - 1 : Nat)

/-! ## Walks of the Rust engine -/

theorem reaches_out {csr : Graph.CsrFile} {edges : List StoredEdge} (holds : HoldsEdges csr edges)
    {source : Nat} {target : Int} : Reaches edges "out" source target ↔
      ∃ stop : Nat, target = stop ∧ Graph.Linked csr source stop := by
  simp only [holds.linked]
  constructor
  · rintro ⟨step, allowed, rfl⟩
    obtain ⟨pair, among, rfl⟩ := List.mem_map.mp allowed
    obtain ⟨inside, from_source⟩ := List.mem_filter.mp among
    obtain ⟨edge, stored, isStep⟩ := List.mem_flatMap.mp inside
    simp only [stepsOf] at isStep
    obtain rfl : pair = _ := by simpa using isStep
    have positive := (holds.vertices edge stored).2
    exact ⟨edge.dst.toNat, (Int.toNat_of_nonneg positive).symm, edge, stored,
      of_decide_eq_true from_source, (Int.toNat_of_nonneg positive).symm⟩
  · rintro ⟨stop, rfl, edge, stored, starts, ends⟩
    refine ⟨{ edge_id := edge.edge_id, edge_type := edge.edge_type, src := edge.src, dst := edge.dst
              properties := edge.properties, next := edge.dst, direction := "out" }, ?_, ends⟩
    refine List.mem_map.mpr ⟨(edge.src, _), List.mem_filter.mpr ⟨?_, decide_eq_true starts⟩, rfl⟩
    exact List.mem_flatMap.mpr ⟨edge, stored, by simp [stepsOf]⟩

theorem walk_out {csr : Graph.CsrFile} {edges : List StoredEdge} (holds : HoldsEdges csr edges)
    {length source : Nat} {target : Int} : Walk (Reaches edges "out") length source target ↔
      ∃ stop : Nat, target = stop ∧ Walk (Graph.Linked csr) length source stop := by
  induction length generalizing target with
  | zero =>
    simp only [walk_zero]
    constructor
    · rintro rfl
      exact ⟨source, rfl, rfl⟩
    · rintro ⟨stop, rfl, rfl⟩
      rfl
  | succ length inductionHypothesis =>
    simp only [walk_succ, inductionHypothesis]
    constructor
    · rintro ⟨_, ⟨middle, rfl, before⟩, last⟩
      obtain ⟨stop, same, linked⟩ := (reaches_out holds).mp last
      exact ⟨stop, same, middle, before, linked⟩
    · rintro ⟨stop, same, middle, before, linked⟩
      exact ⟨middle, ⟨middle, rfl, before⟩, (reaches_out holds).mpr ⟨stop, same, linked⟩⟩

/-- The edges of a path are a walk. -/
theorem walk_of_follows {csr : Graph.CsrFile} {start stop : Nat} {indices : List Nat}
    {path : Graph.GraphPath} (follows : Graph.Follows csr start stop indices path) :
    Walk (Graph.Linked csr) indices.length start stop := by
  have count := follows.count
  have walked (place : Nat) (within : place ≤ indices.length) :
      ∃ node, path.nodes[place]? = some node ∧ Walk (Graph.Linked csr) place start node := by
    induction place with
    | zero =>
      have first := follows.first
      rw [List.head?_eq_getElem?] at first
      exact ⟨start, first, .here start⟩
    | succ place inductionHypothesis =>
      obtain ⟨node, held, before⟩ := inductionHypothesis (Nat.le_of_succ_le within)
      obtain ⟨source, target, from_node, to_node, along⟩ :=
        follows.steps place _ (List.getElem?_eq_getElem (show place < indices.length by omega))
      rw [held] at from_node
      cases from_node
      exact ⟨target, to_node, .further before ⟨_, along⟩⟩
  obtain ⟨node, held, walk⟩ := walked indices.length (Nat.le_refl _)
  have last := follows.last
  rw [List.getLast?_eq_getElem?, count, Nat.add_sub_cancel, held] at last
  cases last
  exact walk

/-! ## The enumeration -/

section Enumeration

variable {services : Services} {lookup : Dict Int NodeInfo} {edges : List StoredEdge}
  {direction : String} {source target : Int} {max_depth : Nat}

/-- The path of some steps. -/
theorem connects_extendAll {rest : List EdgeStep}
    (simple : SimplePaths.Simple EdgeStep.next (allowedSteps edges direction) source rest)
    (short : rest.length ≤ max_depth) (ends : (rest.map EdgeStep.next).getLastD source = target) :
    Connects edges direction source target max_depth
      (SimplePaths.extendAll EdgeStep.next (SimplePaths.start source) rest) := by
  have own : (SimplePaths.extendAll EdgeStep.next (SimplePaths.start source) rest).edges = rest :=
    SimplePaths.extendAll_edges _ _ _
  refine ⟨?_, ?_, ?_, ?_⟩
  · rw [own]
    exact simple
  · rw [own]
  · rw [SimplePaths.extendAll_current]
    exact ends
  · rw [own]
    exact short

theorem Connects.walk {path : Path} (connects : Connects edges direction source target max_depth path) :
    Walk (Reaches edges direction) path.edges.length source target := by
  refine (SimplePaths.walk_iff_follows _ _).mpr ⟨path.edges, connects.simple.1, rfl, ?_⟩
  have current := connects.ends
  rw [connects.made, SimplePaths.extendAll_current] at current
  exact current

theorem Connects.of_walk {length : Nat} (walk : Walk (Reaches edges direction) length source target)
    (short : length ≤ max_depth) :
    ∃ path, Connects edges direction source target max_depth path ∧ path.edges.length ≤ length := by
  obtain ⟨rest, simple, shorter, ends⟩ := SimplePaths.simple_of_walk _ _ walk
  refine ⟨_, connects_extendAll simple (shorter.trans short) ends, ?_⟩
  rw [SimplePaths.extendAll_edges]
  exact shorter

/-- With enough fuel the paths are all those of at least one edge. -/
theorem enumeratePaths_ok (distinct : DistinctEdges edges) (direction : String)
    (source target : Int) (max_depth : Nat) :
    ∃ enough, ∀ fuel, enough ≤ fuel → ∃ found,
      enumeratePaths fuel source target (adjacencyOf direction edges) max_depth = some found ∧
        found.Nodup ∧ ∀ path, path ∈ found ↔
          path.edges ≠ [] ∧ Connects edges direction source target max_depth path := by
  obtain ⟨enough, recorded⟩ := SimplePaths.search_start EdgeStep.next
    (stepsFrom (adjacencyOf direction edges)) (fun path => path.current = target) max_depth
    (stepsFrom_nodup distinct) source
  refine ⟨enough, fun fuel more => ?_⟩
  obtain ⟨found, ends, once, exact'⟩ := recorded fuel more
  refine ⟨found, ends, once.of_map _, fun path => ?_⟩
  rw [exact']
  constructor
  · rintro ⟨rest, filled, short, simple, rfl, accepted⟩
    rw [SimplePaths.extendAll_edges]
    refine ⟨filled, connects_extendAll ((simple_iff source rest).mp simple) short ?_⟩
    have current := of_decide_eq_true accepted
    rw [SimplePaths.extendAll_current] at current
    exact current
  · rintro ⟨filled, connects⟩
    exact ⟨path.edges, filled, connects.short, (simple_iff source path.edges).mpr connects.simple,
      connects.made, decide_eq_true connects.ends⟩

/-- Between different nodes no path is without edges. -/
theorem Connects.filled {path : Path} (connects : Connects edges direction source target max_depth path)
    (apart : source ≠ target) : path.edges ≠ [] := by
  intro nothing
  have current := connects.ends
  rw [connects.made, nothing] at current
  exact apart current

theorem length_le_of_key {first second : Path} (before : pathKey first ≤ pathKey second) :
    first.edges.length ≤ second.edges.length := by
  rcases Prod.Lex.le_iff.mp before with shorter | ⟨same, _⟩
  · exact Nat.le_of_lt shorter
  · exact Nat.le_of_eq same

theorem rowOf_depth (services : Services) (lookup : Dict Int NodeInfo) (path : Path) :
    (rowOf services lookup path).read "depth" = .int path.edges.length := by
  simp [rowOf, pathResultRow, Dict.ofEntries, Row.read, Dict.get_set]

variable {found : List Path}

theorem firstPaths (apart : source ≠ target) (once : found.Nodup)
    (all : ∀ path, path ∈ found ↔
      path.edges ≠ [] ∧ Connects edges direction source target max_depth path) (limit : Nat) :
    FirstPaths services lookup edges direction source target max_depth limit
      (((ranked pathKey found).take limit).map (rowOf services lookup)) := by
  refine ⟨ranked pathKey found, (ranked_perm pathKey found).nodup_iff.mpr once, ?_,
    ranked_sorted pathKey found, rfl⟩
  intro path
  rw [mem_ranked, all]
  exact and_iff_right_of_imp fun connects => connects.filled apart

/-- The first of all paths is a shortest one. -/
theorem shortestPath_first (apart : source ≠ target)
    (all : ∀ path, path ∈ found ↔
      path.edges ≠ [] ∧ Connects edges direction source target max_depth path) :
    ShortestPath services lookup edges direction source target max_depth
      ((ranked pathKey found).head?.map (rowOf services lookup)) := by
  have among (path : Path) : path ∈ ranked pathKey found ↔
      Connects edges direction source target max_depth path := by
    rw [mem_ranked, all]
    exact and_iff_right_of_imp fun connects => connects.filled apart
  have best (path : Path) (first : (ranked pathKey found).head? = some path) :
      Connects edges direction source target max_depth path ∧
        ∀ length, Walk (Reaches edges direction) length source target →
          path.edges.length ≤ length := by
    obtain ⟨others, isFirst⟩ := List.head?_eq_some_iff.mp first
    have connects := (among path).mp (isFirst ▸ List.mem_cons_self)
    refine ⟨connects, fun length walk => ?_⟩
    by_cases short : length ≤ max_depth
    · obtain ⟨other, isPath, shorter⟩ := Connects.of_walk walk short
      have sorted := ranked_sorted pathKey found
      rw [isFirst] at sorted
      have member := (among other).mpr isPath
      rw [isFirst] at member
      rcases List.mem_cons.mp member with rfl | later
      · exact shorter
      · exact (length_le_of_key (List.rel_of_pairwise_cons sorted later)).trans shorter
    · have within := connects.short
      omega
  have reached : ((ranked pathKey found).head?.map (rowOf services lookup)).isSome = true ↔
      ∃ length ≤ max_depth, Walk (Reaches edges direction) length source target := by
    rw [Option.isSome_map, List.isSome_head?]
    constructor
    · intro filled
      obtain ⟨path, member⟩ := List.exists_mem_of_ne_nil _ filled
      have connects := (among path).mp member
      exact ⟨_, connects.short, connects.walk⟩
    · rintro ⟨length, short, walk⟩ nothing
      obtain ⟨path, connects, _⟩ := Connects.of_walk walk short
      have member := (among path).mpr connects
      rw [nothing] at member
      cases member
  refine ⟨reached, ?_, ?_⟩
  · intro row given
    obtain ⟨path, first, rfl⟩ := Option.map_eq_some_iff.mp given
    obtain ⟨connects, least⟩ := best path first
    exact ⟨path, connects, rfl, least⟩
  · rintro rfl csr holds start stop rfl rfl start_inside stop_inside fuel enough
    obtain ⟨answer, shortest, runs⟩ := Graph.shortest_path_found holds.shaped holds.sound
      start_inside stop_inside max_depth
    refine ⟨answer, runs fuel enough, ?_⟩
    have both {length : Nat} : Walk (Reaches edges "out") length (start : Int) (stop : Int) ↔
        Walk (Graph.Linked csr) length start stop := by
      rw [walk_out holds]
      simp
    have same : ((ranked pathKey found).head?.map (rowOf services lookup)).isSome = answer.isSome := by
      rw [Bool.eq_iff_iff, reached, shortest.found]
      simp only [both]
    cases given : answer with
    | none =>
      rw [given] at same
      rw [Option.map_none, Option.map_eq_none_iff]
      exact Option.isNone_iff_eq_none.mp (Option.isSome_eq_false_iff.mp (same.trans rfl))
    | some route =>
      rw [given, Option.isSome_some, Option.isSome_map] at same
      obtain ⟨path, first⟩ := Option.isSome_iff_exists.mp same
      obtain ⟨connects, least⟩ := best path first
      obtain ⟨indices, follows, _, fewest⟩ := shortest.path route given
      have lower := least _ (both.mpr (walk_of_follows follows))
      have upper := fewest _ (both.mp connects.walk)
      have count := follows.count
      have depth : path.edges.length = route.nodes.length - 1 := by omega
      rw [first, Option.map_some, Option.map_some, Option.map_some, rowOf_depth, depth]

end Enumeration

/-! ## The answers -/

/-- What `paths` and `shortest_path` read before they enumerate: the nodes that the request names,
its matching edges as they are stored, and the ids of the nodes. -/
structure ReadsGraph (services : Services) (db : Database) (pool : BufferPool) (request : Request)
    (source target : Int) (edges : List (List StoredEdge)) (lookup : Dict Int NodeInfo) : Prop where
  nodes : ∃ id_map, idMap services.runtime request.node_key_col db = .ok id_map ∧
    resolveGraphNodeId id_map request.node_key_col request.source = .ok source ∧
      resolveGraphNodeId id_map request.node_key_col request.target = .ok target
  current : ∀ relation ∈ request.edge_types, ∀ table, pool.get? relation = some table →
    storedTable db relation = .ok table
  matching : request.edge_types.mapM (fun relation => do
    edgesOf services.runtime request.edge_filters relation (← storedTable db relation)) = .ok edges
  distinct : DistinctEdges edges.flatten
  infos : nodeInfos services.runtime db request.node_key_col = .ok lookup
  direction : request.direction ∈ ["out", "in", "both"]

section Answers

variable {services : Services} {db : Database} {pool : BufferPool} {request : Request}
  {source target : Int} {edges : List (List StoredEdge)} {lookup : Dict Int NodeInfo}

/-- What `paths` answers, in terms of the enumeration. -/
theorem paths_ok (reads : ReadsGraph services db pool request source target edges lookup)
    {max_depth limit : Int} (deep : 1 ≤ max_depth) (counted : 0 ≤ limit) (fuel : Nat) :
    paths services fuel db pool request max_depth limit =
      .ok ((enumeratePaths fuel source target (adjacencyOf request.direction edges.flatten)
        max_depth.toNat).map fun found =>
          ((ranked pathKey found).take limit.toNat).map (rowOf services lookup)) := by
  obtain ⟨id_map, mapped, from_source, to_target⟩ := reads.nodes
  have passed : checkPaths request max_depth limit = .ok () := by
    rw [checkPaths, refuse, if_neg (by omega), ok_bind, refuse, if_neg (by omega), ok_bind, refuse,
      if_neg (not_not_intro reads.direction)]
  rw [paths, passed, ok_bind, mapped, ok_bind, from_source, ok_bind, to_target, ok_bind,
    typedAdjacency_ok reads.current reads.matching, ok_bind, reads.infos, ok_bind]
  rfl

/-- The paths between two nodes are answered and a shortest one is found, as the Rust engine finds
it, exactly if the nodes differ. -/
theorem paths_found_iff (greatest : Greatest services.runtime)
    (reads : ReadsGraph services db pool request source target edges lookup)
    (max_depth limit bound : Int) (depth : Option Int) (deep : 1 ≤ max_depth) (counted : 0 ≤ limit)
    (asked : ∀ given ∈ depth, 1 ≤ given) (bounded : depthBound greatest db depth = .ok bound) :
    ∃ enough, ∀ fuel, enough ≤ fuel → ∃ rows answer,
      paths services fuel db pool request max_depth limit = .ok (some rows) ∧
        shortestPath services greatest fuel db pool request depth = .ok (some answer) ∧
          ((FirstPaths services lookup edges.flatten request.direction source target
              max_depth.toNat limit.toNat rows ∧
            ShortestPath services lookup edges.flatten request.direction source target
              bound.toNat answer) ↔ source ≠ target) := by
  have positive : 1 ≤ bound := by
    cases depth with
    | some given =>
      cases bounded
      exact asked _ rfl
    | none =>
      obtain ⟨count, _, same⟩ := except_bind_ok bounded
      cases same
      exact le_max_left 1 count
  obtain ⟨enough, all⟩ := enumeratePaths_ok reads.distinct request.direction source target
    max_depth.toNat
  obtain ⟨further, nearest⟩ := enumeratePaths_ok reads.distinct request.direction source target
    bound.toNat
  refine ⟨max enough further, fun fuel more => ?_⟩
  obtain ⟨found, ends, once, isPath⟩ := all fuel (le_of_max_le_left more)
  obtain ⟨near, nearEnds, _, isNear⟩ := nearest fuel (le_of_max_le_right more)
  refine ⟨((ranked pathKey found).take limit.toNat).map (rowOf services lookup),
    (ranked pathKey near).head?.map (rowOf services lookup), ?_, ?_, ?_⟩
  · rw [paths_ok reads deep counted, ends]
    rfl
  · have unrefused : ¬ ∃ given ∈ depth, given < 1 := by
      rintro ⟨given, isDepth, low⟩
      have := asked given isDepth
      omega
    rw [shortestPath, refuse, if_neg unrefused, ok_bind, bounded, ok_bind,
      paths_ok reads positive (by decide), nearEnds, ok_bind, Option.map_some, Option.map_some,
      List.head?_map, List.head?_take]
    rfl
  · constructor
    · rintro ⟨_, shortest⟩ rfl
      -- no enumerated path leads back to its source
      have nothing : near = [] := by
        rw [List.eq_nil_iff_forall_not_mem]
        intro path member
        obtain ⟨filled, connects⟩ := (isNear path).mp member
        obtain ⟨step, others, isEdges⟩ := List.exists_cons_of_ne_nil filled
        have returned := connects.ends
        rw [connects.made, SimplePaths.extendAll_current, isEdges] at returned
        have simple := (List.nodup_cons.mp connects.simple.2).1
        rw [isEdges] at simple
        apply simple
        rw [← returned, List.map_cons, List.getLastD_cons]
        exact List.getLastD_mem_cons
      have reached := shortest.found.mpr ⟨0, Nat.zero_le _, .here source⟩
      rw [nothing] at reached
      cases reached
    · intro apart
      exact ⟨firstPaths apart once isPath limit.toNat, shortestPath_first apart isNear⟩

end Answers

/-! ## Two friends -/

/-- A maximum of no other lists than those of integers. -/
def integersOnly : Greatest plainServices.runtime where
  max _ := .error (.typeError "not integers")
  above _ _ _ _ found := by cases found

/-- The paths from one of the friends to another. -/
def friendsRequest (source target : String) : Request where
  source := .value (.str source)
  target := .value (.str target)
  edge_types := ["knows"]

def friendInfos : Dict Int NodeInfo :=
  Dict.ofEntries [(0, { node_id := .str "ada", node_type := some "Person" }),
    (1, { node_id := .str "bob", node_type := some "Person" })]

theorem friends_read : ReadsGraph plainServices friends Dict.empty (friendsRequest "ada" "bob") 0 1
    [[friendship]] friendInfos where
  nodes := by
    have named : (do
        let ids ← idMap plainServices.runtime "node_id" friends
        let source ← resolveGraphNodeId ids "node_id" (.value (.str "ada"))
        let target ← resolveGraphNodeId ids "node_id" (.value (.str "bob"))
        return (source, target)) = .ok ((0 : Int), (1 : Int)) := by decide +kernel
    obtain ⟨id_map, mapped, rest⟩ := except_bind_ok named
    obtain ⟨source, from_source, rest⟩ := except_bind_ok rest
    obtain ⟨target, to_target, same⟩ := except_bind_ok rest
    cases same
    exact ⟨id_map, mapped, from_source, to_target⟩
  current _ _ _ kept := by cases kept
  matching := by decide +kernel
  distinct := List.nodup_singleton _
  infos := by decide +kernel
  direction := by decide

/-- The path between the friends is found. -/
theorem friends_found :
    ∃ enough, ∀ fuel, enough ≤ fuel → ∃ rows answer,
      paths plainServices fuel friends Dict.empty (friendsRequest "ada" "bob") 2 20 =
          .ok (some rows) ∧
        shortestPath plainServices integersOnly fuel friends Dict.empty (friendsRequest "ada" "bob")
            none = .ok (some answer) ∧
          ((FirstPaths plainServices friendInfos [[friendship]].flatten "out" 0 1 2 20 rows ∧
            ShortestPath plainServices friendInfos [[friendship]].flatten "out" 0 1 2 answer) ↔
              (0 : Int) ≠ 1) :=
  paths_found_iff integersOnly friends_read 2 20 2 none (by decide) (by decide) (by simp)
    (by decide +kernel)

/-- From a friend to the same friend no path is found, where the Rust engine finds one without
edges. -/
theorem own_path_missed :
    shortestPath plainServices integersOnly 20 friends Dict.empty (friendsRequest "ada" "ada")
        none = .ok (some none) ∧
      Walk (Reaches [friendship] "out") 0 0 0 ∧
        Graph.csrShortestPath (KHop.ofArcs true [{ src := 0, dst := 1, eid := 0 }] 2) 0 0 2 20 =
          .ok (some { nodes := [0], eids := [] }) := by
  refine ⟨by decide +kernel, .here 0, by decide +kernel⟩

end CaracalDB.BoundedPaths
