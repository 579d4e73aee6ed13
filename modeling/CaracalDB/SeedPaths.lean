import CaracalDB.BoundedPaths
import CaracalDB.TopRanked

/-!
# Paths from several nodes

`Database.paths` with several sources enumerates the simple paths from each of them to nodes of
given classes, ranks the paths of each source by their scores and answers the first of all. A
bound on the paths of one source keeps the best of them.
-/

namespace CaracalDB.SeedPaths

open Database Neighbors Paths

/-- The arguments of `paths` with `sources` and `target_node_types`. -/
structure Request where
  sources : List NodeRef
  target_node_types : List String
  edge_types : List String
  max_depth : Int
  limit : Int := 20
  direction : String := "out"
  edge_filters : Dict String Value := Dict.empty
  node_key_col : String := "node_id"
  score : Option String := none
  score_property : String := "weight"
  order : Option String := some "desc"
  return_properties : List String := []
  max_paths_per_seed : Option Int := none

/-! ## Scores -/

inductive ScoreMode where
  | sum
  | average
  | min
  | max
  | product
deriving DecidableEq

inductive ScoreOrder where
  | asc
  | desc
deriving DecidableEq

/-- `_normalize_path_score_mode(mode)` -/
def normalizePathScoreMode (lower : String → String) : Option String →
    Except Raised (Option ScoreMode)
  | none => .ok none
  | some mode =>
      match lower mode with
      | "sum" => .ok (some .sum)
      | "average" => .ok (some .average)
      | "avg" => .ok (some .average)
      | "min" => .ok (some .min)
      | "max" => .ok (some .max)
      | "product" => .ok (some .product)
      | _ => .error (.caracal
          { code := "CDB-6020"
            message := "unsupported path score aggregation: " ++ Value.quoted mode })

/-- `_normalize_score_order(order)` -/
def normalizeScoreOrder (lower : String → String) : Option String →
    Except Raised (Option ScoreOrder)
  | none => .ok none
  | some order =>
      match lower order with
      | "asc" => .ok (some .asc)
      | "desc" => .ok (some .desc)
      | _ => .error (.caracal
          { code := "CDB-6020"
            message := "score order must be asc or desc: " ++ Value.quoted order })

/-- The score of some weights in a mode. -/
def ScoreMode.combine : ScoreMode → List ℚ → Option ℚ
  | _, [] => none
  | .sum, weights => some (weights.foldl (· + ·) 0)
  | .average, weights => some (weights.foldl (· + ·) 0 / ((weights.length : Int) : ℚ))
  | .min, first :: rest =>
      some (rest.foldl (fun least weight => if weight < least then weight else least) first)
  | .max, first :: rest =>
      some (rest.foldl (fun greatest weight => if greatest < weight then weight else greatest) first)
  | .product, weights => some (weights.foldl (· * ·) 1)

/-- `_path_score(path_edges, mode=..., property_name=...)` -/
def pathScore (runtime : Runtime) (path_edges : List EdgeStep) (mode : Option ScoreMode)
    (property_name : String) : Except Raised (Option ℚ) :=
  match mode with
  | none => .ok none
  | some mode => do
      let weights ← path_edges.mapM (edgeNumericProperty runtime property_name)
      return mode.combine weights

/-! ## Rows -/

/-- What `_node_lookup` holds of a node, its row included. -/
structure NodeEntry where
  node_id : Value
  node_type : Option String
  row : Row
deriving DecidableEq

def lookUpEntry (runtime : Runtime) (node_key_col class_name : String) (lookup : Dict Int NodeEntry)
    (row : Row) : Except Raised (Dict Int NodeEntry) := do
  let gid ← runtime.toInt (internalId row)
  return lookup.set gid
    { node_id := (row.get? node_key_col).getD (.int gid), node_type := some class_name, row }

/-- `_node_lookup(db, node_key_col=...)`, when none is cached. -/
def nodeEntries (runtime : Runtime) (db : Database) (node_key_col : String) :
    Except Raised (Dict Int NodeEntry) :=
  db.list_node_stores.foldlM (fun lookup class_name => do
    (← nodeTableForLocal db class_name).foldlM (lookUpEntry runtime node_key_col class_name) lookup)
    Dict.empty

/-- `node_lookup.get(gid, _fallback_node_info(gid))` -/
def nodeEntry (lookup : Dict Int NodeEntry) (gid : Int) : NodeEntry :=
  (lookup.get? gid).getD { node_id := .int gid, node_type := none, row := Dict.empty }

/-- A row of the answer; its score is the score of its path. -/
structure PathRow where
  source_node_id : String
  source_node_type : Option String
  source_internal_id : Int
  target_node_id : String
  target_node_type : Option String
  target_internal_id : Int
  depth : Nat
  path_node_ids : List String
  internal_node_ids : List Int
  path_edge_ids : List Int
  path_edge_types : List String
  path_score : Option ℚ
  rank : Nat
  selected_properties : Dict String Value

/-- How the rows of paths are made. -/
structure Scoring where
  lookup : Dict Int NodeEntry
  target_types : List String
  score_mode : Option ScoreMode
  score_order : Option ScoreOrder
  score_property : String
  return_properties : List String

/-- `_multi_seed_path_result_row(...)` -/
def pathResultRow (runtime : Runtime) (scoring : Scoring) (source_id : Int) (path : Path) :
    Except Raised PathRow := do
  let source_info := nodeEntry scoring.lookup source_id
  let target_info := nodeEntry scoring.lookup path.current
  let path_score ← pathScore runtime path.edges scoring.score_mode scoring.score_property
  return {
    source_node_id := source_info.node_id.toText
    source_node_type := source_info.node_type
    source_internal_id := source_id
    target_node_id := target_info.node_id.toText
    target_node_type := target_info.node_type
    target_internal_id := path.current
    depth := path.edges.length
    path_node_ids := path.nodes.map fun node => (nodeEntry scoring.lookup node).node_id.toText
    internal_node_ids := path.nodes
    path_edge_ids := path.edges.map EdgeStep.edge_id
    path_edge_types := path.edges.map EdgeStep.edge_type
    path_score
    rank := 0
    selected_properties := Dict.ofEntries (scoring.return_properties.map fun property_name =>
      (property_name, target_info.row.read property_name)) }

/-- The first component of `_multi_seed_path_sort_key(order)`; without an order there is none. -/
def orderedScore (score_order : Option ScoreOrder) (row : PathRow) : ℚ :=
  match score_order with
  | none => 0
  | some .asc => row.path_score.getD 0
  | some .desc => -row.path_score.getD 0

/-- `_multi_seed_path_sort_key(order)` -/
def sortKey (score_order : Option ScoreOrder) (row : PathRow) :
    ℚ ×ₗ ℕ ×ₗ ℤ ×ₗ ℤ ×ₗ List ℤ ×ₗ List ℤ :=
  toLex (orderedScore score_order row, toLex (row.depth, toLex (row.source_internal_id,
    toLex (row.target_internal_id, toLex (row.internal_node_ids, row.path_edge_ids)))))

/-! ## The enumeration -/

/-- `target_info["node_type"] in target_types` -/
def atTarget (scoring : Scoring) (path : Path) : Bool :=
  (nodeEntry scoring.lookup path.current).node_type.any fun node_type =>
    node_type ∈ scoring.target_types

/-- `_enumerate_multi_seed_path_rows(...)`, as long as there is fuel. -/
def enumeratePathRows (runtime : Runtime) (scoring : Scoring) (fuel : Nat) (adjacency : Adjacency)
    (max_depth : Nat) (source_id : Int) : Except Raised (Option (List PathRow)) :=
  match SimplePaths.search EdgeStep.next (stepsFrom adjacency) max_depth (atTarget scoring) fuel
      [SimplePaths.start source_id] [] with
  | none => .ok none
  | some found => do return some (← found.mapM (pathResultRow runtime scoring source_id))

/-- `rows[:bound]`, when there is a bound. -/
def cut (bound : Option Nat) (rows : List PathRow) : List PathRow :=
  match bound with
  | none => rows
  | some bound => rows.take bound

/-- The rows of one source, in their order and as many as are kept. -/
def seedRows (runtime : Runtime) (scoring : Scoring) (fuel : Nat) (adjacency : Adjacency)
    (max_depth : Nat) (max_paths_per_seed : Option Nat) (source_id : Int) :
    Except Raised (Option (List PathRow)) := do
  let rows ← enumeratePathRows runtime scoring fuel adjacency max_depth source_id
  return rows.map fun rows => cut max_paths_per_seed (ranked (sortKey scoring.score_order) rows)

/-- `row["rank"] = rank` for the ranks from one on. -/
def number (rows : List PathRow) : List PathRow :=
  rows.zipIdx.map fun (row, index) => { row with rank := index + 1 }

/-! ## The call -/

/-- The checks of `_multi_seed_paths`. -/
def checkRequest (request : Request) : Except Raised Unit := do
  refuse (request.max_depth < 1)
    (.caracal { code := "CDB-6031", message := "paths max_depth must be >= 1" })
  refuse (request.limit < 0)
    (.caracal { code := "CDB-6020", message := "paths limit must be >= 0" })
  refuse (∃ bound ∈ request.max_paths_per_seed, bound < 0)
    (.caracal { code := "CDB-6020", message := "max_paths_per_seed must be >= 0" })
  refuse (request.direction ∉ ["out", "in", "both"]) (.caracal
    { code := "CDB-6020"
      message := "direction must be 'out', 'in', or 'both', got " ++ Value.quoted request.direction })
  refuse (request.sources = [])
    (.caracal { code := "CDB-6020", message := "multi-seed paths require at least one source" })
  refuse (request.target_node_types = []) (.caracal
    { code := "CDB-6020"
      message := "multi-seed paths require at least one target node type" })

/-- `_resolve_target_node_types(db, target_node_types)` -/
def resolveTargetNodeTypes (db : Database) (target_node_types : List String) :
    Except Raised (List String) :=
  target_node_types.mapM fun node_type => do return (← db.catalog.find_class node_type).localName

/-- `any(property_name in table.column_names for ...)` over the tables of some classes. -/
def hasProperty (db : Database) (property_name : String) : List String → Except Raised Bool
  | [] => .ok false
  | node_type :: rest => do
      let cls ← db.catalog.find_class node_type
      let store ← db.openNodes cls.iri cls.localName
      if property_name ∈ store.column_names then return true
      hasProperty db property_name rest

/-- `_validate_multi_seed_return_properties(db, target_types, return_properties)` -/
def validateReturnProperties (db : Database) (target_types return_properties : List String) :
    Except Raised Unit := do
  let missing ← return_properties.filterM fun property_name => do
    return !(← hasProperty db property_name target_types)
  match missing with
  | [] => return ()
  | property_name :: _ => .error (.caracal
      { code := "CDB-7093"
        message := "path return property missing on target node types: " ++
          Value.quoted property_name })

/-- `_multi_seed_paths(db, ...)`: nothing, when an enumeration has run out of fuel. -/
def multiSeedPaths (runtime : Runtime) (lower : String → String) (fuel : Nat) (db : Database)
    (pool : BufferPool) (request : Request) : Except Raised (Option (List PathRow)) := do
  checkRequest request
  let score_mode ← normalizePathScoreMode lower request.score
  let score_order ← normalizeScoreOrder lower request.order
  let id_map ← idMap runtime request.node_key_col db
  let source_ids ← request.sources.mapM (resolveGraphNodeId id_map request.node_key_col)
  let target_types ← resolveTargetNodeTypes db request.target_node_types
  validateReturnProperties db target_types request.return_properties
  let adjacency ← typedAdjacency runtime db pool request.edge_types request.direction
    request.edge_filters
  let lookup ← nodeEntries runtime db request.node_key_col
  let scoring : Scoring :=
    { lookup, target_types, score_mode
      score_order := if score_mode.isSome then score_order else none
      score_property := request.score_property
      return_properties := request.return_properties }
  let groups ← source_ids.mapM (seedRows runtime scoring fuel adjacency request.max_depth.toNat
    (request.max_paths_per_seed.map Int.toNat))
  return (groups.mapM id).map fun groups =>
    number ((ranked (sortKey scoring.score_order) groups.flatten).take request.limit.toNat)

/-! ## What the answers ought to be -/

/-- A simple path of some edges from a node to one of a target class. -/
structure Arrives (scoring : Scoring) (edges : List StoredEdge) (direction : String)
    (max_depth : Nat) (source : Int) (path : Path) : Prop where
  simple : SimplePaths.Simple EdgeStep.next (allowedSteps edges direction) source path.edges
  made : path = SimplePaths.extendAll EdgeStep.next (SimplePaths.start source) path.edges
  filled : path.edges ≠ []
  short : path.edges.length ≤ max_depth
  target : atTarget scoring path = true

/-- The rows of all such paths from a node, one for each. -/
def AllRows (runtime : Runtime) (scoring : Scoring) (edges : List StoredEdge) (direction : String)
    (max_depth : Nat) (source : Int) (rows : List PathRow) : Prop :=
  ∃ paths : List Path, paths.Nodup ∧
    (∀ path, path ∈ paths ↔ Arrives scoring edges direction max_depth source path) ∧
      paths.mapM (pathResultRow runtime scoring source) = .ok rows

/-- The first of some rows by the order of their keys, as many as are kept. -/
def Best (score_order : Option ScoreOrder) (bound : Option Nat) (all kept : List PathRow) : Prop :=
  ∃ sorted : List PathRow, sorted.Perm all ∧
    sorted.Pairwise (fun first second => sortKey score_order first ≤ sortKey score_order second) ∧
      kept = cut bound sorted

theorem best_ranked (score_order : Option ScoreOrder) (bound : Option Nat) (all : List PathRow) :
    Best score_order bound all (cut bound (ranked (sortKey score_order) all)) :=
  ⟨_, ranked_perm _ all, ranked_sorted _ all, rfl⟩

/-- No bound on the paths of one source that is at least the limit changes the answer. -/
theorem take_cut (score_order : Option ScoreOrder) {bound : Option Nat} {limit : Nat}
    (groups : List (List PathRow)) (enough : ∀ most ∈ bound, limit ≤ most) :
    (ranked (sortKey score_order) (groups.flatMap fun group =>
      cut bound (ranked (sortKey score_order) group))).take limit =
        (ranked (sortKey score_order) groups.flatten).take limit := by
  apply take_ranked_flatMap (sortKey score_order)
  intro group _
  cases bound with
  | some most => exact ⟨most, enough most rfl, rfl⟩
  | none =>
    refine ⟨max limit (ranked (sortKey score_order) group).length, le_max_left _ _, ?_⟩
    exact (List.take_of_length_le (le_max_right _ _)).symm

/-! ## The enumeration -/

section Enumeration

variable {runtime : Runtime} {scoring : Scoring} {edges : List StoredEdge} {direction : String}

/-- The steps of a path are steps that its edges allow. -/
theorem follows_allowed {start : Int} {rest : List EdgeStep}
    (follows : SimplePaths.Follows EdgeStep.next (allowedSteps edges direction) start rest) :
    ∀ step ∈ rest, ∃ node, step ∈ allowedSteps edges direction node := by
  induction rest generalizing start with
  | nil =>
    intro step absurdity
    cases absurdity
  | cons first rest ih =>
    intro step member
    rcases List.mem_cons.mp member with rfl | later
    · exact ⟨start, follows.1⟩
    · exact ih follows.2 step later

/-- Every path is given a row when its weights are numbers. -/
theorem pathResultRow_ok (weighed : scoring.score_mode ≠ none → ∀ node,
      ∀ step ∈ allowedSteps edges direction node, ∃ weight,
        edgeNumericProperty runtime scoring.score_property step = .ok weight)
    {max_depth : Nat} {source : Int} {path : Path}
    (arrives : Arrives scoring edges direction max_depth source path) :
    ∃ row, pathResultRow runtime scoring source path = .ok row := by
  have scored : ∃ score, pathScore runtime path.edges scoring.score_mode scoring.score_property =
      .ok score := by
    cases given : scoring.score_mode with
    | none => exact ⟨none, rfl⟩
    | some mode =>
      have each : ∀ step ∈ path.edges, ∃ weight,
          edgeNumericProperty runtime scoring.score_property step = .ok weight := by
        intro step member
        obtain ⟨node, allowed⟩ := follows_allowed arrives.simple.1 step member
        exact weighed (by simp [given]) node step allowed
      obtain ⟨weights, read⟩ := mapM_answers each
      refine ⟨mode.combine weights, ?_⟩
      rw [pathScore, read]
      rfl
  obtain ⟨score, isScore⟩ := scored
  rw [pathResultRow, isScore]
  exact ⟨_, rfl⟩

/-- With enough fuel the rows of a source are those of all its paths. -/
theorem enumeratePathRows_ok (distinct : DistinctEdges edges)
    (weighed : scoring.score_mode ≠ none → ∀ node,
      ∀ step ∈ allowedSteps edges direction node, ∃ weight,
        edgeNumericProperty runtime scoring.score_property step = .ok weight)
    (max_depth : Nat) (source : Int) :
    ∃ enough, ∀ fuel, enough ≤ fuel → ∃ rows,
      enumeratePathRows runtime scoring fuel (adjacencyOf direction edges) max_depth source =
          .ok (some rows) ∧
        AllRows runtime scoring edges direction max_depth source rows := by
  obtain ⟨enough, recorded⟩ := SimplePaths.search_start EdgeStep.next
    (stepsFrom (adjacencyOf direction edges)) (atTarget scoring) max_depth
    (stepsFrom_nodup distinct) source
  refine ⟨enough, fun fuel more => ?_⟩
  obtain ⟨found, ends, once, isFound⟩ := recorded fuel more
  have exactly (path : Path) : path ∈ found ↔
      Arrives scoring edges direction max_depth source path := by
    rw [isFound]
    constructor
    · rintro ⟨rest, filled, short, simple, rfl, accepted⟩
      have same : (SimplePaths.extendAll EdgeStep.next (SimplePaths.start source) rest).edges =
          rest := SimplePaths.extendAll_edges EdgeStep.next (SimplePaths.start source) rest
      refine ⟨?_, ?_, ?_, ?_, accepted⟩
      · rw [same]
        exact (simple_iff source rest).mp simple
      · rw [same]
      · rw [same]
        exact filled
      · rw [same]
        exact short
    · intro arrives
      exact ⟨path.edges, arrives.filled, arrives.short,
        (simple_iff source path.edges).mpr arrives.simple, arrives.made, arrives.target⟩
  obtain ⟨rows, made⟩ := mapM_answers fun path member =>
    pathResultRow_ok weighed ((exactly path).mp member)
  refine ⟨rows, ?_, found, once.of_map _, exactly, made⟩
  rw [enumeratePathRows, ends]
  dsimp only
  rw [made]
  rfl

/-- So with enough fuel for each source the rows of all sources are. -/
theorem seedRows_ok (distinct : DistinctEdges edges)
    (weighed : scoring.score_mode ≠ none → ∀ node,
      ∀ step ∈ allowedSteps edges direction node, ∃ weight,
        edgeNumericProperty runtime scoring.score_property step = .ok weight)
    (max_depth : Nat) (bound : Option Nat) (source_ids : List Int) :
    ∃ enough, ∀ fuel, enough ≤ fuel → ∃ groups,
      source_ids.mapM (seedRows runtime scoring fuel (adjacencyOf direction edges) max_depth bound) =
          .ok (groups.map fun rows => some (cut bound (ranked (sortKey scoring.score_order) rows))) ∧
        List.Forall₂ (AllRows runtime scoring edges direction max_depth) source_ids groups := by
  induction source_ids with
  | nil => exact ⟨0, fun fuel _ => ⟨[], rfl, .nil⟩⟩
  | cons source source_ids ih =>
    obtain ⟨enough, own⟩ := enumeratePathRows_ok distinct weighed max_depth source
    obtain ⟨further, others⟩ := ih
    refine ⟨max enough further, fun fuel more => ?_⟩
    obtain ⟨rows, enumerated, all⟩ := own fuel (le_of_max_le_left more)
    obtain ⟨groups, made, each⟩ := others fuel (le_of_max_le_right more)
    refine ⟨rows :: groups, ?_, .cons all each⟩
    rw [List.mapM_cons, seedRows, enumerated, made]
    rfl

end Enumeration

/-! ## The answers -/

/-- What the call reads before it enumerates: the nodes that the request names, the classes of its
targets, its matching edges as they are stored, and the nodes. -/
structure ReadsSeeds (runtime : Runtime) (lower : String → String) (db : Database)
    (pool : BufferPool) (request : Request) (source_ids : List Int)
    (edges : List (List StoredEdge)) (scoring : Scoring) : Prop where
  checked : checkRequest request = .ok ()
  mode : normalizePathScoreMode lower request.score = .ok scoring.score_mode
  order : ∃ order, normalizeScoreOrder lower request.order = .ok order ∧
    scoring.score_order = if scoring.score_mode.isSome then order else none
  sources : ∃ id_map, idMap runtime request.node_key_col db = .ok id_map ∧
    request.sources.mapM (resolveGraphNodeId id_map request.node_key_col) = .ok source_ids
  types : resolveTargetNodeTypes db request.target_node_types = .ok scoring.target_types
  properties : validateReturnProperties db scoring.target_types request.return_properties = .ok ()
  current : ∀ relation ∈ request.edge_types, ∀ table, pool.get? relation = some table →
    storedTable db relation = .ok table
  matching : request.edge_types.mapM (fun relation => do
    edgesOf runtime request.edge_filters relation (← storedTable db relation)) = .ok edges
  distinct : DistinctEdges edges.flatten
  lookup : nodeEntries runtime db request.node_key_col = .ok scoring.lookup
  score_property : scoring.score_property = request.score_property
  return_properties : scoring.return_properties = request.return_properties
  weighed : scoring.score_mode ≠ none → ∀ node,
    ∀ step ∈ allowedSteps edges.flatten request.direction node, ∃ weight,
      edgeNumericProperty runtime scoring.score_property step = .ok weight

theorem mapM_some {Item : Type} (items : List Item) :
    (items.map some).mapM (id : Option Item → Option Item) = some items := by
  induction items with
  | nil => rfl
  | cons item items ih =>
    rw [List.map_cons, List.mapM_cons, ih]
    rfl

/-- The best path from one of the friends to each person. -/
def friendsRequest : Request where
  sources := [.value (.str "ada"), .value (.str "bob")]
  target_node_types := ["Person"]
  edge_types := ["knows"]
  max_depth := 2
  limit := 1
  score := some "Sum"
  score_property := "since"
  return_properties := ["node_id"]
  max_paths_per_seed := some 1

def friendEntries : Dict Int NodeEntry :=
  Dict.ofEntries (friendRows.map fun friend =>
    (friend.internal_id,
      { node_id := friend.row.read "node_id", node_type := some "Person"
        row := (friend.row.keep fun name => name ∉ ["_internal_id", "_node_type"]) }))

def friendScoring : Scoring where
  lookup := friendEntries
  target_types := ["Person"]
  score_mode := some .sum
  score_order := some .desc
  score_property := "since"
  return_properties := ["node_id"]

theorem friends_read : ReadsSeeds plainServices.runtime String.toLower friends Dict.empty
    friendsRequest [0, 1] [[friendship]] friendScoring where
  checked := rfl
  mode := by decide +kernel
  order := ⟨some .desc, by decide +kernel, rfl⟩
  sources := by
    have named : (do
        let ids ← idMap plainServices.runtime "node_id" friends
        friendsRequest.sources.mapM (resolveGraphNodeId ids "node_id")) = .ok [(0 : Int), 1] := by
      decide +kernel
    obtain ⟨id_map, mapped, rest⟩ := except_bind_ok named
    exact ⟨id_map, mapped, rest⟩
  types := by decide +kernel
  properties := by decide +kernel
  current _ _ _ kept := by cases kept
  matching := by decide +kernel
  distinct := List.nodup_singleton _
  lookup := by decide +kernel
  score_property := rfl
  return_properties := rfl
  weighed _ node step allowed := by
    obtain ⟨pair, member, rfl⟩ := List.mem_map.mp allowed
    have isStep := List.mem_of_mem_filter member
    rw [show ([[friendship]].flatten.flatMap (stepsOf friendsRequest.direction)) =
      [(0, { edge_id := 0, edge_type := "knows", src := 0, dst := 1
             properties := friendship.properties, next := 1, direction := "out" })] from rfl,
      List.mem_singleton] at isStep
    rw [isStep]
    exact ⟨1843, rfl⟩

end CaracalDB.SeedPaths
