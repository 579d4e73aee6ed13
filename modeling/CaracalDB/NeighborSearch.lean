import CaracalDB.PathAnswers
import Mathlib.Algebra.Order.Ring.Unbundled.Rat

/-!
# The search for neighbors

`Database.neighbors` searches along the edges of the given relations, from several nodes at once. A
node is marked when it is met first, answered if its type is asked for, and queued with a path to it;
with a limit the search is left as soon as there are enough answers.
-/

namespace CaracalDB.Neighbors

open Database Paths

/-! ## The request -/

/-- How a caller names a node. -/
inductive NodeRef where
  | resource (internal_id : Int)
  | value (value : Value)
deriving DecidableEq

/-- The arguments of `neighbors`, those for the scores of paths and for the cut of the edges of a node
left out. -/
structure Request where
  seed_node_ids : List NodeRef
  edge_types : List String
  direction : String := "out"
  depth : Int := 1
  limit : Option Int := none
  node_type_filters : List String := []
  edge_filters : Dict String Value := Dict.empty
  return_paths : Bool := false
  node_key_col : String := "node_id"
  weight_property : Option String := none

/-- `_resolve_graph_node_id(id_map, value, node_key_col)` -/
def resolveGraphNodeId (id_map : IdMap) (node_key_col : String) : NodeRef → Except Raised Int
  | .resource internal_id => .ok internal_id
  | .value value => do
      let key ← value.hashed
      match id_map.get? key, value with
      | some gid, _ => .ok gid
      | none, .int number =>
          if number ≥ 0 then .ok number else unknown value
      | none, _ => unknown value
where
  unknown (value : Value) : Except Raised Int :=
    .error (.caracal
      { code := "CDB-7021"
        message := "unknown graph node reference for " ++ Value.quoted node_key_col ++ ": " ++
          value.repr
        hint := some "pass an internal id, ResourceRef, or an existing node_id value" })

/-- The checks of a request. -/
def checkRequest (request : Request) : Except Raised Unit := do
  refuse (request.depth < 1)
    (.caracal { code := "CDB-6031", message := "neighbors depth must be >= 1" })
  refuse (request.direction ∉ ["out", "in", "both"]) (.caracal
    { code := "CDB-6020"
      message := "direction must be 'out', 'in', or 'both', got " ++ Value.quoted request.direction })
  refuse (∃ limit ∈ request.limit, limit < 0)
    (.caracal { code := "CDB-6020", message := "neighbors limit must be >= 0" })
  refuse (request.edge_types = [])
    (.caracal { code := "CDB-6020", message := "neighbors requires at least one edge type" })

/-! ## Nodes -/

structure NodeInfo where
  node_id : Value
  node_type : Option String
deriving DecidableEq

def lookUpNode (runtime : Runtime) (node_key_col class_name : String) (lookup : Dict Int NodeInfo)
    (row : Row) : Except Raised (Dict Int NodeInfo) := do
  let gid ← runtime.toInt (internalId row)
  return lookup.set gid
    { node_id := (row.get? node_key_col).getD (.int gid), node_type := some class_name }

/-- `_node_lookup(db, node_key_col=...)`, when none is cached. -/
def nodeInfos (runtime : Runtime) (db : Database) (node_key_col : String) :
    Except Raised (Dict Int NodeInfo) :=
  db.list_node_stores.foldlM (fun lookup class_name => do
    (← nodeTableForLocal db class_name).foldlM (lookUpNode runtime node_key_col class_name) lookup)
    Dict.empty

/-- `node_lookup.get(gid, _fallback_node_info(gid))` -/
def nodeInfo (lookup : Dict Int NodeInfo) (gid : Int) : NodeInfo :=
  (lookup.get? gid).getD { node_id := .int gid, node_type := none }

/-! ## Edges -/

/-- `_edge_numeric_property(edge, property_name)` -/
def edgeNumericProperty (runtime : Runtime) (property_name : String) (edge : EdgeStep) :
    Except Raised ℚ :=
  match edge.properties.read property_name with
  | .null => .ok 0
  | value => runtime.float value

/-- The steps from a node in the order of a weight, the greatest first, or of their keys. -/
def orderSteps (runtime : Runtime) (order_by_property : Option String) (steps : List EdgeStep) :
    Except Raised (List EdgeStep) :=
  match order_by_property with
  | none => .ok (ranked stepKey steps)
  | some property_name => do
      let weighted ← steps.mapM fun step => do
        return (step, ← edgeNumericProperty runtime property_name step)
      return (ranked (fun pair : EdgeStep × ℚ => toLex (-pair.2, stepKey pair.1)) weighted).map
        Prod.fst

/-- The edges of the relations that match the filters. -/
def matchingEdges (runtime : Runtime) (db : Database) (pool : BufferPool)
    (edge_types : List String) (filters : Dict String Value) : Except Raised (List StoredEdge) := do
  let edges ← edge_types.mapM fun relation => do
    edgesOf runtime filters relation (← getArrowTable db pool relation)
  return edges.flatten

/-- `_typed_adjacency(db, ..., order_by_property=...)` -/
def orderedAdjacency (runtime : Runtime) (db : Database) (pool : BufferPool)
    (edge_types : List String) (direction : String) (filters : Dict String Value)
    (order_by_property : Option String) : Except Raised Adjacency := do
  let edges ← matchingEdges runtime db pool edge_types filters
  let entries ← ((edges.flatMap (stepsOf direction)).foldl Dict.file Dict.empty).entries.mapM
    fun (node_id, steps) => do return (node_id, ← orderSteps runtime order_by_property steps)
  return Dict.ofEntries entries

/-! ## The search -/

/-- A node in the queue, with the path to it. -/
structure Reached where
  node : Int
  depth : Nat
  path_nodes : List Int
  path_edges : List EdgeStep
deriving DecidableEq

structure PathColumns where
  path_node_ids : List String
  path_edge_ids : List Int
  path_edge_types : List String
deriving DecidableEq

/-- A row of the answer; its score is null. -/
structure NeighborRow where
  node_id : String
  node_type : Option String
  internal_id : Int
  depth : Nat
  via_edge_id : Int
  via_edge_type : String
  path : Option PathColumns
deriving DecidableEq

/-- What a search goes by. -/
structure Search where
  lookup : Dict Int NodeInfo
  allowed_types : List String
  adjacency : Adjacency
  depth : Nat
  return_paths : Bool
deriving DecidableEq

/-- `not allowed_types or node_info["node_type"] in allowed_types` -/
def Search.allows (search : Search) (node : Int) : Bool :=
  search.allowed_types.isEmpty ||
    (nodeInfo search.lookup node).node_type.any fun node_type => node_type ∈ search.allowed_types

/-- `_neighbor_result_row(...)`, as `_neighbors_result_table` writes it. -/
def neighborResultRow (search : Search) (step : EdgeStep) (reached : Reached) : NeighborRow :=
  let info := nodeInfo search.lookup reached.node
  { node_id := info.node_id.toText
    node_type := info.node_type
    internal_id := reached.node
    depth := reached.depth
    via_edge_id := step.edge_id
    via_edge_type := step.edge_type
    path :=
      if search.return_paths then some
        { path_node_ids := reached.path_nodes.map fun node =>
            (nodeInfo search.lookup node).node_id.toText
          path_edge_ids := reached.path_edges.map EdgeStep.edge_id
          path_edge_types := reached.path_edges.map EdgeStep.edge_type }
      else none }

/-- What the loop over the queue goes on with. -/
structure Progress where
  rows : List NeighborRow
  visited : List Int
  queue : List Reached

/-- The node that a step leads to, with the path along the step. -/
def stepTo (current : Reached) (step : EdgeStep) : Reached :=
  { node := step.next
    depth := current.depth + 1
    path_nodes := current.path_nodes ++ [step.next]
    path_edges := current.path_edges ++ [step] }

/-- One step from a node; the answers instead, when there are enough of them. -/
def meet (search : Search) (limit : Option Nat) (current : Reached) (progress : Progress)
    (step : EdgeStep) : Except (List NeighborRow) Progress :=
  if step.next ∈ progress.visited then .ok progress
  else
    let reached := stepTo current step
    let visited := step.next :: progress.visited
    let queue := progress.queue ++ [reached]
    if search.allows step.next then
      let rows := progress.rows ++ [neighborResultRow search step reached]
      if limit.any (· ≤ rows.length) then .error rows else .ok { rows, visited, queue }
    else .ok { progress with visited, queue }

/-- `rows[:limit]`, if there is a limit. -/
def firstRows (limit : Option Nat) (rows : List NeighborRow) : List NeighborRow :=
  match limit with
  | none => rows
  | some limit => rows.take limit

/-- The loop over the queue, as long as there is fuel. -/
def searchQueue (search : Search) (limit : Option Nat) : Nat → Progress → Option (List NeighborRow)
  | 0, _ => none
  | fuel + 1, progress =>
      match progress.queue with
      | [] => some (firstRows limit progress.rows)
      | current :: queue =>
          if current.depth ≥ search.depth then searchQueue search limit fuel { progress with queue }
          else
            match (stepsFrom search.adjacency current.node).foldlM (meet search limit current)
              { progress with queue } with
            | .error rows => some rows
            | .ok progress => searchQueue search limit fuel progress

/-- What the search begins with. -/
def begin (seed_ids : List Int) : Progress :=
  { rows := []
    visited := seed_ids
    queue := seed_ids.map fun seed =>
      { node := seed, depth := 0, path_nodes := [seed], path_edges := [] } }

/-- The nodes that a search begins with, and what it goes by. -/
def prepare (runtime : Runtime) (db : Database) (pool : BufferPool) (request : Request) :
    Except Raised (List Int × Search) := do
  let id_map ← idMap runtime request.node_key_col db
  let seed_ids ← request.seed_node_ids.mapM (resolveGraphNodeId id_map request.node_key_col)
  let lookup ← nodeInfos runtime db request.node_key_col
  let allowed_types ← request.node_type_filters.mapM fun value =>
    coerceLocalName (.str value) "node type filter"
  let adjacency ← orderedAdjacency runtime db pool request.edge_types request.direction
    request.edge_filters request.weight_property
  return (seed_ids, { lookup, allowed_types, adjacency, depth := request.depth.toNat
                      return_paths := request.return_paths })

/-- `_neighbors(db, ...)`: nothing, when the loop has run out of fuel. -/
def neighbors (runtime : Runtime) (fuel : Nat) (db : Database) (pool : BufferPool)
    (request : Request) : Except Raised (Option (List NeighborRow)) := do
  checkRequest request
  let (seed_ids, search) ← prepare runtime db pool request
  return searchQueue search (request.limit.map Int.toNat) fuel (begin seed_ids)

end CaracalDB.Neighbors
