import CaracalDB.NeighborAnswers
import CaracalDB.KeyTypes

/-!
# Subgraphs around nodes

`Database.k_hop` searches from several nodes and keeps the nodes that it comes to and the edges that
it goes along, both up to a greatest number. The edges of a node are gone along until there are
enough edges, and the nodes are taken from the queue until there are enough nodes.
-/

namespace CaracalDB.BoundedSubgraph

open Database Neighbors Paths

/-! ## The request -/

/-- The arguments of `k_hop`. -/
structure Request where
  seeds : List NodeRef
  depth : Int
  edge_types : List String
  direction : String := "out"
  max_nodes : Int := 500
  max_edges : Int := 2000
  node_key_col : String := "node_id"

/-- The checks of a request. -/
def checkRequest (request : Request) : Except Raised Unit := do
  refuse (request.depth < 0)
    (.caracal { code := "CDB-6031", message := "k_hop depth must be >= 0" })
  refuse (request.max_nodes < 0 ∨ request.max_edges < 0)
    (.caracal { code := "CDB-6020", message := "k_hop limits must be >= 0" })
  refuse (request.direction ∉ ["out", "in", "both"]) (.caracal
    { code := "CDB-6020"
      message := "direction must be 'out', 'in', or 'both', got " ++ Value.quoted request.direction })

/-! ## The search -/

/-- A row of the table of nodes. -/
structure NodeRow where
  node_id : String
  node_type : Option String
  internal_id : Int
  depth : Nat
deriving DecidableEq

/-- A row of the table of edges. -/
structure EdgeRow where
  edge_id : Int
  edge_type : String
  src : String
  dst : String
  src_internal_id : Int
  dst_internal_id : Int
  direction : String
  depth : Nat
deriving DecidableEq

/-- `_k_hop_node_row(node_info, internal_id, depth)`, as `_k_hop_nodes_table` writes it. -/
def kHopNodeRow (lookup : Dict Int NodeInfo) (internal_id : Int) (depth : Nat) : NodeRow :=
  { node_id := (nodeInfo lookup internal_id).node_id.toText
    node_type := (nodeInfo lookup internal_id).node_type
    internal_id := internal_id
    depth := depth }

/-- `_k_hop_edge_row(step, node_lookup, depth)`, as `_k_hop_edges_table` writes it. -/
def kHopEdgeRow (lookup : Dict Int NodeInfo) (step : EdgeStep) (depth : Nat) : EdgeRow :=
  { edge_id := step.edge_id
    edge_type := step.edge_type
    src := (nodeInfo lookup step.src).node_id.toText
    dst := (nodeInfo lookup step.dst).node_id.toText
    src_internal_id := step.src
    dst_internal_id := step.dst
    direction := step.direction
    depth := depth }

/-- What a search goes by. -/
structure Search where
  lookup : Dict Int NodeInfo
  adjacency : Adjacency
  depth : Nat
  max_nodes : Nat
  max_edges : Nat
deriving DecidableEq

/-- What the loop over the queue goes on with. -/
structure State where
  node_depth : Dict Int Nat
  queue : List (Int × Nat)
  edge_rows : List EdgeRow
  seen_edges : List (Int × String)
deriving DecidableEq

/-- `(int(step["edge_id"]), str(step["edge_type"]))` -/
def edgeKey (step : EdgeStep) : Int × String := (step.edge_id, step.edge_type)

/-- Keep the edge of a step, if it is new. -/
def record (search : Search) (level : Nat) (state : State) (step : EdgeStep) : State :=
  if edgeKey step ∈ state.seen_edges then state
  else
    { state with
      seen_edges := edgeKey step :: state.seen_edges
      edge_rows := state.edge_rows ++ [kHopEdgeRow search.lookup step (level + 1)] }

/-- Keep the node that a step leads to, if it is new and there are not enough nodes. -/
def accept (search : Search) (level : Nat) (state : State) (step : EdgeStep) : State :=
  if step.next ∉ state.node_depth.keys ∧ state.node_depth.keys.length < search.max_nodes then
    { state with
      node_depth := state.node_depth.set step.next (level + 1)
      queue := state.queue ++ [(step.next, level + 1)] }
  else state

/-- One step from a node. Once there are enough edges the source breaks off its loop, and the steps
that are left change nothing here. -/
def visit (search : Search) (level : Nat) (state : State) (step : EdgeStep) : State :=
  if search.max_edges ≤ state.edge_rows.length then state
  else accept search level (record search level state step) step

/-- One turn of the loop over the queue, if it goes on. -/
def turn (search : Search) (state : State) : Option State :=
  match state.queue with
  | [] => none
  | (current, current_depth) :: queue =>
      if search.max_nodes ≤ state.node_depth.keys.length then none
      else if search.depth ≤ current_depth then some { state with queue }
      else some ((stepsFrom search.adjacency current).foldl (visit search current_depth)
        { state with queue })

/-- The loop over the queue, as long as there is fuel. -/
def searchQueue (search : Search) : Nat → State → Option State
  | 0, _ => none
  | fuel + 1, state =>
      match turn search state with
      | none => some state
      | some next => searchQueue search fuel next

/-- What the search begins with. -/
def begin (seed_ids : List Int) : State :=
  { node_depth := Dict.ofEntries (seed_ids.map fun seed => (seed, 0))
    queue := seed_ids.map fun seed => (seed, 0)
    edge_rows := []
    seen_edges := [] }

/-- The tables `nodes` and `edges`. -/
structure Subgraph where
  nodes : List NodeRow
  edges : List EdgeRow
deriving DecidableEq

/-- The tables of what the search has kept: the nodes by their depth and id. -/
def subgraphOf (search : Search) (state : State) : Subgraph :=
  { nodes := (ranked (fun item : Int × Nat => toLex (item.2, item.1)) state.node_depth.entries).map
      fun item => kHopNodeRow search.lookup item.1 item.2
    edges := state.edge_rows }

/-- The nodes that a search begins with, and what it goes by. -/
def prepare (runtime : Runtime) (db : Database) (pool : BufferPool) (request : Request) :
    Except Raised (List Int × Search) := do
  let id_map ← idMap runtime request.node_key_col db
  let seed_ids ← request.seeds.mapM (resolveGraphNodeId id_map request.node_key_col)
  let lookup ← nodeInfos runtime db request.node_key_col
  let adjacency ← orderedAdjacency runtime db pool request.edge_types request.direction Dict.empty
    none
  return (seed_ids, { lookup, adjacency, depth := request.depth.toNat
                      max_nodes := request.max_nodes.toNat, max_edges := request.max_edges.toNat })

/-- `_k_hop(db, ...)`: nothing, when the loop has run out of fuel. -/
def kHop (runtime : Runtime) (fuel : Nat) (db : Database) (pool : BufferPool) (request : Request) :
    Except Raised (Option Subgraph) := do
  checkRequest request
  let (seed_ids, search) ← prepare runtime db pool request
  return (searchQueue search fuel (begin seed_ids)).map (subgraphOf search)

end CaracalDB.BoundedSubgraph
