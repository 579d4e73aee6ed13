import Mathlib.Data.List.Lex
import Mathlib.Data.Prod.Lex
import Mathlib.Data.String.Basic
import CaracalDB.Filing
import CaracalDB.GraphDatabase
import CaracalDB.Ranked
import CaracalDB.SimplePaths
import CaracalDB.WhereExpr

/-!
# Paths of variable length

A query for paths of variable length reads the rows of two classes and the edges of
the listed relations, enumerates the simple paths from each row of the first class
to rows of the second, and keeps those that satisfy its predicate.
-/

namespace CaracalDB.Paths

open Database Where

structure NodePattern where
  class_name : String
  props : Dict String Value

inductive Projection where
  | path (name : String)
  | node_id (name variable_name : String)
  | property (name variable_name property_name : String)
  | length (name : String)
  | literal (name : String) (value : Value)

/-- What `_compile_variable_length_pattern` makes of a query. -/
structure PathPattern where
  source_node : NodePattern
  target_node : NodePattern
  source_alias : String
  target_alias : String
  binding : String
  edge_types : List String
  direction : String
  min_depth : Nat
  max_depth : Nat
  edge_filters : Dict String Value
  where_ : Option Expr
  projections : List Projection

/-- What the evaluation of a query calls besides Arrow: `json.dumps(properties, ...)`. -/
structure Services where
  kernels : Kernels
  dumps : Row → String

def Services.runtime (services : Services) : Runtime := services.kernels.runtime

/-! ## Nodes -/

/-- A row that matches a node pattern, with its internal id. -/
structure Candidate where
  internal_id : Int
  row : Row
deriving DecidableEq

/-- `_row_matches_filters(row, filters)` -/
def rowMatchesFilters (runtime : Runtime) (row : Row) (filters : Dict String Value) : Bool :=
  filters.entries.all fun (name, value) => pyEq runtime (row.read name) value

/-- `row.get("_cdb_gid", row["nid"])` -/
def internalId (row : Row) : Value :=
  (row.get? INTERNAL_GID_COLUMN).getD (row.read NID_COLUMN)

/-- `_node_table_for_local(db, class_name)`, as rows. -/
def nodeTableForLocal (db : Database) (class_name : String) : Except Raised (List Row) := do
  let cls ← db.catalog.find_class class_name
  let store ← db.openNodes cls.iri cls.localName
  return store.to_pylist none

/-- `_candidate_rows_for_node_pattern(db, node, query)` -/
def candidateRows (runtime : Runtime) (db : Database) (node : NodePattern) :
    Except Raised (List Candidate) := do
  let cls ← db.catalog.find_class node.class_name
  let table ← nodeTableForLocal db cls.localName
  let out ← (table.filter fun row => rowMatchesFilters runtime row node.props).mapM fun row => do
    let internal_id ← runtime.toInt (internalId row)
    return { internal_id
             row := (row.set "_internal_id" (.int internal_id)).set "_node_type"
               (.str cls.localName) : Candidate }
  return ranked Candidate.internal_id out

/-- The external ids of one row of `_node_lookup`. -/
def lookUpRow (runtime : Runtime) (lookup : Dict Int Value) (row : Row) :
    Except Raised (Dict Int Value) := do
  let gid ← runtime.toInt (internalId row)
  return lookup.set gid ((row.get? "node_id").getD (.int gid))

/-- `_node_lookup(db)`: the external id of each internal id. -/
def nodeLookup (runtime : Runtime) (db : Database) : Except Raised (Dict Int Value) :=
  db.list_node_stores.foldlM (fun lookup class_name => do
    (← nodeTableForLocal db class_name).foldlM (lookUpRow runtime) lookup) Dict.empty

/-! ## Edges -/

/-- A table of edges as it is read. -/
structure EdgeTable where
  fields : List Field
  rows : List Row
deriving DecidableEq

/-- `store.to_table()` -/
def EdgeTable.of (store : EdgeStore) : EdgeTable :=
  { fields := { name := EID_COLUMN, type := .uint64 } :: store.fields
    rows := store.to_pylist none }

/-- What the process keeps of the relations of one bundle: `_PROCESS_GLOBAL_BUFFER_POOL`. -/
abbrev BufferPool : Type := Dict String EdgeTable

/-- The edges of a relation as they are stored. -/
def storedTable (db : Database) (relation : String) : Except Raised EdgeTable :=
  match db.catalog.properties.by_name relation with
  | none => .ok
      { fields := [{ name := SRC_COLUMN, type := .null }, { name := DST_COLUMN, type := .null },
          { name := EID_COLUMN, type := .null }]
        rows := [] }
  | some prop => do return EdgeTable.of (← db.openEdges prop.iri prop.localName)

/-- `_get_arrow_table(db, relation)`: the file that it looks for to see changes does not exist. -/
def getArrowTable (db : Database) (pool : BufferPool) (relation : String) :
    Except Raised EdgeTable :=
  match pool.get? relation with
  | some table => .ok table
  | none => storedTable db relation

/-- The column and the kernel that a key of a property map names. -/
def comparisonOf (key : String) : String × String :=
  let text := key.toList
  let without := fun count => String.ofList (text.take (text.length - count))
  if "_eq".toList <:+ text then (without 3, "equal")
  else if "_gte".toList <:+ text then (without 4, "greater_equal")
  else if "_lte".toList <:+ text then (without 4, "less_equal")
  else if "_gt".toList <:+ text then (without 3, "greater")
  else if "_lt".toList <:+ text then (without 3, "less")
  else (key, "equal")

/-- `getattr(pc, op)(table[col], val)` -/
def maskOf (runtime : Runtime) (table : EdgeTable) (filter : String × Value) :
    Except Raised (List (Option Bool)) :=
  let (col, op) := comparisonOf filter.1
  match table.fields.find? fun field => field.name = col with
  | none => .error (.keyError col)
  | some field => runtime.compare op field.type (table.rows.map (Row.read · col)) filter.2

/-- The rows of a table that pass all filters. -/
def passing (runtime : Runtime) (filters : Dict String Value) (table : EdgeTable) :
    Except Raised (List Row) :=
  if table.rows = [] then .ok []
  else do
    let masks ← filters.entries.mapM (maskOf runtime table)
    return (table.rows.zipIdx.filter fun (_, index) =>
      masks.all fun mask => mask[index]? = some (some true)).map Prod.fst

structure StoredEdge where
  edge_id : Int
  edge_type : String
  src : Int
  dst : Int
  properties : Row
deriving DecidableEq

/-- One row of `_typed_adjacency`. -/
def readEdge (runtime : Runtime) (relation : String) (row : Row) : Except Raised StoredEdge := do
  return {
    src := ← runtime.toInt (row.read SRC_COLUMN)
    dst := ← runtime.toInt (row.read DST_COLUMN)
    edge_id := ← runtime.toInt (row.read EID_COLUMN)
    edge_type := relation
    properties := row.keep fun name =>
      name ∉ [EID_COLUMN, SRC_COLUMN, DST_COLUMN, CREATED_LSN_COLUMN, DELETED_LSN_COLUMN] }

/-- The edges of a table that pass the filters. -/
def edgesOf (runtime : Runtime) (filters : Dict String Value) (relation : String)
    (table : EdgeTable) : Except Raised (List StoredEdge) := do
  (← passing runtime filters table).mapM (readEdge runtime relation)

/-- The steps that an edge allows, each under the node it starts from. -/
def stepsOf (direction : String) (edge : StoredEdge) : List (Int × EdgeStep) :=
  let base : EdgeStep :=
    { edge_id := edge.edge_id, edge_type := edge.edge_type, src := edge.src, dst := edge.dst
      properties := edge.properties, next := edge.dst, direction := "out" }
  (if direction = "out" ∨ direction = "both" then [(edge.src, base)] else []) ++
    if direction = "in" ∨ direction = "both" then
      [(edge.dst, { base with next := edge.src, direction := "in" })]
    else []

/-- The key by which the steps from a node are sorted. -/
def stepKey (step : EdgeStep) : String ×ₗ ℤ ×ₗ ℤ :=
  toLex (step.edge_type, toLex (step.edge_id, step.next))

/-- `_typed_adjacency(db, edge_types=..., direction=..., filters=...)` -/
def typedAdjacency (runtime : Runtime) (db : Database) (pool : BufferPool)
    (edge_types : List String) (direction : String) (filters : Dict String Value) :
    Except Raised Adjacency := do
  let edges ← edge_types.mapM fun relation => do
    edgesOf runtime filters relation (← getArrowTable db pool relation)
  return ((edges.flatten.flatMap (stepsOf direction)).foldl Dict.file Dict.empty).mapValues
    (ranked stepKey)

/-! ## Paths -/

/-- A path as the queue holds it. -/
abbrev Path : Type := SimplePaths.Partial Int EdgeStep

/-- `adjacency.get(current, [])` -/
def stepsFrom (adjacency : Adjacency) (node : Int) : List EdgeStep :=
  (adjacency.get? node).getD []

/-- Whether a path is long enough and ends at a target. -/
def isAnswer (target_ids : List Int) (min_depth : Nat) (path : Path) : Bool :=
  min_depth ≤ path.edges.length && path.current ∈ target_ids

/-- The key by which the paths from one node are sorted. -/
def pathKey (path : Path) : ℕ ×ₗ List ℤ ×ₗ List ℤ :=
  toLex (path.edges.length, toLex (path.nodes, path.edges.map EdgeStep.edge_id))

/-- `_enumerate_paths_to_targets(...)`, as long as there is fuel. -/
def enumeratePathsToTargets (fuel : Nat) (source_id : Int) (target_ids : List Int)
    (adjacency : Adjacency) (min_depth max_depth : Nat) : Option (List Path) :=
  (SimplePaths.search EdgeStep.next (stepsFrom adjacency) max_depth
    (isAnswer target_ids min_depth) fuel [SimplePaths.start source_id] []).map (ranked pathKey)

/-- `_path_result_row(path_nodes, path_edges, node_lookup, score_mode=None, ...)` -/
def pathResultRow (services : Services) (lookup : Dict Int Value) (nodes : List Int)
    (edges : List EdgeStep) : Row :=
  let node_ids := nodes.map fun node => Value.str ((lookup.get? node).getD (.int node)).toText
  Dict.ofEntries
    [("source", node_ids.headD .null), ("target", node_ids.getLastD .null),
      ("depth", .int edges.length), ("node_ids", .list node_ids),
      ("internal_node_ids", .list (nodes.map .int)),
      ("edge_ids", .list (edges.map fun edge => .int edge.edge_id)),
      ("relation_types", .list (edges.map fun edge => .str edge.edge_type)),
      ("directions", .list (edges.map fun edge => .str edge.direction)),
      ("edge_properties", .list (edges.map fun edge => .str (services.dumps edge.properties))),
      ("path_score", .null)]

/-! ## Answers -/

/-- A path from a row to a row. -/
structure PathMatch where
  source : Candidate
  steps : List EdgeStep
  target : Candidate
deriving DecidableEq

/-- What the variables of a query stand for. -/
def contextOf (services : Services) (pattern : PathPattern) (lookup : Dict Int Value)
    (found : PathMatch) : Dict String Row :=
  Dict.ofEntries [(pattern.source_alias, found.source.row),
    (pattern.target_alias, found.target.row),
    (pattern.binding, pathResultRow services lookup
      (found.source.internal_id :: found.steps.map EdgeStep.next) found.steps)]

/-- `_path_object(path)` -/
def pathObject (path : Row) : Value :=
  .dict (["depth", "node_ids", "internal_node_ids", "edge_ids", "relation_types", "directions",
    "edge_properties"].map fun name => (name, path.read name))

/-- What a variable of a query stands for. -/
def variableRow (context : Dict String Row) (name : String) : Row := (context.get? name).getD Dict.empty

/-- One projection of a row of `_project_var_path_row`. -/
def project (pattern : PathPattern) (context : Dict String Row) (row : Row) : Projection → Row
  | .path name => row.set name (pathObject (variableRow context pattern.binding))
  | .length name => row.set name ((variableRow context pattern.binding).read "depth")
  | .property name variable_name property_name =>
      row.set name ((variableRow context variable_name).read property_name)
  | .node_id name variable_name =>
      row.set name (((variableRow context variable_name).get? "node_id").getD
        ((variableRow context variable_name).read "_internal_id"))
  | .literal name value => row.set name value

/-- `_project_var_path_row(projections, context)` -/
def projectRow (services : Services) (pattern : PathPattern) (lookup : Dict Int Value)
    (found : PathMatch) : Row :=
  pattern.projections.foldl (project pattern (contextOf services pattern lookup found)) Dict.empty

/-- Whether a path satisfies the predicate of its query. -/
def satisfies (services : Services) (pattern : PathPattern) (lookup : Dict Int Value)
    (found : PathMatch) : Except Raised Bool :=
  match pattern.where_ with
  | none => .ok true
  | some predicate =>
      evalVarPathExpr services.kernels (contextOf services pattern lookup found) predicate

/-- `target_by_id[internal_id]`: of two rows with one id, the last. -/
def targetById (targets : List Candidate) (internal_id : Int) : Option Candidate :=
  targets.reverse.find? fun target => target.internal_id = internal_id

/-- The answer for one path from a row, if it satisfies the predicate. -/
def answerOf (services : Services) (pattern : PathPattern) (lookup : Dict Int Value)
    (targets : List Candidate) (source : Candidate) (path : Path) : Except Raised (Option Row) :=
  match targetById targets path.current with
  | none => .error (.keyError (toString path.current))
  | some target => do
      let found : PathMatch := { source, steps := path.edges, target }
      if ← satisfies services pattern lookup found then
        return some (projectRow services pattern lookup found)
      else return none

/-- The answers for all paths from all rows. -/
def answersOf (services : Services) (pattern : PathPattern) (lookup : Dict Int Value)
    (targets : List Candidate) (paths : List (Candidate × List Path)) :
    Except Raised (List Row) := do
  let answers ← (paths.flatMap fun (source, found) => found.map fun path => (source, path)).mapM
    fun (source, path) => answerOf services pattern lookup targets source path
  return answers.filterMap id

/-- `_execute_variable_length_pattern_query(db, query)` up to the modifiers: nothing, when the
enumeration of paths has run out of fuel. -/
def execute (services : Services) (fuel : Nat) (db : Database) (pool : BufferPool)
    (pattern : PathPattern) : Except Raised (Option (List Row)) := do
  let source_rows ← candidateRows services.runtime db pattern.source_node
  let target_rows ← candidateRows services.runtime db pattern.target_node
  let target_ids := target_rows.map Candidate.internal_id
  let adjacency ← typedAdjacency services.runtime db pool pattern.edge_types pattern.direction
    pattern.edge_filters
  let lookup ← nodeLookup services.runtime db
  match source_rows.mapM (fun source => (enumeratePathsToTargets fuel source.internal_id target_ids
      adjacency pattern.min_depth pattern.max_depth).map fun paths => (source, paths)) with
  | none => return none
  | some paths => return some (← answersOf services pattern lookup target_rows paths)

end CaracalDB.Paths
