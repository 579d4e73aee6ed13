import CaracalDB.PathAnswers

/-!
# What a process keeps of edges

A process keeps the edge tables that it has read in a pool, under the path of their
bundle, for as long as it lives; each handle keeps the adjacencies that were made of
them. A write makes the handle drop the adjacencies of the relations that it names,
but no table ever leaves the pool.
-/

namespace CaracalDB.Paths

open Database

/-- What `_typed_adjacency` is asked for. -/
structure AdjacencyRequest where
  edge_types : List String
  direction : String
  filters : Dict String Value
  order_by_property : Option String
  top_per_node : Option Int

/-- What is at hand of the bundle at one path: the tables that the process keeps, and the database
in the bundle with the caches of its handle. -/
structure Held where
  pool : BufferPool
  db : Database

section Reading

variable (runtime : Runtime) {Number : Type} [LinearOrder Number]
  (edgeNumber : EdgeStep → String → Except Raised Number)

/-! ## Adjacencies -/

/-- The key by which the steps from a node are sorted by a number, the greatest first. -/
def numberKey (numbered : Number × EdgeStep) : Numberᵒᵈ ×ₗ String ×ₗ ℤ ×ₗ ℤ :=
  toLex (OrderDual.toDual numbered.1, stepKey numbered.2)

/-- `steps.sort(key=...)` -/
def sortSteps (order_by_property : Option String) (steps : List EdgeStep) :
    Except Raised (List EdgeStep) :=
  match order_by_property with
  | none => .ok (ranked stepKey steps)
  | some name => do
      let numbered ← steps.mapM fun step => do return (← edgeNumber step name, step)
      return (ranked numberKey numbered).map Prod.snd

/-- `steps[:top_per_node]`: a negative bound counts from the end. -/
def cutSteps (top_per_node : Option Int) (steps : List EdgeStep) : List EdgeStep :=
  match top_per_node with
  | none => steps
  | some count =>
      if 0 ≤ count then steps.take count.toNat else steps.take (steps.length - count.natAbs)

/-- The edges of the listed relations as an adjacency. -/
def arrange (request : AdjacencyRequest) (edges : List StoredEdge) : Except Raised Adjacency := do
  let filed := (edges.flatMap (stepsOf request.direction)).foldl Dict.file Dict.empty
  let entries ← filed.entries.mapM fun (node, steps) => do
    return (node, cutSteps request.top_per_node
      (← sortSteps edgeNumber request.order_by_property steps))
  return Dict.ofEntries entries

/-! ## Reading what is kept -/

/-- `_get_arrow_table(db, relation)` -/
def keptTable (relation : String) : Call Held Raised EdgeTable :=
  Call.attempt fun held =>
    match held.pool.get? relation with
    | some table => .ok (table, held)
    | none =>
        match storedTable held.db relation with
        | .error raised => .error raised
        | .ok table =>
            -- the empty table of an unknown relation is not kept
            if (held.db.catalog.properties.by_name relation).isNone then .ok (table, held)
            else .ok (table, { held with pool := held.pool.set relation table })

/-- The edges of the listed relations that pass the filters. -/
def keptEdges (filters : Dict String Value) : List String → Call Held Raised (List StoredEdge)
  | [] => return []
  | relation :: relations => do
      let table ← keptTable relation
      let edges ← Call.ofExcept (edgesOf runtime filters relation table)
      let later ← keptEdges filters relations
      return edges ++ later

/-- `_typed_adjacency(db, edge_types=..., direction=..., filters=..., ...)` -/
def keptAdjacency (request : AdjacencyRequest) : Call Held Raised Adjacency := do
  let edges ← keptEdges runtime request.filters request.edge_types
  Call.ofExcept (arrange edgeNumber request edges)

/-- What the adjacency of a request is kept under. All callers pass no filters. -/
def AdjacencyRequest.key (request : AdjacencyRequest) : AdjacencyKey :=
  { edge_types := request.edge_types, direction := request.direction, filters := []
    order_by_property := request.order_by_property, top_per_node := request.top_per_node }

/-- The request whose adjacency is kept under a key. -/
def requestOf (key : AdjacencyKey) : AdjacencyRequest :=
  { edge_types := key.edge_types, direction := key.direction, filters := Dict.empty
    order_by_property := key.order_by_property, top_per_node := key.top_per_node }

/-- `_cached_typed_adjacency(db, edge_types=..., direction=..., filters={}, ...)` -/
def cachedAdjacency (request : AdjacencyRequest) : Call Held Raised Adjacency := do
  let held ← Call.current
  match held.db.typed_adjacency_cache.get? request.key with
  | some adjacency => return adjacency
  | none =>
      let adjacency ← keptAdjacency runtime edgeNumber (requestOf request.key)
      Call.change fun held => { held with db := { held.db with
        typed_adjacency_cache := held.db.typed_adjacency_cache.set request.key adjacency } }
      return adjacency

/-! ## Reading what is stored -/

/-- The edges of a relation that pass the filters, as they are stored. -/
def storedEdges (db : Database) (filters : Dict String Value) (relation : String) :
    Except Raised (List StoredEdge) := do
  edgesOf runtime filters relation (← storedTable db relation)

/-- The adjacency of a request as the stored edges make it. -/
def adjacencyNow (db : Database) (request : AdjacencyRequest) : Except Raised Adjacency := do
  let edges ← request.edge_types.mapM (storedEdges runtime db request.filters)
  arrange edgeNumber request edges.flatten

/-- What is kept is what is stored. -/
structure Current (held : Held) : Prop where
  tables : ∀ relation table, held.pool.get? relation = some table →
    storedTable held.db relation = .ok table
  adjacencies : ∀ key adjacency, held.db.typed_adjacency_cache.get? key = some adjacency →
    adjacencyNow runtime edgeNumber held.db (requestOf key) = .ok adjacency

section Current

variable {runtime edgeNumber} {held : Held}

theorem keptTable_run (current : Current runtime edgeNumber held) (relation : String) :
    ∃ after, Call.run (keptTable relation) held = (storedTable held.db relation, after) ∧
      after.db = held.db ∧ Current runtime edgeNumber after := by
  rw [keptTable, Call.run_attempt]
  cases kept : held.pool.get? relation with
  | some table => exact ⟨held, by rw [current.tables relation table kept], rfl, current⟩
  | none =>
    cases stored : storedTable held.db relation with
    | error raised => exact ⟨held, rfl, rfl, current⟩
    | ok table =>
      dsimp only
      by_cases unknown : (held.db.catalog.properties.by_name relation).isNone
      · rw [if_pos unknown]
        exact ⟨held, rfl, rfl, current⟩
      · rw [if_neg unknown]
        refine ⟨_, rfl, rfl, ?_, current.adjacencies⟩
        intro other otherTable otherKept
        rw [Dict.get_set] at otherKept
        split at otherKept
        · next here =>
          rw [here, ← Option.some.inj otherKept]
          exact stored
        · exact current.tables other otherTable otherKept

theorem keptEdges_run (current : Current runtime edgeNumber held) (filters : Dict String Value)
    (relations : List String) :
    ∃ after, Call.run (keptEdges runtime filters relations) held =
        (do return (← relations.mapM (storedEdges runtime held.db filters)).flatten, after) ∧
      after.db = held.db ∧ Current runtime edgeNumber after := by
  induction relations generalizing held with
  | nil => exact ⟨held, rfl, rfl, current⟩
  | cons relation relations inductionHypothesis =>
    obtain ⟨middle, reads, sameDb, later⟩ := keptTable_run current relation
    obtain ⟨after, rest, stillDb, last⟩ := inductionHypothesis later
    rw [keptEdges, Call.run_bind, reads, List.mapM_cons, storedEdges]
    cases storedTable held.db relation with
    | error raised => exact ⟨middle, rfl, sameDb, later⟩
    | ok table =>
      dsimp only
      rw [Call.run_bind, Call.run_ofExcept, ok_bind]
      cases edgesOf runtime filters relation table with
      | error raised => exact ⟨middle, rfl, sameDb, later⟩
      | ok edges =>
        dsimp only
        rw [Call.run_bind, rest, sameDb, ok_bind]
        refine ⟨after, ?_, stillDb.trans sameDb, last⟩
        cases relations.mapM (storedEdges runtime held.db filters) <;> rfl

theorem keptAdjacency_run (current : Current runtime edgeNumber held) (request : AdjacencyRequest) :
    ∃ after, Call.run (keptAdjacency runtime edgeNumber request) held =
        (adjacencyNow runtime edgeNumber held.db request, after) ∧
      after.db = held.db ∧ Current runtime edgeNumber after := by
  obtain ⟨after, reads, sameDb, later⟩ :=
    keptEdges_run current request.filters request.edge_types
  refine ⟨after, ?_, sameDb, later⟩
  rw [keptAdjacency, Call.run_bind, reads, adjacencyNow]
  cases request.edge_types.mapM (storedEdges runtime held.db request.filters) <;> rfl

/-- The adjacency that a handle answers is the one of the stored edges, and what is kept for it
is current. -/
theorem cachedAdjacency_run (current : Current runtime edgeNumber held)
    (request : AdjacencyRequest) :
    (Call.run (cachedAdjacency runtime edgeNumber request) held).1 =
        adjacencyNow runtime edgeNumber held.db (requestOf request.key) ∧
      Current runtime edgeNumber (Call.run (cachedAdjacency runtime edgeNumber request) held).2 := by
  rw [cachedAdjacency, Call.run_bind, Call.run_current]
  dsimp only
  cases kept : held.db.typed_adjacency_cache.get? request.key with
  | some adjacency => exact ⟨(current.adjacencies request.key adjacency kept).symm, current⟩
  | none =>
    obtain ⟨after, reads, sameDb, later⟩ := keptAdjacency_run current (requestOf request.key)
    dsimp only
    rw [Call.run_bind, reads]
    cases made : adjacencyNow runtime edgeNumber held.db (requestOf request.key) with
    | error raised => exact ⟨rfl, later⟩
    | ok adjacency =>
      refine ⟨rfl, later.tables, ?_⟩
      intro key other otherKept
      have stored : (after.db.typed_adjacency_cache.set request.key adjacency).get? key =
        some other := otherKept
      rw [Dict.get_set] at stored
      split at stored
      · next here =>
        have answered : adjacencyNow runtime edgeNumber after.db (requestOf request.key) =
            .ok adjacency := by rw [sameDb, made]
        rw [here, ← Option.some.inj stored]
        exact answered
      · exact later.adjacencies key other stored

end Current

end Reading

end CaracalDB.Paths
