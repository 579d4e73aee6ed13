import CaracalDB.Upsert

/-!
# Writes

The public methods that store rows, as one kind of request, and the runs of such
requests on one handle.
-/

namespace CaracalDB

/-- A database in a new bundle. -/
def Database.create (path : String) : Database :=
  { bundle := { path, manifest := {} }
    catalog := {}
    nodes := Dict.empty
    edges := Dict.empty
    snapshots := Dict.empty
    graph := Dict.empty
    csr_cache := Dict.empty
    external_id_map_cache := Dict.empty
    typed_adjacency_cache := Dict.empty }

inductive Write where
  | insert_nodes (class_name : String) (rows : List Row)
  | insert_nodes_arrow (class_name : String) (table : Table)
  | insert_node_table (rows : List Row) (key_col type_col : String)
  | insert_node_table_arrow (table : Table) (key_col type_col : String)
  | insert_edge_table (rows : List Row) (columns : Database.EdgeColumns)
  | insert_edge_table_arrow (table : Table) (columns : Database.EdgeColumns)
  | insert_triples (triples : List Row) (columns : Database.TripleColumns) (policy : String)
  | import_resource (obj : Row) (policy : String)
  | upsert_node_table_arrow (table : Table) (key_col type_col : String) (update_existing : Bool)
  | upsert_edge_table_arrow (table : Table) (edge_key_col : String)
      (columns : Database.EdgeColumns) (update_existing : Bool)

/-- What a write answers. -/
inductive Answer where
  | chunk (ref : ChunkRef)
  | chunks (refs : Dict String ChunkRef)
  | graph (refs : Database.GraphRefs)
  | counts (counts : Database.UpsertCounts)

namespace Write

open Database

/-- The method that a write calls. -/
def call (runtime : Runtime) : Write → Method Answer
  | .insert_nodes class_name rows => do
      let table ← Call.ofExcept (runtime.from_pylist rows)
      return .chunk (← insertNodes class_name table)
  | .insert_nodes_arrow class_name table => return .chunk (← insertNodes class_name table)
  | .insert_node_table rows key_col type_col =>
      return .chunks (← insertNodeTable runtime rows key_col type_col)
  | .insert_node_table_arrow table key_col type_col =>
      return .chunks (← insertNodeTableArrow runtime table key_col type_col)
  | .insert_edge_table rows columns => return .chunks (← insertEdgeTable runtime rows columns)
  | .insert_edge_table_arrow table columns =>
      return .chunks (← insertEdgeTableArrow runtime table columns)
  | .insert_triples triples columns policy =>
      return .graph (← insertTriples runtime triples columns policy)
  | .import_resource obj policy => return .graph (← importResource runtime obj policy)
  | .upsert_node_table_arrow table key_col type_col update_existing =>
      return .counts (← upsertNodeTable runtime table key_col type_col update_existing)
  | .upsert_edge_table_arrow table edge_key_col columns update_existing =>
      return .counts (← upsertEdgeTable runtime table edge_key_col columns update_existing)

/-- What a write answers or raises. -/
def result (runtime : Runtime) (write : Write) (db : Database) : Except Raised Answer :=
  (Call.run (write.call runtime) db).1

/-- The database after a write, whether it answered or raised. -/
def after (runtime : Runtime) (write : Write) (db : Database) : Database :=
  (Call.run (write.call runtime) db).2

/-- The database after a run of writes. -/
def afterAll (runtime : Runtime) (writes : List Write) (db : Database) : Database :=
  writes.foldl (fun db write => write.after runtime db) db

end Write

end CaracalDB
