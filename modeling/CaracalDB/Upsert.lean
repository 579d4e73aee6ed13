import CaracalDB.Resources

/-!
# Upserts

An upsert reads the rows of all stores into one dictionary under a key column,
merges the input into it, and writes the result back class by class: a store is
removed and created again. Stores without the key column and rows without a key
are not read; a class is written back if a row that was read or given has its
type.
-/

namespace CaracalDB.Database

/-- How many rows an upsert inserted, updated and skipped. -/
structure UpsertCounts where
  inserted : Nat := 0
  updated : Nat := 0
  skipped : Nat := 0
deriving DecidableEq

/-- `_strip_row_columns(row, {id_column, "_created_lsn", "_deleted_lsn"})` -/
def stripRow (id_column : String) (row : Row) : Row :=
  row.keep fun name => name ∉ [id_column, CREATED_LSN_COLUMN, DELETED_LSN_COLUMN]

/-- `row[name]` -/
def item (row : Row) (name : String) : Except Raised Value :=
  match row.get? name with
  | some value => .ok value
  | none => .error (.keyError name)

/-- What an upsert has read: the rows under their keys, and the classes to write back. -/
structure Collected where
  existing : Dict Value Row := Dict.empty
  touched : List String := []

/-- `rows_by_type`: the rows to write back, by class. -/
def rowsByType (label : String) (typeOf : Row → Option Value) (touched : List String)
    (final : Dict Value Row) : Except Raised Groups :=
  final.values.foldlM (fun grouped row =>
      match typeOf row with
      | none => .ok grouped
      | some type => do
          let name ← coerceLocalName type label
          return grouped.add name row)
    (touched.foldl (fun grouped name => grouped.set name []) Dict.empty)

/-! ## Nodes -/

/-- `max(max_gid, int(row["_cdb_gid"]))` of a row that has an id. -/
def highest (runtime : Runtime) (max_gid : Int) (row : Row) : Except Raised Int :=
  match row.get? INTERNAL_GID_COLUMN with
  | none => .ok max_gid
  | some gid => (runtime.toInt gid).map (max max_gid)

/-- A row under its key. -/
def fileNodeRow (runtime : Runtime) (key_col type_col : String) (state : Collected × Int)
    (clean : Row) : Except Raised (Collected × Int) := do
  let max_gid ← highest runtime state.2 clean
  let key ← (← item clean key_col).hashed
  let class_name ← coerceLocalName (← item clean type_col) "node type"
  return ({ existing := state.1.existing.set key clean
            touched := state.1.touched ++ [class_name] }, max_gid)

/-- One stored row, if it has a key. -/
def collectNode (runtime : Runtime) (key_col type_col : String) (state : Collected × Int)
    (row : StoredRow) : Except Raised (Collected × Int) :=
  let row := Store.publicRow NID_COLUMN row
  if row.read key_col = .null then .ok state
  else fileNodeRow runtime key_col type_col state (stripRow NID_COLUMN row)

/-- The rows of one node store. -/
def collectNodes (runtime : Runtime) (key_col type_col : String) (db : Database)
    (state : Collected × Int) (class_name : String) : Except Raised (Collected × Int) := do
  let cls ← db.catalog.find_class class_name
  let store ← db.openNodes cls.iri cls.localName
  if key_col ∈ store.column_names ∧ type_col ∈ store.column_names then
    store.rows.foldlM (collectNode runtime key_col type_col) state
  else return state

/-- The state of the loop over the input of an upsert. -/
structure Merging where
  existing : Dict Value Row
  final : Dict Value Row
  touched : List String
  next_gid : Int
  counts : UpsertCounts

/-- `{**old, **new}` with the id that the old row has or the next one. -/
def mergeNode (old new : Row) (next_gid : Int) : Row :=
  (old.update new).set INTERNAL_GID_COLUMN ((old.get? INTERNAL_GID_COLUMN).getD (.int next_gid))

/-- One row of the input. -/
def mergeNodeRow (key_col type_col : String) (update_existing : Bool) (state : Merging)
    (raw : Row) : Except Raised Merging := do
  requireColumns raw [key_col, type_col] "node table"
  let class_name ← coerceLocalName (raw.read type_col) "node type"
  let touched := state.touched ++ [class_name]
  let key ← (raw.read key_col).hashed
  match state.existing.get? key with
  | some old =>
      if update_existing then
        return { state with
          touched
          final := state.final.set key (mergeNode old raw state.next_gid)
          next_gid := if (old.get? INTERNAL_GID_COLUMN).isSome then state.next_gid
            else state.next_gid + 1
          counts := { state.counts with updated := state.counts.updated + 1 } }
      else return { state with
        touched
        counts := { state.counts with skipped := state.counts.skipped + 1 } }
  | none =>
      let out := raw.set INTERNAL_GID_COLUMN (.int state.next_gid)
      return { existing := state.existing.set key out
               final := state.final.set key out
               touched
               next_gid := state.next_gid + 1
               counts := { state.counts with inserted := state.counts.inserted + 1 } }

/-- `shutil.rmtree(bundle.child("nodes", local_name))` of a directory that exists. -/
def removeNodes (local_name : String) : Method Unit :=
  if local_name = "." then Call.change fun db => { db with nodes := Dict.empty }
  else if local_name = ".." then do
    Call.change fun db =>
      { db with
        nodes := Dict.empty, edges := Dict.empty, snapshots := Dict.empty, graph := Dict.empty }
    Call.raise (.osError "nodes/..")
  else Call.change fun db => { db with nodes := db.nodes.erase local_name }

/-- `_replace_node_store_rows(db, class_name, rows)` -/
def replaceNodeRows (runtime : Runtime) (class_name : String) (rows : List Row) :
    Method Unit := do
  let cls ← Call.ask fun db => db.catalog.find_class class_name
  removeNodes cls.localName
  createNodes cls.iri cls.localName
  if rows = [] then return ()
  else
    let table ← Call.ofExcept (runtime.from_pylist (rows.map (stripRow NID_COLUMN)))
    let _ ← appendNodes cls.localName table

/-- Write one class back. -/
def rewriteClass (runtime : Runtime) (group : String × List Row) : Method Unit := do
  defineClass group.1
  replaceNodeRows runtime group.1 group.2

/-- What an upsert of nodes will write back, and its counts. -/
def planNodes (runtime : Runtime) (table : Table) (key_col type_col : String)
    (update_existing : Bool) (db : Database) : Except Raised (Groups × UpsertCounts) := do
  refuse (table.rows = []) (tableError "cannot upsert an empty node table")
  requireTableColumns table [key_col, type_col] "node table"
  refuse (INTERNAL_GID_COLUMN ∈ table.names)
    (tableError "node upsert table must not include reserved column '_cdb_gid'")
  let (collected, max_gid) ←
    db.list_node_stores.foldlM (collectNodes runtime key_col type_col db) ({}, -1)
  let merging ← table.rows.foldlM (mergeNodeRow key_col type_col update_existing)
    { existing := collected.existing
      final := collected.existing
      touched := collected.touched
      next_gid := max_gid + 1
      counts := {} }
  let grouped ← rowsByType "node type" (Dict.get? · type_col) merging.touched merging.final
  return (grouped, merging.counts)

/-- The groups in the order of `sorted(rows_by_type)`. -/
def sortedGroups (grouped : Groups) : List (String × List Row) :=
  (sortedNames grouped).map fun name => (name, (grouped.get? name).getD [])

/-- `_upsert_node_table_arrow(db, table, key_col=..., ...)` -/
def upsertNodeTable (runtime : Runtime) (table : Table) (key_col type_col : String)
    (update_existing : Bool) : Method UpsertCounts := do
  let (grouped, counts) ← Call.ask (planNodes runtime table key_col type_col update_existing)
  (sortedGroups grouped).foldlM (fun _ group => rewriteClass runtime group) ()
  invalidateAll
  return counts

/-! ## Edges -/

/-- An edge under its key. -/
def fileEdgeRow (edge_key_col type_col relation : String) (state : Collected) (clean : Row) :
    Except Raised Collected := do
  let key ← (← item clean edge_key_col).hashed
  let name ← coerceLocalName ((clean.get? type_col).getD (.str relation)) "edge type"
  return { existing := state.existing.set key clean, touched := state.touched ++ [name] }

/-- One stored edge, if it has a key. -/
def collectEdge (edge_key_col type_col relation : String) (state : Collected)
    (row : StoredRow) : Except Raised Collected :=
  let row := Store.publicRow EID_COLUMN row
  if row.read edge_key_col = .null then .ok state
  else fileEdgeRow edge_key_col type_col relation state (stripRow EID_COLUMN row)

/-- The edges of one store. -/
def collectEdges (edge_key_col type_col : String) (db : Database) (state : Collected)
    (relation : String) : Except Raised Collected :=
  match db.catalog.properties.by_name relation with
  | none => .ok state
  | some prop => do
      let store ← db.openEdges prop.iri prop.localName
      if edge_key_col ∈ store.column_names then
        store.rows.foldlM (collectEdge edge_key_col type_col relation) state
      else return state

/-- A row with its endpoints resolved. -/
def resolvedRow (id_map : IdMap) (columns : EdgeColumns) (raw : Row) : Except Raised Row := do
  let src ← resolveNodeId id_map (raw.read columns.src_col) columns.src_col
  let dst ← resolveNodeId id_map (raw.read columns.dst_col) columns.dst_col
  return ((raw.set SRC_COLUMN (.int src)).set DST_COLUMN (.int dst)).set columns.type_col
    (raw.read columns.type_col)

/-- One row of the input. -/
def mergeEdgeRow (edge_key_col : String) (columns : EdgeColumns) (update_existing : Bool)
    (id_map : IdMap) (state : Merging) (raw : Row) : Except Raised Merging := do
  requireColumns raw [edge_key_col, columns.src_col, columns.dst_col, columns.type_col]
    "edge table"
  let relation ← coerceLocalName (raw.read columns.type_col) "edge type"
  let touched := state.touched ++ [relation]
  let resolved ← resolvedRow id_map columns raw
  let key ← (raw.read edge_key_col).hashed
  match state.existing.get? key with
  | some old =>
      if update_existing then
        return { state with
          touched
          final := state.final.set key (old.update resolved)
          counts := { state.counts with updated := state.counts.updated + 1 } }
      else return { state with
        touched
        counts := { state.counts with skipped := state.counts.skipped + 1 } }
  | none =>
      return { state with
        existing := state.existing.set key resolved
        final := state.final.set key resolved
        touched
        counts := { state.counts with inserted := state.counts.inserted + 1 } }

/-- `_default_edge_upsert_key(row, src_col=..., ...)` -/
def defaultEdgeKey (columns : EdgeColumns) (row : Row) : String :=
  let qualifiers := (["index_name", "metric"].filter fun name => row.read name ≠ .null).map
    fun name => (row.read name).toText
  let qualifier := if qualifiers = [] then "" else "|" ++ "|".intercalate qualifiers
  (row.read columns.type_col).toText ++ ":" ++ (row.read columns.src_col).toText ++ "->" ++
    (row.read columns.dst_col).toText ++ qualifier

/-- The input with a key column, computed if it brings none. -/
def withEdgeKey (table : Table) (edge_key_col : String) (columns : EdgeColumns) : Table :=
  if new : edge_key_col ∉ table.names then
    table.appendColumn { name := edge_key_col, type := .string } new
      fun row => .str (defaultEdgeKey columns row)
  else table

/-- `shutil.rmtree(bundle.child("edges", local_name))` of a directory that exists. -/
def removeEdges (local_name : String) : Method Unit :=
  if local_name = "." then Call.change fun db => { db with edges := Dict.empty }
  else if local_name = ".." then do
    Call.change fun db =>
      { db with
        nodes := Dict.empty, edges := Dict.empty, snapshots := Dict.empty, graph := Dict.empty }
    Call.raise (.osError "edges/..")
  else Call.change fun db => { db with edges := db.edges.erase local_name }

/-- `_replace_edge_store_rows(db, relation, rows)` -/
def replaceEdgeRows (runtime : Runtime) (relation : String) (rows : List Row) :
    Method Unit := do
  let prop ← Call.ask fun db => db.catalog.find_property relation
  removeEdges prop.localName
  createEdges prop.iri prop.localName
  if rows = [] then return ()
  else
    let table ← Call.ofExcept (edgeTable runtime (rows.map (stripRow EID_COLUMN)))
    let _ ← appendEdges prop.localName table []

/-- Write one relation back. -/
def rewriteRelation (runtime : Runtime) (group : String × List Row) : Method Unit := do
  let _ ← defineProperty group.1 none
  replaceEdgeRows runtime group.1 group.2
  invalidateRelation group.1

/-- The input of an upsert of edges once its columns are accepted. -/
def edgeInput (table : Table) (edge_key_col : String) (columns : EdgeColumns) :
    Except Raised Table := do
  refuse (table.rows = []) (edgeTableError "cannot upsert an empty edge table")
  requireTableColumns table [columns.src_col, columns.dst_col, columns.type_col] "edge table"
  let table := withEdgeKey table edge_key_col columns
  refuse (EID_COLUMN ∈ table.names) (edgeTableError
    "edge upsert table must not include an 'eid' column; it is assigned")
  return table

/-- What an upsert of edges will write back, and its counts. -/
def planEdges (table : Table) (edge_key_col : String) (columns : EdgeColumns)
    (update_existing : Bool) (collected : Collected) (id_map : IdMap) :
    Except Raised (Groups × UpsertCounts) := do
  let merging ← table.rows.foldlM (mergeEdgeRow edge_key_col columns update_existing id_map)
    { existing := collected.existing
      final := collected.existing
      touched := collected.touched
      next_gid := 0
      counts := {} }
  let grouped ← rowsByType "edge type" (fun row => some (row.read columns.type_col))
    merging.touched merging.final
  return (grouped, merging.counts)

/-- `_upsert_edge_table_arrow(db, table, edge_key_col=..., ...)` -/
def upsertEdgeTable (runtime : Runtime) (table : Table) (edge_key_col : String)
    (columns : EdgeColumns) (update_existing : Bool) : Method UpsertCounts := do
  let table ← Call.ofExcept (edgeInput table edge_key_col columns)
  let collected ← Call.ask fun db =>
    db.list_edge_stores.foldlM (collectEdges edge_key_col columns.type_col db) {}
  let id_map ← externalIdMap runtime columns.node_key_col
  let (grouped, counts) ← Call.ofExcept
    (planEdges table edge_key_col columns update_existing collected id_map)
  (sortedGroups grouped).foldlM (fun _ group => rewriteRelation runtime group) ()
  return counts

end CaracalDB.Database
