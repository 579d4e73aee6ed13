import CaracalDB.NodeTable

/-!
# Edge tables

An edge table names its endpoints by the keys of nodes. The endpoints of all rows
are resolved before anything is stored; the edges are then stored relation by
relation.
-/

namespace CaracalDB.Database

def edgeTableError (message : String) : Raised := .caracal { code := "CDB-7021", message }

/-- The columns of an edge table that the engine reads. -/
structure EdgeColumns where
  src_col : String := "src"
  dst_col : String := "dst"
  type_col : String := "type"
  node_key_col : String := "node_id"

/-- Whether a column is none of the three that name an edge. -/
def EdgeColumns.isProperty (columns : EdgeColumns) (name : String) : Bool :=
  name ≠ columns.src_col && name ≠ columns.dst_col && name ≠ columns.type_col

/-- `_resolve_external_node_id(id_map, value, column)` -/
def resolveNodeId (id_map : IdMap) (value : Value) (column : String) : Except Raised Int := do
  let key ← value.hashed
  match id_map.get? key with
  | some gid => .ok gid
  | none => .error (.caracal
      { code := "CDB-7021"
        message := "edge " ++ Value.quoted column ++ " references unknown node_id: " ++ value.repr
        hint := some "insert the node table before inserting edges" })

/-- The relation and the stored columns of one row. -/
def resolveEdge (id_map : IdMap) (columns : EdgeColumns) (row : Row) :
    Except Raised (String × Row) := do
  requireColumns row [columns.src_col, columns.dst_col, columns.type_col] "edge table"
  refuse (EID_COLUMN ∈ row.keys) (edgeTableError
    "edge table must not include an 'eid' column; it is assigned by the store")
  let relation ← coerceLocalName (row.read columns.type_col) "edge type"
  let src ← resolveNodeId id_map (row.read columns.src_col) columns.src_col
  let dst ← resolveNodeId id_map (row.read columns.dst_col) columns.dst_col
  let out := ((row.keep columns.isProperty).set SRC_COLUMN (.int src)).set DST_COLUMN (.int dst)
  return (relation, out.set columns.type_col (row.read columns.type_col))

def groupEdge (id_map : IdMap) (columns : EdgeColumns) (grouped : Groups) (row : Row) :
    Except Raised Groups := do
  let (relation, out) ← resolveEdge id_map columns row
  return grouped.add relation out

/-- `table.set_column(index, name, table[name].cast(pa.uint64()))` -/
def castColumn (runtime : Runtime) (name : String) (table : Table) : Except Raised Table := do
  let values ← runtime.castUInt64 (table.typeOf name) (table.column name)
  return Table.build
    (table.fields.map fun field => if field.name = name then { name, type := .uint64 } else field)
    (by
      have names : (table.fields.map fun field =>
          if field.name = name then ({ name, type := .uint64 } : Field) else field).map
            Field.name = table.names := by
        rw [List.map_map]
        apply List.map_congr_left
        intro field _
        by_cases same : field.name = name
        · simp [same]
        · simp [same]
      rw [names]
      exact table.distinct)
    (table.rows.zipIdx.map fun (row, index) column =>
      if column = name then values.getD index .null else row.read column)

/-- `_edge_table(rows)` -/
def edgeTable (runtime : Runtime) (rows : List Row) : Except Raised Table := do
  let table ← runtime.from_pylist rows
  let table ← castColumn runtime SRC_COLUMN table
  castColumn runtime DST_COLUMN table

/-- Store the edges of one relation. -/
def storeRelation (relation : String) (table : Except Raised Table) (repeated : List String)
    (refs : Dict String ChunkRef) : Method (Dict String ChunkRef) := do
  let prop ← defineProperty relation none
  createEdges prop.iri prop.localName
  let table ← Call.ofExcept table
  let ref ← appendEdges prop.localName table repeated
  invalidateRelation relation
  return refs.set relation ref

def storeEdges (runtime : Runtime) (refs : Dict String ChunkRef) (group : String × List Row) :
    Method (Dict String ChunkRef) :=
  storeRelation group.1 (edgeTable runtime group.2) [] refs

/-- `db.insert_edge_table(rows, src_col=..., ...)` of row dictionaries. -/
def insertEdgeTable (runtime : Runtime) (payload : List Row) (columns : EdgeColumns) :
    Method (Dict String ChunkRef) := do
  Call.ofExcept (refuse (payload = []) (edgeTableError "cannot insert an empty edge table"))
  let id_map ← externalIdMap runtime columns.node_key_col
  let grouped ← Call.ofExcept (payload.foldlM (groupEdge id_map columns) Dict.empty)
  grouped.entries.foldlM (storeEdges runtime) Dict.empty

/-! ### Arrow tables -/

/-- `_resolve_external_node_array(id_map, table[column], column)` -/
def resolveNodeArray (runtime : Runtime) (id_map : IdMap) (table : Table) (column : String) :
    Except Raised Unit := do
  runtime.unique (table.typeOf column)
  let gids ← (uniqueKeys table column).mapM fun value => resolveNodeId id_map value column
  lookUpIds runtime (table.typeOf column) (uniqueKeys table column) gids

/-- Of the two endpoint columns, those that the resolved table has more than once. -/
def repeatedColumns (table : Table) (columns : EdgeColumns) : List String :=
  [SRC_COLUMN, DST_COLUMN].filter fun name =>
    name = columns.type_col || (name ∈ table.names && columns.isProperty name)

/-- The columns of the resolved table, each name once. -/
def resolvedFields (table : Table) (columns : EdgeColumns) : List Field :=
  (table.fields.filter fun field => columns.isProperty field.name &&
      field.name ≠ SRC_COLUMN && field.name ≠ DST_COLUMN) ++
    [{ name := SRC_COLUMN, type := .uint64 }, { name := DST_COLUMN, type := .uint64 }] ++
    if columns.type_col = SRC_COLUMN ∨ columns.type_col = DST_COLUMN then []
    else [{ name := columns.type_col, type := table.typeOf columns.type_col }]

theorem resolvedFields_distinct (table : Table) (columns : EdgeColumns) :
    ((resolvedFields table columns).map Field.name).Nodup := by
  have properties : ((table.fields.filter fun field => columns.isProperty field.name &&
      field.name ≠ SRC_COLUMN && field.name ≠ DST_COLUMN).map Field.name).Nodup :=
    table.distinct.sublist (List.filter_sublist.map Field.name)
  have differs : SRC_COLUMN ≠ DST_COLUMN := by decide
  unfold resolvedFields
  rw [List.map_append, List.map_append, List.nodup_append, List.nodup_append]
  refine ⟨⟨properties, ?_, ?_⟩, ?_, ?_⟩
  · simpa using differs
  · intro name member other endpoint same
    obtain ⟨field, kept, rfl⟩ := List.mem_map.mp member
    have accepted := List.of_mem_filter kept
    simp only [List.map_cons, List.map_nil, List.mem_cons, List.not_mem_nil, or_false] at endpoint
    simp only [Bool.and_eq_true, decide_eq_true_eq] at accepted
    rcases endpoint with src | dst
    · exact accepted.1.2 (same.trans src)
    · exact accepted.2 (same.trans dst)
  · split
    · exact List.nodup_nil
    · exact List.nodup_singleton _
  · intro name member other last same
    split at last
    · cases last
    · next distinct =>
      push Not at distinct
      have isType : other = columns.type_col := by simpa using last
      rcases List.mem_append.mp member with property | endpoint
      · obtain ⟨field, kept, rfl⟩ := List.mem_map.mp property
        have accepted := List.of_mem_filter kept
        simp only [Bool.and_eq_true, decide_eq_true_eq, EdgeColumns.isProperty] at accepted
        exact accepted.1.1.2 (same.trans isType)
      · simp only [List.map_cons, List.map_nil, List.mem_cons, List.not_mem_nil,
          or_false] at endpoint
        rcases endpoint with src | dst
        · exact distinct.1 (isType.symm.trans (same.symm.trans src))
        · exact distinct.2 (isType.symm.trans (same.symm.trans dst))

/-- The table with resolved endpoints. -/
def resolvedTable (id_map : IdMap) (table : Table) (columns : EdgeColumns) : Table :=
  Table.build (resolvedFields table columns) (resolvedFields_distinct table columns)
    (table.rows.map fun row name =>
      if name = SRC_COLUMN then gidOf id_map (row.read columns.src_col)
      else if name = DST_COLUMN then gidOf id_map (row.read columns.dst_col)
      else row.read name)

/-- Store the edges of one type. -/
def storeEdgeType (id_map : IdMap) (table : Table) (columns : EdgeColumns)
    (refs : Dict String ChunkRef) (raw_type : Value) : Method (Dict String ChunkRef) := do
  let relation ← Call.ofExcept (coerceLocalName raw_type "edge type")
  let group := table.filter fun row => row.read columns.type_col = raw_type
  storeRelation relation (.ok (resolvedTable id_map group columns))
    (repeatedColumns table columns) refs

/-- `db.insert_edge_table_arrow(table, src_col=..., ...)` -/
def insertEdgeTableArrow (runtime : Runtime) (table : Table) (columns : EdgeColumns) :
    Method (Dict String ChunkRef) := do
  Call.ofExcept (refuse (table.rows = []) (edgeTableError "cannot insert an empty edge table"))
  Call.ofExcept (requireTableColumns table
    [columns.src_col, columns.dst_col, columns.type_col] "edge table")
  Call.ofExcept (refuse (EID_COLUMN ∈ table.names) (edgeTableError
    "edge table must not include an 'eid' column; it is assigned by the store"))
  let id_map ← externalIdMap runtime columns.node_key_col
  Call.ofExcept (resolveNodeArray runtime id_map table columns.src_col)
  Call.ofExcept (resolveNodeArray runtime id_map table columns.dst_col)
  Call.ofExcept (runtime.unique (table.typeOf columns.type_col))
  (uniqueKeys table columns.type_col).foldlM (storeEdgeType id_map table columns) Dict.empty

end CaracalDB.Database
