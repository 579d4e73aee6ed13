import CaracalDB.GraphDatabase

/-!
# Node tables

A node table names each node by a key and a type. Each key gets an internal id,
the one it has already or the next one; the rows are then stored class by class.
The ids are handed out before anything is stored, and into the map that the handle
caches.
-/

namespace CaracalDB.Database

/-- The error of a table or row that a method does not accept. -/
def tableError (message : String) : Raised := .caracal { code := "CDB-7011", message }

/-- `_require_columns(row, columns, label)` -/
def requireColumns (row : Row) (columns : List String) (label : String) : Except Raised Unit :=
  let missing := columns.filter fun column => column ∉ row.keys
  refuse (missing ≠ []) (tableError (label ++ " row is missing required column(s): " ++
    ", ".intercalate missing))

/-- `_require_table_columns(table, columns, what)` -/
def requireTableColumns (table : Table) (columns : List String) (what : String) :
    Except Raised Unit :=
  let missing := columns.filter fun column => column ∉ table.names
  refuse (missing ≠ []) (.caracal
    { code := if what = "node table" then "CDB-7011" else "CDB-7021"
      message := what ++ " is missing required column(s): " ++ ", ".intercalate missing })

def checkNodeRow (key_col type_col : String) (row : Row) : Except Raised Unit := do
  requireColumns row [key_col, type_col] "node table"
  refuse (INTERNAL_GID_COLUMN ∈ row.keys)
    (tableError "node table must not include reserved column '_cdb_gid'")

/-! ### Handing out ids -/

/-- The ids of the keys so far, and the next id. -/
structure Numbering where
  ids : IdMap
  next_gid : Int

/-- The numbering with a key, and the id of the key. -/
def Numbering.assign (numbering : Numbering) (key : Value) : Numbering × Int :=
  match numbering.ids.get? key with
  | some gid => (numbering, gid)
  | none =>
      ({ ids := numbering.ids.set key numbering.next_gid, next_gid := numbering.next_gid + 1 },
        numbering.next_gid)

/-- The numbering that continues a map of ids. -/
def Numbering.of (ids : IdMap) : Numbering := { ids, next_gid := nextGid ids }

/-- Give a value its id; the handle's cache shares the map. -/
def assignKey (key_col : String) (numbering : Numbering) (value : Value) :
    Method (Numbering × Int) := do
  let key ← Call.ofExcept value.hashed
  Call.change (remember key_col (numbering.assign key).1.ids)
  return numbering.assign key

/-- Rows by the class that their type names, in the order in which the classes arrive. -/
abbrev Groups : Type := Dict String (List Row)

/-- `grouped.setdefault(name, []).append(row)` -/
def Groups.add (grouped : Groups) (name : String) (row : Row) : Groups :=
  grouped.set name ((grouped.get? name).getD [] ++ [row])

/-- One row of a node table: its key gets an id, then its type names a class. -/
def assignRow (key_col type_col : String) (state : Numbering × Groups) (row : Row) :
    Method (Numbering × Groups) := do
  let (numbering, gid) ← assignKey key_col state.1 (row.read key_col)
  let class_name ← Call.ofExcept (coerceLocalName (row.read type_col) "node type")
  return (numbering, Groups.add state.2 class_name (row.set INTERNAL_GID_COLUMN (.int gid)))

/-! ### Storing -/

/-- Store the rows of one class. -/
def storeClass (class_name : String) (table : Except Raised Table)
    (refs : Dict String ChunkRef) : Method (Dict String ChunkRef) := do
  defineClass class_name
  let table ← Call.ofExcept table
  let ref ← insertNodes class_name table
  return refs.set class_name ref

def storeGroup (runtime : Runtime) (refs : Dict String ChunkRef) (group : String × List Row) :
    Method (Dict String ChunkRef) :=
  storeClass group.1 (runtime.from_pylist group.2) refs

/-- `db.insert_node_table(rows, key_col=..., type_col=...)` of row dictionaries. -/
def insertNodeTable (runtime : Runtime) (payload : List Row) (key_col type_col : String) :
    Method (Dict String ChunkRef) := do
  Call.ofExcept (refuse (payload = []) (tableError "cannot insert an empty node table"))
  Call.ofExcept (payload.forM (checkNodeRow key_col type_col))
  let existing_ids ← externalIdMap runtime key_col
  let (_, grouped) ←
    payload.foldlM (assignRow key_col type_col) (Numbering.of existing_ids, Dict.empty)
  grouped.entries.foldlM (storeGroup runtime) Dict.empty

/-! ### Arrow tables -/

/-- `pa.array(values, type=pa.uint64())` -/
def uint64Array (values : List Int) : Except Raised Unit :=
  refuse (¬ ∀ value ∈ values, 0 ≤ value ∧ value < 2 ^ 64)
    (.arrowError "Value out of range for uint64")

/-- The ids of the distinct values of a column, and whether Arrow can look them up. -/
def lookUpIds (runtime : Runtime) (type : DataType) (unique_values : List Value)
    (gids : List Int) : Except Raised Unit := do
  uint64Array gids
  let (value_set, _) ← runtime.array unique_values
  runtime.index_in type value_set

/-- Give each of some values its id. -/
def assignKeys (key_col : String) (state : Numbering × List Int) (value : Value) :
    Method (Numbering × List Int) := do
  let (numbering, gid) ← assignKey key_col state.1 value
  return (numbering, state.2 ++ [gid])

/-- The id under which a map files a value. -/
def gidOf (ids : IdMap) (value : Value) : Value :=
  match value.hashed with
  | .error _ => .null
  | .ok key => match ids.get? key with
    | none => .null
    | some gid => .int gid

/-- `table[name].combine_chunks().unique().to_pylist()` -/
def uniqueKeys (table : Table) (name : String) : List Value := (table.column name).eraseDups

/-- The table with the id of each row's key. -/
def withGid (table : Table) (new : INTERNAL_GID_COLUMN ∉ table.names) (key_col : String)
    (ids : IdMap) : Table :=
  table.appendColumn { name := INTERNAL_GID_COLUMN, type := .uint64 } new
    fun row => gidOf ids (row.read key_col)

/-- Store the rows of one type. -/
def storeType (with_gid : Table) (type_col : String) (refs : Dict String ChunkRef)
    (raw_type : Value) : Method (Dict String ChunkRef) := do
  let class_name ← Call.ofExcept (coerceLocalName raw_type "node type")
  storeClass class_name (.ok (with_gid.filter fun row => row.read type_col = raw_type)) refs

/-- `db.insert_node_table_arrow(table, key_col=..., type_col=...)` -/
def insertNodeTableArrow (runtime : Runtime) (table : Table) (key_col type_col : String) :
    Method (Dict String ChunkRef) := do
  Call.ofExcept (refuse (table.rows = []) (tableError "cannot insert an empty node table"))
  Call.ofExcept (requireTableColumns table [key_col, type_col] "node table")
  if new : INTERNAL_GID_COLUMN ∉ table.names then
    let existing_ids ← externalIdMap runtime key_col
    Call.ofExcept (runtime.unique (table.typeOf key_col))
    let (numbering, gids) ← (uniqueKeys table key_col).foldlM (assignKeys key_col)
      (Numbering.of existing_ids, [])
    Call.ofExcept (lookUpIds runtime (table.typeOf key_col) (uniqueKeys table key_col) gids)
    Call.ofExcept (runtime.unique (table.typeOf type_col))
    (uniqueKeys table type_col).foldlM
      (storeType (withGid table new key_col numbering.ids) type_col) Dict.empty
  else Call.raise (tableError "node table must not include reserved column '_cdb_gid'")

end CaracalDB.Database
