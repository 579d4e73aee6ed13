import CaracalDB.GraphStore

/-!
# Stores with two writers

A store of nodes or edges may be written by the Python engine and by the Rust
engine. Each builds the schema of a chunk in its own way: Python makes every field
nullable, Rust keeps what the stream says and makes the id and the creation LSN
non-nullable. Both compare an append with the first chunk by names and types only;
Python reads a table from chunks of one schema, nullability included.
-/

namespace CaracalDB.Mixed

structure SchemaField where
  name : String
  type : DataType
  nullable : Bool
deriving DecidableEq

abbrev Schema : Type := List SchemaField

namespace Schema

/-- `schema.names` -/
def names (schema : Schema) : List String := schema.map SchemaField.name

/-- `schema.field(name)` of the Python library, which finds no field under a name that occurs more
than once. -/
def field (schema : Schema) (name : String) : Except Raised SchemaField :=
  match schema.filter fun field => field.name = name with
  | [found] => .ok found
  | _ => .error (.keyError ("Column " ++ name ++ " does not exist in schema"))

/-- `_public_names(schema)` -/
def publicNames (schema : Schema) : List String :=
  schema.names.filter fun name => name ≠ CREATED_LSN_COLUMN ∧ name ≠ DELETED_LSN_COLUMN

end Schema

/-- What an append is given: the batches of a stream, or of a table that is made into one batch. -/
structure Input where
  schema : Schema
  batches : List (List (List Value))

def Input.rows (input : Input) : List (List Value) := input.batches.flatten

/-- A row of a chunk: its id, the values of the columns that the caller brought, and its LSN. -/
structure ChunkRow where
  id : Nat
  values : List Value
  created_lsn : Nat
deriving DecidableEq

/-- A column segment: batches of one schema. -/
structure Chunk where
  schema : Schema
  batches : List (List ChunkRow)
deriving DecidableEq

/-- The directory of a store: the next id of its manifest and its chunks. -/
structure StoreFiles where
  next_id : Nat
  chunks : List Chunk
deriving DecidableEq

inductive Kind where
  | nodes
  | edges
deriving DecidableEq

namespace Kind

def id_column : Kind → String
  | .nodes => NID_COLUMN
  | .edges => EID_COLUMN

def appendError : Kind → String → Raised
  | .nodes => NodeStore.appendError
  | .edges => EdgeStore.appendError

/-- `node batch` or `edge batch` -/
def label : Kind → String
  | .nodes => "node batch"
  | .edges => "edge batch"

def emptyError (kind : Kind) : Raised := kind.appendError ("cannot append empty " ++ kind.label)

/-- The error of a batch that brings a column of the store. -/
def reservedError : Kind → List String → Raised
  | .nodes => NodeStore.reservedError
  | .edges => EdgeStore.reservedError

end Kind

/-- `REQUIRED_EDGE_COLUMNS` -/
def REQUIRED_EDGE_COLUMNS : List String := [SRC_COLUMN, DST_COLUMN]

/-- Rows under the next ids, batch by batch. -/
def numberBatches (created_lsn : Nat) : Nat → List (List (List Value)) → List (List ChunkRow)
  | _, [] => []
  | start, batch :: batches =>
      (batch.zipIdx start).map (fun (values, id) => { id, values, created_lsn }) ::
        numberBatches created_lsn (start + batch.length) batches

/-- The store with one more chunk. -/
def StoreFiles.push (store : StoreFiles) (schema : Schema) (batches : List (List (List Value)))
    (created_lsn : Nat) : StoreFiles :=
  { next_id := store.next_id + batches.flatten.length
    chunks := store.chunks ++
      [{ schema, batches := numberBatches created_lsn store.next_id batches }] }

/-! ## Python -/

/-- The schema of `pa.RecordBatch.from_arrays([ids, *columns, created, deleted], names=[...])` -/
def pythonSchema (kind : Kind) (schema : Schema) : Schema :=
  { name := kind.id_column, type := .uint64, nullable := true } ::
    schema.map (fun field => { field with nullable := true }) ++
      [{ name := CREATED_LSN_COLUMN, type := .uint64, nullable := true },
        { name := DELETED_LSN_COLUMN, type := .uint64, nullable := true }]

/-- Columns of the same names whose types differ. -/
def compareTypes (expected actual : Schema) (drift : SchemaField → SchemaField → Raised) :
    List String → Except Raised Unit
  | [] => .ok ()
  | name :: names => do
      let left ← expected.field name
      let right ← actual.field name
      refuse (left.type ≠ right.type) (drift left right)
      compareTypes expected actual drift names

/-- `_ensure_compatible(expected, actual)` -/
def ensureCompatible (expected actual : Schema) : Except Raised Unit := do
  refuse (expected.publicNames ≠ actual.publicNames) (NodeStore.appendError
    ("node batch schema mismatch: expected columns " ++ namesText expected.publicNames ++
      ", got " ++ namesText actual.publicNames))
  compareTypes expected actual (fun left right => NodeStore.appendError ("node batch column " ++
    Value.quoted left.name ++ " type mismatch: expected " ++ left.type.toText ++ ", got " ++
      right.type.toText)) expected.publicNames

/-- No column takes a name of the store. -/
def Reserved (kind : Kind) (names : List String) : Prop :=
  kind.id_column ∈ names ∨ CREATED_LSN_COLUMN ∈ names ∨ DELETED_LSN_COLUMN ∈ names

instance (kind : Kind) (names : List String) : Decidable (Reserved kind names) :=
  inferInstanceAs (Decidable (_ ∨ _ ∨ _))

/-- `NodeStore.append(batch, created_lsn=...)` -/
def pythonAppendNodes (store : StoreFiles) (input : Input) (created_lsn : Nat) :
    Except Raised StoreFiles := do
  refuse (input.rows = []) (Kind.emptyError .nodes)
  refuse (Reserved .nodes input.schema.names) (NodeStore.reservedError input.schema.names)
  match store.chunks.head? with
  | none => pure ()
  | some chunk => ensureCompatible chunk.schema (pythonSchema .nodes input.schema)
  return store.push (pythonSchema .nodes input.schema) [input.rows] created_lsn

/-- The part of `_validate_batch` that compares with the established schema. -/
def compareEstablished (established schema : Schema) : Except Raised Unit := do
  refuse (established.publicNames ≠ schema.publicNames) (EdgeStore.appendError
    ("edge batch column drift: expected " ++ namesText established.publicNames ++
      ", got " ++ namesText schema.publicNames))
  compareTypes established schema (fun left right => EdgeStore.appendError ("edge batch column " ++
    Value.quoted left.name ++ " type mismatch: " ++ left.type.toText ++ " vs " ++
      right.type.toText)) schema.publicNames

/-- `_validate_batch(batch, established_schema=...)` -/
def validateBatch (input : Input) (established : Option Schema) : Except Raised Unit := do
  refuse (input.rows = []) (Kind.emptyError .edges)
  refuse (Reserved .edges input.schema.names) (EdgeStore.reservedError input.schema.names)
  match REQUIRED_EDGE_COLUMNS.find? fun required => required ∉ input.schema.names with
  | some required => .error (EdgeStore.appendError
      ("edge batch is missing required column " ++ Value.quoted required))
  | none => .ok ()
  let src ← input.schema.field SRC_COLUMN
  let dst ← input.schema.field DST_COLUMN
  refuse (src.type ≠ .uint64 ∨ dst.type ≠ .uint64)
    (EdgeStore.appendError "edge 'src' and 'dst' must be UInt64 (nid) columns")
  match established with
  | none => return ()
  | some established => compareEstablished established input.schema

/-- The schema of the first chunk without the ids, if there is a chunk. -/
def establishedSchema (store : StoreFiles) : Except Raised (Option Schema) :=
  match store.chunks.head? with
  | none => .ok none
  | some chunk =>
      ((chunk.schema.names.filter fun name => name ≠ EID_COLUMN).mapM chunk.schema.field).map some

/-- `EdgeStore.append(batch, created_lsn=...)` -/
def pythonAppendEdges (store : StoreFiles) (input : Input) (created_lsn : Nat) :
    Except Raised StoreFiles := do
  let established ← establishedSchema store
  validateBatch input established
  return store.push (pythonSchema .edges input.schema) [input.rows] created_lsn

def pythonAppend : Kind → StoreFiles → Input → Nat → Except Raised StoreFiles
  | .nodes => pythonAppendNodes
  | .edges => pythonAppendEdges

/-- `store.scan()`: the batches with their public columns. -/
def pythonScan (store : StoreFiles) : Except Raised (List (Schema × List ChunkRow)) :=
  (store.chunks.flatMap fun chunk => chunk.batches.map fun rows => (chunk.schema, rows)).mapM
    fun (schema, rows) => do
      return (← schema.publicNames.mapM schema.field, rows)

/-- The id of a row and the values that the caller brought. -/
def ChunkRow.public (row : ChunkRow) : Nat × List Value := (row.id, row.values)

/-- `store.to_table()` -/
def pythonToTable (store : StoreFiles) : Except Raised (List (Nat × List Value)) := do
  let batches ← pythonScan store
  match batches.find? fun batch => batches.head?.map Prod.fst ≠ some batch.1 with
  | some _ => .error (.arrowError "Schema at index was different")
  | none => .ok (batches.flatMap fun batch => batch.2.map ChunkRow.public)

/-! ## Rust -/

/-- A text as `{:?}` shows it. -/
def debugText (text : String) : String :=
  String.ofList ('"' :: text.toList.flatMap (Value.escapeChar '"') ++ ['"'])

def debugNames (names : List String) : String := "[" ++ ", ".intercalate (names.map debugText) ++ "]"

/-- A type as `{}` shows it. -/
def displayType : DataType → String
  | .null => "Null"
  | .bool => "Boolean"
  | .int64 => "Int64"
  | .uint64 => "UInt64"
  | .double => "Float64"
  | .string => "Utf8"
  | .other name => name

def rustError (code message : String) : Raised := .caracal { code, message }

/-- The values of a column that a non-nullable field does not allow. -/
def nullViolation (schema : Schema) (row : List Value) : Option SchemaField :=
  ((schema.zip row).find? fun (field, value) => !field.nullable && value = .null).map Prod.fst

/-- `read_ipc_batches(ipc_stream)`: a batch is refused whose non-nullable column has a null. -/
def readIpcBatches (input : Input) : Except Raised Unit :=
  match input.rows.findSome? (nullViolation input.schema) with
  | none => .ok ()
  | some field => .error (rustError "CDB-7001" ("invalid Arrow IPC batch: Invalid argument error: " ++
      "Column '" ++ field.name ++ "' is declared as non-nullable but contains null values"))

/-- `schema.field_with_name(name)` of the Rust library: the first field of a name. -/
def fieldWithName (schema : Schema) (name : String) : Option SchemaField :=
  schema.find? fun field => field.name = name

/-- `validate_node_input(schema, row_count)` -/
def validateNodeInput (input : Input) : Except Raised Unit := do
  refuse (input.rows.length = 0) (Kind.emptyError .nodes)
  refuse (Reserved .nodes input.schema.names) (NodeStore.reservedError input.schema.names)

/-- One of the two endpoint columns. -/
def validateEndpoint (schema : Schema) (name : String) : Except Raised Unit :=
  match fieldWithName schema name with
  | none => .error (EdgeStore.appendError
      ("edge batch is missing required column " ++ debugText name))
  | some field => refuse (field.type ≠ .uint64)
      (EdgeStore.appendError "edge 'src' and 'dst' must be UInt64 (nid) columns")

/-- `validate_edge_input(schema, row_count)` -/
def validateEdgeInput (input : Input) : Except Raised Unit := do
  refuse (input.rows.length = 0) (Kind.emptyError .edges)
  refuse (Reserved .edges input.schema.names) (EdgeStore.reservedError input.schema.names)
  validateEndpoint input.schema SRC_COLUMN
  validateEndpoint input.schema DST_COLUMN

def validateInput : Kind → Input → Except Raised Unit
  | .nodes => validateNodeInput
  | .edges => validateEdgeInput

/-- `public_fields(schema)` -/
def publicFields (schema : Schema) : Schema :=
  schema.filter fun field => field.name ≠ CREATED_LSN_COLUMN ∧ field.name ≠ DELETED_LSN_COLUMN

/-- `schema_without_field(schema, removed)` -/
def schemaWithoutField (schema : Schema) (removed : String) : Schema :=
  schema.filter fun field => field.name ≠ removed

/-- `ensure_public_schema_compatible(expected, actual, code, label)` -/
def ensurePublicSchemaCompatible (kind : Kind) (expected actual : Schema) : Except Raised Unit := do
  let expected_fields := publicFields expected
  let actual_fields := publicFields actual
  refuse (expected_fields.names ≠ actual_fields.names) (kind.appendError (kind.label ++
    " column drift: expected " ++ debugNames expected_fields.names ++ ", got " ++
      debugNames actual_fields.names))
  match (expected_fields.zip actual_fields).find? fun (left, right) => left.type ≠ right.type with
  | none => return ()
  | some (left, right) => throw (kind.appendError (kind.label ++ " column " ++
      debugText left.name ++ " type mismatch: " ++ displayType left.type ++ " vs " ++
        displayType right.type))

/-- The schema that `add_store_columns` builds. -/
def rustSchema (kind : Kind) (schema : Schema) : Schema :=
  { name := kind.id_column, type := .uint64, nullable := false } :: schema ++
    [{ name := CREATED_LSN_COLUMN, type := .uint64, nullable := false },
      { name := DELETED_LSN_COLUMN, type := .uint64, nullable := true }]

/-- `append_node_batch_ipc_stream(store, ipc_stream, created_lsn)` and its sibling for edges. -/
def rustAppend (kind : Kind) (store : StoreFiles) (input : Input) (created_lsn : Nat) :
    Except Raised StoreFiles := do
  readIpcBatches input
  validateInput kind input
  match store.chunks.head? with
  | none => pure ()
  | some chunk =>
      ensurePublicSchemaCompatible kind (schemaWithoutField chunk.schema kind.id_column) input.schema
  return store.push (rustSchema kind input.schema) input.batches created_lsn

/-- `StoreScanSummary` -/
structure Summary where
  chunk_count : Nat
  batch_count : Nat
  row_count : Nat
  field_names : List String
deriving DecidableEq

/-- The loop of `scan_store_chunks`. -/
def scanStoreChunks : List Chunk → Summary → Except Raised Summary
  | [], summary => .ok summary
  | chunk :: chunks, summary => do
      refuse (summary.field_names ≠ [] ∧ summary.field_names ≠ chunk.schema.names)
        (rustError "CDB-7001" "column segment schema drift while scanning store")
      scanStoreChunks chunks
        { chunk_count := summary.chunk_count + 1
          batch_count := summary.batch_count + chunk.batches.length
          row_count := summary.row_count + (chunk.batches.map List.length).sum
          field_names := if summary.field_names = [] then chunk.schema.names
            else summary.field_names }

/-- `scan_node_store_summary(store)` and `scan_edge_store_summary(store)` -/
def rustScan (store : StoreFiles) : Except Raised Summary :=
  scanStoreChunks store.chunks { chunk_count := 0, batch_count := 0, row_count := 0, field_names := [] }

end CaracalDB.Mixed
