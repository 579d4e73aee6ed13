import Mathlib.Data.Prod.Lex
import CaracalDB.PathQuery
import CaracalDB.Ranked
import CaracalDB.Writes

/-!
# Vector indexes

A vector index names a property of a class whose values are vectors. Its definition
lies in a manifest in the bundle; the vectors themselves are read from the rows of
the class, and what was read for a name is kept in the handle. A search scores the
vectors against a query and ranks them.
-/

namespace CaracalDB.Vectors

open Database Where Paths

/-! ## Definitions of indexes -/

inductive Status where
  | building
  | ready
  | stale
deriving DecidableEq

/-- The definition of a vector index. -/
structure IndexMeta where
  name : String
  node_type : String
  property : String
  dimension : Int
  metric : String
  algorithm : String
  options : Dict String Value
  status : Status
  id_column : String
  count : Nat
  index_file : Option String
deriving DecidableEq

abbrev Manifest : Type := Dict String IndexMeta

/-- What `create_vector_index` is asked for. -/
structure Definition where
  name : String
  node_type : String
  property : String
  dimension : Int
  metric : String
  algorithm : String
  options : Dict String Value

/-! ## Vectors -/

/-- `np.asarray(value, dtype=np.float32)` -/
structure NpArray where
  shape : List Nat
  data : List ℚ
deriving DecidableEq

structure Entry where
  internal_id : Int
  row : Row
  vector : NpArray
deriving DecidableEq

/-- The entries of an index with the columns of the table that they were read from. -/
structure Loaded where
  columns : List String
  entries : List Entry
deriving DecidableEq

/-- A row of a result. -/
structure Hit (Score : Type) where
  node_id : Value
  node_type : String
  internal_id : Int
  score : Score
  vector_score : Score
  distance : Score
  rank : Nat
  matched_property : String
  selected_properties : List (String × Value)
deriving DecidableEq

/-- What the indexes call outside the engine: numpy, the metrics and the HNSW library. -/
structure Services (Score : Type) where
  runtime : Runtime
  asarray : Value → Except Raised NpArray
  /-- `text.lower()` -/
  lower : String → String
  cosine_distance : NpArray → NpArray → Score
  l2_distance : NpArray → NpArray → Score
  dot_product : NpArray → NpArray → Score
  /-- What the index file answers for a query, as hits without ranks. -/
  hnsw : IndexMeta → NpArray → List Entry → Nat → Except Raised (List (Hit Score))

/-- A database that is open, with the manifest of its indexes and what the handle has read. -/
structure Handle where
  db : Database
  manifest : Manifest
  vector_entries_cache : Dict String Loaded

abbrev Method (Answer : Type) : Type := Call Handle Raised Answer

def vectorError (code message : String) : Raised := .caracal { code, message }

/-- A shape as a message shows it. -/
def shapeText : List Nat → String
  | [count] => toString count
  | shape => "(" ++ ", ".intercalate (shape.map toString) ++ ")"

section Indexes

variable {Score : Type} (services : Services Score)

/-! ## Reading vectors -/

/-- The columns and rows of `_node_table_for_local(db, class_name)`. -/
def nodeTable (db : Database) (class_name : String) : Except Raised (List String × List Row) := do
  let cls ← db.catalog.find_class class_name
  let store ← db.openNodes cls.iri cls.localName
  return (store.column_names, store.to_pylist none)

/-- `_vector_id_column(table)` -/
def vectorIdColumn (columns : List String) : String :=
  if INTERNAL_GID_COLUMN ∈ columns then INTERNAL_GID_COLUMN else NID_COLUMN

/-- `bool(options.get("allow_null_vectors", False))` -/
def IndexMeta.allowNull (index : IndexMeta) : Bool :=
  ((index.options.get? "allow_null_vectors").getD (.bool false)).truthy

/-- `{node_type!r}.{property_name}` -/
def IndexMeta.source (index : IndexMeta) : String :=
  Value.quoted index.node_type ++ "." ++ index.property

/-- The entry of a row that has a vector. -/
def entryOf (index : IndexMeta) (row : Row) : Except Raised Entry := do
  let vector ← services.asarray (row.read index.property)
  refuse (vector.shape.map Int.ofNat ≠ [index.dimension]) (vectorError "CDB-7091"
    ("dimension mismatch in " ++ index.source ++ ": expected " ++ toString index.dimension ++
      ", got " ++ shapeText vector.shape))
  let internal_id ← services.runtime.toInt (row.read index.id_column)
  return { internal_id, row, vector }

/-- The entries of rows, one after another. -/
def entriesOf (index : IndexMeta) : List Row → Except Raised (List Entry)
  | [] => .ok []
  | row :: rows =>
      if row.read index.property = .null then
        if index.allowNull then entriesOf index rows
        else .error (vectorError "CDB-7091" ("null vector in " ++ index.source ++
          "; set allow_null_vectors to index sparse rows"))
      else do
        let entry ← entryOf services index row
        let entries ← entriesOf index rows
        return entry :: entries

/-- The entries of an index as the rows of its class give them now. -/
def readEntries (db : Database) (index : IndexMeta) : Except Raised Loaded := do
  let (columns, rows) ← nodeTable db index.node_type
  refuse (index.property ∉ columns) (vectorError "CDB-7091" ("missing vector property " ++
    Value.quoted index.property ++ " on node type " ++ Value.quoted index.node_type))
  refuse (index.id_column ∉ columns) (vectorError "CDB-7091"
    ("vector index id column missing from source table: " ++ Value.quoted index.id_column))
  let entries ← entriesOf services index rows
  return { columns, entries }

/-- `_vector_entries(db, meta)`: what was read for the name before, if anything was. -/
def vectorEntries (index : IndexMeta) : Method Loaded :=
  Call.attempt fun handle =>
    match handle.vector_entries_cache.get? index.name with
    | some loaded => .ok (loaded, handle)
    | none =>
        match readEntries services handle.db index with
        | .error raised => .error raised
        | .ok loaded => .ok (loaded, { handle with
            vector_entries_cache := handle.vector_entries_cache.set index.name loaded })

/-! ## Building, dropping and rebuilding -/

/-- `metadata[meta["name"]] = meta` and `_write_vector_index_manifest(db, metadata)` -/
def writeMeta (index : IndexMeta) : Method Unit :=
  Call.change fun handle => { handle with manifest := handle.manifest.set index.name index }

/-- `_build_vector_index(db, meta)` without the index file. -/
def buildVectorIndex (index : IndexMeta) : Method IndexMeta := do
  let loaded ← vectorEntries services index
  let built := { index with
    count := loaded.entries.length
    index_file := if index.algorithm = "hnsw" then some ("vec/" ++ index.name ++ ".hnsw") else none
    status := .ready }
  writeMeta built
  return built

/-- The characters of an index name after the first; `$` allows a newline at the end. -/
def indexNameTail : List Char → Bool
  | [] => true
  | ['\n'] => true
  | char :: rest => (nameChar char || char = '.') && indexNameTail rest

/-- Whether a name matches `_INDEX_NAME_RE`. -/
def isIndexName (name : String) : Bool :=
  match name.toList with
  | [] => false
  | first :: rest => nameStart first && indexNameTail rest

/-- `_assert_index_name(name, "vector index")` -/
def assertIndexName (name : String) : Except Raised Unit :=
  refuse (¬ isIndexName name) (.caracal
      { code := "CDB-7090"
        message := "invalid vector index name: " ++ Value.quoted name
        hint := some "index names must match [A-Za-z_][A-Za-z0-9_.-]*" })

/-- `_normalize_vector_metric(metric)` -/
def normalizeVectorMetric (metric : String) : Except Raised String :=
  let normalized := services.lower metric
  if normalized = "cosine" ∨ normalized = "l2" then .ok normalized
  else if normalized ∈ ["ip", "dot", "dot_product"] then .ok "dot_product"
  else .error (.caracal
    { code := "CDB-7090"
      message := "unsupported vector metric: " ++ Value.quoted metric
      hint := some "supported metrics are 'cosine', 'l2', and 'dot_product'" })

/-- Whether two dictionaries of options are equal. -/
def sameOptions (left right : Dict String Value) : Bool :=
  left.keys.length = right.keys.length && right.entries.all fun entry =>
    match left.get? entry.1 with
    | none => false
    | some value => pyEq services.runtime value entry.2

/-- `_same_vector_definition(meta, ...)` -/
def sameDefinition (existing index : IndexMeta) : Bool :=
  existing.node_type = index.node_type && existing.property = index.property &&
    existing.dimension = index.dimension && existing.metric = index.metric &&
    existing.algorithm = index.algorithm && sameOptions services existing.options index.options

/-- The checks of a new definition: its class, and the definition with its metric and algorithm
in their normal form, apart from the id column. -/
def checkDefinition (db : Database) (definition : Definition) : Except Raised IndexMeta := do
  assertIndexName definition.name
  refuse (definition.dimension ≤ 0)
    (vectorError "CDB-7091" "vector index dimension must be positive")
  let metric ← normalizeVectorMetric services definition.metric
  let algorithm := services.lower definition.algorithm
  refuse (algorithm ∉ ["hnsw", "exact"]) (.caracal
    { code := "CDB-7090"
      message := "unsupported vector index algorithm: " ++ Value.quoted algorithm
      hint := some "supported algorithms are 'hnsw' and 'exact'" })
  let cls ← db.catalog.find_class definition.node_type
  return {
    name := definition.name, node_type := cls.localName, property := definition.property
    dimension := definition.dimension, metric, algorithm, options := definition.options
    status := .building, id_column := "", count := 0, index_file := none }

/-- The definition with the id column of its class. -/
def withIdColumn (db : Database) (index : IndexMeta) : Except Raised IndexMeta := do
  let (columns, _) ← nodeTable db index.node_type
  return { index with id_column := vectorIdColumn columns }

/-- `_create_vector_index(db, name=..., ...)` -/
def createVectorIndex (definition : Definition) : Method IndexMeta := do
  let index ← Call.ask fun handle => checkDefinition services handle.db definition
  let manifest ← Call.ask fun handle => .ok handle.manifest
  match manifest.get? index.name with
  | some existing =>
      if sameDefinition services existing index then return existing
      else Call.raise (vectorError "CDB-7090"
        ("vector index already exists with a different definition: " ++ Value.quoted index.name))
  | none =>
      let index ← Call.ask fun handle => withIdColumn handle.db index
      writeMeta index
      buildVectorIndex services index

/-- `_drop_vector_index(db, name)` -/
def dropVectorIndex (name : String) : Method Bool := fun handle =>
  match handle.manifest.get? name with
  | none => (.ok false, handle)
  | some _ => (.ok true, { handle with manifest := handle.manifest.erase name })

/-- The definition under a name. -/
def findIndex (name : String) (handle : Handle) : Except Raised IndexMeta :=
  match handle.manifest.get? name with
  | none => .error (vectorError "CDB-7092" ("vector index not found: " ++ Value.quoted name))
  | some index => .ok index

/-- `_rebuild_vector_index(db, name)` -/
def rebuildVectorIndex (name : String) : Method IndexMeta := do
  let index ← Call.ask (findIndex name)
  writeMeta { index with status := .building }
  buildVectorIndex services { index with status := .building }

/-- `_mark_node_indexes_stale(db, node_type)` for each of some classes. -/
def markStale (classes : List String) (manifest : Manifest) : Manifest :=
  manifest.mapValues fun index =>
    if index.node_type ∈ classes ∧ index.status = .ready then { index with status := .stale }
    else index

/-! ## Searching -/

/-- What `vector_search` is asked without graph boosts. -/
structure Request where
  index : String
  query_vector : List Value
  top_k : Int
  filters : Dict String Value
  oversample : Int
  return_properties : List String

variable [LinearOrder Score] [One Score] [Sub Score] [Neg Score]

/-- The distance and the score of a vector by a metric. -/
def measure (metric : String) (query vector : NpArray) : Except Raised (Score × Score) :=
  if metric = "cosine" then
    let distance := services.cosine_distance query vector
    .ok (distance, 1 - distance)
  else if metric = "l2" then
    let distance := services.l2_distance query vector
    .ok (distance, -distance)
  else if metric ∈ ["ip", "dot", "dot_product"] then
    let score := services.dot_product query vector
    .ok (-score, score)
  else .error (vectorError "CDB-7090" ("unsupported vector metric: " ++ Value.quoted metric))

/-- One entry as a row of a result. -/
def hitOf (index : IndexMeta) (query : NpArray) (return_properties : List String)
    (entry : Entry) : Except Raised (Hit Score) := do
  let (distance, score) ← measure services index.metric query entry.vector
  return {
    node_id := (entry.row.get? "node_id").getD (.int entry.internal_id)
    node_type := index.node_type, internal_id := entry.internal_id
    score, vector_score := score, distance, rank := 0, matched_property := index.property
    selected_properties := return_properties.map fun name => (name, entry.row.read name) }

/-- The key by which hits are sorted: the greatest score first, then the id. -/
def hitKey (hit : Hit Score) : Scoreᵒᵈ ×ₗ ℤ := toLex (OrderDual.toDual hit.score, hit.internal_id)

/-- `_rerank_vector_rows(rows)` -/
def rerank (hits : List (Hit Score)) : List (Hit Score) :=
  (ranked hitKey hits).zipIdx.map fun (hit, offset) => { hit with rank := offset + 1 }

/-- `_rank_exact_vector_candidates(meta, query, entries, top_k, return_properties)` -/
def rankExact (index : IndexMeta) (query : NpArray) (entries : List Entry) (top_k : Nat)
    (return_properties : List String) : Except Raised (List (Hit Score)) := do
  let hits ← entries.mapM (hitOf services index query return_properties)
  return ((ranked hitKey hits).take top_k).zipIdx.map fun (hit, offset) =>
    { hit with rank := offset + 1 }

/-- `_validate_vector_filters_and_properties(table, filters, return_properties)` -/
def validateRequest (columns : List String) (request : Request) : Except Raised Unit := do
  match request.filters.keys.find? fun name => name ∉ columns with
  | some name => .error (vectorError "CDB-7091"
      ("vector search filter column missing: " ++ Value.quoted name))
  | none => .ok ()
  match request.return_properties.find? fun name => name ∉ columns with
  | some name => .error (vectorError "CDB-7091"
      ("vector search return property missing: " ++ Value.quoted name))
  | none => .ok ()

/-- The query of a request as a vector of the dimension of the index. -/
def queryOf (index : IndexMeta) (request : Request) : Except Raised NpArray := do
  let query ← services.asarray (.list request.query_vector)
  refuse (query.shape.map Int.ofNat ≠ [index.dimension]) (vectorError "CDB-7091"
    ("query dimension mismatch for " ++ Value.quoted request.index ++ ": expected " ++
      toString index.dimension ++ ", got " ++ shapeText query.shape))
  return query

/-- What a search makes of the entries of its index. -/
def searchEntries (index : IndexMeta) (request : Request) (query : NpArray) (loaded : Loaded) :
    Except Raised (List (Hit Score)) := do
  validateRequest loaded.columns request
  if request.top_k = 0 ∨ loaded.entries = [] then return []
  else
    let candidate_k := min loaded.entries.length request.top_k.toNat
    if request.filters.entries ≠ [] ∨ index.algorithm = "exact" then
      let candidates := loaded.entries.filter fun entry =>
        rowMatchesFilters services.runtime entry.row request.filters
      let hits ← rankExact services index query candidates candidate_k request.return_properties
      return rerank (hits.take request.top_k.toNat)
    else match index.index_file with
      | none =>
          let hits ← rankExact services index query loaded.entries candidate_k
            request.return_properties
          return rerank (hits.take request.top_k.toNat)
      | some _ =>
          let hits ← services.hnsw index query loaded.entries candidate_k
          return rerank (hits.take request.top_k.toNat)

/-- `_vector_search(db, index=..., query_vector=..., ...)` without graph boosts. -/
def vectorSearch (request : Request) : Method (List (Hit Score)) := do
  Call.ofExcept (refuse (request.top_k < 0) (vectorError "CDB-6090" "top_k must be >= 0"))
  Call.ofExcept (refuse (request.oversample < 1) (vectorError "CDB-6090" "oversample must be >= 1"))
  let found ← Call.ask (findIndex request.index)
  let index ← if found.status = .stale ∨ found.status = .building then
      buildVectorIndex services found
    else pure found
  let query ← Call.ofExcept (queryOf services index request)
  let loaded ← vectorEntries services index
  Call.ofExcept (searchEntries services index request query loaded)

end Indexes

end CaracalDB.Vectors
