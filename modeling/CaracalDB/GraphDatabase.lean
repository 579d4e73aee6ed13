import Mathlib.Data.List.Sort
import CaracalDB.Call
import CaracalDB.Checkpoint
import CaracalDB.Csr
import CaracalDB.GraphCatalog
import CaracalDB.GraphStore

/-!
# Databases

A database is what its bundle directory holds (manifest, catalog, node stores, edge
stores, the snapshot registry and the CSR files of relations) and the caches of the
handle that has it open.
The calls below are the steps that the public methods are made of. A step that
raises keeps what it did before, as the directory and the caches do.
-/

namespace CaracalDB

def INTERNAL_GID_COLUMN : String := "_cdb_gid"

/-- One step of an adjacency: the edge, and where it leads. -/
structure EdgeStep where
  edge_id : Int
  edge_type : String
  src : Int
  dst : Int
  properties : Row
  next : Int
  direction : String
deriving DecidableEq

abbrev Adjacency : Type := Dict Int (List EdgeStep)

/-- What an adjacency is cached under. -/
structure AdjacencyKey where
  edge_types : List String
  direction : String
  filters : List (String × Value)
  order_by_property : Option String
  top_per_node : Option Int
deriving DecidableEq

/-- A file `forward.csr` or `reverse.csc` in the directory of a relation under `graph`; the name of
a file of a snapshot has `.snap<lsn>` before the suffix. -/
structure CsrName where
  relation : String
  reverse : Bool
  snapshot_lsn : Option Nat
deriving DecidableEq

/-- What a relation is cached under: `relation` or `relation@lsn`. The name of a store has no `@`. -/
abbrev CsrKey : Type := String × Option Nat

/-- The readers of a relation: `{"forward": ..., "reverse": ...}`. -/
structure CsrEntry where
  forward : Option CsrFile := none
  reverse : Option CsrFile := none
deriving DecidableEq

/-- The ids of nodes by their key in one column. -/
abbrev IdMap : Type := Dict Value Int

structure Database where
  bundle : Bundle
  catalog : Catalog
  nodes : Dict String NodeStore
  edges : Dict String EdgeStore
  snapshots : Dict String Nat
  graph : Dict CsrName CsrFile
  csr_cache : Dict CsrKey CsrEntry
  external_id_map_cache : Dict String IdMap
  typed_adjacency_cache : Dict AdjacencyKey Adjacency

/-- A method of the database. -/
abbrev Method (Answer : Type) : Type := Call Database Raised Answer

namespace Database

/-- The write clock. -/
def clock (db : Database) : Nat := db.bundle.manifest.last_lsn

def tick (db : Database) : Database :=
  { db with bundle := { db.bundle with
    manifest := { db.bundle.manifest with last_lsn := db.clock + 1 } } }

/-- The names of directories in the order in which they are listed. -/
def sortedNames {Content : Type} (directory : Dict String Content) : List String :=
  directory.keys.insertionSort (· ≤ ·)

/-- `list_node_stores(bundle)` -/
def list_node_stores (db : Database) : List String := sortedNames db.nodes

/-- `list_edge_stores(bundle)` -/
def list_edge_stores (db : Database) : List String := sortedNames db.edges

theorem mem_sortedNames {Content : Type} (directory : Dict String Content) (name : String) :
    name ∈ sortedNames directory ↔ name ∈ directory.keys := by
  unfold sortedNames
  exact (List.perm_insertionSort _ _).mem_iff

/-- The store of a directory, if it is the one of the class. -/
def nodeStoreOf (db : Database) (class_iri local_name : String) :
    Except Raised (Option NodeStore) :=
  match assertLocalName "CDB-7010" "class" local_name with
  | .error raised => .error raised
  | .ok () =>
      match db.nodes.get? local_name with
      | none => .ok none
      | some store =>
          if store.iri = class_iri then .ok (some store)
          else raiseCaracal "CDB-7013" ("node store " ++ Value.quoted local_name ++
            " class mismatch: expected " ++ class_iri ++ ", found " ++ store.iri)

/-- `open_node_store(bundle, class_iri=..., local_name=...)` of a store that must exist. -/
def openNodes (db : Database) (class_iri local_name : String) : Except Raised NodeStore :=
  match db.nodeStoreOf class_iri local_name with
  | .error raised => .error raised
  | .ok (some store) => .ok store
  | .ok none => .error (.caracal
      { code := "CDB-7012"
        message := "node store not found for class " ++ Value.quoted class_iri
        hint := some "pass create=True to initialise a fresh node store" })

/-- The store of a directory, if it is the one of the property. -/
def edgeStoreOf (db : Database) (property_iri local_name : String) :
    Except Raised (Option EdgeStore) :=
  match assertLocalName "CDB-7020" "property" local_name with
  | .error raised => .error raised
  | .ok () =>
      match db.edges.get? local_name with
      | none => .ok none
      | some store =>
          if store.iri = property_iri then .ok (some store)
          else raiseCaracal "CDB-7023" ("edge store " ++ Value.quoted local_name ++
            " property mismatch: expected " ++ property_iri ++ ", found " ++ store.iri)

/-- `open_edge_store(bundle, property_iri=..., local_name=...)` of a store that must exist. -/
def openEdges (db : Database) (property_iri local_name : String) : Except Raised EdgeStore :=
  match db.edgeStoreOf property_iri local_name with
  | .error raised => .error raised
  | .ok (some store) => .ok store
  | .ok none => .error (.caracal
      { code := "CDB-7022"
        message := "edge store not found for property " ++ Value.quoted property_iri
        hint := some "pass create=True to initialise a fresh edge store" })

/-! ### Steps of the methods -/

/-- `db.define_class(name)` -/
def defineClass (name : String) : Method Unit :=
  Call.change fun db => { db with catalog := (db.catalog.define_class name none []).2 }

/-- `db._define_property(name, iri=...)` -/
def defineProperty (name : String) (iri : Option String) : Method Definition := fun db =>
  (.ok (db.catalog.define_property name iri).1,
    { db with catalog := (db.catalog.define_property name iri).2 })

/-- `open_node_store(bundle, class_iri=..., local_name=..., create=True)` -/
def createNodes (class_iri local_name : String) : Method Unit :=
  Call.attempt fun db =>
    match db.nodeStoreOf class_iri local_name with
    | .error raised => .error raised
    | .ok (some _) => .ok ((), db)
    | .ok none => .ok ((), { db with nodes := db.nodes.set local_name (Store.create class_iri) })

/-- `open_edge_store(bundle, property_iri=..., local_name=..., create=True)` -/
def createEdges (property_iri local_name : String) : Method Unit :=
  Call.attempt fun db =>
    match db.edgeStoreOf property_iri local_name with
    | .error raised => .error raised
    | .ok (some _) => .ok ((), db)
    | .ok none => .ok ((), { db with edges := db.edges.set local_name (Store.create property_iri) })

/-- `db._next_lsn()`: the clock advances whatever becomes of the write. -/
def nextLsn : Method Unit := Call.change tick

/-- A table appended to a node store at the time of the clock. -/
def appendNodesAt (db : Database) (local_name : String) (table : Table) :
    Except Raised (ChunkRef × Database) :=
  match db.nodes.get? local_name with
  | none => .error (.keyError local_name)
  | some store =>
      match NodeStore.append store table db.clock with
      | .error raised => .error raised
      | .ok (ref, store) => .ok (ref, { db with nodes := db.nodes.set local_name store })

/-- A table appended to an edge store at the time of the clock. -/
def appendEdgesAt (db : Database) (local_name : String) (table : Table)
    (repeated : List String) : Except Raised (ChunkRef × Database) :=
  match db.edges.get? local_name with
  | none => .error (.keyError local_name)
  | some store =>
      match EdgeStore.append store table repeated db.clock with
      | .error raised => .error raised
      | .ok (ref, store) => .ok (ref, { db with edges := db.edges.set local_name store })

/-- `store.append(table, created_lsn=db._next_lsn())` of an open node store. -/
def appendNodes (local_name : String) (table : Table) : Method ChunkRef := do
  nextLsn
  Call.attempt fun db => appendNodesAt db local_name table

/-- `store.append(table, created_lsn=db._next_lsn())` of an open edge store. -/
def appendEdges (local_name : String) (table : Table) (repeated : List String) :
    Method ChunkRef := do
  nextLsn
  Call.attempt fun db => appendEdgesAt db local_name table repeated

/-- `db._invalidate_graph_indexes()` -/
def invalidateAll : Method Unit :=
  Call.change fun db =>
    { db with
      graph := Dict.empty
      csr_cache := Dict.empty
      external_id_map_cache := Dict.empty
      typed_adjacency_cache := Dict.empty }

/-- `db._invalidate_graph_indexes(relation)` -/
def invalidateRelation (relation : String) : Method Unit :=
  Call.change fun db =>
    { db with
      graph := db.graph.keep fun name => name.relation ≠ relation
      csr_cache := db.csr_cache.keep fun key => key.1 ≠ relation
      typed_adjacency_cache := db.typed_adjacency_cache.keep fun key => relation ∉ key.edge_types }

/-- `db.insert_nodes(class_name, table)` -/
def insertNodes (class_name : String) (table : Table) : Method ChunkRef := do
  Call.ofExcept (refuse (table.rows = []) (.caracal
    { code := "CDB-7011", message := "cannot insert an empty node batch" }))
  let cls ← Call.ask fun db => db.catalog.find_class class_name
  createNodes cls.iri cls.localName
  let ref ← appendNodes cls.localName table
  invalidateAll
  let _ ← Call.ofExcept (coerceLocalName (.str class_name) "node type")
  return ref

/-! ### Ids of keys -/

/-- The keys and ids of one store, filed in the order of its rows. -/
def fileIds (runtime : Runtime) (key_col : String) (ids : IdMap) (row : StoredRow) :
    Except Raised IdMap := do
  let gid ← runtime.toInt (row.values.read INTERNAL_GID_COLUMN)
  let key ← (Row.read (Store.publicRow NID_COLUMN row) key_col).hashed
  return ids.set key gid

/-- The keys and ids of the store in one directory. -/
def fileStore (runtime : Runtime) (key_col : String) (db : Database) (ids : IdMap)
    (class_name : String) : Except Raised IdMap := do
  let cls ← db.catalog.find_class class_name
  let store ← db.openNodes cls.iri cls.localName
  if key_col ∈ store.column_names ∧ INTERNAL_GID_COLUMN ∈ store.column_names then
    store.rows.foldlM (fileIds runtime key_col) ids
  else return ids

/-- The map that `_external_id_map` makes when none is cached. -/
def scanIds (runtime : Runtime) (key_col : String) (db : Database) : Except Raised IdMap :=
  db.list_node_stores.foldlM (fileStore runtime key_col db) Dict.empty

/-- The map that `_external_id_map` answers. -/
def idMap (runtime : Runtime) (key_col : String) (db : Database) : Except Raised IdMap :=
  match db.external_id_map_cache.get? key_col with
  | some ids => .ok ids
  | none => scanIds runtime key_col db

/-- Callers share the cached map: what they add to it stays in the cache. -/
def remember (key_col : String) (ids : IdMap) (db : Database) : Database :=
  { db with external_id_map_cache := db.external_id_map_cache.set key_col ids }

/-- `_external_id_map(db, key_col=...)` -/
def externalIdMap (runtime : Runtime) (key_col : String) : Method IdMap :=
  Call.attempt fun db =>
    match idMap runtime key_col db with
    | .error raised => .error raised
    | .ok ids => .ok (ids, db.remember key_col ids)

/-- `max(ids.values(), default=-1) + 1` -/
def nextGid (ids : IdMap) : Int :=
  match ids.values with
  | [] => 0
  | gid :: gids => gids.foldl max gid + 1

/-! ### What the steps do -/

/-- A store that is not there yet has no directory. -/
theorem nodeStoreOf_none {db : Database} {class_iri local_name : String}
    (opened : db.nodeStoreOf class_iri local_name = .ok none) : db.nodes.get? local_name = none := by
  unfold nodeStoreOf at opened
  split at opened
  · cases opened
  · split at opened
    · assumption
    · split at opened <;> cases opened

theorem edgeStoreOf_none {db : Database} {property_iri local_name : String}
    (opened : db.edgeStoreOf property_iri local_name = .ok none) :
    db.edges.get? local_name = none := by
  unfold edgeStoreOf at opened
  split at opened
  · cases opened
  · split at opened
    · assumption
    · split at opened <;> cases opened

theorem appendNodes_run (local_name : String) (table : Table) (db : Database) :
    Call.run (appendNodes local_name table) db =
      match appendNodesAt db.tick local_name table with
      | .ok (ref, after) => (.ok ref, after)
      | .error raised => (.error raised, db.tick) := by
  rw [appendNodes, Call.run_bind, nextLsn, Call.run_change]
  dsimp only
  rw [Call.run_attempt]
  cases db.tick.appendNodesAt local_name table <;> rfl

theorem appendEdges_run (local_name : String) (table : Table) (repeated : List String)
    (db : Database) :
    Call.run (appendEdges local_name table repeated) db =
      match appendEdgesAt db.tick local_name table repeated with
      | .ok (ref, after) => (.ok ref, after)
      | .error raised => (.error raised, db.tick) := by
  rw [appendEdges, Call.run_bind, nextLsn, Call.run_change]
  dsimp only
  rw [Call.run_attempt]
  cases db.tick.appendEdgesAt local_name table repeated <;> rfl

/-- A table that is appended becomes the last chunk of the store. -/
theorem appendNodesAt_ok {db after : Database} {local_name : String} {table : Table}
    {ref : ChunkRef} (appended : db.appendNodesAt local_name table = .ok (ref, after)) :
    ∃ store, db.nodes.get? local_name = some store ∧ table.rows ≠ [] ∧
      ref = store.chunkRef table ∧ ∃ accepts, after =
        { db with nodes := db.nodes.set local_name (store.push table db.clock accepts) } := by
  unfold appendNodesAt at appended
  split at appended
  · cases appended
  · next store stored =>
    split at appended
    · cases appended
    · next ref pushed happened =>
      obtain ⟨filled, answer, accepts, rfl⟩ := NodeStore.append_ok happened
      cases appended
      exact ⟨store, stored, filled, answer, accepts, rfl⟩

theorem appendEdgesAt_ok {db after : Database} {local_name : String} {table : Table}
    {repeated : List String} {ref : ChunkRef}
    (appended : db.appendEdgesAt local_name table repeated = .ok (ref, after)) :
    ∃ store, db.edges.get? local_name = some store ∧ table.rows ≠ [] ∧
      ref = store.chunkRef table ∧ ∃ accepts, after =
        { db with edges := db.edges.set local_name (store.push table db.clock accepts) } := by
  unfold appendEdgesAt at appended
  split at appended
  · cases appended
  · next store stored =>
    split at appended
    · cases appended
    · next ref pushed happened =>
      obtain ⟨filled, answer, accepts, rfl⟩ := EdgeStore.append_ok happened
      cases appended
      exact ⟨store, stored, filled, answer, accepts, rfl⟩

end Database

end CaracalDB
