import CaracalDB.ArrowTable
import CaracalDB.Loops

/-!
# Node and edge stores

A store is a sequence of chunks of rows, all with the columns of the first chunk.
Each row has an id that the store assigned and two version columns: the LSN at
which it was written and the LSN at which it was deleted. The ids and versions
belong to the store, so a batch may not bring columns of these names.
-/

namespace CaracalDB

def NID_COLUMN : String := "nid"
def EID_COLUMN : String := "eid"
def SRC_COLUMN : String := "src"
def DST_COLUMN : String := "dst"
def CREATED_LSN_COLUMN : String := "_created_lsn"
def DELETED_LSN_COLUMN : String := "_deleted_lsn"

/-- `["nid", ...]` as it stands in a message. -/
def namesText (names : List String) : String := (Value.list (names.map .str)).repr

structure StoredRow where
  id : Nat
  values : Row
  created_lsn : Nat
  deleted_lsn : Option Nat := none
deriving DecidableEq

/-- What an append answers: where the chunk lies and which ids it got. -/
structure ChunkRef where
  path : String
  row_count : Nat
  start_id : Nat
  end_id : Nat
deriving DecidableEq, Repr

/-- No column takes a name that belongs to the store. -/
def Unreserved (id_column : String) (names : List String) : Prop :=
  id_column ∉ names ∧ CREATED_LSN_COLUMN ∉ names ∧ DELETED_LSN_COLUMN ∉ names

instance (id_column : String) (names : List String) : Decidable (Unreserved id_column names) :=
  inferInstanceAs (Decidable (_ ∧ _ ∧ _))

/-- A store of rows under one kind of id. -/
structure Store (id_column : String) where
  iri : String
  next_id : Nat
  fields : List Field
  chunks : List (List StoredRow)
  distinct : (fields.map Field.name).Nodup
  unreserved : Unreserved id_column (fields.map Field.name)
  aligned : ∀ chunk ∈ chunks, ∀ row ∈ chunk, row.values.keys = fields.map Field.name
  numbered : ∀ chunk ∈ chunks, ∀ row ∈ chunk, row.id < next_id

/-- `NodeStore`: the rows of one class. -/
abbrev NodeStore : Type := Store NID_COLUMN

/-- `EdgeStore`: the rows of one property. -/
abbrev EdgeStore : Type := Store EID_COLUMN

namespace Store

variable {id_column : String}

/-- A store without chunks. -/
def create (iri : String) : Store id_column :=
  { iri
    next_id := 0
    fields := []
    chunks := []
    distinct := List.nodup_nil
    unreserved := ⟨List.not_mem_nil, List.not_mem_nil, List.not_mem_nil⟩
    aligned := fun _ member => absurd member List.not_mem_nil
    numbered := fun _ member => absurd member List.not_mem_nil }

def rows (store : Store id_column) : List StoredRow := store.chunks.flatten

/-- The names of the columns that callers brought. -/
def names (store : Store id_column) : List String := store.fields.map Field.name

/-- The rows of a batch as the next chunk. -/
def chunkOf (start_id created_lsn : Nat) (batch : Table) : List StoredRow :=
  batch.rows.zipIdx.map fun (values, index) => { id := start_id + index, values, created_lsn }

/-- A chunk is added to a store that has none, or columns of the same names. -/
def Accepts (store : Store id_column) (batch : Table) : Prop :=
  Unreserved id_column batch.names ∧ (store.chunks ≠ [] → batch.fields = store.fields)

instance (store : Store id_column) (batch : Table) : Decidable (store.Accepts batch) :=
  inferInstanceAs (Decidable (_ ∧ _))

/-- The columns of a store after a first or a further chunk. -/
def fieldsAfter (store : Store id_column) (batch : Table) : List Field :=
  if store.chunks = [] then batch.fields else store.fields

theorem Accepts.fields {store : Store id_column} {batch : Table} (accepts : store.Accepts batch) :
    store.fieldsAfter batch = batch.fields := by
  unfold fieldsAfter
  split
  · rfl
  · next filled => exact (accepts.2 filled).symm

theorem chunkOf_values {start_id created_lsn : Nat} {batch : Table} {row : StoredRow}
    (member : row ∈ chunkOf start_id created_lsn batch) : row.values ∈ batch.rows := by
  obtain ⟨⟨values, index⟩, paired, rfl⟩ := List.mem_map.mp member
  exact (List.mem_zipIdx' paired).2 ▸ List.getElem_mem _

theorem chunkOf_id {start_id created_lsn : Nat} {batch : Table} {row : StoredRow}
    (member : row ∈ chunkOf start_id created_lsn batch) : row.id < start_id + batch.rows.length := by
  obtain ⟨⟨values, index⟩, paired, rfl⟩ := List.mem_map.mp member
  exact Nat.add_lt_add_left (List.mem_zipIdx' paired).1 _

/-- The store with one more chunk. -/
def push (store : Store id_column) (batch : Table) (created_lsn : Nat)
    (accepts : store.Accepts batch) : Store id_column :=
  { store with
    next_id := store.next_id + batch.rows.length
    fields := store.fieldsAfter batch
    chunks := store.chunks ++ [chunkOf store.next_id created_lsn batch]
    distinct := by
      rw [accepts.fields]
      exact batch.distinct
    unreserved := by
      rw [accepts.fields]
      exact accepts.1
    aligned := by
      intro chunk member row inChunk
      rw [accepts.fields]
      rcases List.mem_append.mp member with old | new
      · have filled : store.chunks ≠ [] := List.ne_nil_of_mem old
        rw [accepts.2 filled]
        exact store.aligned chunk old row inChunk
      · rw [List.mem_singleton.mp new] at inChunk
        exact batch.aligned row.values (chunkOf_values inChunk)
    numbered := by
      intro chunk member row inChunk
      rcases List.mem_append.mp member with old | new
      · exact Nat.lt_add_right _ (store.numbered chunk old row inChunk)
      · rw [List.mem_singleton.mp new] at inChunk
        exact chunkOf_id inChunk }

/-- What the append of a batch answers. -/
def chunkRef (store : Store id_column) (batch : Table) : ChunkRef :=
  let index := toString store.chunks.length
  { path := "chunks/" ++ String.ofList (List.replicate (8 - index.length) '0') ++ index ++ ".col"
    row_count := batch.rows.length
    start_id := store.next_id
    end_id := store.next_id + batch.rows.length }

/-- The first of the named columns whose type differs. -/
def typeDrift (expected actual : List Field) : Option (Field × Field) :=
  (expected.zip actual).find? fun (left, right) => left.type ≠ right.type

/-! ### Reading -/

/-- `_filter_visible`: written by the snapshot and not deleted by then. -/
def visibleAt (snapshot_lsn : Nat) (row : StoredRow) : Bool :=
  row.created_lsn ≤ snapshot_lsn && match row.deleted_lsn with
    | none => true
    | some deleted => snapshot_lsn < deleted

/-- The columns of a row as `to_pylist()` gives them, the id first. -/
def publicRow (id_column : String) (row : StoredRow) : Row :=
  (Dict.empty.set id_column (.int row.id)).update row.values

/-- `store.to_table(snapshot_lsn=...).to_pylist()` -/
def to_pylist (store : Store id_column) (snapshot_lsn : Option Nat) : List Row :=
  let visible := match snapshot_lsn with
    | none => store.rows
    | some lsn => store.rows.filter (visibleAt lsn)
  visible.map (publicRow id_column)

/-- `store.to_table().column_names` -/
def column_names (store : Store id_column) : List String := id_column :: store.names

/-! ### Rules -/

theorem rows_push (store : Store id_column) (batch : Table) (created_lsn : Nat)
    (accepts : store.Accepts batch) :
    (store.push batch created_lsn accepts).rows =
      store.rows ++ chunkOf store.next_id created_lsn batch := by
  simp [rows, push]

theorem row_aligned (store : Store id_column) {row : StoredRow} (member : row ∈ store.rows) :
    row.values.keys = store.names := by
  obtain ⟨chunk, inStore, inChunk⟩ := List.mem_flatten.mp member
  exact store.aligned chunk inStore row inChunk

theorem row_numbered (store : Store id_column) {row : StoredRow} (member : row ∈ store.rows) :
    row.id < store.next_id := by
  obtain ⟨chunk, inStore, inChunk⟩ := List.mem_flatten.mp member
  exact store.numbered chunk inStore row inChunk

theorem chunkOf_created {start_id created_lsn : Nat} {batch : Table} {row : StoredRow}
    (member : row ∈ chunkOf start_id created_lsn batch) : row.created_lsn = created_lsn := by
  obtain ⟨_, _, rfl⟩ := List.mem_map.mp member
  rfl

theorem chunkOf_map_values (start_id created_lsn : Nat) (batch : Table) :
    (chunkOf start_id created_lsn batch).map StoredRow.values = batch.rows := by
  unfold chunkOf
  rw [List.map_map]
  exact List.zipIdx_map_fst 0 batch.rows

end Store

/-! ## Appending -/

namespace NodeStore

def appendError (message : String) : Raised := .caracal { code := "CDB-7011", message }

/-- The error of a batch that brings a column of the store. -/
def reservedError (names : List String) : Raised :=
  if NID_COLUMN ∈ names then
    appendError "node batches must not include a 'nid' column; it is assigned by the store"
  else if CREATED_LSN_COLUMN ∈ names then
    appendError "node batches must not include reserved column '_created_lsn'"
  else appendError "node batches must not include reserved column '_deleted_lsn'"

/-- The error of a batch whose columns are not those of the store. -/
def driftError (expected actual : List Field) : Raised :=
  let expected_names := NID_COLUMN :: expected.map Field.name
  let actual_names := NID_COLUMN :: actual.map Field.name
  if expected_names ≠ actual_names then
    appendError ("node batch schema mismatch: expected columns " ++ namesText expected_names ++
      ", got " ++ namesText actual_names)
  else match Store.typeDrift expected actual with
    | none => appendError ""
    | some (left, right) => appendError ("node batch column " ++ Value.quoted left.name ++
        " type mismatch: expected " ++ left.type.toText ++ ", got " ++ right.type.toText)

/-- `NodeStore.append(batch, created_lsn=...)` -/
def append (store : NodeStore) (batch : Table) (created_lsn : Nat) :
    Except Raised (ChunkRef × NodeStore) :=
  if batch.rows = [] then .error (appendError "cannot append empty node batch")
  else if ¬ Unreserved NID_COLUMN batch.names then .error (reservedError batch.names)
  else if accepts : store.Accepts batch then
    .ok (store.chunkRef batch, store.push batch created_lsn accepts)
  else .error (driftError store.fields batch.fields)

end NodeStore

namespace EdgeStore

def appendError (message : String) : Raised := .caracal { code := "CDB-7021", message }

def reservedError (names : List String) : Raised :=
  if EID_COLUMN ∈ names then
    appendError "edge batches must not include an 'eid' column; it is assigned by the store"
  else if CREATED_LSN_COLUMN ∈ names then
    appendError "edge batches must not include reserved column '_created_lsn'"
  else appendError "edge batches must not include reserved column '_deleted_lsn'"

def driftError (expected actual : List Field) : Raised :=
  let established_names := expected.map Field.name
  let actual_names := actual.map Field.name
  if established_names ≠ actual_names then
    appendError ("edge batch column drift: expected " ++ namesText established_names ++
      ", got " ++ namesText actual_names)
  else match Store.typeDrift expected actual with
    | none => appendError ""
    | some (left, right) => appendError ("edge batch column " ++ Value.quoted left.name ++
        " type mismatch: " ++ left.type.toText ++ " vs " ++ right.type.toText)

/-- A column that a batch has under its name more than once cannot be looked up by name. -/
def lookUp (batch : Table) (repeated : List String) (name : String) : Except Raised DataType :=
  if name ∈ repeated then .error (.keyError ("Column " ++ name ++ " does not exist in schema"))
  else .ok (batch.typeOf name)

/-- `EdgeStore.append(batch, created_lsn=...)` of a batch in which some names occur repeatedly. -/
def append (store : EdgeStore) (batch : Table) (repeated : List String) (created_lsn : Nat) :
    Except Raised (ChunkRef × EdgeStore) := do
  refuse (batch.rows = []) (appendError "cannot append empty edge batch")
  refuse (¬ Unreserved EID_COLUMN batch.names) (reservedError batch.names)
  refuse (SRC_COLUMN ∉ batch.names)
    (appendError "edge batch is missing required column 'src'")
  refuse (DST_COLUMN ∉ batch.names)
    (appendError "edge batch is missing required column 'dst'")
  let src_type ← lookUp batch repeated SRC_COLUMN
  let dst_type ← lookUp batch repeated DST_COLUMN
  refuse (src_type ≠ .uint64 ∨ dst_type ≠ .uint64)
    (appendError "edge 'src' and 'dst' must be UInt64 (nid) columns")
  if accepts : store.Accepts batch then
    return (store.chunkRef batch, store.push batch created_lsn accepts)
  else throw (driftError store.fields batch.fields)

end EdgeStore

/-! ### What an append does -/

/-- An append that is not refused adds the batch as the next chunk. -/
theorem NodeStore.append_ok {store after : NodeStore} {batch : Table} {created_lsn : Nat}
    {ref : ChunkRef} (appended : NodeStore.append store batch created_lsn = .ok (ref, after)) :
    batch.rows ≠ [] ∧ ref = store.chunkRef batch ∧
      ∃ accepts, after = store.push batch created_lsn accepts := by
  unfold NodeStore.append at appended
  split at appended
  · cases appended
  · next filled =>
    split at appended
    · cases appended
    · split at appended
      · next accepts =>
        cases appended
        exact ⟨filled, rfl, accepts, rfl⟩
      · cases appended

theorem EdgeStore.append_ok {store after : EdgeStore} {batch : Table} {repeated : List String}
    {created_lsn : Nat} {ref : ChunkRef}
    (appended : EdgeStore.append store batch repeated created_lsn = .ok (ref, after)) :
    batch.rows ≠ [] ∧ ref = store.chunkRef batch ∧
      ∃ accepts, after = store.push batch created_lsn accepts := by
  unfold EdgeStore.append at appended
  obtain ⟨_, filled, appended⟩ := except_bind_ok appended
  obtain ⟨_, _, appended⟩ := except_bind_ok appended
  obtain ⟨_, _, appended⟩ := except_bind_ok appended
  obtain ⟨_, _, appended⟩ := except_bind_ok appended
  obtain ⟨_, _, appended⟩ := except_bind_ok appended
  obtain ⟨_, _, appended⟩ := except_bind_ok appended
  obtain ⟨_, _, appended⟩ := except_bind_ok appended
  split at appended
  · next accepts =>
    cases appended
    exact ⟨refuse_ok filled, rfl, accepts, rfl⟩
  · cases appended

end CaracalDB
