import CaracalDB.MixedReaders

/-!
# Visible rows

The Python engine filters a batch with three-valued kernels, the Rust engine with
tests, and a row version answers for itself. They keep the same rows. A scan at a
snapshot filters batch by batch and selects columns then, so it gives the rows that
were written up to the snapshot, in their order, whatever is written later.
-/

namespace CaracalDB.Visibility

open Mixed

/-! ## Filters -/

/-- A batch as the filters see it: rows, and two columns of LSNs where the batch has them. -/
structure LsnBatch (Row : Type) where
  rows : List Row
  created : Option (List (Option Nat))
  deleted : Option (List (Option Nat))
  created_sized : ∀ column ∈ created, column.length = rows.length
  deleted_sized : ∀ column ∈ deleted, column.length = rows.length

/-- `pc.less_equal(column, scalar)` -/
def lessEqual (column : List (Option Nat)) (scalar : Nat) : List (Option Bool) :=
  column.map fun entry => entry.map fun number => decide (number ≤ scalar)

/-- `pc.greater(column, scalar)` -/
def greater (column : List (Option Nat)) (scalar : Nat) : List (Option Bool) :=
  column.map fun entry => entry.map fun number => decide (scalar < number)

/-- `pc.is_null(column)` -/
def isNull (column : List (Option Nat)) : List (Option Bool) :=
  column.map fun entry => some entry.isNone

/-- `pc.fill_null(mask, value)` -/
def fillNull (mask : List (Option Bool)) (value : Bool) : List (Option Bool) :=
  mask.map fun entry => some (entry.getD value)

/-- A kernel of two masks that is null where one of them is. -/
def strict (kernel : Bool → Bool → Bool) : Option Bool → Option Bool → Option Bool
  | some left, some right => some (kernel left right)
  | _, _ => none

/-- `batch.filter(mask)`, which drops the rows where the mask is null. -/
def filterRows {Row : Type} (rows : List Row) (mask : List (Option Bool)) : List Row :=
  ((rows.zip mask).filter fun entry => entry.2 = some true).map Prod.fst

/-- `_filter_visible(batch, snapshot_lsn)` -/
def pythonFilterVisible {Row : Type} (batch : LsnBatch Row) (snapshot_lsn : Nat) : List Row :=
  match batch.created with
  | none => batch.rows
  | some created =>
    let deleted := batch.deleted.getD (List.replicate batch.rows.length none)
    let created_ok := lessEqual created snapshot_lsn
    let deleted_null := isNull deleted
    let deleted_after := fillNull (greater deleted snapshot_lsn) false
    let visible := List.zipWith (strict (· && ·)) created_ok
      (List.zipWith (strict (· || ·)) deleted_null deleted_after)
    filterRows batch.rows visible

/-- Is the row at an index visible? -/
def rowVisible (created : List (Option Nat)) (deleted : Option (List (Option Nat)))
    (snapshot_lsn index : Nat) : Bool :=
  let created_ok := match created.getD index none with
    | none => false
    | some lsn => decide (lsn ≤ snapshot_lsn)
  let deleted_ok := match deleted with
    | none => true
    | some array => match array.getD index none with
      | none => true
      | some lsn => decide (snapshot_lsn < lsn)
  created_ok && deleted_ok

/-- `filter_record_batch_visible(batch, snapshot_lsn)` -/
def filterRecordBatchVisible {Row : Type} (batch : LsnBatch Row) (snapshot_lsn : Nat) : List Row :=
  match batch.created with
  | none => batch.rows
  | some created =>
    let visible := (List.range batch.rows.length).map
      (rowVisible created batch.deleted snapshot_lsn)
    filterRows batch.rows (visible.map some)

structure RowVersion where
  created_lsn : Nat
  deleted_lsn : Option Nat
deriving DecidableEq

/-- `visible_to(snap)` at the LSN of a snapshot. -/
def RowVersion.visibleTo (version : RowVersion) (lsn_high : Nat) : Bool :=
  if lsn_high < version.created_lsn then false
  else !(match version.deleted_lsn with
    | none => false
    | some lsn => decide (lsn ≤ lsn_high))

/-- `visibility_mask(versions, snap)` -/
def visibilityMask (versions : List RowVersion) (lsn_high : Nat) : List Bool :=
  versions.map (RowVersion.visibleTo · lsn_high)

/-- Masks that are true in the same places keep the same rows. -/
theorem filterRows_congr {Row : Type} {rows : List Row} {left right : List (Option Bool)}
    (alike : ∀ index < rows.length, left[index]? = some (some true) ↔
      right[index]? = some (some true)) : filterRows rows left = filterRows rows right := by
  induction rows generalizing left right with
  | nil => rfl
  | cons row rows inductionHypothesis =>
    have rest : filterRows rows left.tail = filterRows rows right.tail := by
      refine inductionHypothesis fun index within => ?_
      rw [List.getElem?_tail, List.getElem?_tail]
      exact alike (index + 1) (Nat.succ_lt_succ within)
    have unfolded (mask : List (Option Bool)) : filterRows (row :: rows) mask =
        if mask[0]? = some (some true) then row :: filterRows rows mask.tail
        else filterRows rows mask.tail := by
      cases mask with
      | nil => simp [filterRows]
      | cons entry mask =>
        by_cases kept : entry = some true
        · simp [filterRows, kept]
        · simp [filterRows, kept]
    rw [unfolded, unfolded, rest]
    exact if_congr (alike 0 (Nat.succ_pos _)) rfl rfl

/-- The LSN at which a row of a batch is deleted. -/
def LsnBatch.deletedAt {Row : Type} (batch : LsnBatch Row) (index : Nat) : Option Nat :=
  (batch.deleted.getD (List.replicate batch.rows.length none)).getD index none

/-- Is a row with some LSNs visible? -/
def Visible (created deleted : Option Nat) (snapshot_lsn : Nat) : Prop :=
  (∃ lsn, created = some lsn ∧ lsn ≤ snapshot_lsn) ∧ ∀ lsn, deleted = some lsn → snapshot_lsn < lsn

theorem rowVisible_iff {Row : Type} (batch : LsnBatch Row) {created : List (Option Nat)}
    (snapshot_lsn : Nat) {index : Nat} (within : index < batch.rows.length) :
    rowVisible created batch.deleted snapshot_lsn index = true ↔
      Visible (created.getD index none) (batch.deletedAt index) snapshot_lsn := by
  unfold rowVisible
  rw [LsnBatch.deletedAt, Visible, Bool.and_eq_true]
  refine and_congr ?_ ?_
  · cases created.getD index none <;> simp
  · cases batch.deleted with
    | none => simp [within]
    | some array =>
      simp only [Option.getD_some]
      cases array.getD index none <;> simp

theorem visibleTo_iff (version : RowVersion) (lsn_high : Nat) :
    version.visibleTo lsn_high = true ↔
      Visible (some version.created_lsn) version.deleted_lsn lsn_high := by
  obtain ⟨created, deleted⟩ := version
  rw [RowVersion.visibleTo, Visible]
  by_cases later : lsn_high < created
  · simp [later, Nat.not_le_of_lt later]
  · cases deleted with
    | none => simp [later, Nat.le_of_not_lt later]
    | some lsn => simp [later, Nat.le_of_not_lt later]

/-- The kernels are true where a row is visible. -/
theorem kernels_iff {created deleted : List (Option Nat)} {snapshot_lsn index : Nat}
    (createdWithin : index < created.length) (deletedWithin : index < deleted.length) :
    (List.zipWith (strict (· && ·)) (lessEqual created snapshot_lsn)
      (List.zipWith (strict (· || ·)) (isNull deleted)
        (fillNull (greater deleted snapshot_lsn) false)))[index]? = some (some true) ↔
      Visible (created.getD index none) (deleted.getD index none) snapshot_lsn := by
  have readCreated : created[index]? = some (created.getD index none) := by
    simp [createdWithin]
  have readDeleted : deleted[index]? = some (deleted.getD index none) := by
    simp [deletedWithin]
  simp only [List.getElem?_zipWith, lessEqual, isNull, fillNull, greater, List.getElem?_map,
    readCreated, readDeleted, Option.map_some, Visible]
  cases created.getD index none <;> cases deleted.getD index none <;> simp [strict]

/-- Where a batch has no column of deletions, every row is undeleted. -/
theorem LsnBatch.deletions_sized {Row : Type} (batch : LsnBatch Row) :
    (batch.deleted.getD (List.replicate batch.rows.length none)).length = batch.rows.length := by
  cases given : batch.deleted with
  | none => exact List.length_replicate
  | some column => exact batch.deleted_sized column given

/-- The engines keep the same rows of every batch. -/
theorem filters_agree {Row : Type} (batch : LsnBatch Row) (snapshot_lsn : Nat) :
    filterRecordBatchVisible batch snapshot_lsn = pythonFilterVisible batch snapshot_lsn := by
  rw [filterRecordBatchVisible, pythonFilterVisible]
  cases given : batch.created with
  | none => rfl
  | some created =>
    have size := batch.created_sized created given
    refine filterRows_congr fun index within => ?_
    have deletedWithin := Nat.lt_of_lt_of_eq within batch.deletions_sized.symm
    rw [kernels_iff (size ▸ within) deletedWithin, List.getElem?_map, List.getElem?_map,
      List.getElem?_range within]
    simp only [Option.map_some, Option.some.injEq]
    exact rowVisible_iff batch snapshot_lsn within

/-- Row versions keep the rows that the engines keep, where every creation has an LSN. -/
theorem versions_agree {Row : Type} (batch : LsnBatch Row) (versions : List RowVersion)
    (created : batch.created = some (versions.map fun version => some version.created_lsn))
    (deleted : batch.deleted.getD (List.replicate batch.rows.length none) =
      versions.map RowVersion.deleted_lsn) (snapshot_lsn : Nat) :
    pythonFilterVisible batch snapshot_lsn =
      filterRows batch.rows ((visibilityMask versions snapshot_lsn).map some) := by
  rw [pythonFilterVisible]
  simp only [created]
  refine filterRows_congr fun index within => ?_
  have size := batch.created_sized _ created
  rw [List.length_map] at size
  have inside : index < versions.length := size ▸ within
  have held : versions[index]? = some versions[index] := List.getElem?_eq_getElem inside
  have createdWithin : index < (versions.map fun version => some version.created_lsn).length := by
    rwa [List.length_map]
  have deletedWithin := Nat.lt_of_lt_of_eq within batch.deletions_sized.symm
  rw [kernels_iff createdWithin deletedWithin, deleted, visibilityMask, List.getElem?_map, List.getElem?_map, held, List.getD_eq_getElem?_getD,
    List.getElem?_map, held, List.getD_eq_getElem?_getD, List.getElem?_map, held]
  simp only [Option.map_some, Option.getD_some, Option.some.injEq]
  exact (visibleTo_iff _ _).symm

/-! ## Scans -/

/-- A batch of a chunk, which has both columns of LSNs; appends leave every row undeleted. -/
def lsnBatch (rows : List ChunkRow) : LsnBatch ChunkRow where
  rows := rows
  created := some (rows.map fun row => some row.created_lsn)
  deleted := some (rows.map fun _ => none)
  created_sized := by
    rintro column held
    cases held
    exact List.length_map _
  deleted_sized := by
    rintro column held
    cases held
    exact List.length_map _

/-- The values of a row of a chunk, in the order of its columns. -/
def cells (row : ChunkRow) : List Value :=
  .int row.id :: row.values ++ [.int row.created_lsn, .null]

/-- The values of a row under some of the names of its columns. -/
def selected (names columns : List String) (row : ChunkRow) : List Value :=
  columns.map fun column => (cells row).getD (names.idxOf column) .null

/-- `batch.select(columns)` -/
def select (schema : Schema) (columns : List String) (rows : List ChunkRow) :
    Except Raised (Schema × List (List Value)) := do
  let fields ← columns.mapM schema.field
  return (fields, rows.map (selected schema.names columns))

/-- `scan(columns=..., snapshot_lsn=...)` -/
def scan (store : StoreFiles) (columns : Option (List String)) (snapshot_lsn : Option Nat) :
    Except Raised (List (Schema × List (List Value))) :=
  (store.chunks.flatMap fun chunk => chunk.batches.map fun rows => (chunk.schema, rows)).mapM
    fun (schema, rows) =>
      let rows := match snapshot_lsn with
        | none => rows
        | some snapshot_lsn => pythonFilterVisible (lsnBatch rows) snapshot_lsn
      select schema (columns.getD schema.publicNames) rows

/-- A filter of a batch of a chunk keeps the rows that were created up to the snapshot. -/
theorem filter_chunk (rows : List ChunkRow) (snapshot_lsn : Nat) :
    pythonFilterVisible (lsnBatch rows) snapshot_lsn =
      rows.filter fun row => row.created_lsn ≤ snapshot_lsn := by
  let versions := rows.map fun row => RowVersion.mk row.created_lsn none
  have agree := versions_agree (lsnBatch rows) versions
    (by rw [List.map_map]; rfl) (by rw [List.map_map]; rfl) snapshot_lsn
  rw [agree, visibilityMask, List.map_map, List.map_map]
  induction rows with
  | nil => rfl
  | cons row rows inductionHypothesis =>
    have rest := inductionHypothesis (versions_agree (lsnBatch rows) _
      (by rw [List.map_map]; rfl) (by rw [List.map_map]; rfl) snapshot_lsn)
    have visible : (RowVersion.mk row.created_lsn none).visibleTo snapshot_lsn =
        decide (row.created_lsn ≤ snapshot_lsn) := by
      rw [RowVersion.visibleTo]
      by_cases later : snapshot_lsn < row.created_lsn
      · simp [later]
      · simp [later, Nat.le_of_not_lt later]
    rw [List.filter_cons, ← rest]
    by_cases created : row.created_lsn ≤ snapshot_lsn
    · simp [lsnBatch, filterRows, visible, created]
    · simp [lsnBatch, filterRows, visible, created]

/-! ## Runs of appends -/

/-- A store with the rows of the appends that were accepted, each with the columns it came in. -/
structure Log where
  store : StoreFiles
  rows : List (Schema × ChunkRow)

namespace Log

def new : Log := { store := { next_id := 0, chunks := [] }, rows := [] }

/-- An append; one that is refused changes nothing. -/
def step (kind : Kind) (log : Log) (operation : Operation) : Log :=
  match operation.engine.append kind log.store operation.input operation.created_lsn with
  | .error _ => log
  | .ok store =>
      { store
        rows := log.rows ++ (operation.input.rows.zipIdx log.rows.length).map fun (values, id) =>
          (operation.input.schema, { id, values, created_lsn := operation.created_lsn }) }

def run (kind : Kind) (operations : List Operation) : Log := operations.foldl (step kind) new

end Log

/-- The columns of a chunk. -/
def columnNames (kind : Kind) (schema : Schema) : List String :=
  kind.id_column :: schema.names ++ [CREATED_LSN_COLUMN, DELETED_LSN_COLUMN]

/-- A row as a scan with some columns gives it; without columns it has its public ones. -/
def shown (kind : Kind) (columns : Option (List String)) (entry : Schema × ChunkRow) : List Value :=
  let names := columnNames kind entry.1
  selected names (columns.getD (names.filter fun name =>
    name ≠ CREATED_LSN_COLUMN ∧ name ≠ DELETED_LSN_COLUMN)) entry.2

/-- The rows of the log that were created up to a snapshot, in order. -/
def Log.visible (kind : Kind) (log : Log) (columns : Option (List String)) (snapshot_lsn : Nat) :
    List (List Value) :=
  (log.rows.filter fun entry => entry.2.created_lsn ≤ snapshot_lsn).map (shown kind columns)

theorem engine_names (engine : Engine) (kind : Kind) (schema : Schema) :
    (engine.schema kind schema).names = columnNames kind schema := by
  have inner := names_of_keys (engine.keys_inner schema)
  cases engine with
  | python =>
    show kind.id_column :: Schema.names (Engine.inner .python schema ++ _) = _
    rw [names_append, inner]
    rfl
  | rust =>
    show kind.id_column :: Schema.names (Engine.inner .rust schema ++ _) = _
    rw [names_append, inner]
    rfl

/-- The rows of numbered batches. -/
theorem numberBatches_flatten (created_lsn start : Nat) (batches : List (List (List Value))) :
    (numberBatches created_lsn start batches).flatten =
      (batches.flatten.zipIdx start).map fun (values, id) => { id, values, created_lsn } := by
  induction batches generalizing start with
  | nil => rfl
  | cons batch batches inductionHypothesis =>
    rw [numberBatches, List.flatten_cons, inductionHypothesis, List.flatten_cons,
      List.zipIdx_append, List.map_append]

/-- An append that is accepted has rows, brings no column of the store and adds one chunk. -/
theorem append_ok {engine : Engine} {kind : Kind} {store after : StoreFiles} {input : Input}
    {created_lsn : Nat} (appended : engine.append kind store input created_lsn = .ok after) :
    (input.rows ≠ [] ∧ ¬ Reserved kind input.schema.names) ∧
      after = store.push (engine.schema kind input.schema) (engine.batches input) created_lsn := by
  cases engine with
  | python =>
    cases kind with
    | nodes =>
      obtain ⟨_, rows, rest⟩ := except_bind_ok appended
      obtain ⟨_, unreserved, rest⟩ := except_bind_ok rest
      refine ⟨⟨refuse_ok rows, refuse_ok unreserved⟩, ?_⟩
      cases first : store.chunks.head? with
      | none =>
        rw [first] at rest
        exact (Except.ok.inj rest).symm
      | some chunk =>
        rw [first] at rest
        obtain ⟨_, _, rest⟩ := except_bind_ok rest
        exact (Except.ok.inj rest).symm
    | edges =>
      obtain ⟨established, _, rest⟩ := except_bind_ok appended
      obtain ⟨_, valid, rest⟩ := except_bind_ok rest
      obtain ⟨_, rows, valid⟩ := except_bind_ok valid
      obtain ⟨_, unreserved, _⟩ := except_bind_ok valid
      exact ⟨⟨refuse_ok rows, refuse_ok unreserved⟩, (Except.ok.inj rest).symm⟩
  | rust =>
    obtain ⟨_, _, rest⟩ := except_bind_ok appended
    obtain ⟨_, valid, rest⟩ := except_bind_ok rest
    have checked : input.rows ≠ [] ∧ ¬ Reserved kind input.schema.names := by
      cases kind with
      | nodes =>
        obtain ⟨_, rows, unreserved⟩ := except_bind_ok valid
        exact ⟨rows_length_iff.mp (refuse_ok rows), refuse_ok unreserved⟩
      | edges =>
        obtain ⟨_, rows, valid⟩ := except_bind_ok valid
        obtain ⟨_, unreserved, _⟩ := except_bind_ok valid
        exact ⟨rows_length_iff.mp (refuse_ok rows), refuse_ok unreserved⟩
    refine ⟨checked, ?_⟩
    cases first : store.chunks.head? with
    | none =>
      rw [first] at rest
      exact (Except.ok.inj rest).symm
    | some chunk =>
      rw [first] at rest
      obtain ⟨_, _, rest⟩ := except_bind_ok rest
      exact (Except.ok.inj rest).symm

/-- The rows of a store with the names of their columns. -/
def storedRows (store : StoreFiles) : List (List String × ChunkRow) :=
  store.chunks.flatMap fun chunk => chunk.batches.flatten.map fun row => (chunk.schema.names, row)

/-- The chunks have the rows of the log, under increasing ids. -/
structure Log.Kept (kind : Kind) (log : Log) : Prop where
  next_id : log.store.next_id = log.rows.length
  rows : storedRows log.store = log.rows.map fun entry => (columnNames kind entry.1, entry.2)

theorem Log.Kept.step {kind : Kind} {log : Log} (kept : log.Kept kind) (operation : Operation) :
    (log.step kind operation).Kept kind := by
  rw [Log.step]
  cases appended : operation.engine.append kind log.store operation.input operation.created_lsn with
  | error raised => exact kept
  | ok store =>
    obtain ⟨_, rfl⟩ := append_ok appended
    refine ⟨?_, ?_⟩
    · rw [StoreFiles.push, Engine.batches_flatten, kept.next_id, List.length_append, List.length_map,
        List.length_zipIdx]
    · have before := kept.rows
      rw [storedRows] at before ⊢
      rw [StoreFiles.push, List.flatMap_append, before, List.flatMap_singleton, List.map_append,
        numberBatches_flatten, Engine.batches_flatten, engine_names, kept.next_id, List.map_map,
        List.map_map]
      rfl

theorem kept_run (kind : Kind) (operations : List Operation) : (Log.run kind operations).Kept kind := by
  have all (log : Log) (kept : log.Kept kind) : (operations.foldl (Log.step kind) log).Kept kind := by
    induction operations generalizing log with
    | nil => exact kept
    | cons operation operations inductionHypothesis =>
      exact inductionHypothesis _ (kept.step operation)
  exact all _ ⟨rfl, rfl⟩

/-- Was a row written up to a snapshot, if there is one? -/
def writtenBy (snapshot_lsn : Option Nat) (row : ChunkRow) : Bool :=
  match snapshot_lsn with
  | none => true
  | some snapshot_lsn => row.created_lsn ≤ snapshot_lsn

/-- What a scan gives, if it gives anything. -/
theorem scan_rows {store : StoreFiles} {columns : Option (List String)} {snapshot_lsn : Option Nat}
    {batches : List (Schema × List (List Value))}
    (scanned : scan store columns snapshot_lsn = .ok batches) :
    batches.flatMap Prod.snd = ((storedRows store).filter fun entry =>
      writtenBy snapshot_lsn entry.2).map fun entry => selected entry.1 (columns.getD
        (entry.1.filter fun name => name ≠ CREATED_LSN_COLUMN ∧ name ≠ DELETED_LSN_COLUMN)) entry.2 := by
  let plain (item : Schema × List ChunkRow) : List (List Value) :=
    (item.2.filter (writtenBy snapshot_lsn)).map
      (selected item.1.names (columns.getD item.1.publicNames))
  -- Every batch gives its visible rows, whatever the fields are.
  have each (items : List (Schema × List ChunkRow)) {batches : List (Schema × List (List Value))}
      (done : (items.mapM fun (schema, rows) =>
        let rows := match snapshot_lsn with
          | none => rows
          | some snapshot_lsn => pythonFilterVisible (lsnBatch rows) snapshot_lsn
        select schema (columns.getD schema.publicNames) rows) = .ok batches) :
      batches.flatMap Prod.snd = items.flatMap plain := by
    induction items generalizing batches with
    | nil =>
      cases done
      rfl
    | cons item items inductionHypothesis =>
      rw [List.mapM_cons] at done
      obtain ⟨batch, first, done⟩ := except_bind_ok done
      obtain ⟨rest, others, done⟩ := except_bind_ok done
      cases done
      obtain ⟨fields, _, made⟩ := except_bind_ok first
      cases made
      rw [List.flatMap_cons, List.flatMap_cons, inductionHypothesis others]
      congr 1
      cases snapshot_lsn with
      | none =>
        have all : item.2.filter (writtenBy none) = item.2 := List.filter_eq_self.mpr fun _ _ => rfl
        simp only [plain, all]
      | some snapshot_lsn =>
        simp only [filter_chunk]
        rfl
  rw [each _ scanned, storedRows, List.flatMap_assoc, List.filter_flatMap, List.map_flatMap]
  apply List.flatMap_congr
  intro chunk _
  rw [List.flatMap_map, List.filter_map, List.map_map]
  simp only [plain]
  rw [← List.map_flatMap, ← List.filter_flatMap]
  have joined : (chunk.batches.flatMap fun rows => rows) = chunk.batches.flatten := by
    rw [List.flatMap_def, List.map_id']
  rw [joined]
  rfl

/-- A scan of the log's store gives the visible rows of the log. -/
theorem Log.Kept.scan_rows {kind : Kind} {log : Log} (kept : log.Kept kind)
    {columns : Option (List String)} {snapshot_lsn : Nat}
    {batches : List (Schema × List (List Value))}
    (scanned : scan log.store columns (some snapshot_lsn) = .ok batches) :
    batches.flatMap Prod.snd = log.visible kind columns snapshot_lsn := by
  rw [Visibility.scan_rows scanned, kept.rows, List.filter_map, List.map_map]
  rfl

/-- Rows of later LSNs are not visible. -/
theorem visible_step (kind : Kind) (log : Log) {operation : Operation}
    (columns : Option (List String)) {snapshot_lsn : Nat}
    (later : snapshot_lsn < operation.created_lsn) :
    (log.step kind operation).visible kind columns snapshot_lsn =
      log.visible kind columns snapshot_lsn := by
  rw [Log.step]
  cases operation.engine.append kind log.store operation.input operation.created_lsn with
  | error raised => rfl
  | ok store =>
    have none : ((operation.input.rows.zipIdx log.rows.length).map fun (values, id) =>
        (operation.input.schema, ({ id, values, created_lsn := operation.created_lsn } : ChunkRow))).filter
          (fun entry => entry.2.created_lsn ≤ snapshot_lsn) = [] := by
      rw [List.filter_eq_nil_iff]
      intro entry member
      obtain ⟨row, _, rfl⟩ := List.mem_map.mp member
      simpa using later
    simp only [Log.visible]
    rw [List.filter_append, none, List.append_nil]

/-- Every chunk has distinct columns, as its batches have. -/
def Log.Shaped (kind : Kind) (log : Log) : Prop :=
  ∀ chunk ∈ log.store.chunks, ∃ inner, Mixed.Shaped kind chunk.schema inner

theorem Log.Shaped.step {kind : Kind} {log : Log} (shaped : log.Shaped kind) {operation : Operation}
    (distinct : Distinct kind operation.input) : (log.step kind operation).Shaped kind := by
  rw [Log.step]
  cases appended : operation.engine.append kind log.store operation.input operation.created_lsn with
  | error raised => exact shaped
  | ok store =>
    obtain ⟨⟨rows, unreserved⟩, rfl⟩ := append_ok appended
    intro chunk member
    rcases List.mem_append.mp member with old | new
    · exact shaped chunk old
    · rw [List.mem_singleton.mp new]
      exact ⟨_, operation.engine.shaped (distinct rows unreserved) unreserved⟩

theorem shaped_run {kind : Kind} {operations : List Operation}
    (distinct : ∀ operation ∈ operations, Distinct kind operation.input) :
    (Log.run kind operations).Shaped kind := by
  have all (log : Log) (shaped : log.Shaped kind) :
      (operations.foldl (Log.step kind) log).Shaped kind := by
    induction operations generalizing log with
    | nil => exact shaped
    | cons operation operations inductionHypothesis =>
      obtain ⟨first, others⟩ := List.forall_mem_cons.mp distinct
      exact inductionHypothesis others _ (shaped.step first)
  exact all _ nofun

/-- Columns that a chunk with distinct names has are found. -/
theorem columns_found {schema : Schema} (distinct : schema.names.Nodup) {columns : List String}
    (among : ∀ name ∈ columns, name ∈ schema.names) :
    ∃ fields, columns.mapM schema.field = .ok fields := by
  have each (name : String) (member : name ∈ columns) : ∃ field, schema.field name = .ok field := by
    obtain ⟨field, inside, rfl⟩ := List.mem_map.mp (among name member)
    exact ⟨field, field_of_mem distinct inside⟩
  exact mapM_answers each

theorem select_answers {schema fields : Schema} {columns : List String}
    (read : columns.mapM schema.field = .ok fields) (rows : List ChunkRow) :
    ∃ batch, select schema columns rows = .ok batch :=
  ⟨(fields, rows.map (selected schema.names columns)), by rw [select, read]; rfl⟩

theorem scan_answers {kind : Kind} {log : Log} (shaped : log.Shaped kind)
    (columns : Option (List String)) (snapshot_lsn : Option Nat)
    (among : ∀ names ∈ columns, ∀ chunk ∈ log.store.chunks, ∀ name ∈ names,
      name ∈ chunk.schema.names) : ∃ batches, scan log.store columns snapshot_lsn = .ok batches := by
  refine mapM_answers fun item member => ?_
  obtain ⟨chunk, inside, held⟩ := List.mem_flatMap.mp member
  obtain ⟨rows, _, rfl⟩ := List.mem_map.mp held
  obtain ⟨inner, chunkShaped⟩ := shaped chunk inside
  have found : ∀ name ∈ columns.getD chunk.schema.publicNames, name ∈ chunk.schema.names := by
    cases columns with
    | none => exact fun name held => List.mem_of_mem_filter held
    | some names => exact among names rfl chunk inside
  obtain ⟨fields, read⟩ := columns_found chunkShaped.names_distinct found
  exact select_answers read _

/-- Scans at snapshots give the rows that were created up to the snapshot in the order of the
appends, no append of a later LSN changes that, and a scan answers whose columns are there. -/
structure Log.Stable (kind : Kind) (log : Log) : Prop where
  rows : ∀ columns snapshot_lsn batches, scan log.store columns (some snapshot_lsn) = .ok batches →
    batches.flatMap Prod.snd = log.visible kind columns snapshot_lsn
  later : ∀ operation columns snapshot_lsn before after, snapshot_lsn < operation.created_lsn →
    scan log.store columns (some snapshot_lsn) = .ok before →
    scan (log.step kind operation).store columns (some snapshot_lsn) = .ok after →
    after.flatMap Prod.snd = before.flatMap Prod.snd
  answers : ∀ columns snapshot_lsn,
    (∀ names ∈ columns, ∀ chunk ∈ log.store.chunks, ∀ name ∈ names, name ∈ chunk.schema.names) →
      ∃ batches, scan log.store columns (some snapshot_lsn) = .ok batches

/-- In every run of appends whose batches have distinct names, snapshots are stable. The filters
of both engines, and row versions where every creation has an LSN, keep the same rows of every
batch. -/
theorem snapshots_stable (kind : Kind) (operations : List Operation) :
    ((∀ operation ∈ operations, Distinct kind operation.input) →
      (Log.run kind operations).Stable kind) ∧
    ∀ (Row : Type) (batch : LsnBatch Row) (snapshot_lsn : Nat),
      filterRecordBatchVisible batch snapshot_lsn = pythonFilterVisible batch snapshot_lsn ∧
        ∀ versions : List RowVersion,
          batch.created = some (versions.map fun version => some version.created_lsn) →
          batch.deleted.getD (List.replicate batch.rows.length none) =
            versions.map RowVersion.deleted_lsn →
          pythonFilterVisible batch snapshot_lsn =
            filterRows batch.rows ((visibilityMask versions snapshot_lsn).map some) := by
  refine ⟨fun distinct => ?_, fun Row batch snapshot_lsn =>
    ⟨filters_agree batch snapshot_lsn, fun versions created deleted =>
      versions_agree batch versions created deleted snapshot_lsn⟩⟩
  have kept := kept_run kind operations
  refine ⟨fun columns snapshot_lsn batches => kept.scan_rows, ?_, fun columns snapshot_lsn =>
    scan_answers (shaped_run distinct) columns (some snapshot_lsn)⟩
  intro operation columns snapshot_lsn before after later scanned scannedAfter
  rw [(kept.step operation).scan_rows scannedAfter, kept.scan_rows scanned,
    visible_step kind _ columns later]

/-- Of two persons written at LSNs one and five, a snapshot at three has the first. -/
theorem earlier_person_visible : ∃ batches,
    scan (Log.run .nodes [{ engine := .python, input := nameBatch "Alice", created_lsn := 1 },
      { engine := .python, input := nameBatch "Bob", created_lsn := 5 }]).store none (some 3) =
        .ok batches ∧ batches.flatMap Prod.snd = [[.int 0, .str "Alice"]] := by
  have distinct : ∀ name, Distinct .nodes (nameBatch name) := fun _ _ _ => List.nodup_singleton _
  have stable := (snapshots_stable .nodes
    [{ engine := .python, input := nameBatch "Alice", created_lsn := 1 },
      { engine := .python, input := nameBatch "Bob", created_lsn := 5 }]).1 (by
    intro operation member
    rcases List.mem_cons.mp member with rfl | member
    · exact distinct _
    · rw [List.mem_singleton.mp member]
      exact distinct _)
  obtain ⟨batches, scanned⟩ := stable.answers none 3 nofun
  exact ⟨batches, scanned, stable.rows none 3 batches scanned⟩

/-- A batch with two columns of one name. -/
def doubledBatch : Input where
  schema := [{ name := "name", type := .string, nullable := true },
    { name := "name", type := .string, nullable := true }]
  batches := [[[.str "Alice", .str "Lidell"]]]

/-- A batch with two columns of one name is appended, and then no scan answers. -/
theorem doubled_names_unscanned :
    (∃ store, pythonAppend .nodes Log.new.store doubledBatch 1 = .ok store ∧
      scan store none (some 1) = .error (.keyError "Column name does not exist in schema")) ∧
    ¬ (Log.run .nodes [{ engine := .python, input := doubledBatch, created_lsn := 1 }]).Stable .nodes := by
  refine ⟨⟨_, rfl, rfl⟩, fun stable => ?_⟩
  obtain ⟨batches, scanned⟩ := stable.answers none 1 nofun
  have raised : scan (Log.run .nodes
      [{ engine := .python, input := doubledBatch, created_lsn := 1 }]).store none (some 1) =
        .error (.keyError "Column name does not exist in schema") := rfl
  rw [raised] at scanned
  cases scanned

end CaracalDB.Visibility
