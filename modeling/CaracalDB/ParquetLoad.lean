import CaracalDB.MixedReaders
import CaracalDB.Slices

/-!
# Loading Parquet files

A file is read in chunks of a given size. The endpoint columns of a chunk of edges are
cast to node ids and the chunk is appended to the store; a chunk that cannot be cast or
that the store refuses is put aside as a whole. So the good rows of a chunk are lost
with the first bad one, and which they are depends on the size of the chunks.
-/

namespace CaracalDB.Parquet

open Mixed

/-- `ParquetLoadReport` -/
structure Report where
  rows_read : Nat := 0
  rows_written : Nat := 0
  rows_quarantined : Nat := 0
  quarantined : List (Nat × String × String) := []
  chunks : Nat := 0

/-- What a load is asked for besides the file. -/
structure Request where
  column_map : Dict String String := Dict.empty
  chunksize : Nat
  quarantine_limit : Nat := 100

/-- `value` of a column of a type after `cast(pa.uint64(), safe=True)`, none where the cast of the
column fails for it; a type without a cast has none for any value. -/
abbrev Cast : Type := DataType → Value → Option Value

/-- `_rename(table, mapping)` -/
def rename (schema : Schema) (mapping : Dict String String) : Schema :=
  schema.map fun field => { field with name := (mapping.get? field.name).getD field.name }

/-- `_drop_columns(table, [name])`, the columns. -/
def dropColumn (schema : Schema) (name : String) : Schema :=
  schema.filter fun field => field.name ≠ name

/-- `_drop_columns(table, [name])`, a row. -/
def dropValue (schema : Schema) (name : String) (row : List Value) : List Value :=
  ((schema.zip row).filter fun pair => pair.1.name ≠ name).map Prod.snd

/-- The batches of `pf.iter_batches(batch_size=...)`. -/
def iterBatches (batch_size : Nat) (rows : List (List Value)) : List (List (List Value)) :=
  Slices.slices batch_size rows

/-- `_quarantine(report, table, exc, limit)` -/
def quarantine (report : Report) (rows : Nat) (error : CaracalError) (limit : Nat) : Report :=
  { report with
    rows_quarantined := report.rows_quarantined + rows
    quarantined := if report.quarantined.length < limit then
      report.quarantined ++ [(rows, error.code, error.message)] else report.quarantined }

/-- `store.append(table)`, with what the report says of it. -/
def appendChunk (kind : Kind) (limit : Nat) (store : StoreFiles) (report : Report)
    (input : Input) : Except Raised (StoreFiles × Report) :=
  if input.rows = [] then .ok (store, report)
  else match pythonAppend kind store input 0 with
    | .ok after => .ok (after, { report with
        rows_written := report.rows_written + input.rows.length
        chunks := report.chunks + 1 })
    | .error (.caracal error) => .ok (store, quarantine report input.rows.length error limit)
    | .error raised => .error raised

/-- One chunk of `ingest_nodes_from_parquet`. -/
def loadNodes (schema : Schema) (limit : Nat) (state : StoreFiles × Report)
    (rows : List (List Value)) : Except Raised (StoreFiles × Report) :=
  let (store, report) := state
  appendChunk .nodes limit store { report with rows_read := report.rows_read + rows.length }
    { schema := dropColumn schema NID_COLUMN, batches := [rows.map (dropValue schema NID_COLUMN)] }

/-- An endpoint column that is no `UInt64` column. -/
def NeedsCast (field : SchemaField) : Prop :=
  field.name ∈ REQUIRED_EDGE_COLUMNS ∧ field.type ≠ .uint64

instance (field : SchemaField) : Decidable (NeedsCast field) := inferInstanceAs (Decidable (_ ∧ _))

variable (cast : Cast)

/-- The cast of a value in its column. -/
def castValue (pair : SchemaField × Value) : Option Value :=
  if NeedsCast pair.1 then cast pair.1.type pair.2 else some pair.2

/-- `_coerce_uint64(table, ["src", "dst"])`, the columns. -/
def coerceSchema (schema : Schema) : Schema :=
  schema.map fun field => if NeedsCast field then { field with type := .uint64 } else field

/-- `_coerce_uint64(table, ["src", "dst"])`, a row whose values can be cast. -/
def coerceRow (schema : Schema) (row : List Value) : List Value :=
  (schema.zip row).map fun pair => (castValue cast pair).getD pair.2

/-- Every endpoint of the row can be cast. -/
def Castable (schema : Schema) (row : List Value) : Prop :=
  ∀ pair ∈ schema.zip row, castValue cast pair ≠ none

instance (schema : Schema) (row : List Value) : Decidable (Castable cast schema row) :=
  inferInstanceAs (Decidable (∀ pair ∈ schema.zip row, castValue cast pair ≠ none))

/-- The error of a column, up to the text of the failed cast. -/
def castError (name : String) : CaracalError :=
  { code := "CDB-7031", message := "cannot cast column " ++ Value.quoted name ++ " to UInt64" }

/-- The first column that cannot be cast. -/
def uncastColumn (schema : Schema) (rows : List (List Value)) : String :=
  ((schema.find? fun field => rows.any fun row => (schema.zip row).any fun pair =>
    pair.1 = field && castValue cast pair = none).map SchemaField.name).getD ""

/-- One chunk of `ingest_edges_from_parquet`. -/
def loadEdges (schema : Schema) (limit : Nat) (state : StoreFiles × Report)
    (rows : List (List Value)) : Except Raised (StoreFiles × Report) :=
  let (store, report) := state
  let report := { report with rows_read := report.rows_read + rows.length }
  let columns := dropColumn schema EID_COLUMN
  let values := rows.map (dropValue schema EID_COLUMN)
  match REQUIRED_EDGE_COLUMNS.find? fun required => required ∉ columns.names with
  | some required => .error (.caracal { code := "CDB-7031"
                                        message := "Parquet edge source missing required column " ++
                                          Value.quoted required ++ "; use column_map= to rename" })
  | none =>
      if ∀ row ∈ values, Castable cast columns row then
        appendChunk .edges limit store report
          { schema := coerceSchema columns, batches := [values.map (coerceRow cast columns)] }
      else .ok (store, quarantine report values.length (castError (uncastColumn cast columns values))
        limit)

def chunksizeError : Raised := .caracal { code := "CDB-7030", message := "chunksize must be positive" }

/-- One chunk of a load. -/
def loadChunk : Kind → Schema → Nat → StoreFiles × Report → List (List Value) →
    Except Raised (StoreFiles × Report)
  | .nodes => loadNodes
  | .edges => loadEdges cast

/-- `ingest_nodes_from_parquet` and `ingest_edges_from_parquet` of an opened store. -/
def ingest (kind : Kind) (request : Request) (schema : Schema) (rows : List (List Value))
    (store : StoreFiles) : Except Raised (StoreFiles × Report) := do
  refuse (request.chunksize ≤ 0) chunksizeError
  (iterBatches request.chunksize rows).foldlM
    (loadChunk cast kind (rename schema request.column_map) request.quarantine_limit) (store, {})

/-! ## Rows -/

/-- The columns that a chunk is appended with. -/
def columnsOf : Kind → Schema → Schema
  | .nodes, schema => dropColumn schema NID_COLUMN
  | .edges, schema => coerceSchema (dropColumn schema EID_COLUMN)

/-- The values that a row is appended with. -/
def valuesOf : Kind → Schema → List Value → List Value
  | .nodes, schema, row => dropValue schema NID_COLUMN row
  | .edges, schema, row => coerceRow cast (dropColumn schema EID_COLUMN) (dropValue schema EID_COLUMN row)

/-- The store takes columns like these. -/
def Fits (kind : Kind) (schema : Schema) (store : StoreFiles) : Prop :=
  ¬ Reserved kind (columnsOf kind schema).names ∧ Endpoints kind (columnsOf kind schema) ∧
    ∀ chunk ∈ store.chunks.head?, keys chunk.schema = keys (pythonSchema kind (columnsOf kind schema))

/-- Whether the endpoints of a row can be cast; nodes have none. -/
def RowCasts : Kind → Schema → List Value → Prop
  | .nodes, _, _ => True
  | .edges, schema, row => Castable cast (dropColumn schema EID_COLUMN) (dropValue schema EID_COLUMN row)

/-- A row that converts to the schema of the store. -/
def Converts (kind : Kind) (schema : Schema) (store : StoreFiles) (row : List Value) : Prop :=
  Fits kind schema store ∧ RowCasts cast kind schema row

/-- The values of all rows of a store, in order. -/
def contents (store : StoreFiles) : List (List Value) :=
  store.chunks.flatMap fun chunk => chunk.batches.flatten.map ChunkRow.values

theorem numbered_values (created_lsn start : Nat) (batch : List (List Value)) :
    ((batch.zipIdx start).map fun (values, id) =>
      ({ id, values, created_lsn } : ChunkRow)).map ChunkRow.values = batch := by
  rw [List.map_map]
  exact List.zipIdx_map_fst start batch

theorem numberBatches_values (created_lsn start : Nat) (batches : List (List (List Value))) :
    (numberBatches created_lsn start batches).flatten.map ChunkRow.values = batches.flatten := by
  induction batches generalizing start with
  | nil => rfl
  | cons batch batches inductionHypothesis =>
    rw [numberBatches, List.flatten_cons, List.map_append, numbered_values, inductionHypothesis,
      List.flatten_cons]

theorem contents_push (store : StoreFiles) (schema : Schema) (batches : List (List (List Value)))
    (created_lsn : Nat) :
    contents (store.push schema batches created_lsn) = contents store ++ batches.flatten := by
  simp only [contents, StoreFiles.push, List.flatMap_append, List.flatMap_singleton,
    numberBatches_values]

/-! ## Chunks that are kept as a whole -/

section Kept

open Classical

variable {Item : Type} (good : Item → Prop)

/-- The items of the chunks in which every item is good. -/
noncomputable def kept (chunks : List (List Item)) : List Item :=
  (chunks.filter fun chunk => decide (∀ item ∈ chunk, good item)).flatten

theorem kept_cons (chunk : List Item) (chunks : List (List Item)) :
    kept good (chunk :: chunks) =
      (if ∀ item ∈ chunk, good item then chunk else []) ++ kept good chunks := by
  rw [kept, List.filter_cons]
  by_cases all : ∀ item ∈ chunk, good item
  · rw [if_pos (decide_eq_true all), if_pos all, List.flatten_cons]
    rfl
  · rw [if_neg (by simpa using all), if_neg all, List.nil_append]
    rfl

/-- Chunks of which each is good or bad as a whole lose nothing good. -/
theorem kept_of_uniform {chunks : List (List Item)}
    (uniform : ∀ chunk ∈ chunks, (∀ item ∈ chunk, good item) ∨ ∀ item ∈ chunk, ¬ good item) :
    kept good chunks = chunks.flatten.filter fun item => decide (good item) := by
  induction chunks with
  | nil => rfl
  | cons chunk chunks inductionHypothesis =>
    rw [kept_cons, List.flatten_cons, List.filter_append,
      inductionHypothesis fun other member => uniform other (List.mem_cons_of_mem chunk member)]
    congr 1
    by_cases all : ∀ item ∈ chunk, good item
    · rw [if_pos all, List.filter_eq_self.mpr]
      exact fun item member => decide_eq_true (all item member)
    · have none := (uniform chunk List.mem_cons_self).resolve_left all
      rw [if_neg all, List.filter_eq_nil_iff.mpr]
      exact fun item member held => none item member (of_decide_eq_true held)

theorem length_kept_le (chunks : List (List Item)) :
    (kept good chunks).length ≤ (chunks.flatten.filter fun item => decide (good item)).length ∧
      ((kept good chunks).length = (chunks.flatten.filter fun item => decide (good item)).length →
        ∀ chunk ∈ chunks, (∀ item ∈ chunk, good item) ∨ ∀ item ∈ chunk, ¬ good item) := by
  induction chunks with
  | nil => exact ⟨Nat.le_refl _, fun _ chunk member => absurd member List.not_mem_nil⟩
  | cons chunk chunks inductionHypothesis =>
    obtain ⟨least, uniform⟩ := inductionHypothesis
    rw [kept_cons, List.flatten_cons, List.filter_append, List.length_append, List.length_append]
    by_cases all : ∀ item ∈ chunk, good item
    · have whole : chunk.filter (fun item => decide (good item)) = chunk :=
        List.filter_eq_self.mpr fun item member => decide_eq_true (all item member)
      rw [if_pos all, whole]
      refine ⟨by omega, ?_⟩
      intro same other member
      rcases List.mem_cons.mp member with rfl | later
      · exact .inl all
      · exact uniform (by omega) other later
    · rw [if_neg all, List.length_nil]
      refine ⟨by omega, ?_⟩
      intro same other member
      rcases List.mem_cons.mp member with rfl | later
      · right
        have nothing := List.length_eq_zero_iff.mp (show (other.filter fun item =>
          decide (good item)).length = 0 by omega)
        intro item inside held
        exact List.filter_eq_nil_iff.mp nothing item inside (decide_eq_true held)
      · exact uniform (by omega) other later

end Kept

/-! ## One chunk -/

theorem names_coerceSchema (schema : Schema) : (coerceSchema schema).names = schema.names := by
  rw [coerceSchema, Schema.names, Schema.names, List.map_map]
  apply List.map_congr_left
  intro field _
  simp only [Function.comp_apply]
  split <;> rfl

theorem columnsOf_distinct {schema : Schema} (distinct : schema.names.Nodup) (kind : Kind) :
    (columnsOf kind schema).names.Nodup := by
  have dropped (name : String) : (dropColumn schema name).names.Nodup :=
    distinct.sublist (List.filter_sublist.map _)
  cases kind with
  | nodes => exact dropped NID_COLUMN
  | edges =>
    rw [columnsOf, names_coerceSchema]
    exact dropped EID_COLUMN

theorem pythonAppend_decides {kind : Kind} {store : StoreFiles} (input : Input)
    (distinct : Distinct kind input) (shaped : FirstShaped kind store) :
    Decides kind.code (pythonAppend kind store input 0) (Accepts kind store input)
      (store.push (pythonSchema kind input.schema) [input.rows] 0) := by
  cases kind with
  | nodes => exact pythonAppendNodes_decides distinct shaped
  | edges => exact pythonAppendEdges_decides distinct shaped

/-- What the store and the report are after a chunk of rows. -/
structure Stepped (kind : Kind) (schema : Schema) (before : StoreFiles × Report)
    (values : List (List Value)) (rows : Nat) (after : StoreFiles × Report) : Prop where
  contents : contents after.1 = contents before.1 ++ values
  read : after.2.rows_read = before.2.rows_read + rows
  written : after.2.rows_written = before.2.rows_written + values.length
  quarantined : after.2.rows_quarantined + values.length = before.2.rows_quarantined + rows
  shaped : FirstShaped kind after.1
  fits : Fits kind schema after.1 ↔ Fits kind schema before.1

section Chunk

variable {kind : Kind} {schema : Schema} {store : StoreFiles} {report : Report} {limit : Nat}

/-- The store after an append takes the same columns as before. -/
theorem push_fits (distinct : schema.names.Nodup) (shaped : FirstShaped kind store)
    (fits : Fits kind schema store) (values : List (List Value)) :
    FirstShaped kind (store.push (pythonSchema kind (columnsOf kind schema)) [values] 0) ∧
      Fits kind schema (store.push (pythonSchema kind (columnsOf kind schema)) [values] 0) := by
  obtain ⟨unreserved, endpoints, alike⟩ := fits
  cases first : store.chunks with
  | nil =>
    have head : (store.push (pythonSchema kind (columnsOf kind schema)) [values] 0).chunks.head? =
        some { schema := pythonSchema kind (columnsOf kind schema)
               batches := numberBatches 0 store.next_id [values] } := by
      simp [StoreFiles.push, first]
    constructor
    · intro chunk isFirst
      rw [head] at isFirst
      cases isFirst
      exact ⟨_, Engine.python.shaped (columnsOf_distinct distinct kind) unreserved⟩
    · refine ⟨unreserved, endpoints, fun chunk isFirst => ?_⟩
      rw [head] at isFirst
      cases isFirst
      rfl
  | cons chunk chunks =>
    have head : (store.push (pythonSchema kind (columnsOf kind schema)) [values] 0).chunks.head? =
        store.chunks.head? := by
      simp [StoreFiles.push, first]
    constructor
    · intro other isFirst
      rw [head] at isFirst
      exact shaped other isFirst
    · refine ⟨unreserved, endpoints, fun other isFirst => ?_⟩
      rw [head] at isFirst
      exact alike other isFirst

/-- An append writes all rows of a chunk or puts all of them aside. -/
theorem appendChunk_steps (limit : Nat) (report : Report) (distinct : schema.names.Nodup) (shaped : FirstShaped kind store)
    {values : List (List Value)} (filled : values ≠ []) (counted : Report)
    (counts : counted = { report with rows_read := report.rows_read + values.length }) :
    ∃ after, appendChunk kind limit store counted
        { schema := columnsOf kind schema, batches := [values] } = .ok after ∧
      (Fits kind schema store → Stepped kind schema (store, report) values values.length after) ∧
      (¬ Fits kind schema store → Stepped kind schema (store, report) [] values.length after) := by
  have rows : (({ schema := columnsOf kind schema, batches := [values] } : Input)).rows = values := by
    simp [Input.rows]
  have accepts : Accepts kind store { schema := columnsOf kind schema, batches := [values] } ↔
      Fits kind schema store := by
    rw [Accepts, rows]
    exact and_iff_right filled
  have decides := pythonAppend_decides { schema := columnsOf kind schema, batches := [values] }
    (fun _ _ => columnsOf_distinct distinct kind) shaped
  rw [appendChunk, rows, if_neg filled]
  by_cases fits : Fits kind schema store
  · obtain ⟨shapedAfter, fitsAfter⟩ := push_fits distinct shaped fits values
    rw [decides.accepted (accepts.mpr fits), rows]
    refine ⟨_, rfl, fun _ => ?_, fun refused => absurd fits refused⟩
    exact
      { contents := by simp [contents_push]
        read := by rw [counts]
        written := by rw [counts]
        quarantined := by rw [counts]
        shaped := shapedAfter
        fits := iff_of_true fitsAfter fits }
  · obtain ⟨message, refused⟩ := decides.refused fun accepted => fits (accepts.mp accepted)
    rw [refused]
    refine ⟨_, rfl, fun held => absurd held fits, fun _ => ?_⟩
    exact
      { contents := by simp
        read := by simp [quarantine, counts]
        written := by simp [quarantine, counts]
        quarantined := by simp [quarantine, counts]
        shaped := shaped
        fits := Iff.rfl }

/-- A chunk adds its rows when every one of them converts and none of them otherwise. -/
theorem loadChunk_steps (distinct : schema.names.Nodup) (shaped : FirstShaped kind store)
    {rows : List (List Value)} (filled : rows ≠ []) {after : StoreFiles × Report}
    (done : loadChunk cast kind schema limit (store, report) rows = .ok after) :
    ((∀ row ∈ rows, Converts cast kind schema store row) →
        Stepped kind schema (store, report) (rows.map (valuesOf cast kind schema)) rows.length after) ∧
      (¬ (∀ row ∈ rows, Converts cast kind schema store row) →
        Stepped kind schema (store, report) [] rows.length after) := by
  have converting (casts : ∀ row ∈ rows, RowCasts cast kind schema row) :
      (∀ row ∈ rows, Converts cast kind schema store row) ↔ Fits kind schema store := by
    obtain ⟨row, member⟩ := List.exists_mem_of_ne_nil rows filled
    constructor
    · intro every
      exact (every row member).1
    · intro fits other inside
      exact ⟨fits, casts other inside⟩
  have appended (casts : ∀ row ∈ rows, RowCasts cast kind schema row)
      (result : appendChunk kind limit store { report with rows_read := report.rows_read + rows.length }
        { schema := columnsOf kind schema, batches := [rows.map (valuesOf cast kind schema)] } =
          .ok after) :
      ((∀ row ∈ rows, Converts cast kind schema store row) →
          Stepped kind schema (store, report) (rows.map (valuesOf cast kind schema)) rows.length after) ∧
        (¬ (∀ row ∈ rows, Converts cast kind schema store row) →
          Stepped kind schema (store, report) [] rows.length after) := by
    have size : (rows.map (valuesOf cast kind schema)).length = rows.length := List.length_map _
    obtain ⟨expected, appends, taken, refused⟩ := appendChunk_steps limit report
      distinct shaped (fun nothing => filled (List.map_eq_nil_iff.mp nothing))
      { report with rows_read := report.rows_read + rows.length } (by rw [size])
    rw [result] at appends
    cases appends
    rw [size] at taken refused
    rw [converting casts]
    exact ⟨taken, refused⟩
  cases kind with
  | nodes => exact appended (fun _ _ => trivial) done
  | edges =>
    simp only [loadChunk, loadEdges] at done
    split at done
    · cases done
    · split at done
      · next castable =>
        have casts (row : List Value) (member : row ∈ rows) : RowCasts cast .edges schema row :=
          castable _ (List.mem_map_of_mem member)
        apply appended casts
        rw [List.map_map] at done
        exact done
      · next uncast =>
        have mixed : ¬ ∀ row ∈ rows, Converts cast .edges schema store row := by
          intro every
          apply uncast
          intro values member
          obtain ⟨row, inside, rfl⟩ := List.mem_map.mp member
          exact (every row inside).2
        cases done
        refine ⟨fun every => absurd every mixed, fun _ => ?_⟩
        exact
          { contents := by simp
            read := by simp [quarantine]
            written := by simp [quarantine]
            quarantined := by simp [quarantine]
            shaped := shaped
            fits := Iff.rfl }

end Chunk

/-! ## A whole load -/

open Classical

/-- What is written is the rows of the chunks in which every row converts. -/
theorem loadChunks_kept {kind : Kind} {schema : Schema} {limit : Nat} (distinct : schema.names.Nodup)
    {chunks : List (List (List Value))} (filled : ∀ rows ∈ chunks, rows ≠ [])
    {before after : StoreFiles × Report} (shaped : FirstShaped kind before.1)
    (done : chunks.foldlM (loadChunk cast kind schema limit) before = .ok after) :
    Stepped kind schema before
      ((kept (Converts cast kind schema before.1) chunks).map (valuesOf cast kind schema))
      chunks.flatten.length after := by
  induction chunks generalizing before with
  | nil =>
    cases done
    exact
      { contents := by simp [kept]
        read := rfl
        written := by simp [kept]
        quarantined := by simp [kept]
        shaped := shaped
        fits := Iff.rfl }
  | cons rows chunks inductionHypothesis =>
    rw [List.foldlM_cons] at done
    obtain ⟨middle, first, rest⟩ := except_bind_ok done
    obtain ⟨whole, dropped⟩ := loadChunk_steps cast distinct shaped
      (filled rows List.mem_cons_self) first
    have step : Stepped kind schema before
        ((if ∀ row ∈ rows, Converts cast kind schema before.1 row then rows else []).map
          (valuesOf cast kind schema)) rows.length middle := by
      split
      · next every => exact whole every
      · next mixed => exact dropped mixed
    have same : Converts cast kind schema middle.1 = Converts cast kind schema before.1 := by
      funext row
      exact propext (and_congr_left fun _ => step.fits)
    have later := inductionHypothesis (fun other member => filled other (List.mem_cons_of_mem _ member))
      step.shaped rest
    rw [same] at later
    rw [kept_cons, List.map_append, List.flatten_cons, List.length_append]
    exact
      { contents := by rw [later.contents, step.contents, List.append_assoc]
        read := by rw [later.read, step.read, Nat.add_assoc]
        written := by rw [later.written, step.written, List.length_append, Nat.add_assoc]
        quarantined := by
          have sooner := step.quarantined
          have rest := later.quarantined
          rw [List.length_append]
          omega
        shaped := later.shaped
        fits := later.fits.trans step.fits }

/-- The rows that convert are written in order, the others are put aside, and the report counts
them. -/
structure Loaded (kind : Kind) (schema : Schema) (before : StoreFiles) (rows : List (List Value))
    (after : StoreFiles) (report : Report) : Prop where
  written : contents after = contents before ++
    (rows.filter fun row => decide (Converts cast kind schema before row)).map
      (valuesOf cast kind schema)
  read : report.rows_read = rows.length
  balanced : report.rows_read = report.rows_written + report.rows_quarantined
  grown : (contents after).length = (contents before).length + report.rows_written
  aside : report.rows_quarantined =
    (rows.filter fun row => decide (¬ Converts cast kind schema before row)).length

/-- No row that converts is in a chunk with one that does not. -/
def Sorted (kind : Kind) (request : Request) (schema : Schema) (store : StoreFiles)
    (rows : List (List Value)) : Prop :=
  ∀ chunk ∈ iterBatches request.chunksize rows,
    (∀ row ∈ chunk, Converts cast kind schema store row) ∨
      ∀ row ∈ chunk, ¬ Converts cast kind schema store row

theorem sorted_nodes (request : Request) (schema : Schema) (store : StoreFiles)
    (rows : List (List Value)) : Sorted cast .nodes request schema store rows := by
  intro chunk _
  by_cases fits : Fits .nodes schema store
  · left
    intro row _
    exact ⟨fits, trivial⟩
  · right
    intro row _ converts
    exact fits converts.1

theorem length_aside (good : List Value → Prop) (rows : List (List Value)) :
    (rows.filter fun row => decide (good row)).length +
      (rows.filter fun row => decide (¬ good row)).length = rows.length := by
  induction rows with
  | nil => rfl
  | cons row rows inductionHypothesis =>
    by_cases held : good row
    · rw [List.filter_cons_of_pos (by simpa using held), List.filter_cons_of_neg (by simpa using held),
        List.length_cons, List.length_cons]
      omega
    · rw [List.filter_cons_of_neg (by simpa using held), List.filter_cons_of_pos (by simpa using held),
        List.length_cons, List.length_cons]
      omega

/-- The safe cast of signed numbers. -/
def signedCast : Cast
  | .int64, .int number => if 0 ≤ number then some (.int number) else none
  | _, _ => none

def endpoints : Schema :=
  [{ name := SRC_COLUMN, type := .int64, nullable := true },
    { name := DST_COLUMN, type := .int64, nullable := true }]

end CaracalDB.Parquet
