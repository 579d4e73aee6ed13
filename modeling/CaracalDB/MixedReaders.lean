import CaracalDB.MixedSchemas

/-!
# Reading stores of two writers

The two engines accept and refuse the same batches as long as the names of a batch
are distinct and its non-nullable columns have no nulls. What they have accepted is
readable by both as long as every chunk gets the schema of the first one, its
nullability included.
-/

namespace CaracalDB.Mixed

/-! ## What is accepted -/

/-- The code of an append that is refused. -/
def Kind.code : Kind → String
  | .nodes => "CDB-7011"
  | .edges => "CDB-7021"

/-- Edges bring two node ids. -/
def Endpoints (kind : Kind) (schema : Schema) : Prop :=
  kind = .edges → ∀ name ∈ REQUIRED_EDGE_COLUMNS, (name, DataType.uint64) ∈ keys schema

/-- What both engines demand of an append. -/
def Accepts (kind : Kind) (store : StoreFiles) (input : Input) : Prop :=
  input.rows ≠ [] ∧ ¬ Reserved kind input.schema.names ∧ Endpoints kind input.schema ∧
    ∀ chunk ∈ store.chunks.head?, keys chunk.schema = keys (pythonSchema kind input.schema)

theorem Kind.appendError_code (kind : Kind) (text : String) :
    ∃ message, kind.appendError text = .caracal { code := kind.code, message } := by
  cases kind <;> exact ⟨text, rfl⟩

theorem Kind.reservedError_code (kind : Kind) (names : List String) :
    ∃ message, kind.reservedError names = .caracal { code := kind.code, message } := by
  cases kind with
  | nodes =>
    rw [Kind.reservedError, NodeStore.reservedError]
    split_ifs <;> exact ⟨_, rfl⟩
  | edges =>
    rw [Kind.reservedError, EdgeStore.reservedError]
    split_ifs <;> exact ⟨_, rfl⟩

/-- The first pair of columns of different types decides. -/
theorem types_decide {code : String} {left right : Schema} (names : left.names = right.names)
    {drift : SchemaField → SchemaField → Raised}
    (raises : ∀ field other, ∃ message, drift field other = .caracal { code, message }) :
    Decides code (match (left.zip right).find? differ with
      | none => .ok ()
      | some pair => .error (drift pair.1 pair.2)) (keys left = keys right) () := by
  cases search : (left.zip right).find? differ with
  | none => exact (Decides.pass ()).of_iff (iff_of_true trivial ((differ_none_iff names).mp search))
  | some pair =>
    obtain ⟨message, raised⟩ := raises pair.1 pair.2
    constructor
    · intro same
      rw [(differ_none_iff names).mpr same] at search
      cases search
    · intro _
      exact ⟨message, congrArg Except.error raised⟩

/-- Comparing types under the names of the fields of two schemas. -/
theorem compareTypes_decides {code : String} {expected actual left right : Schema}
    (names : left.names = right.names) {drift : SchemaField → SchemaField → Raised}
    (raises : ∀ field other, ∃ message, drift field other = .caracal { code, message })
    (found : ∀ field ∈ left, expected.field field.name = .ok field)
    (foundToo : ∀ field ∈ right, actual.field field.name = .ok field) :
    Decides code (compareTypes expected actual drift left.names) (keys left = keys right) () := by
  have pairs : ∀ pair ∈ left.zip right, expected.field pair.1.name = .ok pair.1 ∧
      actual.field pair.1.name = .ok pair.2 := by
    intro pair member
    obtain ⟨first, second⟩ := List.of_mem_zip member
    exact ⟨found _ first, zip_name names member ▸ foundToo _ second⟩
  rw [← zip_names names, compareTypes_pairs drift _ pairs]
  exact types_decide names raises

theorem names_and_keys {left right : Schema} :
    (¬ left.names ≠ right.names) ∧ keys left = keys right ↔ keys left = keys right :=
  ⟨fun same => same.2, fun same => ⟨not_not.mpr (names_of_keys same), same⟩⟩

section Compare

variable {kind : Kind} {schema inner : Schema} {input : Input}

theorem ensureCompatible_decides (shaped : Shaped .nodes schema inner) {other outer : Schema}
    (shapedOther : Shaped .nodes other outer) :
    Decides (Kind.code .nodes) (ensureCompatible schema other) (keys schema = keys other) () := by
  obtain ⟨id, shown, isId, type, among⟩ := shaped.publicFields
  obtain ⟨id', shownToo, isIdToo, typeToo, amongToo⟩ := shapedOther.publicFields
  rw [ensureCompatible, publicNames_eq, publicNames_eq, shown, shownToo]
  have decided : keys (id :: inner) = keys (id' :: outer) ↔ keys schema = keys other := by
    rw [shaped.keys_iff shapedOther, keys, keys, List.map_cons, List.map_cons, isId, type, isIdToo,
      typeToo, List.cons_eq_cons]
    exact ⟨fun same => same.2, fun same => ⟨rfl, same⟩⟩
  refine ((Decides.refuse (Kind.appendError_code .nodes _)).andThen fun same => ?_).of_iff
    (names_and_keys.trans decided)
  exact compareTypes_decides (not_not.mp same) (fun _ _ => Kind.appendError_code .nodes _)
    (fun field member => field_of_mem shaped.names_distinct (among field member))
    (fun field member => field_of_mem shapedOther.names_distinct (amongToo field member))

theorem establishedSchema_eq (shaped : Shaped .edges schema inner) {store : StoreFiles}
    {chunk : Chunk} (first : store.chunks.head? = some chunk) (stored : chunk.schema = schema) :
    establishedSchema store = .ok (some (schemaWithoutField schema EID_COLUMN)) := by
  have names : (schema.names.filter fun name => name ≠ EID_COLUMN) =
      (schemaWithoutField schema EID_COLUMN).names := by
    rw [Schema.names, Schema.names, schemaWithoutField, List.filter_map]
    rfl
  rw [establishedSchema, first]
  show Except.map some ((chunk.schema.names.filter fun name => name ≠ EID_COLUMN).mapM
    chunk.schema.field) = _
  rw [stored, names, fields_of_names shaped.names_distinct (schemaWithoutField schema EID_COLUMN)
    fun field member => List.mem_of_mem_filter member]
  rfl

theorem compareEstablished_decides (shaped : Shaped .edges schema inner)
    (distinct : input.schema.names.Nodup) (unreserved : ¬ Reserved .edges input.schema.names) :
    Decides (Kind.code .edges)
      (compareEstablished (schemaWithoutField schema EID_COLUMN) input.schema)
      (keys inner = keys input.schema) () := by
  have without := shaped.without_id
  rw [Kind.id_column] at without
  rw [compareEstablished, publicNames_eq, publicNames_eq, without,
    publicFields_of_unreserved unreserved]
  have distinctToo : (schemaWithoutField schema EID_COLUMN).names.Nodup :=
    shaped.names_distinct.sublist (List.Sublist.map _ List.filter_sublist)
  refine ((Decides.refuse (Kind.appendError_code .edges _)).andThen fun same => ?_).of_iff
    names_and_keys
  rw [← not_not.mp same]
  refine compareTypes_decides (not_not.mp same) (fun _ _ => Kind.appendError_code .edges _) ?_ ?_
  · intro field member
    rw [← without] at member
    exact field_of_mem distinctToo (List.mem_of_mem_filter member)
  · exact fun field member => field_of_mem distinct member

theorem differ_pair : (fun pair : SchemaField × SchemaField => match pair with
    | (left, right) => decide (left.type ≠ right.type)) = differ := rfl

theorem ensurePublicSchemaCompatible_decides (shaped : Shaped kind schema inner)
    (unreserved : ¬ Reserved kind input.schema.names) :
    Decides kind.code (ensurePublicSchemaCompatible kind (schemaWithoutField schema kind.id_column)
      input.schema) (keys inner = keys input.schema) () := by
  rw [ensurePublicSchemaCompatible, shaped.without_id, publicFields_of_unreserved unreserved]
  refine ((Decides.refuse (Kind.appendError_code kind _)).andThen fun same => ?_).of_iff
    names_and_keys
  rw [differ_pair]
  have decides := types_decide (not_not.mp same) fun left right => Kind.appendError_code kind
    (kind.label ++ " column " ++ debugText left.name ++ " type mismatch: " ++
      displayType left.type ++ " vs " ++ displayType right.type)
  cases search : (inner.zip input.schema).find? differ with
  | none =>
    rw [search] at decides
    exact decides
  | some pair =>
    rw [search] at decides
    exact decides

end Compare

section Append

variable {kind : Kind} {store : StoreFiles} {input : Input} {created_lsn : Nat}

/-- Every batch that goes into a chunk has distinct names. -/
def Distinct (kind : Kind) (input : Input) : Prop :=
  input.rows ≠ [] → ¬ Reserved kind input.schema.names → input.schema.names.Nodup

/-- The first chunk is one that an engine wrote. -/
def FirstShaped (kind : Kind) (store : StoreFiles) : Prop :=
  ∀ chunk ∈ store.chunks.head?, ∃ inner, Shaped kind chunk.schema inner

/-- The condition on the first chunk, in terms of the columns that its caller brought. -/
theorem first_alike (chunk : Chunk) {inner : Schema} (shaped : Shaped kind chunk.schema inner)
    (distinct : input.schema.names.Nodup) (unreserved : ¬ Reserved kind input.schema.names) :
    keys chunk.schema = keys (pythonSchema kind input.schema) ↔ keys inner = keys input.schema := by
  have same := shaped.keys_iff (Engine.python.shaped distinct unreserved)
  rw [Engine.keys_inner] at same
  exact same

theorem pythonAppendNodes_decides (distinct : Distinct .nodes input)
    (shaped : FirstShaped .nodes store) :
    Decides (Kind.code .nodes) (pythonAppendNodes store input created_lsn)
      (Accepts .nodes store input)
      (store.push (pythonSchema .nodes input.schema) [input.rows] created_lsn) := by
  have noEndpoints : Endpoints .nodes input.schema := fun impossible => nomatch impossible
  cases first : store.chunks.head? with
  | none =>
    rw [pythonAppendNodes, first]
    show Decides _ (refuse _ _ >>= fun _ => refuse _ _ >>= fun _ => .ok _) _ _
    refine ((Decides.refuse (Kind.appendError_code .nodes _)).andThen fun _ =>
      (Decides.refuse (Kind.reservedError_code .nodes _)).andThen fun _ => (by exact Decides.pass _)).of_iff ?_
    rw [Accepts, first]
    exact ⟨fun ⟨rows, unreserved, _⟩ => ⟨rows, unreserved, noEndpoints, fun _ none => nomatch none⟩,
      fun ⟨rows, unreserved, _⟩ => ⟨rows, unreserved, trivial⟩⟩
  | some chunk =>
    obtain ⟨inner, shapedChunk⟩ := shaped chunk first
    rw [pythonAppendNodes, first]
    show Decides _ (refuse _ _ >>= fun _ => refuse _ _ >>= fun _ =>
      ensureCompatible chunk.schema _ >>= fun _ => .ok _) _ _
    refine ((Decides.refuse (Kind.appendError_code .nodes _)).andThen fun rows =>
      (Decides.refuse (Kind.reservedError_code .nodes _)).andThen fun unreserved =>
        (ensureCompatible_decides shapedChunk (Engine.python.shaped (distinct rows unreserved)
          unreserved)).andThen fun _ => (by exact Decides.pass _)).of_iff ?_
    rw [Accepts, first]
    constructor
    · rintro ⟨rows, unreserved, same, _⟩
      exact ⟨rows, unreserved, noEndpoints, fun _ isFirst => Option.some.inj isFirst ▸ same⟩
    · rintro ⟨rows, unreserved, _, same⟩
      exact ⟨rows, unreserved, same chunk rfl, trivial⟩

/-! ## Endpoints of edges -/

/-- A column of a schema with distinct names has the only type that its name has. -/
theorem key_iff_type {schema : Schema} (distinct : schema.names.Nodup) {field : SchemaField}
    (member : field ∈ schema) (type : DataType) :
    (field.name, type) ∈ keys schema ↔ field.type = type := by
  constructor
  · intro key
    obtain ⟨other, among, same⟩ := List.mem_map.mp key
    obtain ⟨name, otherType⟩ := Prod.mk.inj same
    have lookup := field_of_mem distinct among
    rw [name, field_of_mem distinct member] at lookup
    cases lookup
    exact otherType
  · rintro rfl
    exact List.mem_map_of_mem (f := fun field => (field.name, field.type)) member

theorem name_of_key {schema : Schema} {name : String} {type : DataType}
    (key : (name, type) ∈ keys schema) : name ∈ schema.names := by
  obtain ⟨field, among, same⟩ := List.mem_map.mp key
  exact (Prod.mk.inj same).1 ▸ List.mem_map_of_mem among

/-- The endpoint columns are there, with the type of node ids. -/
def HasEndpoints (schema : Schema) : Prop :=
  (SRC_COLUMN, DataType.uint64) ∈ keys schema ∧ (DST_COLUMN, DataType.uint64) ∈ keys schema

theorem endpoints_iff (schema : Schema) : Endpoints .edges schema ↔ HasEndpoints schema := by
  rw [Endpoints, HasEndpoints, REQUIRED_EDGE_COLUMNS]
  simp only [forall_const, List.mem_cons, List.not_mem_nil, or_false, forall_eq_or_imp, forall_eq]

/-- The checks of `_validate_batch` on the endpoint columns, before what follows them. -/
theorem pythonEndpoints_decide {schema : Schema} (distinct : schema.names.Nodup) {Answer : Type}
    {next : Except Raised Answer} {furtherAccepts : Prop} {answer : Answer}
    (decidesNext : Decides (Kind.code .edges) next furtherAccepts answer) :
    Decides (Kind.code .edges)
      (do
        match REQUIRED_EDGE_COLUMNS.find? fun required => required ∉ schema.names with
        | some required => .error (EdgeStore.appendError
            ("edge batch is missing required column " ++ Value.quoted required))
        | none => .ok ()
        let src ← schema.field SRC_COLUMN
        let dst ← schema.field DST_COLUMN
        refuse (src.type ≠ .uint64 ∨ dst.type ≠ .uint64)
          (EdgeStore.appendError "edge 'src' and 'dst' must be UInt64 (nid) columns")
        next)
      (HasEndpoints schema ∧ furtherAccepts) answer := by
  cases search : REQUIRED_EDGE_COLUMNS.find? fun required => required ∉ schema.names with
  | some required =>
    have absent : required ∉ schema.names := by
      simpa using List.find?_some search
    have among : required = SRC_COLUMN ∨ required = DST_COLUMN := by
      simpa [REQUIRED_EDGE_COLUMNS] using List.mem_of_find?_eq_some search
    constructor
    · rintro ⟨⟨src, dst⟩, _⟩
      rcases among with rfl | rfl
      · exact absurd (name_of_key src) absent
      · exact absurd (name_of_key dst) absent
    · exact fun _ => ⟨_, rfl⟩
  | none =>
    have present : ∀ required ∈ REQUIRED_EDGE_COLUMNS, required ∈ schema.names := by
      simpa using List.find?_eq_none.mp search
    obtain ⟨src, srcAmong, srcName⟩ := List.mem_map.mp (present SRC_COLUMN (by decide))
    obtain ⟨dst, dstAmong, dstName⟩ := List.mem_map.mp (present DST_COLUMN (by decide))
    have types : HasEndpoints schema ↔ ¬ (src.type ≠ .uint64 ∨ dst.type ≠ .uint64) := by
      rw [HasEndpoints, ← srcName, ← dstName, key_iff_type distinct srcAmong,
        key_iff_type distinct dstAmong, not_or, not_not, not_not]
    show Decides _ (schema.field SRC_COLUMN >>= fun src => schema.field DST_COLUMN >>= fun dst =>
      refuse (src.type ≠ .uint64 ∨ dst.type ≠ .uint64) _ >>= fun _ => next) _ _
    rw [← srcName, ← dstName, field_of_mem distinct srcAmong, field_of_mem distinct dstAmong, ok_bind,
      ok_bind]
    exact (((Decides.refuse ⟨_, rfl⟩).of_iff types.symm).andThen fun _ => decidesNext)

theorem validateEndpoint_decides {schema : Schema} (distinct : schema.names.Nodup) (name : String) :
    Decides (Kind.code .edges) (validateEndpoint schema name)
      ((name, DataType.uint64) ∈ keys schema) () := by
  cases search : fieldWithName schema name with
  | none =>
    have absent : name ∉ schema.names := by
      intro present
      obtain ⟨field, among, rfl⟩ := List.mem_map.mp present
      have differs := List.find?_eq_none.mp search field among
      exact differs (decide_eq_true rfl)
    rw [validateEndpoint, search]
    exact ⟨fun key => absurd (name_of_key key) absent, fun _ => ⟨_, rfl⟩⟩
  | some field =>
    have among := List.mem_of_find?_eq_some search
    have named : field.name = name := by simpa using List.find?_some search
    rw [validateEndpoint, search]
    refine (Decides.refuse ⟨_, rfl⟩).of_iff ?_
    rw [← named, key_iff_type distinct among, not_not]

theorem pythonAppendEdges_decides (distinct : Distinct .edges input)
    (shaped : FirstShaped .edges store) :
    Decides (Kind.code .edges) (pythonAppendEdges store input created_lsn)
      (Accepts .edges store input)
      (store.push (pythonSchema .edges input.schema) [input.rows] created_lsn) := by
  cases first : store.chunks.head? with
  | none =>
    have established : establishedSchema store = .ok none := by
      rw [establishedSchema, first]
    rw [pythonAppendEdges, established, ok_bind, validateBatch]
    refine (((Decides.refuse (Kind.appendError_code .edges _)).andThen fun rows =>
      (Decides.refuse (Kind.reservedError_code .edges _)).andThen fun unreserved =>
        pythonEndpoints_decide (distinct rows unreserved) (Decides.pass ())).andThen fun _ =>
          (by exact Decides.pass _)).of_iff ?_
    rw [Accepts, first, endpoints_iff]
    constructor
    · rintro ⟨⟨rows, unreserved, endpoints, _⟩, _⟩
      exact ⟨rows, unreserved, endpoints, fun _ none => by cases none⟩
    · rintro ⟨rows, unreserved, endpoints, _⟩
      exact ⟨⟨rows, unreserved, endpoints, trivial⟩, trivial⟩
  | some chunk =>
    obtain ⟨inner, shapedChunk⟩ := shaped chunk first
    rw [pythonAppendEdges, establishedSchema_eq shapedChunk first rfl, ok_bind, validateBatch]
    refine (((Decides.refuse (Kind.appendError_code .edges _)).andThen fun rows =>
      (Decides.refuse (Kind.reservedError_code .edges _)).andThen fun unreserved =>
        pythonEndpoints_decide (distinct rows unreserved) (compareEstablished_decides shapedChunk
          (distinct rows unreserved) unreserved)).andThen fun _ => (by exact Decides.pass _)).of_iff ?_
    rw [Accepts, first, endpoints_iff]
    constructor
    · rintro ⟨⟨rows, unreserved, endpoints, same⟩, _⟩
      refine ⟨rows, unreserved, endpoints, fun _ isFirst => ?_⟩
      rw [← Option.some.inj isFirst]
      exact (first_alike chunk shapedChunk (distinct rows unreserved) unreserved).mpr same
    · rintro ⟨rows, unreserved, endpoints, same⟩
      exact ⟨⟨rows, unreserved, endpoints, (first_alike chunk shapedChunk (distinct rows unreserved)
        unreserved).mp (same chunk rfl)⟩, trivial⟩

/-! ## One decision -/

theorem rows_length_iff : ¬ input.rows.length = 0 ↔ input.rows ≠ [] := by
  rw [List.length_eq_zero_iff]

theorem validateInput_decides (kind : Kind) (distinct : Distinct kind input) :
    Decides kind.code (validateInput kind input)
      (input.rows ≠ [] ∧ ¬ Reserved kind input.schema.names ∧ Endpoints kind input.schema) () := by
  cases kind with
  | nodes =>
    have noEndpoints : Endpoints .nodes input.schema := fun impossible => nomatch impossible
    refine ((Decides.refuse (Kind.appendError_code .nodes _)).andThen fun _ =>
      Decides.refuse (Kind.reservedError_code .nodes _)).of_iff ?_
    rw [rows_length_iff]
    exact ⟨fun ⟨rows, unreserved⟩ => ⟨rows, unreserved, noEndpoints⟩,
      fun ⟨rows, unreserved, _⟩ => ⟨rows, unreserved⟩⟩
  | edges =>
    refine ((Decides.refuse (Kind.appendError_code .edges _)).andThen fun rows =>
      (Decides.refuse (Kind.reservedError_code .edges _)).andThen fun unreserved =>
        (validateEndpoint_decides (distinct (rows_length_iff.mp rows) unreserved) _).andThen fun _ =>
          validateEndpoint_decides (distinct (rows_length_iff.mp rows) unreserved) _).of_iff ?_
    rw [rows_length_iff, endpoints_iff, HasEndpoints]

/-- No null stands in a column that does not allow it. -/
def NoNullViolation (input : Input) : Prop :=
  ∀ row ∈ input.rows, nullViolation input.schema row = none

theorem readIpcBatches_ok (clean : NoNullViolation input) : readIpcBatches input = .ok () := by
  have none : input.rows.findSome? (nullViolation input.schema) = none :=
    List.findSome?_eq_none_iff.mpr clean
  rw [readIpcBatches, none]

theorem rustAppend_decides (distinct : Distinct kind input) (clean : NoNullViolation input)
    (shaped : FirstShaped kind store) :
    Decides kind.code (rustAppend kind store input created_lsn) (Accepts kind store input)
      (store.push (rustSchema kind input.schema) input.batches created_lsn) := by
  cases first : store.chunks.head? with
  | none =>
    rw [rustAppend, first, readIpcBatches_ok clean, ok_bind]
    refine ((validateInput_decides kind distinct).andThen fun _ =>
      (by exact Decides.pass _)).of_iff ?_
    rw [Accepts, first]
    constructor
    · rintro ⟨⟨rows, unreserved, endpoints⟩, _⟩
      exact ⟨rows, unreserved, endpoints, fun _ none => nomatch none⟩
    · rintro ⟨rows, unreserved, endpoints, _⟩
      exact ⟨⟨rows, unreserved, endpoints⟩, trivial⟩
  | some chunk =>
    obtain ⟨inner, shapedChunk⟩ := shaped chunk first
    rw [rustAppend, first, readIpcBatches_ok clean, ok_bind]
    refine ((validateInput_decides kind distinct).andThen fun valid =>
      (ensurePublicSchemaCompatible_decides shapedChunk valid.2.1).andThen fun _ =>
        (by exact Decides.pass _)).of_iff ?_
    rw [Accepts, first]
    constructor
    · rintro ⟨⟨rows, unreserved, endpoints⟩, same, _⟩
      refine ⟨rows, unreserved, endpoints, fun _ isFirst => ?_⟩
      rw [← Option.some.inj isFirst]
      exact (first_alike chunk shapedChunk (distinct rows unreserved) unreserved).mpr same
    · rintro ⟨rows, unreserved, endpoints, same⟩
      exact ⟨⟨rows, unreserved, endpoints⟩, (first_alike chunk shapedChunk (distinct rows unreserved)
        unreserved).mp (same chunk rfl), trivial⟩

/-- Both engines decide by the same condition. -/
theorem Engine.append_decides (engine : Engine) (distinct : Distinct kind input)
    (clean : NoNullViolation input) (shaped : FirstShaped kind store) :
    Decides kind.code (engine.append kind store input created_lsn) (Accepts kind store input)
      (store.push (engine.schema kind input.schema) (engine.batches input) created_lsn) := by
  cases engine with
  | python =>
    cases kind with
    | nodes => exact pythonAppendNodes_decides distinct shaped
    | edges => exact pythonAppendEdges_decides distinct shaped
  | rust => exact rustAppend_decides distinct clean shaped

end Append

/-! ## Runs of appends -/

/-- A store with the appends that were accepted, in order. -/
structure History where
  store : StoreFiles
  accepted : List (Engine × Input)

/-- One append. -/
structure Operation where
  engine : Engine
  input : Input
  created_lsn : Nat

/-- A store without chunks. -/
def History.new : History := { store := { next_id := 0, chunks := [] }, accepted := [] }

/-- An append that is refused changes nothing. -/
def History.step (kind : Kind) (history : History) (operation : Operation) : History :=
  match operation.engine.append kind history.store operation.input operation.created_lsn with
  | .error _ => history
  | .ok store =>
      { store, accepted := history.accepted ++ [(operation.engine, operation.input)] }

def History.run (kind : Kind) (history : History) (operations : List Operation) : History :=
  operations.foldl (History.step kind) history

/-- All rows that were accepted, in order. -/
def History.rows (history : History) : List (List Value) :=
  history.accepted.flatMap fun entry => entry.2.rows

/-- Rows under the ids that they were given. -/
def numbered (rows : List (List Value)) : List (Nat × List Value) :=
  rows.zipIdx.map fun entry => (entry.2, entry.1)

/-- An append that the engines decide alike and that leaves the schemas of the chunks equal: the
names are distinct, no null stands where it must not, and columns of the names and types of the
first append come through its engine, nullable where they were. -/
structure Allows (kind : Kind) (history : History) (operation : Operation) : Prop where
  distinct : Distinct kind operation.input
  clean : NoNullViolation operation.input
  first : ∀ engine original, history.accepted.head? = some (engine, original) →
    keys original.schema = keys operation.input.schema → operation.engine = engine ∧
      (engine = .rust → original.schema.map SchemaField.nullable =
        operation.input.schema.map SchemaField.nullable)

/-- Every operation is allowed where it comes. -/
def AllAllowed (kind : Kind) (history : History) : List Operation → Prop
  | [] => True
  | operation :: operations =>
      Allows kind history operation ∧ AllAllowed kind (history.step kind operation) operations

/-- The chunks hold the accepted rows under their ids and have one schema. -/
structure Sound (kind : Kind) (history : History) : Prop where
  next_id : history.store.next_id = history.rows.length
  rows : (history.store.chunks.flatMap fun chunk => chunk.batches.flatten.map ChunkRow.public) =
    numbered history.rows
  chunks : history.store.chunks.length = history.accepted.length
  first : ∀ engine original, history.accepted.head? = some (engine, original) →
    original.schema.names.Nodup ∧ ¬ Reserved kind original.schema.names ∧
      ∀ chunk ∈ history.store.chunks, chunk.schema = engine.schema kind original.schema

/-- Whether an append was accepted, and the code of the error otherwise. -/
def verdict (result : Except Raised StoreFiles) : Except (Option String) Unit :=
  (result.map fun _ => ()).mapError Raised.code

/-- The engines give the same verdict on a batch. -/
def Alike (kind : Kind) (store : StoreFiles) (input : Input) (created_lsn : Nat) : Prop :=
  verdict (pythonAppend kind store input created_lsn) =
    verdict (rustAppend kind store input created_lsn)

/-- Both engines read all accepted rows in order, under the ids they were given. -/
structure Readable (history : History) : Prop where
  to_table : pythonToTable history.store = .ok (numbered history.rows)
  scan : ∃ batches, pythonScan history.store = .ok batches ∧
    (batches.flatMap fun batch => batch.2.map ChunkRow.public) = numbered history.rows
  summary : ∃ summary, rustScan history.store = .ok summary ∧
    summary.chunk_count = history.accepted.length ∧ summary.row_count = history.rows.length

section Sound

variable {kind : Kind} {history : History}

theorem Sound.empty (sound : Sound kind history) :
    history.store.chunks = [] ↔ history.accepted = [] := by
  rw [← List.length_eq_zero_iff, sound.chunks, List.length_eq_zero_iff]

theorem Sound.firstShaped (sound : Sound kind history) : FirstShaped kind history.store := by
  intro chunk isFirst
  have member := List.mem_of_mem_head? isFirst
  have some_accepted : history.accepted ≠ [] := by
    intro none
    rw [sound.empty.mpr none] at member
    cases member
  cases head : history.accepted.head? with
  | none => exact absurd (List.head?_eq_none_iff.mp head) some_accepted
  | some entry =>
    obtain ⟨distinct, unreserved, schemas⟩ := sound.first entry.1 entry.2 head
    rw [schemas chunk member]
    exact ⟨_, entry.1.shaped distinct unreserved⟩

/-- Both engines come to the verdict that the batch deserves. -/
theorem alike_of_sound (sound : Sound kind history) {operation : Operation}
    (allowed : Allows kind history operation) :
    Alike kind history.store operation.input operation.created_lsn := by
  have decides : ∀ engine : Engine, Decides kind.code
      (engine.append kind history.store operation.input operation.created_lsn)
      (Accepts kind history.store operation.input) _ := fun engine =>
    engine.append_decides allowed.distinct allowed.clean sound.firstShaped
  have python : Decides kind.code (pythonAppend kind history.store operation.input
    operation.created_lsn) _ _ := decides .python
  have rust : Decides kind.code (rustAppend kind history.store operation.input
    operation.created_lsn) _ _ := decides .rust
  by_cases accepts : Accepts kind history.store operation.input
  · rw [Alike, python.accepted accepts, rust.accepted accepts]
    rfl
  · obtain ⟨_, raised⟩ := python.refused accepts
    obtain ⟨_, raisedToo⟩ := rust.refused accepts
    rw [Alike, raised, raisedToo]
    rfl

/-! ## One append keeps the store sound -/

theorem sound_new (kind : Kind) : Sound kind .new :=
  ⟨rfl, rfl, rfl, fun _ _ none => nomatch none⟩

/-- The rows of numbered batches are the rows of the batches, numbered. -/
theorem flatten_numberBatches (created_lsn start : Nat) (batches : List (List (List Value))) :
    (numberBatches created_lsn start batches).flatten.map ChunkRow.public =
      (batches.flatten.zipIdx start).map fun entry => (entry.2, entry.1) := by
  induction batches generalizing start with
  | nil => rfl
  | cons batch batches inductionHypothesis =>
    rw [numberBatches, List.flatten_cons, List.map_append, inductionHypothesis, List.flatten_cons,
      List.zipIdx_append, List.map_append, List.map_map]
    rfl

theorem numbered_append (rows more : List (List Value)) :
    numbered (rows ++ more) = numbered rows ++
      (more.zipIdx rows.length).map fun entry => (entry.2, entry.1) := by
  rw [numbered, numbered, List.zipIdx_append, List.map_append, Nat.zero_add]

theorem Engine.batches_flatten (engine : Engine) (input : Input) :
    (engine.batches input).flatten = input.rows := by
  cases engine with
  | python => exact List.append_nil _
  | rust => rfl

/-- Columns of the same names and types that allow nulls alike are the same columns. -/
theorem schema_ext {left right : Schema} (same : keys left = keys right)
    (nullable : left.map SchemaField.nullable = right.map SchemaField.nullable) : left = right := by
  induction left generalizing right with
  | nil => exact (List.map_eq_nil_iff.mp same.symm).symm
  | cons field left inductionHypothesis =>
    cases right with
    | nil => cases same
    | cons other right =>
      obtain ⟨key, keysRest⟩ := List.cons_eq_cons.mp same
      obtain ⟨flag, flagsRest⟩ := List.cons_eq_cons.mp nullable
      obtain ⟨name, type⟩ := Prod.mk.inj key
      have first : field = other := by
        cases field
        cases other
        cases name
        cases type
        cases flag
        rfl
      rw [first, inductionHypothesis keysRest flagsRest]

/-- The schema of a Python chunk is made of names and types. -/
theorem pythonSchema_congr {left right : Schema} (same : keys left = keys right) :
    pythonSchema kind left = pythonSchema kind right := by
  have nullable : ∀ schema : Schema, (schema.map fun field => { field with nullable := true }) =
      (keys schema).map fun key => { name := key.1, type := key.2, nullable := true } := by
    intro schema
    rw [keys, List.map_map]
    rfl
  rw [pythonSchema, pythonSchema, nullable, nullable, same]

/-- An append that is accepted and allowed stores the schema of the first one. -/
theorem schema_kept (sound : Sound kind history) {operation : Operation}
    (allowed : Allows kind history operation)
    (accepts : Accepts kind history.store operation.input) {engine : Engine} {original : Input}
    (first : history.accepted.head? = some (engine, original)) :
    operation.engine.schema kind operation.input.schema = engine.schema kind original.schema := by
  obtain ⟨distinct, unreserved, schemas⟩ := sound.first engine original first
  have some_chunks : history.store.chunks ≠ [] := by
    intro none
    rw [sound.empty.mp none] at first
    cases first
  obtain ⟨chunk, chunks, stored⟩ := List.exists_cons_of_ne_nil some_chunks
  have isFirst : history.store.chunks.head? = some chunk := by rw [stored]; rfl
  have schema := schemas chunk (List.mem_of_mem_head? isFirst)
  have shaped : Shaped kind chunk.schema (engine.inner original.schema) :=
    schema ▸ engine.shaped distinct unreserved
  have alike := (first_alike chunk shaped (allowed.distinct accepts.1 accepts.2.1) accepts.2.1).mp
    (accepts.2.2.2 chunk isFirst)
  rw [engine.keys_inner] at alike
  obtain ⟨sameEngine, nullable⟩ := allowed.first engine original first alike
  rw [sameEngine]
  cases engine with
  | python => exact (pythonSchema_congr alike).symm
  | rust => rw [schema_ext alike (nullable rfl)]

theorem step_accepted {operation : Operation} {store : StoreFiles}
    (appended : operation.engine.append kind history.store operation.input operation.created_lsn =
      .ok store) :
    history.step kind operation =
      { store, accepted := history.accepted ++ [(operation.engine, operation.input)] } := by
  rw [History.step, appended]

theorem step_sound (sound : Sound kind history) {operation : Operation}
    (allowed : Allows kind history operation) : Sound kind (history.step kind operation) := by
  have decides : Decides kind.code
      (operation.engine.append kind history.store operation.input operation.created_lsn)
      (Accepts kind history.store operation.input) _ :=
    operation.engine.append_decides allowed.distinct allowed.clean sound.firstShaped
  by_cases accepts : Accepts kind history.store operation.input
  · rw [step_accepted (decides.accepted accepts)]
    have rows : ∀ store, History.rows { store, accepted := history.accepted ++
        [(operation.engine, operation.input)] } = history.rows ++ operation.input.rows := by
      intro store
      rw [History.rows, List.flatMap_append, List.flatMap_singleton]
      rfl
    refine ⟨?_, ?_, ?_, ?_⟩
    · rw [rows, List.length_append, ← sound.next_id, StoreFiles.push, Engine.batches_flatten]
    · rw [rows, numbered_append, ← sound.rows, StoreFiles.push, List.flatMap_append,
        List.flatMap_singleton, flatten_numberBatches, Engine.batches_flatten, sound.next_id]
    · rw [StoreFiles.push, List.length_append, List.length_append, sound.chunks]
      rfl
    · intro engine original first
      rw [StoreFiles.push]
      cases head : history.accepted.head? with
      | none =>
        have none_accepted := List.head?_eq_none_iff.mp head
        rw [none_accepted] at first
        cases first
        refine ⟨allowed.distinct accepts.1 accepts.2.1, accepts.2.1, fun chunk member => ?_⟩
        rw [sound.empty.mpr none_accepted] at member
        rw [List.mem_singleton.mp member]
      | some entry =>
        rw [List.head?_append_of_ne_nil _ (by rintro none; rw [none] at head; cases head), head] at first
        cases first
        obtain ⟨distinct, unreserved, schemas⟩ := sound.first engine original head
        refine ⟨distinct, unreserved, fun chunk member => ?_⟩
        rcases List.mem_append.mp member with old | new
        · exact schemas chunk old
        · rw [List.mem_singleton.mp new]
          exact schema_kept sound allowed accepts head
  · obtain ⟨message, raised⟩ := decides.refused accepts
    rw [History.step, raised]
    exact sound

/-! ## Reading a sound store -/

/-- The public columns of a chunk are found. -/
theorem publicNames_read {schema inner : Schema} (shaped : Shaped kind schema inner) :
    schema.publicNames.mapM schema.field = .ok (publicFields schema) := by
  rw [publicNames_eq]
  exact fields_of_names shaped.names_distinct _ fun field member => List.mem_of_mem_filter member

/-- A scan gives every batch with the public columns of its chunk. -/
theorem pythonScan_ok {store : StoreFiles}
    (shaped : ∀ chunk ∈ store.chunks, ∃ inner, Shaped kind chunk.schema inner) :
    pythonScan store = .ok (store.chunks.flatMap fun chunk =>
      chunk.batches.map fun rows => (publicFields chunk.schema, rows)) := by
  have each : ∀ item ∈ store.chunks.flatMap fun chunk => chunk.batches.map fun rows =>
      (chunk.schema, rows), (do
        return (← item.1.publicNames.mapM item.1.field, item.2) :
          Except Raised (Schema × List ChunkRow)) = .ok (publicFields item.1, item.2) := by
    intro item member
    obtain ⟨chunk, among, inside⟩ := List.mem_flatMap.mp member
    obtain ⟨rows, _, rfl⟩ := List.mem_map.mp inside
    obtain ⟨inner, shapedChunk⟩ := shaped chunk among
    rw [publicNames_read shapedChunk]
    rfl
  have scanned := mapM_of_ok (fun item : Schema × List ChunkRow => (publicFields item.1, item.2)) _
    each
  rw [List.map_flatMap] at scanned
  simp only [List.map_map] at scanned
  exact scanned

theorem Sound.shaped (sound : Sound kind history) :
    ∃ schema, (∀ chunk ∈ history.store.chunks, chunk.schema = schema) ∧
      ∀ chunk ∈ history.store.chunks, ∃ inner, Shaped kind chunk.schema inner := by
  cases head : history.accepted.head? with
  | none =>
    have no_chunks := sound.empty.mpr (List.head?_eq_none_iff.mp head)
    rw [no_chunks]
    exact ⟨[], ⟨fun _ impossible => absurd impossible List.not_mem_nil,
      fun _ impossible => absurd impossible List.not_mem_nil⟩⟩
  | some entry =>
    obtain ⟨distinct, unreserved, schemas⟩ := sound.first entry.1 entry.2 head
    refine ⟨_, schemas, fun chunk member => ?_⟩
    rw [schemas chunk member]
    exact ⟨_, entry.1.shaped distinct unreserved⟩

/-- The rows of all batches of a scan. -/
theorem scanned_rows (store : StoreFiles) :
    ((store.chunks.flatMap fun chunk => chunk.batches.map fun rows =>
      (publicFields chunk.schema, rows)).flatMap fun batch => batch.2.map ChunkRow.public) =
      store.chunks.flatMap fun chunk => chunk.batches.flatten.map ChunkRow.public := by
  rw [List.flatMap_assoc]
  apply List.flatMap_congr
  intro chunk _
  rw [List.flatMap_map, List.map_flatten, List.flatMap_def]

/-- One schema for all batches makes a table. -/
theorem toTable_of_scan {store : StoreFiles} {batches : List (Schema × List ChunkRow)}
    (scanned : pythonScan store = .ok batches) (schema : Schema)
    (same : ∀ batch ∈ batches, batch.1 = schema) :
    pythonToTable store = .ok (batches.flatMap fun batch => batch.2.map ChunkRow.public) := by
  have alike : batches.find? (fun batch => batches.head?.map Prod.fst ≠ some batch.1) = none := by
    rw [List.find?_eq_none]
    intro batch member
    obtain ⟨first, rest, rfl⟩ := List.exists_cons_of_ne_nil (List.ne_nil_of_mem member)
    rw [decide_eq_true_eq, not_not, List.head?_cons, Option.map_some,
      same first List.mem_cons_self, same batch member]
  rw [pythonToTable, scanned, ok_bind, alike]

/-- The rows of some chunks, as the summary counts them. -/
def countRows (chunks : List Chunk) : Nat :=
  (chunks.map fun chunk => (chunk.batches.map List.length).sum).sum

/-- The summary of chunks of one schema. -/
theorem scanStoreChunks_ok {names : List String} (chunks : List Chunk)
    (same : ∀ chunk ∈ chunks, chunk.schema.names = names) (summary : Summary)
    (before : summary.field_names = [] ∨ summary.field_names = names) :
    ∃ after, scanStoreChunks chunks summary = .ok after ∧
      after.chunk_count = summary.chunk_count + chunks.length ∧
        after.row_count = summary.row_count + countRows chunks := by
  induction chunks generalizing summary with
  | nil => exact ⟨summary, rfl, rfl, rfl⟩
  | cons chunk chunks inductionHypothesis =>
    have chunkNames := same chunk List.mem_cons_self
    have passes : ¬ (summary.field_names ≠ [] ∧ summary.field_names ≠ chunk.schema.names) := by
      rintro ⟨started, differs⟩
      rw [chunkNames] at differs
      rcases before with none | known
      · exact started none
      · exact differs known
    have next : (if summary.field_names = [] then chunk.schema.names else summary.field_names) = [] ∨
        (if summary.field_names = [] then chunk.schema.names else summary.field_names) = names := by
      rcases before with none | known
      · rw [if_pos none]
        exact .inr chunkNames
      · rw [known]
        split_ifs
        · exact .inr chunkNames
        · exact .inr rfl
    obtain ⟨after, done, chunkCount, rowCount⟩ := inductionHypothesis
      (fun other member => same other (List.mem_cons_of_mem _ member))
      { chunk_count := summary.chunk_count + 1
        batch_count := summary.batch_count + chunk.batches.length
        row_count := summary.row_count + (chunk.batches.map List.length).sum
        field_names := if summary.field_names = [] then chunk.schema.names
          else summary.field_names } next
    refine ⟨after, ?_, ?_, ?_⟩
    · rw [scanStoreChunks, refuse, if_neg passes, ok_bind, done]
    · rw [chunkCount, List.length_cons]
      exact Nat.add_right_comm _ _ _
    · rw [rowCount, countRows, countRows, List.map_cons, List.sum_cons]
      exact Nat.add_assoc _ _ _

/-- The counted rows are the rows there are. -/
theorem countRows_eq (chunks : List Chunk) :
    countRows chunks =
      (chunks.flatMap fun chunk => chunk.batches.flatten.map ChunkRow.public).length := by
  rw [countRows, List.length_flatMap]
  congr 1
  apply List.map_congr_left
  intro chunk _
  rw [List.length_map, List.length_flatten]

/-- A sound store is readable. -/
theorem readable_of_sound (sound : Sound kind history) : Readable history := by
  obtain ⟨schema, same, shaped⟩ := sound.shaped
  have scanned := pythonScan_ok shaped
  have rows := scanned_rows history.store
  rw [sound.rows] at rows
  refine ⟨?_, ⟨_, scanned, rows⟩, ?_⟩
  · rw [← rows]
    refine toTable_of_scan scanned (publicFields schema) fun batch member => ?_
    obtain ⟨chunk, among, inside⟩ := List.mem_flatMap.mp member
    obtain ⟨_, _, rfl⟩ := List.mem_map.mp inside
    rw [same chunk among]
  · obtain ⟨after, done, chunkCount, rowCount⟩ := scanStoreChunks_ok history.store.chunks
      (fun chunk member => congrArg Schema.names (same chunk member))
      { chunk_count := 0, batch_count := 0, row_count := 0, field_names := [] } (.inl rfl)
    refine ⟨after, done, ?_, ?_⟩
    · rw [chunkCount, sound.chunks, Nat.zero_add]
    · rw [rowCount, countRows_eq, sound.rows, Nat.zero_add, numbered, List.length_map,
        List.length_zipIdx]

end Sound

/-- What holds along a run: every batch gets the same verdict from both engines, and both read all
accepted rows after each append. -/
def StaysReadable (kind : Kind) (history : History) : List Operation → Prop
  | [] => Readable history
  | operation :: operations =>
      Readable history ∧ Alike kind history.store operation.input operation.created_lsn ∧
        StaysReadable kind (history.step kind operation) operations

theorem run_readable {kind : Kind} (operations : List Operation) {history : History}
    (sound : Sound kind history) (allowed : AllAllowed kind history operations) :
    StaysReadable kind history operations := by
  induction operations generalizing history with
  | nil => exact readable_of_sound sound
  | cons operation operations inductionHypothesis =>
    obtain ⟨allowedNow, allowedLater⟩ := allowed
    exact ⟨readable_of_sound sound, alike_of_sound sound allowedNow,
      inductionHypothesis (step_sound sound allowedNow) allowedLater⟩

/-- Stores stay readable by both engines, and both engines give the same verdict on every batch, in
every run whose appends keep the schema of the first one. -/
theorem mixed_stores_readable (kind : Kind) (operations : List Operation)
    (allowed : AllAllowed kind .new operations) : StaysReadable kind .new operations :=
  run_readable operations (sound_new kind) allowed

/-- A batch of one column with one row. -/
def nameBatch (name : String) : Input where
  schema := [{ name := "name", type := .string, nullable := true }]
  batches := [[[.str name]]]

/-- Two appends of one engine. -/
theorem two_appends_readable : StaysReadable .nodes .new
    [{ engine := .rust, input := nameBatch "Alice", created_lsn := 1 },
      { engine := .rust, input := nameBatch "Bob", created_lsn := 2 }] := by
  have clean : ∀ name, NoNullViolation (nameBatch name) := by
    intro name row member
    rw [List.mem_singleton.mp member]
    rfl
  have distinct : ∀ name, Distinct .nodes (nameBatch name) := fun _ _ _ => List.nodup_singleton _
  refine mixed_stores_readable _ _ ⟨⟨distinct _, clean _, fun _ _ none => nomatch none⟩,
    ⟨distinct _, clean _, ?_⟩, trivial⟩
  intro engine original first _
  cases first
  exact ⟨rfl, fun _ => rfl⟩

/-- A batch of each engine, one after the other, which Python reads no more. -/
theorem two_engines_unreadable : ¬ ∀ (kind : Kind) (operations : List Operation),
    StaysReadable kind .new operations := by
  intro claim
  have readable := (claim .nodes [{ engine := .python, input := nameBatch "Alice", created_lsn := 1 },
    { engine := .rust, input := nameBatch "Bob", created_lsn := 2 }]).2.2.2.2.to_table
  exact absurd readable (by decide)

end CaracalDB.Mixed
