import CaracalDB.Loops
import CaracalDB.MixedStores

/-!
# Schemas of two writers

The schema of a chunk is that of the batch between the id and two LSNs, whichever
engine wrote it. Names and types are what the engines compare; each does so in its
own way, and all come to the same decision.
-/

namespace CaracalDB.Mixed

inductive Engine where
  | python
  | rust
deriving DecidableEq

/-- The schema of a chunk that an engine writes. -/
def Engine.schema : Engine → Kind → Schema → Schema
  | .python => pythonSchema
  | .rust => rustSchema

def Engine.append : Engine → Kind → StoreFiles → Input → Nat → Except Raised StoreFiles
  | .python => pythonAppend
  | .rust => rustAppend

/-- The batches that an engine writes. -/
def Engine.batches : Engine → Input → List (List (List Value))
  | .python, input => [input.rows]
  | .rust, input => input.batches

/-- Names and types of columns. -/
def keys (schema : Schema) : List (String × DataType) :=
  schema.map fun field => (field.name, field.type)

theorem keys_eq_iff {left right : Schema} : keys left = keys right ↔
    left.names = right.names ∧ left.map SchemaField.type = right.map SchemaField.type := by
  constructor
  · intro same
    have firsts := congrArg (List.map Prod.fst) same
    have seconds := congrArg (List.map Prod.snd) same
    rw [keys, keys, List.map_map, List.map_map] at firsts seconds
    exact ⟨firsts, seconds⟩
  · rintro ⟨names, types⟩
    have zipped : ∀ schema : Schema,
        keys schema = schema.names.zip (schema.map SchemaField.type) := by
      intro schema
      rw [Schema.names, List.zip_map']
      rfl
    rw [zipped, zipped, names, types]

theorem keys_append (left right : Schema) : keys (left ++ right) = keys left ++ keys right :=
  List.map_append

theorem names_append (left right : Schema) :
    Schema.names (left ++ right) = left.names ++ right.names := List.map_append

/-! ## Schemas of chunks -/

/-- The schema of a chunk: the id, the columns that the caller brought, and two LSNs. -/
structure Shaped (kind : Kind) (schema inner : Schema) : Prop where
  parts : ∃ id created deleted : SchemaField, schema = id :: inner ++ [created, deleted] ∧
    (id.name = kind.id_column ∧ id.type = .uint64) ∧
    (created.name = CREATED_LSN_COLUMN ∧ created.type = .uint64) ∧
    (deleted.name = DELETED_LSN_COLUMN ∧ deleted.type = .uint64)
  distinct : inner.names.Nodup
  unreserved : ¬ Reserved kind inner.names

/-- The columns that the caller brought, as an engine stores them. -/
def Engine.inner : Engine → Schema → Schema
  | .python, schema => schema.map fun field => { field with nullable := true }
  | .rust, schema => schema

theorem Engine.keys_inner (engine : Engine) (schema : Schema) :
    keys (engine.inner schema) = keys schema := by
  cases engine with
  | python => rw [Engine.inner, keys, keys, List.map_map]; rfl
  | rust => rfl

theorem names_of_keys {left right : Schema} (same : keys left = keys right) :
    left.names = right.names := (keys_eq_iff.mp same).1

theorem Engine.shaped (engine : Engine) {kind : Kind} {schema : Schema}
    (distinct : schema.names.Nodup) (unreserved : ¬ Reserved kind schema.names) :
    Shaped kind (engine.schema kind schema) (engine.inner schema) := by
  have names := names_of_keys (engine.keys_inner schema)
  refine ⟨?_, names ▸ distinct, names ▸ unreserved⟩
  cases engine with
  | python => exact ⟨_, _, _, rfl, ⟨rfl, rfl⟩, ⟨rfl, rfl⟩, rfl, rfl⟩
  | rust => exact ⟨_, _, _, rfl, ⟨rfl, rfl⟩, ⟨rfl, rfl⟩, rfl, rfl⟩

/-- A field of a schema with distinct names is found under its name. -/
theorem field_of_mem {schema : Schema} (distinct : schema.names.Nodup) {field : SchemaField}
    (member : field ∈ schema) : schema.field field.name = .ok field := by
  have alone : (schema.filter fun other => other.name = field.name) = [field] := by
    induction schema with
    | nil => cases member
    | cons first schema inductionHypothesis =>
      obtain ⟨absent, rest⟩ := List.nodup_cons.mp distinct
      rcases List.mem_cons.mp member with same | later
      · subst same
        have none : (schema.filter fun other => other.name = field.name) = [] := by
          rw [List.filter_eq_nil_iff]
          intro other among
          rw [decide_eq_true_eq]
          exact fun same => absent (same ▸ List.mem_map_of_mem among)
        rw [List.filter_cons, if_pos (decide_eq_true rfl), none]
      · have apart : ¬ decide (first.name = field.name) = true := by
          rw [decide_eq_true_eq]
          exact fun same => absent (same ▸ List.mem_map_of_mem later)
        rw [List.filter_cons, if_neg apart]
        exact inductionHypothesis rest later
  rw [Schema.field, alone]

/-- The fields under the names of some fields. -/
theorem fields_of_names {schema : Schema} (distinct : schema.names.Nodup) (fields : Schema)
    (among : ∀ field ∈ fields, field ∈ schema) : fields.names.mapM schema.field = .ok fields := by
  induction fields with
  | nil => rfl
  | cons field fields inductionHypothesis =>
    have rest := inductionHypothesis fun other member => among other (List.mem_cons_of_mem _ member)
    rw [Schema.names, List.map_cons, List.mapM_cons,
      field_of_mem distinct (among field List.mem_cons_self)]
    rw [Schema.names] at rest
    rw [ok_bind, rest]
    rfl

section Shaped

variable {kind : Kind} {schema inner : Schema}

theorem id_column_public (kind : Kind) : kind.id_column ≠ CREATED_LSN_COLUMN ∧
    kind.id_column ≠ DELETED_LSN_COLUMN := by
  cases kind <;> exact ⟨by decide, by decide⟩

theorem not_reserved {names : List String} (unreserved : ¬ Reserved kind names) :
    kind.id_column ∉ names ∧ CREATED_LSN_COLUMN ∉ names ∧ DELETED_LSN_COLUMN ∉ names := by
  rw [Reserved, not_or, not_or] at unreserved
  exact unreserved

theorem Shaped.names_distinct (shaped : Shaped kind schema inner) : schema.names.Nodup := by
  obtain ⟨id, created, deleted, rfl, isId, isCreated, isDeleted⟩ := shaped.parts
  obtain ⟨noId, noCreated, noDeleted⟩ := not_reserved shaped.unreserved
  obtain ⟨apart, apartToo⟩ := id_column_public kind
  have differ : CREATED_LSN_COLUMN ≠ DELETED_LSN_COLUMN := by decide
  have names : Schema.names (id :: inner ++ [created, deleted]) =
      kind.id_column :: (inner.names ++ [CREATED_LSN_COLUMN, DELETED_LSN_COLUMN]) := by
    rw [← isId.1, ← isCreated.1, ← isDeleted.1]
    exact List.map_append
  rw [names, List.nodup_cons, List.nodup_append]
  refine ⟨?_, shaped.distinct, by simpa using differ, ?_⟩
  · simp only [List.mem_append, List.mem_cons, List.not_mem_nil, or_false]
    rintro (among | isCreation | isDeletion)
    · exact noId among
    · exact apart isCreation
    · exact apartToo isDeletion
  · intro name among other isLsn same
    subst same
    simp only [List.mem_cons, List.not_mem_nil, or_false] at isLsn
    rcases isLsn with rfl | rfl
    · exact noCreated among
    · exact noDeleted among

theorem publicFields_of_unreserved (unreserved : ¬ Reserved kind inner.names) :
    publicFields inner = inner := by
  obtain ⟨_, noCreated, noDeleted⟩ := not_reserved unreserved
  rw [publicFields, List.filter_eq_self]
  intro field member
  have named : field.name ∈ inner.names := List.mem_map_of_mem member
  rw [decide_eq_true_eq]
  exact ⟨fun same => noCreated (same ▸ named), fun same => noDeleted (same ▸ named)⟩

/-- The public columns are the id and those that the caller brought. -/
theorem Shaped.publicFields (shaped : Shaped kind schema inner) :
    ∃ id, Mixed.publicFields schema = id :: inner ∧ id.name = kind.id_column ∧
      id.type = .uint64 ∧ ∀ field ∈ id :: inner, field ∈ schema := by
  obtain ⟨id, created, deleted, rfl, isId, isCreated, isDeleted⟩ := shaped.parts
  obtain ⟨apart, apartToo⟩ := id_column_public kind
  refine ⟨id, ?_, isId.1, isId.2, fun field member => List.mem_append_left _ member⟩
  have first : decide (id.name ≠ CREATED_LSN_COLUMN ∧ id.name ≠ DELETED_LSN_COLUMN) = true := by
    rw [decide_eq_true_eq, isId.1]
    exact ⟨apart, apartToo⟩
  have last : ([created, deleted] : Schema).filter (fun field =>
      decide (field.name ≠ CREATED_LSN_COLUMN ∧ field.name ≠ DELETED_LSN_COLUMN)) = [] := by
    rw [List.filter_eq_nil_iff]
    intro field member
    rw [decide_eq_true_eq]
    simp only [List.mem_cons, List.not_mem_nil, or_false] at member
    rcases member with rfl | rfl
    · exact fun kept => kept.1 isCreated.1
    · exact fun kept => kept.2 isDeleted.1
  have middle := publicFields_of_unreserved shaped.unreserved
  rw [Mixed.publicFields] at middle ⊢
  rw [List.cons_append, List.filter_cons, if_pos first, List.filter_append, middle, last,
    List.append_nil]

theorem publicNames_eq (schema : Schema) :
    schema.publicNames = Schema.names (Mixed.publicFields schema) := by
  rw [Schema.publicNames, Schema.names, Schema.names, Mixed.publicFields, List.filter_map]
  rfl

/-- The columns without the id. -/
theorem Shaped.without_id (shaped : Shaped kind schema inner) :
    Mixed.publicFields (schemaWithoutField schema kind.id_column) = inner := by
  obtain ⟨id, shown, isId, _, _⟩ := shaped.publicFields
  obtain ⟨noId, _, _⟩ := not_reserved shaped.unreserved
  rw [Mixed.publicFields, schemaWithoutField, List.filter_filter]
  rw [Mixed.publicFields] at shown
  have swapped : (schema.filter fun field =>
      decide (field.name ≠ CREATED_LSN_COLUMN ∧ field.name ≠ DELETED_LSN_COLUMN) &&
        decide (field.name ≠ kind.id_column)) = (id :: inner).filter fun field =>
          decide (field.name ≠ kind.id_column) := by
    rw [← shown, List.filter_filter]
    apply List.filter_congr
    intro field _
    rw [Bool.and_comm]
  have rest : (inner.filter fun field => decide (field.name ≠ kind.id_column)) = inner := by
    rw [List.filter_eq_self]
    intro field member
    rw [decide_eq_true_eq]
    exact fun same => noId (same ▸ List.mem_map_of_mem member)
  rw [swapped, List.filter_cons, if_neg (by simp [isId]), rest]

/-- Chunks agree in names and types when the columns of their callers do. -/
theorem Shaped.keys_iff {other outer : Schema} (shaped : Shaped kind schema inner)
    (shapedOther : Shaped kind other outer) :
    keys schema = keys other ↔ keys inner = keys outer := by
  obtain ⟨id, created, deleted, rfl, isId, isCreated, isDeleted⟩ := shaped.parts
  obtain ⟨id', created', deleted', rfl, isId', isCreated', isDeleted'⟩ := shapedOther.parts
  have last : keys [created, deleted] = keys [created', deleted'] := by
    simp [keys, isCreated, isDeleted, isCreated', isDeleted']
  have first : (id.name, id.type) = (id'.name, id'.type) := by
    rw [isId.1, isId.2, isId'.1, isId'.2]
  rw [keys_append, keys_append, last, List.append_cancel_right_eq]
  show (id.name, id.type) :: keys inner = (id'.name, id'.type) :: keys outer ↔ _
  rw [first, List.cons_eq_cons]
  exact ⟨fun same => same.2, fun same => ⟨rfl, same⟩⟩

end Shaped

/-! ## Comparing types -/

/-- Two columns of one place differ in type. -/
def differ (pair : SchemaField × SchemaField) : Bool := pair.1.type ≠ pair.2.type

/-- Schemas with the same names agree unless two columns of one place differ. -/
theorem differ_none_iff {left right : Schema} (names : left.names = right.names) :
    (left.zip right).find? differ = none ↔ keys left = keys right := by
  induction left generalizing right with
  | nil =>
    have empty : right = [] := List.map_eq_nil_iff.mp names.symm
    rw [empty]
    exact ⟨fun _ => rfl, fun _ => rfl⟩
  | cons field left inductionHypothesis =>
    cases right with
    | nil => cases names
    | cons other right =>
      obtain ⟨name, rest⟩ := List.cons_eq_cons.mp names
      rw [List.zip_cons_cons, List.find?_cons]
      have unfolded : keys (field :: left) = keys (other :: right) ↔
          field.type = other.type ∧ keys left = keys right := by
        rw [keys, keys, List.map_cons, List.map_cons, List.cons_eq_cons, Prod.mk.injEq]
        exact ⟨fun same => ⟨same.1.2, same.2⟩, fun same => ⟨⟨name, same.1⟩, same.2⟩⟩
      rw [unfolded]
      by_cases type : field.type = other.type
      · have equal : differ (field, other) = false := by simp [differ, type]
        rw [equal, inductionHypothesis rest]
        exact ⟨fun same => ⟨type, same⟩, fun same => same.2⟩
      · have unequal : differ (field, other) = true := by simp [differ, type]
        rw [unequal]
        exact ⟨fun impossible => (by cases impossible), fun same => absurd same.1 type⟩

/-- The first pair of columns that differ decides the comparison. -/
theorem compareTypes_pairs {expected actual : Schema}
    (drift : SchemaField → SchemaField → Raised) (pairs : List (SchemaField × SchemaField))
    (found : ∀ pair ∈ pairs, expected.field pair.1.name = .ok pair.1 ∧
      actual.field pair.1.name = .ok pair.2) :
    compareTypes expected actual drift (pairs.map fun pair => pair.1.name) =
      match pairs.find? differ with
      | none => .ok ()
      | some pair => .error (drift pair.1 pair.2) := by
  induction pairs with
  | nil => rfl
  | cons pair pairs inductionHypothesis =>
    obtain ⟨left, right⟩ := found pair List.mem_cons_self
    have rest := inductionHypothesis fun other member => found other (List.mem_cons_of_mem _ member)
    rw [List.map_cons, compareTypes, left, ok_bind, right, ok_bind, List.find?_cons, refuse]
    by_cases type : pair.1.type = pair.2.type
    · have equal : differ pair = false := by simp [differ, type]
      rw [equal, if_neg (fun unequal => unequal type), ok_bind, rest]
    · have unequal : differ pair = true := by simp [differ, type]
      rw [unequal, if_pos type]
      rfl

/-- The names of pairs of columns are those of the first columns. -/
theorem zip_names {left right : Schema} (names : left.names = right.names) :
    ((left.zip right).map fun pair => pair.1.name) = left.names := by
  have long : left.length ≤ right.length := by
    have lengths := congrArg List.length names
    rw [Schema.names, Schema.names, List.length_map, List.length_map] at lengths
    exact lengths.le
  have firsts := List.map_fst_zip long
  calc ((left.zip right).map fun pair => pair.1.name)
      = ((left.zip right).map Prod.fst).map SchemaField.name := by rw [List.map_map]; rfl
    _ = left.names := by rw [firsts, Schema.names]

/-- Columns of one place have the same name when the schemas do. -/
theorem zip_name {left right : Schema} (names : left.names = right.names)
    {pair : SchemaField × SchemaField} (member : pair ∈ left.zip right) :
    pair.2.name = pair.1.name := by
  obtain ⟨index, short, rfl⟩ := List.mem_iff_getElem.mp member
  have lookup := congrArg (fun list => list[index]?) names
  rw [List.length_zip] at short
  simp only [Schema.names, List.getElem?_map] at lookup
  rw [List.getElem?_eq_getElem (by omega), List.getElem?_eq_getElem (by omega)] at lookup
  rw [List.getElem_zip]
  exact (Option.some.inj lookup).symm

/-! ## Decisions -/

/-- A call answers under a condition and otherwise raises an error of one code. -/
structure Decides {Answer : Type} (code : String) (result : Except Raised Answer) (accepts : Prop)
    (answer : Answer) : Prop where
  accepted : accepts → result = .ok answer
  refused : ¬ accepts → ∃ message, result = .error (.caracal { code, message })

namespace Decides

variable {code : String}

theorem pass {Answer : Type} (answer : Answer) : Decides code (.ok answer) True answer :=
  ⟨fun _ => rfl, fun impossible => absurd trivial impossible⟩

theorem refuse {condition : Prop} [Decidable condition] {raised : Raised}
    (raises : ∃ message, raised = .caracal { code, message }) :
    Decides code (CaracalDB.refuse condition raised) (¬ condition) () := by
  constructor
  · intro allowed
    rw [CaracalDB.refuse, if_neg allowed]
  · intro forbidden
    obtain ⟨message, rfl⟩ := raises
    rw [CaracalDB.refuse, if_pos (not_not.mp forbidden)]
    exact ⟨message, rfl⟩

/-- Two calls one after the other; the second may rely on what the first has checked. -/
theorem andThen {First Answer : Type} {first : Except Raised First} {middle : First}
    {next : First → Except Raised Answer} {accepts furtherAccepts : Prop} {answer : Answer}
    (decides : Decides code first accepts middle)
    (decidesNext : accepts → Decides code (next middle) furtherAccepts answer) :
    Decides code (first >>= next) (accepts ∧ furtherAccepts) answer := by
  constructor
  · rintro ⟨holds, holdsToo⟩
    rw [decides.accepted holds, ok_bind]
    exact (decidesNext holds).accepted holdsToo
  · intro fails
    by_cases holds : accepts
    · rw [decides.accepted holds, ok_bind]
      exact (decidesNext holds).refused fun holdsToo => fails ⟨holds, holdsToo⟩
    · obtain ⟨message, raised⟩ := decides.refused holds
      rw [raised]
      exact ⟨message, rfl⟩

theorem of_iff {Answer : Type} {result : Except Raised Answer} {accepts other : Prop}
    {answer : Answer} (decides : Decides code result accepts answer) (same : accepts ↔ other) :
    Decides code result other answer :=
  ⟨fun holds => decides.accepted (same.mpr holds),
    fun fails => decides.refused fun holds => fails (same.mp holds)⟩

end Decides

end CaracalDB.Mixed
