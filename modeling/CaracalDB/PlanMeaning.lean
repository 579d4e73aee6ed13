import CaracalDB.PlanExecution

/-!
# What a plan means

A plan denotes a table: a scan the rows visible at its snapshot, a filter the rows
with a value, a projection the columns named, an order the rows sorted by all its
items before rows are skipped and limited, a count the number of rows. The Python
operators compute the same from batches.
-/

namespace CaracalDB.RustPlan

/-! ## Plans -/

inductive SortExpr where
  | column (name : String)
  | other (kind : String)

/-- An item of an order. -/
structure OrderItem where
  expr : SortExpr
  descending : Bool
  nulls_last : Bool

/-- An order: a list of items, or the name of one column. -/
inductive OrderBy where
  | name (column : String)
  | items (list : List OrderItem)

inductive Plan where
  | node_scan (class_iri local_name : String) (snapshot_lsn : Option Nat)
  | filter_eq_u64 (column : String) (value : Nat) (input : Plan)
  | project (columns : List String) (input : Plan)
  | top_k (order_by : OrderBy) (skip limit : Option Nat) (input : Plan)
  | hash_aggregate_count (input : Plan)

/-- A number or None. -/
def ofNumber : Option Nat → Value
  | none => .null
  | some number => .int number

def SortExpr.toJson : SortExpr → Value
  | .column name => .dict [("kind", .str "column"), ("name", .str name)]
  | .other kind => .dict [("kind", .str kind)]

def OrderItem.toJson (item : OrderItem) : Value := .dict
  [("expr", item.expr.toJson), ("descending", .bool item.descending),
    ("nulls_last", .bool item.nulls_last)]

def OrderBy.toJson : OrderBy → Value
  | .name column => .str column
  | .items list => .list (list.map OrderItem.toJson)

/-- The JSON value of a plan. -/
def Plan.toJson : Plan → Value
  | .node_scan class_iri local_name snapshot_lsn => .dict
      [("op", .str "node_scan"), ("class_iri", .str class_iri), ("local_name", .str local_name),
        ("snapshot_lsn", ofNumber snapshot_lsn)]
  | .filter_eq_u64 column value input => .dict
      [("op", .str "filter_eq_u64"), ("column", .str column), ("value", .int value),
        ("input", input.toJson)]
  | .project columns input => .dict
      [("op", .str "project"), ("columns", .list (columns.map .str)), ("input", input.toJson)]
  | .top_k order_by skip limit input => .dict
      [("op", .str "top_k"), ("order_by", order_by.toJson), ("skip", ofNumber skip),
        ("limit", ofNumber limit), ("input", input.toJson)]
  | .hash_aggregate_count input => .dict
      [("op", .str "hash_aggregate_count"), ("input", input.toJson)]

/-! ## Orders -/

/-- The comparisons of the Arrow library, of which those of UInt64 columns are known. -/
structure Compute where
  equal : DataType → Value → Nat → Bool
  less : DataType → Value → Value → Bool
  equal_uint64 : ∀ value number,
    equal .uint64 value number = (value ≠ .null && u64Of value = number)
  less_uint64 : ∀ first second, less .uint64 first second =
    decide (u64Of first < u64Of second)

/-- The key of an order: a column of a type and its flags. -/
structure SortKey where
  column : String
  type : DataType
  descending : Bool
  nulls_last : Bool
deriving DecidableEq

theorem build_scan (bundle : Bundle) (depth : Nat) (class_iri local_name : String)
    (snapshot_lsn : Option Nat) :
    buildOperator bundle (depth + 1) (Plan.node_scan class_iri local_name snapshot_lsn).toJson =
      (openNodeStore bundle class_iri local_name >>= fun store => .ok (.node_scan store)) := by
  let plan := (Plan.node_scan class_iri local_name snapshot_lsn).toJson
  have op : requiredStr plan "op" = .ok "node_scan" := rfl
  have iri : requiredStr plan "class_iri" = .ok class_iri := rfl
  have name : requiredStr plan "local_name" = .ok local_name := rfl
  rw [buildOperator, op, ok_bind]
  simp only [plan, iri, name, ok_bind]
  rfl

section Meaning

variable (compute : Compute)

/-- Two values by a key. -/
def compareValues (key : SortKey) (first second : Value) : Ordering :=
  if first = .null ∧ second = .null then .eq
  else if first = .null then (if key.nulls_last then .gt else .lt)
  else if second = .null then (if key.nulls_last then .lt else .gt)
  else
    let order : Ordering :=
      if compute.less key.type first second then .lt
      else if compute.less key.type second first then .gt
      else .eq
    if key.descending then order.swap else order

/-- Two rows by the first key that tells them apart. -/
def compareRows (first second : Row) : List SortKey → Ordering
  | [] => .eq
  | key :: keys =>
      (compareValues compute key (cell key.column first) (cell key.column second)).then
        (compareRows first second keys)

/-- The order of rows by keys. -/
def rowLe (keys : List SortKey) (first second : Row) : Prop :=
  compareRows compute first second keys ≠ .gt

instance (keys : List SortKey) : DecidableRel (rowLe compute keys) := fun first second =>
  inferInstanceAs (Decidable (compareRows compute first second keys ≠ .gt))

/-- The items that an order means. -/
def OrderBy.all : OrderBy → List OrderItem
  | .name column => [{ expr := .column column, descending := false, nulls_last := true }]
  | .items list => list

/-- The key of an item, if it is a column of the table. -/
def sortKeyOf (columns : Columns) (item : OrderItem) : Option SortKey :=
  match item.expr with
  | .other _ => none
  | .column column => (columns.lookup column).map fun type =>
      { column
        type
        descending := item.descending
        nulls_last := item.nulls_last }

/-! ## Tables -/

/-- A table; nothing is known of the columns of one without batches. -/
structure Table where
  columns : Option Columns
  rows : List Row

/-- The columns of a store, once something is stored. -/
def Store.known (store : Store) : Option Columns :=
  if store.batches = [] then none else some store.columns

/-- The rows with a value in a column. -/
def Table.filtered (column : String) (value : Nat) (table : Table) : Option Table :=
  match table.columns with
  | none => some table
  | some columns => (columns.lookup column).map fun type =>
      { table with rows := table.rows.filter fun row => compute.equal type (cell column row) value }

/-- The columns of a list. -/
def Table.projected (columns : List String) (table : Table) : Option Table :=
  match table.columns with
  | none => some table
  | some known =>
      (columns.mapM fun name => (known.lookup name).map fun type => (name, type)).map fun chosen =>
        { columns := some chosen
          rows := table.rows.map fun row => columns.map fun name => (name, cell name row) }

/-- The rows in an order, skipped and limited. -/
def Table.ordered (order_by : OrderBy) (skip limit : Option Nat) (table : Table) : Option Table :=
  match table.columns with
  | none => some table
  | some known => (order_by.all.mapM (sortKeyOf known)).map fun keys =>
      { table with
        rows := sliced (skip.getD 0) limit (table.rows.insertionSort (rowLe compute keys)) }

def Table.counted (table : Table) : Table :=
  { columns := some [("count", .uint64)]
    rows := [[("count", .int table.rows.length)]] }

/-- The table that a plan denotes, if its store and its columns exist. -/
def denotes (bundle : Bundle) : Plan → Option Table
  | .node_scan class_iri local_name snapshot_lsn =>
      match openNodeStore bundle class_iri local_name with
      | .error _ => none
      | .ok store => some
          { columns := store.known
            rows := (store.batches.flatten.filter (visibleAt snapshot_lsn)).map store.publicRow }
  | .filter_eq_u64 column value input =>
      (denotes bundle input).bind (Table.filtered compute column value)
  | .project columns input => (denotes bundle input).bind (Table.projected columns)
  | .top_k order_by skip limit input =>
      (denotes bundle input).bind (Table.ordered compute order_by skip limit)
  | .hash_aggregate_count input => (denotes bundle input).map Table.counted

/-! ## The Python operators -/

/-- A column of a batch, as an expression reads it. -/
def batchColumn (batch : Batch) (column : String) : Except Raised DataType :=
  match batch.columns.lookup column with
  | none => .error (.keyError column)
  | some type => .ok type

/-- `FilterOperator` with the comparison as its predicate: batches left empty are dropped. -/
def pythonFilter (column : String) (value : Nat) (batches : List Batch) :
    Except Raised (List Batch) := do
  let filtered ← batches.mapM fun batch => do
    let type ← batchColumn batch column
    return { batch with
      rows := batch.rows.filter fun row => compute.equal type (cell column row) value }
  return filtered.filter fun batch => batch.rows ≠ []

/-- `ProjectOperator` with columns; a batch made of no arrays has no rows. -/
def pythonProject (columns : List String) (batches : List Batch) : Except Raised (List Batch) :=
  batches.mapM fun batch => do
    let chosen ← columns.mapM fun name => do return (name, ← batchColumn batch name)
    return { columns := chosen
             rows := if columns = [] then [] else
               batch.rows.map fun row => columns.map fun name => (name, cell name row) }

/-- The sort key of an item; the operator takes a column and whether it descends. -/
def pythonKey (columns : Columns) (item : OrderItem) : Except Raised SortKey :=
  match item.expr with
  | .other _ => .error (.typeError "sort keys are columns")
  | .column column =>
      match columns.lookup column with
      | none => raiseCaracal "CDB-6042" ("sort key column missing: " ++ Value.quoted column)
      | some type => .ok
          { column
            type
            descending := item.descending
            nulls_last := true }

/-- `TopKOperator`: one table of all batches, sorted, sliced and made into batches again. -/
def pythonTopK (order_by : OrderBy) (skip limit : Option Nat) (batches : List Batch) :
    Except Raised (List Batch) :=
  match batches with
  | [] => .ok []
  | first :: _ => do
      let keys ← order_by.all.mapM (pythonKey first.columns)
      refuse (keys = []) (.arrowError "Must specify one or more sort keys")
      let rows := sliced (skip.getD 0) limit
        ((batches.flatMap Batch.rows).insertionSort (rowLe compute keys))
      return if rows = [] then [] else [{ columns := first.columns, rows }]

/-- The batches of the Python operators for a plan; none of them counts. -/
def pythonRun (bundle : Bundle) : Plan → Except Raised (List Batch)
  | .node_scan class_iri local_name snapshot_lsn => do
      let store ← openNodeStore bundle class_iri local_name
      return store.batches.map fun rows =>
        { columns := store.columns
          rows := (rows.filter (visibleAt snapshot_lsn)).map store.publicRow }
  | .filter_eq_u64 column value input => do
      pythonFilter compute column value (← pythonRun bundle input)
  | .project columns input => do
      pythonProject columns (← pythonRun bundle input)
  | .top_k order_by skip limit input => do
      pythonTopK compute order_by skip limit (← pythonRun bundle input)
  | .hash_aggregate_count _ => .error (.typeError "no operator counts")

section Equations

variable {compute} {bundle : Bundle} {class_iri local_name : String} {input : Plan}

theorem denotes_scan_error {snapshot_lsn : Option Nat} {raised : Raised}
    (closed : openNodeStore bundle class_iri local_name = .error raised) :
    denotes compute bundle (.node_scan class_iri local_name snapshot_lsn) = none := by
  show (match openNodeStore bundle class_iri local_name with | .error _ => none | .ok _ => _) = _
  rw [closed]

theorem denotes_scan_ok {snapshot_lsn : Option Nat} {store : Store}
    (opened : openNodeStore bundle class_iri local_name = .ok store) :
    denotes compute bundle (.node_scan class_iri local_name snapshot_lsn) = some
      { columns := store.known
        rows := (store.batches.flatten.filter (visibleAt snapshot_lsn)).map store.publicRow } := by
  show (match openNodeStore bundle class_iri local_name with | .error _ => none | .ok _ => _) = _
  rw [opened]

theorem denotes_filter_none {column : String} {value : Nat}
    (nothing : denotes compute bundle input = none) :
    denotes compute bundle (.filter_eq_u64 column value input) = none := by
  show (denotes compute bundle input).bind _ = none
  rw [nothing]
  rfl

theorem denotes_project_none {columns : List String}
    (nothing : denotes compute bundle input = none) :
    denotes compute bundle (.project columns input) = none := by
  show (denotes compute bundle input).bind _ = none
  rw [nothing]
  rfl

theorem denotes_topK_none {order_by : OrderBy} {skip limit : Option Nat}
    (nothing : denotes compute bundle input = none) :
    denotes compute bundle (.top_k order_by skip limit input) = none := by
  show (denotes compute bundle input).bind _ = none
  rw [nothing]
  rfl

theorem denotes_count_none (nothing : denotes compute bundle input = none) :
    denotes compute bundle (.hash_aggregate_count input) = none := by
  show (denotes compute bundle input).map _ = none
  rw [nothing]
  rfl

theorem pythonRun_scan {snapshot_lsn : Option Nat} {store : Store}
    (opened : openNodeStore bundle class_iri local_name = .ok store) :
    pythonRun compute bundle (.node_scan class_iri local_name snapshot_lsn) =
      .ok (store.batches.map fun rows =>
        { columns := store.columns
          rows := (rows.filter (visibleAt snapshot_lsn)).map store.publicRow }) := by
  show (openNodeStore bundle class_iri local_name >>= _) = _
  rw [opened]
  rfl

variable {batches : List Batch} (runs : pythonRun compute bundle input = .ok batches)
include runs

theorem pythonRun_filter (column : String) (value : Nat) :
    pythonRun compute bundle (.filter_eq_u64 column value input) =
      pythonFilter compute column value batches := by
  show (pythonRun compute bundle input >>= _) = _
  rw [runs]
  rfl

theorem pythonRun_project (columns : List String) :
    pythonRun compute bundle (.project columns input) = pythonProject columns batches := by
  show (pythonRun compute bundle input >>= _) = _
  rw [runs]
  rfl

theorem pythonRun_topK (order_by : OrderBy) (skip limit : Option Nat) :
    pythonRun compute bundle (.top_k order_by skip limit input) =
      pythonTopK compute order_by skip limit batches := by
  show (pythonRun compute bundle input >>= _) = _
  rw [runs]
  rfl

end Equations

/-- Whether a plan counts. -/
def Plan.counts : Plan → Bool
  | .node_scan _ _ _ => false
  | .filter_eq_u64 _ _ input => input.counts
  | .project _ input => input.counts
  | .top_k _ _ _ input => input.counts
  | .hash_aggregate_count _ => true

/-! ## Honouring a plan -/

/-- A row without the columns of the LSNs. -/
def strip (row : Row) : Row := row.filter fun entry => !isMvcc entry.1

/-- The rows of batches without the columns of the LSNs. -/
def rowsOf (batches : List Batch) : List Row := batches.flatMap fun batch => batch.rows.map strip

/-- A plan is honoured: the rows are those that it denotes and those of the Python operators, or it
is rejected, with CDB-6020 where it denotes something. -/
def Honoured (bundle : Bundle) (plan : Plan) : Prop :=
  match executePlan bundle plan.toJson none with
  | .ok batches => (∃ table, denotes compute bundle plan = some table ∧ rowsOf batches = table.rows) ∧
      (plan.counts = false → ∃ expected, pythonRun compute bundle plan = .ok expected ∧
        rowsOf batches = rowsOf expected)
  | .error raised => denotes compute bundle plan = none ∨ ∃ message, raised = unsupported message

/-! ## Plans of which nothing is ignored -/

/-- How many batches the input of an operator has. -/
def batchCount (bundle : Bundle) : Plan → Nat
  | .node_scan class_iri local_name _ =>
      match openNodeStore bundle class_iri local_name with
      | .error _ => 0
      | .ok store => store.batches.length
  | .filter_eq_u64 _ _ input => batchCount bundle input
  | .project _ input => batchCount bundle input
  | .top_k _ _ _ input => batchCount bundle input
  | .hash_aggregate_count _ => 1

/-- Whether the batches of a plan still have the columns of the LSNs. -/
def Plan.carries : Plan → Bool
  | .node_scan _ _ _ => true
  | .filter_eq_u64 _ _ input => input.carries
  | .project _ _ => false
  | .top_k _ _ _ input => input.carries
  | .hash_aggregate_count _ => false

/-- The column of an order that is read, if the order is not rejected. -/
def OrderBy.first : OrderBy → Option String
  | .name column => some column
  | .items [] => none
  | .items (item :: _) =>
      match item.expr with
      | .column column => some column
      | .other _ => none

/-- The columns of the LSNs are not asked for where a scan still brings them. -/
def Public (plan : Plan) (column : String) : Prop := plan.carries = true → isMvcc column = false

/-- A column that there is, is one of type UInt64. -/
def Counting (columns : Option Columns) (column : String) : Prop :=
  ∀ known ∈ columns, ∀ type, known.lookup column = some type → type = .uint64

/-- No null stands before the greatest number. -/
def Untied (column : String) (rows : List Row) : Prop :=
  rows.Pairwise fun earlier later =>
    ¬ (cell column earlier = .null ∧ cell column later ≠ .null ∧ u64Of (cell column later) = U64_MAX)

/-- Nothing that a plan says is ignored. -/
def Plain (bundle : Bundle) : Plan → Prop
  | .node_scan class_iri local_name snapshot_lsn =>
      ∀ store, openNodeStore bundle class_iri local_name = .ok store →
        ∀ row ∈ store.batches.flatten, visibleAt snapshot_lsn row = true
  | .filter_eq_u64 column _ input => Plain bundle input ∧ Public input column ∧
      ∀ table ∈ denotes compute bundle input, Counting table.columns column
  | .project columns input => Plain bundle input ∧ columns ≠ [] ∧
      ∀ column ∈ columns, Public input column
  | .top_k order_by _ _ input => Plain bundle input ∧ ∀ column ∈ order_by.first,
      Public input column ∧ batchCount bundle input ≤ 1 ∧
      order_by.all = [{ expr := .column column, descending := false, nulls_last := true }] ∧
      ∀ table ∈ denotes compute bundle input,
        Counting table.columns column ∧ Untied column table.rows
  | .hash_aggregate_count input => Plain bundle input

end Meaning

end CaracalDB.RustPlan
