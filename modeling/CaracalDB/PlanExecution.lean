import CaracalDB.MixedStores
import CaracalDB.LocalName
import Mathlib.Data.List.Sort

/-!
# Executing a plan in Rust

Python hands a plan to the Rust engine as a JSON text. Every node of it becomes an
operator; an operator is asked for its batches one by one and ends at the first
error. Of a scan, the engine reads the store but not the snapshot; of an order, it
reads the column of the first item.
-/

namespace CaracalDB.RustPlan

/-! ## Stores and batches -/

/-- A row under the names of its columns. -/
abbrev Row : Type := List (String × Value)

/-- The names and types of columns. -/
abbrev Columns : Type := List (String × DataType)

structure Batch where
  columns : Columns
  rows : List Row

/-- The columns that carry the LSNs of a row. -/
def isMvcc (name : String) : Bool := name = CREATED_LSN_COLUMN || name = DELETED_LSN_COLUMN

structure StoredRow where
  values : List Value
  created_lsn : Option Nat
  deleted_lsn : Option Nat

/-- A store of nodes: the columns besides those of the LSNs, and the batches of its chunks. -/
structure Store where
  local_name : String
  class_iri : String
  columns : Columns
  named : ∀ column ∈ columns, isMvcc column.1 = false
  batches : List (List StoredRow)

abbrev Bundle : Type := List Store

/-- The value of a column in a row. -/
def cell (column : String) (row : Row) : Value := (row.lookup column).getD .null

def U64_MAX : Nat := 18446744073709551615

/-- The number of a value in a column of type UInt64; a null has none that counts. -/
def u64Of : Value → Nat
  | .int number => number.toNat % (U64_MAX + 1)
  | _ => 0

/-- The row of a store under the names of its columns. -/
def Store.publicRow (store : Store) (row : StoredRow) : Row :=
  (store.columns.map Prod.fst).zip row.values

def lsnValue : Option Nat → Value
  | none => .null
  | some lsn => .int lsn

/-- The row as it stands in a column segment. -/
def Store.wholeRow (store : Store) (row : StoredRow) : Row :=
  store.publicRow row ++ [(CREATED_LSN_COLUMN, lsnValue row.created_lsn),
    (DELETED_LSN_COLUMN, lsnValue row.deleted_lsn)]

def Store.wholeColumns (store : Store) : Columns :=
  store.columns ++ [(CREATED_LSN_COLUMN, .uint64), (DELETED_LSN_COLUMN, .uint64)]

/-- Whether a row is visible at a snapshot; without one, every row is. -/
def visibleAt (snapshot_lsn : Option Nat) (row : StoredRow) : Bool :=
  match snapshot_lsn with
  | none => true
  | some lsn =>
      (match row.created_lsn with
        | none => false
        | some created => created ≤ lsn) &&
      (match row.deleted_lsn with
        | none => true
        | some deleted => lsn < deleted)

/-! ## Operators -/

/-- `execution_error(message)` -/
def executionError (message : String) : Raised := Mixed.rustError "CDB-6001" message

/-- `unsupported(message)` -/
def unsupported (message : String) : Raised := Mixed.rustError "CDB-6020" message

inductive Operator where
  | batch_source
  | node_scan (store : Store)
  | filter (child : Operator) (column : String) (equals_u64 : Nat)
  | project (child : Operator) (columns : List String)
  | top_k (child : Operator) (order_by : String) (skip : Nat) (limit : Option Nat)
  | hash_aggregate (child : Operator)

/-- The column of a batch, if it is one of type UInt64. -/
def u64Column (batch : Batch) (column missing mistyped : String) : Except Raised Unit :=
  match batch.columns.lookup column with
  | none => .error (executionError (missing ++ column))
  | some type => if type = .uint64 then .ok () else .error (executionError mistyped)

/-- `next_batch` of a filter, from the child's batch on. -/
def filterBatch (column : String) (equals_u64 : Nat) (batch : Batch) : Except Raised Batch := do
  u64Column batch column "filter column not found: " "Filter currently supports UInt64 equality"
  return { batch with
    rows := batch.rows.filter fun row =>
      cell column row ≠ .null && u64Of (cell column row) = equals_u64 }

/-- One column of a projection. -/
def projectColumn (batch : Batch) (name : String) : Except Raised (String × DataType) :=
  match batch.columns.lookup name with
  | none => .error (executionError ("Project failed: Schema error: Unable to get field named \"" ++
      name ++ "\". Valid fields: " ++ Mixed.debugNames (batch.columns.map Prod.fst)))
  | some type => .ok (name, type)

/-- `next_batch` of a projection, from the child's batch on. -/
def projectBatch (columns : List String) (batch : Batch) : Except Raised Batch := do
  let chosen ← columns.mapM (projectColumn batch)
  return { columns := chosen
           rows := batch.rows.map fun row => columns.map fun name => (name, cell name row) }

/-- The number that a row is sorted by. -/
def sortKey (column : String) (row : Row) : Nat :=
  if cell column row = .null then U64_MAX else u64Of (cell column row)

/-- The order of rows by a column, as the engine sorts them. -/
def keyLe (column : String) (first second : Row) : Prop := sortKey column first ≤ sortKey column second

instance (column : String) : DecidableRel (keyLe column) := fun first second =>
  inferInstanceAs (Decidable (sortKey column first ≤ sortKey column second))

/-- The rows from an offset on, no more than a limit. -/
def sliced (skip : Nat) (limit : Option Nat) (rows : List Row) : List Row :=
  match limit with
  | none => rows.drop skip
  | some limit => (rows.drop skip).take limit

/-- `next_batch` of an order, from the child's batch on. -/
def topKBatch (order_by : String) (skip : Nat) (limit : Option Nat) (batch : Batch) :
    Except Raised Batch := do
  u64Column batch order_by "TopK column not found: " "TopK currently supports UInt64 ordering"
  return { batch with rows := sliced skip limit (batch.rows.insertionSort (keyLe order_by)) }

def countBatch (batches : List Batch) : Batch :=
  { columns := [("count", .uint64)]
    rows := [[("count", .int ((batches.map fun batch => batch.rows.length).sum : Nat))]] }

/-- What an operator answers to one `next_batch` after the other. -/
def Operator.outcomes (snapshot_lsn : Option Nat) : Operator → List (Except Raised Batch)
  | .batch_source => []
  | .node_scan store => store.batches.map fun rows => .ok
      { columns := store.wholeColumns
        rows := (rows.filter (visibleAt snapshot_lsn)).map store.wholeRow }
  | .filter child column equals_u64 =>
      (child.outcomes snapshot_lsn).map (· >>= filterBatch column equals_u64)
  | .project child columns => (child.outcomes snapshot_lsn).map (· >>= projectBatch columns)
  | .top_k child order_by skip limit =>
      (child.outcomes snapshot_lsn).map (· >>= topKBatch order_by skip limit)
  | .hash_aggregate child => [((child.outcomes snapshot_lsn).mapM id).map countBatch]

/-- `execute_to_batches(operator, ctx)` -/
def executeToBatches (operator : Operator) (snapshot_lsn : Option Nat) :
    Except Raised (List Batch) :=
  (operator.outcomes snapshot_lsn).mapM id

/-! ## Reading a plan -/

/-- The characters of an identifier, as `assert_local_name` wants them. -/
def isIdentifier (name : String) : Bool :=
  match name.toList with
  | [] => false
  | first :: rest => nameStart first && rest.all nameChar

/-- `open_node_store(bundle, class_iri, local_name, false)` -/
def openNodeStore (bundle : Bundle) (class_iri local_name : String) : Except Raised Store := do
  refuse (isIdentifier local_name = false)
    (Mixed.rustError "CDB-7010" ("invalid class local name: " ++ Mixed.debugText local_name))
  match bundle.find? fun store => store.local_name = local_name with
  | none => throw (Mixed.rustError "CDB-7012"
      ("node store not found for class " ++ Mixed.debugText class_iri))
  | some store => do
      refuse (store.class_iri ≠ class_iri) (Mixed.rustError "CDB-7013" ("node store " ++
        Mixed.debugText local_name ++ " class mismatch: expected " ++ class_iri ++ ", found " ++
          store.class_iri))
      return store

/-- `plan.get(key)` -/
def member (key : String) : Value → Option Value
  | .dict entries => entries.lookup key
  | _ => none

/-- `required_value(plan, key)` -/
def requiredValue (plan : Value) (key : String) : Except Raised Value :=
  match member key plan with
  | some value => .ok value
  | none => .error (unsupported ("missing required plan field: " ++ key))

/-- `required_str(plan, key)` -/
def requiredStr (plan : Value) (key : String) : Except Raised String := do
  match ← requiredValue plan key with
  | .str text => return text
  | _ => throw (unsupported ("plan field must be a string: " ++ key))

/-- `value.as_u64()` -/
def asU64 : Value → Option Nat
  | .int number => if 0 ≤ number ∧ number.toNat ≤ U64_MAX then some number.toNat else none
  | _ => none

/-- `required_u64(plan, key)` -/
def requiredU64 (plan : Value) (key : String) : Except Raised Nat := do
  match asU64 (← requiredValue plan key) with
  | some number => return number
  | none => throw (unsupported ("plan field must be a non-negative integer: " ++ key))

/-- `optional_usize(plan, key)` -/
def optionalUsize (plan : Value) (key : String) : Except Raised (Option Nat) :=
  match member key plan with
  | none => .ok none
  | some .null => .ok none
  | some value =>
      match asU64 value with
      | some number => .ok (some number)
      | none => .error (unsupported ("plan field must be a non-negative integer: " ++ key))

/-- `required_array(plan, key)` -/
def requiredArray (plan : Value) (key : String) : Except Raised (List Value) := do
  match ← requiredValue plan key with
  | .list items => return items
  | _ => throw (unsupported ("plan field must be an array: " ++ key))

def columnName : Value → Except Raised String
  | .str name => .ok name
  | _ => .error (unsupported "project columns must be an array of strings")

/-- The column of the first item of an order. -/
def firstColumn (plan : Value) : Except Raised String := do
  match ← requiredArray plan "order_by" with
  | [] => throw (unsupported "top_k requires at least one order_by expression")
  | first :: _ => do
      let expr ← requiredValue first "expr"
      let kind ← requiredStr expr "kind"
      refuse (kind ≠ "column") (unsupported "top_k currently supports column order expressions")
      requiredStr expr "name"

/-- `topk_column(plan)` -/
def topkColumn (plan : Value) : Except Raised String :=
  match member "order_by" plan with
  | some (.str column) => .ok column
  | _ => firstColumn plan

/-- `build_operator(bundle_path, plan)`, as deep as the JSON library reads a text. -/
def buildOperator (bundle : Bundle) : Nat → Value → Except Raised Operator
  | 0, _ => .error (unsupported "invalid Rust execution plan JSON: recursion limit exceeded")
  | depth + 1, plan => do
      match ← requiredStr plan "op" with
      | "node_scan" => do
          let class_iri ← requiredStr plan "class_iri"
          let local_name ← requiredStr plan "local_name"
          return .node_scan (← openNodeStore bundle class_iri local_name)
      | "filter_eq_u64" => do
          let child ← buildOperator bundle depth (← requiredValue plan "input")
          let column ← requiredStr plan "column"
          return .filter child column (← requiredU64 plan "value")
      | "project" => do
          let columns ← (← requiredArray plan "columns").mapM columnName
          return .project (← buildOperator bundle depth (← requiredValue plan "input")) columns
      | "top_k" => do
          let child ← buildOperator bundle depth (← requiredValue plan "input")
          let column ← topkColumn plan
          let skip ← optionalUsize plan "skip"
          return .top_k child column (skip.getD 0) (← optionalUsize plan "limit")
      | "hash_aggregate_count" => do
          return .hash_aggregate (← buildOperator bundle depth (← requiredValue plan "input"))
      | "batch_source_empty" => return .batch_source
      | other => throw (unsupported ("unsupported Rust execution op: " ++ other))

/-- How many arrays and objects of a JSON text may stand inside one another. -/
def RECURSION_LIMIT : Nat := 127

/-- `execute_plan(bundle_path, plan_json, snapshot_lsn)` on the plan's JSON value. -/
def executePlan (bundle : Bundle) (plan : Value) (snapshot_lsn : Option Nat) :
    Except Raised (List Batch) := do
  let operator ← buildOperator bundle RECURSION_LIMIT plan
  executeToBatches operator snapshot_lsn

end CaracalDB.RustPlan
