import CaracalDB.ArrowTable

/-!
# Two readings of a predicate

A predicate of a query is read in two ways: over variable-length paths as a
Python expression on one row, elsewhere as Arrow kernels on whole columns. Python
reads a missing value as a value of its own, which differs from all others, counts
as false and cannot be ordered; the kernels make every result null that depends on
a null.
-/

namespace CaracalDB.Where

inductive Comparison where
  | eq
  | ne
  | lt
  | le
  | gt
  | ge
deriving DecidableEq

inductive Connective where
  | and
  | or
deriving DecidableEq

/-- The truth value that a connective makes of two. -/
def Connective.joins : Connective → Bool → Bool → Bool
  | .and, first, second => first && second
  | .or, first, second => first || second

inductive Operator where
  | comparison (op : Comparison)
  | connective (op : Connective)
deriving DecidableEq

/-- `_BIN_OP_TO_TUPLE` -/
def BIN_OP_TO_TUPLE : List (String × Operator) :=
  [("=", .comparison .eq), ("==", .comparison .eq), ("!=", .comparison .ne),
    ("<>", .comparison .ne), ("<", .comparison .lt), ("<=", .comparison .le),
    (">", .comparison .gt), (">=", .comparison .ge), ("AND", .connective .and),
    ("and", .connective .and), ("&&", .connective .and), ("OR", .connective .or),
    ("or", .connective .or), ("||", .connective .or)]

/-- `_BIN_OP_TO_TUPLE.get(op)` -/
def operatorOf (op : String) : Option Operator :=
  (BIN_OP_TO_TUPLE.find? fun entry => entry.1 = op).map Prod.snd

/-- `op.lower() in ("not", "!")` -/
def isNot (op : String) : Bool := op.toLower ∈ ["not", "!"]

/-- Expressions without lists and with no call but that of `length`. -/
inductive Expr where
  | literal (value : Value)
  | path (root : Option String) (steps : List String)
  | var (name : Option String)
  | length (variable_name : String)
  | binOp (op : String) (left right : Expr)
  | unaryOp (op : String) (operand : Expr)

/-- A column of a batch. -/
structure Column where
  type : DataType
  values : List Value
deriving DecidableEq

/-- What the two evaluators call: Arrow's kernels, and the language's order on values that are
not both numbers or both texts. -/
structure Kernels where
  runtime : Runtime
  /-- `pa.scalar(value).as_py()` -/
  scalar : Value → Except Raised Value
  /-- `pc.equal(left, right)` and so on -/
  compare : Comparison → Column → Column → Except Raised Column
  /-- `pc.and_(left, right)`, `pc.or_(left, right)` -/
  join : Connective → Column → Column → Except Raised Column
  /-- `pc.invert(operand)` -/
  invert : Column → Except Raised Column
  order : Comparison → Value → Value → Except Raised Bool

/-! ## Python values -/

/-- The number that a value is. -/
def number (runtime : Runtime) : Value → Option ℚ
  | .bool flag => some (if flag then 1 else 0)
  | .int value => some value
  | .float text => (runtime.float (.float text)).toOption
  | _ => none

/-- `left == right` -/
def pyEq (runtime : Runtime) (left right : Value) : Bool :=
  match number runtime left, number runtime right with
  | some first, some second => first = second
  | _, _ => left = right && left ≠ .float "nan"

/-- Whether two ordered things compare in a way. -/
def Comparison.holds {Thing : Type} [DecidableEq Thing] [LT Thing]
    [DecidableRel fun first second : Thing => first < second] (op : Comparison)
    (left right : Thing) : Bool :=
  match op with
  | .eq => left = right
  | .ne => left ≠ right
  | .lt => left < right
  | .le => left < right || left = right
  | .gt => right < left
  | .ge => right < left || left = right

/-- `left < right` and so on -/
def pyCompare (runtime : Runtime) (order : Comparison → Value → Value → Except Raised Bool)
    (op : Comparison) (left right : Value) : Except Raised Bool :=
  match op with
  | .eq => .ok (pyEq runtime left right)
  | .ne => .ok (!pyEq runtime left right)
  | op =>
      if left = .null ∨ right = .null then .error (.typeError "unorderable types")
      else match number runtime left, number runtime right with
        | some first, some second => .ok (op.holds first second)
        | _, _ => match left, right with
          | .str first, .str second => .ok (op.holds first second)
          | _, _ => order op left right

def unsupported (message : String) : Raised := .caracal { code := "CDB-6020", message }

/-- `_eval_var_path_value(expr, context)` -/
def evalVarPathValue (k : Kernels) (context : Dict String Row) : Expr → Except Raised Value
  | .literal value => .ok value
  | .path (some root) [step] =>
      match context.get? root with
      | none => .error (unsupported ("unbound variable: " ++ Value.quoted root))
      | some row => .ok (row.read step)
  | .var (some name) => .ok (((context.get? name).map fun row => .dict row.entries).getD .null)
  | .length variable_name =>
      match context.get? variable_name with
      | none => .error (.keyError variable_name)
      | some row => match row.get? "depth" with
        | none => .error (.keyError "depth")
        | some depth => do return .int (← k.runtime.toInt depth)
  | .binOp op left right => do
      let left ← evalVarPathValue k context left
      let right ← evalVarPathValue k context right
      match operatorOf op with
      | some (.comparison op) => return .bool (← pyCompare k.runtime k.order op left right)
      | some (.connective .and) => return .bool (left.truthy && right.truthy)
      | some (.connective .or) => return .bool (left.truthy || right.truthy)
      | none => .error (unsupported ("unsupported operator: " ++ op))
  | .unaryOp op operand =>
      if isNot op then do
        let operand ← evalVarPathValue k context operand
        return .bool !operand.truthy
      else .error (unsupported "unsupported variable-length path predicate: UnaryOp")
  | .path _ _ => .error (unsupported "unsupported variable-length path predicate: PathExpr")
  | .var none => .error (unsupported "unsupported variable-length path predicate: Var")

/-- `_eval_var_path_expr(expr, context)` -/
def evalVarPathExpr (k : Kernels) (context : Dict String Row) (expr : Expr) :
    Except Raised Bool := do
  return (← evalVarPathValue k context expr).truthy

/-! ## Columns -/

/-- The nested tuples that a predicate is translated to. -/
inductive Plan where
  | col (name : String)
  | lit (value : Value)
  | compare (op : Comparison) (left right : Plan)
  | join (op : Connective) (left right : Plan)
  | not (operand : Plan)
deriving DecidableEq

/-- `_translate_expr(expr, alias)` -/
def translateExpr (aliasName : String) : Expr → Except Raised Plan
  | .path (some root) [step] =>
      if root ≠ aliasName then .error (unsupported ("unbound variable: " ++ Value.quoted root ++
        " (alias is " ++ Value.quoted aliasName ++ ")"))
      else .ok (.col step)
  | .path _ _ =>
      .error (unsupported "MVP supports single-step path expressions like alias.field")
  | .var none => .error (unsupported "empty variable")
  | .var (some name) => .ok (.col (if name = aliasName then "nid" else name))
  | .literal value => .ok (.lit value)
  | .length _ => .error (unsupported "unsupported function call: 'length'")
  | .binOp op left right =>
      match operatorOf op with
      | none => .error (unsupported ("unsupported operator: " ++ op))
      | some (.comparison op) => do
          return .compare op (← translateExpr aliasName left) (← translateExpr aliasName right)
      | some (.connective op) => do
          return .join op (← translateExpr aliasName left) (← translateExpr aliasName right)
  | .unaryOp op operand =>
      if isNot op then do
        return .not (← translateExpr aliasName operand)
      else .error (unsupported ("unsupported unary op: " ++ op))

/-- `compile_expr(expr)(batch)` -/
def compileExpr (k : Kernels) (batch : Table) : Plan → Except Raised Column
  | .col name =>
      if name ∈ batch.names then .ok { type := batch.typeOf name, values := batch.column name }
      else .error (.keyError name)
  | .lit value => do
      let scalar ← k.scalar value
      let (type, values) ← k.runtime.array (List.replicate batch.rows.length scalar)
      return { type, values }
  | .compare op left right => do
      k.compare op (← compileExpr k batch left) (← compileExpr k batch right)
  | .join op left right => do
      k.join op (← compileExpr k batch left) (← compileExpr k batch right)
  | .not operand => do
      k.invert (← compileExpr k batch operand)

/-- The mask that `FilterOperator` filters a batch by. -/
def filterMask (k : Kernels) (batch : Table) (aliasName : String) (expr : Expr) :
    Except Raised Column := do
  let mask ← compileExpr k batch (← translateExpr aliasName expr)
  if mask.type = .bool then return mask
  else .error (.arrowError "filter must be boolean")

/-- Whether `FilterOperator` keeps the row at an index. -/
def keepsRow (k : Kernels) (batch : Table) (aliasName : String) (expr : Expr) (index : Nat) :
    Except Raised Bool := do
  return (← filterMask k batch aliasName expr).values[index]? = some (.bool true)

/-! ## Typed predicates -/

/-- Whether a value is one of a column's type. -/
def HasType : DataType → Value → Prop
  | .bool, .bool _ => True
  | .int64, .int _ => True
  | .uint64, .int _ => True
  | .double, .float _ => True
  | .string, .str _ => True
  | _, _ => False

def IsNumber (type : DataType) : Prop := type = .int64 ∨ type = .uint64 ∨ type = .double

/-- Two types whose values the kernels compare: one type, or two types of numbers. -/
def Comparable (left right : DataType) : Prop :=
  (left = right ∧ (left = .bool ∨ left = .string)) ∨ (IsNumber left ∧ IsNumber right)

instance (type : DataType) : Decidable (IsNumber type) :=
  inferInstanceAs (Decidable (_ ∨ _ ∨ _))

instance (left right : DataType) : Decidable (Comparable left right) :=
  inferInstanceAs (Decidable ((_ ∧ _) ∨ _))

/-- A column of a length whose values are nulls or of its type. -/
structure Column.Fits (column : Column) (length : Nat) : Prop where
  length : column.values.length = length
  typed : ∀ value ∈ column.values, value = .null ∨ HasType column.type value

/-- A batch whose values are nulls or of their column's type. -/
def TypedBatch (batch : Table) : Prop :=
  ∀ name ∈ batch.names, ∀ row ∈ batch.rows,
    row.read name = .null ∨ HasType (batch.typeOf name) (row.read name)

/-- An integer that a double can be compared with exactly. -/
def Small : Value → Prop
  | .int number => -2 ^ 53 ≤ number ∧ number ≤ 2 ^ 53
  | _ => True

/-- The type of a predicate's value, if each operand has one that its operator takes. -/
def typeOfExpr (batch : Table) (aliasName : String) : Expr → Option DataType
  | .literal value => value.plainType
  | .path (some root) [step] =>
      if root = aliasName ∧ step ∈ batch.names then some (batch.typeOf step) else none
  | .binOp op left right =>
      match operatorOf op, typeOfExpr batch aliasName left, typeOfExpr batch aliasName right with
      | some (.comparison _), some first, some second =>
          if Comparable first second then some .bool else none
      | some (.connective _), some .bool, some .bool => some .bool
      | _, _, _ => none
  | .unaryOp op operand =>
      if isNot op ∧ typeOfExpr batch aliasName operand = some .bool then some .bool else none
  | _ => none

/-- Whether a literal or a property of the row that occurs is null. -/
def HasNull (row : Row) : Expr → Prop
  | .literal value => value = .null
  | .path (some _) [step] => row.read step = .null
  | .binOp _ left right => HasNull row left ∨ HasNull row right
  | .unaryOp _ operand => HasNull row operand
  | _ => False

instance hasNullDecidable (row : Row) : (expr : Expr) → Decidable (HasNull row expr)
  | .literal value => inferInstanceAs (Decidable (value = .null))
  | .path (some _) [step] => inferInstanceAs (Decidable (row.read step = .null))
  | .path none _ => inferInstanceAs (Decidable False)
  | .path (some _) [] => inferInstanceAs (Decidable False)
  | .path (some _) (_ :: _ :: _) => inferInstanceAs (Decidable False)
  | .var _ => inferInstanceAs (Decidable False)
  | .length _ => inferInstanceAs (Decidable False)
  | .binOp _ left right =>
      haveI := hasNullDecidable row left
      haveI := hasNullDecidable row right
      inferInstanceAs (Decidable (HasNull row left ∨ HasNull row right))
  | .unaryOp _ operand => hasNullDecidable row operand

/-- Whether an operand has no integers beyond the exact range of a double. -/
def SmallOperand (batch : Table) : Expr → Prop
  | .literal value => Small value
  | .path _ [step] => ∀ row ∈ batch.rows, Small (row.read step)
  | _ => True

/-- Numbers of two types are compared within the exact range of a double: Arrow refuses the others. -/
def SmallWhereMixed (batch : Table) (aliasName : String) : Expr → Prop
  | .binOp _ left right =>
      SmallWhereMixed batch aliasName left ∧ SmallWhereMixed batch aliasName right ∧
        (typeOfExpr batch aliasName left = typeOfExpr batch aliasName right ∨
          (SmallOperand batch left ∧ SmallOperand batch right))
  | .unaryOp _ operand => SmallWhereMixed batch aliasName operand
  | _ => True

/-- Whether what a column has at an index, if anything, is null. -/
def NullAt (column : Column) (index : Nat) : Prop :=
  ∀ value, column.values[index]? = some value → value = .null

/-- What the evaluators rely on: literals come back as they are, the kernels compare as the
language does and make null of every null operand. -/
structure Kernels.Lawful (k : Kernels) : Prop where
  literal : ∀ value type count, value.plainType = some type → k.scalar value = .ok value ∧
    k.runtime.array (List.replicate (count + 1) value) =
      .ok (type, List.replicate (count + 1) value)
  nulls : ∀ count scalar type values, k.scalar .null = .ok scalar →
    k.runtime.array (List.replicate count scalar) = .ok (type, values) →
    ∀ value ∈ values, value = .null
  compare : ∀ op (left right : Column) length, Comparable left.type right.type →
    left.Fits length → right.Fits length →
    (left.type = right.type ∨
      ((∀ value ∈ left.values, Small value) ∧ ∀ value ∈ right.values, Small value)) →
    ∃ mask : Column, k.compare op left right = .ok mask ∧ mask.type = .bool ∧ mask.Fits length ∧
      ∀ (index : Nat) (first second : Value), left.values[index]? = some first →
        right.values[index]? = some second → first ≠ .null → second ≠ .null →
        ∃ answer, pyCompare k.runtime k.order op first second = .ok answer ∧
          mask.values[index]? = some (Value.bool answer)
  join : ∀ op (left right : Column) length, left.type = .bool → right.type = .bool →
    left.Fits length → right.Fits length →
    ∃ mask : Column, k.join op left right = .ok mask ∧ mask.type = .bool ∧ mask.Fits length ∧
      ∀ (index : Nat) (first second : Bool), left.values[index]? = some (Value.bool first) →
        right.values[index]? = some (Value.bool second) →
        mask.values[index]? = some (Value.bool (op.joins first second))
  invert : ∀ (operand : Column) length, operand.type = .bool → operand.Fits length →
    ∃ mask : Column, k.invert operand = .ok mask ∧ mask.type = .bool ∧ mask.Fits length ∧
      ∀ (index : Nat) (flag : Bool), operand.values[index]? = some (Value.bool flag) →
        mask.values[index]? = some (Value.bool !flag)
  compare_null : ∀ op left right mask index, k.compare op left right = .ok mask →
    NullAt left index ∨ NullAt right index → NullAt mask index
  join_null : ∀ op left right mask index, k.join op left right = .ok mask →
    NullAt left index ∨ NullAt right index → NullAt mask index
  invert_null : ∀ operand mask index, k.invert operand = .ok mask → NullAt operand index →
    NullAt mask index

section Agreement

variable {k : Kernels} {batch : Table} {aliasName : String} {context : Dict String Row}
  {index : Nat} {row : Row}

/-! ### Nulls -/

/-- A null that occurs makes the value of the whole predicate null. -/
theorem null_propagates (lawful : k.Lawful) (at_ : batch.rows[index]? = some row) (expr : Expr)
    (occurs : HasNull row expr) {plan : Plan} {column : Column}
    (translated : translateExpr aliasName expr = .ok plan)
    (compiled : compileExpr k batch plan = .ok column) : NullAt column index := by
  induction expr generalizing plan column with
  | literal value =>
    have isNull : value = .null := occurs
    subst isNull
    rw [← Except.ok.inj translated] at compiled
    obtain ⟨scalar, scaled, compiled⟩ := except_bind_ok compiled
    obtain ⟨⟨type, values⟩, made, compiled⟩ := except_bind_ok compiled
    rw [← Except.ok.inj compiled]
    intro value found
    exact lawful.nulls _ _ _ _ scaled made value (List.mem_of_getElem? found)
  | path root steps =>
    match root, steps with
    | some root, [step] =>
      have isNull : row.read step = .null := occurs
      rw [translateExpr] at translated
      split at translated
      · cases translated
      · rw [← Except.ok.inj translated, compileExpr] at compiled
        split at compiled
        · rw [← Except.ok.inj compiled]
          intro value found
          rw [Table.column, List.getElem?_map, at_] at found
          exact (Option.some.inj found).symm.trans isNull
        · cases compiled
    | none, _ => exact occurs.elim
    | some _, [] => exact occurs.elim
    | some _, _ :: _ :: _ => exact occurs.elim
  | var name => exact occurs.elim
  | length name => exact occurs.elim
  | binOp op left right leftHypothesis rightHypothesis =>
    rw [translateExpr] at translated
    split at translated
    · cases translated
    · obtain ⟨first, firstTranslated, translated⟩ := except_bind_ok translated
      obtain ⟨second, secondTranslated, translated⟩ := except_bind_ok translated
      rw [← Except.ok.inj translated] at compiled
      obtain ⟨firstColumn, firstCompiled, compiled⟩ := except_bind_ok compiled
      obtain ⟨secondColumn, secondCompiled, compiled⟩ := except_bind_ok compiled
      refine lawful.compare_null _ _ _ _ index compiled ?_
      rcases occurs with inLeft | inRight
      · exact Or.inl (leftHypothesis inLeft firstTranslated firstCompiled)
      · exact Or.inr (rightHypothesis inRight secondTranslated secondCompiled)
    · obtain ⟨first, firstTranslated, translated⟩ := except_bind_ok translated
      obtain ⟨second, secondTranslated, translated⟩ := except_bind_ok translated
      rw [← Except.ok.inj translated] at compiled
      obtain ⟨firstColumn, firstCompiled, compiled⟩ := except_bind_ok compiled
      obtain ⟨secondColumn, secondCompiled, compiled⟩ := except_bind_ok compiled
      refine lawful.join_null _ _ _ _ index compiled ?_
      rcases occurs with inLeft | inRight
      · exact Or.inl (leftHypothesis inLeft firstTranslated firstCompiled)
      · exact Or.inr (rightHypothesis inRight secondTranslated secondCompiled)
  | unaryOp op operand inductionHypothesis =>
    rw [translateExpr] at translated
    split at translated
    · obtain ⟨inner, innerTranslated, translated⟩ := except_bind_ok translated
      rw [← Except.ok.inj translated] at compiled
      obtain ⟨innerColumn, innerCompiled, compiled⟩ := except_bind_ok compiled
      exact lawful.invert_null _ _ index compiled
        (inductionHypothesis occurs innerTranslated innerCompiled)
    · cases translated

/-- A row on which a null occurs is not kept. -/
theorem null_not_kept (lawful : k.Lawful) (at_ : batch.rows[index]? = some row) (expr : Expr)
    (occurs : HasNull row expr) : keepsRow k batch aliasName expr index ≠ .ok true := by
  intro kept
  obtain ⟨mask, masked, kept⟩ := except_bind_ok kept
  obtain ⟨plan, translated, masked⟩ := except_bind_ok masked
  obtain ⟨column, compiled, masked⟩ := except_bind_ok masked
  split at masked
  · cases masked
    have isTrue := of_decide_eq_true (Except.ok.inj kept)
    have isNull := null_propagates lawful at_ expr occurs translated compiled _ isTrue
    cases isNull
  · cases masked

/-! ### No nulls -/

/-- What both evaluators make of an expression at a row: the same value of a type. -/
structure Same (k : Kernels) (batch : Table) (aliasName : String) (context : Dict String Row)
    (index : Nat) (expr : Expr) (type : DataType) (value : Value) (column : Column) : Prop where
  python : evalVarPathValue k context expr = .ok value
  typed : HasType type value
  columns : ∃ plan, translateExpr aliasName expr = .ok plan ∧ compileExpr k batch plan = .ok column
  type_eq : column.type = type
  fits : column.Fits batch.rows.length
  found : column.values[index]? = some value

theorem HasType.present {type : DataType} {value : Value} (typed : HasType type value) :
    value ≠ .null := by
  rintro rfl
  cases type <;> exact typed

theorem HasType.of_bool {value : Value} (typed : HasType .bool value) :
    ∃ flag, value = .bool flag := by
  cases value <;> first | exact typed.elim | exact ⟨_, rfl⟩

theorem hasType_plainType {value : Value} {type : DataType} (plain : value.plainType = some type) :
    HasType type value := by
  cases value <;> simp only [Value.plainType] at plain
  case int number =>
    split at plain
    · cases plain
      trivial
    · cases plain
  all_goals first | cases plain; trivial | cases plain

theorem HasType.small {value : Value} (typed : value = .null ∨ HasType .bool value) :
    Small value := by
  rcases typed with rfl | isBool
  · trivial
  · obtain ⟨flag, rfl⟩ := isBool.of_bool
    trivial

/-- The column of an operand has only small integers if the operand has. -/
theorem small_column (lawful : k.Lawful) {expr : Expr} {type : DataType} {value : Value}
    {column : Column} (same : Same k batch aliasName context index expr type value column)
    (inside : index < batch.rows.length) (typed : typeOfExpr batch aliasName expr = some type)
    (small : SmallOperand batch expr) : ∀ value ∈ column.values, Small value := by
  obtain ⟨plan, translated, compiled⟩ := same.columns
  have ofBool : type = .bool → ∀ value ∈ column.values, Small value := by
    rintro rfl other member
    exact HasType.small (same.type_eq ▸ same.fits.typed other member)
  cases expr with
  | literal given =>
    rw [← Except.ok.inj translated, compileExpr] at compiled
    obtain ⟨count, length⟩ : ∃ count, batch.rows.length = count + 1 :=
      Nat.exists_eq_succ_of_ne_zero (Nat.ne_of_gt (Nat.zero_lt_of_lt inside))
    obtain ⟨scaled, made⟩ := lawful.literal given type count typed
    rw [scaled, ok_bind, length, made] at compiled
    rw [← Except.ok.inj compiled]
    intro other member
    rw [List.eq_of_mem_replicate member]
    exact small
  | path root steps =>
    match root, steps with
    | some root, [step] =>
      rw [translateExpr] at translated
      split at translated
      · cases translated
      · rw [← Except.ok.inj translated, compileExpr] at compiled
        split at compiled
        · rw [← Except.ok.inj compiled]
          intro other member
          obtain ⟨among, inRows, rfl⟩ := List.mem_map.mp member
          exact small among inRows
        · cases compiled
    | none, _ => cases typed
    | some _, [] => cases typed
    | some _, _ :: _ :: _ => cases typed
  | var name => cases typed
  | length name => cases typed
  | binOp op left right =>
    apply ofBool
    rw [typeOfExpr] at typed
    split at typed
    · split at typed <;> cases typed
      rfl
    · cases typed
      rfl
    · cases typed
  | unaryOp op operand =>
    apply ofBool
    rw [typeOfExpr] at typed
    split at typed <;> cases typed
    rfl

/-- A typed expression without nulls has the same value for both evaluators. -/
theorem same_value (lawful : k.Lawful) (typedBatch : TypedBatch batch)
    (at_ : batch.rows[index]? = some row) (inContext : context.get? aliasName = some row)
    (expr : Expr) {type : DataType} (typed : typeOfExpr batch aliasName expr = some type)
    (nullFree : ¬ HasNull row expr) (small : SmallWhereMixed batch aliasName expr) :
    ∃ value column, Same k batch aliasName context index expr type value column := by
  have inRows : row ∈ batch.rows := List.mem_of_getElem? at_
  induction expr generalizing type with
  | literal value =>
    obtain ⟨count, length⟩ : ∃ count, batch.rows.length = count + 1 :=
      Nat.exists_eq_succ_of_ne_zero (Nat.ne_of_gt (List.length_pos_of_mem inRows))
    obtain ⟨scaled, made⟩ := lawful.literal value type count typed
    have hasType := hasType_plainType typed
    refine ⟨value, { type, values := List.replicate (count + 1) value }, rfl, hasType,
      ⟨_, rfl, ?_⟩, rfl, ⟨?_, ?_⟩, ?_⟩
    · rw [compileExpr, scaled, ok_bind, length, made]
      rfl
    · rw [List.length_replicate, length]
    · intro other member
      rw [List.eq_of_mem_replicate member]
      exact Or.inr hasType
    · have inside : index < batch.rows.length := (List.getElem?_eq_some_iff.mp at_).1
      rw [List.getElem?_replicate, if_pos (length ▸ inside)]
  | path root steps =>
    match root, steps with
    | some root, [step] =>
      rw [typeOfExpr] at typed
      split at typed
      · next bound =>
        obtain ⟨rfl, named⟩ := bound
        cases typed
        have present : row.read step ≠ .null := nullFree
        refine ⟨row.read step, { type := batch.typeOf step, values := batch.column step }, ?_,
          (typedBatch step named row inRows).resolve_left present, ⟨.col step, ?_, ?_⟩, rfl,
          ⟨?_, ?_⟩, ?_⟩
        · rw [evalVarPathValue, inContext]
        · rw [translateExpr, if_neg (not_not_intro rfl)]
        · rw [compileExpr, if_pos named]
        · exact List.length_map _
        · intro value member
          obtain ⟨other, among, rfl⟩ := List.mem_map.mp member
          exact typedBatch step named other among
        · rw [Table.column, List.getElem?_map, at_]
          rfl
      · cases typed
    | none, _ => cases typed
    | some _, [] => cases typed
    | some _, _ :: _ :: _ => cases typed
  | var name => cases typed
  | length name => cases typed
  | binOp op left right leftHypothesis rightHypothesis =>
    rw [HasNull, not_or] at nullFree
    obtain ⟨smallLeft, smallRight, mixed⟩ := small
    rw [typeOfExpr] at typed
    split at typed
    · next comparison first second isOp firstTyped secondTyped =>
      split at typed
      · next comparable =>
        cases typed
        obtain ⟨a, columnA, sameA⟩ := leftHypothesis firstTyped nullFree.1 smallLeft
        obtain ⟨b, columnB, sameB⟩ := rightHypothesis secondTyped nullFree.2 smallRight
        obtain ⟨planA, translatedA, compiledA⟩ := sameA.columns
        obtain ⟨planB, translatedB, compiledB⟩ := sameB.columns
        have inside : index < batch.rows.length := (List.getElem?_eq_some_iff.mp at_).1
        have exact_ : columnA.type = columnB.type ∨ ((∀ value ∈ columnA.values, Small value) ∧
            ∀ value ∈ columnB.values, Small value) := by
          rw [sameA.type_eq, sameB.type_eq]
          rw [firstTyped, secondTyped, Option.some.injEq] at mixed
          exact mixed.imp_right fun both =>
            ⟨small_column lawful sameA inside firstTyped both.1,
              small_column lawful sameB inside secondTyped both.2⟩
        obtain ⟨mask, compared, isBool, fits, each⟩ := lawful.compare comparison columnA columnB
          batch.rows.length (by rw [sameA.type_eq, sameB.type_eq]; exact comparable)
          sameA.fits sameB.fits exact_
        obtain ⟨answer, answered, found⟩ := each index a b sameA.found sameB.found
          sameA.typed.present sameB.typed.present
        refine ⟨.bool answer, mask, ?_, trivial, ⟨.compare comparison planA planB, ?_, ?_⟩, isBool,
          fits, found⟩
        · rw [evalVarPathValue, sameA.python, ok_bind, sameB.python, ok_bind, isOp]
          dsimp only
          rw [answered]
          rfl
        · rw [translateExpr, isOp]
          dsimp only
          rw [translatedA, translatedB]
          rfl
        · rw [compileExpr, compiledA, ok_bind, compiledB]
          exact compared
      · cases typed
    · next connective isOp firstTyped secondTyped =>
      cases typed
      obtain ⟨a, columnA, sameA⟩ := leftHypothesis firstTyped nullFree.1 smallLeft
      obtain ⟨b, columnB, sameB⟩ := rightHypothesis secondTyped nullFree.2 smallRight
      obtain ⟨planA, translatedA, compiledA⟩ := sameA.columns
      obtain ⟨planB, translatedB, compiledB⟩ := sameB.columns
      obtain ⟨mask, joined, isBool, fits, each⟩ := lawful.join connective columnA columnB
        batch.rows.length sameA.type_eq sameB.type_eq sameA.fits sameB.fits
      obtain ⟨first, rfl⟩ := sameA.typed.of_bool
      obtain ⟨second, rfl⟩ := sameB.typed.of_bool
      have found := each index first second sameA.found sameB.found
      refine ⟨.bool (connective.joins first second), mask, ?_, trivial,
        ⟨.join connective planA planB, ?_, ?_⟩, isBool, fits, found⟩
      · rw [evalVarPathValue, sameA.python, ok_bind, sameB.python, ok_bind, isOp]
        cases connective <;> rfl
      · rw [translateExpr, isOp]
        dsimp only
        rw [translatedA, translatedB]
        rfl
      · rw [compileExpr, compiledA, ok_bind, compiledB]
        exact joined
    · cases typed
  | unaryOp op operand inductionHypothesis =>
    rw [typeOfExpr] at typed
    split at typed
    · next negates =>
      cases typed
      obtain ⟨value, column, same⟩ := inductionHypothesis negates.2 nullFree small
      obtain ⟨plan, translated, compiled⟩ := same.columns
      obtain ⟨mask, inverted, isBool, fits, each⟩ := lawful.invert column batch.rows.length
        same.type_eq same.fits
      obtain ⟨flag, rfl⟩ := same.typed.of_bool
      refine ⟨.bool !flag, mask, ?_, trivial, ⟨.not plan, ?_, ?_⟩, isBool, fits,
        each index flag same.found⟩
      · rw [evalVarPathValue, if_pos negates.1, same.python]
        rfl
      · rw [translateExpr, if_pos negates.1, translated]
        rfl
      · rw [compileExpr, compiled]
        exact inverted
    · cases typed

/-- On a predicate whose operands have the types that its operators take, the two evaluators agree
on every row without nulls among its operands. Where a null is among them the columns drop the row,
so they agree exactly where the value of the other evaluator is false. -/
theorem evaluators_agree (lawful : k.Lawful) (typedBatch : TypedBatch batch)
    (at_ : batch.rows[index]? = some row) (inContext : context.get? aliasName = some row)
    (expr : Expr) (typed : typeOfExpr batch aliasName expr = some .bool)
    (small : SmallWhereMixed batch aliasName expr) :
    (¬ HasNull row expr → ∃ answer, evalVarPathExpr k context expr = .ok answer ∧
      (answer = true ↔ keepsRow k batch aliasName expr index = .ok true)) ∧
    (HasNull row expr → ((∃ answer, evalVarPathExpr k context expr = .ok answer ∧
      (answer = true ↔ keepsRow k batch aliasName expr index = .ok true)) ↔
        evalVarPathExpr k context expr = .ok false)) := by
  constructor
  · intro nullFree
    obtain ⟨value, column, same⟩ :=
      same_value lawful typedBatch at_ inContext expr typed nullFree small
    obtain ⟨flag, rfl⟩ := same.typed.of_bool
    obtain ⟨plan, translated, compiled⟩ := same.columns
    refine ⟨flag, ?_, ?_⟩
    · rw [evalVarPathExpr, same.python]
      rfl
    · have kept : keepsRow k batch aliasName expr index = .ok (decide (flag = true)) := by
        rw [keepsRow, filterMask, translated, ok_bind, compiled, ok_bind, if_pos same.type_eq]
        show Except.ok (decide (column.values[index]? = some (Value.bool true))) = _
        rw [same.found]
        cases flag <;> rfl
      rw [kept]
      cases flag <;> simp
  · intro occurs
    have dropped : keepsRow k batch aliasName expr index ≠ .ok true :=
      null_not_kept lawful at_ expr occurs
    constructor
    · rintro ⟨answer, answered, agree⟩
      cases answer with
      | true => exact absurd (agree.mp rfl) dropped
      | false => exact answered
    · intro answered
      exact ⟨false, answered, fun absurdity => (by cases absurdity), fun kept =>
        absurd kept dropped⟩

end Agreement

/-! ## Plain kernels -/

/-- What a kernel of two operands makes of two values: null if one is. -/
def strictly (join : Value → Value → Value) (left right : Value) : Value :=
  if left = .null ∨ right = .null then .null else join left right

/-- The value of a comparison, null where there is none. -/
def compared (op : Comparison) (left right : Value) : Value :=
  match pyCompare Runtime.plain (fun _ _ _ => .ok false) op left right with
  | .ok answer => .bool answer
  | .error _ => .null

def joined (op : Connective) : Value → Value → Value
  | .bool first, .bool second => .bool (op.joins first second)
  | _, _ => .null

def inverted : Value → Value
  | .bool flag => .bool !flag
  | _ => .null

/-- A column computed from the values of two, value by value. -/
def zipColumns (join : Value → Value → Value) (left right : Column) : Column :=
  { type := .bool, values := List.zipWith (strictly join) left.values right.values }

/-- The kernels on booleans, integers and texts, with Python's own comparisons. -/
def Kernels.plain : Kernels where
  runtime := Runtime.plain
  scalar := .ok
  compare op left right :=
    if Comparable left.type right.type ∨ left.type = .null ∨ right.type = .null then
      .ok (zipColumns (compared op) left right)
    else .error (.arrowError "no matching kernel")
  join op left right :=
    if left.type = .bool ∧ right.type = .bool then .ok (zipColumns (joined op) left right)
    else .error (.arrowError "no matching kernel")
  invert operand :=
    if operand.type = .bool then .ok { type := .bool, values := operand.values.map inverted }
    else .error (.arrowError "no matching kernel")
  order _ _ _ := .ok false

theorem plain_literal {value : Value} {type : DataType} (plain : value.plainType = some type)
    (count : Nat) : Runtime.plain.array (List.replicate (count + 1) value) =
      .ok (type, List.replicate (count + 1) value) := by
  have present : value ≠ .null := (hasType_plainType plain).present
  have kept : (List.replicate (count + 1) value).filter (· ≠ .null) =
      value :: List.replicate count value := by
    rw [List.filter_eq_self.mpr]
    · rfl
    · intro other member
      rw [List.eq_of_mem_replicate member]
      exact decide_eq_true present
  have inferred : plainColumn (List.replicate (count + 1) value) = .ok type := by
    rw [plainColumn, kept]
    dsimp only
    rw [plain]
    dsimp only
    rw [if_pos]
    rw [List.all_eq_true]
    intro other member
    rw [List.eq_of_mem_replicate member]
    exact decide_eq_true plain
  simp only [Runtime.plain]
  rw [inferred]
  rfl

theorem zipColumns_found {join : Value → Value → Value} {left right : Column} {index : Nat}
    {first second : Value} (inLeft : left.values[index]? = some first)
    (inRight : right.values[index]? = some second) :
    (zipColumns join left right).values[index]? = some (strictly join first second) := by
  rw [zipColumns, List.getElem?_zipWith, inLeft, inRight]

theorem zipColumns_null {join : Value → Value → Value} {left right : Column} {index : Nat}
    (isNull : NullAt left index ∨ NullAt right index) :
    NullAt (zipColumns join left right) index := by
  intro value found
  rw [zipColumns, List.getElem?_zipWith] at found
  split at found
  · next first second inLeft inRight =>
    rw [← Option.some.inj found, strictly, if_pos]
    exact isNull.imp (fun null => null first inLeft) (fun null => null second inRight)
  · cases found

/-- Columns computed from two of a length fit, when what is computed is a truth value or null. -/
theorem zipColumns_fits {join : Value → Value → Value} {left right : Column} {length : Nat}
    (truth : ∀ first second, join first second = .null ∨ HasType .bool (join first second))
    (leftFits : left.Fits length) (rightFits : right.Fits length) :
    (zipColumns join left right).Fits length := by
  constructor
  · rw [zipColumns, List.length_zipWith, leftFits.length, rightFits.length, Nat.min_self]
  · intro value member
    obtain ⟨index, found⟩ := List.getElem?_of_mem member
    rw [zipColumns, List.getElem?_zipWith] at found
    split at found
    · next first second _ _ =>
      rw [← Option.some.inj found, strictly]
      split
      · exact Or.inl rfl
      · exact truth first second
    · cases found

theorem compared_truth (op : Comparison) (first second : Value) :
    compared op first second = .null ∨ HasType .bool (compared op first second) := by
  rw [compared]
  split
  · exact Or.inr trivial
  · exact Or.inl rfl

theorem joined_truth (op : Connective) (first second : Value) :
    joined op first second = .null ∨ HasType .bool (joined op first second) := by
  cases first <;> cases second <;> first | exact Or.inl rfl | exact Or.inr trivial

/-- Values that are present compare. -/
theorem plain_compares (op : Comparison) {first second : Value} (here : first ≠ .null)
    (there : second ≠ .null) :
    ∃ answer, pyCompare Runtime.plain (fun _ _ _ => .ok false) op first second = .ok answer := by
  have absent : ¬ (first = .null ∨ second = .null) := not_or.mpr ⟨here, there⟩
  cases op <;> simp only [pyCompare, if_neg absent] <;> first | exact ⟨_, rfl⟩ | skip
  all_goals
    split
    · exact ⟨_, rfl⟩
    · split <;> exact ⟨_, rfl⟩

theorem Kernels.plain_lawful : Kernels.plain.Lawful where
  literal value type count plain := ⟨rfl, plain_literal plain count⟩
  nulls count scalar type values scaled made value member := by
    rw [← Except.ok.inj scaled] at made
    rw [Runtime.plain_array made] at member
    exact List.eq_of_mem_replicate member
  compare op left right length comparable leftFits rightFits _ := by
    refine ⟨_, if_pos (Or.inl comparable), rfl,
      zipColumns_fits (compared_truth op) leftFits rightFits, ?_⟩
    intro index first second inLeft inRight here there
    obtain ⟨answer, answered⟩ := plain_compares op here there
    refine ⟨answer, answered, ?_⟩
    rw [zipColumns_found inLeft inRight, strictly, if_neg (not_or.mpr ⟨here, there⟩), compared,
      answered]
  join op left right length leftBool rightBool leftFits rightFits := by
    refine ⟨_, if_pos ⟨leftBool, rightBool⟩, rfl,
      zipColumns_fits (joined_truth op) leftFits rightFits, ?_⟩
    intro index first second inLeft inRight
    rw [zipColumns_found inLeft inRight]
    rfl
  invert operand length isBool fits := by
    refine ⟨_, if_pos isBool, rfl, ⟨?_, ?_⟩, ?_⟩
    · rw [List.length_map, fits.length]
    · intro value member
      obtain ⟨other, _, rfl⟩ := List.mem_map.mp member
      cases other <;> first | exact Or.inl rfl | exact Or.inr trivial
    · intro index flag found
      rw [List.getElem?_map, found]
      rfl
  compare_null op left right mask index made isNull := by
    simp only [Kernels.plain] at made
    split at made
    · rw [← Except.ok.inj made]
      exact zipColumns_null isNull
    · cases made
  join_null op left right mask index made isNull := by
    simp only [Kernels.plain] at made
    split at made
    · rw [← Except.ok.inj made]
      exact zipColumns_null isNull
    · cases made
  invert_null operand mask index made isNull := by
    simp only [Kernels.plain] at made
    split at made
    · rw [← Except.ok.inj made]
      intro value found
      rw [List.getElem?_map, Option.map_eq_some_iff] at found
      obtain ⟨other, inOperand, rfl⟩ := found
      rw [isNull other inOperand]
      rfl
    · cases made

/-! ## Two persons, one of unknown age -/

/-- `n.age <op> <age> AND NOT n.name = 'bob'` -/
def personExpr (op : String) (age : Int) : Expr :=
  .binOp "AND" (.binOp op (.path (some "n") ["age"]) (.literal (.int age)))
    (.unaryOp "NOT" (.binOp "=" (.path (some "n") ["name"]) (.literal (.str "bob"))))

def personRow (name : String) (age : Value) : Row :=
  Row.ofFunction ["name", "age"] (by decide) fun column =>
    if column = "name" then .str name else age

def persons : Table where
  fields := [{ name := "name", type := .string }, { name := "age", type := .int64 }]
  rows := [personRow "ada" (.int 30), personRow "cy" .null]
  distinct := by decide
  aligned := by decide +kernel

theorem persons_typed : TypedBatch persons := by
  intro name named row member
  have columns : name = "name" ∨ name = "age" := by simpa [Table.names, persons] using named
  have rows : row = personRow "ada" (.int 30) ∨ row = personRow "cy" .null := by
    simpa [persons] using member
  rcases columns with rfl | rfl <;> rcases rows with rfl | rfl
  · exact Or.inr trivial
  · exact Or.inr trivial
  · exact Or.inr trivial
  · exact Or.inl rfl

/-- Both evaluators agree on the person whose age is known. -/
theorem agree_on_known_age :
    ∃ answer, evalVarPathExpr Kernels.plain
        (Dict.ofEntries [("n", personRow "ada" (.int 30))]) (personExpr ">=" 18) = .ok answer ∧
      (answer = true ↔ keepsRow Kernels.plain persons "n" (personExpr ">=" 18) 0 = .ok true) := by
  have known : ¬ HasNull (personRow "ada" (.int 30)) (personExpr ">=" 18) := by decide +kernel
  refine (evaluators_agree Kernels.plain_lawful persons_typed rfl (by decide +kernel)
    (personExpr ">=" 18) (by decide +kernel) ?_).1 known
  exact ⟨⟨trivial, trivial, Or.inl (by decide +kernel)⟩,
    ⟨trivial, trivial, Or.inl (by decide +kernel)⟩, Or.inl (by decide +kernel)⟩

/-- On an unknown age the rows of a path differ from a number and cannot be ordered, while the
columns drop both. -/
theorem null_splits_evaluators :
    evalVarPathExpr Kernels.plain (Dict.ofEntries [("n", personRow "cy" .null)])
        (personExpr "<>" 18) = .ok true ∧
      evalVarPathExpr Kernels.plain (Dict.ofEntries [("n", personRow "cy" .null)])
        (personExpr "<" 18) = .error (.typeError "unorderable types") ∧
      keepsRow Kernels.plain persons "n" (personExpr "<>" 18) 1 = .ok false := by
  refine ⟨?_, ?_, ?_⟩ <;> decide +kernel

end CaracalDB.Where
