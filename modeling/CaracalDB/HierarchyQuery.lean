import CaracalDB.ClassHierarchy
import CaracalDB.WhereExpr

/-!
# Queries over a class and those below it

A query for the nodes of one class may demand that the class of a node descends
from another. The demand is taken out of the predicate; what remains filters the
rows of the stores of all classes below the first one, provided that this one
descends from the other.
-/

namespace CaracalDB.Hierarchy

open Where

/-! ## Syntax -/

/-- An argument of a function. -/
inductive Argument where
  | path (root : Option String) (steps : List String)
  | literal (value : Value)
  /-- A list, if all its items are constant. -/
  | list (items : Option (List Value))
  | other (kind : String)

/-- `ta.Expr` -/
inductive Expr where
  | path (root : Option String) (steps : List String)
  | var (name : Option String)
  | literal (value : Value)
  | list (items : Option (List Value))
  | iri (value : String)
  | qname (value : String)
  | call (name : Option String) (args : List Argument)
  | binOp (op : String) (left right : Expr)
  | unaryOp (op : String) (operand : Expr)
  | other (kind : String)

/-- `ta.Iri | ta.QName` -/
inductive NameRef where
  | iri (value : String)
  | qname (value : String)

/-- `MATCH (alias:label) WHERE predicate RETURN projection, more`, under prefixes. -/
structure NodeQuery where
  prefixes : List (String × String)
  label : NameRef
  alias_name : Option String
  predicate : Option Expr
  projection : Expr × Option String
  more : List (Expr × Option String)

def NodeQuery.projections (query : NodeQuery) : List (Expr × Option String) :=
  query.projection :: query.more

/-- `elem.var.name if elem.var is not None else "n"` -/
def NodeQuery.aliasName (query : NodeQuery) : String := query.alias_name.getD "n"

/-! ## Compiling -/

/-- The nested tuples. -/
inductive Plan where
  | col (name : String)
  | lit (value : Value)
  | compare (op : Comparison) (left right : Plan)
  | join (op : Connective) (left right : Plan)
  | not (operand : Plan)
  | py_binary (function : String) (left right : Plan)

/-- `qvalue.split(":", 1)` of a text with a colon. -/
def splitColon (text : String) : Option (String × String) :=
  match text.toList.span (· ≠ ':') with
  | (_, []) => none
  | (before, _ :: after) => some (String.ofList before, String.ofList after)

/-- `_expand(name, query)` -/
def expand (prefixes : List (String × String)) : NameRef → String
  | .iri value => value
  | .qname value =>
      match splitColon value with
      | none => value
      | some (before, after) =>
          match prefixes.find? fun decl => decl.1 = before with
          | none => value
          | some decl => decl.2 ++ after

/-- `_resolve_class(catalog, iri_or_local)` -/
def resolveClass (catalog : Catalog) (iri_or_local : String) : Except Raised Definition :=
  match (catalog.classes.by_iri iri_or_local).or (catalog.classes.by_name iri_or_local) with
  | some cls => .ok cls
  | none => raiseCaracal "CDB-6021"
      ("class not found in catalog: " ++ Value.quoted iri_or_local)

/-- `_is_alias_class_path(expr, alias)` -/
def isAliasClassPath (aliasName : String) : Expr → Bool
  | .path (some root) [step] => root = aliasName && step = "class"
  | _ => false

/-- `left or right` of two optional texts. -/
def orText (left right : Option String) : Option String :=
  match left with
  | none => right
  | some text => if text = "" then right else some text

/-- What remains of the two sides of an AND. -/
def joinRemaining : Option Expr → Option Expr → Option Expr
  | none, none => none
  | some left, none => some left
  | none, some right => some right
  | some left, some right => some (.binOp "AND" left right)

/-- `op.lower() == "and"` -/
def isAnd (op : String) : Bool := op.toList.map Char.toLower = "and".toList

/-- The IRI that the right operand of SUBCLASSOF* names. -/
def demandedIri (prefixes : List (String × String)) : Expr → Except Raised String
  | .iri value => .ok value
  | .qname value => .ok (expand prefixes (.qname value))
  | _ => .error (unsupported
      "SUBCLASSOF* currently requires an IRI or qualified class name on the right")

/-- `_extract_subclassof_predicate(expr, alias, query)` -/
def extractSubclassof (prefixes : List (String × String)) (aliasName : String) :
    Expr → Except Raised (Option String × Option Expr)
  | .binOp op left right =>
      if isAnd op then do
        let (left_base, left_remaining) ← extractSubclassof prefixes aliasName left
        let (right_base, right_remaining) ← extractSubclassof prefixes aliasName right
        refuse (left_base.isSome ∧ right_base.isSome)
          (unsupported "only one SUBCLASSOF* predicate is supported in a query")
        return (orText left_base right_base, joinRemaining left_remaining right_remaining)
      else if op = "SUBCLASSOF*" then
        if isAliasClassPath aliasName left then do
          return (some (← demandedIri prefixes right), none)
        else .error (unsupported
          "SUBCLASSOF* currently requires the left operand to be alias.class")
      else .ok (none, some (.binOp op left right))
  | expr => .ok (none, some expr)

/-- `("lit", [_literal_expr_value(item) for item in expr.items])` -/
def listPlan : Option (List Value) → Except Raised Plan
  | some items => .ok (.lit (.list items))
  | none => .error (unsupported "list literals in expressions must be constant")

/-- `_walk_scalar_fn_arg(expr, aliases)` -/
def walkScalarFnArg (aliasName : String) : Argument → Except Raised Plan
  | .path (some root) [step] =>
      if root = aliasName then .ok (.col step)
      else .error (unsupported ("unbound variable: " ++ Value.quoted root))
  | .path _ _ => .error (unsupported "function args require alias.field")
  | .literal value => .ok (.lit value)
  | .list items => listPlan items
  | .other kind => .error (unsupported ("unsupported function argument: " ++ kind))

def VECTOR_FUNCTIONS : List String :=
  ["cosine_similarity", "cosine_distance", "dot_product", "l2_distance"]

/-- `_compile_scalar_fncall(expr, {alias})` -/
def compileScalarFncall (aliasName : String) (name : Option String) (args : List Argument) :
    Except Raised Plan :=
  match name with
  | none => .error (unsupported "function call is missing a name")
  | some fn_name =>
      if fn_name ∉ VECTOR_FUNCTIONS then
        .error (unsupported ("unsupported function call: " ++ Value.quoted fn_name))
      else match args with
        | [left, right] => do
            return .py_binary fn_name (← walkScalarFnArg aliasName left)
              (← walkScalarFnArg aliasName right)
        | _ => .error (unsupported (fn_name ++ "() takes exactly two arguments"))

/-- `_translate_expr(expr, alias)` -/
def translate (aliasName : String) : Expr → Except Raised Plan
  | .path (some root) [step] =>
      if root = aliasName then .ok (.col step)
      else .error (unsupported ("unbound variable: " ++ Value.quoted root ++ " (alias is " ++
        Value.quoted aliasName ++ ")"))
  | .path _ _ =>
      .error (unsupported "MVP supports single-step path expressions like alias.field")
  | .var none => .error (unsupported "empty variable")
  | .var (some name) => .ok (.col (if name = aliasName then "nid" else name))
  | .literal value => .ok (.lit value)
  | .list items => listPlan items
  | .call name args => compileScalarFncall aliasName name args
  | .binOp op left right =>
      match operatorOf op with
      | none => .error (unsupported ("unsupported operator: " ++ op))
      | some (.comparison op) => do
          return .compare op (← translate aliasName left) (← translate aliasName right)
      | some (.connective op) => do
          return .join op (← translate aliasName left) (← translate aliasName right)
  | .unaryOp op operand =>
      if isNot op then do
        return .not (← translate aliasName operand)
      else .error (unsupported ("unsupported unary op: " ++ op))
  | .iri _ => .error (unsupported "unsupported expression node: Iri")
  | .qname _ => .error (unsupported "unsupported expression node: QName")
  | .other kind => .error (unsupported ("unsupported expression node: " ++ kind))

/-- `_collect_cols(expr)` -/
def collectCols : Plan → List String
  | .col name => [name]
  | .lit _ => []
  | .compare _ left right => collectCols left ++ collectCols right
  | .join _ left right => collectCols left ++ collectCols right
  | .not operand => collectCols operand
  | .py_binary _ left right => collectCols left ++ collectCols right

/-- `_default_alias(expr, alias)` -/
def defaultAlias : Expr → String
  | .path (some _) [step] => step
  | .var (some name) => name
  | _ => "expr"

/-- `_CompiledQuery`. The columns come sorted in the source; nothing depends on their order. -/
structure CompiledQuery where
  cls : Definition
  columns : List String
  predicate : Option Plan
  projections : List (Plan × String)
  closure_base_iri : Option String

/-- `tuple(sorted(columns_referenced)) or ("nid",)` -/
def columnsOf (predicate : Option Plan) (projections : List (Plan × String)) : List String :=
  match ((projections.flatMap fun projection => collectCols projection.1) ++
    (predicate.map collectCols).getD []).dedup with
  | [] => ["nid"]
  | columns => columns

/-- The compiled predicate and projections under a closure base, if there is one. -/
def compileParts (query : NodeQuery) (cls : Definition) (base : Option String)
    (remaining : Option Expr) : Except Raised CompiledQuery := do
  let predicate ← remaining.mapM (translate query.aliasName)
  let projections ← query.projections.mapM fun (expr, out_name) => do
    return (← translate query.aliasName expr, out_name.getD (defaultAlias expr))
  return {
    cls
    columns := columnsOf predicate projections
    predicate
    projections
    closure_base_iri := base }

/-- `_compile_query(query, db)` -/
def compileQuery (catalog : Catalog) (query : NodeQuery) : Except Raised CompiledQuery := do
  let cls ← resolveClass catalog (expand query.prefixes query.label)
  match query.predicate with
  | none => compileParts query cls none none
  | some predicate => do
      let (base, remaining) ← extractSubclassof query.prefixes query.aliasName predicate
      compileParts query cls base remaining

/-! ## Stores -/

/-- A batch of a store or of an answer. -/
structure Batch where
  columns : List (String × Column)
  num_rows : Nat
deriving DecidableEq

/-- `batch.column(name)`, which finds no column under a name that occurs more than once. -/
def Batch.column (batch : Batch) (name : String) : Except Raised Column :=
  match batch.columns.filter fun column => column.1 = name with
  | [found] => .ok found.2
  | _ => .error (.keyError name)

/-- `batch.schema.names` -/
def Batch.names (batch : Batch) : List String := batch.columns.map Prod.fst

/-- `batch.select(names)` -/
def Batch.select (batch : Batch) (names : List String) : Except Raised Batch := do
  let columns ← names.mapM fun name => do return (name, ← batch.column name)
  return { batch with columns }

/-- The values at the places where a mask is true. -/
def keepTrue (mask values : List Value) : List Value :=
  ((values.zip mask).filter fun entry => entry.2 = .bool true).map Prod.fst

/-- `batch.filter(mask)` -/
def Batch.filter (batch : Batch) (mask : Column) : Except Raised Batch :=
  if mask.type = .bool then
    .ok
      { columns := batch.columns.map fun entry =>
          (entry.1, { type := entry.2.type, values := keepTrue mask.values entry.2.values })
        num_rows := (mask.values.filter fun value => value = .bool true).length }
  else .error (.arrowError "filter must be boolean")

/-- The rows of a batch. -/
def Batch.rows (batch : Batch) : List (List (Option Value)) :=
  (List.range batch.num_rows).map fun index =>
    batch.columns.map fun column => column.2.values[index]?

/-- The store of a class with the batches that `store.scan()` gives. -/
structure Stored where
  class_iri : String
  batches : List Batch

structure Graph where
  catalog : Catalog
  /-- The node stores under their local names. -/
  stores : Dict String Stored

/-- What the operators call: Arrow's kernels and the functions on vectors. -/
structure Services where
  kernels : Kernels
  vector : String → Column → Column → Except Raised Column

/-- `compile_expr(expr)(batch)` -/
def compileExpr (services : Services) (batch : Batch) : Plan → Except Raised Column
  | .col name => batch.column name
  | .lit value => do
      let scalar ← services.kernels.scalar value
      let (type, values) ← services.kernels.runtime.array (List.replicate batch.num_rows scalar)
      return { type, values }
  | .compare op left right => do
      services.kernels.compare op (← compileExpr services batch left)
        (← compileExpr services batch right)
  | .join op left right => do
      services.kernels.join op (← compileExpr services batch left)
        (← compileExpr services batch right)
  | .not operand => do
      services.kernels.invert (← compileExpr services batch operand)
  | .py_binary function left right => do
      services.vector function (← compileExpr services batch left)
        (← compileExpr services batch right)

/-- `FilterOperator` on one batch: none when no row passes. -/
def filterBatch (services : Services) (batch : Batch) : Option Plan → Except Raised (Option Batch)
  | none => .ok (some batch)
  | some predicate => do
      let filtered ← batch.filter (← compileExpr services batch predicate)
      return if filtered.num_rows = 0 then none else some filtered

/-- `ProjectOperator` on one batch. -/
def projectBatch (services : Services) (projections : List (Plan × String)) (batch : Batch) :
    Except Raised Batch := do
  let columns ← projections.mapM fun projection => do
    return (projection.2, ← compileExpr services batch projection.1)
  return { batch with columns }

/-- Both operators on one batch. -/
def runBatch (services : Services) (plan : CompiledQuery) (batch : Batch) :
    Except Raised (Option Batch) := do
  match ← filterBatch services batch plan.predicate with
  | none => return none
  | some filtered => return some (← projectBatch services plan.projections filtered)

/-- `list(run_pipeline(op, ctx))` over the batches of a scan. -/
def runPipeline (services : Services) (plan : CompiledQuery) (batches : List Batch) :
    Except Raised (List Batch) := do
  return (← batches.mapM (runBatch services plan)).filterMap id

/-- `open_node_store(bundle, class_iri=..., local_name=...)`: none when the store is missing. -/
def openNodeStore (graph : Graph) (class_iri local_name : String) :
    Except Raised (Option Stored) := do
  assertLocalName "CDB-7010" "class" local_name
  match graph.stores.get? local_name with
  | none => return none
  | some store =>
      refuse (store.class_iri ≠ class_iri) (.caracal
        { code := "CDB-7013"
          message := "node store " ++ Value.quoted local_name ++ " class mismatch: expected " ++
            class_iri ++ ", found " ++ store.class_iri })
      return some store

/-- The batches of the store that the local part of an IRI names, if there are any. -/
def classBatches (graph : Graph) (iri : String) : Except Raised (Option (String × List Batch)) := do
  match ← openNodeStore graph iri (localOf iri) with
  | none => return none
  | some store => return if store.batches = [] then none else some (iri, store.batches)

/-- The non-empty stores of the classes with the given IRIs. -/
def perClassBatches (graph : Graph) (iris : List String) :
    Except Raised (List (String × List Batch)) := do
  return (← iris.mapM (classBatches graph)).filterMap id

/-- The names that the first batches of all classes have, among the requested columns. -/
def sharedNames (columns : List String) (per_class : List (String × List Batch)) : List String :=
  match per_class.map fun entry => (entry.2.head?.map Batch.names).getD [] with
  | [] => []
  | first :: rest =>
      (rest.foldl (fun shared names => shared.filter fun name => name ∈ names) first).filter
        fun name => name ∈ columns

/-- `pa.array([iri] * num_rows, type=pa.string())` -/
def classColumn (iri : String) (num_rows : Nat) : Column where
  type := .string
  values := List.replicate num_rows (.str iri)

/-- `ClosureScanOperator._collect_batches()` -/
def closureScan (graph : Graph) (closure : ClassClosureIndex) (base_iri : String)
    (columns : List String) : Except Raised (List Batch) := do
  let per_class ← perClassBatches graph (← closure.descendantIris base_iri)
  let shared := sharedNames columns per_class
  per_class.flatMap (fun entry => entry.2.map fun batch => (entry.1, batch)) |>.mapM
    fun (iri, batch) => do
      let projected ← batch.select shared
      return { projected with
        columns := projected.columns ++ [("class_iri", classColumn iri batch.num_rows)] }

/-- `_build_pipeline(plan, db)` and the run of the pipeline, in a database without property
indexes. -/
def runQuery (services : Services) (graph : Graph) (plan : CompiledQuery) :
    Except Raised (List Batch) := do
  match plan.closure_base_iri with
  | some base => do
      let closure ← fromCatalog graph.catalog
      if ← closure.isSubclass plan.cls.iri base then do
        let batches ← closureScan graph closure plan.cls.iri plan.columns
        runPipeline services plan batches
      else return []
  | none => do
      refuse (¬ graph.stores.contains plan.cls.localName) (.caracal
        { code := "CDB-6023"
          message := "node store missing for class " ++ Value.quoted plan.cls.iri ++ " (local=" ++
            Value.quoted plan.cls.localName ++ ")" })
      let opened ← openNodeStore graph plan.cls.iri plan.cls.localName
      let batches ← ((opened.map Stored.batches).getD []).mapM fun batch =>
        batch.select plan.columns
      runPipeline services plan batches

/-- `conn.sql(...)` of a query for the nodes of one class. -/
def sql (services : Services) (graph : Graph) (query : NodeQuery) : Except Raised (List Batch) := do
  runQuery services graph (← compileQuery graph.catalog query)

end CaracalDB.Hierarchy
