import CaracalDB.TuftSyntax
import CaracalDB.Dict

/-!
# The type checker of Tuft programs

It computes a type for each expression it reaches and raises where two types do not go
together. Of the statements before, it remembers the class of each variable; names it
resolves with the prefixes as they are at the end of the program. Recorded types of
expressions are left out, since no check reads them.
-/

namespace CaracalDB.Typing

open Onto (TypeKind FieldDef)
open Tuft (NameRef)

/-! ## Types -/

/-- `str.upper` and `str.lower` -/
structure Casing where
  upper : String → String
  lower : String → String

inductive Nullability where
  | REQUIRED | NULLABLE | NULL
deriving DecidableEq

/-- `TuftType`, without the width that is never set. -/
inductive TuftType where
  | mk (kind : TypeKind) (nullable : Nullability) (params : List TuftType)

def TuftType.kind : TuftType → TypeKind
  | .mk kind _ _ => kind

def TuftType.nullable : TuftType → Nullability
  | .mk _ nullable _ => nullable

/-- `TuftType(kind, nullable)` -/
def plain (kind : TypeKind) (nullable : Nullability) : TuftType := .mk kind nullable []

/-- `TuftType(TypeKind.UNKNOWN)` -/
def unknown : TuftType := plain .UNKNOWN .NULLABLE

/-- `kind.name` -/
def kindName : TypeKind → String
  | .UNKNOWN => "UNKNOWN"
  | .BOOL => "BOOL"
  | .INT8 => "INT8"
  | .INT16 => "INT16"
  | .INT32 => "INT32"
  | .INT64 => "INT64"
  | .UINT8 => "UINT8"
  | .UINT16 => "UINT16"
  | .UINT32 => "UINT32"
  | .UINT64 => "UINT64"
  | .FLOAT32 => "FLOAT32"
  | .FLOAT64 => "FLOAT64"
  | .DECIMAL => "DECIMAL"
  | .STRING => "STRING"
  | .BYTES => "BYTES"
  | .DATE => "DATE"
  | .TIME => "TIME"
  | .DATETIME => "DATETIME"
  | .DURATION => "DURATION"
  | .IRI => "IRI"
  | .UUID => "UUID"
  | .NODE => "NODE"
  | .EDGE => "EDGE"
  | .TRIPLE => "TRIPLE"
  | .PATH => "PATH"
  | .SUBGRAPH => "SUBGRAPH"
  | .CLASS => "CLASS"
  | .PROPERTY => "PROPERTY"
  | .EMBEDDING => "EMBEDDING"
  | .ADJACENCY => "ADJACENCY"
  | .LIST => "LIST"
  | .MAP => "MAP"
  | .STRUCT => "STRUCT"
  | .UNION => "UNION"
  | .VECTOR => "VECTOR"
  | .MATRIX => "MATRIX"

/-- `_NUMERIC` -/
def NUMERIC : List TypeKind :=
  [.INT8, .INT16, .INT32, .INT64, .UINT8, .UINT16, .UINT32, .UINT64, .FLOAT32, .FLOAT64, .DECIMAL]

/-- `_TYPE_NAMES` -/
def TYPE_NAMES : List (String × TypeKind) :=
  TypeKind.members.map (fun kind => (kindName kind, kind)) ++
    [("INT", .INT64), ("F32", .FLOAT32), ("F64", .FLOAT64)]

/-- `_promote_numeric` of the kinds. -/
def promotedKind (left right : TypeKind) : TypeKind :=
  if TypeKind.FLOAT64 ∈ [left, right] then .FLOAT64
  else if TypeKind.FLOAT32 ∈ [left, right] then .FLOAT32
  else if TypeKind.DECIMAL ∈ [left, right] then .DECIMAL
  else .INT64

/-- `_nullable_union(*types)` -/
def nullableUnion (types : List TuftType) : Nullability :=
  if types.any (·.nullable = .NULL) then .NULL
  else if types.any (·.nullable = .NULLABLE) then .NULLABLE
  else .REQUIRED

/-- `_can_compare(left, right)`, which looks at the kinds alone. -/
def canCompare (left right : TypeKind) : Bool :=
  if TypeKind.UNKNOWN ∈ [left, right] then true
  else if left = right then true
  else left ∈ NUMERIC && right ∈ NUMERIC

/-- `_numeric_rank(kind)` -/
def numericRank : TypeKind → Nat
  | .INT8 | .UINT8 => 1
  | .INT16 | .UINT16 => 2
  | .INT32 | .UINT32 => 3
  | .INT64 | .UINT64 => 4
  | .FLOAT32 => 5
  | .FLOAT64 => 6
  | .DECIMAL => 7
  | _ => 100

/-- `_is_numeric_widening(actual, expected)` -/
def isNumericWidening (actual expected : TypeKind) : Bool :=
  actual ∈ NUMERIC && expected ∈ NUMERIC && numericRank actual ≤ numericRank expected

/-- `_literal_type(expr)` -/
def literalType : LiteralKind → TuftType
  | .NULL => plain .UNKNOWN .NULL
  | .BOOL => plain .BOOL .REQUIRED
  | .INT => plain .INT64 .REQUIRED
  | .FLOAT => plain .FLOAT64 .REQUIRED
  | .DECIMAL => plain .DECIMAL .REQUIRED
  | .STRING | .TYPED_STRING | .LANG_STRING => plain .STRING .REQUIRED
  | .DATE => plain .DATE .REQUIRED
  | .TIME => plain .TIME .REQUIRED
  | .DATETIME => plain .DATETIME .REQUIRED
  | .DURATION => plain .DURATION .REQUIRED
  | .IRI => plain .IRI .REQUIRED

/-- `type_ref.nullable` -/
def nullableRef : Onto.TypeRef → Bool
  | .mk _ _ _ _ _ _ nullable => nullable

mutual

/-- `_from_catalog_type(type_ref)` -/
def fromCatalogType : Onto.TypeRef → TuftType
  | .mk kind _ params _ _ _ nullable =>
      .mk kind (if nullable then .NULLABLE else .REQUIRED) (fromCatalogTypes params)

def fromCatalogTypes : List Onto.TypeRef → List TuftType
  | [] => []
  | type :: types => fromCatalogType type :: fromCatalogTypes types

end

/-! ## Checks -/

def typeMismatch (message : String) : Raised := .caracal { code := "TF-4001", message }

/-- `_require_numeric(typ)` -/
def requireNumeric (typ : TuftType) : Except Raised Unit :=
  refuse (typ.kind ∉ NUMERIC) (typeMismatch ("expected numeric type, got " ++ kindName typ.kind))

/-- `_require_bool(typ)` -/
def requireBool (typ : TuftType) : Except Raised Unit :=
  refuse (typ.kind ∉ [TypeKind.BOOL, TypeKind.UNKNOWN])
    (typeMismatch ("expected BOOL, got " ++ kindName typ.kind))

/-- `_require_assignable(expected, actual)` -/
def requireAssignable (expected actual : TuftType) : Except Raised Unit :=
  if actual.nullable = .NULL then
    refuse (expected.nullable = .REQUIRED)
      (.caracal { code := "TF-4010", message := "cannot assign NULL to REQUIRED field" })
  else if expected.kind = actual.kind ∨ isNumericWidening actual.kind expected.kind then .ok ()
  else .error (typeMismatch ("type mismatch: expected " ++ kindName expected.kind ++ ", got " ++
    kindName actual.kind))

/-- `_fields_by_name(class_iri)` -/
def fieldsByName (catalog : Onto.Catalog) (class_iri : String) : Dict String FieldDef :=
  match catalog.classes.find? fun cls => cls.iri = class_iri with
  | none => Dict.empty
  | some cls => Dict.ofEntries (cls.fields.map fun field => (field.name, field))

/-- `_is_required(field)` -/
def isRequired (field : FieldDef) : Bool :=
  !nullableRef field.type || field.constraints.any fun constraint => constraint.kind = .REQUIRED

/-- `op in {"+", "-", "*", "/", "%"}` -/
def ARITHMETIC : List String := ["+", "-", "*", "/", "%"]

/-- `op in {"AND", "OR", "XOR"}` -/
def LOGICAL : List String := ["AND", "OR", "XOR"]

/-- `op in {"=", ..., "IS NOT NULL"}` -/
def COMPARISONS : List String :=
  ["=", "!=", "<>", "<", "<=", ">", ">=", "IN", "IS NULL", "IS NOT NULL"]

section Expressions

variable (text : Casing) (catalog : Onto.Catalog) (classes : Dict String String)

/-- `_path_type(expr)` -/
def pathType (root : Option String) (steps : List String) : TuftType :=
  match root, steps with
  | some root, step :: _ =>
      match classes.get? root with
      | none => unknown
      | some class_iri =>
          match (fieldsByName catalog class_iri).get? step with
          | none => unknown
          | some field => fromCatalogType field.type
  | _, _ => unknown

/-- `_from_ast_type(type_ref)` -/
def fromAstType : TypeExpr → TuftType
  | .mk (.text name) _ =>
      plain (((TYPE_NAMES.find? fun entry => entry.1 = text.upper name).map Prod.snd).getD .UNKNOWN)
        .NULLABLE
  | .mk (.ref _) _ => unknown

/-- `_check_expr` of a variable. -/
def varType (name : Option String) : TuftType :=
  match name with
  | some name => if text.lower name = "null" then plain .UNKNOWN .NULL else unknown
  | none => unknown

/-- `_binop_type(expr)`, once the operands have types. -/
def binopType (op : String) (left right : TuftType) : Except Raised TuftType :=
  if text.upper op ∈ ARITHMETIC then do
    requireNumeric left
    requireNumeric right
    return plain (promotedKind left.kind right.kind) (nullableUnion [left, right])
  else if text.upper op ∈ LOGICAL then do
    requireBool left
    requireBool right
    return plain .BOOL (nullableUnion [left, right])
  else if text.upper op ∈ COMPARISONS then do
    refuse (canCompare left.kind right.kind = false)
      (typeMismatch ("type mismatch: cannot compare " ++ kindName left.kind ++ " and " ++
        kindName right.kind))
    return plain .BOOL (nullableUnion [left, right])
  else return unknown

/-- `_check_expr` of a unary operator, once the operand has a type. -/
def unaryType (op : String) (inner : TuftType) : Except Raised TuftType :=
  if text.upper op = "NOT" then do
    requireBool inner
    return plain .BOOL (nullableUnion [inner])
  else if op ∈ ["+", "-"] then do
    requireNumeric inner
    return inner
  else return unknown

mutual

/-- `_check_expr(expr)` -/
def checkExpr : Expr → Except Raised TuftType
  | .literal kind _ => return literalType kind
  | .var name => return varType text name
  | .path root steps => return pathType catalog classes root steps
  | .binOp op left right => do
      let left ← checkOperand left
      let right ← checkOperand right
      binopType text op left right
  | .unaryOp op operand => do
      let inner ← checkOperand operand
      unaryType text op inner
  | .cast expr type_ref => do
      let _ ← checkOperand expr
      return (type_ref.map (fromAstType text)).getD unknown
  | .list items => do
      let item_types ← checkItems items
      return .mk .LIST .NULLABLE [item_types.head?.getD unknown]
  | .fnCall _ _ | .map _ | .subscript _ _ | .other => return unknown

/-- The type of an operand that may be missing. -/
def checkOperand : Option Expr → Except Raised TuftType
  | none => return unknown
  | some expr => checkExpr expr

def checkItems : List Expr → Except Raised (List TuftType)
  | [] => return []
  | item :: items => do
      let type ← checkExpr item
      let types ← checkItems items
      return type :: types

end

/-- `_check_required_props(class_iri, prop_map)` -/
def checkRequiredProps (class_iri : String) (props : PropMap) : Except Raised Unit :=
  (fieldsByName catalog class_iri).values.forM fun field =>
    refuse (isRequired field ∧ field.name ∉ props.entries.map PropEntry.key)
      (.caracal { code := "TF-9501",
                  message := "REQUIRED property `" ++ field.name ++ "` is missing" })

/-- `_check_prop_map(class_iri, prop_map)` -/
def checkPropMap (class_iri : String) (props : PropMap) : Except Raised Unit :=
  props.entries.forM fun entry => do
    let actual ← checkExpr text catalog classes entry.value
    match (fieldsByName catalog class_iri).get? entry.key with
    | none => return ()
    | some field =>
        requireAssignable (fromCatalogType field.type) actual
        refuse (isRequired field ∧ actual.nullable = .NULL)
          (.caracal { code := "TF-9501",
                      message := "REQUIRED property `" ++ entry.key ++ "` cannot be null" })

end Expressions

/-! ## Statements -/

/-- `value.split(":", 1)` of a name with a colon. -/
def splitName (value : String) : Option (String × String) :=
  if ':' ∈ value.toList then
    some (String.ofList (value.toList.takeWhile (· ≠ ':')),
      String.ofList ((value.toList.dropWhile (· ≠ ':')).drop 1))
  else none

/-- `_first_resolved(refs, prefixes)` -/
def firstResolved (refs : List NameRef) (prefixes : Dict String String) : Option String :=
  match refs with
  | [] => none
  | .iri value :: _ => some value
  | .qname value :: _ =>
      match splitName value with
      | none => some ((prefixes.get? "").getD "" ++ value)
      | some (short, name) => some ((prefixes.get? short).getD "" ++ name)

section Statements

variable (text : Casing) (catalog : Onto.Catalog) (prefixes : Dict String String)

/-- One element of `_check_pattern(pattern)`, with the classes of the variables so far. -/
def checkElem (classes : Dict String String) : PatternElem → Except Raised (Dict String String)
  | .node node => do
      let class_iri := firstResolved node.labels prefixes
      let classes := match node.var, class_iri with
        | some name, some class_iri => classes.set name class_iri
        | _, _ => classes
      match class_iri, node.props with
      | some class_iri, some props => do
          checkRequiredProps catalog class_iri props
          checkPropMap text catalog classes class_iri props
          return classes
      | _, _ => return classes
  | .rel rel => do
      rel.props.forM fun props =>
        props.entries.forM fun entry => discard (checkExpr text catalog classes entry.value)
      return classes
  | .path _ => return classes

def checkPattern (classes : Dict String String) (pattern : Pattern) :
    Except Raised (Dict String String) :=
  pattern.elements.foldlM (checkElem text catalog prefixes) classes

/-- `_check_expr` and `_require_bool` of a condition. -/
def checkCondition (classes : Dict String String) (condition : Expr) : Except Raised Unit := do
  requireBool (← checkExpr text catalog classes condition)

/-- One clause of `_check_query(query)`. -/
def checkClause (classes : Dict String String) : Clause → Except Raised (Dict String String)
  | .match_ patterns => patterns.foldlM (checkPattern text catalog prefixes) classes
  | .where_ (some predicate) => do
      checkCondition text catalog classes predicate
      return classes
  | .with_ projections condition => do
      projections.forM fun expr => discard (checkExpr text catalog classes expr)
      condition.forM (checkCondition text catalog classes)
      return classes
  | .return_ projections => do
      projections.forM fun expr => discard (checkExpr text catalog classes expr)
      return classes
  | .where_ none | .call _ | .set _ | .other => return classes

def checkQuery (classes : Dict String String) (query : Query) :
    Except Raised (Dict String String) :=
  query.clauses.foldlM (checkClause text catalog prefixes) classes

/-- `_check_stmt(stmt, prefixes)` -/
def checkStmt (classes : Dict String String) : Stmt → Except Raised (Dict String String)
  | .query (some query) => checkQuery text catalog prefixes classes query
  | .dml stmt => do
      let classes ← stmt.query.elim (.ok classes) (checkQuery text catalog prefixes classes)
      let classes ← stmt.pattern.elim (.ok classes) (checkPattern text catalog prefixes classes)
      stmt.patterns.foldlM (checkPattern text catalog prefixes) classes
  | .query none | .ddl _ | .util _ | .tx => return classes

/-- `check_types(bound, catalog)` of the statements of a bound program and its prefixes. -/
def checkTypes (program : Program) : Except Raised Unit :=
  discard (program.foldlM (checkStmt text catalog prefixes) Dict.empty)

end Statements

end CaracalDB.Typing
