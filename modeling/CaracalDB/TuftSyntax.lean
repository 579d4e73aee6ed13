import CaracalDB.HopRanges
import CaracalDB.CatalogRecords

/-!
# Syntax trees of Tuft programs

What the binder and the type checker read of a program. Kept are the names, the
expressions and the declarations of prefixes; spans, values of literals, aliases and
the parts that neither of them looks at are left out.
-/

namespace CaracalDB.Typing

open Tuft (NameRef)

inductive LiteralKind where
  | BOOL | INT | FLOAT | DECIMAL | STRING | NULL | DATE | TIME | DATETIME | DURATION | IRI
  | TYPED_STRING | LANG_STRING
deriving DecidableEq, Repr

/-- `ta.TypeRef.name`: a text or a name. -/
inductive TypeName where
  | text (name : String)
  | ref (name : NameRef)

/-- `ta.TypeRef`, without the parameters that are numbers. -/
inductive TypeExpr where
  | mk (name : TypeName) (params : List TypeExpr)

/-- `ta.Expr`; `other` stands for `CASE`, `EXISTS` and subqueries. -/
inductive Expr where
  | literal (kind : LiteralKind) (datatype : Option NameRef)
  | var (name : Option String)
  | path (root : Option String) (steps : List String)
  | fnCall (name : Option NameRef) (args : List Expr)
  | binOp (op : String) (left right : Option Expr)
  | unaryOp (op : String) (operand : Option Expr)
  | cast (expr : Option Expr) (type_ref : Option TypeExpr)
  | list (items : List Expr)
  | map (values : List Expr)
  | subscript (target index : Option Expr)
  | other

structure PropEntry where
  key : String
  value : Expr

structure PropMap where
  entries : List PropEntry

structure NodePattern where
  var : Option String := none
  labels : List NameRef := []
  props : Option PropMap := none

structure RelPattern where
  types : List NameRef := []
  props : Option PropMap := none

inductive PatternElem where
  | node (pattern : NodePattern)
  | rel (pattern : RelPattern)
  | path (inner : List PatternElem)

structure Pattern where
  elements : List PatternElem

structure PrefixDecl where
  /-- `decl.prefix` -/
  short : String
  iri : String

/-- `ta.Clause`; `other` stands for those with nothing that is bound or checked. -/
inductive Clause where
  | match_ (patterns : List Pattern)
  | call (function : Option NameRef)
  | set (values : List Expr)
  | where_ (predicate : Option Expr)
  | with_ (projections : List Expr) (condition : Option Expr)
  | return_ (projections : List Expr)
  | other

structure Query where
  clauses : List Clause
  declared : List PrefixDecl := []

/-- A subject or an object of a triple. -/
inductive TripleTerm where
  | expr (value : Expr)
  | ref (name : NameRef)

/-- `ta.TriplePattern`; the predicate `a` is no name. -/
structure TriplePattern where
  subject : TripleTerm
  predicate : Option NameRef
  object : TripleTerm

/-- `ta.DdlStmt`, by its `op`; a target that is an identifier is not bound. -/
inductive DdlStmt where
  | declare (decl : Option PrefixDecl)
  | create_class (target : Option NameRef) (subclasses_of : List NameRef)
  | create_property (target : Option NameRef) (domain : List NameRef) (range : List TypeExpr)
  | create_graph (ontologies : List NameRef)
  | other

/-- `ta.DmlStmt`; `patterns` and `triples` are entries of its payload. -/
structure DmlStmt where
  query : Option Query := none
  pattern : Option Pattern := none
  patterns : List Pattern := []
  triples : List TriplePattern := []

inductive Stmt where
  | ddl (stmt : DdlStmt)
  | dml (stmt : DmlStmt)
  | query (query : Option Query)
  | util (query : Option Query)
  | tx

abbrev Program : Type := List Stmt

end CaracalDB.Typing
