import CaracalDB.TypeChecker

/-!
# Typing rules

The rules give every expression a shape, whether it is well typed or not, and say of
each operator which shapes its operands may have. The checker computes the same kinds
and checks at each operator less than the rules in some places and more in others: it
refuses operands of unknown kind in arithmetic, and of `x IN list` it compares the kind
of `x` with the kind `LIST`.
-/

namespace CaracalDB.Typing

open Onto (TypeKind ClassDef FieldDef)

/-! ## The rules -/

/-- What the rules know of a value: its kind and, of a list, the kinds of its elements. -/
structure Shape where
  kind : TypeKind
  elements : List TypeKind := []

/-- The operators that the rules tell apart. -/
inductive Operator where
  | arithmetic
  | logical
  | comparison
  | membership
  | null_test
  | other
deriving DecidableEq

def operatorOf (op : String) : Operator :=
  if op ∈ ARITHMETIC then .arithmetic
  else if op ∈ LOGICAL then .logical
  else if op ∈ ["=", "!=", "<>", "<", "<=", ">", ">="] then .comparison
  else if op = "IN" then .membership
  else if op ∈ ["IS NULL", "IS NOT NULL"] then .null_test
  else .other

/-- Kinds that can be compared: equal ones, two numeric ones, or an unknown one with any. -/
def Comparable (left right : TypeKind) : Prop :=
  left = .UNKNOWN ∨ right = .UNKNOWN ∨ left = right ∨ (left ∈ NUMERIC ∧ right ∈ NUMERIC)

/-- A kind that arithmetic takes, if the unknown kind is compatible with every type. -/
def Numeric (kind : TypeKind) : Prop := kind ∈ NUMERIC ∨ kind = .UNKNOWN

def Boolean (kind : TypeKind) : Prop := kind = .BOOL ∨ kind = .UNKNOWN

/-- The kind of what an operator makes of two kinds. -/
def Operator.result (left right : TypeKind) : Operator → TypeKind
  | .arithmetic => promotedKind left right
  | .logical | .comparison | .membership | .null_test => .BOOL
  | .other => .UNKNOWN

/-- What the rules say of the operands of an operator. -/
def Operator.Allows (left right : Shape) : Operator → Prop
  | .arithmetic => Numeric left.kind ∧ Numeric right.kind
  | .logical => Boolean left.kind ∧ Boolean right.kind
  | .comparison => Comparable left.kind right.kind
  | .membership => right.kind = .UNKNOWN ∨
      (right.kind = .LIST ∧ ∀ element ∈ right.elements, Comparable left.kind element)
  | .null_test | .other => True

/-- The kind of a type of the catalog, and those of its parameters. -/
def Shape.ofRef : Onto.TypeRef → Shape
  | .mk kind _ params _ _ _ _ => { kind, elements := params.map fun | .mk kind _ _ _ _ _ _ => kind }

section Rules

variable (text : Casing) (catalog : Onto.Catalog) (classes : Dict String String)

/-- The field that a property path reads. -/
def readField (root : Option String) (steps : List String) : Option FieldDef := do
  let class_iri ← classes.get? (← root)
  (fieldsByName catalog class_iri).get? (← steps.head?)

mutual

/-- The shape of an expression. Unknown is what no rule gives a kind to. -/
def shapeOf : Expr → Shape
  | .literal kind _ => { kind := (literalType kind).kind }
  | .path root steps =>
      ((readField catalog classes root steps).map fun field => Shape.ofRef field.type).getD
        { kind := .UNKNOWN }
  | .binOp op left right =>
      { kind := (operatorOf (text.upper op)).result (shapeOfOperand left).kind
          (shapeOfOperand right).kind }
  | .unaryOp op operand =>
      if text.upper op = "NOT" then { kind := .BOOL }
      else if op ∈ ["+", "-"] then shapeOfOperand operand
      else { kind := .UNKNOWN }
  | .cast _ type_ref => { kind := ((type_ref.map (fromAstType text)).getD unknown).kind }
  | .list items => { kind := .LIST, elements := kindsOf items }
  | .var _ | .fnCall _ _ | .map _ | .subscript _ _ | .other => { kind := .UNKNOWN }

def shapeOfOperand : Option Expr → Shape
  | none => { kind := .UNKNOWN }
  | some expr => shapeOf expr

def kindsOf : List Expr → List TypeKind
  | [] => []
  | item :: items => (shapeOf item).kind :: kindsOf items

end

mutual

/-- An expression and the expressions in it. Nothing is said of the arguments of functions, of
maps and of subscripts. -/
def Expr.nodes : Expr → List Expr
  | .binOp op left right => .binOp op left right :: (operandNodes left ++ operandNodes right)
  | .unaryOp op operand => .unaryOp op operand :: operandNodes operand
  | .cast expr type_ref => .cast expr type_ref :: operandNodes expr
  | .list items => .list items :: itemNodes items
  | expr => [expr]

def operandNodes : Option Expr → List Expr
  | none => []
  | some expr => expr.nodes

def itemNodes : List Expr → List Expr
  | [] => []
  | item :: items => item.nodes ++ itemNodes items

end

/-- The operands of an expression are as the rules ask for. -/
def WellTyped : Expr → Prop
  | .binOp op left right => (operatorOf (text.upper op)).Allows
      (shapeOfOperand text catalog classes left) (shapeOfOperand text catalog classes right)
  | .unaryOp op operand =>
      let operand := shapeOfOperand text catalog classes operand
      if text.upper op = "NOT" then Boolean operand.kind
      else if op ∈ ["+", "-"] then Numeric operand.kind
      else True
  | _ => True

end Rules

/-! ## Where the checker differs -/

/-- The checker refuses what the rules allow: an unknown operand of arithmetic, a member that is
no list looked for in a list of its kind, and a null test with a second operand. -/
def Operator.Strict (left right : Shape) : Operator → Prop
  | .arithmetic => Numeric left.kind ∧ Numeric right.kind ∧
      (left.kind = .UNKNOWN ∨ right.kind = .UNKNOWN)
  | .membership => right.kind = .LIST ∧ left.kind ≠ .LIST ∧ left.kind ≠ .UNKNOWN ∧
      ∀ element ∈ right.elements, Comparable left.kind element
  | .null_test => ¬ Comparable left.kind right.kind
  | .logical | .comparison | .other => False

/-- The checker allows what the rules refuse: something comparable in the place of the list, and
a list looked for in a list of something else. -/
def Operator.Lax (left right : Shape) : Operator → Prop
  | .membership =>
      (right.kind ≠ .LIST ∧ right.kind ≠ .UNKNOWN ∧ Comparable left.kind right.kind) ∨
        (right.kind = .LIST ∧ left.kind = .LIST ∧
          ∃ element ∈ right.elements, ¬ Comparable .LIST element)
  | _ => False

section Differences

variable (text : Casing) (catalog : Onto.Catalog) (classes : Dict String String)

def TooStrict : Expr → Prop
  | .binOp op left right => (operatorOf (text.upper op)).Strict
      (shapeOfOperand text catalog classes left) (shapeOfOperand text catalog classes right)
  | .unaryOp op operand => text.upper op ≠ "NOT" ∧ op ∈ ["+", "-"] ∧
      (shapeOfOperand text catalog classes operand).kind = .UNKNOWN
  | _ => False

def TooLax : Expr → Prop
  | .binOp op left right => (operatorOf (text.upper op)).Lax
      (shapeOfOperand text catalog classes left) (shapeOfOperand text catalog classes right)
  | _ => False

/-- Arithmetic, or a sign, with a property path as an operand. -/
def CountsField : Expr → Prop
  | .binOp op left right => operatorOf (text.upper op) = .arithmetic ∧
      ∃ root steps, left = some (.path root steps) ∨ right = some (.path root steps)
  | .unaryOp op operand => text.upper op ≠ "NOT" ∧ op ∈ ["+", "-"] ∧
      ∃ root steps, operand = some (.path root steps)
  | _ => False

end Differences

/-! ## What the checker checks -/

/-- What the checker asks of two operands. -/
def Operator.Accepts (left right : TypeKind) : Operator → Prop
  | .arithmetic => left ∈ NUMERIC ∧ right ∈ NUMERIC
  | .logical => Boolean left ∧ Boolean right
  | .comparison | .membership | .null_test => Comparable left right
  | .other => True

section Checks

variable (text : Casing) (catalog : Onto.Catalog) (classes : Dict String String)

/-- What the checker asks of the operands of an expression. -/
def Passes : Expr → Prop
  | .binOp op left right => (operatorOf (text.upper op)).Accepts
      (shapeOfOperand text catalog classes left).kind
      (shapeOfOperand text catalog classes right).kind
  | .unaryOp op operand =>
      let operand := shapeOfOperand text catalog classes operand
      if text.upper op = "NOT" then Boolean operand.kind
      else if op ∈ ["+", "-"] then operand.kind ∈ NUMERIC
      else True
  | _ => True

end Checks

section Judging

variable {Answer Next : Type}

/-- A call answers rightly where a condition holds, and raises a type mismatch where it does not. -/
def Judges (result : Except Raised Answer) (passes : Prop) (right : Answer → Prop) : Prop :=
  match result with
  | .ok answer => passes ∧ right answer
  | .error raised => ¬ passes ∧ raised.code = some "TF-4001"

theorem Judges.pure {answer : Answer} {right : Answer → Prop} (holds : right answer) :
    Judges (Pure.pure answer) True right := ⟨trivial, holds⟩

theorem Judges.bind {first : Except Raised Answer} {next : Answer → Except Raised Next}
    {passes further : Prop} {right : Answer → Prop} {final : Next → Prop}
    (begins : Judges first passes right)
    (goes : ∀ answer, right answer → Judges (next answer) further final) :
    Judges (first >>= next) (passes ∧ further) final := by
  cases first with
  | error raised => exact ⟨fun both => begins.1 both.1, begins.2⟩
  | ok answer =>
    have later := goes answer begins.2
    change Judges (next answer) (passes ∧ further) final
    cases ends : next answer with
    | error raised =>
      rw [ends] at later
      exact ⟨fun both => later.1 both.2, later.2⟩
    | ok final =>
      rw [ends] at later
      exact ⟨⟨begins.1, later.1⟩, later.2⟩

theorem Judges.congr {result : Except Raised Answer} {passes other : Prop}
    {right : Answer → Prop} (judged : Judges result passes right) (same : passes ↔ other) :
    Judges result other right := by
  cases result with
  | error raised => exact ⟨fun holds => judged.1 (same.mpr holds), judged.2⟩
  | ok answer => exact ⟨same.mp judged.1, judged.2⟩

theorem Judges.refuse {condition passes : Prop} [Decidable condition] (message : String)
    (same : passes ↔ ¬ condition) :
    Judges (CaracalDB.refuse condition (typeMismatch message)) passes fun _ => True := by
  rw [CaracalDB.refuse]
  split
  · next fails => exact ⟨fun holds => same.mp holds fails, rfl⟩
  · next holds => exact ⟨same.mpr holds, trivial⟩

theorem Judges.error_iff {result : Except Raised Answer} {passes : Prop} {right : Answer → Prop}
    (judged : Judges result passes right) :
    (∃ raised, result = .error raised ∧ raised.code = some "TF-4001") ↔ ¬ passes := by
  cases result with
  | error raised => exact ⟨fun _ => judged.1, fun _ => ⟨raised, rfl, judged.2⟩⟩
  | ok answer =>
    constructor
    · rintro ⟨raised, impossible, _⟩
      cases impossible
    · intro fails
      exact absurd judged.1 fails

theorem Judges.ok_iff {result : Except Raised Answer} {passes : Prop} {right : Answer → Prop}
    (judged : Judges result passes right) : (∃ answer, result = .ok answer) ↔ passes := by
  cases result with
  | error raised =>
    constructor
    · rintro ⟨answer, impossible⟩
      cases impossible
    · intro holds
      exact absurd holds judged.1
  | ok answer => exact ⟨fun _ => judged.1, fun _ => ⟨answer, rfl⟩⟩

end Judging

@[simp] theorem unknown_kind : unknown.kind = .UNKNOWN := rfl

@[simp] theorem plain_kind (kind : TypeKind) (nullable : Nullability) :
    (plain kind nullable).kind = kind := rfl

theorem canCompare_iff (left right : TypeKind) :
    canCompare left right = true ↔ Comparable left right := by
  rw [canCompare, Comparable]
  split
  · next unknown =>
    have either : left = .UNKNOWN ∨ right = .UNKNOWN := by
      simpa [eq_comm] using unknown
    simp only [true_iff]
    rcases either with first | second
    · exact .inl first
    · exact .inr (.inl second)
  · next known =>
    have neither : left ≠ .UNKNOWN ∧ right ≠ .UNKNOWN := by
      simpa [eq_comm] using known
    split
    · next same => simp [same]
    · next different => simp [neither, different]

theorem requireNumeric_judges (typ : TuftType) :
    Judges (requireNumeric typ) (typ.kind ∈ NUMERIC) fun _ => True :=
  Judges.refuse _ not_not.symm

theorem requireBool_judges (typ : TuftType) :
    Judges (requireBool typ) (Boolean typ.kind) fun _ => True := by
  apply Judges.refuse
  simp [Boolean, or_iff_not_imp_left]

theorem operatorOf_arithmetic {op : String} (listed : op ∈ ARITHMETIC) :
    operatorOf op = .arithmetic := if_pos listed

theorem operatorOf_logical {op : String} (listed : op ∈ LOGICAL) : operatorOf op = .logical := by
  have other : op ∉ ARITHMETIC := by
    revert op
    decide
  rw [operatorOf, if_neg other, if_pos listed]

/-- The checker treats three kinds of operators as comparisons. -/
theorem operatorOf_compares {op : String} (listed : op ∈ COMPARISONS) :
    operatorOf op = .comparison ∨ operatorOf op = .membership ∨ operatorOf op = .null_test := by
  revert op
  decide

theorem operatorOf_other {op : String} (arithmetic : op ∉ ARITHMETIC) (logical : op ∉ LOGICAL)
    (compares : op ∉ COMPARISONS) : operatorOf op = .other := by
  have parts : op ∉ ["=", "!=", "<>", "<", "<=", ">", ">="] ∧ op ≠ "IN" ∧
      op ∉ ["IS NULL", "IS NOT NULL"] := by
    simpa [COMPARISONS, and_assoc] using compares
  rw [operatorOf, if_neg arithmetic, if_neg logical, if_neg parts.1, if_neg parts.2.1,
    if_neg parts.2.2]

section Trees

variable (text : Casing) (catalog : Onto.Catalog) (classes : Dict String String)

theorem binopType_judges (op : String) (left right : TuftType) :
    Judges (binopType text op left right)
      ((operatorOf (text.upper op)).Accepts left.kind right.kind)
      fun type => type.kind = (operatorOf (text.upper op)).result left.kind right.kind := by
  rw [binopType]
  by_cases arithmetic : text.upper op ∈ ARITHMETIC
  · rw [if_pos arithmetic, operatorOf_arithmetic arithmetic]
    refine Judges.congr (Judges.bind (requireNumeric_judges left) fun _ _ =>
      Judges.bind (requireNumeric_judges right) fun _ _ => Judges.pure rfl) ?_
    simp [Operator.Accepts]
  by_cases logical : text.upper op ∈ LOGICAL
  · rw [if_neg arithmetic, if_pos logical, operatorOf_logical logical]
    refine Judges.congr (Judges.bind (requireBool_judges left) fun _ _ =>
      Judges.bind (requireBool_judges right) fun _ _ => Judges.pure rfl) ?_
    simp [Operator.Accepts]
  by_cases compares : text.upper op ∈ COMPARISONS
  · rw [if_neg arithmetic, if_neg logical, if_pos compares]
    have comparable : Comparable left.kind right.kind ↔
        ¬ canCompare left.kind right.kind = false := by
      rw [← canCompare_iff, Bool.not_eq_false]
    have accepts : (operatorOf (text.upper op)).Accepts left.kind right.kind ↔
        Comparable left.kind right.kind := by
      rcases operatorOf_compares compares with case | case | case <;> rw [case] <;> rfl
    have result : (operatorOf (text.upper op)).result left.kind right.kind = .BOOL := by
      rcases operatorOf_compares compares with case | case | case <;> rw [case] <;> rfl
    refine Judges.congr (Judges.bind (Judges.refuse _ comparable) fun _ _ =>
      Judges.pure result.symm) ?_
    rw [accepts, and_true]
  · rw [if_neg arithmetic, if_neg logical, if_neg compares,
      operatorOf_other arithmetic logical compares]
    exact Judges.pure rfl

theorem unaryType_judges (op : String) (operand : Option Expr) (inner : TuftType)
    (same : inner.kind = (shapeOfOperand text catalog classes operand).kind) :
    Judges (unaryType text op inner) (Passes text catalog classes (.unaryOp op operand))
      fun type => type.kind = (shapeOf text catalog classes (.unaryOp op operand)).kind := by
  rw [unaryType, Passes, shapeOf, ← same]
  by_cases negation : text.upper op = "NOT"
  · rw [if_pos negation, if_pos negation, if_pos negation]
    refine Judges.congr (Judges.bind (requireBool_judges inner) fun _ _ => Judges.pure rfl) ?_
    rw [and_true]
  rw [if_neg negation, if_neg negation, if_neg negation]
  by_cases sign : op ∈ ["+", "-"]
  · rw [if_pos sign, if_pos sign, if_pos sign]
    refine Judges.congr (Judges.bind (requireNumeric_judges inner) fun _ _ => Judges.pure same) ?_
    rw [and_true]
  · rw [if_neg sign, if_neg sign, if_neg sign]
    exact Judges.pure rfl

theorem fromCatalogType_kind (type : Onto.TypeRef) :
    (fromCatalogType type).kind = (Shape.ofRef type).kind := by
  cases type
  rfl

theorem pathType_kind (root : Option String) (steps : List String) :
    (pathType catalog classes root steps).kind =
      (shapeOf text catalog classes (.path root steps)).kind := by
  rw [shapeOf, readField, pathType.eq_def]
  cases root with
  | none => rfl
  | some root =>
    cases steps with
    | nil => cases classes.get? root <;> simp
    | cons step steps =>
      cases held : classes.get? root with
      | none => simp [held]
      | some class_iri =>
        cases found : (fieldsByName catalog class_iri).get? step with
        | none => simp [held, found]
        | some field => simp [held, found, fromCatalogType_kind]

/-- An expression without parts passes, if its kind is right. -/
theorem leaf_judges {expr : Expr} {type : TuftType} (alone : expr.nodes = [expr])
    (passes : Passes text catalog classes expr)
    (same : type.kind = (shapeOf text catalog classes expr).kind) :
    Judges (pure type) (∀ node ∈ expr.nodes, Passes text catalog classes node)
      fun type => type.kind = (shapeOf text catalog classes expr).kind := by
  refine ⟨?_, same⟩
  rw [alone]
  simpa using passes

theorem varType_kind (name : Option String) : (varType text name).kind = .UNKNOWN := by
  cases name with
  | none => rfl
  | some name =>
    rw [varType]
    split <;> rfl

mutual

/-- The checker raises exactly if some expression in the tree fails its check, and the kinds it
computes are those of the rules. -/
theorem checkExpr_judges (expr : Expr) :
    Judges (checkExpr text catalog classes expr)
      (∀ node ∈ expr.nodes, Passes text catalog classes node)
      fun type => type.kind = (shapeOf text catalog classes expr).kind := by
  cases expr with
  | binOp op left right =>
    have here : ∀ leftType : TuftType,
        leftType.kind = (shapeOfOperand text catalog classes left).kind →
        Judges (do
          let rightType ← checkOperand text catalog classes right
          binopType text op leftType rightType)
          ((∀ node ∈ operandNodes right, Passes text catalog classes node) ∧
            Passes text catalog classes (.binOp op left right))
          fun type => type.kind = (shapeOf text catalog classes (.binOp op left right)).kind := by
      intro leftType sameLeft
      apply Judges.bind (checkOperand_judges right)
      intro rightType sameRight
      rw [Passes, shapeOf, ← sameLeft, ← sameRight]
      exact binopType_judges text op leftType rightType
    rw [checkExpr]
    refine Judges.congr (Judges.bind (checkOperand_judges left) here) ?_
    rw [Expr.nodes, List.forall_mem_cons, List.forall_mem_append, ← and_assoc]
    exact and_comm
  | unaryOp op operand =>
    rw [checkExpr]
    refine Judges.congr (Judges.bind (checkOperand_judges operand) fun inner same =>
      unaryType_judges text catalog classes op operand inner same) ?_
    rw [Expr.nodes, List.forall_mem_cons]
    exact and_comm
  | cast operand type_ref =>
    rw [checkExpr]
    refine Judges.congr (Judges.bind (checkOperand_judges operand) fun _ _ => Judges.pure rfl) ?_
    rw [Expr.nodes, List.forall_mem_cons]
    exact and_comm
  | list items =>
    rw [checkExpr]
    refine Judges.congr (Judges.bind (checkItems_judges items) fun _ _ => Judges.pure rfl) ?_
    rw [Expr.nodes, List.forall_mem_cons]
    exact and_comm
  | literal kind datatype => exact leaf_judges text catalog classes rfl trivial rfl
  | path root steps =>
    exact leaf_judges text catalog classes rfl trivial (pathType_kind text catalog classes root steps)
  | var name => exact leaf_judges text catalog classes rfl trivial (varType_kind text name)
  | fnCall name args => exact leaf_judges text catalog classes rfl trivial rfl
  | map values => exact leaf_judges text catalog classes rfl trivial rfl
  | subscript target index => exact leaf_judges text catalog classes rfl trivial rfl
  | other => exact leaf_judges text catalog classes rfl trivial rfl

theorem checkOperand_judges (operand : Option Expr) :
    Judges (checkOperand text catalog classes operand)
      (∀ node ∈ operandNodes operand, Passes text catalog classes node)
      fun type => type.kind = (shapeOfOperand text catalog classes operand).kind := by
  cases operand with
  | none => exact ⟨nofun, rfl⟩
  | some expr => exact checkExpr_judges expr

theorem checkItems_judges (items : List Expr) :
    Judges (checkItems text catalog classes items)
      (∀ node ∈ itemNodes items, Passes text catalog classes node) fun _ => True := by
  cases items with
  | nil => exact ⟨nofun, trivial⟩
  | cons item items =>
    rw [checkItems]
    refine Judges.congr (Judges.bind (checkExpr_judges item) fun _ _ =>
      Judges.bind (checkItems_judges items) fun _ _ => Judges.pure trivial) ?_
    rw [and_true, itemNodes, List.forall_mem_append]

end

end Trees

/-! ## The differences are all -/

theorem unknown_not_numeric : TypeKind.UNKNOWN ∉ NUMERIC := by decide

theorem comparable_list {kind : TypeKind} :
    Comparable kind .LIST ↔ kind = .UNKNOWN ∨ kind = .LIST := by
  have known : TypeKind.LIST ∉ NUMERIC := by decide
  simp [Comparable, known]

theorem Operator.rejects_iff (op : Operator) (left right : Shape) :
    ¬ op.Accepts left.kind right.kind ↔
      op.Strict left right ∨ (¬ op.Allows left right ∧ ¬ op.Lax left right) := by
  cases op with
  | arithmetic =>
    have first : left.kind ∈ NUMERIC → left.kind ≠ .UNKNOWN := fun counted same =>
      unknown_not_numeric (same ▸ counted)
    have second : right.kind ∈ NUMERIC → right.kind ≠ .UNKNOWN := fun counted same =>
      unknown_not_numeric (same ▸ counted)
    simp only [Accepts, Strict, Allows, Lax, Numeric]
    tauto
  | membership =>
    simp only [Accepts, Strict, Allows, Lax]
    by_cases unknown : right.kind = .UNKNOWN
    · simp [unknown, Comparable]
    by_cases listed : right.kind = .LIST
    · rw [listed, comparable_list]
      by_cases any : left.kind = .UNKNOWN
      · simp [any, Comparable]
      by_cases same : left.kind = .LIST
      · simp [same]
      · simp only [any, same, or_self, not_false_eq_true, ne_eq, true_and, false_and, and_false,
          and_true, true_iff, reduceCtorEq, not_true_eq_false, false_or]
        exact Classical.em _
    · simp [unknown, listed]
  | logical | comparison => simp [Accepts, Strict, Allows, Lax]
  | null_test | other => simp [Accepts, Strict, Allows, Lax]

theorem Operator.lax_refused {op : Operator} {left right : Shape} (lax : op.Lax left right) :
    ¬ op.Allows left right := by
  cases op with
  | membership =>
    rintro (unknown | ⟨listed, comparable⟩)
    · rcases lax with ⟨_, known, _⟩ | ⟨listed, _⟩
      · exact known unknown
      · rw [listed] at unknown
        cases unknown
    · rcases lax with ⟨other, _⟩ | ⟨_, same, element, member, apart⟩
      · exact other listed
      · exact apart (same ▸ comparable element member)
  | arithmetic | logical | comparison | null_test | other => exact lax.elim

section Differences

variable (text : Casing) (catalog : Onto.Catalog) (classes : Dict String String)

/-- The checker refuses where it is too strict, and where the rules do unless it is too lax. -/
theorem fails_iff (node : Expr) : ¬ Passes text catalog classes node ↔
    TooStrict text catalog classes node ∨
      (¬ WellTyped text catalog classes node ∧ ¬ TooLax text catalog classes node) := by
  cases node with
  | binOp op left right => exact Operator.rejects_iff _ _ _
  | unaryOp op operand =>
    have known : (shapeOfOperand text catalog classes operand).kind ∈ NUMERIC →
        (shapeOfOperand text catalog classes operand).kind ≠ .UNKNOWN := fun counted same =>
      unknown_not_numeric (same ▸ counted)
    simp only [Passes, TooStrict, WellTyped, TooLax, Numeric]
    split
    · next negation => simp [negation]
    · next other =>
      split
      · next sign =>
        simp only [sign, other, ne_eq, not_false_eq_true, true_and, and_true]
        tauto
      · next further => simp [further]
  | literal | var | path | fnCall | cast | list | map | subscript | other =>
    simp [Passes, TooStrict, WellTyped, TooLax]

theorem lax_ill_typed {node : Expr} (lax : TooLax text catalog classes node) :
    ¬ WellTyped text catalog classes node := by
  cases node with
  | binOp op left right => exact Operator.lax_refused lax
  | literal | var | path | fnCall | unaryOp | cast | list | map | subscript | other =>
    exact lax.elim

end Differences

/-! ## Fewer fields -/

/-- A catalog without a field of a class. -/
def withoutField (catalog : Onto.Catalog) (class_iri name : String) : Onto.Catalog :=
  { catalog with
    classes := catalog.classes.map fun cls =>
      if cls.iri = class_iri then
        { cls with fields := cls.fields.filter fun field => field.name ≠ name }
      else cls }

/-- The last field of a name is the one that is found. -/
theorem get_ofFields (fields : List FieldDef) (name : String) :
    (Dict.ofEntries (fields.map fun field => (field.name, field))).get? name =
      (fields.filter fun field => field.name = name).getLast? := by
  rw [Dict.ofEntries, Dict.get_foldl_last, Dict.get_empty, Option.or_none, List.filter_map,
    List.map_map]
  have same : (Prod.snd ∘ fun field : FieldDef => (field.name, field)) = id := rfl
  rw [same, List.map_id]
  rfl

theorem fieldsByName_without (catalog : Onto.Catalog) (class_iri name other step : String) :
    (fieldsByName (withoutField catalog class_iri name) other).get? step =
      if other = class_iri ∧ step = name then none else (fieldsByName catalog other).get? step := by
  have kept : ∀ cls : Onto.ClassDef, (if cls.iri = class_iri then
      { cls with fields := cls.fields.filter fun field => field.name ≠ name } else cls).iri =
        cls.iri := by
    intro cls
    split <;> rfl
  have found : (withoutField catalog class_iri name).classes.find? (fun cls => cls.iri = other) =
      (catalog.classes.find? fun cls => cls.iri = other).map fun cls =>
        if cls.iri = class_iri then
          { cls with fields := cls.fields.filter fun field => field.name ≠ name }
        else cls := by
    rw [withoutField, List.find?_map]
    congr 2
    funext cls
    simp only [Function.comp_apply, kept]
  rw [fieldsByName, fieldsByName, found]
  cases held : catalog.classes.find? fun cls => cls.iri = other with
  | none => simp
  | some cls =>
    have iri : cls.iri = other := by simpa using List.find?_some held
    rw [Option.map_some]
    dsimp only
    by_cases here : other = class_iri
    · rw [if_pos (iri.trans here), get_ofFields, List.filter_filter]
      by_cases gone : step = name
      · rw [if_pos ⟨here, gone⟩, gone]
        simp
      · rw [if_neg fun both => gone both.2, get_ofFields]
        congr 1
        apply List.filter_congr
        intro field _
        by_cases named : field.name = step
        · simp [named, gone]
        · simp [named]
    · rw [if_neg fun same => here (iri.symm.trans same), if_neg fun both => here both.1]

section Fading

variable (text : Casing) (catalog : Onto.Catalog) (classes : Dict String String)
  (class_iri name : String)

/-- A property path keeps its shape, or its kind becomes unknown. -/
theorem path_fades (root : Option String) (steps : List String) :
    shapeOf text (withoutField catalog class_iri name) classes (.path root steps) =
        shapeOf text catalog classes (.path root steps) ∨
      (shapeOf text (withoutField catalog class_iri name) classes (.path root steps)).kind =
        .UNKNOWN := by
  rw [shapeOf, shapeOf, readField, readField]
  cases root with
  | none => exact .inl rfl
  | some root =>
    cases held : classes.get? root with
    | none => left; simp [held]
    | some other =>
      cases steps with
      | nil => left; simp
      | cons step steps =>
        simp only [held, Option.bind_eq_bind, Option.bind_some, List.head?_cons,
          fieldsByName_without]
        split
        · right
          rfl
        · left
          rfl

/-- The kind of an expression in the smaller catalog: as before, or of a property path unknown. -/
def Fades (operand : Option Expr) : Prop :=
  (shapeOfOperand text (withoutField catalog class_iri name) classes operand).kind =
      (shapeOfOperand text catalog classes operand).kind ∨
    ((shapeOfOperand text (withoutField catalog class_iri name) classes operand).kind = .UNKNOWN ∧
      ∃ root steps, operand = some (.path root steps))

theorem Operator.accepts_faded {op : Operator} {left right left' right' : TypeKind}
    (first : left' = left ∨ left' = .UNKNOWN) (second : right' = right ∨ right' = .UNKNOWN)
    (kept : op = .arithmetic → left' = left ∧ right' = right)
    (accepts : op.Accepts left right) :
    op.Accepts left' right' ∧ op.result left' right' = op.result left right := by
  cases op with
  | arithmetic =>
    obtain ⟨rfl, rfl⟩ := kept rfl
    exact ⟨accepts, rfl⟩
  | logical =>
    refine ⟨⟨?_, ?_⟩, rfl⟩
    · rcases first with rfl | unknown
      · exact accepts.1
      · exact .inr unknown
    · rcases second with rfl | unknown
      · exact accepts.2
      · exact .inr unknown
  | comparison | membership | null_test =>
    refine ⟨?_, rfl⟩
    rcases first with rfl | unknown
    · rcases second with rfl | unknown
      · exact accepts
      · exact .inr (.inl unknown)
    · exact .inl unknown
  | other => exact ⟨trivial, rfl⟩

variable {text catalog classes class_iri name}

theorem Fades.weak {operand : Option Expr}
    (fades : Fades text catalog classes class_iri name operand) :
    (shapeOfOperand text (withoutField catalog class_iri name) classes operand).kind =
        (shapeOfOperand text catalog classes operand).kind ∨
      (shapeOfOperand text (withoutField catalog class_iri name) classes operand).kind =
        .UNKNOWN :=
  fades.imp_right And.left

theorem Fades.exact {operand : Option Expr}
    (fades : Fades text catalog classes class_iri name operand)
    (other : ∀ root steps, operand ≠ some (.path root steps)) :
    (shapeOfOperand text (withoutField catalog class_iri name) classes operand).kind =
      (shapeOfOperand text catalog classes operand).kind := by
  rcases fades with same | ⟨_, root, steps, path⟩
  · exact same
  · exact absurd path (other root steps)

/-- An operator whose operands fade accepts them still, if it is not arithmetic on a field. -/
theorem binOp_kept {op : String} {left right : Option Expr}
    (first : Fades text catalog classes class_iri name left)
    (second : Fades text catalog classes class_iri name right)
    (passes : Passes text catalog classes (.binOp op left right))
    (free : ¬ CountsField text (.binOp op left right)) :
    Passes text (withoutField catalog class_iri name) classes (.binOp op left right) ∧
      Fades text catalog classes class_iri name (some (.binOp op left right)) := by
  have kept : operatorOf (text.upper op) = .arithmetic →
      (shapeOfOperand text (withoutField catalog class_iri name) classes left).kind =
          (shapeOfOperand text catalog classes left).kind ∧
        (shapeOfOperand text (withoutField catalog class_iri name) classes right).kind =
          (shapeOfOperand text catalog classes right).kind := by
    intro arithmetic
    constructor
    · apply first.exact
      intro root steps path
      exact free ⟨arithmetic, root, steps, .inl path⟩
    · apply second.exact
      intro root steps path
      exact free ⟨arithmetic, root, steps, .inr path⟩
  obtain ⟨accepts, result⟩ := Operator.accepts_faded first.weak second.weak kept passes
  exact ⟨accepts, .inl result⟩

theorem unaryOp_kept {op : String} {operand : Option Expr}
    (fades : Fades text catalog classes class_iri name operand)
    (passes : Passes text catalog classes (.unaryOp op operand))
    (free : ¬ CountsField text (.unaryOp op operand)) :
    Passes text (withoutField catalog class_iri name) classes (.unaryOp op operand) ∧
      Fades text catalog classes class_iri name (some (.unaryOp op operand)) := by
  simp only [Passes, Fades, shapeOfOperand, shapeOf] at passes ⊢
  by_cases negation : text.upper op = "NOT"
  · simp only [negation, if_true] at passes ⊢
    refine ⟨?_, .inl trivial⟩
    rcases fades.weak with same | unknown
    · rwa [same]
    · exact .inr unknown
  by_cases sign : op ∈ ["+", "-"]
  · have same := fades.exact fun root steps path => free ⟨negation, sign, root, steps, path⟩
    simp only [negation, sign, if_false, if_true] at passes ⊢
    rw [same]
    exact ⟨passes, .inl rfl⟩
  · simp only [negation, sign, if_false]
    exact ⟨trivial, .inl trivial⟩

variable (text catalog classes class_iri name)

mutual

/-- An expression that passes in a catalog passes without the field, unless it calculates with a
property path. -/
theorem expr_kept (expr : Expr) (passes : ∀ node ∈ expr.nodes, Passes text catalog classes node)
    (free : ∀ node ∈ expr.nodes, ¬ CountsField text node) :
    (∀ node ∈ expr.nodes, Passes text (withoutField catalog class_iri name) classes node) ∧
      Fades text catalog classes class_iri name (some expr) := by
  cases expr with
  | binOp op left right =>
    rw [Expr.nodes, List.forall_mem_cons, List.forall_mem_append] at passes free ⊢
    obtain ⟨leftKept, first⟩ := operand_kept left passes.2.1 free.2.1
    obtain ⟨rightKept, second⟩ := operand_kept right passes.2.2 free.2.2
    obtain ⟨here, fades⟩ := binOp_kept first second passes.1 free.1
    exact ⟨⟨here, leftKept, rightKept⟩, fades⟩
  | unaryOp op operand =>
    rw [Expr.nodes, List.forall_mem_cons] at passes free ⊢
    obtain ⟨kept, inner⟩ := operand_kept operand passes.2 free.2
    obtain ⟨here, fades⟩ := unaryOp_kept inner passes.1 free.1
    exact ⟨⟨here, kept⟩, fades⟩
  | cast operand type_ref =>
    rw [Expr.nodes, List.forall_mem_cons] at passes free ⊢
    exact ⟨⟨trivial, (operand_kept operand passes.2 free.2).1⟩, .inl rfl⟩
  | list items =>
    rw [Expr.nodes, List.forall_mem_cons] at passes free ⊢
    exact ⟨⟨trivial, items_kept items passes.2 free.2⟩, .inl rfl⟩
  | path root steps =>
    refine ⟨by simp [Expr.nodes, Passes], ?_⟩
    rcases path_fades text catalog classes class_iri name root steps with same | unknown
    · exact .inl (congrArg Shape.kind same)
    · exact .inr ⟨unknown, root, steps, rfl⟩
  | literal | var | fnCall | map | subscript | other =>
    exact ⟨by simp [Expr.nodes, Passes], .inl rfl⟩

theorem operand_kept (operand : Option Expr)
    (passes : ∀ node ∈ operandNodes operand, Passes text catalog classes node)
    (free : ∀ node ∈ operandNodes operand, ¬ CountsField text node) :
    (∀ node ∈ operandNodes operand,
        Passes text (withoutField catalog class_iri name) classes node) ∧
      Fades text catalog classes class_iri name operand := by
  cases operand with
  | none => exact ⟨nofun, .inl rfl⟩
  | some expr => exact expr_kept expr passes free

theorem items_kept (items : List Expr)
    (passes : ∀ node ∈ itemNodes items, Passes text catalog classes node)
    (free : ∀ node ∈ itemNodes items, ¬ CountsField text node) :
    ∀ node ∈ itemNodes items, Passes text (withoutField catalog class_iri name) classes node := by
  cases items with
  | nil => exact nofun
  | cons item items =>
    rw [itemNodes, List.forall_mem_append] at passes free ⊢
    exact ⟨(expr_kept item passes.1 free.1).1, items_kept items passes.2 free.2⟩

end

/-- A numeric property path reads a field, and without the field its kind is unknown. -/
theorem field_lost {root : Option String} {steps : List String}
    (counted : (shapeOf text catalog classes (.path root steps)).kind ∈ NUMERIC) :
    ∃ class_iri name,
      (shapeOf text (withoutField catalog class_iri name) classes (.path root steps)).kind =
        .UNKNOWN := by
  rw [shapeOf] at counted
  cases found : readField catalog classes root steps with
  | none =>
    rw [found] at counted
    exact absurd counted unknown_not_numeric
  | some field =>
    obtain ⟨root, rfl, further⟩ := Option.bind_eq_some_iff.mp found
    obtain ⟨class_iri, held, further⟩ := Option.bind_eq_some_iff.mp further
    obtain ⟨step, first, _⟩ := Option.bind_eq_some_iff.mp further
    refine ⟨class_iri, step, ?_⟩
    rw [shapeOf, readField]
    simp [held, first, fieldsByName_without]

/-- Arithmetic on a field does not pass without the field. -/
theorem counted_lost {node : Expr} (passes : Passes text catalog classes node)
    (counts : CountsField text node) :
    ∃ class_iri name, ¬ Passes text (withoutField catalog class_iri name) classes node := by
  cases node with
  | binOp op left right =>
    obtain ⟨arithmetic, root, steps, path⟩ := counts
    rw [Passes, arithmetic] at passes
    rcases path with rfl | rfl
    · obtain ⟨class_iri, name, unknown⟩ := field_lost text catalog classes passes.1
      refine ⟨class_iri, name, ?_⟩
      rw [Passes, arithmetic]
      intro counted
      exact unknown_not_numeric (unknown ▸ counted.1)
    · obtain ⟨class_iri, name, unknown⟩ := field_lost text catalog classes passes.2
      refine ⟨class_iri, name, ?_⟩
      rw [Passes, arithmetic]
      intro counted
      exact unknown_not_numeric (unknown ▸ counted.2)
  | unaryOp op operand =>
    obtain ⟨other, sign, root, steps, rfl⟩ := counts
    simp only [Passes, other, sign, if_false, if_true] at passes
    obtain ⟨class_iri, name, unknown⟩ := field_lost text catalog classes passes
    refine ⟨class_iri, name, ?_⟩
    simp only [Passes, other, sign, if_false, if_true]
    intro counted
    exact unknown_not_numeric (unknown ▸ counted)
  | literal | var | path | fnCall | cast | list | map | subscript | other => exact counts.elim

end Fading

/-! ## The checker and the rules -/

section Rules

variable (text : Casing) (catalog : Onto.Catalog) (classes : Dict String String) (expr : Expr)

/-- The checker raises a type mismatch exactly if the rules refuse some expression in the tree, and
what it accepts it accepts without any field. -/
structure FollowsRules : Prop where
  raises_iff :
    (∃ raised, checkExpr text catalog classes expr = .error raised ∧
        raised.code = some "TF-4001") ↔
      ∃ node ∈ expr.nodes, ¬ WellTyped text catalog classes node
  fields_restrict : ∀ class_iri name, (∃ type, checkExpr text catalog classes expr = .ok type) →
    ∃ type, checkExpr text (withoutField catalog class_iri name) classes expr = .ok type

/-- Nowhere in the tree does the checker alone decide: where it is too strict, the rules refuse
something else; where it is too lax, it refuses something else; and what it refuses nothing of
does not calculate with a property path. -/
structure Covered : Prop where
  strict : (∃ node ∈ expr.nodes, TooStrict text catalog classes node) →
    ∃ node ∈ expr.nodes, ¬ WellTyped text catalog classes node
  lax : (∃ node ∈ expr.nodes, TooLax text catalog classes node) →
    ∃ node ∈ expr.nodes, TooStrict text catalog classes node ∨
      (¬ WellTyped text catalog classes node ∧ ¬ TooLax text catalog classes node)
  fields : (∀ node ∈ expr.nodes, ¬ TooStrict text catalog classes node ∧
      (WellTyped text catalog classes node ∨ TooLax text catalog classes node)) →
    ∀ node ∈ expr.nodes, ¬ CountsField text node

theorem raises_iff_fails :
    (∃ raised, checkExpr text catalog classes expr = .error raised ∧
        raised.code = some "TF-4001") ↔
      ∃ node ∈ expr.nodes, ¬ Passes text catalog classes node := by
  rw [(checkExpr_judges text catalog classes expr).error_iff]
  push Not
  rfl

theorem passes_iff (node : Expr) : Passes text catalog classes node ↔
    ¬ TooStrict text catalog classes node ∧
      (WellTyped text catalog classes node ∨ TooLax text catalog classes node) := by
  have fails := fails_iff text catalog classes node
  tauto

theorem follows_rules_iff :
    FollowsRules text catalog classes expr ↔ Covered text catalog classes expr := by
  have fails := fails_iff text catalog classes
  constructor
  · intro follows
    refine ⟨?_, ?_, ?_⟩
    · rintro ⟨node, member, strict⟩
      apply follows.raises_iff.mp
      apply (raises_iff_fails text catalog classes expr).mpr
      exact ⟨node, member, (fails node).mpr (.inl strict)⟩
    · rintro ⟨node, member, lax⟩
      have raises := follows.raises_iff.mpr
        ⟨node, member, lax_ill_typed text catalog classes lax⟩
      obtain ⟨further, among, refused⟩ := (raises_iff_fails text catalog classes expr).mp raises
      exact ⟨further, among, (fails further).mp refused⟩
    · intro accepted node member counts
      have passes : ∀ node ∈ expr.nodes, Passes text catalog classes node := fun node member =>
        (passes_iff text catalog classes node).mpr (accepted node member)
      obtain ⟨class_iri, name, lost⟩ :=
        counted_lost text catalog classes (passes node member) counts
      have accepts := (checkExpr_judges text catalog classes expr).ok_iff.mpr passes
      have still := follows.fields_restrict class_iri name accepts
      exact lost ((checkExpr_judges text _ classes expr).ok_iff.mp still node member)
  · intro covered
    constructor
    · rw [raises_iff_fails]
      constructor
      · rintro ⟨node, member, refused⟩
        rcases (fails node).mp refused with strict | ⟨ill, _⟩
        · exact covered.strict ⟨node, member, strict⟩
        · exact ⟨node, member, ill⟩
      · rintro ⟨node, member, ill⟩
        by_cases lax : TooLax text catalog classes node
        · obtain ⟨further, among, refused⟩ := covered.lax ⟨node, member, lax⟩
          exact ⟨further, among, (fails further).mpr refused⟩
        · exact ⟨node, member, (fails node).mpr (.inr ⟨ill, lax⟩)⟩
    · intro class_iri name accepts
      have passes := (checkExpr_judges text catalog classes expr).ok_iff.mp accepts
      have free := covered.fields fun node member =>
        (passes_iff text catalog classes node).mp (passes node member)
      exact (checkExpr_judges text _ classes expr).ok_iff.mpr
        (expr_kept text catalog classes class_iri name expr passes free).1

end Rules

def emptyCatalog : Onto.Catalog where
  format_version := 1
  catalog_id := none
  created_at := ""
  updated_at := ""
  ontologies := []
  classes := []
  properties := []
  graphs := []
  indexes := []

/-- `str.upper` and `str.lower` of ASCII texts. -/
def ascii : Casing where
  upper word := String.ofList (word.toList.map Char.toUpper)
  lower word := String.ofList (word.toList.map Char.toLower)

/-- `1 IN [1, 2]` -/
def oneInList : Expr :=
  .binOp "IN" (some (.literal .INT none)) (some (.list [.literal .INT none, .literal .INT none]))

theorem one_in_list_refused : ¬ FollowsRules ascii emptyCatalog Dict.empty oneInList := by
  intro follows
  have refused : checkExpr ascii emptyCatalog Dict.empty oneInList =
      .error (typeMismatch "type mismatch: cannot compare INT64 and LIST") := rfl
  obtain ⟨node, member, ill⟩ := follows.raises_iff.mp ⟨_, refused, rfl⟩
  apply ill
  have membership : operatorOf (ascii.upper "IN") = .membership := by decide
  rw [oneInList, Expr.nodes] at member
  rcases List.mem_cons.mp member with rfl | part
  · rw [WellTyped, membership]
    refine .inr ⟨rfl, ?_⟩
    intro element among
    simp only [shapeOfOperand, shapeOf, kindsOf, List.mem_cons, List.not_mem_nil, or_false,
      or_self] at among ⊢
    exact .inr (.inr (.inl among.symm))
  · simp only [operandNodes, Expr.nodes, itemNodes, List.mem_append, List.mem_cons,
      List.not_mem_nil, or_false, List.append_nil] at part
    rcases part with rfl | rfl | rfl | rfl <;> trivial

end CaracalDB.Typing
