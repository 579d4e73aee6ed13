import CaracalDB.HashJoin
import CaracalDB.Loops
import CaracalDB.StableSort

/-!
# Result modifiers

The modifiers of a query order the rows of its result, skip some and limit the rest. Each key of the
order is one stable sort of the language, the last key first; that sort compares nulls like any values,
which no type of values supports.
-/

namespace CaracalDB.ResultModifiers

open HashJoin StableSort

/-! ## Syntax -/

/-- The expressions that the modifiers look into. -/
inductive Expr where
  | var (name : Option String)
  | path (root : Option String) (steps : List String)
  | literal (value : Value)
  | other
deriving DecidableEq

structure OrderItem where
  expr : Expr
  descending : Bool := false
deriving DecidableEq

structure Modifiers where
  order_by : List OrderItem := []
  skip : Option Expr := none
  limit : Option Expr := none
deriving DecidableEq

/-- `_eval_int_literal(node, where)` -/
def evalIntLiteral (node : Expr) (clause : String) : Except Raised Int :=
  match node with
  | .literal (.int number) => .ok number
  | .literal (.bool flag) => .ok (if flag then 1 else 0)
  | _ => raiseCaracal "CDB-6020" (clause ++ " requires an integer literal")

/-- `_default_alias(expr, alias)` -/
def defaultAlias : Expr → String
  | .path (some _) [step] => step
  | .var (some name) => name
  | _ => "expr"

/-- `_order_column_name(expr, table)` -/
def orderColumnName (names : List String) (expr : Expr) : Except Raised String := do
  let name := match expr with
    | .var (some name) => name
    | .path (some root) [step] =>
        let dotted := root ++ "." ++ step
        if dotted ∈ names then dotted else step
    | expr => defaultAlias expr
  refuse (name ∉ names) (.caracal
    { code := "CDB-6020"
      message := "ORDER BY expression is not projected as a result column: " ++ Value.quoted name })
  return name

/-! ## Sorting -/

/-- `left < right` for values that are not null, by which the values of a column are ordered. -/
structure Comparison where
  less : Value → Value → Bool
  asymm : ∀ left right, less left right = true → less right left = false
  trans : ∀ first second third, less first second = false → less second third = false →
    less first third = false

variable (comparison : Comparison)

/-- Whether a value stays before another one in a sort. -/
def Comparison.before (descending : Bool) (left right : Value) : Prop :=
  if descending then comparison.less left right = false else comparison.less right left = false

instance (descending : Bool) : DecidableRel (comparison.before descending) := fun left right =>
  inferInstanceAs (Decidable (if descending then comparison.less left right = false
    else comparison.less right left = false))

/-- The order of rows that a key of an order stands for. -/
def rowBefore (key : String × Bool) (left right : Row) : Prop :=
  comparison.before key.2 (left.read key.1) (right.read key.1)

instance (key : String × Bool) : DecidableRel (rowBefore comparison key) := fun left right =>
  inferInstanceAs (Decidable (comparison.before key.2 (left.read key.1) (right.read key.1)))

/-- `rows.sort(key=lambda row: row.get(column), reverse=descending)`: the sort is stable, also in
reverse. Of two or more rows each is compared with another one, and a null with no value. -/
def sortRows (key : String × Bool) (rows : List Row) : Except Raised (List Row) :=
  if 2 ≤ rows.length ∧ ∃ row ∈ rows, row.read key.1 = .null then
    .error (.typeError "'<' not supported between instances of 'NoneType'")
  else .ok (rows.insertionSort (rowBefore comparison key))

/-! ## Modifiers -/

/-- A row of `table.to_pylist()`. -/
def toDict (names : List String) (row : List Value) : Row := Dict.ofEntries (names.zip row)

/-- A row that `pa.Table.from_pylist(rows, schema=...)` makes. -/
def fromDict (names : List String) (row : Row) : List Value := names.map row.read

/-- `table.slice(offset)` -/
def sliceFrom {Item : Type} (offset : Int) (rows : List Item) : Except Raised (List Item) := do
  refuse (offset < 0) (.arrowError "Offset must be non-negative")
  return rows.drop offset.toNat

/-- `table.slice(0, length)` -/
def sliceTo {Item : Type} (length : Int) (rows : List Item) : Except Raised (List Item) := do
  refuse (length < 0) (.arrowError "Length must be non-negative")
  return rows.take length.toNat

def skipRows {Item : Type} (skip : Option Expr) (rows : List Item) : Except Raised (List Item) :=
  match skip with
  | none => .ok rows
  | some skip => do sliceFrom (← evalIntLiteral skip "SKIP") rows

def limitRows {Item : Type} (limit : Option Expr) (rows : List Item) : Except Raised (List Item) :=
  match limit with
  | none => .ok rows
  | some limit => do sliceTo (← evalIntLiteral limit "LIMIT") rows

/-- The rows of a table in the order of the modifiers. -/
def orderRows (order_by : List OrderItem) (names : List String) (rows : List (List Value)) :
    Except Raised (List (List Value)) := do
  if order_by = [] then return rows
  let sorted ← order_by.reverse.foldlM (fun rows item => do
    let column ← orderColumnName names item.expr
    sortRows comparison (column, item.descending) rows) (rows.map (toDict names))
  return sorted.map (fromDict names)

/-- `_apply_modifiers(batches, modifiers)` -/
def applyModifiers (batches : List Batch) (modifiers : Modifiers) : Except Raised (List Batch) :=
  match batches with
  | [] => .ok []
  | first :: rest => do
      refuse (∃ batch ∈ rest, batch.columns ≠ first.columns)
        (.arrowError "Schema at index was different")
      let ordered ← orderRows comparison modifiers.order_by (columnNames first.columns)
        ((first :: rest).flatMap Batch.rows)
      let skipped ← skipRows modifiers.skip ordered
      let limited ← limitRows modifiers.limit skipped
      return [{ columns := first.columns, rows := limited }]

/-! ## What the modifiers ask for -/

/-- The order by a key with nulls last. -/
def nullsLast (names : List String) (key : String × Bool) (first second : List Value) : Prop :=
  (toDict names second).read key.1 = .null ∨
    ((toDict names first).read key.1 ≠ .null ∧
      rowBefore comparison key (toDict names first) (toDict names second))

instance (names : List String) (key : String × Bool) : DecidableRel (nullsLast comparison names key) :=
  fun first second => inferInstanceAs (Decidable ((toDict names second).read key.1 = .null ∨
    ((toDict names first).read key.1 ≠ .null ∧
      rowBefore comparison key (toDict names first) (toDict names second))))

/-- The rows from an offset on, no more than a limit. -/
def sliced {Item : Type} (skip limit : Option Nat) (rows : List Item) : List Item :=
  match limit with
  | none => rows.drop (skip.getD 0)
  | some limit => (rows.drop (skip.getD 0)).take limit

/-- The rows that modifiers ask for: a slice of the stable lexicographic sort of all rows. -/
def asked (names : List String) (keys : List (String × Bool)) (skip limit : Option Nat)
    (rows : List (List Value)) : List (List Value) :=
  sliced skip limit (rows.insertionSort (lexLe (nullsLast comparison names) keys))

/-- A row of which columns of one name have one value. -/
def Whole (names : List String) (row : List Value) : Prop := fromDict names (toDict names row) = row

/-- The sorts find values to compare, or nothing to compare. -/
def Comparable (names : List String) (keys : List (String × Bool)) (rows : List (List Value)) : Prop :=
  rows.length < 2 ∨ ∀ key ∈ keys, ∀ row ∈ rows, (toDict names row).read key.1 ≠ .null

/-! ## One key after another -/

section Keys

variable {comparison : Comparison} {names : List String} {keys : List (String × Bool)}

theorem before_total (descending : Bool) : Std.Total (comparison.before descending) := by
  refine ⟨fun left right => ?_⟩
  have one : comparison.less left right = false ∨ comparison.less right left = false := by
    cases less : comparison.less left right with
    | false => exact .inl rfl
    | true => exact .inr (comparison.asymm left right less)
  cases descending with
  | false => exact one.symm
  | true => exact one

theorem before_trans (descending : Bool) : IsTrans Value (comparison.before descending) := by
  refine ⟨fun first second third => ?_⟩
  cases descending with
  | false => exact fun before behind => comparison.trans third second first behind before
  | true => exact comparison.trans first second third

theorem rowBefore_total (comparison : Comparison) (key : String × Bool) : Std.Total (rowBefore comparison key) :=
  ⟨fun _ _ => (before_total key.2).total _ _⟩

theorem rowBefore_trans (key : String × Bool) : IsTrans Row (rowBefore comparison key) :=
  ⟨fun _ _ _ => (before_trans key.2).trans _ _ _⟩

/-- Items of a list of at most one are the same. -/
theorem eq_of_few {Item : Type} {items : List Item} (few : items.length < 2) {first second : Item}
    (isFirst : first ∈ items) (isSecond : second ∈ items) : first = second := by
  match items, few with
  | [item], _ => rw [List.mem_singleton.mp isFirst, List.mem_singleton.mp isSecond]

/-- Where the sorts find values to compare, their order puts nulls last. -/
theorem rowBefore_iff {rows : List (List Value)} (comparable : Comparable names keys rows)
    {key : String × Bool} (isKey : key ∈ keys) {first second : List Value} (isFirst : first ∈ rows)
    (isSecond : second ∈ rows) :
    nullsLast comparison names key first second ↔
      rowBefore comparison key (toDict names first) (toDict names second) := by
  rw [nullsLast]
  rcases comparable with few | visible
  · rw [eq_of_few few isFirst isSecond]
    have own : rowBefore comparison key (toDict names second) (toDict names second) :=
      have := rowBefore_total comparison key
      le_refl (rowBefore comparison key) _
    constructor
    · exact fun _ => own
    · intro _
      by_cases isNull : (toDict names second).read key.1 = .null
      · exact .inl isNull
      · exact .inr ⟨isNull, own⟩
  · have visibleSecond := visible key isKey second isSecond
    have visibleFirst := visible key isKey first isFirst
    constructor
    · rintro (isNull | ⟨_, before⟩)
      · exact absurd isNull visibleSecond
      · exact before
    · exact fun before => .inr ⟨visibleFirst, before⟩

theorem lexLe_iff {rows : List (List Value)} (comparable : Comparable names keys rows)
    {first second : List Value} (isFirst : first ∈ rows) (isSecond : second ∈ rows) :
    lexLe (nullsLast comparison names) keys first second ↔
      lexLe (rowBefore comparison) keys (toDict names first) (toDict names second) := by
  induction keys with
  | nil => exact Iff.rfl
  | cons key keys inductionHypothesis =>
    have later : Comparable names keys rows :=
      comparable.imp id fun visible other member => visible other (List.mem_cons_of_mem key member)
    have here : ∀ {first second : List Value}, first ∈ rows → second ∈ rows →
        (nullsLast comparison names key first second ↔
          rowBefore comparison key (toDict names first) (toDict names second)) :=
      fun isFirst isSecond => rowBefore_iff comparable List.mem_cons_self isFirst isSecond
    rw [lexLe, lexLe, here isFirst isSecond, here isSecond isFirst, inductionHypothesis later]

theorem sorts_perm (comparison : Comparison) (keys : List (String × Bool)) (rows : List Row) :
    (keys.foldr (fun key sorted => sorted.insertionSort (rowBefore comparison key)) rows).Perm
      rows := by
  induction keys with
  | nil => exact List.Perm.refl _
  | cons key keys inductionHypothesis =>
    exact (List.perm_insertionSort _ _).trans inductionHypothesis

/-- The sorts succeed exactly where they find values to compare. -/
theorem sorts_iff (keys : List (String × Bool)) (rows sorted : List Row) :
    keys.reverse.foldlM (fun rows key => sortRows comparison key rows) rows = .ok sorted ↔
      (rows.length < 2 ∨ ∀ key ∈ keys, ∀ row ∈ rows, row.read key.1 ≠ .null) ∧
        keys.foldr (fun key sorted => sorted.insertionSort (rowBefore comparison key)) rows =
          sorted := by
  induction keys generalizing sorted with
  | nil =>
    constructor
    · intro done
      cases done
      exact ⟨.inr nofun, rfl⟩
    · rintro ⟨_, rfl⟩
      rfl
  | cons key keys inductionHypothesis =>
    have single : ∀ before : List Row, [key].foldlM
        (fun rows key => sortRows comparison key rows) before = sortRows comparison key before := by
      intro before
      rw [List.foldlM_cons]
      cases sortRows comparison key before <;> rfl
    rw [List.reverse_cons, List.foldlM_append, List.foldr_cons]
    have perm := sorts_perm comparison keys rows
    constructor
    · intro done
      obtain ⟨before, later, last⟩ := except_bind_ok done
      obtain ⟨comparable, rfl⟩ := (inductionHypothesis before).mp later
      rw [single, sortRows] at last
      split at last
      · cases last
      · next compared =>
        cases last
        refine ⟨?_, rfl⟩
        rcases Nat.lt_or_ge rows.length 2 with few | many
        · exact .inl few
        · right
          intro other isKey row member
          rcases List.mem_cons.mp isKey with rfl | isLater
          · intro isNull
            exact compared ⟨perm.length_eq ▸ many, row, perm.mem_iff.mpr member, isNull⟩
          · exact (comparable.resolve_left (Nat.not_lt.mpr many)) other isLater row member
    · rintro ⟨comparable, rfl⟩
      have later := (inductionHypothesis _).mpr ⟨comparable.imp id fun visible other isKey =>
        visible other (List.mem_cons_of_mem key isKey), rfl⟩
      rw [later, ok_bind, single, sortRows, if_neg]
      rintro ⟨many, row, member, isNull⟩
      rcases comparable with few | visible
      · rw [perm.length_eq] at many
        omega
      · exact visible key List.mem_cons_self row (perm.mem_iff.mp member) isNull

/-- The keys of an order are the columns that its items name. -/
theorem foldlM_named {order_by : List OrderItem}
    (named : order_by.mapM (fun item => do
      return (← orderColumnName names item.expr, item.descending)) = .ok keys) (rows : List Row) :
    order_by.reverse.foldlM (fun rows item => do
        let column ← orderColumnName names item.expr
        sortRows comparison (column, item.descending) rows) rows =
      keys.reverse.foldlM (fun rows key => sortRows comparison key rows) rows := by
  induction order_by generalizing keys rows with
  | nil =>
    cases named
    rfl
  | cons item order_by inductionHypothesis =>
    rw [List.mapM_cons] at named
    obtain ⟨key, isKey, rest⟩ := except_bind_ok named
    obtain ⟨column, isColumn, same⟩ := except_bind_ok isKey
    obtain ⟨others, later, all⟩ := except_bind_ok rest
    cases same
    cases all
    rw [List.reverse_cons, List.reverse_cons, List.foldlM_append, List.foldlM_append,
      inductionHypothesis later]
    congr 1
    funext before
    rw [List.foldlM_cons, List.foldlM_cons, isColumn, ok_bind]
    rfl

end Keys

/-! ## The answer -/

section Answers

variable {comparison : Comparison} {columns : List (String × DataType)} {batches : List Batch}
  {order_by : List OrderItem} {keys : List (String × Bool)} {skip limit : Option Nat}

theorem sliced_map {Item Made : Type} (make : Item → Made) (skip limit : Option Nat)
    (rows : List Item) : sliced skip limit (rows.map make) = (sliced skip limit rows).map make := by
  cases limit with
  | none => exact List.map_drop.symm
  | some limit => rw [sliced, sliced, ← List.map_drop, ← List.map_take]

/-- The rows in the order of the modifiers, where their sorts find values to compare. -/
theorem orderRows_iff (comparison : Comparison) {names : List String} (filled : order_by ≠ [])
    (named : order_by.mapM (fun item => do
      return (← orderColumnName names item.expr, item.descending)) = .ok keys)
    (rows sorted : List (List Value)) :
    orderRows comparison order_by names rows = .ok sorted ↔ Comparable names keys rows ∧
      (rows.insertionSort (lexLe (nullsLast comparison names) keys)).map
        (fun row => fromDict names (toDict names row)) = sorted := by
  have dicts : ((rows.map (toDict names)).length < 2 ∨ ∀ key ∈ keys, ∀ row ∈ rows.map (toDict names),
      row.read key.1 ≠ .null) ↔ Comparable names keys rows := by
    rw [Comparable, List.length_map]
    simp only [List.forall_mem_map]
  have made : ∀ comparable : Comparable names keys rows,
      (keys.foldr (fun key sorted => sorted.insertionSort (rowBefore comparison key))
        (rows.map (toDict names))).map (fromDict names) =
        (rows.insertionSort (lexLe (nullsLast comparison names) keys)).map
          fun row => fromDict names (toDict names row) := by
    intro comparable
    have moved := List.map_insertionSort (r := lexLe (nullsLast comparison names) keys)
      (s := lexLe (rowBefore comparison) keys) (toDict names) rows
      fun first isFirst second isSecond => lexLe_iff comparable isFirst isSecond
    rw [sorts_eq (rowBefore_total comparison) rowBefore_trans, ← moved, List.map_map]
    rfl
  rw [orderRows, if_neg filled, foldlM_named named]
  constructor
  · intro done
    obtain ⟨ordered, isOrdered, same⟩ := except_bind_ok done
    obtain ⟨comparable, rfl⟩ := (sorts_iff keys _ ordered).mp isOrdered
    cases same
    exact ⟨dicts.mp comparable, (made (dicts.mp comparable)).symm⟩
  · rintro ⟨comparable, rfl⟩
    rw [(sorts_iff keys _ _).mpr ⟨dicts.mpr comparable, rfl⟩, ok_bind, ← made comparable]
    rfl

/-- A number in the syntax of the modifiers. -/
def count (number : Nat) : Expr := .literal (.int number)

theorem slices_ok {Item : Type} (skip limit : Option Nat) (rows : List Item) :
    (skipRows (skip.map count) rows >>= limitRows (limit.map count)) =
      .ok (sliced skip limit rows) := by
  have skips : skipRows (skip.map count) rows = .ok (rows.drop (skip.getD 0)) := by
    cases skip with
    | none => rfl
    | some skip =>
      have natural : ¬ (skip : Int) < 0 := by omega
      rw [Option.map_some, skipRows, count, evalIntLiteral, ok_bind, sliceFrom, refuse,
        if_neg natural]
      rfl
  rw [skips, ok_bind]
  cases limit with
  | none => rfl
  | some limit =>
    have natural : ¬ (limit : Int) < 0 := by omega
    rw [Option.map_some, limitRows, count, evalIntLiteral, ok_bind, sliceTo, refuse,
      if_neg natural]
    rfl

/-- The modifiers of a query. -/
def modifiersOf (order_by : List OrderItem) (skip limit : Option Nat) : Modifiers :=
  { order_by, skip := skip.map count, limit := limit.map count }

/-- Modifiers answer what they ask for exactly if there is no order, or its sorts find values to
compare and columns of one name have one value in every row of the answer. -/
theorem applyModifiers_iff
    (uniform : ∀ batch ∈ batches, batch.columns = columns)
    (named : order_by.mapM (fun item => do
      return (← orderColumnName (columnNames columns) item.expr, item.descending)) = .ok keys) :
    (∃ out, applyModifiers comparison batches (modifiersOf order_by skip limit) = .ok out ∧
      out.flatMap Batch.rows =
        asked comparison (columnNames columns) keys skip limit (batches.flatMap Batch.rows)) ↔
      (order_by = [] ∨ (Comparable (columnNames columns) keys (batches.flatMap Batch.rows) ∧
        ∀ row ∈ asked comparison (columnNames columns) keys skip limit (batches.flatMap Batch.rows),
          Whole (columnNames columns) row)) := by
  cases batches with
  | nil =>
    have nothing : asked comparison (columnNames columns) keys skip limit
        (([] : List Batch).flatMap Batch.rows) = [] := by
      rw [List.flatMap_nil, asked, List.insertionSort_nil]
      cases limit <;> simp [sliced]
    rw [nothing]
    constructor
    · exact fun _ => .inr ⟨.inl (Nat.zero_lt_succ 1), nofun⟩
    · exact fun _ => ⟨[], rfl, rfl⟩
  | cons first rest =>
    have own : first.columns = columns := uniform first List.mem_cons_self
    have schema : ¬ ∃ batch ∈ rest, batch.columns ≠ first.columns := by
      rintro ⟨batch, member, different⟩
      exact different ((uniform batch (List.mem_cons_of_mem first member)).trans own.symm)
    -- what is left to do behind the order
    have applied : ∀ outcome, orderRows comparison order_by (columnNames columns)
        ((first :: rest).flatMap Batch.rows) = outcome →
          applyModifiers comparison (first :: rest) (modifiersOf order_by skip limit) =
            outcome.map fun ordered => [{ columns, rows := sliced skip limit ordered }] := by
      intro outcome given
      rw [applyModifiers, refuse, if_neg schema, ok_bind, modifiersOf, own]
      dsimp only
      rw [given]
      cases outcome with
      | error raised => rfl
      | ok ordered =>
        have slices := slices_ok skip limit ordered
        rw [ok_bind]
        obtain ⟨skipped, skips, limits⟩ := except_bind_ok slices
        rw [skips, ok_bind, limits]
        rfl
    by_cases unordered : order_by = []
    · subst unordered
      have keyless : keys = [] := (Except.ok.inj named).symm
      subst keyless
      have same : orderRows comparison [] (columnNames columns) ((first :: rest).flatMap Batch.rows) =
          .ok ((first :: rest).flatMap Batch.rows) := rfl
      have isSorted : ((first :: rest).flatMap Batch.rows).insertionSort
          (lexLe (nullsLast comparison (columnNames columns)) []) =
            (first :: rest).flatMap Batch.rows :=
        (List.pairwise_of_forall fun _ _ => trivial).insertionSort_eq
      constructor
      · exact fun _ => .inl rfl
      · intro _
        refine ⟨_, applied _ same, ?_⟩
        rw [asked, isSorted]
        simp
    · rw [or_iff_right unordered]
      generalize (first :: rest).flatMap Batch.rows = rows at applied
      have outcome := orderRows_iff comparison unordered named rows
      constructor
      · rintro ⟨out, done, same⟩
        cases ordered : orderRows comparison order_by (columnNames columns) rows with
        | error raised =>
          rw [applied _ ordered] at done
          cases done
        | ok sorted =>
          rw [applied _ ordered] at done
          cases done
          obtain ⟨comparable, rfl⟩ := (outcome sorted).mp ordered
          refine ⟨comparable, ?_⟩
          have kept : (asked comparison (columnNames columns) keys skip limit rows).map
              (fun row => fromDict (columnNames columns) (toDict (columnNames columns) row)) =
                (asked comparison (columnNames columns) keys skip limit rows).map id := by
            rw [List.map_id, asked, ← sliced_map]
            simpa [asked] using same
          exact List.map_inj_left.mp kept
      · rintro ⟨comparable, whole⟩
        refine ⟨_, applied _ ((outcome _).mpr ⟨comparable, rfl⟩), ?_⟩
        rw [List.flatMap_singleton, sliced_map]
        exact (List.map_congr_left whole).trans (List.map_id _)

end Answers

end CaracalDB.ResultModifiers
