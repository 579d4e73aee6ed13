import CaracalDB.HierarchyQuery

/-!
# Predicates with nulls

The engine evaluates a predicate column by column. Its connectives make null of every
null operand, where three-valued logic knows that a false operand decides AND and a true
one decides OR. Only the search in a list stops nulls: it answers false, or true if the
list has a null. So a row is kept if the predicate is true there and no null occurs
among its operands outside such searches.
-/

namespace CaracalDB.ThreeValued

open Hierarchy Where

/-! ## The engine -/

/-- The nested tuples of an expression. -/
inductive Expr where
  | col (name : String)
  | lit (value : Value)
  | compare (op : Comparison) (left right : Expr)
  | join (op : Connective) (left right : Expr)
  | not (operand : Expr)
  | isIn (left : Expr) (items : List Value)

/-- What Arrow decides: scalars and arrays, and which types compare in which way. -/
structure Kernels where
  /-- `pa.scalar(value).as_py()` -/
  scalar : Value → Except Raised Value
  /-- `pa.array(values)` -/
  array : List Value → Except Raised Column
  /-- `pc.equal(left, right)` and so on -/
  compare : Comparison → Column → Column → Except Raised Column
  /-- `pc.is_in(column, value_set=value_set)` -/
  is_in : Column → Column → Except Raised Column
  /-- Whether two values of some types that are no nulls compare in a way. -/
  holds : Comparison → DataType → DataType → Value → Value → Bool

/-- `pc.and_(left, right)` and `pc.or_(left, right)` -/
def joinColumns (op : Connective) (left right : Column) : Except Raised Column :=
  if left.type = .bool ∧ right.type = .bool then .ok (zipColumns (joined op) left right)
  else .error (.arrowError "no matching kernel")

/-- `pc.invert(operand)` -/
def invertColumn (operand : Column) : Except Raised Column :=
  if operand.type = .bool then .ok { type := .bool, values := operand.values.map inverted }
  else .error (.arrowError "no matching kernel")

/-- `compile_expr(expr)(batch)` -/
def compileExpr (k : Kernels) (batch : Batch) : Expr → Except Raised Column
  | .col name => batch.column name
  | .lit value => do k.array (List.replicate batch.num_rows (← k.scalar value))
  | .compare op left right => do
      k.compare op (← compileExpr k batch left) (← compileExpr k batch right)
  | .join op left right => do
      joinColumns op (← compileExpr k batch left) (← compileExpr k batch right)
  | .not operand => do invertColumn (← compileExpr k batch operand)
  | .isIn left items => do k.is_in (← compileExpr k batch left) (← k.array items)

/-- `FilterOperator._next_batch()` on the batches that its child still has: the next batch with
rows, and the batches behind it. -/
def nextBatch (k : Kernels) (predicate : Expr) : List Batch → Except Raised (Option (Batch × List Batch))
  | [] => .ok none
  | batch :: rest => do
      let filtered ← batch.filter (← compileExpr k batch predicate)
      if filtered.num_rows > 0 then return some (filtered, rest)
      else nextBatch k predicate rest

/-- The filter keeps the row of a batch at an index. -/
def Keeps (k : Kernels) (batch : Batch) (predicate : Expr) (index : Nat) : Prop :=
  ∃ mask, compileExpr k batch predicate = .ok mask ∧ mask.type = .bool ∧
    mask.values[index]? = some (.bool true)

/-! ## Three-valued logic -/

/-- How a search in a list reads nulls. -/
inductive Reading where
  | sql
  | arrow

/-- Is a value that is no null equal to an item of a list that is none? -/
def found (k : Kernels) (type : DataType) (set : Column) (value : Value) : Bool :=
  set.values.any fun item => item ≠ .null && k.holds .eq type set.type value item

/-- A null is in no list or in every one, and a list with a null has or may have every value. -/
def sqlIn (k : Kernels) (type : DataType) (set : Column) (value : Value) : Value :=
  if value = .null then .null
  else if found k type set value then .bool true
  else if .null ∈ set.values then .null
  else .bool false

/-- A null is in the lists that have one. -/
def arrowIn (k : Kernels) (type : DataType) (set : Column) (value : Value) : Value :=
  if value = .null then .bool (.null ∈ set.values) else .bool (found k type set value)

/-- The tables of Kleene. -/
def kleene : Connective → Value → Value → Value
  | .and, .bool false, _ => .bool false
  | .and, _, .bool false => .bool false
  | .and, .bool true, .bool true => .bool true
  | .or, .bool true, _ => .bool true
  | .or, _, .bool true => .bool true
  | .or, .bool false, .bool false => .bool false
  | _, _, _ => .null

/-- The value of a column or literal at a row, with its type. -/
def leafValue (k : Kernels) (batch : Batch) (index : Nat) (leaf : Expr) :
    Except Raised (DataType × Value) := do
  let column ← compileExpr k batch leaf
  return (column.type, (column.values[index]?).getD .null)

/-- Has a column or literal a value at a row? -/
def leafPresent (k : Kernels) (batch : Batch) (index : Nat) (leaf : Expr) : Bool :=
  match leafValue k batch index leaf with
  | .ok (_, value) => value ≠ .null
  | .error _ => false

/-- No null occurs in an expression outside of searches in lists. -/
def present (k : Kernels) (batch : Batch) (index : Nat) : Expr → Bool
  | .compare _ left right => present k batch index left && present k batch index right
  | .join _ left right => present k batch index left && present k batch index right
  | .not operand => present k batch index operand
  | .isIn _ _ => true
  | .col name => leafPresent k batch index (.col name)
  | .lit value => leafPresent k batch index (.lit value)

/-- No null occurs in an expression, nor in its lists. -/
def complete (k : Kernels) (batch : Batch) (index : Nat) : Expr → Bool
  | .compare _ left right => complete k batch index left && complete k batch index right
  | .join _ left right => complete k batch index left && complete k batch index right
  | .not operand => complete k batch index operand
  | .isIn left items => complete k batch index left &&
      match k.array items with
      | .ok set => .null ∉ set.values
      | .error _ => false
  | .col name => leafPresent k batch index (.col name)
  | .lit value => leafPresent k batch index (.lit value)

/-- The value of an expression at a row in three-valued logic, with its type. For the engine a value
with nulls among its operands is null when it is searched. -/
def ternary (k : Kernels) (reading : Reading) (batch : Batch) (index : Nat) :
    Expr → Except Raised (DataType × Value)
  | .compare op left right => do
      let (leftType, first) ← ternary k reading batch index left
      let (rightType, second) ← ternary k reading batch index right
      return (.bool, strictly (fun first second => .bool (k.holds op leftType rightType first second))
        first second)
  | .join op left right => do
      let (_, first) ← ternary k reading batch index left
      let (_, second) ← ternary k reading batch index right
      return (.bool, kleene op first second)
  | .not operand => do
      let (_, value) ← ternary k reading batch index operand
      return (.bool, inverted value)
  | .isIn left items => do
      let (type, value) ← ternary k reading batch index left
      let set ← k.array items
      return (.bool, match reading with
        | .sql => sqlIn k type set value
        | .arrow => arrowIn k type set (if present k batch index left then value else .null))
  | .col name => leafValue k batch index (.col name)
  | .lit value => leafValue k batch index (.lit value)

/-! ## Columns -/

/-- A column has as many values as its batch has rows, and truth values if that is its type. -/
structure Sound (num_rows : Nat) (column : Column) : Prop where
  length : column.values.length = num_rows
  truths : column.type = .bool → ∀ value ∈ column.values, value = .null ∨ ∃ flag, value = .bool flag

/-- All columns of a batch are sound. -/
def SoundBatch (batch : Batch) : Prop := ∀ column ∈ batch.columns, Sound batch.num_rows column.2

/-- What Arrow documents: arrays have the values that they are given, comparisons make null of every
null, and searches answer for every value. -/
structure Kernels.Lawful (k : Kernels) : Prop where
  array : ∀ values column, k.array values = .ok column → Sound values.length column
  compare : ∀ op left right mask, k.compare op left right = .ok mask →
    mask = zipColumns (fun first second => .bool (k.holds op left.type right.type first second))
      left right
  is_in : ∀ column set mask, k.is_in column set = .ok mask →
    mask = { type := .bool, values := column.values.map (arrowIn k column.type set) }

/-- What the engine computes at a row is what the logic says if no null occurs, and else null. -/
structure Agrees (k : Kernels) (batch : Batch) (index : Nat) (expr : Expr) (column : Column) : Prop where
  sound : Sound batch.num_rows column
  value : ∃ value, ternary k .arrow batch index expr = .ok (column.type, value) ∧
    (present k batch index expr = true → value ≠ .null) ∧
      column.values[index]? = some (if present k batch index expr then value else .null)

section Kernels

variable {k : Kernels} {batch : Batch} {index : Nat}

theorem zipColumns_sound {num_rows : Nat} {left right : Column}
    {join : Value → Value → Value} (truths : ∀ first second, join first second = .null ∨
      ∃ flag, join first second = .bool flag)
    (leftSound : Sound num_rows left) (rightSound : Sound num_rows right) :
    Sound num_rows (zipColumns join left right) := by
  constructor
  · rw [zipColumns, List.length_zipWith, leftSound.length, rightSound.length, Nat.min_self]
  · intro _ value member
    obtain ⟨place, inside, rfl⟩ := List.getElem_of_mem member
    simp only [zipColumns, List.getElem_zipWith, strictly]
    split
    · exact .inl rfl
    · exact truths _ _

/-- Where no truth value is null the two connectives agree. -/
theorem kleene_joined (op : Connective) {first second : Value} (isTruth : ∃ flag, first = .bool flag)
    (isTruthToo : ∃ flag, second = .bool flag) :
    strictly (joined op) first second = kleene op first second ∧ kleene op first second ≠ .null := by
  obtain ⟨first, rfl⟩ := isTruth
  obtain ⟨second, rfl⟩ := isTruthToo
  cases op <;> cases first <;> cases second <;> exact ⟨rfl, nofun⟩

/-- A truth value of a sound column that is no null. -/
theorem Sound.truth {column : Column} {value : Value} (sound : Sound batch.num_rows column)
    (type : column.type = .bool) (held : column.values[index]? = some value) (there : value ≠ .null) :
    ∃ flag, value = .bool flag :=
  (sound.truths type value (List.mem_of_getElem? held)).resolve_left there

theorem strictly_left {join : Value → Value → Value} {second : Value} :
    strictly join .null second = .null := if_pos (.inl rfl)

theorem strictly_right {join : Value → Value → Value} {first : Value} :
    strictly join first .null = .null := if_pos (.inr rfl)

theorem strictly_present {join : Value → Value → Value} {first second : Value}
    (there : first ≠ .null) (thereToo : second ≠ .null) :
    strictly join first second = join first second := if_neg (not_or.mpr ⟨there, thereToo⟩)

theorem column_of_batch {name : String} {column : Column} (read : batch.column name = .ok column) :
    ∃ entry ∈ batch.columns, entry.2 = column := by
  rw [Batch.column] at read
  split at read
  · next entry alone =>
    cases read
    have among : entry ∈ batch.columns.filter fun column => column.1 = name := by
      rw [alone]
      exact List.mem_cons_self
    exact ⟨entry, List.mem_of_mem_filter among, rfl⟩
  · cases read

/-- The engine and the logic agree on an expression that the engine can evaluate. -/
theorem compileExpr_agrees (lawful : k.Lawful) (soundBatch : SoundBatch batch)
    (inside : index < batch.num_rows) (expr : Expr) {column : Column}
    (compiled : compileExpr k batch expr = .ok column) : Agrees k batch index expr column := by
  -- a column or a literal
  have leaf {expr : Expr} {column : Column} (compiled : compileExpr k batch expr = .ok column)
      (sound : Sound batch.num_rows column)
      (reads : ternary k .arrow batch index expr = leafValue k batch index expr)
      (shown : present k batch index expr = leafPresent k batch index expr) :
      Agrees k batch index expr column := by
    obtain ⟨value, held⟩ : ∃ value, column.values[index]? = some value :=
      ⟨_, List.getElem?_eq_getElem (sound.length ▸ inside)⟩
    have read : leafValue k batch index expr = .ok (column.type, value) := by
      rw [leafValue, compiled, ok_bind, held]
      rfl
    refine ⟨sound, value, reads.trans read, ?_, ?_⟩
    · rw [shown, leafPresent, read]
      exact of_decide_eq_true
    · rw [shown, leafPresent, read, held]
      by_cases none : value = .null
      · simp [none]
      · simp [none]
  induction expr generalizing column with
  | col name =>
    refine leaf compiled ?_ rfl rfl
    obtain ⟨entry, member, rfl⟩ := column_of_batch compiled
    exact soundBatch entry member
  | lit value =>
    refine leaf compiled ?_ rfl rfl
    obtain ⟨scalar, _, made⟩ := except_bind_ok compiled
    have fits := lawful.array _ _ made
    rwa [List.length_replicate] at fits
  | compare op left right leftHypothesis rightHypothesis =>
    obtain ⟨first, firstCompiled, rest⟩ := except_bind_ok compiled
    obtain ⟨second, secondCompiled, compared⟩ := except_bind_ok rest
    obtain ⟨soundFirst, a, readsFirst, thereFirst, heldFirst⟩ := leftHypothesis firstCompiled
    obtain ⟨soundSecond, b, readsSecond, thereSecond, heldSecond⟩ := rightHypothesis secondCompiled
    obtain rfl := lawful.compare _ _ _ _ compared
    refine ⟨zipColumns_sound (fun _ _ => .inr ⟨_, rfl⟩) soundFirst soundSecond, strictly (fun a b =>
      .bool (k.holds op first.type second.type a b)) a b, ?_, ?_, ?_⟩
    · rw [ternary, readsFirst, ok_bind, readsSecond]
      rfl
    · intro there
      obtain ⟨thereLeft, thereRight⟩ := Bool.and_eq_true_iff.mp there
      rw [strictly_present (thereFirst thereLeft) (thereSecond thereRight)]
      exact nofun
    · rw [zipColumns_found heldFirst heldSecond, present]
      cases present k batch index left with
      | false => rw [if_neg Bool.false_ne_true, strictly_left]; rfl
      | true =>
        cases present k batch index right with
        | false => rw [if_neg Bool.false_ne_true, strictly_right]; rfl
        | true => rfl
  | join op left right leftHypothesis rightHypothesis =>
    obtain ⟨first, firstCompiled, rest⟩ := except_bind_ok compiled
    obtain ⟨second, secondCompiled, made⟩ := except_bind_ok rest
    obtain ⟨soundFirst, a, readsFirst, thereFirst, heldFirst⟩ := leftHypothesis firstCompiled
    obtain ⟨soundSecond, b, readsSecond, thereSecond, heldSecond⟩ := rightHypothesis secondCompiled
    rw [joinColumns] at made
    split at made
    · next types =>
      cases made
      have truths (thereLeft : present k batch index left = true)
          (thereRight : present k batch index right = true) :=
        kleene_joined op
          (soundFirst.truth types.1 (by rw [heldFirst, if_pos thereLeft]) (thereFirst thereLeft))
          (soundSecond.truth types.2 (by rw [heldSecond, if_pos thereRight]) (thereSecond thereRight))
      refine ⟨zipColumns_sound (fun first second => ?_) soundFirst soundSecond, kleene op a b,
        ?_, ?_, ?_⟩
      · cases first <;> cases second <;> first | exact .inl rfl | exact .inr ⟨_, rfl⟩
      · rw [ternary, readsFirst, ok_bind, readsSecond]
        rfl
      · intro there
        obtain ⟨thereLeft, thereRight⟩ := Bool.and_eq_true_iff.mp there
        exact (truths thereLeft thereRight).2
      · rw [zipColumns_found heldFirst heldSecond, present]
        cases thereLeft : present k batch index left with
        | false => rw [if_neg Bool.false_ne_true, strictly_left]; rfl
        | true =>
          cases thereRight : present k batch index right with
          | false => rw [if_neg Bool.false_ne_true, strictly_right]; rfl
          | true => exact congrArg some (truths thereLeft thereRight).1
    · cases made
  | not operand inductionHypothesis =>
    obtain ⟨inner, innerCompiled, made⟩ := except_bind_ok compiled
    obtain ⟨sound, value, reads, there, held⟩ := inductionHypothesis innerCompiled
    rw [invertColumn] at made
    split at made
    · next type =>
      cases made
      refine ⟨⟨by rw [List.length_map, sound.length], fun _ value member => ?_⟩, inverted value,
        ?_, ?_, ?_⟩
      · obtain ⟨value, _, rfl⟩ := List.mem_map.mp member
        cases value <;> first | exact .inl rfl | exact .inr ⟨_, rfl⟩
      · rw [ternary, reads]
        rfl
      · intro thereInner
        have isThere : present k batch index operand = true := thereInner
        obtain ⟨flag, rfl⟩ := sound.truth type (by rw [held, if_pos isThere]) (there isThere)
        exact nofun
      · rw [List.getElem?_map, held, present]
        cases present k batch index operand <;> rfl
    · cases made
  | isIn left items inductionHypothesis =>
    obtain ⟨inner, innerCompiled, rest⟩ := except_bind_ok compiled
    obtain ⟨set, listed, made⟩ := except_bind_ok rest
    obtain ⟨sound, value, reads, there, held⟩ := inductionHypothesis innerCompiled
    obtain rfl := lawful.is_in _ _ _ made
    have answers (value : Value) : ∃ flag, arrowIn k inner.type set value = .bool flag := by
      rw [arrowIn]
      split <;> exact ⟨_, rfl⟩
    refine ⟨⟨by rw [List.length_map, sound.length], fun _ value member => ?_⟩,
      arrowIn k inner.type set (if present k batch index left then value else .null), ?_, ?_, ?_⟩
    · obtain ⟨value, _, rfl⟩ := List.mem_map.mp member
      exact .inr (answers value)
    · rw [ternary, reads, ok_bind, listed]
      rfl
    · intro _
      obtain ⟨flag, answer⟩ := answers (if present k batch index left then value else .null)
      rw [answer]
      exact nofun
    · rw [List.getElem?_map, held]
      rfl

/-- Without any null the two readings of a search agree. -/
theorem complete_agrees (lawful : k.Lawful) (soundBatch : SoundBatch batch)
    (inside : index < batch.num_rows) (expr : Expr) {column : Column}
    (compiled : compileExpr k batch expr = .ok column)
    (full : complete k batch index expr = true) :
    present k batch index expr = true ∧
      ternary k .sql batch index expr = ternary k .arrow batch index expr := by
  induction expr generalizing column with
  | col name => exact ⟨full, rfl⟩
  | lit value => exact ⟨full, rfl⟩
  | compare op left right leftHypothesis rightHypothesis =>
    obtain ⟨first, firstCompiled, rest⟩ := except_bind_ok compiled
    obtain ⟨second, secondCompiled, _⟩ := except_bind_ok rest
    obtain ⟨fullLeft, fullRight⟩ := Bool.and_eq_true_iff.mp full
    obtain ⟨thereLeft, sameLeft⟩ := leftHypothesis firstCompiled fullLeft
    obtain ⟨thereRight, sameRight⟩ := rightHypothesis secondCompiled fullRight
    refine ⟨Bool.and_eq_true_iff.mpr ⟨thereLeft, thereRight⟩, ?_⟩
    rw [ternary, ternary, sameLeft, sameRight]
  | join op left right leftHypothesis rightHypothesis =>
    obtain ⟨first, firstCompiled, rest⟩ := except_bind_ok compiled
    obtain ⟨second, secondCompiled, _⟩ := except_bind_ok rest
    obtain ⟨fullLeft, fullRight⟩ := Bool.and_eq_true_iff.mp full
    obtain ⟨thereLeft, sameLeft⟩ := leftHypothesis firstCompiled fullLeft
    obtain ⟨thereRight, sameRight⟩ := rightHypothesis secondCompiled fullRight
    refine ⟨Bool.and_eq_true_iff.mpr ⟨thereLeft, thereRight⟩, ?_⟩
    rw [ternary, ternary, sameLeft, sameRight]
  | not operand inductionHypothesis =>
    obtain ⟨inner, innerCompiled, _⟩ := except_bind_ok compiled
    obtain ⟨there, same⟩ := inductionHypothesis innerCompiled full
    refine ⟨there, ?_⟩
    rw [ternary, ternary, same]
  | isIn left items inductionHypothesis =>
    obtain ⟨inner, innerCompiled, rest⟩ := except_bind_ok compiled
    obtain ⟨set, listed, _⟩ := except_bind_ok rest
    obtain ⟨fullLeft, noNull⟩ := Bool.and_eq_true_iff.mp full
    obtain ⟨there, same⟩ := inductionHypothesis innerCompiled fullLeft
    obtain ⟨_, value, reads, notNull, _⟩ :=
      compileExpr_agrees lawful soundBatch inside left innerCompiled
    refine ⟨rfl, ?_⟩
    rw [listed] at noNull
    have lacks : .null ∉ set.values := of_decide_eq_true noNull
    have valued := notNull there
    have answer : sqlIn k inner.type set value = arrowIn k inner.type set value := by
      rw [sqlIn, arrowIn, if_neg valued, if_neg valued, if_neg lacks]
      cases found k inner.type set value <;> rfl
    rw [ternary, ternary, same, reads, listed]
    simp only [ok_bind, there, if_true, answer]

/-! ## The filter -/

/-- The values where a mask is true are those at the indices where it is. -/
theorem keepTrue_eq {mask values : List Value} (long : values.length ≤ mask.length) :
    keepTrue mask values = ((List.range values.length).filter fun index =>
      mask[index]? = some (.bool true)).filterMap (values[·]?) := by
  induction values generalizing mask with
  | nil => rfl
  | cons value values inductionHypothesis =>
    cases mask with
    | nil => cases long
    | cons flag mask =>
      have rest := inductionHypothesis (Nat.le_of_succ_le_succ long)
      rw [keepTrue] at rest ⊢
      rw [List.length_cons, List.range_succ_eq_map, List.zip_cons_cons, List.filter_cons,
        List.filter_cons, List.filter_map]
      by_cases isTrue : flag = .bool true
      · simp [isTrue, rest, List.filterMap_map, Function.comp_def]
      · simp [isTrue, rest, List.filterMap_map, Function.comp_def]

/-- What the filter gives of a batch are its rows that are kept, in order. -/
theorem filtered_rows (lawful : k.Lawful) (soundBatch : SoundBatch batch) {predicate : Expr}
    {mask : Column} {filtered : Batch} (compiled : compileExpr k batch predicate = .ok mask)
    (passed : batch.filter mask = .ok filtered) :
    ∃ kept : List Nat, kept.Pairwise (· < ·) ∧
      (∀ index, index ∈ kept ↔ index < batch.num_rows ∧ Keeps k batch predicate index) ∧
        filtered.columns = batch.columns.map fun entry =>
          (entry.1, { entry.2 with values := kept.filterMap (entry.2.values[·]?) }) := by
  rw [Batch.filter] at passed
  split at passed
  · next type =>
    cases passed
    refine ⟨(List.range batch.num_rows).filter fun index => mask.values[index]? = some (.bool true),
      List.pairwise_lt_range.filter _, fun index => ?_, List.map_congr_left fun entry member => ?_⟩
    · rw [List.mem_filter, List.mem_range, decide_eq_true_eq]
      refine and_congr_right fun _ => ⟨fun isTrue => ⟨mask, compiled, type, isTrue⟩, ?_⟩
      rintro ⟨other, again, _, isTrue⟩
      rw [compiled] at again
      cases again
      exact isTrue
    · have length := (soundBatch entry member).length
      have long : entry.2.values.length ≤ mask.values.length := by
        rw [length]
        rcases Nat.eq_zero_or_pos batch.num_rows with none | some_row
        · rw [none]
          exact Nat.zero_le _
        · exact (compileExpr_agrees lawful soundBatch some_row predicate compiled).sound.length.ge
      rw [keepTrue_eq long, length]
  · cases passed

/-- The filter gives the next batch of which it keeps rows; of the batches before it keeps none. -/
theorem nextBatch_spec {predicate : Expr} {batches : List Batch} {answer : Option (Batch × List Batch)}
    (answered : nextBatch k predicate batches = .ok answer) :
    (answer = none ∧ ∀ batch ∈ batches, ∃ mask filtered, compileExpr k batch predicate = .ok mask ∧
      batch.filter mask = .ok filtered ∧ filtered.num_rows = 0) ∨
    ∃ front batch rest mask filtered, batches = front ++ batch :: rest ∧
      answer = some (filtered, rest) ∧ compileExpr k batch predicate = .ok mask ∧
        batch.filter mask = .ok filtered ∧ 0 < filtered.num_rows ∧
          ∀ earlier ∈ front, ∃ mask filtered, compileExpr k earlier predicate = .ok mask ∧
            earlier.filter mask = .ok filtered ∧ filtered.num_rows = 0 := by
  induction batches with
  | nil =>
    cases answered
    exact .inl ⟨rfl, nofun⟩
  | cons batch rest inductionHypothesis =>
    obtain ⟨mask, compiled, answered⟩ := except_bind_ok answered
    obtain ⟨filtered, passed, answered⟩ := except_bind_ok answered
    split at answered
    · next some_row =>
      cases answered
      exact .inr ⟨[], batch, rest, mask, filtered, rfl, rfl, compiled, passed, some_row, nofun⟩
    · next no_row =>
      have none : ∃ mask filtered, compileExpr k batch predicate = .ok mask ∧
          batch.filter mask = .ok filtered ∧ filtered.num_rows = 0 :=
        ⟨mask, filtered, compiled, passed, Nat.eq_zero_of_not_pos no_row⟩
      rcases inductionHypothesis answered with ⟨ends, all⟩ | ⟨front, later, behind, found⟩
      · exact .inl ⟨ends, List.forall_mem_cons.mpr ⟨none, all⟩⟩
      · obtain ⟨mask, filtered, rfl, given, compiled, passed, some_row, all⟩ := found
        exact .inr ⟨batch :: front, later, behind, mask, filtered, rfl, given, compiled, passed,
          some_row, List.forall_mem_cons.mpr ⟨none, all⟩⟩

/-- A row is kept if the predicate can be evaluated, no null occurs in it outside of searches in
lists, and it is true there, where a null is in the lists that have one and a value with a null
among its operands counts as null. If no null occurs at all, that is three-valued logic. -/
theorem kept_rows (lawful : k.Lawful) (soundBatch : SoundBatch batch) (inside : index < batch.num_rows)
    (predicate : Expr) :
    (Keeps k batch predicate index ↔
      (∃ mask, compileExpr k batch predicate = .ok mask ∧ mask.type = .bool) ∧
        present k batch index predicate = true ∧
          ternary k .arrow batch index predicate = .ok (.bool, .bool true)) ∧
    (complete k batch index predicate = true → (Keeps k batch predicate index ↔
      (∃ mask, compileExpr k batch predicate = .ok mask ∧ mask.type = .bool) ∧
        ternary k .sql batch index predicate = .ok (.bool, .bool true))) := by
  have first : Keeps k batch predicate index ↔
      (∃ mask, compileExpr k batch predicate = .ok mask ∧ mask.type = .bool) ∧
        present k batch index predicate = true ∧
          ternary k .arrow batch index predicate = .ok (.bool, .bool true) := by
    constructor
    · rintro ⟨mask, compiled, type, isTrue⟩
      obtain ⟨_, value, reads, _, held⟩ :=
        compileExpr_agrees lawful soundBatch inside predicate compiled
      rw [isTrue] at held
      cases there : present k batch index predicate with
      | false =>
        rw [there] at held
        cases held
      | true =>
        rw [there] at held
        cases held
        exact ⟨⟨mask, compiled, type⟩, rfl, type ▸ reads⟩
    · rintro ⟨⟨mask, compiled, type⟩, there, reads⟩
      obtain ⟨_, value, readsToo, _, held⟩ :=
        compileExpr_agrees lawful soundBatch inside predicate compiled
      rw [reads] at readsToo
      obtain ⟨_, rfl⟩ := Prod.mk.inj (Except.ok.inj readsToo)
      exact ⟨mask, compiled, type, by rw [held, if_pos there]⟩
  refine ⟨first, fun full => first.trans (and_congr_right ?_)⟩
  rintro ⟨mask, compiled, _⟩
  obtain ⟨there, same⟩ := complete_agrees lawful soundBatch inside predicate compiled full
  rw [same]
  exact and_iff_right there

end Kernels

/-! ## Plain kernels -/

/-- Whether values of booleans, integers and texts compare in a way. -/
def plainHolds (op : Comparison) (left right : Value) : Bool :=
  match pyCompare Runtime.plain (fun _ _ _ => .ok false) op left right with
  | .ok answer => answer
  | .error _ => false

def Kernels.plain : Kernels where
  scalar := .ok
  array values := (plainColumn values).map fun type => { type, values }
  compare op left right :=
    if Comparable left.type right.type ∨ left.type = .null ∨ right.type = .null then
      .ok (zipColumns (fun first second => .bool (plainHolds op first second)) left right)
    else .error (.arrowError "no matching kernel")
  is_in column set := .ok
    { type := .bool
      values := column.values.map fun value =>
        if value = .null then .bool (.null ∈ set.values)
        else .bool (set.values.any fun item => item ≠ .null && plainHolds .eq value item) }
  holds op _ _ := plainHolds op

theorem plainType_bool {value : Value} (type : value.plainType = some .bool) :
    ∃ flag, value = .bool flag := by
  cases value with
  | bool flag => exact ⟨flag, rfl⟩
  | int number =>
    rw [Value.plainType] at type
    split at type <;> cases type
  | _ => cases type

theorem Kernels.plain_lawful : Kernels.plain.Lawful where
  array := by
    intro values column made
    replace made : (plainColumn values).map (fun type => ({ type, values } : Column)) = .ok column := made
    cases inferred : plainColumn values with
    | error raised =>
      rw [inferred] at made
      cases made
    | ok type =>
      rw [inferred] at made
      cases made
      refine ⟨rfl, fun isBool value member => ?_⟩
      obtain rfl : type = .bool := isBool
      by_cases none : value = .null
      · exact .inl none
      · right
        have present : value ∈ values.filter (· ≠ .null) := List.mem_filter.mpr ⟨member, decide_eq_true none⟩
        rw [plainColumn] at inferred
        split at inferred
        · cases inferred
        · next first rest held =>
          rw [held] at present
          split at inferred
          · cases inferred
          · next given plain =>
            split at inferred
            · next all =>
              cases inferred
              rcases List.mem_cons.mp present with rfl | later
              · exact plainType_bool plain
              · exact plainType_bool (of_decide_eq_true (List.all_eq_true.mp all value later))
            · cases inferred
  compare := by
    intro op left right mask made
    simp only [Kernels.plain] at made
    split at made
    · exact (Except.ok.inj made).symm
    · cases made
  is_in := by
    intro column set mask made
    exact (Except.ok.inj made).symm

/-- A batch with a truth value that is null and an integer that is null. -/
def nullBatch : Batch where
  columns := [("flag", { type := .bool, values := [.null] }),
    ("age", { type := .int64, values := [.null] })]
  num_rows := 1

/-- A comparison with a null does not keep a row. -/
theorem age_not_kept : ¬ Keeps .plain nullBatch (.compare .eq (.col "age") (.lit (.int 3))) 0 := by
  have soundBatch : SoundBatch nullBatch := by
    refine List.forall_mem_cons.mpr ⟨⟨rfl, fun _ value member => ?_⟩,
      List.forall_mem_singleton.mpr ⟨rfl, nofun⟩⟩
    exact .inl (List.mem_singleton.mp member)
  rw [(kept_rows Kernels.plain_lawful soundBatch Nat.zero_lt_one _).1]
  rintro ⟨_, there, _⟩
  exact absurd there (by decide)

/-- With a null that the other operand decides, or that is searched in a list under a negation, the
filter does not follow three-valued logic. -/
theorem null_decided :
    (¬ Keeps .plain nullBatch (.join .or (.col "flag") (.lit (.bool true))) 0 ∧
      ternary .plain .sql nullBatch 0 (.join .or (.col "flag") (.lit (.bool true))) =
        .ok (.bool, .bool true)) ∧
    (Keeps .plain nullBatch (.not (.isIn (.col "age") [.int 1])) 0 ∧
      ternary .plain .sql nullBatch 0 (.not (.isIn (.col "age") [.int 1])) = .ok (.bool, .null)) := by
  refine ⟨⟨?_, by decide⟩, ⟨{ type := .bool, values := [.bool true] }, by decide, rfl, rfl⟩, by decide⟩
  rintro ⟨mask, compiled, _, isTrue⟩
  have computed : compileExpr .plain nullBatch (.join .or (.col "flag") (.lit (.bool true))) =
      .ok { type := .bool, values := [.null] } := by decide
  rw [computed] at compiled
  cases compiled
  cases isTrue

end CaracalDB.ThreeValued
