import CaracalDB.PlanAgreement

/-!
# Orders over batches

The Python operator sorts one table of all batches. The Rust one sorts, skips and limits every batch for
itself, so what it yields depends on how the rows are split into batches, unless they are in order
anyway and nothing is skipped or left out, or nothing is left at all.
-/

namespace CaracalDB.RustPlan

/-- `execute_to_batches` of a `TopKOperator` over a child that yields some batches. -/
def topKRun (order_by : String) (skip : Nat) (limit : Option Nat) (batches : List Batch) :
    Except Raised (List Batch) :=
  (batches.map fun batch => topKBatch order_by skip limit batch).mapM id

/-- Numbers in ascending order, and nulls behind them. -/
def nullsLast (column : String) (first second : Row) : Prop :=
  cell column second = .null ∨
    cell column first ≠ .null ∧ u64Of (cell column first) ≤ u64Of (cell column second)

instance (column : String) : DecidableRel (nullsLast column) := fun first second =>
  inferInstanceAs (Decidable (cell column second = .null ∨
    cell column first ≠ .null ∧ u64Of (cell column first) ≤ u64Of (cell column second)))

/-- The rows from an offset on, no more than a limit, of the stable sort of all rows. -/
def globalOrder (column : String) (skip : Nat) (limit : Option Nat) (rows : List Row) : List Row :=
  sliced skip limit (rows.insertionSort (nullsLast column))

/-- Batches of some columns that have some rows. -/
structure Splits (columns : Columns) (rows : List Row) (batches : List Batch) : Prop where
  columns : ∀ batch ∈ batches, batch.columns = columns
  rows : batches.flatMap Batch.rows = rows

section Orders

variable {column : String} {skip : Nat} {limit : Option Nat} {columns : Columns} {rows : List Row}
  {batches : List Batch}

theorem nullsLast_total (column : String) (first second : Row) :
    nullsLast column first second ∨ nullsLast column second first := by
  by_cases firstNull : cell column first = .null
  · right
    left
    exact firstNull
  · by_cases secondNull : cell column second = .null
    · left
      left
      exact secondNull
    · exact (Nat.le_total (u64Of (cell column first)) (u64Of (cell column second))).imp
        (fun less => .inr ⟨firstNull, less⟩) fun less => .inr ⟨secondNull, less⟩

theorem nullsLast_trans (column : String) (first second third : Row)
    (before : nullsLast column first second) (behind : nullsLast column second third) :
    nullsLast column first third := by
  rcases behind with isNull | ⟨visible, less⟩
  · left
    exact isNull
  · obtain ⟨visibleToo, lessToo⟩ := before.resolve_left visible
    right
    exact ⟨visibleToo, lessToo.trans less⟩

theorem sorted_global (column : String) (rows : List Row) :
    (rows.insertionSort (nullsLast column)).Pairwise (nullsLast column) := by
  have : Std.Total (nullsLast column) := ⟨nullsLast_total column⟩
  have : IsTrans Row (nullsLast column) := ⟨nullsLast_trans column⟩
  exact List.pairwise_insertionSort _ rows

/-- Rows in order are in the order of the engine's keys, where a null counts as the greatest number. -/
theorem keyLe_of_nullsLast {first second : Row} (before : nullsLast column first second) :
    keyLe column first second := by
  have bounded (value : Value) : u64Of value ≤ U64_MAX := by
    cases value with
    | int number =>
      have small := Nat.mod_lt number.toNat (Nat.succ_pos U64_MAX)
      exact Nat.le_of_lt_succ small
    | _ => exact Nat.zero_le _
  rw [keyLe, sortKey, sortKey]
  rcases before with isNull | ⟨visible, less⟩
  · rw [if_pos isNull]
    split
    · exact le_refl _
    · exact bounded _
  · rw [if_neg visible]
    split
    · exact bounded _
    · exact less

theorem sliced_length (skip : Nat) (limit : Option Nat) (rows : List Row) :
    (sliced skip limit rows).length =
      limit.elim (rows.length - skip) fun limit => min limit (rows.length - skip) := by
  cases limit with
  | none => exact List.length_drop
  | some limit => rw [sliced, List.length_take, List.length_drop]; rfl

/-- A slice of nothing or behind the end is empty. -/
theorem sliced_nothing (none_left : limit = some 0 ∨ rows.length ≤ skip) : sliced skip limit rows = [] := by
  apply List.eq_nil_of_length_eq_zero
  rw [sliced_length]
  cases limit with
  | none =>
    have short := none_left.resolve_left nofun
    exact Nat.sub_eq_zero_of_le short
  | some limit =>
    rw [Option.elim_some]
    rcases none_left with zero | short
    · cases zero
      exact Nat.zero_min _
    · omega

/-- A slice that skips nothing and has room for all rows is the rows. -/
theorem sliced_whole (room : ∀ most ∈ limit, rows.length ≤ most) : sliced 0 limit rows = rows := by
  cases limit with
  | none => rfl
  | some limit => exact List.take_of_length_le (room limit rfl)

/-- The operator over batches with a column of type UInt64. -/
theorem topKRun_ok (known : columns.lookup column = some .uint64)
    (splits : Splits columns rows batches) :
    topKRun column skip limit batches = .ok (batches.map fun batch =>
      { batch with rows := sliced skip limit (batch.rows.insertionSort (keyLe column)) }) := by
  rw [topKRun, List.mapM_map]
  refine mapM_of_ok _ batches fun batch member => ?_
  rw [Function.comp_apply, id, topKBatch, u64Column, splits.columns batch member, known]
  rfl

/-- The order of the Python operator is the same. -/
theorem rowLe_ascending (compute : Compute) (column : String) (first second : Row) :
    rowLe compute [ascending column] first second ↔ nullsLast column first second := by
  rw [rowLe, compareRows, compareRows, nullsLast, compareValues]
  simp only [ascending, compute.less_uint64]
  by_cases firstNull : cell column first = .null <;> by_cases secondNull : cell column second = .null
  · simp [firstNull, secondNull]
  · simp [firstNull, secondNull]
  · simp [firstNull, secondNull]
  · simp only [firstNull, secondNull, if_false, and_self, decide_eq_true_eq, Bool.false_eq_true]
    split_ifs with less more
    · simp [firstNull]
      omega
    · simp [firstNull]
      omega
    · simp [firstNull]
      omega

/-- The Python operator yields the rows of the global order, whatever the batches are. -/
theorem pythonTopK_global (compute : Compute) (skip : Nat) (limit : Option Nat)
    (known : columns.lookup column = some .uint64)
    (splits : Splits columns rows batches) :
    ∃ made, pythonTopK compute (.name column) (some skip) limit batches = .ok made ∧
      made.flatMap Batch.rows = globalOrder column skip limit rows := by
  cases batches with
  | nil =>
    have none : rows = [] := splits.rows.symm
    refine ⟨[], rfl, ?_⟩
    rw [globalOrder, none, sliced_nothing (.inr (Nat.zero_le skip))]
    rfl
  | cons first others =>
    have key : (OrderBy.name column).all.mapM (pythonKey first.columns) =
        .ok [ascending column] := by
      rw [OrderBy.all, List.mapM_cons, List.mapM_nil, pythonKey,
        splits.columns first List.mem_cons_self]
      simp only [known]
      rfl
    have sorted : rows.insertionSort (rowLe compute [ascending column]) =
        rows.insertionSort (nullsLast column) := by
      have agree := map_insertionSort_of_pairwise id rows
        (List.pairwise_of_forall fun first second => rowLe_ascending compute column first second)
      rwa [List.map_id, List.map_id] at agree
    rw [pythonTopK, key, ok_bind, splits.rows]
    simp only [Option.getD_some, sorted]
    by_cases none_left : sliced skip limit (rows.insertionSort (nullsLast column)) = []
    · refine ⟨[], ?_, ?_⟩
      · simp only [none_left, if_true]
        rfl
      · rw [globalOrder, none_left]
        rfl
    · refine ⟨[{ columns := first.columns, rows := _ }], ?_, List.flatMap_singleton _ _⟩
      simp only [none_left, if_false]
      rfl

/-- However some rows are split into batches, the operator yields the rows of the global order, and so
does the Python operator. -/
def Global (compute : Compute) (columns : Columns) (column : String) (skip : Nat) (limit : Option Nat)
    (rows : List Row) : Prop :=
  ∀ batches, Splits columns rows batches →
    ∃ made, topKRun column skip limit batches = .ok made ∧
      made.flatMap Batch.rows = globalOrder column skip limit rows ∧
      ∃ others, pythonTopK compute (.name column) (some skip) limit batches = .ok others ∧
        others.flatMap Batch.rows = made.flatMap Batch.rows

/-- Batches of one row each. -/
def singles (columns : Columns) (rows : List Row) : List Batch := rows.map fun row =>
  { columns, rows := [row] }

theorem singles_splits (columns : Columns) (rows : List Row) :
    Splits columns rows (singles columns rows) := by
  refine ⟨fun batch member => ?_, ?_⟩
  · obtain ⟨row, _, rfl⟩ := List.mem_map.mp member
    rfl
  · rw [singles, List.flatMap_map]
    exact List.flatMap_singleton' rows

/-- What the operator makes of the rows of a stream. -/
def perBatch (column : String) (skip : Nat) (limit : Option Nat) (batches : List Batch) : List Row :=
  batches.flatMap fun batch => sliced skip limit (batch.rows.insertionSort (keyLe column))

/-- Batches of one row each lose all rows where something is skipped, and keep all where nothing is. -/
theorem perBatch_singles (columns : Columns) (column : String) (skip : Nat) {limit : Option Nat}
    (some_left : limit ≠ some 0) (rows : List Row) :
    perBatch column skip limit (singles columns rows) = if skip = 0 then rows else [] := by
  rw [perBatch, singles, List.flatMap_map]
  split
  · next zero =>
    subst zero
    refine (List.flatMap_congr fun row _ => ?_).trans (List.flatMap_singleton' rows)
    refine sliced_whole fun most given => ?_
    refine Nat.one_le_iff_ne_zero.mpr ?_
    rintro rfl
    exact some_left given
  · next skips =>
    refine List.flatMap_eq_nil_iff.mpr fun row _ => sliced_nothing (.inr ?_)
    exact Nat.one_le_iff_ne_zero.mpr skips

/-- The operator yields the global order however the rows are split exactly if nothing is left of it, or
nothing is skipped, all rows are left and they are in order already. -/
theorem topK_global (compute : Compute) (columns : Columns) (column : String) (skip : Nat)
    (limit : Option Nat) (rows : List Row) (known : columns.lookup column = some .uint64) :
    Global compute columns column skip limit rows ↔
      limit = some 0 ∨ rows.length ≤ skip ∨
        skip = 0 ∧ (∀ most ∈ limit, rows.length ≤ most) ∧ rows.Pairwise (nullsLast column) := by
  have runs (batches : List Batch) (splits : Splits columns rows batches) :
      ∃ made, topKRun column skip limit batches = .ok made ∧
        made.flatMap Batch.rows = perBatch column skip limit batches := by
    refine ⟨_, topKRun_ok known splits, ?_⟩
    rw [List.flatMap_map, perBatch]
  have reduced : Global compute columns column skip limit rows ↔
      ∀ batches, Splits columns rows batches →
        perBatch column skip limit batches = globalOrder column skip limit rows := by
    refine forall₂_congr fun batches splits => ?_
    obtain ⟨made, run, yields⟩ := runs batches splits
    obtain ⟨others, python, yieldsToo⟩ := pythonTopK_global compute skip limit known
      splits
    constructor
    · rintro ⟨_, same, global, _⟩
      rw [run] at same
      cases same
      rw [← yields, global]
    · intro global
      exact ⟨made, run, yields.trans global, others, python, by rw [yieldsToo, yields, global]⟩
  have size : (globalOrder column skip limit rows).length =
      limit.elim (rows.length - skip) fun limit => min limit (rows.length - skip) := by
    rw [globalOrder, sliced_length, List.length_insertionSort]
  rw [reduced]
  constructor
  · intro global
    by_cases nothing : limit = some 0
    · left
      exact nothing
    · right
      have single := global _ (singles_splits columns rows)
      rw [perBatch_singles columns column skip nothing] at single
      by_cases zero : skip = 0
      · right
        rw [if_pos zero] at single
        have room : ∀ most ∈ limit, rows.length ≤ most := by
          rintro most given
          rw [← single, Option.mem_def.mp given, Option.elim_some] at size
          omega
        refine ⟨zero, room, ?_⟩
        rw [globalOrder, zero, sliced_whole (by rwa [List.length_insertionSort])] at single
        rw [single]
        exact sorted_global column rows
      · left
        rw [if_neg zero] at single
        rw [← single, List.length_nil] at size
        cases limit with
        | none =>
          rw [Option.elim_none] at size
          omega
        | some most =>
          rw [Option.elim_some] at size
          have some_left : most ≠ 0 := fun same => nothing (congrArg some same)
          omega
  · intro held batches splits
    have short (batch : Batch) (member : batch ∈ batches) : batch.rows.Sublist rows := by
      rw [← splits.rows]
      rw [List.flatMap_def]
      exact List.sublist_flatten_of_mem (List.mem_map_of_mem member)
    rcases held with nothing | behind | ⟨zero, room, sorted⟩
    · rw [globalOrder, sliced_nothing (.inl nothing)]
      exact List.flatMap_eq_nil_iff.mpr fun batch _ => sliced_nothing (.inl nothing)
    · rw [globalOrder, sliced_nothing (.inr (by rwa [List.length_insertionSort]))]
      refine List.flatMap_eq_nil_iff.mpr fun batch member => sliced_nothing (.inr ?_)
      rw [List.length_insertionSort]
      exact (short batch member).length_le.trans behind
    · subst zero
      have kept : rows.insertionSort (nullsLast column) = rows := sorted.insertionSort_eq
      rw [globalOrder, kept, sliced_whole room, perBatch, ← splits.rows]
      refine List.flatMap_congr fun batch member => ?_
      have inOrder : batch.rows.Pairwise (keyLe column) :=
        (sorted.sublist (short batch member)).imp keyLe_of_nullsLast
      rw [inOrder.insertionSort_eq]
      exact sliced_whole fun most given => (short batch member).length_le.trans (room most given)

end Orders

/-- Rows with a number each. -/
def numbered (numbers : List Nat) : List Row := numbers.map fun number => [("id", .int number)]

/-- Rows that are in order are yielded in order. -/
theorem ordered_global :
    Global wordCompute [("id", .uint64)] "id" 0 none (numbered [1, 2, 3]) :=
  (topK_global wordCompute [("id", .uint64)] "id" 0 none (numbered [1, 2, 3]) rfl).mpr
    (.inr (.inr ⟨rfl, nofun, by decide⟩))

/-- Of two batches both first rows are yielded where one is asked for. -/
theorem batches_not_global :
    ((topKRun "id" 0 (some 1) [⟨[("id", .uint64)], numbered [2]⟩, ⟨[("id", .uint64)], numbered [1]⟩]).map
        fun made => made.flatMap Batch.rows) = .ok (numbered [2, 1]) ∧
      globalOrder "id" 0 (some 1) (numbered [2, 1]) = numbered [1] ∧
      ¬ Global wordCompute [("id", .uint64)] "id" 0 (some 1) (numbered [2, 1]) := by
  have run : topKRun "id" 0 (some 1)
      [⟨[("id", .uint64)], numbered [2]⟩, ⟨[("id", .uint64)], numbered [1]⟩] =
        .ok [⟨[("id", .uint64)], numbered [2]⟩, ⟨[("id", .uint64)], numbered [1]⟩] := rfl
  refine ⟨rfl, by decide, fun global => ?_⟩
  obtain ⟨made, same, yields, _⟩ := global
    [⟨[("id", .uint64)], numbered [2]⟩, ⟨[("id", .uint64)], numbered [1]⟩]
    ⟨fun batch member => by
      rcases List.mem_cons.mp member with rfl | rest
      · rfl
      · rw [List.mem_singleton.mp rest], rfl⟩
  rw [run] at same
  cases same
  exact absurd yields (by decide)

end CaracalDB.RustPlan
