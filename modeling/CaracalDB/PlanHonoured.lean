import CaracalDB.PlanMeaning

/-!
# Plans that the Rust engine honours

The rows of a plan are the rows that it denotes when nothing it says is ignored: no
snapshot that hides a row, one ascending order over one batch, columns of type UInt64
and none of those that carry LSNs. Batch by batch, every operator then does to the
rows what the plan says, and so do the Python operators.
-/

namespace CaracalDB.RustPlan

/-! ## Lists -/

section Sorting

variable {First Second : Type} {firstLe : First → First → Prop} {secondLe : Second → Second → Prop}
  [DecidableRel firstLe] [DecidableRel secondLe]

/-- Inserting an item only asks how it compares with the others. -/
theorem map_orderedInsert_of_agree (project : First → Second) (item : First) (items : List First)
    (agree : ∀ other ∈ items, firstLe item other ↔ secondLe (project item) (project other)) :
    (items.orderedInsert firstLe item).map project =
      (items.map project).orderedInsert secondLe (project item) := by
  induction items with
  | nil => rfl
  | cons head tail inductionHypothesis =>
    have first := agree head List.mem_cons_self
    rw [List.map_cons, List.orderedInsert_cons, List.orderedInsert_cons]
    by_cases before : firstLe item head
    · rw [if_pos before, if_pos (first.mp before)]
      rfl
    · rw [if_neg before, if_neg fun after => before (first.mpr after), List.map_cons,
        inductionHypothesis fun other member => agree other (List.mem_cons_of_mem _ member)]

/-- Sorting only asks how an item compares with those behind it. -/
theorem map_insertionSort_of_pairwise (project : First → Second) (items : List First)
    (agree : items.Pairwise fun earlier later =>
      firstLe earlier later ↔ secondLe (project earlier) (project later)) :
    (items.insertionSort firstLe).map project = (items.map project).insertionSort secondLe := by
  induction items with
  | nil => rfl
  | cons item items inductionHypothesis =>
    obtain ⟨here, later⟩ := List.pairwise_cons.mp agree
    rw [List.map_cons, List.insertionSort_cons, List.insertionSort_cons,
      ← inductionHypothesis later]
    apply map_orderedInsert_of_agree
    exact fun other member => here other ((List.mem_insertionSort firstLe).mp member)

end Sorting

theorem sliced_map (skip : Nat) (limit : Option Nat) (rows : List Row) (change : Row → Row) :
    (sliced skip limit rows).map change = sliced skip limit (rows.map change) := by
  cases limit with
  | none => exact List.map_drop
  | some limit => rw [sliced, sliced, List.map_take, List.map_drop]

/-- What is looked up is read, and nothing else is. -/
def Agree {Made : Type} (looked : Option Made) (read : Except Raised Made) : Prop :=
  match looked with
  | some made => read = .ok made
  | none => ∃ raised, read = .error raised

/-- Two ways to look up that agree item by item agree on a list. -/
theorem mapM_agree {Item Made : Type} {look : Item → Option Made} {read : Item → Except Raised Made}
    (items : List Item) (each : ∀ item ∈ items, Agree (look item) (read item)) :
    Agree (items.mapM look) (items.mapM read) := by
  induction items with
  | nil => exact rfl
  | cons item items inductionHypothesis =>
    have here := each item List.mem_cons_self
    have later := inductionHypothesis fun other member => each other (List.mem_cons_of_mem _ member)
    rw [List.mapM_cons, List.mapM_cons]
    cases looked : look item with
    | none =>
      rw [looked] at here
      obtain ⟨raised, stops⟩ := here
      exact ⟨raised, by rw [stops]; rfl⟩
    | some made =>
      rw [looked] at here
      have made_here : read item = .ok made := here
      rw [made_here, ok_bind]
      cases rest : items.mapM look with
      | none =>
        rw [rest] at later
        obtain ⟨raised, stops⟩ := later
        exact ⟨raised, by rw [stops]; rfl⟩
      | some others =>
        rw [rest] at later
        have made_later : items.mapM read = .ok others := later
        rw [made_later]
        exact rfl

/-! ## Outcomes -/

/-- An operator that does not get to the end. -/
def Fails (outcomes : List (Except Raised Batch)) : Prop := ∃ raised, .error raised ∈ outcomes

theorem mapM_fails {outcomes : List (Except Raised Batch)} (fails : Fails outcomes) :
    ∃ raised, outcomes.mapM id = .error raised := by
  induction outcomes with
  | nil =>
    obtain ⟨raised, member⟩ := fails
    cases member
  | cons outcome outcomes inductionHypothesis =>
    rw [List.mapM_cons]
    cases outcome with
    | error raised => exact ⟨raised, rfl⟩
    | ok batch =>
      obtain ⟨raised, member⟩ := fails
      rcases List.mem_cons.mp member with same | later
      · cases same
      · obtain ⟨first, stops⟩ := inductionHypothesis ⟨raised, later⟩
        exact ⟨first, by rw [id, ok_bind, stops]; rfl⟩

theorem mapM_answers (batches : List Batch) :
    (batches.map Except.ok).mapM id = (.ok batches : Except Raised (List Batch)) := by
  induction batches with
  | nil => rfl
  | cons batch batches inductionHypothesis =>
    rw [List.map_cons, List.mapM_cons, inductionHypothesis]
    rfl

/-- What fails below fails above. -/
theorem Fails.map {outcomes : List (Except Raised Batch)} (fails : Fails outcomes)
    (step : Batch → Except Raised Batch) : Fails (outcomes.map (· >>= step)) := by
  obtain ⟨raised, member⟩ := fails
  exact ⟨raised, List.mem_map.mpr ⟨_, member, rfl⟩⟩

/-- A step that answers on every batch. -/
theorem outcomes_answer {batches : List Batch} {step : Batch → Except Raised Batch}
    {plain : Batch → Batch} (each : ∀ batch ∈ batches, step batch = .ok (plain batch)) :
    (batches.map Except.ok).map (· >>= step) = (batches.map plain).map Except.ok := by
  rw [List.map_map, List.map_map]
  exact List.map_congr_left each

/-- A step that raises on every batch, of which there is one. -/
theorem outcomes_fail {batches : List Batch} {step : Batch → Except Raised Batch}
    (some_batch : batches ≠ []) (each : ∀ batch ∈ batches, ∃ raised, step batch = .error raised) :
    Fails ((batches.map Except.ok).map (· >>= step)) := by
  obtain ⟨batch, batches, rfl⟩ := List.exists_cons_of_ne_nil some_batch
  obtain ⟨raised, stops⟩ := each batch List.mem_cons_self
  refine ⟨raised, ?_⟩
  rw [List.map_cons, List.map_cons, ok_bind, stops]
  exact List.mem_cons_self

/-! ## Rows without LSNs -/

theorem lookup_public {Entry : Type} (entries : List (String × Entry)) {name : String}
    (isPublic : isMvcc name = false) :
    (entries.filter fun entry => !isMvcc entry.1).lookup name = entries.lookup name := by
  induction entries with
  | nil => rfl
  | cons entry entries inductionHypothesis =>
    obtain ⟨other, value⟩ := entry
    by_cases same : name = other
    · subst same
      rw [List.filter_cons_of_pos (by simp [isPublic])]
      simp
    · have apart : (name == other) = false := by simpa using same
      by_cases kept : isMvcc other = true
      · rw [List.filter_cons_of_neg (by simp [kept]), List.lookup_cons, apart, inductionHypothesis]
      · rw [List.filter_cons_of_pos (by simp [kept]), List.lookup_cons, List.lookup_cons, apart,
          inductionHypothesis]

theorem cell_strip {column : String} (isPublic : isMvcc column = false) (row : Row) :
    cell column (strip row) = cell column row := by
  rw [cell, cell, strip, lookup_public row isPublic]

theorem strip_strip (row : Row) : strip (strip row) = strip row := by
  simp [strip, List.filter_filter]

/-- A column that there is and that no LSN column hides behind. -/
theorem lookup_isPublic {columns : Columns} {name : String} {type : DataType}
    (bare : ∀ column ∈ columns, isMvcc column.1 = false) (found : columns.lookup name = some type) :
    isMvcc name = false := by
  induction columns with
  | nil => cases found
  | cons column columns inductionHypothesis =>
    obtain ⟨other, known⟩ := column
    rw [List.lookup_cons] at found
    by_cases same : name = other
    · exact same ▸ bare _ List.mem_cons_self
    · have apart : (name == other) = false := by simpa using same
      rw [apart] at found
      exact inductionHypothesis (fun column member => bare column (List.mem_cons_of_mem _ member))
        found

/-- The batches of an operator show a table: its columns besides those of the LSNs, and its rows. -/
structure Shows (carries : Bool) (batches : List Batch) (table : Table) : Prop where
  columns : ∀ batch ∈ batches,
    table.columns = some (batch.columns.filter fun column => !isMvcc column.1)
  stored : batches = [] → table.columns = none
  rows : rowsOf batches = table.rows
  bare : carries = false → ∀ batch ∈ batches, ∀ column ∈ batch.columns, isMvcc column.1 = false

section Shows

variable {carries : Bool} {batches : List Batch} {table : Table}

/-- A batch knows a column as the table does, if the column may be asked for. -/
theorem Shows.lookup (shown : Shows carries batches table) {batch : Batch} (member : batch ∈ batches)
    {known : Columns} (columns : table.columns = some known) {name : String}
    (isPublic : carries = true → isMvcc name = false) :
    batch.columns.lookup name = known.lookup name := by
  rw [shown.columns batch member] at columns
  cases columns
  cases bareBatch : carries with
  | true => exact (lookup_public _ (isPublic bareBatch)).symm
  | false =>
    have all := shown.bare bareBatch batch member
    rw [List.filter_eq_self.mpr fun column inside => by rw [all column inside]; rfl]

/-- A column that may be asked for and is there has nothing to do with LSNs. -/
theorem Shows.isPublic (shown : Shows carries batches table) {batch : Batch}
    (member : batch ∈ batches) {name : String} {type : DataType}
    (isPublic : carries = true → isMvcc name = false)
    (found : batch.columns.lookup name = some type) : isMvcc name = false := by
  cases bareBatch : carries with
  | true => exact isPublic bareBatch
  | false => exact lookup_isPublic (shown.bare bareBatch batch member) found

/-- Batches whose rows change as the table's rows do. -/
theorem Shows.change (shown : Shows carries batches table) {plain : Batch → Batch}
    {rows : List Row} (same : ∀ batch ∈ batches, (plain batch).columns = batch.columns)
    (changed : rowsOf (batches.map plain) = rows) :
    Shows carries (batches.map plain) { table with rows } where
  columns := by
    intro batch member
    obtain ⟨old, before, rfl⟩ := List.mem_map.mp member
    rw [same old before]
    exact shown.columns old before
  stored := fun empty => shown.stored (List.map_eq_nil_iff.mp empty)
  rows := changed
  bare := by
    intro bareBatches batch member
    obtain ⟨old, before, rfl⟩ := List.mem_map.mp member
    rw [same old before]
    exact shown.bare bareBatches old before

end Shows

/-! ## Operators -/

/-- The outcomes of an operator for what its plan denotes. -/
def Answers (carries : Bool) (outcomes : List (Except Raised Batch)) : Option Table → Prop
  | none => Fails outcomes
  | some table => ∃ batches, outcomes = batches.map Except.ok ∧ Shows carries batches table

/-- A table of unknown columns has no batches. -/
theorem Shows.empty {carries : Bool} {batches : List Batch} {table : Table}
    (shown : Shows carries batches table) (unknown : table.columns = none) : batches = [] := by
  cases batches with
  | nil => rfl
  | cons batch batches =>
    have columns := shown.columns batch List.mem_cons_self
    rw [unknown] at columns
    cases columns

theorem Shows.nonempty {carries : Bool} {batches : List Batch} {table : Table} {known : Columns}
    (shown : Shows carries batches table) (columns : table.columns = some known) : batches ≠ [] := by
  intro empty
  rw [shown.stored empty] at columns
  cases columns

section Operators

variable (compute : Compute) {carries : Bool} {outcomes : List (Except Raised Batch)}
  {denoted : Option Table}

/-- Rows that a condition on their public part picks. -/
theorem filter_strip (rows : List Row) {picks kept : Row → Bool}
    (same : ∀ row, kept (strip row) = picks row) :
    (rows.filter picks).map strip = (rows.map strip).filter kept := by
  rw [List.filter_map]
  congr 1
  exact List.filter_congr fun row _ => (same row).symm

theorem filtered_none {table : Table} (unknown : table.columns = none) (column : String)
    (value : Nat) : table.filtered compute column value = some table := by
  simp only [Table.filtered, unknown]

theorem filtered_some {table : Table} {known : Columns} (columns : table.columns = some known)
    (column : String) (value : Nat) :
    table.filtered compute column value = (known.lookup column).map fun type =>
      { table with
        rows := table.rows.filter fun row => compute.equal type (cell column row) value } := by
  simp only [Table.filtered, columns]

/-- What a filter keeps of a batch with the column. -/
def kept (column : String) (value : Nat) (batch : Batch) : Batch :=
  { batch with
    rows := batch.rows.filter fun row => cell column row ≠ .null && u64Of (cell column row) = value }

theorem filter_answers {column : String} (value : Nat) (answers : Answers carries outcomes denoted)
    (isPublic : carries = true → isMvcc column = false)
    (counting : ∀ table ∈ denoted, Counting table.columns column) :
    Answers carries (outcomes.map (· >>= filterBatch column value))
      (denoted.bind (Table.filtered compute column value)) := by
  cases denoted with
  | none => exact answers.map _
  | some table =>
    obtain ⟨batches, rfl, shown⟩ := answers
    rw [Option.bind_some]
    cases columns : table.columns with
    | none =>
      have empty := shown.empty columns
      subst empty
      rw [filtered_none compute columns]
      exact ⟨[], rfl, shown⟩
    | some known =>
      rw [filtered_some compute columns]
      cases found : known.lookup column with
      | none =>
        refine outcomes_fail (shown.nonempty columns) fun batch member => ?_
        have missing := (shown.lookup member columns isPublic).trans found
        exact ⟨_, by rw [filterBatch, u64Column, missing]; rfl⟩
      | some type =>
        have uint64 : type = .uint64 := counting table rfl known columns type found
        subst uint64
        have each : ∀ batch ∈ batches, filterBatch column value batch = .ok (kept column value batch) := by
          intro batch member
          have known_here := (shown.lookup member columns isPublic).trans found
          rw [filterBatch, u64Column, known_here]
          rfl
        refine ⟨batches.map (kept column value), outcomes_answer each, ?_⟩
        refine shown.change (fun _ _ => rfl) ?_
        have public_column : isMvcc column = false := by
          obtain ⟨batch, rest, rfl⟩ := List.exists_cons_of_ne_nil (shown.nonempty columns)
          exact shown.isPublic List.mem_cons_self isPublic
            ((shown.lookup List.mem_cons_self columns isPublic).trans found)
        rw [← shown.rows, rowsOf, rowsOf, List.flatMap_map, List.filter_flatMap]
        congr 1
        funext batch
        apply filter_strip
        intro row
        rw [cell_strip public_column, compute.equal_uint64]

/-! ### Projections -/

theorem projected_none {table : Table} (unknown : table.columns = none) (columns : List String) :
    table.projected columns = some table := by
  simp only [Table.projected, unknown]

theorem projected_some {table : Table} {known : Columns} (columns : table.columns = some known)
    (names : List String) :
    table.projected names =
      (names.mapM fun name => (known.lookup name).map fun type => (name, type)).map fun chosen =>
        { columns := some chosen
          rows := table.rows.map fun row => names.map fun name => (name, cell name row) } := by
  simp only [Table.projected, columns]

/-- What a projection makes of a batch with the columns. -/
def chosenOf (names : List String) (chosen : Columns) (batch : Batch) : Batch :=
  { columns := chosen
    rows := batch.rows.map fun row => names.map fun name => (name, cell name row) }

/-- The columns of a projection carry the names asked for. -/
theorem names_of_mapM {known : Columns} {names : List String} {chosen : Columns}
    (done : (names.mapM fun name => (known.lookup name).map fun type => (name, type)) = some chosen)
    (column : String × DataType) (member : column ∈ chosen) :
    column.1 ∈ names ∧ known.lookup column.1 = some column.2 := by
  induction names generalizing chosen with
  | nil =>
    cases done
    cases member
  | cons name names inductionHypothesis =>
    rw [List.mapM_cons] at done
    obtain ⟨first, looked, rest⟩ := Option.bind_eq_some_iff.mp done
    obtain ⟨others, later, same⟩ := Option.bind_eq_some_iff.mp rest
    cases same
    rcases List.mem_cons.mp member with rfl | further
    · obtain ⟨type, found, rfl⟩ := Option.map_eq_some_iff.mp looked
      exact ⟨List.mem_cons_self, found⟩
    · obtain ⟨asked, found⟩ := inductionHypothesis later further
      exact ⟨List.mem_cons_of_mem _ asked, found⟩

/-- A column that is asked for is among those of a projection. -/
theorem mapM_has {known : Columns} {names : List String} {chosen : Columns}
    (done : (names.mapM fun name => (known.lookup name).map fun type => (name, type)) = some chosen)
    (name : String) (member : name ∈ names) : ∃ type, known.lookup name = some type := by
  induction names generalizing chosen with
  | nil => cases member
  | cons first names inductionHypothesis =>
    rw [List.mapM_cons] at done
    obtain ⟨column, looked, rest⟩ := Option.bind_eq_some_iff.mp done
    obtain ⟨others, later, _⟩ := Option.bind_eq_some_iff.mp rest
    rcases List.mem_cons.mp member with rfl | further
    · obtain ⟨type, found, _⟩ := Option.map_eq_some_iff.mp looked
      exact ⟨type, found⟩
    · exact inductionHypothesis later further

theorem project_answers {names : List String} (answers : Answers carries outcomes denoted)
    (isPublic : ∀ name ∈ names, carries = true → isMvcc name = false) :
    Answers false (outcomes.map (· >>= projectBatch names))
      (denoted.bind (Table.projected names)) := by
  cases denoted with
  | none => exact answers.map _
  | some table =>
    obtain ⟨batches, rfl, shown⟩ := answers
    rw [Option.bind_some]
    cases columns : table.columns with
    | none =>
      have empty := shown.empty columns
      subst empty
      rw [projected_none columns]
      refine ⟨[], rfl, ?_⟩
      exact { columns := shown.columns, stored := shown.stored, rows := shown.rows,
              bare := fun _ batch member => absurd member List.not_mem_nil }
    | some known =>
      rw [projected_some columns]
      have each : ∀ batch ∈ batches,
          Agree (names.mapM fun name => (known.lookup name).map fun type => (name, type))
            (names.mapM (projectColumn batch)) := by
        intro batch member
        apply mapM_agree
        intro name asked
        rw [projectColumn, shown.lookup member columns (isPublic name asked)]
        cases known.lookup name with
        | none => exact ⟨_, rfl⟩
        | some type => exact rfl
      cases done : names.mapM fun name => (known.lookup name).map fun type => (name, type) with
      | none =>
        rw [done] at each
        refine outcomes_fail (shown.nonempty columns) fun batch member => ?_
        obtain ⟨raised, stops⟩ := each batch member
        exact ⟨raised, by rw [projectBatch, stops]; rfl⟩
      | some chosen =>
        rw [done] at each
        have made : ∀ batch ∈ batches, projectBatch names batch = .ok (chosenOf names chosen batch) := by
          intro batch member
          have read : names.mapM (projectColumn batch) = .ok chosen := each batch member
          rw [projectBatch, read]
          rfl
        obtain ⟨first, rest, whole⟩ := List.exists_cons_of_ne_nil (shown.nonempty columns)
        have among : first ∈ batches := whole ▸ List.mem_cons_self
        have public_name : ∀ name ∈ names, isMvcc name = false := by
          intro name asked
          obtain ⟨type, found⟩ := mapM_has done name asked
          exact shown.isPublic among (isPublic name asked)
            ((shown.lookup among columns (isPublic name asked)).trans found)
        have public_chosen : ∀ column ∈ chosen, isMvcc column.1 = false := fun column inside =>
          public_name _ (names_of_mapM done column inside).1
        refine ⟨batches.map (chosenOf names chosen), outcomes_answer made, ?_, ?_, ?_, ?_⟩
        · intro batch member
          obtain ⟨old, _, rfl⟩ := List.mem_map.mp member
          show some chosen = some _
          rw [chosenOf, List.filter_eq_self.mpr fun column inside => by
            rw [public_chosen column inside]; rfl]
        · intro empty
          exact absurd (List.map_eq_nil_iff.mp empty) (shown.nonempty columns)
        · show rowsOf _ = table.rows.map _
          rw [← shown.rows, rowsOf, rowsOf, List.flatMap_map, List.map_flatMap]
          congr 1
          funext batch
          rw [chosenOf, List.map_map, List.map_map]
          apply List.map_congr_left
          intro row _
          have cells : (names.map fun name => (name, cell name row)) =
              names.map fun name => (name, cell name (strip row)) :=
            List.map_congr_left fun name asked => by rw [cell_strip (public_name name asked)]
          show strip (names.map fun name => (name, cell name row)) = _
          rw [strip, List.filter_eq_self.mpr, cells]
          · rfl
          · intro entry inside
            obtain ⟨name, asked, rfl⟩ := List.mem_map.mp inside
            rw [public_name name asked]
            rfl
        · intro _ batch member column inside
          obtain ⟨old, _, rfl⟩ := List.mem_map.mp member
          exact public_chosen column inside

/-! ### Orders -/

/-- The key of the one order that is honoured: ascending, nulls last. -/
def ascending (column : String) : SortKey :=
  { column
    type := .uint64
    descending := false
    nulls_last := true }

/-- The engine's order of two rows is the one meant, but for a null before the greatest number. -/
theorem keyLe_iff {column : String} (isPublic : isMvcc column = false) (first second : Row)
    (untied : ¬ (cell column first = .null ∧ cell column second ≠ .null ∧
      u64Of (cell column second) = U64_MAX)) :
    keyLe column first second ↔ rowLe compute [ascending column] (strip first) (strip second) := by
  have bounded : ∀ value, u64Of value ≤ U64_MAX := by
    intro value
    cases value with
    | int number =>
      have small := Nat.mod_lt number.toNat (Nat.succ_pos U64_MAX)
      exact Nat.le_of_lt_succ small
    | _ => exact Nat.zero_le _
  have below_first := bounded (cell column first)
  have below_second := bounded (cell column second)
  simp only [keyLe, sortKey, rowLe, compareRows, compareValues, ascending, cell_strip isPublic,
    compute.less_uint64]
  by_cases firstNull : cell column first = .null <;> by_cases secondNull : cell column second = .null
  · simp [firstNull, secondNull]
  · have less : u64Of (cell column second) ≠ U64_MAX :=
      fun greatest => untied ⟨firstNull, secondNull, greatest⟩
    simp [firstNull, secondNull]
    omega
  · simp [firstNull, secondNull]
    exact below_first
  · simp only [firstNull, secondNull, if_false, and_self, decide_eq_true_eq, Bool.false_eq_true]
    split_ifs with less more
    · simp
      omega
    · simp
      omega
    · simp
      omega

theorem ordered_none {table : Table} (unknown : table.columns = none) (order_by : OrderBy)
    (skip limit : Option Nat) : table.ordered compute order_by skip limit = some table := by
  simp only [Table.ordered, unknown]

theorem ordered_some {table : Table} {known : Columns} (columns : table.columns = some known)
    (order_by : OrderBy) (skip limit : Option Nat) :
    table.ordered compute order_by skip limit =
      (order_by.all.mapM (sortKeyOf known)).map fun keys =>
        { table with
          rows := sliced (skip.getD 0) limit (table.rows.insertionSort (rowLe compute keys)) } := by
  simp only [Table.ordered, columns]

/-- An order of one column has its key if the column is there. -/
theorem keys_of_ascending {order_by : OrderBy} {column : String} (known : Columns)
    (single : order_by.all = [{ expr := .column column, descending := false, nulls_last := true }])
    (counting : ∀ type, known.lookup column = some type → type = .uint64) :
    order_by.all.mapM (sortKeyOf known) =
      (known.lookup column).map fun _ => [ascending column] := by
  rw [single, List.mapM_cons, List.mapM_nil, sortKeyOf]
  cases found : known.lookup column with
  | none =>
    simp only [found]
    rfl
  | some type =>
    have uint64 := counting type found
    subst uint64
    simp only [found]
    rfl

/-- What an order makes of a batch with the column. -/
def sortedBatch (column : String) (skip : Nat) (limit : Option Nat) (batch : Batch) : Batch :=
  { batch with rows := sliced skip limit (batch.rows.insertionSort (keyLe column)) }

theorem topK_answers {order_by : OrderBy} {column : String} (skip limit : Option Nat)
    (answers : Answers carries outcomes denoted) (few : outcomes.length ≤ 1)
    (isPublic : carries = true → isMvcc column = false)
    (single : order_by.all = [{ expr := .column column, descending := false, nulls_last := true }])
    (sortable : ∀ table ∈ denoted, Counting table.columns column ∧ Untied column table.rows) :
    Answers carries (outcomes.map (· >>= topKBatch column (skip.getD 0) limit))
      (denoted.bind (Table.ordered compute order_by skip limit)) := by
  cases denoted with
  | none => exact answers.map _
  | some table =>
    obtain ⟨batches, rfl, shown⟩ := answers
    rw [Option.bind_some]
    obtain ⟨counting, untied⟩ := sortable table rfl
    cases columns : table.columns with
    | none =>
      have empty := shown.empty columns
      subst empty
      rw [ordered_none compute columns]
      exact ⟨[], rfl, shown⟩
    | some known =>
      rw [ordered_some compute columns, keys_of_ascending known single (counting known columns)]
      cases found : known.lookup column with
      | none =>
        refine outcomes_fail (shown.nonempty columns) fun batch member => ?_
        have missing := (shown.lookup member columns isPublic).trans found
        exact ⟨_, by rw [topKBatch, u64Column, missing]; rfl⟩
      | some type =>
        have uint64 : type = .uint64 := counting known columns type found
        subst uint64
        obtain ⟨batch, rest, rfl⟩ := List.exists_cons_of_ne_nil (shown.nonempty columns)
        have alone : rest = [] := by
          rw [List.length_map, List.length_cons] at few
          exact List.length_eq_zero_iff.mp (by omega)
        subst alone
        have known_here := (shown.lookup List.mem_cons_self columns isPublic).trans found
        have public_column := shown.isPublic List.mem_cons_self isPublic known_here
        have each : ∀ one ∈ [batch], topKBatch column (skip.getD 0) limit one =
            .ok (sortedBatch column (skip.getD 0) limit one) := by
          intro one member
          rw [List.mem_singleton.mp member, topKBatch, u64Column, known_here]
          rfl
        refine ⟨_, outcomes_answer each, shown.change (fun _ _ => rfl) ?_⟩
        have rows : batch.rows.map strip = table.rows := by
          rw [← shown.rows, rowsOf, List.flatMap_singleton]
        have agree : batch.rows.Pairwise fun earlier later => keyLe column earlier later ↔
            rowLe compute [ascending column] (strip earlier) (strip later) := by
          rw [← rows, Untied, List.pairwise_map] at untied
          refine untied.imp fun {earlier later} apart => ?_
          rw [cell_strip public_column, cell_strip public_column] at apart
          exact keyLe_iff compute public_column earlier later apart
        rw [List.map_singleton, rowsOf, List.flatMap_singleton, sortedBatch, sliced_map,
          map_insertionSort_of_pairwise strip batch.rows agree, rows]

/-! ### Counts -/

theorem count_answers (answers : Answers carries outcomes denoted) :
    Answers false [(outcomes.mapM id).map countBatch] (denoted.map Table.counted) := by
  cases denoted with
  | none =>
    obtain ⟨raised, stops⟩ := mapM_fails answers
    exact ⟨raised, by rw [stops]; exact List.mem_cons_self⟩
  | some table =>
    obtain ⟨batches, rfl, shown⟩ := answers
    rw [mapM_answers]
    have total : (batches.map fun batch => batch.rows.length).sum = table.rows.length := by
      rw [← shown.rows, rowsOf, List.length_flatMap]
      simp only [List.length_map]
    refine ⟨[countBatch batches], rfl, ?_, ?_, ?_, ?_⟩
    · intro batch member
      rw [List.mem_singleton.mp member]
      rfl
    · intro empty
      cases empty
    · rw [rowsOf, List.flatMap_singleton, countBatch, total]
      rfl
    · intro _ batch member column inside
      rw [List.mem_singleton.mp member] at inside
      rw [List.mem_singleton.mp inside]
      rfl

end Operators

end CaracalDB.RustPlan
