import CaracalDB.PlanHonoured

/-!
# Plans in both engines

Where a plan denotes a table, the Python operators give its rows. A plan that the
Rust engine builds operators for and of which nothing is ignored gives the same.
-/

namespace CaracalDB.RustPlan

/-! ## The Python operators -/

/-- The batches of a Python operator make up a table. -/
structure Serves (expected : List Batch) (table : Table) : Prop where
  columns : ∀ batch ∈ expected, table.columns = some batch.columns
  rows : expected.flatMap Batch.rows = table.rows

theorem Serves.empty {expected : List Batch} {table : Table} (serves : Serves expected table)
    (unknown : table.columns = none) : expected = [] := by
  cases expected with
  | nil => rfl
  | cons batch expected =>
    have columns := serves.columns batch List.mem_cons_self
    rw [unknown] at columns
    cases columns

/-- Batches that are empty have no rows to lose. -/
theorem flatMap_nonempty (batches : List Batch) :
    (batches.filter fun batch => batch.rows ≠ []).flatMap Batch.rows = batches.flatMap Batch.rows := by
  induction batches with
  | nil => rfl
  | cons batch batches inductionHypothesis =>
    by_cases empty : batch.rows = []
    · rw [List.filter_cons_of_neg (by simp [empty]), inductionHypothesis, List.flatMap_cons, empty,
        List.nil_append]
    · rw [List.filter_cons_of_pos (by simp [empty]), List.flatMap_cons, List.flatMap_cons,
        inductionHypothesis]

section Python

variable (compute : Compute) {expected : List Batch} {table result : Table}

theorem filter_serves {column : String} {value : Nat} (serves : Serves expected table)
    (done : table.filtered compute column value = some result) :
    ∃ next, pythonFilter compute column value expected = .ok next ∧ Serves next result := by
  cases columns : table.columns with
  | none =>
    have empty := serves.empty columns
    subst empty
    rw [filtered_none compute columns] at done
    cases done
    exact ⟨[], rfl, serves⟩
  | some known =>
    rw [filtered_some compute columns] at done
    obtain ⟨type, found, rfl⟩ := Option.map_eq_some_iff.mp done
    let picked : Batch → Batch := fun batch =>
      { batch with
        rows := batch.rows.filter fun row => compute.equal type (cell column row) value }
    have each : ∀ batch ∈ expected, (do
        let type ← batchColumn batch column
        return { batch with
          rows := batch.rows.filter fun row => compute.equal type (cell column row) value } :
        Except Raised Batch) = .ok (picked batch) := by
      intro batch member
      have same := Option.some.inj ((serves.columns batch member).symm.trans columns)
      have known_here : batch.columns.lookup column = some type := same ▸ found
      rw [batchColumn, known_here]
      rfl
    refine ⟨(expected.map picked).filter fun batch => batch.rows ≠ [], ?_, ?_, ?_⟩
    · rw [pythonFilter, mapM_of_ok picked expected each]
      rfl
    · intro batch member
      obtain ⟨old, before, rfl⟩ := List.mem_map.mp (List.mem_of_mem_filter member)
      exact serves.columns old before
    · rw [flatMap_nonempty, List.flatMap_map, ← serves.rows, List.filter_flatMap]

theorem project_serves {names : List String} (asked : names ≠ []) (serves : Serves expected table)
    (done : table.projected names = some result) :
    ∃ next, pythonProject names expected = .ok next ∧ Serves next result := by
  cases columns : table.columns with
  | none =>
    have empty := serves.empty columns
    subst empty
    rw [projected_none columns] at done
    cases done
    exact ⟨[], rfl, serves⟩
  | some known =>
    rw [projected_some columns] at done
    obtain ⟨chosen, looked, rfl⟩ := Option.map_eq_some_iff.mp done
    have each : ∀ batch ∈ expected, (do
        let chosen ← names.mapM fun name => do return (name, ← batchColumn batch name)
        return { columns := chosen
                 rows := if names = [] then [] else
                   batch.rows.map fun row => names.map fun name => (name, cell name row) } :
        Except Raised Batch) = .ok (chosenOf names chosen batch) := by
      intro batch member
      have same := Option.some.inj ((serves.columns batch member).symm.trans columns)
      have agree : Agree (names.mapM fun name => (known.lookup name).map fun type => (name, type))
          (names.mapM fun name => do return (name, ← batchColumn batch name)) := by
        apply mapM_agree
        intro name _
        rw [batchColumn, same]
        cases known.lookup name with
        | none => exact ⟨_, rfl⟩
        | some type => exact rfl
      rw [looked] at agree
      have read : (names.mapM fun name => do return (name, ← batchColumn batch name)) =
          Except.ok chosen := agree
      rw [read, ok_bind, if_neg asked]
      rfl
    refine ⟨expected.map (chosenOf names chosen), mapM_of_ok _ expected each, ?_, ?_⟩
    · intro batch member
      obtain ⟨old, _, rfl⟩ := List.mem_map.mp member
      rfl
    · rw [List.flatMap_map, ← serves.rows, List.map_flatMap]
      rfl

theorem topK_serves {order_by : OrderBy} {column : String} {skip limit : Option Nat}
    (single : order_by.all = [{ expr := .column column, descending := false, nulls_last := true }])
    (serves : Serves expected table)
    (done : table.ordered compute order_by skip limit = some result) :
    ∃ next, pythonTopK compute order_by skip limit expected = .ok next ∧ Serves next result := by
  cases columns : table.columns with
  | none =>
    have empty := serves.empty columns
    subst empty
    rw [ordered_none compute columns] at done
    cases done
    exact ⟨[], rfl, serves⟩
  | some known =>
    rw [ordered_some compute columns, single, List.mapM_cons, List.mapM_nil, sortKeyOf] at done
    cases found : known.lookup column with
    | none =>
      simp [found] at done
    | some type =>
      simp only [found, Option.map_some, Option.pure_def, Option.bind_eq_bind, Option.bind_some,
        Option.some.injEq] at done
      cases expected with
      | nil =>
        refine ⟨[], rfl, fun batch member => absurd member List.not_mem_nil, ?_⟩
        rw [← done, ← serves.rows]
        show [] = sliced _ _ []
        cases limit <;> simp [sliced]
      | cons first expected =>
        have same := Option.some.inj
          ((serves.columns first List.mem_cons_self).symm.trans columns)
        have key : order_by.all.mapM (pythonKey first.columns) = .ok
            [{ column, type, descending := false, nulls_last := true }] := by
          rw [single, List.mapM_cons, List.mapM_nil, pythonKey]
          simp only [same, found]
          rfl
        rw [pythonTopK, key, ok_bind, serves.rows, ← done]
        by_cases none_left : sliced (skip.getD 0) limit (table.rows.insertionSort (rowLe compute
            [{ column, type, descending := false, nulls_last := true }])) = []
        · refine ⟨[], ?_, fun batch member => absurd member List.not_mem_nil, none_left.symm⟩
          simp only [none_left, if_true]
          rfl
        · refine ⟨[{ columns := first.columns, rows := _ }], ?_, ?_, List.flatMap_singleton _ _⟩
          · simp only [none_left, if_false]
            rfl
          · intro batch member
            rw [List.mem_singleton.mp member]
            exact serves.columns first List.mem_cons_self

end Python

/-! ## Building operators -/

theorem asU64_nat (number : Nat) :
    asU64 (.int number) = if number ≤ U64_MAX then some number else none := by
  rw [asU64, Int.toNat_natCast]
  by_cases small : number ≤ U64_MAX
  · rw [if_pos small, if_pos ⟨Int.natCast_nonneg _, small⟩]
  · rw [if_neg small, if_neg fun bounds => small bounds.2]

/-- A number of a plan is read, or the plan is rejected. -/
theorem optionalUsize_toJson {plan : Value} {key : String} {number : Option Nat}
    (found : member key plan = some (ofNumber number)) :
    optionalUsize plan key = .ok number ∨
      ∃ message, optionalUsize plan key = .error (unsupported message) := by
  cases number with
  | none => exact .inl (by rw [optionalUsize, found]; rfl)
  | some number =>
    rw [optionalUsize, found]
    simp only [ofNumber, asU64_nat]
    split_ifs
    · exact .inl rfl
    · exact .inr ⟨_, rfl⟩

/-- The first column of an order is read, or the plan is rejected. -/
theorem topkColumn_toJson {plan : Value} {order_by : OrderBy}
    (found : member "order_by" plan = some order_by.toJson) :
    Agree order_by.first (topkColumn plan) ∧
      (order_by.first = none → ∃ message, topkColumn plan = .error (unsupported message)) := by
  rw [topkColumn, found]
  cases order_by with
  | name column => exact ⟨rfl, fun impossible => by cases impossible⟩
  | items list =>
    have array : requiredArray plan "order_by" = .ok (list.map OrderItem.toJson) := by
      rw [requiredArray, requiredValue, found]
      rfl
    simp only [OrderBy.toJson, firstColumn, array, ok_bind]
    cases list with
    | nil => exact ⟨⟨_, rfl⟩, fun _ => ⟨_, rfl⟩⟩
    | cons item list =>
      obtain ⟨expr, descending, nulls_last⟩ := item
      cases expr with
      | column name => exact ⟨rfl, fun impossible => by cases impossible⟩
      | other kind =>
        by_cases named : kind = "column"
        · subst named
          exact ⟨⟨_, rfl⟩, fun _ => ⟨_, rfl⟩⟩
        · have refused : refuse (kind ≠ "column")
              (unsupported "top_k currently supports column order expressions") =
                .error (unsupported "top_k currently supports column order expressions") := by
            rw [refuse, if_pos named]
          have stops : firstColumn plan =
              .error (unsupported "top_k currently supports column order expressions") := by
            rw [firstColumn, array, ok_bind]
            show (refuse _ _ >>= _) = _
            rw [refused]
            rfl
          rw [firstColumn, array, ok_bind] at stops
          exact ⟨⟨_, stops⟩, fun _ => ⟨_, stops⟩⟩

theorem columnNames_toJson (columns : List String) :
    (columns.map Value.str).mapM columnName = .ok columns := by
  induction columns with
  | nil => rfl
  | cons column columns inductionHypothesis =>
    rw [List.map_cons, List.mapM_cons, inductionHypothesis]
    rfl

section Build

variable (bundle : Bundle) (depth : Nat)

theorem build_filter (column : String) (value : Nat) (input : Plan) :
    buildOperator bundle (depth + 1) (Plan.filter_eq_u64 column value input).toJson =
      (buildOperator bundle depth input.toJson >>= fun child =>
        requiredU64 (Plan.filter_eq_u64 column value input).toJson "value" >>= fun number =>
          .ok (.filter child column number)) := by
  let plan := (Plan.filter_eq_u64 column value input).toJson
  have op : requiredStr plan "op" = .ok "filter_eq_u64" := rfl
  have inner : requiredValue plan "input" = .ok input.toJson := rfl
  have text : requiredStr plan "column" = .ok column := rfl
  rw [buildOperator, op, ok_bind]
  simp only [plan, inner, text, ok_bind]
  rfl

theorem build_project (columns : List String) (input : Plan) :
    buildOperator bundle (depth + 1) (Plan.project columns input).toJson =
      (buildOperator bundle depth input.toJson >>= fun child => .ok (.project child columns)) := by
  let plan := (Plan.project columns input).toJson
  have op : requiredStr plan "op" = .ok "project" := rfl
  have inner : requiredValue plan "input" = .ok input.toJson := rfl
  have array : requiredArray plan "columns" = .ok (columns.map .str) := rfl
  rw [buildOperator, op, ok_bind]
  simp only [plan, inner, array, columnNames_toJson, ok_bind]
  rfl

theorem build_topK (order_by : OrderBy) (skip limit : Option Nat) (input : Plan) :
    buildOperator bundle (depth + 1) (Plan.top_k order_by skip limit input).toJson =
      (buildOperator bundle depth input.toJson >>= fun child =>
        topkColumn (Plan.top_k order_by skip limit input).toJson >>= fun column =>
          optionalUsize (Plan.top_k order_by skip limit input).toJson "skip" >>= fun skipped =>
            optionalUsize (Plan.top_k order_by skip limit input).toJson "limit" >>= fun limited =>
              .ok (.top_k child column (skipped.getD 0) limited)) := by
  let plan := (Plan.top_k order_by skip limit input).toJson
  have op : requiredStr plan "op" = .ok "top_k" := rfl
  have inner : requiredValue plan "input" = .ok input.toJson := rfl
  rw [buildOperator, op, ok_bind]
  simp only [plan, inner, ok_bind]
  rfl

theorem build_count (input : Plan) :
    buildOperator bundle (depth + 1) (Plan.hash_aggregate_count input).toJson =
      (buildOperator bundle depth input.toJson >>= fun child => .ok (.hash_aggregate child)) := by
  let plan := (Plan.hash_aggregate_count input).toJson
  have op : requiredStr plan "op" = .ok "hash_aggregate_count" := rfl
  have inner : requiredValue plan "input" = .ok input.toJson := rfl
  rw [buildOperator, op, ok_bind]
  simp only [plan, inner, ok_bind]
  rfl

end Build

/-! ## Scans -/

theorem strip_wholeRow (store : Store) (row : StoredRow) :
    strip (store.wholeRow row) = store.publicRow row := by
  have kept : (store.publicRow row).filter (fun entry => !isMvcc entry.1) = store.publicRow row := by
    apply List.filter_eq_self.mpr
    intro entry member
    obtain ⟨column, inside, same⟩ := List.mem_map.mp (List.of_mem_zip member).1
    rw [← same, store.named column inside]
    rfl
  rw [strip, Store.wholeRow, List.filter_append, kept]
  exact List.append_nil _

theorem strip_wholeColumns (store : Store) :
    store.wholeColumns.filter (fun column => !isMvcc column.1) = store.columns := by
  have kept : store.columns.filter (fun column => !isMvcc column.1) = store.columns := by
    apply List.filter_eq_self.mpr
    intro column inside
    rw [store.named column inside]
    rfl
  rw [Store.wholeColumns, List.filter_append, kept]
  exact List.append_nil _

/-- The batches that a scan brings when no snapshot hides a row. -/
theorem scan_answers {store : Store} {snapshot_lsn : Option Nat}
    (visible : ∀ row ∈ store.batches.flatten, visibleAt snapshot_lsn row = true) :
    Answers true ((Operator.node_scan store).outcomes none) (some
      { columns := store.known
        rows := (store.batches.flatten.filter (visibleAt snapshot_lsn)).map store.publicRow }) := by
  let batches : List Batch := store.batches.map fun rows =>
    { columns := store.wholeColumns
      rows := rows.map store.wholeRow }
  have all : ∀ rows : List StoredRow, rows.filter (visibleAt none) = rows := fun rows =>
    List.filter_eq_self.mpr fun _ _ => rfl
  refine ⟨batches, ?_, ?_, ?_, ?_, ?_⟩
  · rw [Operator.outcomes, List.map_map]
    apply List.map_congr_left
    intro rows _
    rw [all]
    rfl
  · intro batch member
    obtain ⟨rows, inside, rfl⟩ := List.mem_map.mp member
    show store.known = some (store.wholeColumns.filter _)
    rw [strip_wholeColumns, Store.known, if_neg (List.ne_nil_of_mem inside)]
  · intro empty
    show store.known = none
    rw [Store.known, if_pos (List.map_eq_nil_iff.mp empty)]
  · show rowsOf batches = (store.batches.flatten.filter (visibleAt snapshot_lsn)).map store.publicRow
    rw [List.filter_eq_self.mpr visible, rowsOf, List.flatMap_map, List.map_flatten,
      ← List.flatMap_def]
    congr 1
    funext rows
    rw [List.map_map]
    exact List.map_congr_left fun row _ => strip_wholeRow store row
  · intro impossible
    cases impossible

/-! ## Plans -/

section Plans

variable (compute : Compute) (bundle : Bundle)

/-- What comes of building a plan: a rejection, or an operator that gives what the plan denotes. -/
def Built (plan : Plan) : Except Raised Operator → Prop
  | .error raised => denotes compute bundle plan = none ∨ ∃ message, raised = unsupported message
  | .ok operator => (operator.outcomes none).length = batchCount bundle plan ∧
      Answers plan.carries (operator.outcomes none) (denotes compute bundle plan) ∧
      (plan.counts = false → ∀ table, denotes compute bundle plan = some table →
        ∃ expected, pythonRun compute bundle plan = .ok expected ∧ Serves expected table)

variable {compute bundle}

/-- A plan whose input is rejected is rejected. -/
theorem Built.fails {plan input : Plan} {raised : Raised}
    (below : Built compute bundle input (.error raised))
    (nothing : denotes compute bundle input = none → denotes compute bundle plan = none) :
    Built compute bundle plan (.error raised) := below.imp nothing id

theorem filter_built {column : String} {value : Nat} {input : Plan} {depth : Nat}
    (plain : Plain compute bundle (.filter_eq_u64 column value input))
    (below : Built compute bundle input (buildOperator bundle depth input.toJson)) :
    Built compute bundle (.filter_eq_u64 column value input)
      (buildOperator bundle (depth + 1) (Plan.filter_eq_u64 column value input).toJson) := by
  rw [build_filter]
  cases built : buildOperator bundle depth input.toJson with
  | error raised =>
    rw [built] at below
    exact below.fails denotes_filter_none
  | ok child =>
    rw [built] at below
    obtain ⟨counted, answers, python⟩ := below
    have number : requiredU64 (Plan.filter_eq_u64 column value input).toJson "value" =
        if value ≤ U64_MAX then .ok value
        else .error (unsupported "plan field must be a non-negative integer: value") := by
      have inner : requiredValue (Plan.filter_eq_u64 column value input).toJson "value" =
        .ok (.int value) := rfl
      rw [requiredU64, inner, ok_bind, asU64_nat]
      split_ifs <;> rfl
    rw [ok_bind, number]
    by_cases small : value ≤ U64_MAX
    · rw [if_pos small, ok_bind]
      refine ⟨(List.length_map _).trans counted,
        filter_answers compute value answers plain.2.1 plain.2.2, ?_⟩
      intro counts table done
      obtain ⟨below_table, denoted, filtered⟩ := Option.bind_eq_some_iff.mp done
      obtain ⟨expected, runs, serves⟩ := python counts below_table denoted
      obtain ⟨next, filters, served⟩ := filter_serves compute serves filtered
      exact ⟨next, (pythonRun_filter runs column value).trans filters, served⟩
    · rw [if_neg small]
      exact .inr ⟨_, rfl⟩

theorem project_built {columns : List String} {input : Plan} {depth : Nat}
    (plain : Plain compute bundle (.project columns input))
    (below : Built compute bundle input (buildOperator bundle depth input.toJson)) :
    Built compute bundle (.project columns input)
      (buildOperator bundle (depth + 1) (Plan.project columns input).toJson) := by
  rw [build_project]
  cases built : buildOperator bundle depth input.toJson with
  | error raised =>
    rw [built] at below
    exact below.fails denotes_project_none
  | ok child =>
    rw [built] at below
    obtain ⟨counted, answers, python⟩ := below
    refine ⟨(List.length_map _).trans counted, project_answers answers plain.2.2, ?_⟩
    intro counts table done
    obtain ⟨below_table, denoted, projected⟩ := Option.bind_eq_some_iff.mp done
    obtain ⟨expected, runs, serves⟩ := python counts below_table denoted
    obtain ⟨next, projects, served⟩ := project_serves plain.2.1 serves projected
    exact ⟨next, (pythonRun_project runs columns).trans projects, served⟩

theorem topK_built {order_by : OrderBy} {skip limit : Option Nat} {input : Plan} {depth : Nat}
    (plain : Plain compute bundle (.top_k order_by skip limit input))
    (below : Built compute bundle input (buildOperator bundle depth input.toJson)) :
    Built compute bundle (.top_k order_by skip limit input)
      (buildOperator bundle (depth + 1) (Plan.top_k order_by skip limit input).toJson) := by
  rw [build_topK]
  cases built : buildOperator bundle depth input.toJson with
  | error raised =>
    rw [built] at below
    exact below.fails denotes_topK_none
  | ok child =>
    rw [built] at below
    obtain ⟨counted, answers, python⟩ := below
    let plan := (Plan.top_k order_by skip limit input).toJson
    have order_at : member "order_by" plan = some order_by.toJson := rfl
    have skip_at : member "skip" plan = some (ofNumber skip) := rfl
    have limit_at : member "limit" plan = some (ofNumber limit) := rfl
    obtain ⟨agree, rejected⟩ := topkColumn_toJson order_at
    rw [ok_bind]
    cases first : order_by.first with
    | none =>
      obtain ⟨message, stops⟩ := rejected first
      rw [stops]
      exact .inr ⟨message, rfl⟩
    | some column =>
      rw [first] at agree
      have read : topkColumn (Plan.top_k order_by skip limit input).toJson = .ok column := agree
      obtain ⟨isPublic, few, single, sortable⟩ := plain.2 column first
      rw [read, ok_bind]
      rcases optionalUsize_toJson skip_at with skipped | ⟨message, stops⟩
      · rw [skipped, ok_bind]
        rcases optionalUsize_toJson limit_at with limited | ⟨message, stops⟩
        · rw [limited, ok_bind]
          refine ⟨(List.length_map _).trans counted,
            topK_answers compute skip limit answers (counted.trans_le few) isPublic single sortable, ?_⟩
          intro counts table done
          obtain ⟨below_table, denoted, ordered⟩ := Option.bind_eq_some_iff.mp done
          obtain ⟨expected, runs, serves⟩ := python counts below_table denoted
          obtain ⟨next, sorts, served⟩ := topK_serves compute single serves ordered
          exact ⟨next, (pythonRun_topK runs order_by skip limit).trans sorts, served⟩
        · rw [stops]
          exact .inr ⟨message, rfl⟩
      · rw [stops]
        exact .inr ⟨message, rfl⟩

theorem scan_built {class_iri local_name : String} {snapshot_lsn : Option Nat} {depth : Nat}
    (plain : Plain compute bundle (.node_scan class_iri local_name snapshot_lsn)) :
    Built compute bundle (.node_scan class_iri local_name snapshot_lsn)
      (buildOperator bundle (depth + 1) (Plan.node_scan class_iri local_name snapshot_lsn).toJson) := by
  rw [build_scan]
  cases opened : openNodeStore bundle class_iri local_name with
  | error raised => exact .inl (denotes_scan_error opened)
  | ok store =>
    have denoted : denotes compute bundle (.node_scan class_iri local_name snapshot_lsn) = _ :=
      denotes_scan_ok opened
    refine ⟨?_, ?_, ?_⟩
    · rw [batchCount, opened]
      exact List.length_map _
    · rw [denoted]
      exact scan_answers (plain store opened)
    · intro _ table done
      rw [denoted] at done
      cases done
      refine ⟨_, pythonRun_scan opened, ?_, ?_⟩
      · intro batch member
        obtain ⟨rows, inside, rfl⟩ := List.mem_map.mp member
        show store.known = some store.columns
        rw [Store.known, if_neg (List.ne_nil_of_mem inside)]
      · rw [List.flatMap_map, List.filter_flatten, List.map_flatten, List.map_map,
          ← List.flatMap_def]
        rfl

theorem count_built {input : Plan} {depth : Nat}
    (below : Built compute bundle input (buildOperator bundle depth input.toJson)) :
    Built compute bundle (.hash_aggregate_count input)
      (buildOperator bundle (depth + 1) (Plan.hash_aggregate_count input).toJson) := by
  rw [build_count]
  cases built : buildOperator bundle depth input.toJson with
  | error raised =>
    rw [built] at below
    exact below.fails denotes_count_none
  | ok child =>
    rw [built] at below
    exact ⟨rfl, count_answers below.2.1, fun impossible => by cases impossible⟩

/-- Every plan of which nothing is ignored is built into operators that give what it denotes. -/
theorem plan_built (plan : Plan) (plain : Plain compute bundle plan) (depth : Nat) :
    Built compute bundle plan (buildOperator bundle depth plan.toJson) := by
  induction plan generalizing depth with
  | node_scan class_iri local_name snapshot_lsn =>
    cases depth with
    | zero => exact .inr ⟨_, rfl⟩
    | succ depth => exact scan_built plain
  | filter_eq_u64 column value input inductionHypothesis =>
    cases depth with
    | zero => exact .inr ⟨_, rfl⟩
    | succ depth => exact filter_built plain (inductionHypothesis plain.1 depth)
  | project columns input inductionHypothesis =>
    cases depth with
    | zero => exact .inr ⟨_, rfl⟩
    | succ depth => exact project_built plain (inductionHypothesis plain.1 depth)
  | top_k order_by skip limit input inductionHypothesis =>
    cases depth with
    | zero => exact .inr ⟨_, rfl⟩
    | succ depth => exact topK_built plain (inductionHypothesis plain.1 depth)
  | hash_aggregate_count input inductionHypothesis =>
    cases depth with
    | zero => exact .inr ⟨_, rfl⟩
    | succ depth => exact count_built (inductionHypothesis plain depth)

/-- A plan of which nothing is ignored is honoured. -/
theorem plain_honoured (plan : Plan) (plain : Plain compute bundle plan) :
    Honoured compute bundle plan := by
  have built := plan_built plan plain RECURSION_LIMIT
  rw [Honoured, executePlan]
  cases outcome : buildOperator bundle RECURSION_LIMIT plan.toJson with
  | error raised =>
    rw [outcome] at built
    exact built
  | ok operator =>
    rw [outcome] at built
    obtain ⟨_, answers, python⟩ := built
    rw [ok_bind, executeToBatches]
    cases denoted : denotes compute bundle plan with
    | none =>
      rw [denoted] at answers
      obtain ⟨raised, stops⟩ := mapM_fails answers
      rw [stops]
      exact .inl rfl
    | some table =>
      rw [denoted] at answers
      obtain ⟨batches, all, shown⟩ := answers
      rw [all, mapM_answers]
      refine ⟨⟨table, rfl, shown.rows⟩, fun counts => ?_⟩
      obtain ⟨expected, runs, serves⟩ := python counts table denoted
      refine ⟨expected, runs, ?_⟩
      have stripped : (rowsOf batches).map strip = rowsOf batches := by
        rw [rowsOf, List.map_flatMap]
        congr 1
        funext batch
        rw [List.map_map]
        exact List.map_congr_left fun row _ => strip_strip row
      have expected_rows : rowsOf expected = (expected.flatMap Batch.rows).map strip := by
        rw [rowsOf, List.map_flatMap]
      rw [expected_rows, serves.rows, ← shown.rows, stripped]

/-- What is scanned is all that is stored, whatever the snapshot. -/
theorem execute_scan {class_iri local_name : String} (snapshot_lsn : Option Nat) {store : Store}
    (opened : openNodeStore bundle class_iri local_name = .ok store) :
    ∃ batches, executePlan bundle (Plan.node_scan class_iri local_name snapshot_lsn).toJson none =
      .ok batches ∧ (rowsOf batches).length = store.batches.flatten.length := by
  have visible : ∀ row ∈ store.batches.flatten, visibleAt none row = true := fun _ _ => rfl
  obtain ⟨batches, all, shown⟩ := scan_answers visible
  refine ⟨batches, ?_, ?_⟩
  · rw [executePlan, RECURSION_LIMIT, build_scan, opened]
    show executeToBatches (.node_scan store) none = _
    rw [executeToBatches, all, mapM_answers]
  · rw [shown.rows, List.length_map, List.filter_eq_self.mpr visible]

/-- A scan is honoured exactly if its snapshot hides no row. -/
theorem scan_honoured_iff (class_iri local_name : String) (snapshot_lsn : Option Nat) :
    Honoured compute bundle (.node_scan class_iri local_name snapshot_lsn) ↔
      Plain compute bundle (.node_scan class_iri local_name snapshot_lsn) := by
  refine ⟨fun honoured store opened => ?_, plain_honoured _⟩
  obtain ⟨batches, executed, count⟩ := execute_scan snapshot_lsn opened
  rw [Honoured, executed] at honoured
  obtain ⟨⟨table, denoted, rows⟩, _⟩ := honoured
  rw [denotes_scan_ok opened] at denoted
  cases denoted
  rw [rows, List.length_map] at count
  exact List.length_filter_eq_length_iff.mp count

end Plans

/-- Comparisons of numbers. -/
def wordCompute : Compute where
  equal _ value number := value ≠ .null && u64Of value = number
  less _ first second := decide (u64Of first < u64Of second)
  equal_uint64 _ _ := rfl
  less_uint64 _ _ := rfl

/-- Genes with scores, of which one was added later. -/
def geneStore : Store where
  local_name := "Gene"
  class_iri := "http://example.org/Gene"
  columns := [("symbol", .string), ("score", .uint64)]
  named := by decide
  batches := [[
    { values := [.str "TP53", .int 2], created_lsn := some 1, deleted_lsn := none },
    { values := [.str "MDM2", .int 1], created_lsn := some 5, deleted_lsn := none }]]

end CaracalDB.RustPlan
