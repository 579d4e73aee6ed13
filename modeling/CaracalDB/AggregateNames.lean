import CaracalDB.Dict
import CaracalDB.Loops
import CaracalDB.PythonValue
import Mathlib.Data.List.Perm.Basic

/-!
# Names of aggregates

Arrow names the columns of a grouped table after the column and the kernel, and the operator finds the
output names again by these names. Whatever has one of these names gets the output name, and of the
specifications with one such name only the last one's is kept.
-/

namespace CaracalDB.Aggregate

/-! ## The operator -/

def ARROW_KERNEL_MAP : List (String × String) :=
  [("count", "count"), ("sum", "sum"), ("min", "min"), ("max", "max"), ("mean", "mean"),
    ("avg", "mean"), ("list", "list"), ("collect", "list")]

/-- `(column_or_None, kernel, output_name)` -/
structure Spec where
  column : Option String
  kernel : String
  output : String
deriving DecidableEq

/-- A table of columns. -/
structure Table (Column : Type) where
  columns : List (String × Column)
  num_rows : Nat

def Table.column_names {Column : Type} (table : Table Column) : List String :=
  table.columns.map Prod.fst

/-- The name that Arrow gives to the result of a kernel on a column. -/
def resultName (request : String × String) : String := request.1 ++ "_" ++ request.2

/-- What Arrow is relied on for: a grouped table has the group keys under their names and the result of
every kernel, in some order. -/
structure Arrow (Column : Type) where
  /-- `pa.array([1] * num_rows)` -/
  ones : Nat → Column
  /-- `table.group_by(group_keys).aggregate(kernels)` -/
  aggregate : Table Column → List String → List (String × String) →
    Except Raised (List (String × Column))
  group_key : Table Column → List String → String → Column
  aggregated : Table Column → List String → String × String → Column
  named : ∀ table group_keys kernels columns, aggregate table group_keys kernels = .ok columns →
    columns.Perm (group_keys.map (fun key => (key, group_key table group_keys key)) ++
      kernels.map fun request => (resultName request, aggregated table group_keys request))

section Operator

variable {Column : Type} (arrow : Arrow Column) (table : Table Column) (group_keys : List String)
  (specs : List Spec)

/-- The table with the column for `count_star`, where some specification needs it. -/
def withOnes : Table Column :=
  if specs.any fun spec => spec.kernel = "count_star" then
    { table with columns := table.columns ++ [("__one__", arrow.ones table.num_rows)] }
  else table

/-- What is asked of Arrow for a specification. -/
def request (column_names : List String) (spec : Spec) : Except Raised (String × String) :=
  if spec.kernel = "count_star" then .ok ("__one__", "count")
  else
    match ARROW_KERNEL_MAP.lookup spec.kernel with
    | none => raiseCaracal "CDB-6041" ("unsupported aggregate kernel: " ++ spec.kernel)
    | some arrow_kernel =>
        match spec.column with
        | none => raiseCaracal "CDB-6041"
            ("aggregate " ++ Value.quoted spec.kernel ++ " requires a column")
        | some column =>
            if column ∈ column_names then .ok (column, arrow_kernel)
            else raiseCaracal "CDB-6041" ("aggregate input column missing: " ++ Value.quoted column)

/-- The loop over the specifications: what is asked of Arrow, and the output names. -/
def requests (column_names : List String) :
    Except Raised (List (String × String) × Dict String String) :=
  specs.foldlM (fun (kernels, rename) spec => do
    let asked ← request column_names spec
    return (kernels ++ [asked], rename.set (resultName asked) spec.output)) ([], Dict.empty)

/-- `rename.get(name, name)` -/
def renamed (rename : Dict String String) (name : String) : String := (rename.get? name).getD name

/-- `HashAggregateOperator._open(ctx)`, from the table of the child's batches on. -/
def aggregateTable : Except Raised (List (String × Column)) := do
  let table := withOnes arrow table specs
  let (kernels, rename) ← requests specs table.column_names
  let result ← arrow.aggregate table group_keys kernels
  return result.map fun (name, column) => (renamed rename name, column)

end Operator

/-! ## Names -/

/-- What is asked for a specification that is supported. -/
def asked (spec : Spec) : String × String :=
  if spec.kernel = "count_star" then ("__one__", "count")
  else (spec.column.getD "", (ARROW_KERNEL_MAP.lookup spec.kernel).getD "")

theorem request_ok {column_names : List String} {spec : Spec} {answer : String × String}
    (ok : request column_names spec = .ok answer) : answer = asked spec := by
  rw [request] at ok
  rw [asked]
  split at ok
  · next star =>
    cases ok
    rw [if_pos star]
  · next other =>
    rw [if_neg other]
    split at ok
    · cases ok
    · next kernel found =>
      split at ok
      · cases ok
      · next column given =>
        split at ok
        · cases ok
          rw [given, found]
          rfl
        · cases ok

/-- The output names under the names that Arrow gives. -/
def renames (specs : List Spec) : Dict String String :=
  Dict.ofEntries (specs.map fun spec => (resultName (asked spec), spec.output))

theorem requests_ok {column_names : List String} {specs : List Spec}
    (supported : ∀ spec ∈ specs, ∃ answer, request column_names spec = .ok answer) :
    requests specs column_names = .ok (specs.map asked, renames specs) := by
  have steps (state : List (String × String) × Dict String String) :
      ∀ spec ∈ specs, (do
        let asked ← request column_names spec
        return (state.1 ++ [asked], state.2.set (resultName asked) spec.output)) =
          (.ok (state.1 ++ [asked spec], state.2.set (resultName (asked spec)) spec.output) :
            Except Raised _) := by
    intro spec member
    obtain ⟨answer, ok⟩ := supported spec member
    rw [ok, request_ok ok]
    rfl
  have loop (kernels : List (String × String)) (rename : Dict String String) :
      specs.foldl (fun state spec => (state.1 ++ [asked spec],
        state.2.set (resultName (asked spec)) spec.output)) (kernels, rename) =
        (kernels ++ specs.map asked, (specs.map fun spec => (resultName (asked spec), spec.output)).foldl
          (fun merged entry => merged.set entry.1 entry.2) rename) := by
    clear steps supported
    induction specs generalizing kernels rename with
    | nil => simp
    | cons spec specs inductionHypothesis =>
      rw [List.foldl_cons, inductionHypothesis, List.append_assoc]
      rfl
  rw [requests]
  refine (foldlM_of_ok specs steps _).trans ?_
  rw [loop]
  rfl

/-- A dictionary made of entries has one of them under each of their keys, and nothing else. -/
theorem get_ofEntries (entries : List (String × String)) (name : String) :
    (∀ output, (Dict.ofEntries entries).get? name = some output → (name, output) ∈ entries) ∧
      ((Dict.ofEntries entries).get? name = none → name ∉ entries.map Prod.fst) := by
  refine foldl_invariant (fun merged entry => merged.set entry.1 entry.2)
    (fun done (merged : Dict String String) => (∀ output, merged.get? name = some output →
      (name, output) ∈ done) ∧ (merged.get? name = none → name ∉ done.map Prod.fst))
    (fun done entry merged held => ?_) entries Dict.empty ⟨nofun, fun _ => List.not_mem_nil⟩
  rw [Dict.get_set]
  by_cases same : name = entry.1
  · rw [if_pos same]
    refine ⟨fun output found => ?_, nofun⟩
    cases found
    rw [same]
    exact List.mem_append_right _ List.mem_cons_self
  · rw [if_neg same]
    refine ⟨fun output found => List.mem_append_left _ (held.1 output found), fun absent member => ?_⟩
    rw [List.map_append, List.mem_append] at member
    rcases member with earlier | last
    · exact held.2 absent earlier
    · exact same (List.mem_singleton.mp last)

section Names

variable {group_keys : List String} {specs : List Spec}

/-- The names that Arrow gives to the results of some specifications. -/
def resultNames (specs : List Spec) : List String := specs.map fun spec => resultName (asked spec)

theorem renamed_other {name : String} (other : name ∉ resultNames specs) :
    renamed (renames specs) name = name := by
  rw [renamed]
  cases found : (renames specs).get? name with
  | none => rfl
  | some output =>
    have listed := List.mem_map_of_mem (f := Prod.fst) ((get_ofEntries _ name).1 output found)
    rw [List.map_map] at listed
    exact absurd listed other

/-- A name that Arrow gives becomes the output name of a specification that it is given for. -/
theorem renamed_result {name : String} (listed : name ∈ resultNames specs) :
    ∃ spec ∈ specs, resultName (asked spec) = name ∧ renamed (renames specs) name = spec.output := by
  rw [renamed]
  cases found : (renames specs).get? name with
  | none =>
    refine absurd ?_ ((get_ofEntries _ name).2 found)
    rw [List.map_map]
    exact listed
  | some output =>
    obtain ⟨spec, member, same⟩ := List.mem_map.mp ((get_ofEntries _ name).1 output found)
    cases same
    exact ⟨spec, member, rfl, rfl⟩

theorem renamed_distinct (distinct : (resultNames specs).Nodup) {spec : Spec} (member : spec ∈ specs) :
    renamed (renames specs) (resultName (asked spec)) = spec.output := by
  obtain ⟨other, held, same, output⟩ := renamed_result (List.mem_map_of_mem member)
  rw [output, List.inj_on_of_nodup_map distinct held member same]

/-- The names of the output: of the group keys and of the results. -/
def outputNames (group_keys : List String) (specs : List Spec) : List String :=
  (group_keys ++ resultNames specs).map (renamed (renames specs))

/-- The names that the output should have. -/
def expectedNames (group_keys : List String) (specs : List Spec) : List String :=
  group_keys ++ specs.map Spec.output

/-- Names that do not collide in Arrow's table are found again. -/
theorem outputNames_of_distinct (distinct : (group_keys ++ resultNames specs).Nodup) :
    outputNames group_keys specs = expectedNames group_keys specs := by
  obtain ⟨_, results, apart⟩ := List.nodup_append.mp distinct
  rw [outputNames, expectedNames, List.map_append]
  have keys : group_keys.map (renamed (renames specs)) = group_keys := by
    refine (List.map_congr_left fun key member => ?_).trans (List.map_id group_keys)
    exact renamed_other fun listed => apart key member key listed rfl
  have outputs : (resultNames specs).map (renamed (renames specs)) = specs.map Spec.output := by
    rw [resultNames, List.map_map]
    exact List.map_congr_left fun spec member => renamed_distinct results member
  rw [keys, outputs]

/-- Every name of the output is one that it should have. -/
theorem outputNames_expected {name : String} (member : name ∈ outputNames group_keys specs) :
    name ∈ expectedNames group_keys specs := by
  obtain ⟨original, among, rfl⟩ := List.mem_map.mp member
  by_cases listed : original ∈ resultNames specs
  · obtain ⟨spec, held, _, output⟩ := renamed_result listed
    rw [output]
    exact List.mem_append_right _ (List.mem_map_of_mem held)
  · rw [renamed_other listed]
    exact List.mem_append_left _ ((List.mem_append.mp among).resolve_right listed)

/-- Every name that the output should have is there once exactly if these names are distinct and the
names in Arrow's table are. -/
theorem names_once : (∀ name ∈ expectedNames group_keys specs,
      (outputNames group_keys specs).count name = 1) ↔
    (expectedNames group_keys specs).Nodup ∧ (group_keys ++ resultNames specs).Nodup := by
  constructor
  · intro once
    have distinct : (outputNames group_keys specs).Nodup :=
      List.nodup_iff_count_eq_one.mpr fun name member => once name (outputNames_expected member)
    have apart := List.Nodup.of_map _ distinct
    rw [outputNames_of_distinct apart] at distinct
    exact ⟨distinct, apart⟩
  · rintro ⟨distinct, apart⟩ name member
    rw [outputNames_of_distinct apart]
    exact List.count_eq_one_of_mem distinct member

end Names

section Output

variable {Column : Type} {arrow : Arrow Column} {table : Table Column} {group_keys : List String}
  {specs : List Spec}

/-- The output has each group key under its own name and each output name once, with the aggregate of
its specification. -/
structure Named (arrow : Arrow Column) (table : Table Column) (group_keys : List String)
    (specs : List Spec) (result : List (String × Column)) : Prop where
  once : ∀ name ∈ expectedNames group_keys specs, (result.map Prod.fst).count name = 1
  keys : ∀ key ∈ group_keys,
    (key, arrow.group_key (withOnes arrow table specs) group_keys key) ∈ result
  outputs : ∀ spec ∈ specs,
    (spec.output, arrow.aggregated (withOnes arrow table specs) group_keys (asked spec)) ∈ result

/-- The specifications are supported, and Arrow answers what it is asked for them. -/
structure Answered (arrow : Arrow Column) (table : Table Column) (group_keys : List String)
    (specs : List Spec) : Prop where
  supported : ∀ spec ∈ specs,
    ∃ answer, request (withOnes arrow table specs).column_names spec = .ok answer
  accepted : ∃ columns,
    arrow.aggregate (withOnes arrow table specs) group_keys (specs.map asked) = .ok columns

/-- The operator makes a table, and it has the names and the aggregates of its specifications exactly if
the group keys and the output names are distinct and so are the group keys and the names that Arrow
gives to the results. -/
theorem aggregates_named (arrow : Arrow Column) (table : Table Column) (group_keys : List String)
    (specs : List Spec) (answered : Answered arrow table group_keys specs) :
    (∃ result, aggregateTable arrow table group_keys specs = .ok result ∧
      Named arrow table group_keys specs result) ↔
      (expectedNames group_keys specs).Nodup ∧ (group_keys ++ resultNames specs).Nodup := by
  obtain ⟨supported, columns, accepted⟩ := answered
  have run : aggregateTable arrow table group_keys specs =
      .ok (columns.map fun (name, column) => (renamed (renames specs) name, column)) := by
    rw [aggregateTable]
    simp only [requests_ok supported, ok_bind, accepted]
    rfl
  have listed := arrow.named _ _ _ _ accepted
  have names : (columns.map Prod.fst).Perm (group_keys ++ resultNames specs) := by
    refine (listed.map Prod.fst).trans (List.Perm.of_eq ?_)
    rw [List.map_append, List.map_map, List.map_map, List.map_map, resultNames]
    exact congrArg (· ++ _) (List.map_id _)
  have counted (name : String) : ((columns.map fun (name, column) =>
      (renamed (renames specs) name, column)).map Prod.fst).count name =
        (outputNames group_keys specs).count name := by
    rw [outputNames, ← (names.map (renamed (renames specs))).count_eq, List.map_map, List.map_map]
    rfl
  have held {name : String} {column : Column} (member : (name, column) ∈ columns) :
      (renamed (renames specs) name, column) ∈ columns.map fun (name, column) =>
        (renamed (renames specs) name, column) :=
    List.mem_map_of_mem (f := fun (entry : String × Column) => (renamed (renames specs) entry.1, entry.2))
      member
  constructor
  · rintro ⟨_, same, named⟩
    rw [run] at same
    cases same
    exact names_once.mp fun name member => (counted name).symm.trans (named.once name member)
  · intro distinct
    obtain ⟨_, results, apart⟩ := List.nodup_append.mp distinct.2
    refine ⟨_, run, fun name member => (counted name).trans (names_once.mpr distinct name member),
      fun key member => ?_, fun spec member => ?_⟩
    · have stays : renamed (renames specs) key = key :=
        renamed_other fun listed => apart key member key listed rfl
      have found := held (listed.mem_iff.mpr (List.mem_append_left _ (List.mem_map_of_mem member)))
      rwa [stays] at found
    · have found := held (listed.mem_iff.mpr (List.mem_append_right _
        (List.mem_map_of_mem (List.mem_map_of_mem member))))
      rwa [renamed_distinct results member] at found

end Output

/-- Columns that say what they were made of. -/
def described : Arrow String where
  ones := fun _ => "ones"
  aggregate := fun _ group_keys kernels => .ok (group_keys.map (fun key => (key, "key " ++ key)) ++
    kernels.map fun request => (resultName request, request.2 ++ " of " ++ request.1))
  group_key := fun _ _ key => "key " ++ key
  aggregated := fun _ _ request => request.2 ++ " of " ++ request.1
  named := by
    rintro table group_keys kernels columns ⟨⟩
    exact .refl _

def orders : Table String :=
  { columns := [("buyer", "buyers"), ("amount", "amounts")], num_rows := 2 }

/-- A sum and a count of all rows are found under their output names. -/
theorem totals_named : ∃ result, aggregateTable described orders ["buyer"]
    [⟨some "amount", "sum", "total"⟩, ⟨none, "count_star", "n"⟩] = .ok result ∧
      Named described orders ["buyer"]
        [⟨some "amount", "sum", "total"⟩, ⟨none, "count_star", "n"⟩] result := by
  refine (aggregates_named described orders _ _ ⟨?_, _, rfl⟩).mpr ⟨by decide, by decide⟩
  intro spec member
  rcases List.mem_cons.mp member with rfl | rest
  · exact ⟨("amount", "sum"), rfl⟩
  · rw [List.mem_singleton.mp rest]
    exact ⟨("__one__", "count"), rfl⟩

/-- Of two sums of one column the first has no column and the second has two, and a group key that is
named like a sum loses its name to it. -/
theorem sums_collide :
    aggregateTable described orders ["buyer"]
        [⟨some "amount", "sum", "total"⟩, ⟨some "amount", "sum", "revenue"⟩] =
      .ok [("buyer", "key buyer"), ("revenue", "sum of amount"), ("revenue", "sum of amount")] ∧
    aggregateTable described { orders with columns := ("amount_sum", "earlier") :: orders.columns }
        ["amount_sum"] [⟨some "amount", "sum", "total"⟩] =
      .ok [("total", "key amount_sum"), ("total", "sum of amount")] ∧
    ¬ ∃ result, aggregateTable described orders ["buyer"]
        [⟨some "amount", "sum", "total"⟩, ⟨some "amount", "sum", "revenue"⟩] = .ok result ∧
      Named described orders ["buyer"]
        [⟨some "amount", "sum", "total"⟩, ⟨some "amount", "sum", "revenue"⟩] result := by
  have collided : aggregateTable described orders ["buyer"]
      [⟨some "amount", "sum", "total"⟩, ⟨some "amount", "sum", "revenue"⟩] =
        .ok [("buyer", "key buyer"), ("revenue", "sum of amount"), ("revenue", "sum of amount")] := by
    decide
  refine ⟨collided, by decide, ?_⟩
  rintro ⟨_, run, named⟩
  rw [collided] at run
  cases run
  exact absurd (named.once "total" (by decide)) (by decide)

end CaracalDB.Aggregate
