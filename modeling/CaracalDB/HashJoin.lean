import CaracalDB.Dict
import CaracalDB.MixedStores

/-!
# Hash joins

Both engines index the rows of one side by their keys and look the keys of the other side
up. What they give is the nested loop over the rows of all batches, so no split into
batches matters. The Rust engine leaves nulls out of both sides; in Python a null is a key
like any other, so nulls of the two sides are paired.
-/

namespace CaracalDB.HashJoin

/-! ## Batches -/

/-- A batch: the names and types of its columns, and its rows. -/
structure Batch where
  columns : List (String × DataType)
  rows : List (List Value)
deriving DecidableEq

def columnNames (columns : List (String × DataType)) : List String := columns.map Prod.fst

/-- The value of a row in the first column of a name. -/
def cell (columns : List (String × DataType)) (name : String) (row : List Value) : Value :=
  row.getD ((columnNames columns).idxOf name) .null

/-- Indices under the keys that they were filed under, in order. -/
def fileIndices {Key : Type} [DecidableEq Key] (entries : List (Key × Nat)) : Dict Key (List Nat) :=
  entries.foldl (fun index entry =>
    index.set entry.1 (((index.get? entry.1).getD []) ++ [entry.2])) Dict.empty

/-! ## Python -/

inductive JoinKind where
  | inner
  | left
deriving DecidableEq

def joinError (message : String) : Raised := .caracal { code := "CDB-6040", message }

/-- `table.column(name).to_pylist()`, which finds no column under a name that occurs more than
once. -/
def pythonColumn (columns : List (String × DataType)) (rows : List (List Value)) (name : String) :
    Except Raised (List Value) := do
  refuse ((columnNames columns).count name ≠ 1) (.keyError name)
  return rows.map (cell columns name)

/-- The table of the build side. -/
def buildTable (build_key : String) : List Batch → Except Raised Batch
  | [] => .ok { columns := [(build_key, .uint64)], rows := [] }
  | first :: rest => do
      refuse (∃ batch ∈ rest, batch.columns ≠ first.columns)
        (.arrowError "Schema at index was different")
      return { columns := first.columns, rows := (first :: rest).flatMap Batch.rows }

/-- The index that `_open` makes. -/
def buildIndex (build_key : String) (table : Batch) : Except Raised (Dict Value (List Nat)) := do
  refuse (build_key ∉ columnNames table.columns)
    (joinError ("build side missing key column " ++ Value.quoted build_key))
  let keys ← (← pythonColumn table.columns table.rows build_key).mapM Value.hashed
  return fileIndices keys.zipIdx

/-- The names of a side under its prefix. -/
def prefixed (side : Option String) (columns : List (String × DataType)) :
    List (String × DataType) :=
  match side with
  | none => columns
  | some text =>
      if text = "" then columns else columns.map fun column => (text ++ "." ++ column.1, column.2)

/-- The rows that a probe row with some key is paired with; in a left join one may be missing. -/
def matchesOf (kind : JoinKind) (index : Dict Value (List Nat)) (key : Value) : List (Option Nat) :=
  match (index.get? key).getD [] with
  | [] => if kind = .left then [none] else []
  | found => found.map some

/-- The row of the build side at an index, with nulls if there is none. -/
def buildRow (table : Batch) : Option Nat → List Value
  | none => table.columns.map fun _ => .null
  | some index => table.rows.getD index []

/-- `_join_one(probe)`, and whether its batch has rows. -/
def joinOne (kind : JoinKind) (probe_key : String) ( build_prefix probe_prefix : Option String)
    (table : Batch) (index : Dict Value (List Nat)) (probe : Batch) : Except Raised (Option Batch) := do
  refuse (probe_key ∉ columnNames probe.columns)
    (joinError ("probe side missing key column " ++ Value.quoted probe_key))
  let keys ← (← pythonColumn probe.columns probe.rows probe_key).mapM Value.hashed
  let pairs := (keys.zip probe.rows).flatMap fun (key, row) =>
    (matchesOf kind index key).map fun bi => (bi, row)
  if pairs = [] then return none
  refuse (table.rows = [] ∧ ∃ pair ∈ pairs, pair.1 = none)
    (.arrowError "Index 0 out of bounds")
  return some
    { columns := prefixed build_prefix table.columns ++ prefixed probe_prefix probe.columns
      rows := pairs.map fun pair => buildRow table pair.1 ++ pair.2 }

/-- `HashJoinOperator(build, probe, ...)`, opened and run over the batches of its two sides. -/
def pythonJoin (kind : JoinKind) (build_key probe_key : String)
    ( build_prefix probe_prefix : Option String) (build probe : List Batch) :
    Except Raised (List Batch) := do
  let table ← buildTable build_key build
  let index ← buildIndex build_key table
  return (← probe.mapM (joinOne kind probe_key build_prefix probe_prefix table index)).filterMap id

/-! ## Rust -/

def executionError (message : String) : Raised := Mixed.rustError "CDB-6001" message

/-- `u64_column(batch, column, operator)`: the keys of a batch. -/
def u64Column (batch : Batch) (column operator : String) : Except Raised (List (Option Nat)) :=
  match batch.columns.find? fun entry => entry.1 = column with
  | none => .error (executionError (operator ++ " column not found: " ++ column))
  | some entry =>
      if entry.2 = .uint64 then
        .ok (batch.rows.map fun row => match cell batch.columns column row with
          | .int number => some number.toNat
          | _ => none)
      else .error (executionError (operator ++ " column must be UInt64: " ++ column))

/-- The keys that are no nulls, with the places of their rows among all batches. -/
def keyedRows (keys : List (Option Nat)) : List (Nat × Nat) :=
  keys.zipIdx.filterMap fun entry => entry.1.map fun key => (key, entry.2)

/-- The name of a column of the right side among the names that there are. -/
def rightName (names : List String) (name : String) : String :=
  if name ∈ names then "right." ++ name else name

/-- The columns of the right side, renamed where their names are taken. -/
def rightColumns : List String → List (String × DataType) → List (String × DataType)
  | _, [] => []
  | names, column :: columns =>
      let name := rightName names column.1
      (name, column.2) :: rightColumns (name :: names) columns

/-- `concat_batches(schema, batches)`: all rows, if the batches have one schema. -/
def concatBatches (first : Batch) (batches : List Batch) : Except Raised (List (List Value)) := do
  refuse (∃ batch ∈ batches, batch.columns ≠ first.columns)
    (executionError "HashJoin failed: batches have different schemas")
  return batches.flatMap Batch.rows

/-- `join_batches(left_batches, right_batches, left_take, right_take)` -/
def joinBatches (left_batches right_batches : List Batch) (take : List (Nat × Nat)) :
    Except Raised Batch :=
  match left_batches, right_batches with
  | left :: _, right :: _ => do
      let left_all ← concatBatches left left_batches
      let right_all ← concatBatches right right_batches
      return { columns := left.columns ++ rightColumns (columnNames left.columns) right.columns
               rows := take.map fun rows => left_all.getD rows.1 [] ++ right_all.getD rows.2 [] }
  | _, _ => .ok { columns := [("left_row", .uint64), ("right_row", .uint64)], rows := [] }

/-- `HashJoinOperator::on(left, right, left_key, right_key)`, run over the batches of its two
sides. -/
def rustJoin (left_key right_key : String) (left right : List Batch) : Except Raised Batch := do
  let right_keys ← right.mapM fun batch => u64Column batch right_key "HashJoin right"
  let right_by_key := fileIndices (keyedRows right_keys.flatten)
  let left_keys ← left.mapM fun batch => u64Column batch left_key "HashJoin left"
  joinBatches left right ((keyedRows left_keys.flatten).flatMap fun (key, left_row) =>
    ((right_by_key.get? key).getD []).map fun right_row => (left_row, right_row))

/-! ## Nested loops -/

/-- The pairs of rows whose keys are equal, in the order of the first list and then of the
second. -/
def paired {Left Right : Type} (same : Left → Right → Bool) (left : List Left) (right : List Right) :
    List (Left × Right) :=
  left.flatMap fun first => (right.filter (same first)).map fun second => (first, second)

/-- Keys are equal and no nulls. -/
def sameKeys (left right : Value) : Bool := left ≠ .null ∧ right ≠ .null ∧ left.hashed = right.hashed

/-- Batches of one schema, which has a key column once; a key can be hashed. -/
structure Stream (columns : List (String × DataType)) (key : String) (batches : List Batch) : Prop where
  uniform : ∀ batch ∈ batches, batch.columns = columns
  once : (columnNames columns).count key = 1
  hashable : ∀ batch ∈ batches, ∀ row ∈ batch.rows, ∃ filed, (cell columns key row).hashed = .ok filed

/-- The rows of all batches. -/
def allRows (batches : List Batch) : List (List Value) := batches.flatMap Batch.rows

/-! ## Filed indices -/

section Filed

variable {Key : Type} [DecidableEq Key]

/-- Under a key are the indices that were filed under it, in order. -/
theorem get_fileIndices (entries : List (Key × Nat)) (key : Key) :
    ((fileIndices entries).get? key).getD [] =
      (entries.filter fun entry => entry.1 = key).map Prod.snd := by
  have all (index : Dict Key (List Nat)) : ((entries.foldl (fun index entry =>
      index.set entry.1 (((index.get? entry.1).getD []) ++ [entry.2])) index).get? key).getD [] =
        (index.get? key).getD [] ++ (entries.filter fun entry => entry.1 = key).map Prod.snd := by
    induction entries generalizing index with
    | nil => simp
    | cons entry entries inductionHypothesis =>
      rw [List.foldl_cons, inductionHypothesis, List.filter_cons]
      by_cases same : entry.1 = key
      · subst same
        simp
      · rw [Dict.get_set_of_ne _ (Ne.symm same), if_neg (by simpa using same)]
  rw [fileIndices, all]
  rfl

theorem getD_place {Row : Type} {rows : List Row} {entry : Row × Nat} (member : entry ∈ rows.zipIdx)
    (default : Row) : rows.getD entry.2 default = entry.1 := by
  have held := List.mk_mem_zipIdx_iff_getElem?.mp (show (entry.1, entry.2) ∈ rows.zipIdx from member)
  rw [List.getD_eq_getElem?_getD, held, Option.getD_some]

/-- Rows read at the places of some of them are these rows. -/
theorem map_places {Row : Type} (rows : List Row) (accepts : Row → Bool) (default : Row) :
    ((rows.zipIdx.filter fun entry => accepts entry.1).map Prod.snd).map (rows.getD · default) =
      rows.filter accepts := by
  rw [List.map_map]
  calc (rows.zipIdx.filter fun entry => accepts entry.1).map ((rows.getD · default) ∘ Prod.snd)
      = (rows.zipIdx.filter fun entry => accepts entry.1).map Prod.fst :=
        List.map_congr_left fun entry member => getD_place (List.mem_of_mem_filter member) default
    _ = (rows.zipIdx.map Prod.fst).filter accepts := by rw [List.filter_map]; rfl
    _ = rows.filter accepts := by rw [List.zipIdx_map_fst]

end Filed

/-! ## Keys -/

/-- The key under which a value is filed. -/
def fileKey (value : Value) : Value :=
  match value.hashed with
  | .ok filed => filed
  | .error _ => value

theorem hashed_fileKey {value filed : Value} (hashable : value.hashed = .ok filed) :
    value.hashed = .ok (fileKey value) := by
  rw [fileKey, hashable]

/-- Only a null is filed as a null. -/
theorem hashed_null {value : Value} : value.hashed = .ok .null ↔ value = .null := by
  constructor
  · intro filed
    cases value with
    | null => rfl
    | float text =>
      rw [Value.hashed] at filed
      split at filed <;> cases filed
    | _ => cases filed
  · rintro rfl
    rfl

/-- Keys that are hashed are equal and no nulls if they are filed alike and the first is no null. -/
theorem sameKeys_iff {left right : Value} (hashable : ∃ filed, left.hashed = .ok filed)
    (hashableToo : ∃ filed, right.hashed = .ok filed) :
    sameKeys left right = true ↔ left ≠ .null ∧ fileKey right = fileKey left := by
  obtain ⟨_, first⟩ := hashable
  obtain ⟨_, second⟩ := hashableToo
  have one := hashed_fileKey first
  have two := hashed_fileKey second
  rw [sameKeys, decide_eq_true_eq]
  constructor
  · rintro ⟨present, _, same⟩
    exact ⟨present, Except.ok.inj (two.symm.trans (same.symm.trans one))⟩
  · rintro ⟨present, same⟩
    have hashes : left.hashed = right.hashed := by rw [one, two, same]
    refine ⟨present, ?_, hashes⟩
    rintro rfl
    exact present (hashed_null.mp hashes)

/-! ## The Python join -/

section Python

variable {columns : List (String × DataType)} {key : String} {batches : List Batch}

theorem Stream.key_hashed (stream : Stream columns key batches) {row : List Value}
    (member : row ∈ allRows batches) : ∃ filed, (cell columns key row).hashed = .ok filed := by
  obtain ⟨batch, among, held⟩ := List.mem_flatMap.mp member
  exact stream.hashable batch among row held

/-- The keys of some rows, filed. -/
theorem keys_filed {rows : List (List Value)} (once : (columnNames columns).count key = 1)
    (hashable : ∀ row ∈ rows, ∃ filed, (cell columns key row).hashed = .ok filed) :
    (do (← pythonColumn columns rows key).mapM Value.hashed) =
      Except.ok (rows.map fun row => fileKey (cell columns key row)) := by
  have each : (rows.map (cell columns key)).mapM Value.hashed =
      .ok ((rows.map (cell columns key)).map fileKey) := by
    refine mapM_of_ok fileKey _ fun value member => ?_
    obtain ⟨row, among, rfl⟩ := List.mem_map.mp member
    obtain ⟨filed, hashes⟩ := hashable row among
    exact hashed_fileKey hashes
  rw [pythonColumn, refuse, if_neg (not_not.mpr once), ok_bind]
  show (rows.map (cell columns key)).mapM Value.hashed = _
  rw [each, List.map_map]
  rfl

theorem key_listed (once : (columnNames columns).count key = 1) : key ∈ columnNames columns :=
  List.count_pos_iff.mp (by rw [once]; exact Nat.one_pos)

/-- The index of a build side finds the rows with a key. -/
theorem build_ok (stream : Stream columns key batches) :
    ∃ table index, buildTable key batches = .ok table ∧ buildIndex key table = .ok index ∧
      ∀ filed, ((index.get? filed).getD []).map (table.rows.getD · []) =
        (allRows batches).filter fun row => fileKey (cell columns key row) = filed := by
  -- one schema with the key column, which an empty side has as well
  have indexed {shown : List (String × DataType)} (once : (columnNames shown).count key = 1)
      (hashable : ∀ row ∈ allRows batches, ∃ filed, (cell shown key row).hashed = .ok filed) :
      ∃ index, buildIndex key { columns := shown, rows := allRows batches } = .ok index ∧
        ∀ filed, ((index.get? filed).getD []).map ((allRows batches).getD · []) =
          (allRows batches).filter fun row => fileKey (cell shown key row) = filed := by
    have filed := keys_filed once hashable
    refine ⟨fileIndices ((allRows batches).map fun row => fileKey (cell shown key row)).zipIdx, ?_,
      fun file => ?_⟩
    · rw [buildIndex, refuse, if_neg (not_not.mpr (key_listed once)), ok_bind]
      obtain ⟨column, read, rest⟩ := except_bind_ok filed
      rw [read, ok_bind, rest]
      rfl
    · rw [get_fileIndices, List.zipIdx_map, List.filter_map]
      refine Eq.trans (congrArg (List.map _) List.map_map) ?_
      exact map_places (allRows batches) (fun row => decide (fileKey (cell shown key row) = file)) []
  cases batches with
  | nil =>
    obtain ⟨index, made, finds⟩ := @indexed [(key, .uint64)] (by simp [columnNames])
      (by rintro row ⟨⟩)
    exact ⟨_, index, rfl, made, finds⟩
  | cons first rest =>
    obtain ⟨same, others⟩ := List.forall_mem_cons.mp stream.uniform
    obtain ⟨index, made, finds⟩ := indexed stream.once fun row => stream.key_hashed
    have alike : ¬ ∃ batch ∈ rest, batch.columns ≠ first.columns := by
      rintro ⟨batch, member, differs⟩
      exact differs ((others batch member).trans same.symm)
    refine ⟨_, index, ?_, made, finds⟩
    rw [buildTable, refuse, if_neg alike, same]
    rfl

/-- The join of a probe batch, by the pairs of its rows with what they are matched with. -/
theorem joinOne_pairs {kind : JoinKind} { build_prefix probe_prefix : Option String} {table : Batch}
    {index : Dict Value (List Nat)} {probe : Batch} (schema : probe.columns = columns)
    (once : (columnNames columns).count key = 1)
    (hashable : ∀ row ∈ probe.rows, ∃ filed, (cell columns key row).hashed = .ok filed)
    {pairs : List (Option Nat × List Value)}
    (paired : pairs = probe.rows.flatMap fun row =>
      (matchesOf kind index (fileKey (cell columns key row))).map fun bi => (bi, row)) :
    joinOne kind key build_prefix probe_prefix table index probe =
      if pairs = [] then .ok none
      else do
        refuse (table.rows = [] ∧ ∃ pair ∈ pairs, pair.1 = none) (.arrowError "Index 0 out of bounds")
        return some
          { columns := prefixed build_prefix table.columns ++ prefixed probe_prefix columns
            rows := pairs.map fun pair => buildRow table pair.1 ++ pair.2 } := by
  have filed := keys_filed once hashable
  have zipped : (probe.rows.map fun row => fileKey (cell columns key row)).zip probe.rows =
      probe.rows.map fun row => (fileKey (cell columns key row), row) := by
    induction probe.rows with
    | nil => rfl
    | cons row rows inductionHypothesis =>
      rw [List.map_cons, List.zip_cons_cons, inductionHypothesis, List.map_cons]
  subst schema paired
  obtain ⟨column, read, rest⟩ := except_bind_ok filed
  rw [joinOne, refuse, if_neg (not_not.mpr (key_listed once)), ok_bind, read, ok_bind, rest, ok_bind]
  simp only [zipped, List.flatMap_map]
  rfl

/-- What the join gives for the rows of a probe batch. -/
theorem joinOne_ok { build_prefix probe_prefix : Option String} {table : Batch}
    {index : Dict Value (List Nat)} {probe : Batch} (schema : probe.columns = columns)
    (once : (columnNames columns).count key = 1)
    (hashable : ∀ row ∈ probe.rows, ∃ filed, (cell columns key row).hashed = .ok filed) :
    ∃ joined, joinOne .inner key build_prefix probe_prefix table index probe = .ok joined ∧
      (joined.map Batch.rows).getD [] = probe.rows.flatMap fun row =>
        (((index.get? (fileKey (cell columns key row))).getD []).map (table.rows.getD · [])).map
          fun found => found ++ row := by
  have inner (filed : Value) : matchesOf .inner index filed = ((index.get? filed).getD []).map some := by
    rw [matchesOf]
    split
    · next none =>
      rw [none]
      rfl
    · rfl
  rw [joinOne_pairs schema once hashable rfl]
  simp only [inner, List.map_map]
  have rows : ((probe.rows.flatMap fun row => ((index.get? (fileKey (cell columns key row))).getD
      []).map ((fun bi => (bi, row)) ∘ some)).map fun pair => buildRow table pair.1 ++ pair.2) =
        probe.rows.flatMap fun row => ((index.get? (fileKey (cell columns key row))).getD []).map
          ((fun found => found ++ row) ∘ (table.rows.getD · [])) := by
    rw [List.map_flatMap]
    exact List.flatMap_congr fun row _ => List.map_map
  split
  · next nothing =>
    refine ⟨none, rfl, ?_⟩
    rw [← rows, nothing]
    rfl
  · have found : ¬ (table.rows = [] ∧ ∃ pair ∈ probe.rows.flatMap fun row =>
        ((index.get? (fileKey (cell columns key row))).getD []).map ((fun bi => (bi, row)) ∘ some),
        pair.1 = none) := by
      rintro ⟨_, pair, member, missing⟩
      obtain ⟨row, _, among⟩ := List.mem_flatMap.mp member
      obtain ⟨bi, _, rfl⟩ := List.mem_map.mp among
      cases missing
    rw [refuse, if_neg found]
    exact ⟨_, rfl, rows⟩

/-- What is joined for each row of each probe batch is joined for all of them. -/
theorem joinAll_rows {kind : JoinKind} { build_prefix probe_prefix : Option String} {table : Batch}
    {index : Dict Value (List Nat)} {gives : List Value → List (List Value)}
    (each : ∀ batch ∈ batches, ∃ joined,
      joinOne kind key build_prefix probe_prefix table index batch = .ok joined ∧
        (joined.map Batch.rows).getD [] = batch.rows.flatMap gives) :
    ∃ joined, batches.mapM (joinOne kind key build_prefix probe_prefix table index) = .ok joined ∧
      allRows (joined.filterMap id) = (allRows batches).flatMap gives := by
  induction batches with
  | nil => exact ⟨[], rfl, rfl⟩
  | cons batch rest inductionHypothesis =>
    obtain ⟨⟨first, made, rows⟩, others⟩ := List.forall_mem_cons.mp each
    obtain ⟨joined, run, behind⟩ := inductionHypothesis others
    refine ⟨first :: joined, ?_, ?_⟩
    · rw [List.mapM_cons, made, ok_bind, run]
      rfl
    · have split : allRows (batch :: rest) = batch.rows ++ allRows rest := List.flatMap_cons
      rw [split, List.flatMap_append, ← rows, ← behind]
      cases first <;> rfl

/-- What the join gives for all probe batches: nested loops over the keys as they are filed. -/
theorem pythonJoin_rows {build_columns : List (String × DataType)} {build_key : String}
    {build : List Batch} (built : Stream build_columns build_key build)
    (stream : Stream columns key batches) ( build_prefix probe_prefix : Option String) :
    ∃ joined, pythonJoin .inner build_key key build_prefix probe_prefix build batches = .ok joined ∧
      allRows joined = (paired (fun row found => decide (fileKey (cell build_columns build_key found) =
        fileKey (cell columns key row))) (allRows batches) (allRows build)).map
          fun pair => pair.2 ++ pair.1 := by
  obtain ⟨table, index, tabled, indexed, finds⟩ := build_ok built
  have each : ∀ batch ∈ batches, ∃ joined,
      joinOne .inner key build_prefix probe_prefix table index batch = .ok joined ∧
        (joined.map Batch.rows).getD [] = batch.rows.flatMap fun row =>
          ((allRows build).filter fun found => fileKey (cell build_columns build_key found) =
            fileKey (cell columns key row)).map fun found => found ++ row := by
    intro batch member
    obtain ⟨joined, made, rows⟩ := joinOne_ok (stream.uniform batch member) stream.once
      (stream.hashable batch member)
    refine ⟨joined, made, rows.trans (List.flatMap_congr fun row _ => ?_)⟩
    rw [finds]
  obtain ⟨joined, run, rows⟩ := joinAll_rows each
  refine ⟨joined.filterMap id, ?_, ?_⟩
  · rw [pythonJoin, tabled, ok_bind, indexed, ok_bind, run]
    rfl
  · rw [rows, paired, List.map_flatMap]
    refine List.flatMap_congr fun row _ => ?_
    rw [List.map_map]
    rfl

end Python

/-! ## Nulls -/

section Nulls

variable {Left Right : Type}

theorem mem_paired {same : Left → Right → Bool} {left : List Left} {right : List Right}
    {pair : Left × Right} :
    pair ∈ paired same left right ↔ pair.1 ∈ left ∧ pair.2 ∈ right ∧ same pair.1 pair.2 = true := by
  rw [paired, List.mem_flatMap]
  constructor
  · rintro ⟨first, member, among⟩
    obtain ⟨second, held, rfl⟩ := List.mem_map.mp among
    exact ⟨member, List.mem_filter.mp held⟩
  · rintro ⟨member, held⟩
    exact ⟨pair.1, member, List.mem_map.mpr ⟨pair.2, List.mem_filter.mpr held, rfl⟩⟩

/-- Loops with a stricter condition on the first rows give some of the pairs. -/
theorem paired_filter {same strict : Left → Right → Bool} {keeps : Left → Bool} {left : List Left}
    {right : List Right} (stricter : ∀ first ∈ left, ∀ second ∈ right,
      strict first second = (keeps first && same first second)) :
    paired strict left right = (paired same left right).filter fun pair => keeps pair.1 := by
  rw [paired, paired, List.filter_flatMap]
  refine List.flatMap_congr fun first member => ?_
  have rows : right.filter (strict first) = right.filter fun second => keeps first && same first second :=
    List.filter_congr fun second held => stricter first member second held
  rw [rows, List.filter_map]
  cases kept : keeps first with
  | true =>
    have all : ∀ second ∈ right.filter (same first),
        ((fun pair : Left × Right => keeps pair.1) ∘ fun second => (first, second)) second = true :=
      fun _ _ => kept
    rw [List.filter_eq_self.mpr all]
    simp
  | false =>
    have nothing : ∀ second ∈ right.filter (same first),
        ¬ ((fun pair : Left × Right => keeps pair.1) ∘ fun second => (first, second)) second = true := by
      intro _ _ impossible
      exact absurd (kept.symm.trans impossible) Bool.false_ne_true
    rw [List.filter_eq_nil_iff.mpr nothing]
    simp

/-- A list from which some item is left out is another one. -/
theorem map_filter_eq_iff {Item Row : Type} (items : List Item) (keeps : Item → Bool)
    (row : Item → Row) :
    items.map row = (items.filter keeps).map row ↔ ∀ item ∈ items, keeps item = true := by
  constructor
  · intro same
    have lengths := congrArg List.length same
    rw [List.length_map, List.length_map] at lengths
    exact List.length_filter_eq_length_iff.mp lengths.symm
  · intro all
    rw [List.filter_eq_self.mpr all]

end Nulls

/-! ## The Rust join -/

/-- A key column of unsigned integers and nulls. -/
structure UInt64Keys (columns : List (String × DataType)) (key : String) (rows : List (List Value)) :
    Prop where
  type : (columns.find? fun entry => entry.1 = key) = some (key, .uint64)
  values : ∀ row ∈ rows, cell columns key row = .null ∨ ∃ number : Nat, cell columns key row = .int number

/-- The number that is the key of a row. -/
def keyNumber (columns : List (String × DataType)) (key : String) (row : List Value) : Option Nat :=
  match cell columns key row with
  | .int number => some number.toNat
  | _ => none

section Rust

variable {columns : List (String × DataType)} {key operator : String} {batches : List Batch}

theorem u64Columns_ok (uniform : ∀ batch ∈ batches, batch.columns = columns)
    (keys : UInt64Keys columns key (allRows batches)) :
    batches.mapM (fun batch => u64Column batch key operator) =
      .ok (batches.map fun batch => batch.rows.map (keyNumber columns key)) := by
  refine mapM_of_ok (fun batch : Batch => batch.rows.map (keyNumber columns key)) _ fun batch member => ?_
  rw [u64Column, uniform batch member, keys.type]
  rfl

theorem flatten_keys (columns : List (String × DataType)) (key : String) (batches : List Batch) :
    (batches.map fun batch => batch.rows.map (keyNumber columns key)).flatten =
      (allRows batches).map (keyNumber columns key) := by
  rw [allRows, List.map_flatMap]
  rfl

/-- The keys of rows with their places, nulls left out. -/
theorem keyedRows_map (columns : List (String × DataType)) (key : String) (rows : List (List Value)) :
    keyedRows (rows.map (keyNumber columns key)) =
      rows.zipIdx.filterMap fun entry => (keyNumber columns key entry.1).map fun number =>
        (number, entry.2) := by
  rw [keyedRows, List.zipIdx_map, List.filterMap_map]
  rfl

/-- The index of the right side finds the rows with a key. -/
theorem keyed_found (columns : List (String × DataType)) (key : String) (rows : List (List Value))
    (number : Nat) :
    (((fileIndices (keyedRows (rows.map (keyNumber columns key)))).get? number).getD []).map
        (rows.getD · []) = rows.filter fun row => keyNumber columns key row = some number := by
  have chosen (entries : List (List Value × Nat)) : ((entries.filterMap fun entry =>
      (keyNumber columns key entry.1).map fun number => (number, entry.2)).filter fun entry =>
        entry.1 = number).map Prod.snd = (entries.filter fun entry =>
          keyNumber columns key entry.1 = some number).map Prod.snd := by
    induction entries with
    | nil => rfl
    | cons entry entries inductionHypothesis =>
      rw [List.filterMap_cons, List.filter_cons]
      cases held : keyNumber columns key entry.1 with
      | none =>
        simp only [Option.map_none]
        rw [inductionHypothesis]
        simp
      | some value =>
        simp only [Option.map_some, List.filter_cons]
        by_cases same : value = number
        · simp [same, inductionHypothesis]
        · simp [same, inductionHypothesis]
  rw [get_fileIndices, keyedRows_map columns key, chosen]
  exact map_places rows (fun row => decide (keyNumber columns key row = some number)) []

/-- Rows read at the places that are taken: nested loops over the numbers that are keys. -/
theorem taken_rows {right_columns : List (String × DataType)} {right_key : String}
    (left right : List (List Value)) :
    (((keyedRows (left.map (keyNumber columns key))).flatMap fun (number, left_row) =>
        (((fileIndices (keyedRows (right.map (keyNumber right_columns right_key)))).get? number).getD
          []).map fun right_row => (left_row, right_row)).map fun rows =>
            left.getD rows.1 [] ++ right.getD rows.2 []) =
      (paired (fun row found => keyNumber columns key row ≠ none ∧
        keyNumber columns key row = keyNumber right_columns right_key found) left right).map
          fun pair => pair.1 ++ pair.2 := by
  have each (entries : List (List Value × Nat))
      (read : ∀ entry ∈ entries, left.getD entry.2 [] = entry.1) :
      ((entries.filterMap fun entry => (keyNumber columns key entry.1).map fun number =>
        (number, entry.2)).flatMap fun (number, left_row) =>
          (((fileIndices (keyedRows (right.map (keyNumber right_columns right_key)))).get?
            number).getD []).map fun right_row => (left_row, right_row)).map (fun rows =>
              left.getD rows.1 [] ++ right.getD rows.2 []) =
        (paired (fun row found => keyNumber columns key row ≠ none ∧
          keyNumber columns key row = keyNumber right_columns right_key found)
            (entries.map Prod.fst) right).map fun pair => pair.1 ++ pair.2 := by
    induction entries with
    | nil => rfl
    | cons entry entries inductionHypothesis =>
      obtain ⟨here, others⟩ := List.forall_mem_cons.mp read
      have rest := inductionHypothesis others
      rw [paired] at rest ⊢
      rw [List.filterMap_cons, List.map_cons, List.flatMap_cons, List.map_append, ← rest]
      cases held : keyNumber columns key entry.1 with
      | none => simp
      | some number =>
        have equal : right.filter (fun found => decide (some number ≠ none ∧
            some number = keyNumber right_columns right_key found)) =
              right.filter fun found => keyNumber right_columns right_key found = some number := by
          refine List.filter_congr fun found _ => ?_
          simp [eq_comm]
        rw [equal, ← keyed_found right_columns right_key right number]
        simp only [Option.map_some, List.flatMap_cons, List.map_append, List.map_map]
        refine congrArg (· ++ _) (List.map_congr_left fun place _ => ?_)
        exact congrArg (· ++ right.getD place []) here
  rw [keyedRows_map columns key, each _ fun _ member => getD_place member [], List.zipIdx_map_fst]

/-- The Rust join gives the nested loops over equal keys that are no nulls. -/
theorem rustJoin_rows {right_columns : List (String × DataType)} {right_key : String}
    {right : List Batch} (uniform : ∀ batch ∈ batches, batch.columns = columns)
    (uniformToo : ∀ batch ∈ right, batch.columns = right_columns)
    (keys : UInt64Keys columns key (allRows batches))
    (keysToo : UInt64Keys right_columns right_key (allRows right)) :
    ∃ joined, rustJoin key right_key batches right = .ok joined ∧
      joined.rows = (paired (fun row found => sameKeys (cell columns key row)
        (cell right_columns right_key found)) (allRows batches) (allRows right)).map
          fun pair => pair.1 ++ pair.2 := by
  have same : paired (fun row found => sameKeys (cell columns key row)
      (cell right_columns right_key found)) (allRows batches) (allRows right) =
      paired (fun row found => keyNumber columns key row ≠ none ∧ keyNumber columns key row =
        keyNumber right_columns right_key found) (allRows batches) (allRows right) := by
    rw [paired, paired]
    refine List.flatMap_congr fun row member => congrArg _ (List.filter_congr fun found held => ?_)
    rw [sameKeys, keyNumber, keyNumber]
    rcases keys.values row member with none | ⟨number, one⟩
    · simp [none]
    · rcases keysToo.values found held with none | ⟨other, two⟩
      · simp [one, none]
      · simp [one, two, Value.hashed, Int.ofNat_inj]
  rw [rustJoin, u64Columns_ok uniformToo keysToo, ok_bind, u64Columns_ok uniform keys, ok_bind,
    flatten_keys, flatten_keys, same]
  -- without a batch on some side there are no pairs
  have concat {columns : List (String × DataType)} {first : Batch} {rest : List Batch}
      (uniform : ∀ batch ∈ first :: rest, batch.columns = columns) :
      concatBatches first (first :: rest) = .ok (allRows (first :: rest)) := by
    obtain ⟨here, _⟩ := List.forall_mem_cons.mp uniform
    have alike : ¬ ∃ batch ∈ first :: rest, batch.columns ≠ first.columns := by
      rintro ⟨batch, member, differs⟩
      exact differs ((uniform batch member).trans here.symm)
    rw [concatBatches, refuse, if_neg alike]
    rfl
  cases batches with
  | nil => exact ⟨_, rfl, rfl⟩
  | cons first rest =>
    cases right with
    | nil =>
      refine ⟨_, rfl, ?_⟩
      rw [paired]
      simp [allRows]
    | cons other others =>
      rw [joinBatches, concat uniform, ok_bind, concat uniformToo, ok_bind]
      exact ⟨_, rfl, taken_rows _ _⟩

end Rust

/-! ## Both joins -/

/-- Some row has a null key. -/
def NullKey (columns : List (String × DataType)) (key : String) (batches : List Batch) : Prop :=
  ∃ row ∈ allRows batches, cell columns key row = .null

/-- The inner joins of two streams of batches. The Python one gives the nested loops over equal keys
that are no nulls exactly if not both sides have a null key; on keys that are unsigned integers the
Rust one gives them always. -/
theorem inner_joins {build_columns probe_columns : List (String × DataType)}
    {build_key probe_key : String} {build probe : List Batch}
    (built : Stream build_columns build_key build) (probed : Stream probe_columns probe_key probe)
    ( build_prefix probe_prefix : Option String) :
    (∃ joined, pythonJoin .inner build_key probe_key build_prefix probe_prefix build probe = .ok joined ∧
      (allRows joined = (paired (fun row found => sameKeys (cell probe_columns probe_key row)
          (cell build_columns build_key found)) (allRows probe) (allRows build)).map
            (fun pair => pair.2 ++ pair.1) ↔
        ¬ (NullKey build_columns build_key build ∧ NullKey probe_columns probe_key probe))) ∧
    (UInt64Keys probe_columns probe_key (allRows probe) →
      UInt64Keys build_columns build_key (allRows build) →
      ∃ joined, rustJoin probe_key build_key probe build = .ok joined ∧
        joined.rows = (paired (fun row found => sameKeys (cell probe_columns probe_key row)
          (cell build_columns build_key found)) (allRows probe) (allRows build)).map
            fun pair => pair.1 ++ pair.2) := by
  refine ⟨?_, rustJoin_rows probed.uniform built.uniform⟩
  obtain ⟨joined, run, rows⟩ := pythonJoin_rows built probed build_prefix probe_prefix
  refine ⟨joined, run, ?_⟩
  have stricter : ∀ row ∈ allRows probe, ∀ found ∈ allRows build,
      sameKeys (cell probe_columns probe_key row) (cell build_columns build_key found) =
        (decide (cell probe_columns probe_key row ≠ .null) &&
          decide (fileKey (cell build_columns build_key found) =
            fileKey (cell probe_columns probe_key row))) := by
    intro row member found held
    rw [Bool.eq_iff_iff, sameKeys_iff (probed.key_hashed member) (built.key_hashed held)]
    simp
  rw [rows, paired_filter stricter, map_filter_eq_iff]
  constructor
  · rintro all ⟨⟨found, held, noKey⟩, row, member, noKeyToo⟩
    have pair := all (row, found) (mem_paired.mpr ⟨member, held, by simp [noKey, noKeyToo]⟩)
    exact of_decide_eq_true pair noKeyToo
  · rintro clear ⟨row, found⟩ among
    obtain ⟨member, held, same⟩ := mem_paired.mp among
    refine decide_eq_true fun noKey => clear ⟨⟨found, held, ?_⟩, row, member, noKey⟩
    -- a key that is filed as a null is one
    obtain ⟨filed, hashes⟩ := built.key_hashed held
    have alike := of_decide_eq_true same
    rw [show cell probe_columns probe_key row = .null from noKey] at alike
    exact hashed_null.mp ((hashed_fileKey hashes).trans (congrArg Except.ok alike))

/-- Batches of one column of keys. -/
def keyBatch (keys : List Value) : Batch :=
  { columns := [("id", .uint64)], rows := keys.map fun key => [key] }

theorem keyBatch_stream {keys : List Value} (hashable : ∀ key ∈ keys, ∃ filed, key.hashed = .ok filed) :
    Stream [("id", .uint64)] "id" [keyBatch keys] := by
  refine ⟨List.forall_mem_singleton.mpr rfl, rfl, List.forall_mem_singleton.mpr ?_⟩
  intro row member
  obtain ⟨key, among, rfl⟩ := List.mem_map.mp member
  exact hashable key among

/-- A null on one side only is paired by neither engine. -/
theorem one_null_unpaired : ∃ joined,
    pythonJoin .inner "id" "id" none none [keyBatch [.null, .int 1]] [keyBatch [.int 1]] = .ok joined ∧
      allRows joined = [[.int 1, .int 1]] := by
  have built : Stream [("id", .uint64)] "id" [keyBatch [.null, .int 1]] :=
    keyBatch_stream (List.forall_mem_cons.mpr ⟨⟨_, rfl⟩, List.forall_mem_singleton.mpr ⟨_, rfl⟩⟩)
  have probed : Stream [("id", .uint64)] "id" [keyBatch [.int 1]] :=
    keyBatch_stream (List.forall_mem_singleton.mpr ⟨_, rfl⟩)
  obtain ⟨⟨joined, run, rows⟩, _⟩ := inner_joins built probed none none
  refine ⟨joined, run, rows.mpr ?_⟩
  rintro ⟨_, row, member, noKey⟩
  rw [List.mem_singleton.mp member] at noKey
  cases noKey

/-- Nulls on both sides are paired in Python and not in Rust. -/
theorem nulls_paired :
    pythonJoin .inner "id" "id" none none [keyBatch [.null]] [keyBatch [.null]] =
      .ok [{ columns := [("id", .uint64), ("id", .uint64)], rows := [[.null, .null]] }] ∧
    rustJoin "id" "id" [keyBatch [.null]] [keyBatch [.null]] =
      .ok { columns := [("id", .uint64), ("right.id", .uint64)], rows := [] } := by
  decide

end CaracalDB.HashJoin
