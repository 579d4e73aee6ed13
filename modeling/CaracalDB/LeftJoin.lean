import CaracalDB.HashJoin

/-!
# Left joins

A left join keeps every row of the probe side. A row without a match takes row 0 of the build
side first and is masked with nulls afterwards, which needs a build side that has a row.
-/

namespace CaracalDB.HashJoin

/-! ## Nested loops -/

/-- A row with each of the rows that are found for it before it, or with a blank one if there are
none. -/
def kept (blank row : List Value) : List (List Value) → List (List Value)
  | [] => [blank ++ row]
  | found => found.map (· ++ row)

/-- Each row of the probe side with its rows of the build side. -/
def leftJoined (same : List Value → List Value → Bool) (blank : List Value)
    (probe build : List (List Value)) : List (List Value) :=
  probe.flatMap fun row => kept blank row (build.filter (same row))

/-- The keys of a probe row and a build row are one key of a dictionary. -/
def equalKeys (probe_columns build_columns : List (String × DataType)) (probe_key build_key : String)
    (row found : List Value) : Bool :=
  (cell build_columns build_key found).hashed = (cell probe_columns probe_key row).hashed

/-- The left join ends without an error and with the nested loops, in batches of one schema. -/
def KeepsProbe (build_columns probe_columns : List (String × DataType)) (build_key probe_key : String)
    ( build_prefix probe_prefix : Option String) (build probe : List Batch) : Prop :=
  ∃ joined, pythonJoin .left build_key probe_key build_prefix probe_prefix build probe = .ok joined ∧
    (∀ batch ∈ joined,
      batch.columns = prefixed build_prefix build_columns ++ prefixed probe_prefix probe_columns) ∧
    allRows joined = leftJoined (equalKeys probe_columns build_columns probe_key build_key)
      (build_columns.map fun _ => .null) (allRows probe) (allRows build)

/-! ## One row -/

section Rows

variable {columns : List (String × DataType)} {key : String} {batches : List Batch}

/-- The table of the build side has the rows of its batches, and their schema if there are any. -/
theorem buildTable_shape (uniform : ∀ batch ∈ batches, batch.columns = columns) {table : Batch}
    (tabled : buildTable key batches = .ok table) :
    table.rows = allRows batches ∧ (batches ≠ [] → table.columns = columns) := by
  cases batches with
  | nil =>
    cases tabled
    exact ⟨rfl, fun nonempty => absurd rfl nonempty⟩
  | cons first rest =>
    rw [buildTable] at tabled
    obtain ⟨_, _, made⟩ := except_bind_ok tabled
    cases made
    exact ⟨rfl, fun _ => uniform first List.mem_cons_self⟩

/-- The rows of the build side that are put before a probe row. -/
theorem built_rows {index : Dict Value (List Nat)} {table : Batch} {filed : Value}
    {found : List (List Value)}
    (finds : ((index.get? filed).getD []).map (table.rows.getD · []) = found) (row : List Value) :
    ((matchesOf .left index filed).map fun bi => buildRow table bi ++ row) =
      kept (table.columns.map fun _ => .null) row found := by
  subst finds
  rw [matchesOf]
  cases (index.get? filed).getD [] with
  | nil => rfl
  | cons place places => simp [buildRow, kept]

end Rows

/-! ## One batch -/

section Batches

variable {columns : List (String × DataType)} {key : String} { build_prefix probe_prefix : Option String}
  {table probe : Batch} {index : Dict Value (List Nat)}

/-- A probe batch is joined if the build side has a row or the batch has none. -/
theorem joinOne_left (schema : probe.columns = columns) (once : (columnNames columns).count key = 1)
    (hashable : ∀ row ∈ probe.rows, ∃ filed, (cell columns key row).hashed = .ok filed)
    (room : table.rows ≠ [] ∨ probe.rows = []) :
    ∃ joined, joinOne .left key build_prefix probe_prefix table index probe = .ok joined ∧
      (∀ made ∈ joined, probe.rows ≠ [] ∧
        made.columns = prefixed build_prefix table.columns ++ prefixed probe_prefix columns) ∧
      (joined.map Batch.rows).getD [] = probe.rows.flatMap fun row =>
        (matchesOf .left index (fileKey (cell columns key row))).map fun bi =>
          buildRow table bi ++ row := by
  have rows : ((probe.rows.flatMap fun row => (matchesOf .left index (fileKey
      (cell columns key row))).map fun bi => (bi, row)).map fun pair => buildRow table pair.1 ++ pair.2) =
        probe.rows.flatMap fun row => (matchesOf .left index (fileKey (cell columns key row))).map
          fun bi => buildRow table bi ++ row := by
    rw [List.map_flatMap]
    exact List.flatMap_congr fun row _ => List.map_map
  rw [joinOne_pairs schema once hashable rfl, ← rows]
  split
  · next nothing =>
    refine ⟨none, rfl, by simp, ?_⟩
    rw [nothing]
    rfl
  · next paired =>
    have some_row : probe.rows ≠ [] := by
      intro nothing
      apply paired
      simp [nothing]
    have held : ¬ (table.rows = [] ∧ ∃ pair ∈ probe.rows.flatMap fun row =>
        (matchesOf .left index (fileKey (cell columns key row))).map fun bi => (bi, row),
        pair.1 = none) := by
      rintro ⟨empty, _⟩
      rcases room with room | nothing
      · exact room empty
      · exact some_row nothing
    rw [refuse, if_neg held]
    exact ⟨_, rfl, by simp [some_row], rfl⟩

/-- A probe batch with a row is not joined if the build side has none. -/
theorem joinOne_left_refused (schema : probe.columns = columns)
    (once : (columnNames columns).count key = 1)
    (hashable : ∀ row ∈ probe.rows, ∃ filed, (cell columns key row).hashed = .ok filed)
    (unindexed : ∀ filed, matchesOf .left index filed = [none]) (empty : table.rows = [])
    (some_row : probe.rows ≠ []) :
    joinOne .left key build_prefix probe_prefix table index probe =
      .error (.arrowError "Index 0 out of bounds") := by
  obtain ⟨row, rest, rows⟩ := List.exists_cons_of_ne_nil some_row
  rw [joinOne_pairs schema once hashable rfl, rows]
  simp [unindexed, empty, refuse]

end Batches

/-! ## All batches -/

/-- A left join keeps every probe row exactly if the build side has a row, or the probe side has
none. -/
theorem left_join_keeps {build_columns probe_columns : List (String × DataType)}
    {build_key probe_key : String} {build probe : List Batch}
    (built : Stream build_columns build_key build) (probed : Stream probe_columns probe_key probe)
    ( build_prefix probe_prefix : Option String) :
    KeepsProbe build_columns probe_columns build_key probe_key build_prefix probe_prefix build probe ↔
      allRows build ≠ [] ∨ allRows probe = [] := by
  obtain ⟨table, index, tabled, indexed, finds⟩ := build_ok built
  obtain ⟨tableRows, tableColumns⟩ := buildTable_shape built.uniform tabled
  have opened : pythonJoin .left build_key probe_key build_prefix probe_prefix build probe =
      (do return (← probe.mapM (joinOne .left probe_key build_prefix probe_prefix table
        index)).filterMap id) := by
    rw [pythonJoin, tabled, ok_bind, indexed, ok_bind]
  constructor
  · rintro ⟨joined, run, _⟩
    by_contra neither
    obtain ⟨empty, some_row⟩ := not_or.mp neither
    -- the first batch with a row takes row 0 of an empty table
    obtain ⟨row, member⟩ := List.exists_mem_of_ne_nil _ some_row
    obtain ⟨batch, among, held⟩ := List.mem_flatMap.mp member
    have noRows := not_not.mp empty
    have unindexed (filed : Value) : matchesOf .left index filed = [none] := by
      have nothing := finds filed
      rw [noRows, List.filter_nil, List.map_eq_nil_iff] at nothing
      rw [matchesOf, nothing]
      rfl
    rw [opened] at run
    obtain ⟨_, all, _⟩ := except_bind_ok run
    obtain ⟨_, one⟩ := ok_of_mapM_ok all batch among
    rw [joinOne_left_refused (probed.uniform batch among) probed.once (probed.hashable batch among)
      unindexed (tableRows.trans noRows) (List.ne_nil_of_mem held)] at one
    cases one
  · intro room
    have each : ∀ batch ∈ probe, ∃ joined,
        joinOne .left probe_key build_prefix probe_prefix table index batch = .ok joined ∧
          (∀ made ∈ joined, batch.rows ≠ [] ∧ made.columns =
            prefixed build_prefix table.columns ++ prefixed probe_prefix probe_columns) ∧
          (joined.map Batch.rows).getD [] = batch.rows.flatMap fun row =>
            (matchesOf .left index (fileKey (cell probe_columns probe_key row))).map fun bi =>
              buildRow table bi ++ row := by
      intro batch member
      apply joinOne_left (probed.uniform batch member) probed.once (probed.hashable batch member)
      rw [tableRows]
      exact room.imp_right fun none => List.flatMap_eq_nil_iff.mp none batch member
    obtain ⟨joined, run, rows⟩ := joinAll_rows fun batch member =>
      (each batch member).imp fun _ one => ⟨one.1, one.2.2⟩
    -- a probe row shows that there are build batches, which give the table its columns
    have columns {batch : Batch} {row : List Value} (among : batch ∈ probe) (held : row ∈ batch.rows) :
        table.columns = build_columns := by
      apply tableColumns
      rintro rfl
      rcases room with room | none
      · exact room rfl
      · exact absurd (List.mem_flatMap.mpr ⟨batch, among, held⟩) (by rw [allRows] at none; simp [none])
    refine ⟨joined.filterMap id, ?_, ?_, ?_⟩
    · rw [opened, run]
      rfl
    · intro made member
      obtain ⟨gave, among, same⟩ := List.mem_filterMap.mp member
      obtain ⟨batch, of_probe, one⟩ := (mem_of_mapM_ok run gave).mp among
      obtain ⟨expected, made', shape, _⟩ := each batch of_probe
      rw [one] at made'
      cases made'
      obtain ⟨some_row, schema⟩ := shape made same
      obtain ⟨row, held⟩ := List.exists_mem_of_ne_nil _ some_row
      rw [schema, columns of_probe held]
    · rw [rows, leftJoined]
      refine List.flatMap_congr fun row member => ?_
      obtain ⟨batch, among, held⟩ := List.mem_flatMap.mp member
      rw [built_rows (finds _) row, columns among held]
      refine congrArg (kept _ row) (List.filter_congr fun found of_build => ?_)
      obtain ⟨_, hashes⟩ := probed.key_hashed member
      obtain ⟨_, hashesToo⟩ := built.key_hashed of_build
      rw [equalKeys, hashed_fileKey hashes, hashed_fileKey hashesToo]
      simp

/-- A row without a match is kept with a null beside rows that have one. -/
theorem two_probe_rows_kept : KeepsProbe [("id", .uint64)] [("id", .uint64)] "id" "id" none none
    [keyBatch [.int 1]] [keyBatch [.int 1, .int 2]] := by
  have built : Stream [("id", .uint64)] "id" [keyBatch [.int 1]] :=
    keyBatch_stream (List.forall_mem_singleton.mpr ⟨_, rfl⟩)
  have probed : Stream [("id", .uint64)] "id" [keyBatch [.int 1, .int 2]] :=
    keyBatch_stream (List.forall_mem_cons.mpr ⟨⟨_, rfl⟩, List.forall_mem_singleton.mpr ⟨_, rfl⟩⟩)
  exact (left_join_keeps built probed none none).mpr (.inl (by decide))

/-- One probe row beside a build side without batches: row 0 is taken from an empty table. -/
theorem empty_build_refused :
    pythonJoin .left "id" "id" none none [] [keyBatch [.int 1]] =
      .error (.arrowError "Index 0 out of bounds") ∧
    ¬ KeepsProbe [("id", .uint64)] [("id", .uint64)] "id" "id" none none [] [keyBatch [.int 1]] := by
  have refused : pythonJoin .left "id" "id" none none [] [keyBatch [.int 1]] =
      .error (.arrowError "Index 0 out of bounds") := by decide
  refine ⟨refused, ?_⟩
  rintro ⟨joined, run, _⟩
  rw [refused] at run
  cases run

end CaracalDB.HashJoin
