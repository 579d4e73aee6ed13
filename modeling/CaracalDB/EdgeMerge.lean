import CaracalDB.UpsertMerge

/-!
# What an upsert of edges plans

Edges are merged like nodes, but their endpoints are resolved first and no id is
handed out. An edge that was read from a store without the type column counts as
of the store's relation when the groups are chosen, and has no type when the rows
are put into them.
-/

namespace CaracalDB.Database

/-- A row with its endpoints resolved, freed of errors. -/
def resolved (id_map : IdMap) (columns : EdgeColumns) (raw : Row) : Row :=
  match resolvedRow id_map columns raw with
  | .ok row => row
  | .error _ => raw

/-- How the rows of an edge table are merged. -/
def edgeRules (id_map : IdMap) (edge_key_col : String) (columns : EdgeColumns) :
    KeyedMerge.Rules Value Row Row where
  key := keyOf edge_key_col
  make raw _ := resolved id_map columns raw
  combine old raw _ := old.update (resolved id_map columns raw)
  advance _ number := number

/-- What merging one row of an edge table requires of it. -/
structure GivenEdge (id_map : IdMap) (edge_key_col : String) (columns : EdgeColumns) (raw : Row) :
    Prop where
  filed : Filed "edge type" edge_key_col columns.type_col raw
  present : ∀ name ∈ [edge_key_col, columns.src_col, columns.dst_col, columns.type_col],
    name ∈ raw.keys
  resolves : resolvedRow id_map columns raw = .ok (resolved id_map columns raw)

/-- The local name of the type of a given row. -/
def givenType (columns : EdgeColumns) (raw : Row) : String :=
  typeName "edge type" (raw.read columns.type_col)

theorem mergeEdgeRow_ok {edge_key_col : String} {columns : EdgeColumns} {update_existing : Bool}
    {id_map : IdMap} {merging after : Merging} {raw : Row}
    (done : mergeEdgeRow edge_key_col columns update_existing id_map merging raw = .ok after) :
    after = mergeStep (edgeRules id_map edge_key_col columns) (givenType columns) update_existing
        merging raw ∧ GivenEdge id_map edge_key_col columns raw := by
  obtain ⟨_, present, done⟩ := except_bind_ok done
  obtain ⟨name, coerced, done⟩ := except_bind_ok done
  obtain ⟨row, resolves, done⟩ := except_bind_ok done
  obtain ⟨key, files, done⟩ := except_bind_ok done
  have same : resolved id_map columns raw = row := by rw [resolved, resolves]
  refine ⟨?_, ⟨⟨key, files⟩, ⟨name, coerced⟩⟩, requireColumns_ok present, same ▸ resolves⟩
  have ofKey : (edgeRules id_map edge_key_col columns).key raw = key := keyOf_eq files
  simp only [mergeStep, KeyedMerge.step, Merging.state, ofKey, givenType, typeName_eq coerced]
  cases known : merging.existing.get? key with
  | none =>
    rw [known] at done
    simp only [edgeRules, same]
    exact (Except.ok.inj done).symm
  | some old =>
    rw [known] at done
    simp only [edgeRules, same]
    cases update_existing with
    | true => exact (Except.ok.inj done).symm
    | false => exact (Except.ok.inj done).symm

/-- The edges that are read, under their keys. -/
def edgeBase (edge_key_col : String) (db : Database) : Dict Value Row :=
  ((scannedEdges edge_key_col db).map Prod.snd).foldl
    (fun base row => base.set (keyOf edge_key_col row) row) Dict.empty

/-- What an upsert of edges merges. -/
def mergedEdges (edge_key_col : String) (columns : EdgeColumns) (update_existing : Bool)
    (id_map : IdMap) (rows : List Row) (db : Database) : KeyedMerge.State Value Row :=
  KeyedMerge.run (edgeRules id_map edge_key_col columns) update_existing
    (edgeBase edge_key_col db) 0 rows

/-- The names of the types that an upsert of edges has read or was given. -/
def touchedEdges (edge_key_col : String) (columns : EdgeColumns) (rows : List Row)
    (db : Database) : List String :=
  (scannedEdges edge_key_col db).map (fun row =>
      typeName "edge type" (edgeType columns.type_col row)) ++ rows.map (givenType columns)

/-- What an upsert of edges has read. -/
def collectedEdges (edge_key_col type_col : String) (db : Database) : Collected :=
  (scannedEdges edge_key_col db).foldl (fileEdge edge_key_col type_col) {}

theorem foldl_fileEdge (edge_key_col type_col : String) (rows : List (String × Row))
    (state : Collected) :
    rows.foldl (fileEdge edge_key_col type_col) state =
      { existing := (rows.map Prod.snd).foldl
          (fun base row => base.set (keyOf edge_key_col row) row) state.existing
        touched := state.touched ++
          rows.map fun row => typeName "edge type" (edgeType type_col row) } := by
  induction rows generalizing state with
  | nil => simp
  | cons row rows inductionHypothesis =>
    rw [List.foldl_cons, inductionHypothesis]
    simp [fileEdge]

/-- A plan that is made consists of the groups of the merged rows. -/
theorem planEdges_ok {table : Table} {edge_key_col : String} {columns : EdgeColumns}
    {update_existing : Bool} {db : Database} {id_map : IdMap} {grouped : Groups}
    {counts : UpsertCounts}
    (planned : planEdges table edge_key_col columns update_existing
      (collectedEdges edge_key_col columns.type_col db) id_map = .ok (grouped, counts)) :
    (∀ raw ∈ table.rows, GivenEdge id_map edge_key_col columns raw) ∧
      GroupsOf "edge type" (fun row => some (row.read columns.type_col))
        (touchedEdges edge_key_col columns table.rows db)
        (mergedEdges edge_key_col columns update_existing id_map table.rows db).final.values
        grouped ∧
      (∀ row ∈ (mergedEdges edge_key_col columns update_existing id_map table.rows
          db).final.values,
        Typed "edge type" (fun row => some (row.read columns.type_col)) row) ∧
      counts.inserted =
        (mergedEdges edge_key_col columns update_existing id_map table.rows db).inserted := by
  obtain ⟨merging, merges, planned⟩ := except_bind_ok planned
  obtain ⟨made, groups, planned⟩ := except_bind_ok planned
  obtain ⟨rfl, rfl⟩ := Prod.mk.inj (Except.ok.inj planned)
  rw [collectedEdges, foldl_fileEdge] at merges
  have each : ∀ merging raw after,
      mergeEdgeRow edge_key_col columns update_existing id_map merging raw = .ok after →
      after = mergeStep (edgeRules id_map edge_key_col columns) (givenType columns)
        update_existing merging raw ∧ GivenEdge id_map edge_key_col columns raw :=
    fun _ _ _ one => mergeEdgeRow_ok one
  obtain ⟨rfl, given⟩ := foldlM_ok each _ _ _ merges
  obtain ⟨state, touched⟩ := foldl_mergeStep (edgeRules id_map edge_key_col columns)
    (givenType columns) update_existing table.rows
    { existing := edgeBase edge_key_col db
      final := edgeBase edge_key_col db
      touched := [] ++ (scannedEdges edge_key_col db).map fun row =>
        typeName "edge type" (edgeType columns.type_col row)
      next_gid := 0
      counts := {} }
  have final := congrArg KeyedMerge.State.final state
  have inserted := congrArg KeyedMerge.State.inserted state
  change _ = (mergedEdges edge_key_col columns update_existing id_map table.rows db).final at final
  obtain ⟨ofRows, typed⟩ := rowsByType_ok groups
  refine ⟨given, ?_, ?_, inserted⟩
  · rw [List.nil_append] at touched
    rw [← final, touchedEdges, ← touched]
    exact ofRows
  · rw [← final]
    exact typed

theorem edgeBase_mem {edge_key_col : String} {db : Database} {key : Value} {row : Row}
    (stored : (edgeBase edge_key_col db).get? key = some row) :
    ∃ relation, (relation, row) ∈ scannedEdges edge_key_col db ∧ keyOf edge_key_col row = key := by
  rcases base_mem stored with ⟨found, same⟩ | absurdity
  · obtain ⟨⟨relation, _⟩, among, rfl⟩ := List.mem_map.mp found
    exact ⟨relation, among, same⟩
  · cases absurdity

theorem read_resolved {id_map : IdMap} {columns : EdgeColumns} {raw : Row}
    (resolves : resolvedRow id_map columns raw = .ok (resolved id_map columns raw)) :
    (resolved id_map columns raw).get? columns.type_col = some (raw.read columns.type_col) := by
  obtain ⟨src, _, resolves⟩ := except_bind_ok resolves
  obtain ⟨dst, _, resolves⟩ := except_bind_ok resolves
  rw [← Except.ok.inj resolves]
  exact Dict.get_set_self _ _ _

/-- The groups are those of types that were read or given. -/
theorem mem_edgeGroups {table : Table} {edge_key_col : String} {columns : EdgeColumns}
    {update_existing : Bool} {db : Database} {id_map : IdMap} {grouped : Groups}
    {counts : UpsertCounts}
    (readable : ∀ row ∈ scannedEdges edge_key_col db,
      ReadableEdge edge_key_col columns.type_col row)
    (planned : planEdges table edge_key_col columns update_existing
      (collectedEdges edge_key_col columns.type_col db) id_map = .ok (grouped, counts))
    {name : String} (member : name ∈ grouped.keys) :
    (∃ row ∈ scannedEdges edge_key_col db,
      coerceLocalName (edgeType columns.type_col row) "edge type" = .ok name) ∨
      ∃ raw ∈ table.rows, coerceLocalName (raw.read columns.type_col) "edge type" = .ok name := by
  obtain ⟨given, groups, typed, _⟩ := planEdges_ok planned
  have ofGiven : ∀ raw ∈ table.rows, givenType columns raw = name →
      coerceLocalName (raw.read columns.type_col) "edge type" = .ok name :=
    fun raw among same => same ▸ (given raw among).filed.type
  have ofRead : ∀ row ∈ scannedEdges edge_key_col db,
      typeName "edge type" (edgeType columns.type_col row) = name →
      coerceLocalName (edgeType columns.type_col row) "edge type" = .ok name := by
    intro row among same
    obtain ⟨type, coerced⟩ := (readable row among).typed
    rw [typeName_eq coerced] at same
    exact same ▸ coerced
  rcases (mem_keys_groups groups name).mp member with touched | ⟨now, left, own⟩
  · rcases List.mem_append.mp touched with read | new
    · obtain ⟨row, among, same⟩ := List.mem_map.mp read
      exact Or.inl ⟨row, among, ofRead row among same⟩
    · obtain ⟨raw, among, same⟩ := List.mem_map.mp new
      exact Or.inr ⟨raw, among, ofGiven raw among same⟩
  · obtain ⟨key, stored⟩ := (Dict.mem_values _ _).mp left
    obtain ⟨number, merged, _⟩ := KeyedMerge.run_merged (edgeRules id_map edge_key_col columns)
      update_existing (edgeBase edge_key_col db) 0 table.rows
    obtain ⟨coercedName, coerced⟩ := typed now left _ rfl
    -- the type of a merged row is the one of the row that was given last
    have byItem : ∀ item ∈ table.rows, ∀ old : Row,
        now = old.update (resolved id_map columns item) ∨ now = resolved id_map columns item →
        ∃ raw ∈ table.rows,
          coerceLocalName (raw.read columns.type_col) "edge type" = .ok name := by
      intro item among old made
      have type := read_resolved (given item among).resolves
      have read : now.read columns.type_col = item.read columns.type_col := by
        rcases made with rfl | rfl
        · apply Row.read_of_get
          rw [Dict.get_update, type]
          rfl
        · exact Row.read_of_get type
      refine ⟨item, among, ofGiven item among ?_⟩
      rw [givenType, ← read]
      simpa [ofType] using own
    have byRead : ∀ relation, (relation, now) ∈ scannedEdges edge_key_col db →
        ∃ row ∈ scannedEdges edge_key_col db,
          coerceLocalName (edgeType columns.type_col row) "edge type" = .ok name := by
      intro relation among
      have present := (coerceLocalName_ok coerced).1
      have type : edgeType columns.type_col (relation, now) = now.read columns.type_col := by
        rw [edgeType]
        dsimp only
        cases found : now.get? columns.type_col with
        | none =>
          rw [Row.read, found] at present
          exact absurd rfl present
        | some value => exact (Row.read_of_get found).symm
      refine ⟨(relation, now), among, ofRead _ among ?_⟩
      rw [type]
      simpa [ofType] using own
    rcases merged.final_cases stored with ⟨row, before, kept⟩ | ⟨_, item, found, kept⟩
    · obtain ⟨relation, among, _⟩ := edgeBase_mem before
      rcases kept with ⟨rfl, _⟩ | ⟨_, item, next, found, same⟩
      · exact Or.inl (byRead relation among)
      · exact Or.inr (byItem item (KeyedMerge.last_some _ _ found).1 row (Or.inl same))
    · have among := (KeyedMerge.first_some _ _ found).1
      rcases kept with ⟨same, _⟩ | ⟨_, later, next, foundLater, same⟩
      · exact Or.inr (byItem item among item (Or.inr same))
      · exact Or.inr (byItem later (KeyedMerge.last_some _ _ foundLater).1 _ (Or.inl same))

end CaracalDB.Database
