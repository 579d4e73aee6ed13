import CaracalDB.KeyedMerge
import CaracalDB.UpsertPlan

/-!
# What an upsert plans

The rows that are read become a dictionary, the input is merged into it, and the
rows of the result are put into groups by the local name of their type. There is a
group for every type that was read or given, also if no row is left in it.
-/

namespace CaracalDB.Database

/-! ## Groups -/

/-- Whether the type of a row coerces to a name. -/
def ofType (label : String) (typeOf : Row → Option Value) (name : String) (row : Row) : Bool :=
  match typeOf row with
  | none => false
  | some type => typeName label type = name

/-- A row whose type, if it has one, coerces to a name. -/
def Typed (label : String) (typeOf : Row → Option Value) (row : Row) : Prop :=
  ∀ type, typeOf row = some type → ∃ name, coerceLocalName type label = .ok name

/-- One row put into its group, freed of its errors. -/
def groupRow (label : String) (typeOf : Row → Option Value) (grouped : Groups) (row : Row) :
    Groups :=
  match typeOf row with
  | none => grouped
  | some type => grouped.add (typeName label type) row

/-- What the groups are: a group for each touched name and each type, with the rows of the type. -/
def GroupsOf (label : String) (typeOf : Row → Option Value) (touched : List String)
    (rows : List Row) (grouped : Groups) : Prop :=
  ∀ name, grouped.get? name =
    if name ∈ touched ∨ ∃ row ∈ rows, ofType label typeOf name row = true then
      some (rows.filter (ofType label typeOf name))
    else none

theorem get_foldl_nil (touched : List String) (grouped : Groups) (name : String) :
    (touched.foldl (fun grouped name => grouped.set name []) grouped).get? name =
      if name ∈ touched then some [] else grouped.get? name := by
  induction touched generalizing grouped with
  | nil => simp
  | cons head touched inductionHypothesis =>
    rw [List.foldl_cons, inductionHypothesis, Dict.get_set]
    by_cases later : name ∈ touched
    · simp [later]
    · by_cases here : name = head
      · simp [here]
      · simp [here, later]

theorem groupsOf_start (label : String) (typeOf : Row → Option Value) (touched : List String) :
    GroupsOf label typeOf touched []
      (touched.foldl (fun grouped name => grouped.set name []) Dict.empty) := by
  intro name
  rw [get_foldl_nil]
  simp

theorem groupsOf_step {label : String} {typeOf : Row → Option Value} {touched : List String}
    {done : List Row} {grouped : Groups} (groups : GroupsOf label typeOf touched done grouped)
    (row : Row) :
    GroupsOf label typeOf touched (done ++ [row]) (groupRow label typeOf grouped row) := by
  intro name
  have before := groups name
  rw [groupRow]
  cases type : typeOf row with
  | none =>
    have other : ofType label typeOf name row = false := by rw [ofType, type]
    dsimp only
    rw [before, List.filter_append]
    simp [other]
  | some value =>
    dsimp only
    rw [Groups.add, Dict.get_set]
    by_cases here : name = typeName label value
    · subst here
      have own : ofType label typeOf (typeName label value) row = true := by simp [ofType, type]
      have rows : (grouped.get? (typeName label value)).getD [] =
          done.filter (ofType label typeOf (typeName label value)) := by
        rw [before]
        split
        · rfl
        · next none =>
          push Not at none
          exact (List.filter_eq_nil_iff.mpr fun row member => none.2 row member).symm
      rw [if_pos rfl, rows, List.filter_append]
      simp [own]
    · have other : ofType label typeOf name row = false := by
        simp [ofType, type, Ne.symm here]
      rw [if_neg here, before, List.filter_append]
      simp [other]

/-- The groups that are made are those of the rows. -/
theorem rowsByType_ok {label : String} {typeOf : Row → Option Value} {touched : List String}
    {final : Dict Value Row} {grouped : Groups}
    (made : rowsByType label typeOf touched final = .ok grouped) :
    GroupsOf label typeOf touched final.values grouped ∧
      ∀ row ∈ final.values, Typed label typeOf row := by
  have each : ∀ grouped row after, (match typeOf row with
      | none => Except.ok grouped
      | some type => do
          let name ← coerceLocalName type label
          return Groups.add grouped name row) = .ok after →
      after = groupRow label typeOf grouped row ∧ Typed label typeOf row := by
    intro grouped row after done
    rw [groupRow, Typed]
    cases type : typeOf row with
    | none =>
      rw [type] at done
      exact ⟨(Except.ok.inj done).symm, fun value absurdity => by cases absurdity⟩
    | some value =>
      rw [type] at done
      obtain ⟨name, coerced, done⟩ := except_bind_ok done
      refine ⟨?_, ?_⟩
      · dsimp only
        rw [typeName_eq coerced]
        exact (Except.ok.inj done).symm
      · intro other same
        exact ⟨name, Option.some.inj same ▸ coerced⟩
  rw [rowsByType] at made
  obtain ⟨rfl, typed⟩ := foldlM_ok each _ _ _ made
  refine ⟨?_, typed⟩
  exact foldl_invariant (groupRow label typeOf) (GroupsOf label typeOf touched)
    (fun done row grouped groups => groupsOf_step groups row) _ _
    (groupsOf_start label typeOf touched)

theorem mem_keys_groups {label : String} {typeOf : Row → Option Value} {touched : List String}
    {rows : List Row} {grouped : Groups} (groups : GroupsOf label typeOf touched rows grouped)
    (name : String) : name ∈ grouped.keys ↔
      name ∈ touched ∨ ∃ row ∈ rows, ofType label typeOf name row = true := by
  have stored := groups name
  constructor
  · intro member
    by_contra none
    rw [if_neg none, Dict.get_eq_none] at stored
    exact stored member
  · intro occurs
    rw [if_pos occurs] at stored
    exact (Dict.mem_keys grouped name).mpr ⟨_, stored⟩

/-! ## Nodes -/

/-- How the rows of a node table are merged. -/
def nodeRules (key_col : String) : KeyedMerge.Rules Value Row Row where
  key := keyOf key_col
  make raw next_gid := raw.set INTERNAL_GID_COLUMN (.int next_gid)
  combine := mergeNode
  advance
    | none, next_gid => next_gid + 1
    | some old, next_gid =>
        if (old.get? INTERNAL_GID_COLUMN).isSome then next_gid else next_gid + 1

/-- The state of the merge in the state of the loop. -/
def Merging.state (merging : Merging) : KeyedMerge.State Value Row where
  existing := merging.existing
  final := merging.final
  next := merging.next_gid
  inserted := merging.counts.inserted
  updated := merging.counts.updated
  skipped := merging.counts.skipped

/-- One step over the input, freed of its errors. -/
def mergeStep {Item : Type} (rules : KeyedMerge.Rules Value Row Item) (type : Item → String)
    (update_existing : Bool) (merging : Merging) (item : Item) : Merging :=
  let state := KeyedMerge.step rules update_existing merging.state item
  { existing := state.existing
    final := state.final
    touched := merging.touched ++ [type item]
    next_gid := state.next
    counts :=
      { inserted := state.inserted, updated := state.updated, skipped := state.skipped } }

/-- What the loop over the input reaches is what the merge reaches. -/
theorem foldl_mergeStep {Item : Type} (rules : KeyedMerge.Rules Value Row Item)
    (type : Item → String) (update_existing : Bool) (items : List Item) (merging : Merging) :
    (items.foldl (mergeStep rules type update_existing) merging).state =
        items.foldl (KeyedMerge.step rules update_existing) merging.state ∧
      (items.foldl (mergeStep rules type update_existing) merging).touched =
        merging.touched ++ items.map type := by
  induction items generalizing merging with
  | nil => simp
  | cons item items inductionHypothesis =>
    obtain ⟨state, touched⟩ := inductionHypothesis (mergeStep rules type update_existing merging item)
    rw [List.foldl_cons, List.foldl_cons, List.map_cons]
    refine ⟨state, ?_⟩
    rw [touched]
    simp [mergeStep]

/-- What merging one row of a node table requires of it. -/
structure GivenNode (key_col type_col : String) (raw : Row) : Prop where
  filed : Filed "node type" key_col type_col raw
  columns : ∀ name ∈ [key_col, type_col], name ∈ raw.keys

theorem requireColumns_ok {row : Row} {columns : List String} {label : String} {answer : Unit}
    (accepted : requireColumns row columns label = .ok answer) :
    ∀ name ∈ columns, name ∈ row.keys := by
  have nothing := refuse_ok accepted
  intro name member
  by_contra missing
  apply nothing
  exact List.ne_nil_of_mem (List.mem_filter.mpr ⟨member, by simpa using missing⟩)

theorem mergeNodeRow_ok {key_col type_col : String} {update_existing : Bool}
    {merging after : Merging} {raw : Row}
    (done : mergeNodeRow key_col type_col update_existing merging raw = .ok after) :
    after = mergeStep (nodeRules key_col) (fun raw => typeName "node type" (raw.read type_col))
        update_existing merging raw ∧ GivenNode key_col type_col raw := by
  obtain ⟨_, columns, done⟩ := except_bind_ok done
  obtain ⟨name, coerced, done⟩ := except_bind_ok done
  obtain ⟨key, files, done⟩ := except_bind_ok done
  refine ⟨?_, ⟨⟨key, files⟩, ⟨name, coerced⟩⟩, requireColumns_ok columns⟩
  have ofKey : (nodeRules key_col).key raw = key := keyOf_eq files
  simp only [mergeStep, KeyedMerge.step, Merging.state, ofKey, typeName_eq coerced]
  cases known : merging.existing.get? key with
  | none =>
    rw [known] at done
    exact (Except.ok.inj done).symm
  | some old =>
    rw [known] at done
    cases update_existing with
    | true => exact (Except.ok.inj done).symm
    | false => exact (Except.ok.inj done).symm

/-- The rows that are read, under their keys. -/
def nodeBase (key_col type_col : String) (db : Database) : Dict Value Row :=
  (scannedNodes key_col type_col db).foldl (fun base row => base.set (keyOf key_col row) row)
    Dict.empty

/-- The highest id among the rows that are read. -/
def highestGid (runtime : Runtime) (key_col type_col : String) (db : Database) : Int :=
  (scannedNodes key_col type_col db).foldl (raiseTo runtime) (-1)

theorem foldl_fileNode (runtime : Runtime) (key_col type_col : String) (rows : List Row)
    (state : Collected × Int) :
    rows.foldl (fileNode runtime key_col type_col) state =
      ({ existing := rows.foldl (fun base row => base.set (keyOf key_col row) row) state.1.existing
         touched := state.1.touched ++
           rows.map fun row => typeName "node type" (row.read type_col) },
        rows.foldl (raiseTo runtime) state.2) := by
  induction rows generalizing state with
  | nil => simp
  | cons row rows inductionHypothesis =>
    rw [List.foldl_cons, inductionHypothesis]
    simp [fileNode, fileRow]

/-- What an upsert of nodes merges. -/
def mergedNodes (runtime : Runtime) (key_col type_col : String) (update_existing : Bool)
    (table : Table) (db : Database) : KeyedMerge.State Value Row :=
  KeyedMerge.run (nodeRules key_col) update_existing (nodeBase key_col type_col db)
    (highestGid runtime key_col type_col db + 1) table.rows

/-- The names of the types that an upsert of nodes has read or was given. -/
def touchedNodes (key_col type_col : String) (table : Table) (db : Database) : List String :=
  (scannedNodes key_col type_col db ++ table.rows).map fun row =>
    typeName "node type" (row.read type_col)

/-- What an upsert of nodes requires before it writes anything. -/
structure PlansNodes (runtime : Runtime) (table : Table) (key_col type_col : String)
    (db : Database) : Prop where
  filled : table.rows ≠ []
  columns : ∀ name ∈ [key_col, type_col], name ∈ table.names
  unnumbered : INTERNAL_GID_COLUMN ∉ table.names
  opens : db.NodesOpen
  readable : ∀ row ∈ scannedNodes key_col type_col db, ReadableNode runtime key_col type_col row
  given : ∀ raw ∈ table.rows, GivenNode key_col type_col raw

/-- A plan that is made consists of the groups of the merged rows. -/
theorem planNodes_ok {runtime : Runtime} {table : Table} {key_col type_col : String}
    {update_existing : Bool} {db : Database} {grouped : Groups} {counts : UpsertCounts}
    (planned : planNodes runtime table key_col type_col update_existing db =
      .ok (grouped, counts)) :
    PlansNodes runtime table key_col type_col db ∧
      GroupsOf "node type" (Dict.get? · type_col) (touchedNodes key_col type_col table db)
        (mergedNodes runtime key_col type_col update_existing table db).final.values grouped ∧
      (∀ row ∈ (mergedNodes runtime key_col type_col update_existing table db).final.values,
        Typed "node type" (Dict.get? · type_col) row) ∧
      counts.inserted =
        (mergedNodes runtime key_col type_col update_existing table db).inserted := by
  obtain ⟨_, filled, planned⟩ := except_bind_ok planned
  obtain ⟨_, columns, planned⟩ := except_bind_ok planned
  obtain ⟨_, unnumbered, planned⟩ := except_bind_ok planned
  obtain ⟨⟨collected, max_gid⟩, collects, planned⟩ := except_bind_ok planned
  obtain ⟨merging, merges, planned⟩ := except_bind_ok planned
  obtain ⟨made, groups, planned⟩ := except_bind_ok planned
  obtain ⟨rfl, rfl⟩ := Prod.mk.inj (Except.ok.inj planned)
  obtain ⟨opens, same, readable⟩ := collectAll_ok collects
  rw [foldl_fileNode] at same
  obtain ⟨rfl, rfl⟩ := Prod.mk.inj same
  have each : ∀ merging raw after,
      mergeNodeRow key_col type_col update_existing merging raw = .ok after →
      after = mergeStep (nodeRules key_col) (fun raw => typeName "node type" (raw.read type_col))
        update_existing merging raw ∧ GivenNode key_col type_col raw :=
    fun _ _ _ one => mergeNodeRow_ok one
  obtain ⟨rfl, given⟩ := foldlM_ok each _ _ _ merges
  obtain ⟨state, touched⟩ := foldl_mergeStep (nodeRules key_col)
    (fun raw => typeName "node type" (raw.read type_col)) update_existing table.rows
    { existing := nodeBase key_col type_col db
      final := nodeBase key_col type_col db
      touched := [] ++ (scannedNodes key_col type_col db).map fun row =>
        typeName "node type" (row.read type_col)
      next_gid := highestGid runtime key_col type_col db + 1
      counts := {} }
  have final := congrArg KeyedMerge.State.final state
  have inserted := congrArg KeyedMerge.State.inserted state
  obtain ⟨ofRows, typed⟩ := rowsByType_ok groups
  change _ = (mergedNodes runtime key_col type_col update_existing table db).final at final
  refine ⟨⟨refuse_ok filled, ?_, refuse_ok unnumbered, opens, readable, given⟩, ?_, ?_, inserted⟩
  · have nothing := refuse_ok columns
    intro name member
    by_contra missing
    apply nothing
    exact List.ne_nil_of_mem (List.mem_filter.mpr ⟨member, by simpa using missing⟩)
  · rw [← final, touchedNodes, List.map_append]
    rw [List.nil_append] at touched
    rw [← touched]
    exact ofRows
  · rw [← final]
    exact typed

/-! ### Types of merged rows -/

theorem read_mergeNode (old new : Row) (next_gid : Int) {name : String}
    (other : name ≠ INTERNAL_GID_COLUMN) (present : name ∈ new.keys) :
    (mergeNode old new next_gid).get? name = some (new.read name) := by
  rw [mergeNode, Dict.get_set_of_ne _ other, Dict.get_update, Row.get_of_mem present]
  rfl

theorem base_mem {key_col : String} {rows : List Row} {base : Dict Value Row} {key : Value}
    {row : Row} (stored : (rows.foldl (fun base row => base.set (keyOf key_col row) row) base).get?
      key = some row) :
    (row ∈ rows ∧ keyOf key_col row = key) ∨ base.get? key = some row := by
  induction rows generalizing base with
  | nil => exact Or.inr stored
  | cons head rows inductionHypothesis =>
    rcases inductionHypothesis stored with ⟨later, same⟩ | before
    · exact Or.inl ⟨List.mem_cons_of_mem _ later, same⟩
    · rw [Dict.get_set] at before
      split at before
      · next here =>
        cases before
        exact Or.inl ⟨List.mem_cons_self, here.symm⟩
      · exact Or.inr before

/-- A row of the dictionary is one that was read, under its key. -/
theorem nodeBase_mem {key_col type_col : String} {db : Database} {key : Value} {row : Row}
    (stored : (nodeBase key_col type_col db).get? key = some row) :
    row ∈ scannedNodes key_col type_col db ∧ keyOf key_col row = key := by
  rcases base_mem stored with found | absurdity
  · exact found
  · cases absurdity

/-- The groups are those of types that were read or given. -/
theorem mem_nodeGroups {runtime : Runtime} {table : Table} {key_col type_col : String}
    {update_existing : Bool} {db : Database} {grouped : Groups} {counts : UpsertCounts}
    (planned : planNodes runtime table key_col type_col update_existing db =
      .ok (grouped, counts)) {name : String} (member : name ∈ grouped.keys) :
    ∃ row ∈ scannedNodes key_col type_col db ++ table.rows,
      coerceLocalName (row.read type_col) "node type" = .ok name := by
  obtain ⟨plans, groups, _, _⟩ := planNodes_ok planned
  have typed : ∀ row ∈ scannedNodes key_col type_col db ++ table.rows,
      coerceLocalName (row.read type_col) "node type" =
        .ok (typeName "node type" (row.read type_col)) := by
    intro row member
    rcases List.mem_append.mp member with read | given
    · exact (plans.readable row read).filed.type
    · exact (plans.given row given).filed.type
  have ofRow : ∀ row ∈ scannedNodes key_col type_col db ++ table.rows,
      typeName "node type" (row.read type_col) = name → ∃ row ∈
        scannedNodes key_col type_col db ++ table.rows,
        coerceLocalName (row.read type_col) "node type" = .ok name :=
    fun row among same => ⟨row, among, same ▸ typed row among⟩
  have isType : type_col ≠ INTERNAL_GID_COLUMN := fun same =>
    plans.unnumbered (same ▸ plans.columns type_col (by simp))
  rcases (mem_keys_groups groups name).mp member with touched | ⟨now, left, own⟩
  · obtain ⟨row, among, same⟩ := List.mem_map.mp touched
    exact ofRow row among same
  · obtain ⟨key, stored⟩ := (Dict.mem_values _ _).mp left
    obtain ⟨number, merged, _⟩ := KeyedMerge.run_merged (nodeRules key_col) update_existing
      (nodeBase key_col type_col db) (highestGid runtime key_col type_col db + 1) table.rows
    -- the type of a merged row is the one of the row that was given last
    have given : ∀ item ∈ table.rows, ∀ old next,
        now = mergeNode old item next ∨ now = item.set INTERNAL_GID_COLUMN (.int next) →
        ∃ row ∈ scannedNodes key_col type_col db ++ table.rows,
          coerceLocalName (row.read type_col) "node type" = .ok name := by
      intro item among old next made
      have present := (plans.given item among).columns type_col (by simp)
      have type : now.get? type_col = some (item.read type_col) := by
        rcases made with rfl | rfl
        · exact read_mergeNode _ _ _ isType present
        · rw [Dict.get_set_of_ne _ isType, Row.get_of_mem present]
      rw [ofType, type] at own
      exact ofRow item (List.mem_append_right _ among) (by simpa using own)
    have known : ∀ row ∈ scannedNodes key_col type_col db, now = row →
        ∃ row ∈ scannedNodes key_col type_col db ++ table.rows,
          coerceLocalName (row.read type_col) "node type" = .ok name := by
      rintro row among rfl
      obtain ⟨type, stored⟩ := (plans.readable now among).hasType
      rw [ofType, stored] at own
      refine ofRow now (List.mem_append_left _ among) ?_
      rw [Row.read_of_get stored]
      simpa using own
    rcases merged.final_cases stored with ⟨row, before, kept⟩ | ⟨_, item, found, kept⟩
    · obtain ⟨among, _⟩ := nodeBase_mem before
      rcases kept with ⟨same, _⟩ | ⟨_, item, next, found, same⟩
      · exact known row among same
      · exact given item (KeyedMerge.last_some _ _ found).1 row next (Or.inl same)
    · have among := (KeyedMerge.first_some _ _ found).1
      rcases kept with ⟨same, _⟩ | ⟨_, later, next, foundLater, same⟩
      · exact given item among item (number key) (Or.inr same)
      · exact given later (KeyedMerge.last_some _ _ foundLater).1 _ next (Or.inl same)

end CaracalDB.Database
