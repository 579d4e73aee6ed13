import CaracalDB.Upsert

/-!
# What an upsert reads and plans

The loops of an upsert, freed of their errors: the rows that are read are filed
under their keys, the input is merged into them, and the result is sorted by type.
A plan that is made is the one these plain loops give.
-/

namespace CaracalDB.Database

/-- The key of a row in a column, as a dictionary files it. -/
def keyOf (key_col : String) (row : Row) : Value :=
  match (row.read key_col).hashed with
  | .ok key => key
  | .error _ => .null

/-- The local name that a type coerces to. -/
def typeName (label : String) (type : Value) : String :=
  match coerceLocalName type label with
  | .ok name => name
  | .error _ => ""

theorem keyOf_eq {key_col : String} {row : Row} {key : Value}
    (files : (row.read key_col).hashed = .ok key) : keyOf key_col row = key := by
  rw [keyOf, files]

theorem typeName_eq {label name : String} {type : Value}
    (coerced : coerceLocalName type label = .ok name) : typeName label type = name := by
  rw [typeName, coerced]

/-- A row that a key column and a type column can be read of. -/
structure Filed (label key_col type_col : String) (row : Row) : Prop where
  keyed : ∃ key, (row.read key_col).hashed = .ok key
  typed : ∃ name, coerceLocalName (row.read type_col) label = .ok name

theorem Filed.type {label key_col type_col : String} {row : Row}
    (filed : Filed label key_col type_col row) :
    coerceLocalName (row.read type_col) label = .ok (typeName label (row.read type_col)) := by
  obtain ⟨name, coerced⟩ := filed.typed
  rw [typeName_eq coerced, coerced]

/-! ## Reading -/

/-- The rows with a key that a store gives, without the columns that belong to the store. -/
def keyedRows {id_column : String} (required : List String) (key_col : String)
    (store : Store id_column) : List Row :=
  if required.all (· ∈ store.column_names) then
    ((store.rows.map (Store.publicRow id_column)).filter fun row => row.read key_col ≠ .null).map
      (stripRow id_column)
  else []

/-- The node store that a directory's name leads to. -/
def nodeStoreNamed (db : Database) (name : String) : Option NodeStore :=
  match db.catalog.find_class name with
  | .error _ => none
  | .ok cls =>
      match db.openNodes cls.iri cls.localName with
      | .error _ => none
      | .ok store => some store

/-- The node rows that an upsert reads. -/
def scannedNodes (key_col type_col : String) (db : Database) : List Row :=
  db.list_node_stores.flatMap fun name =>
    ((db.nodeStoreNamed name).map (keyedRows [key_col, type_col] key_col)).getD []

/-- A row filed under its key. -/
def fileRow (label key_col type_col : String) (collected : Collected) (row : Row) : Collected :=
  { existing := collected.existing.set (keyOf key_col row) row
    touched := collected.touched ++ [typeName label (row.read type_col)] }

/-- The id of a row, if it has one. -/
def gidIn (runtime : Runtime) (row : Row) : Option Int :=
  match row.get? INTERNAL_GID_COLUMN with
  | none => none
  | some gid => (runtime.toInt gid).toOption

/-- The highest id so far. -/
def raiseTo (runtime : Runtime) (max_gid : Int) (row : Row) : Int :=
  match gidIn runtime row with
  | none => max_gid
  | some gid => max max_gid gid

theorem read_of_item {row : Row} {name : String} {value : Value}
    (found : item row name = .ok value) : row.get? name = some value ∧ row.read name = value := by
  unfold item at found
  unfold Row.read
  cases stored : row.get? name with
  | none =>
    rw [stored] at found
    cases found
  | some other =>
    rw [stored] at found
    cases found
    exact ⟨rfl, rfl⟩

/-- What reading a row of a node store requires of the row. -/
structure ReadableNode (runtime : Runtime) (key_col type_col : String) (row : Row) : Prop where
  filed : Filed "node type" key_col type_col row
  hasKey : ∃ key, row.get? key_col = some key
  hasType : ∃ type, row.get? type_col = some type
  numbered : ∀ gid, row.get? INTERNAL_GID_COLUMN = some gid → ∃ number, runtime.toInt gid = .ok number

theorem highest_ok {runtime : Runtime} {max_gid after : Int} {row : Row}
    (read : highest runtime max_gid row = .ok after) :
    after = raiseTo runtime max_gid row ∧
      ∀ gid, row.get? INTERNAL_GID_COLUMN = some gid → ∃ number, runtime.toInt gid = .ok number := by
  unfold highest at read
  unfold raiseTo gidIn
  cases stored : row.get? INTERNAL_GID_COLUMN with
  | none =>
    rw [stored] at read
    cases read
    exact ⟨rfl, fun gid absurdity => by cases absurdity⟩
  | some gid =>
    rw [stored] at read
    cases number : runtime.toInt gid with
    | error raised =>
      dsimp only at read
      rw [number] at read
      cases read
    | ok value =>
      dsimp only at read
      rw [number] at read
      cases read
      refine ⟨by simp [number, Except.toOption], ?_⟩
      intro other same
      cases same
      exact ⟨value, number⟩

/-- One step of reading a node store, freed of its errors. -/
def fileNode (runtime : Runtime) (key_col type_col : String) (state : Collected × Int)
    (row : Row) : Collected × Int :=
  (fileRow "node type" key_col type_col state.1 row, raiseTo runtime state.2 row)

theorem fileNodeRow_ok {runtime : Runtime} {key_col type_col : String}
    {state after : Collected × Int} {row : Row}
    (done : fileNodeRow runtime key_col type_col state row = .ok after) :
    after = fileNode runtime key_col type_col state row ∧
      ReadableNode runtime key_col type_col row := by
  obtain ⟨max_gid, high, done⟩ := except_bind_ok done
  obtain ⟨value, foundKey, done⟩ := except_bind_ok done
  obtain ⟨key, files, done⟩ := except_bind_ok done
  obtain ⟨type, foundType, done⟩ := except_bind_ok done
  obtain ⟨name, coerced, done⟩ := except_bind_ok done
  cases done
  obtain ⟨rfl, numbered⟩ := highest_ok high
  obtain ⟨hasKey, rfl⟩ := read_of_item foundKey
  obtain ⟨hasType, rfl⟩ := read_of_item foundType
  refine ⟨?_, ⟨⟨key, files⟩, ⟨name, coerced⟩⟩, ⟨_, hasKey⟩, ⟨_, hasType⟩, numbered⟩
  rw [fileNode, fileRow, keyOf_eq files, typeName_eq coerced]

/-- Every store can be opened under the class its directory's name leads to. -/
def NodesOpen (db : Database) : Prop :=
  ∀ name ∈ db.list_node_stores, ∃ store, db.nodeStoreNamed name = some store

/-- A loop over stored rows that skips those without a key. -/
theorem foldlM_keyed {id_column : String} {State : Type} (key_col : String)
    (step : State → Row → Except Raised State) (rows : List StoredRow) (state : State) :
    rows.foldlM (fun state row =>
        let row := Store.publicRow id_column row
        if row.read key_col = .null then .ok state else step state (stripRow id_column row)) state =
      (((rows.map (Store.publicRow id_column)).filter fun row => row.read key_col ≠ .null).map
        (stripRow id_column)).foldlM step state := by
  have skip := foldlM_skip
    (fun row : StoredRow => (Store.publicRow id_column row).read key_col = .null)
    (fun row => stripRow id_column (Store.publicRow id_column row)) step rows state
  rw [List.filter_map, List.map_map]
  refine Eq.trans ?_ (skip.trans ?_)
  · congr 1
    funext state row
    by_cases null : (Store.publicRow id_column row).read key_col = .null
    · simp [null]
    · simp [null]
  · congr 2
    apply List.filter_congr
    intro row _
    simp

/-- Reading one node store files its rows with a key. -/
theorem collectNodes_eq (runtime : Runtime) (key_col type_col : String) (db : Database)
    (state : Collected × Int) (name : String) {store : NodeStore}
    (opened : db.nodeStoreNamed name = some store) :
    collectNodes runtime key_col type_col db state name =
      (keyedRows [key_col, type_col] key_col store).foldlM
        (fileNodeRow runtime key_col type_col) state := by
  unfold nodeStoreNamed at opened
  unfold collectNodes
  cases found : db.catalog.find_class name with
  | error raised =>
    rw [found] at opened
    cases opened
  | ok cls =>
    rw [found] at opened
    cases result : db.openNodes cls.iri cls.localName with
    | error raised =>
      dsimp only at opened
      rw [result] at opened
      cases opened
    | ok other =>
      dsimp only at opened
      rw [result] at opened
      cases opened
      show (do
        let store ← db.openNodes cls.iri cls.localName
        _ : Except Raised (Collected × Int)) = _
      rw [result]
      show (if key_col ∈ store.column_names ∧ type_col ∈ store.column_names then
        store.rows.foldlM (collectNode runtime key_col type_col) state else .ok state) = _
      by_cases columns : key_col ∈ store.column_names ∧ type_col ∈ store.column_names
      · rw [if_pos columns, keyedRows, if_pos (by simpa using columns)]
        exact foldlM_keyed key_col (fileNodeRow runtime key_col type_col) store.rows state
      · rw [if_neg columns, keyedRows, if_neg (by simpa using columns)]
        rfl

theorem collectNodes_opened {runtime : Runtime} {key_col type_col : String} {db : Database}
    {state after : Collected × Int} {name : String}
    (done : collectNodes runtime key_col type_col db state name = .ok after) :
    ∃ store, db.nodeStoreNamed name = some store := by
  obtain ⟨cls, found, done⟩ := except_bind_ok done
  obtain ⟨store, opened, _⟩ := except_bind_ok done
  exact ⟨store, by rw [nodeStoreNamed, found]; dsimp only; rw [opened]⟩

/-- Reading all node stores files all rows with a key. -/
theorem collectAll_eq (runtime : Runtime) (key_col type_col : String) {db : Database}
    (opens : db.NodesOpen) (state : Collected × Int) :
    db.list_node_stores.foldlM (collectNodes runtime key_col type_col db) state =
      (scannedNodes key_col type_col db).foldlM (fileNodeRow runtime key_col type_col) state := by
  apply foldlM_flatMap
  intro state name member
  obtain ⟨store, opened⟩ := opens name member
  rw [collectNodes_eq runtime key_col type_col db state name opened, opened]
  rfl

/-- What has been read when nothing is raised. -/
theorem collectAll_ok {runtime : Runtime} {key_col type_col : String} {db : Database}
    {state after : Collected × Int}
    (done : db.list_node_stores.foldlM (collectNodes runtime key_col type_col db) state =
      .ok after) :
    db.NodesOpen ∧
      after = (scannedNodes key_col type_col db).foldl (fileNode runtime key_col type_col) state ∧
      ∀ row ∈ scannedNodes key_col type_col db, ReadableNode runtime key_col type_col row := by
  have opens : db.NodesOpen := by
    intro name member
    obtain ⟨_, _, one⟩ := foldlM_steps _ _ _ done name member
    exact collectNodes_opened one
  rw [collectAll_eq runtime key_col type_col opens] at done
  have each : ∀ state row after, fileNodeRow runtime key_col type_col state row = .ok after →
      after = fileNode runtime key_col type_col state row ∧
        ReadableNode runtime key_col type_col row := fun _ _ _ one => fileNodeRow_ok one
  obtain ⟨same, readable⟩ := foldlM_ok each _ _ _ done
  exact ⟨opens, same, readable⟩

/-! ## Reading edges -/

/-- The edge store that a directory's name leads to. -/
def edgeStoreNamed (db : Database) (name : String) : Option EdgeStore :=
  match db.catalog.properties.by_name name with
  | none => none
  | some prop =>
      match db.openEdges prop.iri prop.localName with
      | .error _ => none
      | .ok store => some store

/-- The edges that an upsert reads, each with the directory it lies in. -/
def scannedEdges (edge_key_col : String) (db : Database) : List (String × Row) :=
  db.list_edge_stores.flatMap fun name =>
    (((db.edgeStoreNamed name).map (keyedRows [edge_key_col] edge_key_col)).getD []).map
      fun row => (name, row)

/-- The type of a stored edge; a store without the type column gives its own name. -/
def edgeType (type_col : String) (row : String × Row) : Value :=
  (row.2.get? type_col).getD (.str row.1)

/-- A property that has a directory can be opened. -/
def EdgesOpen (db : Database) : Prop :=
  ∀ name ∈ db.list_edge_stores, db.catalog.properties.by_name name = none ∨
    ∃ store, db.edgeStoreNamed name = some store

/-- What reading an edge requires of it. -/
structure ReadableEdge (edge_key_col type_col : String) (row : String × Row) : Prop where
  hasKey : ∃ key, row.2.get? edge_key_col = some key
  keyed : ∃ key, (row.2.read edge_key_col).hashed = .ok key
  typed : ∃ name, coerceLocalName (edgeType type_col row) "edge type" = .ok name

/-- One step of reading edges, freed of its errors. -/
def fileEdge (edge_key_col type_col : String) (collected : Collected) (row : String × Row) :
    Collected :=
  { existing := collected.existing.set (keyOf edge_key_col row.2) row.2
    touched := collected.touched ++ [typeName "edge type" (edgeType type_col row)] }

theorem fileEdgeRow_ok {edge_key_col type_col : String} {state after : Collected}
    {row : String × Row}
    (done : fileEdgeRow edge_key_col type_col row.1 state row.2 = .ok after) :
    after = fileEdge edge_key_col type_col state row ∧ ReadableEdge edge_key_col type_col row := by
  obtain ⟨value, foundKey, done⟩ := except_bind_ok done
  obtain ⟨key, files, done⟩ := except_bind_ok done
  obtain ⟨name, coerced, done⟩ := except_bind_ok done
  cases done
  obtain ⟨hasKey, rfl⟩ := read_of_item foundKey
  refine ⟨?_, ⟨_, hasKey⟩, ⟨key, files⟩, ⟨name, coerced⟩⟩
  rw [fileEdge, keyOf_eq files, edgeType, typeName_eq coerced]

theorem collectEdges_eq (edge_key_col type_col : String) (db : Database) (state : Collected)
    (name : String) {store : EdgeStore} (opened : db.edgeStoreNamed name = some store) :
    collectEdges edge_key_col type_col db state name =
      (keyedRows [edge_key_col] edge_key_col store).foldlM
        (fileEdgeRow edge_key_col type_col name) state := by
  rw [edgeStoreNamed] at opened
  rw [collectEdges]
  cases found : db.catalog.properties.by_name name with
  | none =>
    rw [found] at opened
    cases opened
  | some prop =>
    rw [found] at opened
    dsimp only at opened ⊢
    cases result : db.openEdges prop.iri prop.localName with
    | error raised =>
      rw [result] at opened
      cases opened
    | ok other =>
      rw [result] at opened
      cases opened
      show (if edge_key_col ∈ store.column_names then
        store.rows.foldlM (collectEdge edge_key_col type_col name) state else .ok state) = _
      by_cases column : edge_key_col ∈ store.column_names
      · rw [if_pos column, keyedRows, if_pos (by simpa using column)]
        exact foldlM_keyed edge_key_col (fileEdgeRow edge_key_col type_col name) store.rows state
      · rw [if_neg column, keyedRows, if_neg (by simpa using column)]
        rfl

theorem collectEdges_opened {edge_key_col type_col : String} {db : Database}
    {state after : Collected} {name : String}
    (done : collectEdges edge_key_col type_col db state name = .ok after) :
    db.catalog.properties.by_name name = none ∨ ∃ store, db.edgeStoreNamed name = some store := by
  rw [collectEdges] at done
  cases found : db.catalog.properties.by_name name with
  | none => exact Or.inl rfl
  | some prop =>
    rw [found] at done
    obtain ⟨store, opened, _⟩ := except_bind_ok done
    exact Or.inr ⟨store, by rw [edgeStoreNamed, found]; dsimp only; rw [opened]⟩

/-- Reading all edge stores files all edges with a key. -/
theorem collectAllEdges_eq (edge_key_col type_col : String) {db : Database}
    (opens : db.EdgesOpen) (state : Collected) :
    db.list_edge_stores.foldlM (collectEdges edge_key_col type_col db) state =
      (scannedEdges edge_key_col db).foldlM
        (fun state row => fileEdgeRow edge_key_col type_col row.1 state row.2) state := by
  apply foldlM_flatMap
  intro state name member
  rw [List.foldlM_map]
  rcases opens name member with unnamed | ⟨store, opened⟩
  · rw [collectEdges, edgeStoreNamed, unnamed]
    rfl
  · rw [collectEdges_eq edge_key_col type_col db state name opened, opened]
    rfl

/-- What has been read of edges when nothing is raised. -/
theorem collectAllEdges_ok {edge_key_col type_col : String} {db : Database}
    {state after : Collected}
    (done : db.list_edge_stores.foldlM (collectEdges edge_key_col type_col db) state = .ok after) :
    db.EdgesOpen ∧
      after = (scannedEdges edge_key_col db).foldl (fileEdge edge_key_col type_col) state ∧
      ∀ row ∈ scannedEdges edge_key_col db, ReadableEdge edge_key_col type_col row := by
  have opens : db.EdgesOpen := by
    intro name member
    obtain ⟨_, _, one⟩ := foldlM_steps _ _ _ done name member
    exact collectEdges_opened one
  rw [collectAllEdges_eq edge_key_col type_col opens] at done
  have each : ∀ (state : Collected) (row : String × Row) after,
      fileEdgeRow edge_key_col type_col row.1 state row.2 = .ok after →
      after = fileEdge edge_key_col type_col state row ∧
        ReadableEdge edge_key_col type_col row := fun _ _ _ one => fileEdgeRow_ok one
  obtain ⟨same, readable⟩ := foldlM_ok each _ _ _ done
  exact ⟨opens, same, readable⟩

end CaracalDB.Database
