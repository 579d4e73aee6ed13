import Mathlib.Data.List.Forall2
import CaracalDB.Resources
import CaracalDB.UpsertEffect
import CaracalDB.WriteClock

/-!
# The rows that insertions store

Rows are handed to Arrow class by class; the first row of a class decides which
columns there are. What is stored is appended to the directory that the class or
relation leads to, and nothing else changes in any store.
-/

namespace CaracalDB.Database

/-! ## Columns -/

/-- The column that Arrow makes of the values of rows under a key, with its type. -/
def columnOf (runtime : Runtime) (rows : List Row) (key : String) : DataType × List Value :=
  match runtime.array (rows.map (Row.read · key)) with
  | .error _ => (.null, [])
  | .ok (type, back) => (type, (List.range rows.length).map fun index => back.getD index .null)

/-- What a row of a table made of rows has under a key. -/
def cellOf (runtime : Runtime) (rows : List Row) (key : String) (index : Nat) : Value :=
  if key ∈ (rows.headD Dict.empty).keys then (columnOf runtime rows key).2.getD index .null
  else .null

/-- What a row of an edge table has under a key: the endpoints are cast. -/
def edgeCellOf (runtime : Runtime) (rows : List Row) (key : String) (index : Nat) : Value :=
  if key = SRC_COLUMN ∨ key = DST_COLUMN then
    match runtime.castUInt64 (columnOf runtime rows key).1 (columnOf runtime rows key).2 with
    | .error _ => .null
    | .ok values => values.getD index .null
  else cellOf runtime rows key index

theorem typeOf_build {columns : List (Field × List Value)}
    (distinct : ((columns.map Prod.fst).map Field.name).Nodup) (rows : List (String → Value))
    {key : String} {type : DataType} {back : List Value}
    (found : (columns.find? fun column => column.1.name = key) = some ({ name := key, type }, back)) :
    (Table.build (columns.map Prod.fst) distinct rows).typeOf key = type := by
  have field : (columns.map Prod.fst).find? (fun field => field.name = key) =
      some { name := key, type } := by
    rw [List.find?_map]
    show ((columns.find? fun column => column.1.name = key).map Prod.fst) = _
    rw [found]
    rfl
  rw [Table.typeOf]
  show ((List.find? (fun field : Field => field.name = key) (columns.map Prod.fst)).map
    Field.type).getD .null = type
  rw [field]
  rfl

/-- The cells of a table made of rows. -/
theorem from_pylist_cells {runtime : Runtime} {rows : List Row} {table : Table}
    (made : runtime.from_pylist rows = .ok table) :
    table.rows.length = rows.length ∧
      (∀ index row, table.rows[index]? = some row → ∀ key,
        row.read key = cellOf runtime rows key index) ∧
      ∀ key ∈ (rows.headD Dict.empty).keys,
        table.typeOf key = (columnOf runtime rows key).1 ∧
          table.column key = (columnOf runtime rows key).2 := by
  refine ⟨Runtime.from_pylist_length made, ?_⟩
  cases rows with
  | nil =>
    rw [← Except.ok.inj made]
    refine ⟨fun index row found => ?_, fun key absurdity => absurd absurdity List.not_mem_nil⟩
    cases found
  | cons first rest =>
    rw [Runtime.from_pylist] at made
    split at made
    · cases made
    · next columns inferred =>
      have names : (columns.map Prod.fst).map Field.name = first.keys := by
        rw [List.map_map]
        exact runtime.columns_names _ _ _ inferred
      have column : ∀ key ∈ first.keys, ∃ type back,
          columnOf runtime (first :: rest) key = (type, (List.range (rest.length + 1)).map
            fun index => back.getD index .null) ∧
          (columns.find? fun column => column.1.name = key) =
            some ({ name := key, type }, back) := by
        intro key present
        obtain ⟨type, back, given, found⟩ := Runtime.columns_find inferred present
        exact ⟨type, back, by rw [columnOf, given]; rfl, found⟩
      rw [← Except.ok.inj made]
      constructor
      · intro index row found key
        obtain ⟨value, inRange, rfl⟩ := Option.map_eq_some_iff.mp (List.getElem?_map .. ▸ found)
        obtain ⟨position, inside, rfl⟩ := Option.map_eq_some_iff.mp (List.getElem?_map .. ▸ inRange)
        have below : index < rest.length + 1 := by
          have := (List.getElem?_eq_some_iff.mp inside).1
          rwa [List.length_range] at this
        rw [List.getElem?_range below, Option.some.injEq] at inside
        subst inside
        rw [Row.read_ofFunction, names, cellOf, List.headD_cons]
        by_cases present : key ∈ first.keys
        · obtain ⟨type, back, same, found⟩ := column key present
          rw [if_pos present, if_pos present, columnValue, found, same]
          simp [below]
        · rw [if_neg present, if_neg present]
      · intro key present
        obtain ⟨type, back, same, found⟩ := column key present
        refine ⟨?_, ?_⟩
        · rw [same]
          exact typeOf_build _ _ found
        · rw [same, Table.column]
          show ((((List.range (rest.length + 1)).map (columnValue columns)).map
            (Row.ofFunction ((columns.map Prod.fst).map Field.name) _)).map (Row.read · key)) = _
          rw [List.map_map, List.map_map]
          refine List.map_congr_left fun index _ => ?_
          have listed : key ∈ (columns.map Prod.fst).map Field.name := names ▸ present
          simp only [Function.comp_apply]
          rw [Row.read_ofFunction, if_pos listed, columnValue, found]

/-- Casting a column leaves the others. -/
theorem castColumn_ok {runtime : Runtime} {name : String} {table cast : Table}
    (casts : castColumn runtime name table = .ok cast) :
    ∃ values, runtime.castUInt64 (table.typeOf name) (table.column name) = .ok values ∧
      cast.rows.length = table.rows.length ∧ cast.names = table.names ∧
      (∀ index row, cast.rows[index]? = some row → ∃ old, table.rows[index]? = some old ∧
        (name ∈ table.names → row.read name = values.getD index .null) ∧
        ∀ key, key ≠ name → row.read key = old.read key) ∧
      ∀ key, key ≠ name → cast.typeOf key = table.typeOf key ∧ cast.column key = table.column key := by
  obtain ⟨values, converted, same⟩ := except_bind_ok casts
  have fields : cast.fields = table.fields.map fun field =>
      if field.name = name then { name, type := .uint64 } else field := by
    rw [← Except.ok.inj same]
    rfl
  have mapped : (table.fields.map fun field =>
      if field.name = name then ({ name, type := .uint64 } : Field) else field).map Field.name =
        table.names := by
    rw [List.map_map]
    refine List.map_congr_left fun field _ => ?_
    by_cases here : field.name = name
    · simp [here]
    · simp [here]
  have names : cast.names = table.names := by rw [Table.names, fields, mapped]
  have length : cast.rows.length = table.rows.length := by
    rw [← Except.ok.inj same]
    simp [Table.build]
  have reads : ∀ index row, cast.rows[index]? = some row → ∃ old, table.rows[index]? = some old ∧
      (name ∈ table.names → row.read name = values.getD index .null) ∧
      ∀ key, key ≠ name → row.read key = old.read key := by
    intro index row found
    rw [← Except.ok.inj same] at found
    obtain ⟨value, inRows, rfl⟩ := Option.map_eq_some_iff.mp (List.getElem?_map .. ▸ found)
    obtain ⟨⟨old, position⟩, indexed, rfl⟩ :=
      Option.map_eq_some_iff.mp (List.getElem?_map .. ▸ inRows)
    rw [List.getElem?_zipIdx] at indexed
    obtain ⟨old, there, same⟩ := Option.map_eq_some_iff.mp indexed
    cases same
    refine ⟨old, there, ?_, ?_⟩
    · intro named
      rw [Row.read_ofFunction, mapped, if_pos named]
      simp
    · intro key different
      rw [Row.read_ofFunction, mapped]
      by_cases named : key ∈ table.names
      · rw [if_pos named]
        simp [different]
      · rw [if_neg named, Row.read_of_absent]
        rw [table.aligned old (List.mem_of_getElem? there)]
        exact named
  refine ⟨values, converted, length, names, reads, ?_⟩
  intro key different
  constructor
  · rw [Table.typeOf, Table.typeOf, fields, List.find?_map]
    have agrees : ((fun field : Field => decide (field.name = key)) ∘ fun field : Field =>
        if field.name = name then ({ name, type := .uint64 } : Field) else field) =
          fun field => decide (field.name = key) := by
      funext field
      by_cases here : field.name = name
      · simp [here]
      · simp [here]
    rw [agrees, Option.map_map]
    cases found : table.fields.find? fun field => field.name = key with
    | none => rfl
    | some field =>
      have isKey : field.name = key := by simpa using List.find?_some found
      have kept : ¬ field.name = name := fun here => different (isKey.symm.trans here)
      simp [kept]
  · apply List.ext_getElem?
    intro index
    rw [Table.column, Table.column, List.getElem?_map, List.getElem?_map]
    cases found : cast.rows[index]? with
    | none =>
      rw [List.getElem?_eq_none (length ▸ List.getElem?_eq_none_iff.mp found)]
    | some row =>
      obtain ⟨old, there, _, others⟩ := reads index row found
      rw [there, Option.map_some, Option.map_some, others key different]

/-- The cells of an edge table made of rows that have both endpoints. -/
theorem edgeTable_cells {runtime : Runtime} {rows : List Row} {table : Table}
    (made : edgeTable runtime rows = .ok table)
    (ends : ∀ row ∈ rows, SRC_COLUMN ∈ row.keys ∧ DST_COLUMN ∈ row.keys) :
    table.rows.length = rows.length ∧
      ∀ index row, table.rows[index]? = some row → ∀ key,
        row.read key = edgeCellOf runtime rows key index := by
  obtain ⟨plain, built, made⟩ := except_bind_ok made
  obtain ⟨withSrc, castSrc, castDst⟩ := except_bind_ok made
  obtain ⟨length, cells, columns⟩ := from_pylist_cells built
  obtain ⟨srcs, srcCast, srcLength, srcNames, srcRows, srcOthers⟩ := castColumn_ok castSrc
  obtain ⟨dsts, dstCast, dstLength, _, dstRows, _⟩ := castColumn_ok castDst
  refine ⟨dstLength.trans (srcLength.trans length), ?_⟩
  intro index row found key
  obtain ⟨middle, inMiddle, dstRead, dstKept⟩ := dstRows index row found
  obtain ⟨old, inPlain, srcRead, srcKept⟩ := srcRows index middle inMiddle
  obtain ⟨first, rest, rfl⟩ : ∃ first rest, rows = first :: rest := by
    refine List.exists_cons_of_ne_nil fun none => ?_
    have inside := (List.getElem?_eq_some_iff.mp inPlain).1
    rw [length, none] at inside
    exact absurd inside (Nat.not_lt_zero _)
  obtain ⟨src, dst⟩ := ends first List.mem_cons_self
  have apart : DST_COLUMN ≠ SRC_COLUMN := by decide
  have plainNames : plain.names = first.keys := Runtime.from_pylist_names built
  rw [(columns _ src).1, (columns _ src).2] at srcCast
  rw [(srcOthers _ apart).1, (srcOthers _ apart).2, (columns _ dst).1, (columns _ dst).2] at dstCast
  rw [edgeCellOf]
  by_cases isDst : key = DST_COLUMN
  · subst isDst
    rw [if_pos (Or.inr rfl), dstCast, dstRead (srcNames ▸ plainNames ▸ dst)]
  · rw [dstKept key isDst]
    by_cases isSrc : key = SRC_COLUMN
    · subst isSrc
      rw [if_pos (Or.inl rfl), srcCast, srcRead (plainNames ▸ src)]
    · rw [if_neg (not_or.mpr ⟨isSrc, isDst⟩), srcKept key isSrc, cells index old inPlain]

/-- Rows that read alike under a key and have it alike have the same cells. -/
theorem cellOf_congr (runtime : Runtime) {rows others : List Row} {key : String}
    (alike : List.Forall₂ (fun row other => row.read key = other.read key ∧
      (key ∈ row.keys ↔ key ∈ other.keys)) rows others) (index : Nat) :
    cellOf runtime rows key index = cellOf runtime others key index := by
  have column : rows.map (Row.read · key) = others.map (Row.read · key) := by
    rw [← List.forall₂_eq_eq_eq, List.forall₂_map_left_iff, List.forall₂_map_right_iff]
    exact alike.imp fun _ _ both => both.1
  have first : key ∈ (rows.headD Dict.empty).keys ↔ key ∈ (others.headD Dict.empty).keys := by
    cases alike with
    | nil => exact Iff.rfl
    | cons both _ => exact both.2
  rw [cellOf, cellOf, columnOf, columnOf, column, alike.length_eq]
  exact if_congr first rfl rfl

/-! ## Stores -/

/-- The values of the rows in a directory of stores. -/
def valuesIn {id_column : String} (stores : Dict String (Store id_column)) (name : String) :
    List Row :=
  (rowsIn stores name).map StoredRow.values

theorem valuesIn_set {id_column : String} (stores : Dict String (Store id_column))
    (name other : String) (store : Store id_column) :
    valuesIn (stores.set name store) other =
      if other = name then store.rows.map StoredRow.values else valuesIn stores other := by
  rw [valuesIn, rowsIn, Dict.get_set]
  by_cases same : other = name
  · rw [if_pos same, if_pos same]
  · rw [if_neg same, if_neg same]
    rfl

theorem valuesIn_push {id_column : String} {stores : Dict String (Store id_column)} {name : String}
    {store : Store id_column} (stored : stores.get? name = some store) {table : Table} {lsn : Nat}
    (accepts : store.Accepts table) (other : String) :
    valuesIn (stores.set name (store.push table lsn accepts)) other =
      valuesIn stores other ++ if other = name then table.rows else [] := by
  rw [valuesIn_set]
  split
  · next same =>
    rw [Store.rows_push, List.map_append, Store.chunkOf_map_values, same, valuesIn, rowsIn, stored]
  · rw [List.append_nil]

theorem createNodes_ok {iri name : String} {db after : Database}
    (done : Call.run (createNodes iri name) db = (.ok (), after)) :
    after.catalog = db.catalog ∧ after.edges = db.edges ∧
      ∀ other, valuesIn after.nodes other = valuesIn db.nodes other := by
  rw [createNodes, Call.run_attempt] at done
  cases opened : db.nodeStoreOf iri name with
  | error raised =>
    rw [opened] at done
    cases done
  | ok found =>
    rw [opened] at done
    cases found with
    | some store =>
      cases done
      exact ⟨rfl, rfl, fun _ => rfl⟩
    | none =>
      cases done
      refine ⟨rfl, rfl, fun other => ?_⟩
      rw [valuesIn_set]
      split
      · next same => rw [same, valuesIn, rowsIn, nodeStoreOf_none opened]; rfl
      · rfl

theorem createEdges_ok {iri name : String} {db after : Database}
    (done : Call.run (createEdges iri name) db = (.ok (), after)) :
    after.catalog = db.catalog ∧ after.nodes = db.nodes ∧
      ∀ other, valuesIn after.edges other = valuesIn db.edges other := by
  rw [createEdges, Call.run_attempt] at done
  cases opened : db.edgeStoreOf iri name with
  | error raised =>
    rw [opened] at done
    cases done
  | ok found =>
    rw [opened] at done
    cases found with
    | some store =>
      cases done
      exact ⟨rfl, rfl, fun _ => rfl⟩
    | none =>
      cases done
      refine ⟨rfl, rfl, fun other => ?_⟩
      rw [valuesIn_set]
      split
      · next same => rw [same, valuesIn, rowsIn, edgeStoreOf_none opened]; rfl
      · rfl

/-- An insertion of nodes appends the rows of its table to the directory of its class. -/
theorem insertNodes_ok {class_name : String} {table : Table} {db after : Database}
    {ref : ChunkRef} (done : Call.run (insertNodes class_name table) db = (.ok ref, after)) :
    ∃ cls, db.catalog.find_class class_name = .ok cls ∧ after.catalog = db.catalog ∧
      after.edges = db.edges ∧ ∀ other, valuesIn after.nodes other =
        valuesIn db.nodes other ++ if other = cls.localName then table.rows else [] := by
  obtain ⟨_, _, first, done⟩ := Call.run_bind_returns done
  rw [Call.run_ofExcept] at first
  obtain ⟨_, rfl⟩ := Prod.mk.inj first
  obtain ⟨cls, _, found, done⟩ := Call.run_bind_returns done
  rw [Call.run_ask] at found
  obtain ⟨isClass, rfl⟩ := Prod.mk.inj found
  obtain ⟨_, created, creates, done⟩ := Call.run_bind_returns done
  obtain ⟨sameCatalog, sameEdges, sameValues⟩ := createNodes_ok creates
  obtain ⟨_, appended, appends, done⟩ := Call.run_bind_returns done
  rw [appendNodes_run] at appends
  cases happened : appendNodesAt created.tick cls.localName table with
  | error raised =>
    rw [happened] at appends
    cases appends
  | ok pushed =>
    rw [happened] at appends
    cases appends
    obtain ⟨store, stored, _, _, accepts, same⟩ := appendNodesAt_ok happened
    obtain ⟨_, _, invalidates, done⟩ := Call.run_bind_returns done
    cases invalidates
    obtain ⟨_, _, coerces, done⟩ := Call.run_bind_returns done
    rw [Call.run_ofExcept] at coerces
    obtain ⟨_, rfl⟩ := Prod.mk.inj coerces
    cases done
    refine ⟨cls, isClass, ?_, ?_, fun other => ?_⟩
    · rw [← sameCatalog, same]
      rfl
    · rw [← sameEdges, same]
      rfl
    · rw [← sameValues, same]
      exact valuesIn_push stored accepts other

/-- The rows of a table, if it was made. -/
def rowsOf : Except Raised Table → List Row
  | .error _ => []
  | .ok table => table.rows

/-- The groups whose names lead to a directory. -/
def groupsAt {Item : Type} (directory : String → String) (name : String)
    (groups : List (String × Item)) : List (String × Item) :=
  groups.filter fun group => directory group.1 = name

/-- Storing a class defines it and appends its rows where its name leads. -/
theorem storeClass_ok {class_name : String} {made : Except Raised Table}
    {refs answer : Dict String ChunkRef} {db after : Database} (isName : IsName class_name)
    (done : Call.run (storeClass class_name made refs) db = (.ok answer, after)) :
    (∃ table, made = .ok table) ∧
      after.catalog = (db.catalog.define_class class_name none []).2 ∧ after.edges = db.edges ∧
      ∀ other, valuesIn after.nodes other = valuesIn db.nodes other ++
        if directoryOf db.catalog.classes.view class_name = other then rowsOf made else [] := by
  obtain ⟨_, _, defines, done⟩ := Call.run_bind_returns done
  rw [defineClass_run] at defines
  cases defines
  obtain ⟨table, _, makes, done⟩ := Call.run_bind_returns done
  rw [Call.run_ofExcept] at makes
  obtain ⟨isTable, rfl⟩ := Prod.mk.inj makes
  obtain ⟨ref, inserted, inserts, done⟩ := Call.run_bind_returns done
  cases done
  obtain ⟨cls, found, sameCatalog, sameEdges, values⟩ := insertNodes_ok inserts
  have leads := Registry.find_ok found
  rw [withClass, Catalog.view_define_class _ isName] at leads
  refine ⟨⟨table, isTable⟩, sameCatalog, sameEdges, fun other => ?_⟩
  rw [values, directoryOf_eq leads, isTable, rowsOf]
  by_cases here : other = cls.localName
  · rw [if_pos here, if_pos here.symm]
    rfl
  · rw [if_neg here, if_neg (Ne.symm here)]
    rfl

/-- Storing groups of nodes appends the rows of each where its class leads. -/
theorem storeGroups_ok (runtime : Runtime) (groups : List (String × List Row))
    (names : ∀ group ∈ groups, IsName group.1) (distinct : (groups.map Prod.fst).Nodup)
    {refs answer : Dict String ChunkRef} {db after : Database}
    (done : Call.run (groups.foldlM (storeGroup runtime) refs) db = (.ok answer, after)) :
    after.catalog.properties = db.catalog.properties ∧ after.edges = db.edges ∧
      (∀ group ∈ groups, ∃ table, runtime.from_pylist group.2 = .ok table) ∧
      ∀ other, valuesIn after.nodes other = valuesIn db.nodes other ++
        (groupsAt (directoryOf db.catalog.classes.view) other groups).flatMap
          fun group => rowsOf (runtime.from_pylist group.2) := by
  induction groups generalizing refs db with
  | nil =>
    cases done
    exact ⟨rfl, rfl, fun _ absurdity => absurd absurdity List.not_mem_nil,
      fun _ => (List.append_nil _).symm⟩
  | cons group groups inductionHypothesis =>
    rw [List.foldlM_cons] at done
    obtain ⟨_, stored, stores, done⟩ := Call.run_bind_returns done
    have isName := names group List.mem_cons_self
    obtain ⟨made, catalog, edges, values⟩ := storeClass_ok isName stores
    rw [List.map_cons, List.nodup_cons] at distinct
    obtain ⟨laterProperties, laterEdges, laterMade, laterValues⟩ := inductionHypothesis
      (fun other member => names other (List.mem_cons_of_mem group member)) distinct.2 done
    have sameDirectories : ∀ other, groupsAt (directoryOf stored.catalog.classes.view) other groups =
        groupsAt (directoryOf db.catalog.classes.view) other groups := by
      intro other
      refine List.filter_congr fun later member => ?_
      have different : later.1 ≠ group.1 := fun same =>
        distinct.1 (same ▸ List.mem_map_of_mem member)
      rw [catalog, Catalog.view_define_class _ isName, directoryOf, directoryOf,
        target_defined (names later (List.mem_cons_of_mem group member)) different]
    refine ⟨?_, laterEdges.trans edges, ?_, fun other => ?_⟩
    · rw [laterProperties, catalog, define_class_properties]
    · intro other member
      rcases List.mem_cons.mp member with rfl | later
      · exact made
      · exact laterMade other later
    · rw [laterValues, sameDirectories, values, List.append_assoc, groupsAt, groupsAt,
        List.filter_cons]
      by_cases here : directoryOf db.catalog.classes.view group.1 = other
      · rw [if_pos here, if_pos (decide_eq_true here), List.flatMap_cons]
      · rw [if_neg here, if_neg (by simpa using here), List.nil_append]

/-! ### Edges -/

/-- The directory of a relation once it is defined. -/
def relationDirectory (view : List (String × String)) (name : String) : String :=
  (((iriEntry view (syntheticIri name)).or (nameEntry view name)).map Prod.snd).getD name

theorem define_property_localName (catalog : Catalog) {name : String} (isName : IsName name) :
    (catalog.define_property name none).1.localName =
      relationDirectory catalog.properties.view name := by
  rw [relationDirectory, Registry.iriEntry_view, Registry.nameEntry_view, Catalog.define_property]
  dsimp only
  rw [Catalog.textOr_none, Registry.existing]
  cases catalog.properties.by_iri (syntheticIri name) with
  | some item => rfl
  | none =>
    cases catalog.properties.by_name name with
    | some item => rfl
    | none => simp [Registry.register, Definition.localName, textOr, isName.1]

/-- Storing a relation appends its rows to its directory. -/
theorem storeRelation_ok {relation : String} {made : Except Raised Table} {repeated : List String}
    {refs answer : Dict String ChunkRef} {db after : Database} (isName : IsName relation)
    (done : Call.run (storeRelation relation made repeated refs) db = (.ok answer, after)) :
    (∃ table, made = .ok table) ∧
      after.catalog = (db.catalog.define_property relation none).2 ∧ after.nodes = db.nodes ∧
      ∀ other, valuesIn after.edges other = valuesIn db.edges other ++
        if relationDirectory db.catalog.properties.view relation = other then rowsOf made
        else [] := by
  obtain ⟨prop, _, defines, done⟩ := Call.run_bind_returns done
  cases defines
  rw [← define_property_localName _ isName]
  obtain ⟨_, created, creates, done⟩ := Call.run_bind_returns done
  obtain ⟨sameCatalog, sameNodes, sameValues⟩ := createEdges_ok creates
  obtain ⟨table, _, makes, done⟩ := Call.run_bind_returns done
  rw [Call.run_ofExcept] at makes
  obtain ⟨isTable, rfl⟩ := Prod.mk.inj makes
  obtain ⟨_, appended, appends, done⟩ := Call.run_bind_returns done
  rw [appendEdges_run] at appends
  cases happened : appendEdgesAt created.tick (db.catalog.define_property relation none).1.localName
    table repeated with
  | error raised =>
    rw [happened] at appends
    cases appends
  | ok pushed =>
    rw [happened] at appends
    cases appends
    obtain ⟨store, stored, _, _, accepts, same⟩ := appendEdgesAt_ok happened
    obtain ⟨_, _, invalidates, done⟩ := Call.run_bind_returns done
    cases invalidates
    cases done
    refine ⟨⟨table, isTable⟩, ?_, ?_, fun other => ?_⟩
    · show pushed.2.catalog = _
      rw [same]
      exact sameCatalog
    · show pushed.2.nodes = _
      rw [same]
      exact sameNodes
    · show valuesIn pushed.2.edges other = _
      rw [same, isTable, rowsOf, ← sameValues]
      refine (valuesIn_push stored accepts other).trans ?_
      by_cases here : other = (db.catalog.define_property relation none).1.localName
      · rw [if_pos here, if_pos here.symm]
        rfl
      · rw [if_neg here, if_neg (Ne.symm here)]
        rfl

theorem relationDirectory_defined {view : List (String × String)} {name other : String}
    (isName : IsName name) (different : name ≠ other) :
    relationDirectory (defined view other) name = relationDirectory view name := by
  obtain ⟨_, byName, synthetic⟩ := entries_defined view isName different
  rw [relationDirectory, relationDirectory, byName, synthetic]

/-- Storing groups of edges appends the rows of each to the directory of its relation. -/
theorem storeRelations_ok (runtime : Runtime) (groups : List (String × List Row))
    (names : ∀ group ∈ groups, IsName group.1) (distinct : (groups.map Prod.fst).Nodup)
    {refs answer : Dict String ChunkRef} {db after : Database}
    (done : Call.run (groups.foldlM (storeEdges runtime) refs) db = (.ok answer, after)) :
    after.nodes = db.nodes ∧
      (∀ group ∈ groups, ∃ table, edgeTable runtime group.2 = .ok table) ∧
      ∀ other, valuesIn after.edges other = valuesIn db.edges other ++
        (groupsAt (relationDirectory db.catalog.properties.view) other groups).flatMap
          fun group => rowsOf (edgeTable runtime group.2) := by
  induction groups generalizing refs db with
  | nil =>
    cases done
    exact ⟨rfl, fun _ absurdity => absurd absurdity List.not_mem_nil,
      fun _ => (List.append_nil _).symm⟩
  | cons group groups inductionHypothesis =>
    rw [List.foldlM_cons] at done
    obtain ⟨_, stored, stores, done⟩ := Call.run_bind_returns done
    have isName := names group List.mem_cons_self
    obtain ⟨made, catalog, nodes, values⟩ := storeRelation_ok isName stores
    rw [List.map_cons, List.nodup_cons] at distinct
    obtain ⟨laterNodes, laterMade, laterValues⟩ := inductionHypothesis
      (fun other member => names other (List.mem_cons_of_mem group member)) distinct.2 done
    have sameDirectories : ∀ other,
        groupsAt (relationDirectory stored.catalog.properties.view) other groups =
          groupsAt (relationDirectory db.catalog.properties.view) other groups := by
      intro other
      refine List.filter_congr fun later member => ?_
      have different : later.1 ≠ group.1 := fun same =>
        distinct.1 (same ▸ List.mem_map_of_mem member)
      rw [catalog, Catalog.view_define_property _ isName,
        relationDirectory_defined (names later (List.mem_cons_of_mem group member)) different]
    refine ⟨laterNodes.trans nodes, ?_, fun other => ?_⟩
    · intro other member
      rcases List.mem_cons.mp member with rfl | later
      · exact made
      · exact laterMade other later
    · rw [laterValues, sameDirectories, values, List.append_assoc, groupsAt, groupsAt,
        List.filter_cons]
      by_cases here : relationDirectory db.catalog.properties.view group.1 = other
      · rw [if_pos here, if_pos (decide_eq_true here), List.flatMap_cons]
      · rw [if_neg here, if_neg (by simpa using here), List.nil_append]

end CaracalDB.Database
