import CaracalDB.EdgeMerge

/-!
# How an upsert writes a group back

Writing a group back defines its class, removes the directory that the class's name
leads to and stores the rows of the group in a new store there. Where the name
leads nowhere nothing is removed; where it leads to a directory that cannot carry a
store, the directory is removed and nothing is stored.
-/

namespace CaracalDB.Database

/-- `db` once a class is defined. -/
def withClass (name : String) (db : Database) : Database :=
  { db with catalog := (db.catalog.define_class name none []).2 }

/-- `db` once a property is defined. -/
def withProperty (name : String) (db : Database) : Database :=
  { db with catalog := (db.catalog.define_property name none).2 }

/-- `db` without what lies in a directory of the nodes. -/
def withoutNodes (directory : String) (db : Database) : Database :=
  if directory = "." then { db with nodes := Dict.empty }
  else if directory = ".." then
    { db with
      nodes := Dict.empty, edges := Dict.empty, snapshots := Dict.empty, graph := Dict.empty }
  else { db with nodes := db.nodes.erase directory }

/-- `db` without what lies in a directory of the edges. -/
def withoutEdges (directory : String) (db : Database) : Database :=
  if directory = "." then { db with edges := Dict.empty }
  else if directory = ".." then
    { db with
      nodes := Dict.empty, edges := Dict.empty, snapshots := Dict.empty, graph := Dict.empty }
  else { db with edges := db.edges.erase directory }

@[simp] theorem withoutNodes_catalog (directory : String) (db : Database) :
    (db.withoutNodes directory).catalog = db.catalog := by
  rw [withoutNodes]
  split
  · rfl
  · split <;> rfl

@[simp] theorem withoutEdges_catalog (directory : String) (db : Database) :
    (db.withoutEdges directory).catalog = db.catalog := by
  rw [withoutEdges]
  split
  · rfl
  · split <;> rfl

@[simp] theorem withoutNodes_clock (directory : String) (db : Database) :
    (db.withoutNodes directory).clock = db.clock := by
  rw [withoutNodes]
  split
  · rfl
  · split <;> rfl

@[simp] theorem withoutEdges_clock (directory : String) (db : Database) :
    (db.withoutEdges directory).clock = db.clock := by
  rw [withoutEdges]
  split
  · rfl
  · split <;> rfl

/-- A name for a store is neither of the names that lead out of the directory. -/
theorem proper_of_isLocalName {directory : String} (proper : isLocalName directory = true) :
    directory ≠ "." ∧ directory ≠ ".." := by
  constructor
  · rintro rfl
    revert proper
    decide
  · rintro rfl
    revert proper
    decide

theorem removeNodes_run (directory : String) (db : Database) :
    Call.run (removeNodes directory) db =
      (if directory = ".." then .error (.osError "nodes/..") else .ok (),
        db.withoutNodes directory) := by
  rw [removeNodes, withoutNodes]
  by_cases here : directory = "."
  · subst here
    rfl
  · rw [if_neg here, if_neg here]
    by_cases parent : directory = ".."
    · rw [if_pos parent, if_pos parent, if_pos parent]
      rfl
    · rw [if_neg parent, if_neg parent, if_neg parent]
      rfl

theorem removeEdges_run (directory : String) (db : Database) :
    Call.run (removeEdges directory) db =
      (if directory = ".." then .error (.osError "edges/..") else .ok (),
        db.withoutEdges directory) := by
  rw [removeEdges, withoutEdges]
  by_cases here : directory = "."
  · subst here
    rfl
  · rw [if_neg here, if_neg here]
    by_cases parent : directory = ".."
    · rw [if_pos parent, if_pos parent, if_pos parent]
      rfl
    · rw [if_neg parent, if_neg parent, if_neg parent]
      rfl

/-! ## Nodes -/

/-- `db` with an empty store in place of a directory of the nodes. -/
def clearedNodes (iri directory : String) (db : Database) : Database :=
  { db with nodes := (db.nodes.erase directory).set directory (Store.create iri) }

theorem createNodes_removed (iri : String) {directory : String} (db : Database)
    (proper : isLocalName directory = true) :
    Call.run (createNodes iri directory) (db.withoutNodes directory) =
      (.ok (), db.clearedNodes iri directory) := by
  obtain ⟨here, parent⟩ := proper_of_isLocalName proper
  have absent : (db.nodes.erase directory).get? directory = none := by
    rw [Dict.get_erase, if_pos rfl]
  rw [withoutNodes, if_neg here, if_neg parent, createNodes, Call.run_attempt, nodeStoreOf,
    assertLocalName, if_pos proper]
  dsimp only
  rw [absent]
  rfl

theorem createNodes_improper (iri : String) {directory : String} (db : Database)
    (improper : isLocalName directory = false) :
    ∃ raised, Call.run (createNodes iri directory) db = (.error raised, db) := by
  rw [createNodes, Call.run_attempt, nodeStoreOf, assertLocalName,
    if_neg (by rw [improper]; decide)]
  exact ⟨_, rfl⟩

/-- What storing the rows of a group in a cleared directory comes to. -/
def refilledNodes (runtime : Runtime) (directory : String) (rows : List Row) (db : Database) :
    Except Raised Unit × Database :=
  if rows = [] then (.ok (), db)
  else match runtime.from_pylist (rows.map (stripRow NID_COLUMN)) with
    | .error raised => (.error raised, db)
    | .ok table =>
        match appendNodesAt db.tick directory table with
        | .error raised => (.error raised, db.tick)
        | .ok (_, after) => (.ok (), after)

/-- The class that a defined name leads to. -/
theorem find_class_defined {name : String} (isName : IsName name) (db : Database)
    {iri directory : String}
    (leadsTo : target db.catalog.classes.view name = some (iri, directory)) :
    ∃ cls, (db.withClass name).catalog.find_class name = .ok cls ∧ cls.iri = iri ∧
      cls.localName = directory := by
  apply Registry.find_of_leads
  rw [show (db.withClass name).catalog.classes = (db.catalog.define_class name none []).2.classes
    from rfl, Catalog.view_define_class _ isName]
  exact leadsTo

theorem find_class_nowhere {name : String} (isName : IsName name) (db : Database)
    (leadsTo : target db.catalog.classes.view name = none) :
    ∃ raised, (db.withClass name).catalog.find_class name = .error raised := by
  cases found : (db.withClass name).catalog.find_class name with
  | error raised => exact ⟨raised, rfl⟩
  | ok cls =>
    have somewhere := Registry.find_ok found
    rw [show (db.withClass name).catalog.classes = (db.catalog.define_class name none []).2.classes
      from rfl, Catalog.view_define_class _ isName] at somewhere
    rw [target, somewhere] at leadsTo
    cases leadsTo

theorem defineClass_run (name : String) (db : Database) :
    Call.run (defineClass name) db = (.ok (), db.withClass name) := rfl

theorem replaceNodeRows_run (runtime : Runtime) (name : String) (rows : List Row) (db : Database) :
    Call.run (replaceNodeRows runtime name rows) db =
      match db.catalog.find_class name with
      | .error raised => (.error raised, db)
      | .ok cls => Call.run (do
          removeNodes cls.localName
          createNodes cls.iri cls.localName
          if rows = [] then return ()
          else
            let table ← Call.ofExcept (runtime.from_pylist (rows.map (stripRow NID_COLUMN)))
            let _ ← appendNodes cls.localName table) db := by
  rw [replaceNodeRows, Call.run_bind, Call.run_ask]
  cases db.catalog.find_class name <;> rfl

/-- Writing a class back whose name leads to the directory of a store. -/
theorem rewriteClass_run (runtime : Runtime) {name : String} (rows : List Row) (db : Database)
    {iri directory : String} (isName : IsName name)
    (leadsTo : target db.catalog.classes.view name = some (iri, directory))
    (proper : isLocalName directory = true) :
    Call.run (rewriteClass runtime (name, rows)) db =
      refilledNodes runtime directory rows ((db.withClass name).clearedNodes iri directory) := by
  obtain ⟨cls, found, rfl, rfl⟩ := find_class_defined isName db leadsTo
  have removes := removeNodes_run cls.localName (db.withClass name)
  rw [if_neg (proper_of_isLocalName proper).2] at removes
  rw [rewriteClass, Call.run_bind_ok _ (defineClass_run name db), replaceNodeRows_run, found]
  dsimp only
  rw [Call.run_bind_ok _ removes, Call.run_bind_ok _ (createNodes_removed _ _ proper), refilledNodes]
  by_cases none : rows = []
  · rw [if_pos none, if_pos none]
    rfl
  · rw [if_neg none, if_neg none, Call.run_bind, Call.run_ofExcept]
    cases made : runtime.from_pylist (rows.map (stripRow NID_COLUMN)) with
    | error raised => rfl
    | ok table =>
      dsimp only
      rw [Call.run_bind, appendNodes_run]
      cases (Database.appendNodesAt
        ((db.withClass name).clearedNodes cls.iri cls.localName).tick cls.localName table) <;> rfl

/-- A class whose name leads to a directory that carries no store loses the directory. -/
theorem rewriteClass_improper (runtime : Runtime) {name : String} (rows : List Row)
    (db : Database) {iri directory : String} (isName : IsName name)
    (leadsTo : target db.catalog.classes.view name = some (iri, directory))
    (improper : isLocalName directory = false) :
    ∃ raised, Call.run (rewriteClass runtime (name, rows)) db =
      (.error raised, (db.withClass name).withoutNodes directory) := by
  obtain ⟨cls, found, rfl, rfl⟩ := find_class_defined isName db leadsTo
  have removes := removeNodes_run cls.localName (db.withClass name)
  rw [rewriteClass, Call.run_bind_ok _ (defineClass_run name db), replaceNodeRows_run, found]
  dsimp only
  by_cases parent : cls.localName = ".."
  · rw [if_pos parent] at removes
    exact ⟨_, Call.run_bind_error _ removes⟩
  · rw [if_neg parent] at removes
    obtain ⟨raised, creates⟩ := createNodes_improper cls.iri
      ((db.withClass name).withoutNodes cls.localName) improper
    exact ⟨raised, (Call.run_bind_ok _ removes).trans (Call.run_bind_error _ creates)⟩

/-- A class whose name leads nowhere once it is defined loses nothing. -/
theorem rewriteClass_nowhere (runtime : Runtime) {name : String} (rows : List Row)
    (db : Database) (isName : IsName name) (leadsTo : target db.catalog.classes.view name = none) :
    ∃ raised, Call.run (rewriteClass runtime (name, rows)) db =
      (.error raised, db.withClass name) := by
  obtain ⟨raised, found⟩ := find_class_nowhere isName db leadsTo
  refine ⟨raised, ?_⟩
  rw [rewriteClass, Call.run_bind_ok _ (defineClass_run name db), replaceNodeRows_run, found]

theorem refilledNodes_catalog (runtime : Runtime) (directory : String) (rows : List Row)
    (db : Database) : (refilledNodes runtime directory rows db).2.catalog = db.catalog := by
  rw [refilledNodes]
  split
  · rfl
  · split
    · rfl
    · split
      · rfl
      · next happens =>
        obtain ⟨_, _, _, _, _, rfl⟩ := appendNodesAt_ok happens
        rfl

/-- However writing a class back ends, the class is defined. -/
theorem rewriteClass_catalog (runtime : Runtime) {name : String} (rows : List Row)
    (db : Database) (isName : IsName name) :
    (Call.run (rewriteClass runtime (name, rows)) db).2.catalog = (db.withClass name).catalog := by
  cases leadsTo : target db.catalog.classes.view name with
  | none =>
    obtain ⟨raised, ends⟩ := rewriteClass_nowhere runtime rows db isName leadsTo
    rw [ends]
  | some entry =>
    obtain ⟨iri, directory⟩ := entry
    cases proper : isLocalName directory with
    | false =>
      obtain ⟨raised, ends⟩ := rewriteClass_improper runtime rows db isName leadsTo proper
      rw [ends, withoutNodes_catalog]
    | true =>
      rw [rewriteClass_run runtime rows db isName leadsTo proper, refilledNodes_catalog]
      rfl

/-! ## Edges -/

/-- `db` with an empty store in place of a directory of the edges. -/
def clearedEdges (iri directory : String) (db : Database) : Database :=
  { db with edges := (db.edges.erase directory).set directory (Store.create iri) }

theorem createEdges_removed (iri : String) {directory : String} (db : Database)
    (proper : isLocalName directory = true) :
    Call.run (createEdges iri directory) (db.withoutEdges directory) =
      (.ok (), db.clearedEdges iri directory) := by
  obtain ⟨here, parent⟩ := proper_of_isLocalName proper
  have absent : (db.edges.erase directory).get? directory = none := by
    rw [Dict.get_erase, if_pos rfl]
  rw [withoutEdges, if_neg here, if_neg parent, createEdges, Call.run_attempt, edgeStoreOf,
    assertLocalName, if_pos proper]
  dsimp only
  rw [absent]
  rfl

theorem createEdges_improper (iri : String) {directory : String} (db : Database)
    (improper : isLocalName directory = false) :
    ∃ raised, Call.run (createEdges iri directory) db = (.error raised, db) := by
  rw [createEdges, Call.run_attempt, edgeStoreOf, assertLocalName,
    if_neg (by rw [improper]; decide)]
  exact ⟨_, rfl⟩

/-- What storing the edges of a group in a cleared directory comes to. -/
def refilledEdges (runtime : Runtime) (directory : String) (rows : List Row) (db : Database) :
    Except Raised Unit × Database :=
  if rows = [] then (.ok (), db)
  else match edgeTable runtime (rows.map (stripRow EID_COLUMN)) with
    | .error raised => (.error raised, db)
    | .ok table =>
        match appendEdgesAt db.tick directory table [] with
        | .error raised => (.error raised, db.tick)
        | .ok (_, after) => (.ok (), after)

/-- Forget the adjacencies of a relation once its edges are stored. -/
def forgotten (relation : String) (ends : Except Raised Unit × Database) :
    Except Raised Unit × Database :=
  match ends with
  | (.ok (), db) => Call.run (invalidateRelation relation) db
  | (.error raised, db) => (.error raised, db)

theorem find_property_defined {name : String} (isName : IsName name) (db : Database)
    {iri directory : String}
    (leadsTo : target db.catalog.properties.view name = some (iri, directory)) :
    ∃ prop, (db.withProperty name).catalog.find_property name = .ok prop ∧ prop.iri = iri ∧
      prop.localName = directory := by
  apply Registry.find_of_leads
  rw [show (db.withProperty name).catalog.properties =
    (db.catalog.define_property name none).2.properties from rfl,
    Catalog.view_define_property _ isName]
  exact leadsTo

theorem find_property_nowhere {name : String} (isName : IsName name) (db : Database)
    (leadsTo : target db.catalog.properties.view name = none) :
    ∃ raised, (db.withProperty name).catalog.find_property name = .error raised := by
  cases found : (db.withProperty name).catalog.find_property name with
  | error raised => exact ⟨raised, rfl⟩
  | ok prop =>
    have somewhere := Registry.find_ok found
    rw [show (db.withProperty name).catalog.properties =
      (db.catalog.define_property name none).2.properties from rfl,
      Catalog.view_define_property _ isName] at somewhere
    rw [target, somewhere] at leadsTo
    cases leadsTo

theorem rewriteRelation_start (runtime : Runtime) (name : String) (rows : List Row)
    (db : Database) :
    Call.run (rewriteRelation runtime (name, rows)) db =
      forgotten name (Call.run (replaceEdgeRows runtime name rows) (db.withProperty name)) := by
  have defines : Call.run (defineProperty name none) db =
      (.ok (db.catalog.define_property name none).1, db.withProperty name) := rfl
  rw [rewriteRelation, Call.run_bind_ok _ defines, Call.run_bind]
  cases Call.run (replaceEdgeRows runtime name rows) (db.withProperty name) with
  | mk result after => cases result <;> rfl

theorem replaceEdgeRows_run (runtime : Runtime) (name : String) (rows : List Row) (db : Database) :
    Call.run (replaceEdgeRows runtime name rows) db =
      match db.catalog.find_property name with
      | .error raised => (.error raised, db)
      | .ok prop => Call.run (do
          removeEdges prop.localName
          createEdges prop.iri prop.localName
          if rows = [] then return ()
          else
            let table ← Call.ofExcept (edgeTable runtime (rows.map (stripRow EID_COLUMN)))
            let _ ← appendEdges prop.localName table []) db := by
  rw [replaceEdgeRows, Call.run_bind, Call.run_ask]
  cases db.catalog.find_property name <;> rfl

/-- Writing a relation back whose name leads to the directory of a store. -/
theorem rewriteRelation_run (runtime : Runtime) {name : String} (rows : List Row) (db : Database)
    {iri directory : String} (isName : IsName name)
    (leadsTo : target db.catalog.properties.view name = some (iri, directory))
    (proper : isLocalName directory = true) :
    Call.run (rewriteRelation runtime (name, rows)) db =
      forgotten name
        (refilledEdges runtime directory rows ((db.withProperty name).clearedEdges iri directory)) := by
  obtain ⟨prop, found, rfl, rfl⟩ := find_property_defined isName db leadsTo
  have removes := removeEdges_run prop.localName (db.withProperty name)
  rw [if_neg (proper_of_isLocalName proper).2] at removes
  rw [rewriteRelation_start, replaceEdgeRows_run, found]
  dsimp only
  rw [Call.run_bind_ok _ removes, Call.run_bind_ok _ (createEdges_removed _ _ proper), refilledEdges]
  by_cases none : rows = []
  · rw [if_pos none, if_pos none]
    rfl
  · rw [if_neg none, if_neg none, Call.run_bind, Call.run_ofExcept]
    cases made : edgeTable runtime (rows.map (stripRow EID_COLUMN)) with
    | error raised => rfl
    | ok table =>
      dsimp only
      rw [Call.run_bind, appendEdges_run]
      cases (Database.appendEdgesAt
        ((db.withProperty name).clearedEdges prop.iri prop.localName).tick prop.localName table []) <;>
          rfl

/-- A relation whose name leads to a directory that carries no store loses the directory. -/
theorem rewriteRelation_improper (runtime : Runtime) {name : String} (rows : List Row)
    (db : Database) {iri directory : String} (isName : IsName name)
    (leadsTo : target db.catalog.properties.view name = some (iri, directory))
    (improper : isLocalName directory = false) :
    ∃ raised, Call.run (rewriteRelation runtime (name, rows)) db =
      (.error raised, (db.withProperty name).withoutEdges directory) := by
  obtain ⟨prop, found, rfl, rfl⟩ := find_property_defined isName db leadsTo
  have removes := removeEdges_run prop.localName (db.withProperty name)
  rw [rewriteRelation_start, replaceEdgeRows_run, found]
  dsimp only
  by_cases parent : prop.localName = ".."
  · rw [if_pos parent] at removes
    rw [Call.run_bind_error _ removes]
    exact ⟨_, rfl⟩
  · rw [if_neg parent] at removes
    obtain ⟨raised, creates⟩ := createEdges_improper prop.iri
      ((db.withProperty name).withoutEdges prop.localName) improper
    rw [Call.run_bind_ok _ removes, Call.run_bind_error _ creates]
    exact ⟨raised, rfl⟩

/-- A relation whose name leads nowhere once it is defined loses nothing. -/
theorem rewriteRelation_nowhere (runtime : Runtime) {name : String} (rows : List Row)
    (db : Database) (isName : IsName name)
    (leadsTo : target db.catalog.properties.view name = none) :
    ∃ raised, Call.run (rewriteRelation runtime (name, rows)) db =
      (.error raised, db.withProperty name) := by
  obtain ⟨raised, found⟩ := find_property_nowhere isName db leadsTo
  refine ⟨raised, ?_⟩
  rw [rewriteRelation_start, replaceEdgeRows_run, found]
  rfl

theorem forgotten_catalog (relation : String) (ends : Except Raised Unit × Database) :
    (forgotten relation ends).2.catalog = ends.2.catalog := by
  obtain ⟨result, db⟩ := ends
  cases result <;> rfl

theorem refilledEdges_catalog (runtime : Runtime) (directory : String) (rows : List Row)
    (db : Database) : (refilledEdges runtime directory rows db).2.catalog = db.catalog := by
  rw [refilledEdges]
  split
  · rfl
  · split
    · rfl
    · split
      · rfl
      · next happens =>
        obtain ⟨_, _, _, _, _, rfl⟩ := appendEdgesAt_ok happens
        rfl

/-- However writing a relation back ends, the property is defined. -/
theorem rewriteRelation_catalog (runtime : Runtime) {name : String} (rows : List Row)
    (db : Database) (isName : IsName name) :
    (Call.run (rewriteRelation runtime (name, rows)) db).2.catalog =
      (db.withProperty name).catalog := by
  cases leadsTo : target db.catalog.properties.view name with
  | none =>
    obtain ⟨raised, ends⟩ := rewriteRelation_nowhere runtime rows db isName leadsTo
    rw [ends]
  | some entry =>
    obtain ⟨iri, directory⟩ := entry
    cases proper : isLocalName directory with
    | false =>
      obtain ⟨raised, ends⟩ := rewriteRelation_improper runtime rows db isName leadsTo proper
      rw [ends, withoutEdges_catalog]
    | true =>
      rw [rewriteRelation_run runtime rows db isName leadsTo proper, forgotten_catalog,
        refilledEdges_catalog]
      rfl

/-! ## Group after group -/

/-- The names of the groups are written back in order, each once. -/
theorem sortedGroups_nodup (grouped : Groups) : ((sortedGroups grouped).map Prod.fst).Nodup := by
  rw [sortedGroups, List.map_map]
  rw [show (Prod.fst ∘ fun name => (name, (grouped.get? name).getD [])) = id from rfl, List.map_id]
  exact (List.perm_insertionSort _ _).nodup_iff.mpr grouped.distinct

theorem mem_sortedGroups {grouped : Groups} {group : String × List Row} :
    group ∈ sortedGroups grouped ↔ grouped.get? group.1 = some group.2 := by
  obtain ⟨name, rows⟩ := group
  rw [sortedGroups, List.mem_map]
  constructor
  · rintro ⟨other, member, same⟩
    obtain ⟨rfl, rfl⟩ := Prod.mk.inj same
    obtain ⟨stored, found⟩ := (Dict.mem_keys _ _).mp ((mem_sortedNames _ _).mp member)
    rw [found]
    rfl
  · intro found
    refine ⟨name, (mem_sortedNames _ _).mpr ((Dict.mem_keys _ _).mpr ⟨_, found⟩), ?_⟩
    rw [found]
    rfl

/-- An upsert of nodes plans first; then it writes the groups back. -/
theorem upsertNodeTable_run (runtime : Runtime) (table : Table) (key_col type_col : String)
    (update_existing : Bool) (db : Database) :
    Call.run (upsertNodeTable runtime table key_col type_col update_existing) db =
      match planNodes runtime table key_col type_col update_existing db with
      | .error raised => (.error raised, db)
      | .ok (grouped, counts) =>
          match Call.run ((sortedGroups grouped).foldlM
            (fun _ group => rewriteClass runtime group) ()) db with
          | (.error raised, after) => (.error raised, after)
          | (.ok (), after) => (.ok counts, (Call.run invalidateAll after).2) := by
  rw [upsertNodeTable, Call.run_bind, Call.run_ask]
  cases planNodes runtime table key_col type_col update_existing db with
  | error raised => rfl
  | ok plan =>
    dsimp only
    rw [Call.run_bind]
    cases Call.run ((sortedGroups plan.1).foldlM
      (fun _ group => rewriteClass runtime group) ()) db with
    | mk result after => cases result <;> rfl

/-- What an upsert of edges will write back. -/
def planEdgeTable (runtime : Runtime) (table : Table) (edge_key_col : String)
    (columns : EdgeColumns) (update_existing : Bool) (db : Database) :
    Except Raised (IdMap × Except Raised (Groups × UpsertCounts)) := do
  let table ← edgeInput table edge_key_col columns
  let collected ← db.list_edge_stores.foldlM (collectEdges edge_key_col columns.type_col db) {}
  let id_map ← idMap runtime columns.node_key_col db
  return (id_map, planEdges table edge_key_col columns update_existing collected id_map)

/-- An upsert of edges plans first, which may cache ids; then it writes the groups back. -/
theorem upsertEdgeTable_run (runtime : Runtime) (table : Table) (edge_key_col : String)
    (columns : EdgeColumns) (update_existing : Bool) (db : Database) :
    Call.run (upsertEdgeTable runtime table edge_key_col columns update_existing) db =
      match planEdgeTable runtime table edge_key_col columns update_existing db with
      | .error raised => (.error raised, db)
      | .ok (id_map, .error raised) => (.error raised, db.remember columns.node_key_col id_map)
      | .ok (id_map, .ok (grouped, counts)) =>
          match Call.run ((sortedGroups grouped).foldlM
            (fun _ group => rewriteRelation runtime group) ())
              (db.remember columns.node_key_col id_map) with
          | (.error raised, after) => (.error raised, after)
          | (.ok (), after) => (.ok counts, after) := by
  rw [upsertEdgeTable, Call.run_bind, Call.run_ofExcept, planEdgeTable]
  cases edgeInput table edge_key_col columns with
  | error raised => rfl
  | ok input =>
    rw [ok_bind]
    dsimp only
    rw [Call.run_bind, Call.run_ask]
    cases db.list_edge_stores.foldlM (collectEdges edge_key_col columns.type_col db) {} with
    | error raised => rfl
    | ok collected =>
      rw [ok_bind]
      dsimp only
      rw [Call.run_bind, externalIdMap, Call.run_attempt]
      cases idMap runtime columns.node_key_col db with
      | error raised => rfl
      | ok id_map =>
        rw [ok_bind]
        dsimp only
        rw [Call.run_bind, Call.run_ofExcept]
        cases planEdges input edge_key_col columns update_existing collected id_map with
        | error raised => rfl
        | ok plan =>
          dsimp only
          rw [Call.run_bind]
          show _ = (match Call.run ((sortedGroups plan.1).foldlM
            (fun _ group => rewriteRelation runtime group) ())
              (db.remember columns.node_key_col id_map) with
            | (.error raised, after) => (Except.error raised, after)
            | (.ok (), after) => (Except.ok plan.2, after))
          cases Call.run ((sortedGroups plan.1).foldlM
            (fun _ group => rewriteRelation runtime group) ())
              (db.remember columns.node_key_col id_map) with
          | mk result after => cases result <;> rfl

/-- A plan of edges is made of the rows read and given. -/
theorem planEdgeTable_ok {runtime : Runtime} {table : Table} {edge_key_col : String}
    {columns : EdgeColumns} {update_existing : Bool} {db : Database} {id_map : IdMap}
    {plan : Except Raised (Groups × UpsertCounts)}
    (planned : planEdgeTable runtime table edge_key_col columns update_existing db =
      .ok (id_map, plan)) :
    edgeInput table edge_key_col columns = .ok (withEdgeKey table edge_key_col columns) ∧
      db.EdgesOpen ∧
      (∀ row ∈ scannedEdges edge_key_col db, ReadableEdge edge_key_col columns.type_col row) ∧
      idMap runtime columns.node_key_col db = .ok id_map ∧
      plan = planEdges (withEdgeKey table edge_key_col columns) edge_key_col columns
        update_existing (collectedEdges edge_key_col columns.type_col db) id_map := by
  obtain ⟨input, accepted, planned⟩ := except_bind_ok planned
  obtain ⟨collected, collects, planned⟩ := except_bind_ok planned
  obtain ⟨ids, found, planned⟩ := except_bind_ok planned
  obtain ⟨rfl, rfl⟩ := Prod.mk.inj (Except.ok.inj planned)
  obtain ⟨opens, rfl, readable⟩ := collectAllEdges_ok collects
  have same : input = withEdgeKey table edge_key_col columns := by
    obtain ⟨_, _, passed⟩ := except_bind_ok accepted
    obtain ⟨_, _, passed⟩ := except_bind_ok passed
    obtain ⟨_, _, passed⟩ := except_bind_ok passed
    exact (Except.ok.inj passed).symm
  subst same
  exact ⟨accepted, opens, readable, found, rfl⟩

/-- Defining other names does not change where a name leads. -/
theorem target_foldl_defined {view : List (String × String)} {name : String} (isName : IsName name)
    (others : List String) (different : name ∉ others) :
    target (others.foldl defined view) name = target view name := by
  induction others generalizing view with
  | nil => rfl
  | cons other others inductionHypothesis =>
    rw [List.mem_cons, not_or] at different
    rw [List.foldl_cons, inductionHypothesis different.2, target_defined isName different.1]

end CaracalDB.Database
