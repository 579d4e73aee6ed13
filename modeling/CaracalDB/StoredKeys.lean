import CaracalDB.InsertedValues

/-!
# The keys of stored nodes

Nodes are looked up by their key over all stores. A node table adds its keys, class
by class, behind those that are stored, and the map of ids has exactly the keys that
are stored.
-/

namespace CaracalDB.Database

/-- The key of a node, from its column `node_id`. -/
def nodeKey (row : Row) : Except Raised Value := (row.read "node_id").hashed

/-- The keys in one directory, row by row. -/
def keysIn (db : Database) (directory : String) : List (Except Raised Value) :=
  (valuesIn db.nodes directory).map nodeKey

/-- A row of some class has the key. -/
def Stored (db : Database) (key : Except Raised Value) : Prop :=
  ∃ directory ∈ db.nodes.keys, key ∈ keysIn db directory

instance (db : Database) (key : Except Raised Value) : Decidable (Stored db key) :=
  inferInstanceAs (Decidable (∃ directory ∈ db.nodes.keys, key ∈ keysIn db directory))

theorem listed_of_mem {db : Database} {key : Except Raised Value} {directory : String}
    (member : key ∈ keysIn db directory) : directory ∈ db.nodes.keys := by
  by_contra absent
  obtain ⟨row, inside, _⟩ := List.mem_map.mp member
  rw [valuesIn, rowsIn, (Dict.get_eq_none _ _).mpr absent] at inside
  cases inside

theorem stored_of_mem {db : Database} {key : Except Raised Value} {directory : String}
    (member : key ∈ keysIn db directory) : Stored db key :=
  ⟨directory, listed_of_mem member, member⟩

/-! ## Classes that are only named -/

/-- Every class has the IRI that the engine makes of its name. -/
def NamedOnly (view : List (String × String)) : Prop :=
  ∀ entry ∈ view, entry.1 = syntheticIri entry.2

theorem mem_defined {view : List (String × String)} {entry : String × String}
    (member : entry ∈ view) (name : String) : entry ∈ defined view name := by
  rw [defined]
  split
  · exact List.mem_append_left _ member
  · exact member

theorem syntheticIri_inj {name other : String} (same : syntheticIri name = syntheticIri other) :
    name = other := by
  simpa [syntheticIri] using same

namespace NamedOnly

variable {view : List (String × String)} (named : NamedOnly view)
include named

theorem leads {name : String} (isName : IsName name) {entry : String × String}
    (found : CaracalDB.leads view name = some entry) : entry = (syntheticIri name, name) := by
  rcases Option.or_eq_some_iff.mp found with byIri | ⟨_, byName⟩
  · have same : entry.1 = name := by simpa using List.find?_some byIri
    have synthetic := named entry (List.mem_of_find?_eq_some byIri)
    exact absurd (same.symm.trans synthetic) (localOf_ne_synthetic isName.2)
  · have same : entry.2 = name := by simpa using List.find?_some byName
    have synthetic := named entry (List.mem_of_find?_eq_some byName)
    exact Prod.ext (synthetic.trans (congrArg syntheticIri same)) same

theorem leads_of_mem {name : String} (isName : IsName name)
    (member : (syntheticIri name, name) ∈ view) :
    CaracalDB.leads view name = some (syntheticIri name, name) := by
  cases found : CaracalDB.leads view name with
  | some entry => rw [named.leads isName found]
  | none =>
    have unnamed := List.find?_eq_none.mp (Option.or_eq_none_iff.mp found).2 _ member
    simp at unnamed

theorem define (name : String) :
    NamedOnly (defined view name) ∧ (syntheticIri name, name) ∈ defined view name := by
  rw [defined]
  by_cases nothing : (iriEntry view (syntheticIri name)).or (nameEntry view name) = none
  · rw [if_pos nothing]
    refine ⟨fun entry member => ?_, List.mem_append_right view (List.mem_singleton_self _)⟩
    rcases List.mem_append.mp member with known | new
    · exact named entry known
    · rw [List.mem_singleton.mp new]
  · rw [if_neg nothing]
    refine ⟨named, ?_⟩
    obtain ⟨entry, found⟩ := Option.ne_none_iff_exists'.mp nothing
    have isEntry : entry = (syntheticIri name, name) ∧ entry ∈ view := by
      rcases Option.or_eq_some_iff.mp found with byIri | ⟨_, byName⟩
      · have member := List.mem_of_find?_eq_some byIri
        have same : entry.1 = syntheticIri name := by simpa using List.find?_some byIri
        exact ⟨Prod.ext same (syntheticIri_inj ((named entry member).symm.trans same)), member⟩
      · have member := List.mem_of_find?_eq_some byName
        have same : entry.2 = name := by simpa using List.find?_some byName
        exact ⟨Prod.ext ((named entry member).trans (congrArg syntheticIri same)) same, member⟩
    exact isEntry.1 ▸ isEntry.2

/-- A class lies in the directory of its name. -/
theorem directory {name : String} (isName : IsName name) : directoryOf view name = name := by
  obtain ⟨still, member⟩ := named.define name
  exact directoryOf_eq (still.leads_of_mem isName member)

end NamedOnly

/-! ## Stores in which nodes can be looked up -/

/-- Columns and rows in which nodes can be looked up: they have keys and ids. -/
structure Findable (names : List String) (rows : List Row) : Prop where
  keyed : "node_id" ∈ names
  numbered : INTERNAL_GID_COLUMN ∈ names
  ids : ∀ row ∈ rows, ∃ gid, row.read INTERNAL_GID_COLUMN = .int gid

/-- The store of a class that is only named. -/
structure IsShelf (view : List (String × String)) (name : String) (store : NodeStore) : Prop where
  member : (syntheticIri name, name) ∈ view
  isName : IsName name
  proper : isLocalName name = true
  iri : store.iri = syntheticIri name
  findable : Findable store.names (store.rows.map StoredRow.values)

theorem IsShelf.define {view : List (String × String)} {name : String} {store : NodeStore}
    (shelf : IsShelf view name store) (other : String) : IsShelf (defined view other) name store :=
  { shelf with member := mem_defined shelf.member other }

/-- A store to which a table is added in which nodes can be looked up. -/
theorem IsShelf.push {view : List (String × String)} {name : String} {store : NodeStore}
    {table : Table} (member : (syntheticIri name, name) ∈ view) (isName : IsName name)
    (proper : isLocalName name = true) (iri : store.iri = syntheticIri name)
    (known : ∀ row ∈ store.rows.map StoredRow.values, ∃ gid,
      row.read INTERNAL_GID_COLUMN = .int gid)
    (findable : Findable table.names table.rows) (lsn : Nat) (accepts : store.Accepts table) :
    IsShelf view name (store.push table lsn accepts) where
  member := member
  isName := isName
  proper := proper
  iri := iri
  findable := by
    have names : (store.push table lsn accepts).names = table.names := by
      show (store.fieldsAfter table).map Field.name = _
      rw [accepts.fields]
      rfl
    refine ⟨names ▸ findable.keyed, names ▸ findable.numbered, fun row inside => ?_⟩
    rw [Store.rows_push, List.map_append, Store.chunkOf_map_values] at inside
    rcases List.mem_append.mp inside with old | new
    · exact known row old
    · exact findable.ids row new

/-- Classes are only named, and each store is the one of a class. -/
structure Shelved (db : Database) : Prop where
  named : NamedOnly db.catalog.classes.view
  shelf : ∀ name store, db.nodes.get? name = some store →
    IsShelf db.catalog.classes.view name store

/-- What creating a store leaves: the stores that were there, and an empty one if there was none. -/
theorem createNodes_stores {iri name : String} {db after : Database}
    (done : Call.run (createNodes iri name) db = (.ok (), after)) :
    isLocalName name = true ∧ after.catalog = db.catalog ∧
      after.external_id_map_cache = db.external_id_map_cache ∧
      ∀ other store, after.nodes.get? other = some store →
        db.nodes.get? other = some store ∧ (other = name → store.iri = iri) ∨
          other = name ∧ store = Store.create iri := by
  rw [createNodes, Call.run_attempt, nodeStoreOf, assertLocalName] at done
  by_cases proper : isLocalName name = true
  · rw [if_pos proper] at done
    cases found : db.nodes.get? name with
    | none =>
      simp only [found] at done
      obtain ⟨_, rfl⟩ := Prod.mk.inj done
      refine ⟨proper, rfl, rfl, fun other store stored => ?_⟩
      rw [Dict.get_set] at stored
      split at stored
      · next same => exact .inr ⟨same, (Option.some.inj stored).symm⟩
      · next different => exact .inl ⟨stored, fun same => absurd same different⟩
    | some known =>
      by_cases same : known.iri = iri
      · simp only [found, if_pos same] at done
        obtain ⟨_, rfl⟩ := Prod.mk.inj done
        refine ⟨proper, rfl, rfl, fun other store stored => .inl ⟨stored, ?_⟩⟩
        rintro rfl
        rw [found] at stored
        exact Option.some.inj stored ▸ same
      · simp only [found, if_neg same, raiseCaracal] at done
        cases done
  · rw [if_neg proper] at done
    cases done

/-- Storing a class keeps the stores in order and leaves no map of ids. -/
theorem storeClass_shelved {class_name : String} {made : Except Raised Table}
    {refs answer : Dict String ChunkRef} {db after : Database} (isName : IsName class_name)
    (shelved : Shelved db) (findable : ∀ table, made = .ok table → Findable table.names table.rows)
    (done : Call.run (storeClass class_name made refs) db = (.ok answer, after)) :
    Shelved after ∧ after.external_id_map_cache = Dict.empty := by
  obtain ⟨_, _, defines, done⟩ := Call.run_bind_returns done
  rw [defineClass_run] at defines
  cases defines
  obtain ⟨table, _, makes, done⟩ := Call.run_bind_returns done
  rw [Call.run_ofExcept] at makes
  obtain ⟨isTable, rfl⟩ := Prod.mk.inj makes
  obtain ⟨ref, inserted, inserts, done⟩ := Call.run_bind_returns done
  cases done
  obtain ⟨_, _, first, inserts⟩ := Call.run_bind_returns inserts
  rw [Call.run_ofExcept] at first
  obtain ⟨_, rfl⟩ := Prod.mk.inj first
  obtain ⟨cls, _, found, inserts⟩ := Call.run_bind_returns inserts
  rw [Call.run_ask] at found
  obtain ⟨isClass, rfl⟩ := Prod.mk.inj found
  obtain ⟨_, created, creates, inserts⟩ := Call.run_bind_returns inserts
  obtain ⟨_, appended, appends, inserts⟩ := Call.run_bind_returns inserts
  obtain ⟨proper, sameCatalog, _, stores⟩ := createNodes_stores creates
  -- the class is the one that was named, and lies under its name
  have view : (db.withClass class_name).catalog.classes.view =
      defined db.catalog.classes.view class_name := Catalog.view_define_class _ isName
  obtain ⟨named, member⟩ := shelved.named.define class_name
  have leads := Registry.find_ok isClass
  rw [view] at leads
  obtain ⟨iri, name⟩ := Prod.mk.inj (named.leads isName leads)
  rw [appendNodes_run] at appends
  cases happened : appendNodesAt created.tick cls.localName table with
  | error raised =>
    rw [happened] at appends
    cases appends
  | ok pushed =>
    rw [happened] at appends
    cases appends
    obtain ⟨store, stored, _, _, accepts, same⟩ := appendNodesAt_ok happened
    obtain ⟨_, _, invalidates, inserts⟩ := Call.run_bind_returns inserts
    cases invalidates
    obtain ⟨_, _, coerces, inserts⟩ := Call.run_bind_returns inserts
    rw [Call.run_ofExcept] at coerces
    obtain ⟨_, rfl⟩ := Prod.mk.inj coerces
    cases inserts
    refine ⟨⟨?_, ?_⟩, rfl⟩
    · show NamedOnly pushed.2.catalog.classes.view
      rw [same]
      show NamedOnly created.catalog.classes.view
      rw [sameCatalog, view]
      exact named
    · intro other kept found
      show IsShelf pushed.2.catalog.classes.view other kept
      have isView : pushed.2.catalog.classes.view = defined db.catalog.classes.view class_name := by
        rw [same]
        show created.catalog.classes.view = _
        rw [sameCatalog, view]
      rw [isView]
      rw [same, Dict.get_set] at found
      split at found
      · next here =>
        rw [← Option.some.inj found, here, name]
        have leadsTo := stores cls.localName store stored
        refine IsShelf.push member isName (name ▸ proper) ?_ ?_ (findable table isTable) _ accepts
        · rcases leadsTo with ⟨_, known⟩ | ⟨_, empty⟩
          · rw [known rfl, iri]
          · rw [empty, ← iri]
            rfl
        · rcases leadsTo with ⟨known, _⟩ | ⟨_, empty⟩
          · exact (shelved.shelf _ _ known).findable.ids
          · rw [empty]
            exact fun _ absurdity => absurd absurdity List.not_mem_nil
      · next different =>
        rcases stores other kept found with ⟨known, _⟩ | ⟨here, _⟩
        · exact (shelved.shelf other kept known).define class_name
        · exact absurd here different

/-! ## Node tables -/

/-- A row of a node table as it is stored: with an id. -/
def WithId (out row : Row) : Prop := ∃ gid : Int, out = row.set INTERNAL_GID_COLUMN (.int gid)

/-- A row that makes a node that can be looked up. -/
structure Ready (row : Row) : Prop where
  keyed : "node_id" ∈ row.keys
  plain : (row.read "node_id").Plain
  numbered : INTERNAL_GID_COLUMN ∈ row.keys
  id : ∃ gid, row.read INTERNAL_GID_COLUMN = .int gid

theorem WithId.nodeKey {out row : Row} (numbered : WithId out row) : nodeKey out = nodeKey row := by
  obtain ⟨gid, rfl⟩ := numbered
  rw [Database.nodeKey, Row.read_set, if_neg (by decide)]
  rfl

theorem WithId.ready {out row : Row} (numbered : WithId out row) (keyed : "node_id" ∈ row.keys)
    (plain : (row.read "node_id").Plain) : Ready out := by
  obtain ⟨gid, rfl⟩ := numbered
  refine ⟨(Dict.mem_keys_set _ _ _ _).mpr (.inr keyed), ?_,
    (Dict.mem_keys_set _ _ _ _).mpr (.inl rfl), gid, ?_⟩
  · rw [Row.read_set, if_neg (by decide)]
    exact plain
  · rw [Row.read_set, if_pos rfl]

/-- A table made of rows with plain keys and ids has their keys. -/
theorem from_pylist_findable {runtime : Runtime} (lawful : runtime.Lawful) {rows : List Row}
    {table : Table} (made : runtime.from_pylist rows = .ok table) (nonempty : rows ≠ [])
    (ready : ∀ row ∈ rows, Ready row) :
    Findable table.names table.rows ∧ table.rows.map nodeKey = rows.map nodeKey := by
  obtain ⟨first, rest, rfl⟩ := List.exists_cons_of_ne_nil nonempty
  have names : table.names = first.keys := Runtime.from_pylist_names made
  have firstReady := ready first List.mem_cons_self
  constructor
  · refine ⟨names ▸ firstReady.keyed, names ▸ firstReady.numbered, fun row member => ?_⟩
    obtain ⟨type, back, inferred, reads⟩ := Runtime.from_pylist_column made firstReady.numbered
    have integers := lawful.integers _ type back (fun value inside => by
      obtain ⟨given, isGiven, rfl⟩ := List.mem_map.mp inside
      exact .inr (ready given isGiven).id) inferred
    have column := reads (by rw [integers, List.length_map])
    have inside : row.read INTERNAL_GID_COLUMN ∈ table.rows.map (Row.read · INTERNAL_GID_COLUMN) :=
      List.mem_map_of_mem member
    rw [column, integers] at inside
    obtain ⟨given, isGiven, same⟩ := List.mem_map.mp inside
    exact same ▸ (ready given isGiven).id
  · obtain ⟨type, back, inferred, reads⟩ := Runtime.from_pylist_column made firstReady.keyed
    have equal := lawful.equal _ type back (fun value inside => by
      obtain ⟨given, isGiven, rfl⟩ := List.mem_map.mp inside
      exact (ready given isGiven).plain) inferred
    have length : back.length = (first :: rest).length := by
      have lengths := congrArg List.length equal
      rwa [List.length_map, List.length_map, List.length_map] at lengths
    have keys : ∀ rows : List Row,
        rows.map nodeKey = (rows.map (Row.read · "node_id")).map Value.hashed := by
      intro rows
      rw [List.map_map]
      rfl
    rw [keys, keys, reads length, equal]

/-- Storing groups keeps the stores in order and, if there is a group, leaves no map of ids. -/
theorem storeGroups_shelved {runtime : Runtime} (lawful : runtime.Lawful)
    (groups : List (String × List Row)) (names : ∀ group ∈ groups, IsName group.1)
    (ready : ∀ group ∈ groups, group.2 ≠ [] ∧ ∀ row ∈ group.2, Ready row)
    {refs answer : Dict String ChunkRef} {db after : Database} (shelved : Shelved db)
    (done : Call.run (groups.foldlM (storeGroup runtime) refs) db = (.ok answer, after)) :
    Shelved after ∧ (groups ≠ [] → after.external_id_map_cache = Dict.empty) := by
  induction groups generalizing refs db with
  | nil =>
    cases done
    exact ⟨shelved, fun absurdity => absurd rfl absurdity⟩
  | cons group groups inductionHypothesis =>
    rw [List.foldlM_cons] at done
    obtain ⟨_, stored, stores, done⟩ := Call.run_bind_returns done
    obtain ⟨nonempty, rows⟩ := ready group List.mem_cons_self
    obtain ⟨still, emptied⟩ := storeClass_shelved (names group List.mem_cons_self) shelved
      (fun table made => (from_pylist_findable lawful made nonempty rows).1) stores
    obtain ⟨later, laterEmptied⟩ := inductionHypothesis (List.forall_mem_cons.mp names).2
      (List.forall_mem_cons.mp ready).2 still done
    refine ⟨later, fun _ => ?_⟩
    cases groups with
    | nil =>
      cases done
      exact emptied
    | cons => exact laterEmptied (List.cons_ne_nil _ _)

/-- The class that a row of a node table names. -/
structure Classed (key_col type_col : String) (row : Row) : Prop where
  isName : IsName (classOf type_col row)
  isLocal : classOf type_col row = localOf (row.read type_col).toText
  hashes : ∃ key, (row.read key_col).hashed = .ok key

theorem assignRow_files {key_col type_col : String} {row : Row} {state next : Numbering × Groups}
    {db after : Database}
    (done : Call.run (assignRow key_col type_col state row) db = (.ok next, after)) :
    (after.catalog = db.catalog ∧ after.nodes = db.nodes) ∧ Classed key_col type_col row ∧
      ∃ out, WithId out row ∧ next.2 = Dict.file state.2 (classOf type_col row, out) := by
  obtain ⟨⟨numbering, gid⟩, assigned, assigns, done⟩ := Call.run_bind_returns done
  obtain ⟨key, _, hashes, assigns⟩ := Call.run_bind_returns assigns
  rw [Call.run_ofExcept] at hashes
  obtain ⟨hashed, rfl⟩ := Prod.mk.inj hashes
  obtain ⟨_, _, remembers, assigns⟩ := Call.run_bind_returns assigns
  cases remembers
  obtain ⟨_, rfl⟩ := Prod.mk.inj assigns
  obtain ⟨name, _, coerces, done⟩ := Call.run_bind_returns done
  rw [Call.run_ofExcept] at coerces
  obtain ⟨coerced, rfl⟩ := Prod.mk.inj coerces
  obtain ⟨same, rfl⟩ := Prod.mk.inj done
  have isClass : classOf type_col row = name := by rw [classOf, coerced]
  have isLocal : name = localOf (row.read type_col).toText := by
    rw [coerceLocalName] at coerced
    split at coerced
    · cases coerced
    · split at coerced
      · cases coerced
      · exact (Except.ok.inj coerced).symm
  rw [← Except.ok.inj same]
  exact ⟨⟨rfl, rfl⟩, ⟨isClass ▸ coerceLocalName_isName coerced, isClass.trans isLocal, key, hashed⟩,
    _, ⟨gid, rfl⟩, by rw [isClass]; rfl⟩

theorem assignRows_file {key_col type_col : String} (payload : List Row)
    {state last : Numbering × Groups} {db after : Database}
    (done : Call.run (payload.foldlM (assignRow key_col type_col) state) db = (.ok last, after)) :
    (after.catalog = db.catalog ∧ after.nodes = db.nodes) ∧
      (∀ row ∈ payload, Classed key_col type_col row) ∧ ∃ outs : List (String × Row),
        List.Forall₂ (fun out row => out.1 = classOf type_col row ∧ WithId out.2 row) outs payload ∧
        last.2 = outs.foldl Dict.file state.2 := by
  induction payload generalizing state db with
  | nil =>
    cases done
    exact ⟨⟨rfl, rfl⟩, fun _ absurdity => absurd absurdity List.not_mem_nil, [], .nil, rfl⟩
  | cons row payload inductionHypothesis =>
    rw [List.foldlM_cons] at done
    obtain ⟨next, middle, first, done⟩ := Call.run_bind_returns done
    obtain ⟨⟨catalog, nodes⟩, classed, out, numbered, filed⟩ := assignRow_files first
    obtain ⟨⟨laterCatalog, laterNodes⟩, laterClassed, outs, alike, grouped⟩ :=
      inductionHypothesis done
    refine ⟨⟨laterCatalog.trans catalog, laterNodes.trans nodes⟩,
      List.forall_mem_cons.mpr ⟨classed, laterClassed⟩, (classOf type_col row, out) :: outs,
      .cons ⟨rfl, numbered⟩ alike, ?_⟩
    rw [grouped, filed]
    rfl

/-- The group of a name among groups with different names. -/
theorem flatMap_groupsAt {Item Made : Type} (groups : List (String × Item))
    (distinct : (groups.map Prod.fst).Nodup) (name : String) (make : Item → List Made) :
    ((groupsAt id name groups).flatMap fun group => make group.2) =
      (((groups.find? fun group => group.1 = name).map Prod.snd).map make).getD [] := by
  induction groups with
  | nil => rfl
  | cons group groups inductionHypothesis =>
    rw [List.map_cons, List.nodup_cons] at distinct
    rw [groupsAt, List.filter_cons, ← groupsAt, List.find?_cons]
    by_cases here : group.1 = name
    · have none : groupsAt id name groups = [] := by
        rw [groupsAt, List.filter_eq_nil_iff]
        intro other member same
        have isName : other.1 = name := by simpa using same
        exact distinct.1 (here.trans isName.symm ▸ List.mem_map_of_mem member)
      simp [here, none]
    · simp [here, inductionHypothesis distinct.2]

/-- What is filed in one group. -/
theorem file_group {Item : Type} {outs : List (String × Item)} {group : String × List Item}
    (member : group ∈ (outs.foldl Dict.file Dict.empty).entries) :
    group.2 = (outs.filter fun out => out.1 = group.1).map Prod.snd ∧ group.2 ≠ [] := by
  have whole : group.2 = (outs.filter fun out => out.1 = group.1).map Prod.snd := by
    have filed := Dict.filed_under outs group.1
    rwa [(Dict.get_eq_some _ group.1 group.2).mpr member] at filed
  refine ⟨whole, fun empty => ?_⟩
  obtain ⟨out, inside, same⟩ := Dict.mem_keys_file (List.mem_map_of_mem (f := Prod.fst) member)
  have isOut : out.2 ∈ group.2 :=
    whole ▸ List.mem_map_of_mem (List.mem_filter.mpr ⟨inside, decide_eq_true same⟩)
  rw [empty] at isOut
  cases isOut

/-- The keys of the rows filed under a class. -/
theorem filed_keys {outs : List (String × Row)} {payload : List Row} {type_col : String}
    (alike : List.Forall₂ (fun out row => out.1 = classOf type_col row ∧ WithId out.2 row) outs
      payload) (directory : String) :
    ((outs.filter fun out => out.1 = directory).map Prod.snd).map nodeKey =
      (payload.filter fun row => classOf type_col row = directory).map nodeKey := by
  induction alike with
  | nil => rfl
  | @cons out row outs payload both _ inductionHypothesis =>
    rw [List.filter_cons, List.filter_cons, both.1]
    by_cases here : classOf type_col row = directory
    · rw [if_pos (decide_eq_true here), if_pos (decide_eq_true here), List.map_cons, List.map_cons,
        List.map_cons, inductionHypothesis, both.2.nodeKey]
    · rw [if_neg (by simpa using here), if_neg (by simpa using here), inductionHypothesis]

/-- A node table that is inserted adds its keys, class by class. -/
theorem insertNodeTable_keys {runtime : Runtime} (lawful : runtime.Lawful) {payload : List Row}
    {refs : Dict String ChunkRef} {db after : Database} (shelved : Shelved db)
    (plain : ∀ row ∈ payload, (row.read "node_id").Plain)
    (done : Call.run (insertNodeTable runtime payload "node_id" "type") db = (.ok refs, after)) :
    (Shelved after ∧ after.external_id_map_cache = Dict.empty) ∧
      (∀ row ∈ payload, Classed "node_id" "type" row) ∧ ∀ directory, keysIn after directory =
        keysIn db directory ++
          (payload.filter fun row => classOf "type" row = directory).map nodeKey := by
  obtain ⟨nonempty, checked, cached, numbered, _, ⟨_, grouped⟩, kept, assigns, done⟩ :=
    insertNodeTable_parts done
  obtain ⟨⟨catalog, nodes⟩, classed, outs, alike, rfl⟩ := assignRows_file payload assigns
  rw [kept.1] at catalog
  rw [kept.2.1] at nodes
  have keyed : ∀ row ∈ payload, "node_id" ∈ row.keys := by
    intro row member
    obtain ⟨_, required, _⟩ := except_bind_ok (checked row member)
    have present := refuse_ok required
    simp only [ne_eq, not_not, List.filter_eq_nil_iff] at present
    simpa using present "node_id" List.mem_cons_self
  have isOut : ∀ out ∈ outs, ∃ row ∈ payload, out.1 = classOf "type" row ∧ WithId out.2 row := by
    intro out member
    obtain ⟨index, inside, rfl⟩ := List.mem_iff_getElem.mp member
    have both := alike.get inside (alike.length_eq ▸ inside)
    exact ⟨_, List.get_mem payload _, both⟩
  have groupNames : ∀ group ∈ (outs.foldl Dict.file Dict.empty).entries, IsName group.1 := by
    intro group member
    obtain ⟨out, inside, same⟩ := Dict.mem_keys_file (List.mem_map_of_mem (f := Prod.fst) member)
    obtain ⟨row, isRow, isClass, _⟩ := isOut out inside
    exact same ▸ isClass ▸ (classed row isRow).isName
  have ready : ∀ group ∈ (outs.foldl Dict.file Dict.empty).entries,
      group.2 ≠ [] ∧ ∀ row ∈ group.2, Ready row := by
    intro group member
    obtain ⟨whole, filled⟩ := file_group member
    refine ⟨filled, fun out inside => ?_⟩
    rw [whole] at inside
    obtain ⟨pair, isPair, rfl⟩ := List.mem_map.mp inside
    obtain ⟨row, isRow, _, numbered⟩ := isOut pair (List.mem_of_mem_filter isPair)
    exact numbered.ready (keyed row isRow) (plain row isRow)
  have filled : (outs.foldl Dict.file Dict.empty).entries ≠ [] := by
    obtain ⟨row, rest, rfl⟩ := List.exists_cons_of_ne_nil nonempty
    cases alike with
    | @cons out _ outs _ _ _ =>
      intro none
      have absent : (Dict.get? ((out :: outs).foldl Dict.file Dict.empty) out.1).getD [] = [] := by
        rw [Dict.get?, none]
        rfl
      rw [Dict.filed_under] at absent
      simp at absent
  have before : Shelved numbered := ⟨catalog ▸ shelved.named, catalog ▸ nodes ▸ shelved.shelf⟩
  obtain ⟨still, emptied⟩ := storeGroups_shelved lawful _ groupNames ready before done
  obtain ⟨_, _, made, values⟩ := storeGroups_ok runtime _ groupNames
    (outs.foldl Dict.file Dict.empty).distinct done
  refine ⟨⟨still, emptied filled⟩, classed, fun directory => ?_⟩
  have sameDirectories : groupsAt (directoryOf numbered.catalog.classes.view) directory
      (outs.foldl Dict.file Dict.empty).entries =
        groupsAt id directory (outs.foldl Dict.file Dict.empty).entries := by
    refine List.filter_congr fun group member => ?_
    rw [before.named.directory (groupNames group member)]
    rfl
  have sameKeys : ∀ group ∈ groupsAt id directory (outs.foldl Dict.file Dict.empty).entries,
      (rowsOf (runtime.from_pylist group.2)).map nodeKey = group.2.map nodeKey := by
    intro group member
    have inside := List.mem_of_mem_filter member
    obtain ⟨table, isTable⟩ := made group inside
    rw [isTable, rowsOf]
    exact (from_pylist_findable lawful isTable (ready group inside).1 (ready group inside).2).2
  rw [keysIn, keysIn, values, nodes, sameDirectories, List.map_append, List.map_flatMap,
    List.flatMap_congr sameKeys,
    flatMap_groupsAt _ (outs.foldl Dict.file Dict.empty).distinct directory
      fun rows : List Row => rows.map nodeKey, ← filed_keys alike, ← Dict.filed_under, Dict.get?]
  congr 1
  cases List.find? (fun group => decide (group.1 = directory))
    (outs.foldl Dict.file Dict.empty).entries <;> rfl

/-! ## The map of ids -/

theorem read_publicRow (row : StoredRow) {name : String} (other : name ≠ NID_COLUMN) :
    Row.read (Store.publicRow NID_COLUMN row) name = row.values.read name := by
  rw [Row.read, Store.publicRow, Dict.get_update, Dict.get_set_of_ne _ other, Dict.get_empty,
    Option.or_none]
  rfl

/-- The ids of rows are filed under their keys. -/
theorem fileIds_keys {runtime : Runtime} (rows : List StoredRow) {ids last : IdMap}
    (done : rows.foldlM (fileIds runtime "node_id") ids = .ok last) (key : Value) :
    last.contains key = true ↔
      ids.contains key = true ∨ .ok key ∈ (rows.map StoredRow.values).map nodeKey := by
  induction rows generalizing ids with
  | nil =>
    cases done
    simp
  | cons row rows inductionHypothesis =>
    rw [List.foldlM_cons] at done
    obtain ⟨next, first, done⟩ := except_bind_ok done
    obtain ⟨gid, _, first⟩ := except_bind_ok first
    obtain ⟨filed, hashes, first⟩ := except_bind_ok first
    rw [read_publicRow row (by decide)] at hashes
    have isKey : nodeKey row.values = .ok filed := hashes
    rw [inductionHypothesis done, ← Except.ok.inj first, Dict.contains_iff, Dict.mem_keys_set,
      ← Dict.contains_iff, List.map_cons, List.map_cons, List.mem_cons, isKey, Except.ok.injEq]
    tauto

/-- What the classes that are only named are found as. -/
theorem Shelved.find {db : Database} (shelved : Shelved db) {name : String} {store : NodeStore}
    (stored : db.nodes.get? name = some store) :
    ∃ cls, db.catalog.find_class name = .ok cls ∧ cls.localName = name ∧
      db.openNodes cls.iri cls.localName = .ok store ∧
      "node_id" ∈ store.column_names ∧ INTERNAL_GID_COLUMN ∈ store.column_names := by
  have shelf := shelved.shelf name store stored
  obtain ⟨cls, found, iri, isLocal⟩ := Registry.find_of_leads "class"
    (shelved.named.leads_of_mem shelf.isName shelf.member)
  refine ⟨cls, found, isLocal, ?_, List.mem_cons_of_mem _ shelf.findable.keyed,
    List.mem_cons_of_mem _ shelf.findable.numbered⟩
  rw [openNodes, nodeStoreOf, isLocal, assertLocalName, if_pos shelf.proper]
  simp only [stored, iri, shelf.iri, if_true]

theorem fileStore_keys {runtime : Runtime} {db : Database} (shelved : Shelved db)
    {ids last : IdMap} {name : String} (listed : name ∈ db.nodes.keys)
    (done : fileStore runtime "node_id" db ids name = .ok last) (key : Value) :
    last.contains key = true ↔ ids.contains key = true ∨ .ok key ∈ keysIn db name := by
  obtain ⟨store, stored⟩ := (Dict.mem_keys _ _).mp listed
  obtain ⟨cls, found, _, opened, columns⟩ := shelved.find stored
  obtain ⟨_, isClass, done⟩ := except_bind_ok done
  cases Except.ok.inj (found.symm.trans isClass)
  obtain ⟨_, isStore, done⟩ := except_bind_ok done
  cases Except.ok.inj (opened.symm.trans isStore)
  rw [if_pos columns] at done
  rw [fileIds_keys _ done, keysIn, valuesIn, rowsIn, stored]

theorem fileStores_keys {runtime : Runtime} {db : Database} (shelved : Shelved db)
    (names : List String) (listed : ∀ name ∈ names, name ∈ db.nodes.keys) {ids last : IdMap}
    (done : names.foldlM (fileStore runtime "node_id" db) ids = .ok last) (key : Value) :
    last.contains key = true ↔
      ids.contains key = true ∨ ∃ name ∈ names, .ok key ∈ keysIn db name := by
  induction names generalizing ids with
  | nil =>
    cases done
    simp
  | cons name names inductionHypothesis =>
    rw [List.foldlM_cons] at done
    obtain ⟨next, first, done⟩ := except_bind_ok done
    rw [inductionHypothesis (List.forall_mem_cons.mp listed).2 done,
      fileStore_keys shelved (List.forall_mem_cons.mp listed).1 first, or_assoc]
    simp only [List.mem_cons, exists_eq_or_imp]

/-- A map of ids has exactly the keys that are stored. -/
def Complete (db : Database) (ids : IdMap) : Prop :=
  ∀ key, ids.contains key = true ↔ Stored db (.ok key)

/-- The stores are in order, and so is the map of ids that the handle caches. -/
structure InOrder (db : Database) : Prop where
  shelved : Shelved db
  cached : ∀ ids, db.external_id_map_cache.get? "node_id" = some ids → Complete db ids

theorem InOrder.idMap {runtime : Runtime} {db : Database} (inOrder : InOrder db) {ids : IdMap}
    (found : idMap runtime "node_id" db = .ok ids) : Complete db ids := by
  rw [Database.idMap] at found
  cases cached : db.external_id_map_cache.get? "node_id" with
  | some known =>
    rw [cached] at found
    rw [← Except.ok.inj found]
    exact inOrder.cached known cached
  | none =>
    rw [cached] at found
    intro key
    have listed : ∀ name ∈ db.list_node_stores, name ∈ db.nodes.keys :=
      fun name member => (mem_sortedNames _ _).mp member
    rw [fileStores_keys inOrder.shelved _ listed found]
    constructor
    · rintro (absurdity | ⟨name, member, inside⟩)
      · cases absurdity
      · exact ⟨name, listed name member, inside⟩
    · rintro ⟨name, member, inside⟩
      exact .inr ⟨name, (mem_sortedNames _ _).mpr member, inside⟩

/-- Asking for the map of ids answers the keys stored and keeps everything in order. -/
theorem InOrder.externalIdMap {runtime : Runtime} {db after : Database} (inOrder : InOrder db)
    {ids : IdMap} (done : Call.run (externalIdMap runtime "node_id") db = (.ok ids, after)) :
    InOrder after ∧ (∀ directory, keysIn after directory = keysIn db directory) ∧
      Complete db ids ∧ Database.idMap runtime "node_id" db = .ok ids := by
  rw [Database.externalIdMap, Call.run_attempt] at done
  cases found : Database.idMap runtime "node_id" db with
  | error raised =>
    rw [found] at done
    cases done
  | ok known =>
    rw [found] at done
    cases done
    have complete := inOrder.idMap found
    refine ⟨⟨⟨inOrder.shelved.named, inOrder.shelved.shelf⟩, fun other cached => ?_⟩, fun _ => rfl,
      complete, rfl⟩
    rw [remember] at cached
    rw [Dict.get_set_self] at cached
    rw [← Option.some.inj cached]
    exact complete

/-! ## Edge tables -/

/-- Neither the nodes nor the classes nor the cached ids changed. -/
def EdgesOnly (db after : Database) : Prop :=
  after.nodes = db.nodes ∧ after.catalog.classes = db.catalog.classes ∧
    after.external_id_map_cache = db.external_id_map_cache

instance : IsPreorder Database EdgesOnly where
  refl _ := ⟨rfl, rfl, rfl⟩
  trans _ _ _ early late :=
    ⟨late.1.trans early.1, late.2.1.trans early.2.1, late.2.2.trans early.2.2⟩

theorem InOrder.edgesOnly {db after : Database} (inOrder : InOrder db) (only : EdgesOnly db after) :
    InOrder after ∧ ∀ directory, keysIn after directory = keysIn db directory := by
  obtain ⟨nodes, classes, cache⟩ := only
  have keys : ∀ directory, keysIn after directory = keysIn db directory := by
    intro directory
    rw [keysIn, keysIn, nodes]
  refine ⟨⟨⟨classes ▸ inOrder.shelved.named, classes ▸ nodes ▸ inOrder.shelved.shelf⟩, ?_⟩, keys⟩
  intro ids cached key
  rw [inOrder.cached ids (cache ▸ cached) key, Stored, Stored, nodes]
  simp only [keys]

theorem defineProperty_edgesOnly (name : String) (iri : Option String) :
    Call.Relates EdgesOnly (defineProperty name iri) := by
  intro db
  refine ⟨rfl, ?_, rfl⟩
  show (db.catalog.define_property name iri).2.classes = db.catalog.classes
  rw [Catalog.define_property]
  dsimp only
  split <;> rfl

theorem storeRelation_edgesOnly (name : String) (table : Except Raised Table)
    (repeated : List String) (refs : Dict String ChunkRef) :
    Call.Relates EdgesOnly (storeRelation name table repeated refs) := by
  refine Call.Relates.bind (defineProperty_edgesOnly _ _) fun prop => ?_
  refine Call.Relates.bind (Call.Relates.attempt ?_) fun _ => ?_
  · intro db _ after happens
    split at happens
    · cases happens
    · cases happens
      exact ⟨rfl, rfl, rfl⟩
    · cases happens
      exact ⟨rfl, rfl, rfl⟩
  refine Call.Relates.bind (Call.Relates.ofExcept _) fun table => ?_
  refine Call.Relates.bind (Call.Relates.bind (Call.Relates.change ?_) fun _ =>
    Call.Relates.attempt ?_) fun ref => ?_
  · exact fun db => ⟨rfl, rfl, rfl⟩
  · intro db _ after happens
    obtain ⟨_, _, _, _, _, same⟩ := appendEdgesAt_ok happens
    rw [same]
    exact ⟨rfl, rfl, rfl⟩
  · exact Call.Relates.bind (Call.Relates.change fun db => ⟨rfl, rfl, rfl⟩)
      fun _ => Call.Relates.pure _

/-- The ends of edges that were grouped have ids. -/
theorem groupEdges_resolve {ids : IdMap} (rows : List Row) {grouped last : Groups}
    (done : rows.foldlM (groupEdge ids {}) grouped = .ok last) :
    ∀ row ∈ rows, ∀ column ∈ ["src", "dst"], ∃ key,
      (row.read column).hashed = .ok key ∧ ids.contains key = true := by
  induction rows generalizing grouped with
  | nil => exact fun _ absurdity => absurd absurdity List.not_mem_nil
  | cons row rows inductionHypothesis =>
    rw [List.foldlM_cons] at done
    obtain ⟨next, first, done⟩ := except_bind_ok done
    refine List.forall_mem_cons.mpr ⟨?_, inductionHypothesis done⟩
    obtain ⟨_, resolves, _⟩ := except_bind_ok first
    obtain ⟨_, _, steps⟩ := except_bind_ok resolves
    obtain ⟨_, _, steps⟩ := except_bind_ok steps
    obtain ⟨_, _, steps⟩ := except_bind_ok steps
    obtain ⟨src, srcFound, steps⟩ := except_bind_ok steps
    obtain ⟨dst, dstFound, _⟩ := except_bind_ok steps
    have resolved : ∀ {value : Value} {column : String} {gid : Int},
        resolveNodeId ids value column = .ok gid →
          ∃ key, value.hashed = .ok key ∧ ids.contains key = true := by
      intro value column gid found
      obtain ⟨key, hashes, found⟩ := except_bind_ok found
      refine ⟨key, hashes, ?_⟩
      rw [Dict.contains]
      cases known : ids.get? key with
      | none =>
        rw [known] at found
        cases found
      | some _ => rfl
    intro column among
    rcases List.mem_cons.mp among with rfl | later
    · exact resolved srcFound
    · rw [List.mem_singleton.mp later]
      exact resolved dstFound

/-- Both ends of an edge are stored. -/
def EndsStored (db : Database) (edge : Row) : Prop :=
  ∀ column ∈ ["src", "dst"], ∃ key, (edge.read column).hashed = .ok key ∧ Stored db (.ok key)

/-- An edge table that is inserted adds no keys; the ends of its edges are stored. -/
theorem insertEdgeTable_keys {runtime : Runtime} {payload : List Row}
    {refs : Dict String ChunkRef} {db after : Database} (inOrder : InOrder db)
    (done : Call.run (insertEdgeTable runtime payload {}) db = (.ok refs, after)) :
    InOrder after ∧ (∀ directory, keysIn after directory = keysIn db directory) ∧
      ∀ edge ∈ payload, EndsStored db edge := by
  obtain ⟨_, _, nonempty, done⟩ := Call.run_bind_returns done
  rw [Call.run_ofExcept] at nonempty
  obtain ⟨_, rfl⟩ := Prod.mk.inj nonempty
  obtain ⟨ids, cached, caches, done⟩ := Call.run_bind_returns done
  obtain ⟨still, sameKeys, complete, _⟩ := inOrder.externalIdMap caches
  obtain ⟨grouped, _, groups, done⟩ := Call.run_bind_returns done
  rw [Call.run_ofExcept] at groups
  obtain ⟨resolves, rfl⟩ := Prod.mk.inj groups
  have only : EdgesOnly cached after := by
    have relates := Call.Relates.foldlM grouped.entries
      (fun refs group _ => storeRelation_edgesOnly group.1 (edgeTable runtime group.2) [] refs)
      Dict.empty cached
    have ends : (Call.run (grouped.entries.foldlM (storeEdges runtime) Dict.empty) cached).2 =
        after := by rw [done]
    exact ends ▸ relates
  obtain ⟨later, laterKeys⟩ := still.edgesOnly only
  refine ⟨later, fun directory => (laterKeys directory).trans (sameKeys directory), ?_⟩
  intro edge member column among
  obtain ⟨key, hashes, known⟩ := groupEdges_resolve payload resolves edge member column among
  exact ⟨key, hashes, (complete key).mp known⟩

theorem defineProperties_edgesOnly (property_iris : Dict String String) :
    Call.Relates EdgesOnly (defineProperties property_iris) :=
  Call.Relates.foldlM _ (fun _ _ _ =>
    Call.Relates.bind (defineProperty_edgesOnly _ _) fun _ => Call.Relates.pure _) _

/-! ## Graphs -/

theorem stored_iff_of_keys {db after : Database}
    (keys : ∀ directory, keysIn after directory = keysIn db directory)
    (key : Except Raised Value) : Stored after key ↔ Stored db key := by
  constructor
  · rintro ⟨directory, _, member⟩
    exact stored_of_mem (keys directory ▸ member)
  · rintro ⟨directory, _, member⟩
    exact stored_of_mem ((keys directory).symm ▸ member)

/-- Storing a graph adds the keys of its nodes, class by class; the ends of its edges are stored
then. -/
theorem storeGraph_keys {runtime : Runtime} (lawful : runtime.Lawful) {nodes edges : List Row}
    {property_iris : Dict String String} {refs : GraphRefs} {db after : Database}
    (inOrder : InOrder db) (plain : ∀ row ∈ nodes, (row.read "node_id").Plain)
    (done : Call.run (storeGraph runtime nodes edges property_iris) db = (.ok refs, after)) :
    InOrder after ∧ (∀ row ∈ nodes, Classed "node_id" "type" row) ∧
      (∀ directory, keysIn after directory = keysIn db directory ++
        (nodes.filter fun row => classOf "type" row = directory).map nodeKey) ∧
      ∀ edge ∈ edges, EndsStored after edge := by
  obtain ⟨nodeRefs, noded, inserts, done⟩ := Call.run_bind_returns done
  obtain ⟨⟨shelved, emptied⟩, classed, keys⟩ :=
    insertNodeTable_keys lawful inOrder.shelved plain inserts
  have still : InOrder noded := by
    refine ⟨shelved, fun ids cached => ?_⟩
    rw [emptied] at cached
    cases cached
  obtain ⟨_, defined, defines, done⟩ := Call.run_bind_returns done
  have only : EdgesOnly noded defined := by
    have relates := defineProperties_edgesOnly property_iris noded
    rwa [defines] at relates
  obtain ⟨later, laterKeys⟩ := still.edgesOnly only
  by_cases none : edges = []
  · rw [if_pos none] at done
    cases done
    refine ⟨later, classed, fun directory => (laterKeys directory).trans (keys directory), ?_⟩
    rw [none]
    exact fun _ absurdity => absurd absurdity List.not_mem_nil
  · rw [if_neg none] at done
    obtain ⟨edgeRefs, _, insertsEdges, ends⟩ := Call.run_bind_returns done
    cases ends
    obtain ⟨last, lastKeys, ended⟩ := insertEdgeTable_keys later insertsEdges
    refine ⟨last, classed, fun directory => (lastKeys directory).trans
      ((laterKeys directory).trans (keys directory)), ?_⟩
    intro edge member column among
    obtain ⟨key, hashes, known⟩ := ended edge member column among
    exact ⟨key, hashes, (stored_iff_of_keys lastKeys _).mpr known⟩

theorem inOrder_create (path : String) : InOrder (Database.create path) where
  shelved := ⟨fun _ absurdity => absurd absurdity List.not_mem_nil, fun _ _ absurdity => by
    cases absurdity⟩
  cached := fun _ absurdity => by cases absurdity

end CaracalDB.Database
