import CaracalDB.StoredKeys

/-!
# Runs of resource imports

A resource that is declared or referenced gets a node row from the call that names
it. Only the targets of a Neo4j object are compared with what is stored; triples and
the declared resources themselves are stored whether or not they are there already.
So a resource has one row, in the class that was declared for it, as long as no call
stores a row for an id that is stored.
-/

namespace CaracalDB.Database

/-! ## Looking a resource up -/

/-- `db.resource(...)` -/
structure ResourceRef where
  external_id : Value
  internal_id : Int
  display_iri : String
  iri : Value
  type : String

/-- `left == right` of a stored key and an id. -/
def keyEq (left right : Value) : Bool :=
  match left.hashed, right.hashed with
  | .ok first, .ok second => first = second && first ≠ .float "nan"
  | _, _ => left = right

/-- The row of a resource among those of one class. -/
def rowOfClass (db : Database) (external_id : Value) (key_col class_name : String) :
    Except Raised (Option Row) := do
  let cls ← db.catalog.find_class class_name
  let store ← db.openNodes cls.iri cls.localName
  if key_col ∈ store.column_names ∧ INTERNAL_GID_COLUMN ∈ store.column_names then
    return (store.to_pylist none).find? fun row => keyEq (row.read key_col) external_id
  else return none

/-- `_find_resource_row(db, external_id, key_col=...)` over the classes that are left. -/
def findResourceRow (db : Database) (external_id : Value) (key_col : String) :
    List String → Except Raised (Option (String × Row))
  | [] => .ok none
  | class_name :: class_names => do
      match ← rowOfClass db external_id key_col class_name with
      | some row => return some (class_name, row)
      | none => findResourceRow db external_id key_col class_names

/-- `quote(text, safe="/:@._~-")` -/
def quotePath (text : String) : String :=
  String.ofList (text.toList.flatMap fun char =>
    if char.isAlphanum || char ∈ "/:@._~-".toList then [char]
    else char.toString.toUTF8.toList.flatMap fun byte =>
      '%' :: (Nat.toDigits 16 (byte.toNat / 16) ++ Nat.toDigits 16 (byte.toNat % 16)).map
        Char.toUpper)

/-- `_display_resource_iri(value)` -/
def displayResourceIri (value : Value) : String :=
  "caracaldb://resource" ++ "/" ++ quotePath value.toText

/-- `db.resource(external_id, key_col=...)` -/
def resource (runtime : Runtime) (db : Database) (external_id : Value) (key_col : String) :
    Except Raised ResourceRef := do
  match ← findResourceRow db external_id key_col db.list_node_stores with
  | none => .error (.caracal
      { code := "CDB-7012"
        message := "resource not found for " ++ key_col ++ ": " ++ external_id.repr })
  | some (class_name, row) =>
      let internal_id ← runtime.toInt (row.read INTERNAL_GID_COLUMN)
      return {
        external_id
        internal_id
        display_iri := displayResourceIri external_id
        iri := row.read IRI_COLUMN
        type := class_name }

/-! ## Calls -/

/-- A call that imports resources. -/
inductive Import where
  | resource (obj : Row) (policy : String)
  | triples (payload : List Row) (columns : TripleColumns) (policy : String)

/-- The class that a value names. -/
def typeNamed (value : Value) : String := localOf value.toText

/-- The ids that a triple names as resources. -/
def tripleIds (columns : TripleColumns) (triple : Row) : List Value :=
  resourceId (triple.read columns.subject_col) ::
    match predicateName (triple.read columns.predicate_col) with
    | .error _ => []
    | .ok predicate =>
        if isRdfType (textOr (predicateIri (triple.read columns.predicate_col)) predicate) ||
          isLiteralObject (triple.read columns.object_col) then []
        else [resourceId (triple.read columns.object_col)]

/-- The values that triples give their subjects under a name. -/
def tripleValues (columns : TripleColumns) (name : String) (payload : List Row) :
    List (Value × Value) :=
  payload.filterMap fun triple => match tripleWrite columns triple with
    | some (column, value) =>
        if column = name then some (resourceId (triple.read columns.subject_col), value) else none
    | none => none

/-- The targets of a Neo4j object's relationships. -/
def relationTargets (obj : Row) : List Value :=
  match neo4jParts obj with
  | .error _ => []
  | .ok (_, relationships) => relationships.map Prod.snd

/-- The first label of a Neo4j object. -/
def firstLabel (obj : Row) : List Value :=
  match obj.read "labels" with
  | .list (label :: _) => [label]
  | _ => []

/-- The values among the properties of a Neo4j object under a name. -/
def propertyValues (obj : Row) (name : String) : List Value :=
  match obj.read "properties" with
  | .dict entries => (entries.filter fun entry => entry.1 = name).map Prod.snd
  | _ => []

/-- The id of an object that carries its IRI. -/
def iriKey (obj : Row) : Value :=
  (obj.read "node_id").orElse ((obj.read "id").orElse
    (.str ((obj.read "@id").orElse (obj.read "iri")).toText))

namespace Import

/-- `db.import_resource(obj, policy=...)`, `db.insert_triples(payload, ...)` -/
def call (runtime : Runtime) : Import → Method GraphRefs
  | .resource obj policy => importResource runtime obj policy
  | .triples payload columns policy => insertTriples runtime payload columns policy

/-- The ids that a call names as resources. -/
def mentions : Import → List Value
  | .resource obj _ => match resourceShape obj with
      | .neo4j => obj.read "id" :: relationTargets obj
      | .iri => [iriKey obj]
      | .triple => tripleIds {} (canonicalTriple obj)
      | .typed_node => [obj.read "node_id"]
      | .typed_edge => [obj.read "src", obj.read "dst"]
      | .unknown => []
  | .triples payload columns _ => payload.flatMap (tripleIds columns)

/-- The types that a call declares, in their order: by a label, by what is given as type or label
and by `rdf:type`. -/
def declares : Import → List (Value × Value)
  | .resource obj _ => match resourceShape obj with
      | .neo4j => (firstLabel obj ++ propertyValues obj "type").map fun type =>
          (obj.read "id", type)
      | .iri => (([obj.read "type", obj.read "label"].find? Value.truthy).toList).map fun type =>
          (iriKey obj, type)
      | .triple => tripleValues {} "type" [canonicalTriple obj]
      | .typed_node => [(obj.read "node_id", obj.read "type")]
      | .typed_edge | .unknown => []
  | .triples payload columns _ => tripleValues columns "type" payload

/-- The ids for which a call stores rows: all that it names, but of the targets of a Neo4j object
only those that are not stored, and none for an edge. -/
def adds (db : Database) : Import → List Value
  | .resource obj policy => match resourceShape obj with
      | .neo4j => obj.read "id" ::
          (relationTargets obj).filter fun target => ¬ Stored db target.hashed
      | .typed_edge => []
      | _ => (Import.resource obj policy).mentions
  | .triples payload columns policy => (Import.triples payload columns policy).mentions

/-- The values that a call gives resources under the name of the column of their ids. -/
def renames : Import → List (Value × Value)
  | .resource obj _ => match resourceShape obj with
      | .neo4j => (propertyValues obj "node_id").map fun value => (obj.read "id", value)
      | .triple => tripleValues {} "node_id" [canonicalTriple obj]
      | _ => []
  | .triples payload columns _ => tripleValues columns "node_id" payload

/-- A Neo4j object names itself and each target that is not stored once. -/
def Once (db : Database) : Import → Prop
  | .resource obj policy => resourceShape obj = .neo4j →
      ((adds db (.resource obj policy)).map Value.hashed).Nodup
  | .triples _ _ _ => True

/-- Every id for which the call stores a row is plain and new, and nothing replaces an id. -/
structure Fresh (db : Database) (call : Import) : Prop where
  new : ∀ id ∈ call.adds db, id.Plain ∧ ¬ Stored db id.hashed
  once : call.Once db
  kept : ∀ pair ∈ call.renames, pair.2.Plain ∧ pair.2.hashed = pair.1.hashed

end Import

instance (value : Value) : Decidable value.Plain :=
  match value with
  | .null | .bool _ | .int _ | .str _ => .isTrue trivial
  | .float text => inferInstanceAs (Decidable (text ≠ "nan"))
  | .other _ _ | .list _ | .dict _ => .isFalse id

/-- The type that was declared last for an id. -/
def lastType (declared : List (Value × Value)) (id : Value) : Option String :=
  ((declared.filter fun pair => pair.1.hashed = id.hashed).map fun pair =>
    typeNamed pair.2).getLast?

/-- A run of calls that return, on a new database; each is allowed in the state it finds. -/
inductive Imported (runtime : Runtime) (allowed : Database → Import → Prop) :
    List Import → Database → Prop
  | create (path : String) : Imported runtime allowed [] (Database.create path)
  | call {calls : List Import} {call : Import} {db after : Database} {refs : GraphRefs}
      (before : Imported runtime allowed calls db) (may : allowed db call)
      (returns : Call.run (call.call runtime) db = (.ok refs, after)) :
      Imported runtime allowed (calls ++ [call]) after

/-- One row, in one class, has the id. -/
def OneRow (db : Database) (id : Value) : Prop :=
  ∃ class_name, (keysIn db class_name).count id.hashed = 1 ∧
    ∀ other, other ≠ class_name → id.hashed ∉ keysIn db other

/-- Every id that is named has one row, and its type is the one that was declared last. -/
structure OnePerResource (runtime : Runtime) (calls : List Import) (db : Database) : Prop where
  one : ∀ id ∈ calls.flatMap Import.mentions, OneRow db id
  typed : ∀ id type, lastType (calls.flatMap Import.declares) id = some type →
    ∃ ref, resource runtime db id "node_id" = .ok ref ∧ ref.type = type

/-! ## What a run has stored -/

/-- A key that equals itself. -/
def Comparable (key : Except Raised Value) : Prop :=
  ∃ value, key = .ok value ∧ value ≠ .float "nan"

/-- Every key is stored once; the ids that were named are stored, and those with a declared type in
the class that was declared last. -/
structure Ledger (calls : List Import) (db : Database) : Prop where
  inOrder : InOrder db
  keyed : ∀ directory, ∀ key ∈ keysIn db directory, Comparable key
  distinct : ∀ directory, (keysIn db directory).Nodup
  apart : ∀ key directory other, key ∈ keysIn db directory → key ∈ keysIn db other →
    directory = other
  named : ∀ id ∈ calls.flatMap Import.mentions, ∃ key, id.hashed = .ok key ∧ Stored db (.ok key)
  typed : ∀ id type, lastType (calls.flatMap Import.declares) id = some type →
    id.hashed ∈ keysIn db type

/-- What a call adds: rows for ids that were not stored, of the types that it declares. -/
structure CallAdds (db after : Database) (call : Import) (rows : List Row) : Prop where
  inOrder : InOrder after
  keys : ∀ directory, keysIn after directory = keysIn db directory ++
    (rows.filter fun row => classOf "type" row = directory).map nodeKey
  keyed : ∀ row ∈ rows, Comparable (nodeKey row)
  distinct : (rows.map nodeKey).Nodup
  new : ∀ row ∈ rows, ¬ Stored db (nodeKey row)
  named : ∀ id ∈ call.mentions, ∃ key, id.hashed = .ok key ∧ Stored after (.ok key)
  typed : ∀ id type, lastType call.declares id = some type →
    ∃ row ∈ rows, nodeKey row = id.hashed ∧ classOf "type" row = type

theorem lastType_append (first later : List (Value × Value)) (id : Value) :
    lastType (first ++ later) id = (lastType later id).or (lastType first id) := by
  rw [lastType, List.filter_append, List.map_append, List.getLast?_append]
  rfl

theorem mem_added {db after : Database} {call : Import} {rows : List Row}
    (added : CallAdds db after call rows) {key : Except Raised Value} {directory : String} :
    key ∈ keysIn after directory ↔ key ∈ keysIn db directory ∨
      ∃ row ∈ rows, classOf "type" row = directory ∧ nodeKey row = key := by
  rw [added.keys, List.mem_append, List.mem_map]
  simp only [List.mem_filter, decide_eq_true_eq, and_assoc]

/-- A call that adds rows for new ids keeps the ledger. -/
theorem Ledger.add {calls : List Import} {call : Import} {db after : Database} {rows : List Row}
    (ledger : Ledger calls db) (added : CallAdds db after call rows) :
    Ledger (calls ++ [call]) after := by
  have stays : ∀ {key : Except Raised Value}, Stored db key → Stored after key := by
    rintro key ⟨directory, _, member⟩
    exact stored_of_mem ((mem_added added).mpr (.inl member))
  have flat : ∀ {Named : Type} (names : Import → List Named),
      (calls ++ [call]).flatMap names = calls.flatMap names ++ names call := by
    intro Named names
    rw [List.flatMap_append, List.flatMap_singleton]
  refine ⟨added.inOrder, fun directory key member => ?_, fun directory => ?_,
    fun key directory other here there => ?_, ?_, ?_⟩
  · rcases (mem_added added).mp member with old | ⟨row, inside, _, rfl⟩
    · exact ledger.keyed directory key old
    · exact added.keyed row inside
  · rw [added.keys, List.nodup_append]
    refine ⟨ledger.distinct directory, added.distinct.sublist (List.filter_sublist.map nodeKey), ?_⟩
    rintro key old _ new rfl
    obtain ⟨row, inside, rfl⟩ := List.mem_map.mp new
    exact added.new row (List.mem_of_mem_filter inside) (stored_of_mem old)
  · rcases (mem_added added).mp here with old | ⟨row, inside, isHere, rfl⟩
    · rcases (mem_added added).mp there with oldToo | ⟨row, inside, _, rfl⟩
      · exact ledger.apart key directory other old oldToo
      · exact absurd (stored_of_mem old) (added.new row inside)
    · rcases (mem_added added).mp there with old | ⟨second, insideToo, isThere, same⟩
      · exact absurd (stored_of_mem old) (added.new row inside)
      · have sameRow := List.inj_on_of_nodup_map added.distinct insideToo inside same
        rw [← isHere, ← isThere, sameRow]
  · intro id member
    rw [flat] at member
    rcases List.mem_append.mp member with old | new
    · obtain ⟨key, hashes, stored⟩ := ledger.named id old
      exact ⟨key, hashes, stays stored⟩
    · exact added.named id new
  · intro id type declared
    rw [flat, lastType_append] at declared
    rcases Option.or_eq_some_iff.mp declared with new | ⟨_, old⟩
    · obtain ⟨row, inside, same, isClass⟩ := added.typed id type new
      exact (mem_added added).mpr (.inr ⟨row, inside, isClass, same⟩)
    · exact (mem_added added).mpr (.inl (ledger.typed id type old))

/-! ## Finding a row -/

theorem keyEq_iff {left right : Value} {key : Value} (hashes : right.hashed = .ok key)
    (plain : key ≠ .float "nan") : keyEq left right = true ↔ left.hashed = right.hashed := by
  rw [keyEq, hashes]
  cases filed : left.hashed with
  | error raised =>
    constructor
    · intro same
      rw [of_decide_eq_true same, hashes] at filed
      cases filed
    · intro same
      cases same
  | ok first =>
    simp only [Bool.and_eq_true, decide_eq_true_eq, Except.ok.injEq]
    constructor
    · exact And.left
    · rintro rfl
      exact ⟨rfl, plain⟩

/-- The row of an id among those of a class is one that has the key. -/
theorem rowOfClass_eq {db : Database} (shelved : Shelved db) {name : String} {id key : Value}
    (listed : name ∈ db.nodes.keys) (hashes : id.hashed = .ok key) (plain : key ≠ .float "nan") :
    ∃ found, rowOfClass db id "node_id" name = .ok found ∧
      (id.hashed ∈ keysIn db name ↔ ∃ row, found = some row) ∧
      ∀ row, found = some row → ∃ gid, row.read INTERNAL_GID_COLUMN = .int gid := by
  obtain ⟨store, stored⟩ := (Dict.mem_keys _ _).mp listed
  obtain ⟨cls, isClass, _, opened, columns⟩ := shelved.find stored
  refine ⟨(store.to_pylist none).find? fun row => keyEq (row.read "node_id") id, ?_, ?_, ?_⟩
  · rw [rowOfClass, isClass]
    show (db.openNodes cls.iri cls.localName >>= _) = _
    rw [opened]
    show (if _ then _ else _) = _
    rw [if_pos columns]
    rfl
  · rw [← Option.isSome_iff_exists, List.find?_isSome, keysIn, valuesIn, rowsIn, stored,
      Store.to_pylist]
    simp only [List.mem_map, exists_exists_and_eq_and, keyEq_iff hashes plain, nodeKey]
    constructor
    · rintro ⟨row, member, same⟩
      refine ⟨row, member, ?_⟩
      rw [read_publicRow row (by decide)]
      exact same
    · rintro ⟨row, member, same⟩
      refine ⟨row, member, ?_⟩
      rwa [read_publicRow row (by decide)] at same
  · intro row found
    obtain ⟨kept, member, rfl⟩ := List.mem_map.mp (List.mem_of_find?_eq_some found)
    rw [read_publicRow kept (by decide)]
    exact (shelved.shelf name store stored).findable.ids _ (List.mem_map_of_mem member)

theorem findResourceRow_eq {db : Database} (shelved : Shelved db) {id key : Value}
    (hashes : id.hashed = .ok key) (plain : key ≠ .float "nan") {type : String}
    (here : id.hashed ∈ keysIn db type) (only : ∀ other, id.hashed ∈ keysIn db other → other = type)
    (names : List String) (listed : ∀ name ∈ names, name ∈ db.nodes.keys) (among : type ∈ names) :
    ∃ row gid, findResourceRow db id "node_id" names = .ok (some (type, row)) ∧
      row.read INTERNAL_GID_COLUMN = .int gid := by
  induction names with
  | nil => cases among
  | cons name names inductionHypothesis =>
    obtain ⟨found, answers, stored, ids⟩ :=
      rowOfClass_eq shelved (listed name List.mem_cons_self) hashes plain
    rw [findResourceRow, answers]
    cases found with
    | some row =>
      obtain ⟨gid, isId⟩ := ids row rfl
      have isType := only name (stored.mpr ⟨row, rfl⟩)
      exact ⟨row, gid, by rw [isType]; rfl, isId⟩
    | none =>
      have later : type ∈ names := by
        rcases List.mem_cons.mp among with rfl | later
        · obtain ⟨row, absurdity⟩ := stored.mp here
          cases absurdity
        · exact later
      exact inductionHypothesis (List.forall_mem_cons.mp listed).2 later

/-- What is in the ledger can be looked up. -/
theorem Ledger.onePerResource (runtime : Runtime) {calls : List Import} {db : Database}
    (ledger : Ledger calls db) : OnePerResource runtime calls db where
  one := by
    intro id member
    obtain ⟨key, hashes, directory, _, stored⟩ := ledger.named id member
    refine ⟨directory, List.count_eq_one_of_mem (ledger.distinct directory) (hashes ▸ stored), ?_⟩
    intro other different there
    exact different (ledger.apart _ other directory there (hashes ▸ stored))
  typed := by
    intro id type declared
    have here := ledger.typed id type declared
    obtain ⟨key, hashes, plain⟩ := ledger.keyed type _ here
    obtain ⟨row, gid, found, isId⟩ := findResourceRow_eq ledger.inOrder.shelved hashes plain here
      (fun other there => ledger.apart _ other type there here) db.list_node_stores
      (fun name member => (mem_sortedNames _ _).mp member)
      ((mem_sortedNames _ _).mpr (listed_of_mem here))
    rw [resource, found]
    show ∃ ref, (runtime.toInt _ >>= _) = _ ∧ _
    rw [isId]
    exact ⟨_, rfl, rfl⟩

/-! ## What each call adds -/

theorem plain_comparable {value key : Value} (plain : value.Plain)
    (hashes : value.hashed = .ok key) : key ≠ .float "nan" := by
  cases value with
  | float text =>
    rw [Value.hashed] at hashes
    rw [← Except.ok.inj hashes]
    cases wholeNumber : Value.wholeNumber text with
    | none =>
      intro same
      exact plain (Value.float.inj same)
    | some whole =>
      intro same
      cases same
  | null | bool | int | str =>
    rw [← Except.ok.inj hashes]
    exact Value.noConfusion
  | other | list | dict => exact plain.elim

theorem lastType_mem {declared : List (Value × Value)} {id : Value} {type : String}
    (last : lastType declared id = some type) :
    ∃ pair ∈ declared, pair.1.hashed = id.hashed ∧ typeNamed pair.2 = type := by
  obtain ⟨pair, among, isType⟩ := List.mem_map.mp (List.mem_of_getLast? last)
  obtain ⟨member, same⟩ := List.mem_filter.mp among
  exact ⟨pair, member, of_decide_eq_true same, isType⟩

/-- A graph whose nodes have new and distinct ids adds them. -/
theorem CallAdds.ofGraph {runtime : Runtime} (lawful : runtime.Lawful) {call : Import}
    {nodes edges : List Row} {property_iris : Dict String String} {refs : GraphRefs}
    {db after : Database} (inOrder : InOrder db)
    (done : Call.run (storeGraph runtime nodes edges property_iris) db = (.ok refs, after))
    (plain : ∀ row ∈ nodes, (row.read "node_id").Plain) (distinct : (nodes.map nodeKey).Nodup)
    (new : ∀ row ∈ nodes, ¬ Stored db (nodeKey row))
    (named : ∀ id ∈ call.mentions, (∃ row ∈ nodes, nodeKey row = id.hashed) ∨
      ∃ key, id.hashed = .ok key ∧ Stored db (.ok key))
    (typed : ∀ id type, lastType call.declares id = some type →
      ∃ row ∈ nodes, nodeKey row = id.hashed ∧ typeNamed (row.read "type") = type) :
    CallAdds db after call nodes := by
  obtain ⟨still, classed, keys, _⟩ := storeGraph_keys lawful inOrder plain done
  refine ⟨still, keys, fun row member => ?_, distinct, new, fun id member => ?_,
    fun id type last => ?_⟩
  · obtain ⟨key, hashes⟩ := (classed row member).hashes
    exact ⟨key, hashes, plain_comparable (plain row member) hashes⟩
  · rcases named id member with ⟨row, inside, same⟩ | ⟨key, hashes, directory, _, stored⟩
    · obtain ⟨key, hashes⟩ := (classed row inside).hashes
      have added : .ok key ∈ keysIn after (classOf "type" row) := by
        rw [keys, List.mem_append]
        exact .inr (List.mem_map.mpr
          ⟨row, List.mem_filter.mpr ⟨inside, decide_eq_true rfl⟩, hashes⟩)
      exact ⟨key, same.symm.trans hashes, stored_of_mem added⟩
    · have stays : .ok key ∈ keysIn after directory := by
        rw [keys, List.mem_append]
        exact .inl stored
      exact ⟨key, hashes, stored_of_mem stays⟩
  · obtain ⟨row, inside, same, isType⟩ := typed id type last
    exact ⟨row, inside, same, (classed row inside).isLocal.trans isType⟩

/-! ### Typed nodes and objects with an IRI -/

/-- A single node for the one id that a call names. -/
theorem CallAdds.single {runtime : Runtime} (lawful : runtime.Lawful) {call : Import} {node : Row}
    {id : Value} {refs : GraphRefs} {db after : Database} (inOrder : InOrder db)
    (done : Call.run (storeGraph runtime [node] [] Dict.empty) db = (.ok refs, after))
    (fresh : call.Fresh db) (names : call.mentions = [id]) (adds : call.adds db = [id])
    (reads : node.read "node_id" = id)
    (declares : ∀ pair ∈ call.declares,
      pair.1 = id ∧ typeNamed pair.2 = typeNamed (node.read "type")) :
    CallAdds db after call [node] := by
  have isKey : nodeKey node = id.hashed := by rw [nodeKey, reads]
  obtain ⟨plain, new⟩ := fresh.new id (adds ▸ List.mem_singleton_self id)
  refine .ofGraph lawful inOrder done ?_ (List.nodup_singleton _) ?_ ?_ ?_
  · intro row member
    rw [List.mem_singleton.mp member, reads]
    exact plain
  · intro row member
    rw [List.mem_singleton.mp member, isKey]
    exact new
  · intro other member
    rw [names, List.mem_singleton] at member
    exact .inl ⟨node, List.mem_singleton_self node, member ▸ isKey⟩
  · intro other type last
    obtain ⟨pair, member, same, isType⟩ := lastType_mem last
    obtain ⟨isId, sameType⟩ := declares pair member
    exact ⟨node, List.mem_singleton_self node, isKey.trans (isId ▸ same),
      sameType.symm.trans isType⟩

theorem typeNamed_of_coerced {value : Value} {label name : String}
    (coerced : coerceLocalName value label = .ok name) :
    typeNamed value = name ∧ typeNamed (.str name) = name := by
  refine ⟨?_, (coerceLocalName_isName coerced).2⟩
  rw [coerceLocalName] at coerced
  split at coerced
  · cases coerced
  · split at coerced
    · cases coerced
    · exact Except.ok.inj coerced

/-- The node of an object with an IRI has its id and the type given, if one is. -/
theorem iriNode_reads {obj node : Row} (made : iriNode obj = .ok node) :
    node.read "node_id" = iriKey obj ∧
      ∀ type, [obj.read "type", obj.read "label"].find? Value.truthy = some type →
        typeNamed type = typeNamed (node.read "type") := by
  obtain ⟨class_name, coerced, same⟩ := except_bind_ok made
  have reads : ∀ {name : String} {value : Value},
      name ∈ ["@id", "iri", "id", "node_id", "type", "label"] →
        (Dict.ofEntries [("node_id", iriKey obj), ("type", .str class_name), (IRI_COLUMN,
          .str ((obj.read "@id").orElse (obj.read "iri")).toText)]).get? name = some value →
          node.read name = value := by
    intro name value excluded stored
    rw [← Except.ok.inj same]
    refine Row.read_of_get ?_
    rw [Dict.get_update, Dict.get_keep, if_neg (by rw [decide_eq_true_eq, not_not]; exact excluded)]
    exact stored
  refine ⟨reads (by decide) rfl, fun type found => ?_⟩
  have isType : (obj.read "type").orElse ((obj.read "label").orElse (.str "Resource")) = type := by
    rw [List.find?_cons] at found
    rw [Value.orElse, Value.orElse]
    split at found
    · next filled =>
      rw [if_pos filled]
      exact Option.some.inj found
    · next empty =>
      rw [if_neg (by simpa using empty)]
      rw [List.find?_cons] at found
      split at found
      · next filled =>
        rw [if_pos filled]
        exact Option.some.inj found
      · cases found
  rw [isType] at coerced
  have isClass : node.read "type" = .str class_name := reads (by decide) rfl
  rw [isClass]
  exact (typeNamed_of_coerced coerced).1.trans (typeNamed_of_coerced coerced).2.symm

/-! ### Neo4j objects -/

theorem neo4jParts_ok {obj node : Row} {relationships : List (String × Value)}
    (made : neo4jParts obj = .ok (node, relationships)) :
    ∃ label labels properties type, obj.read "labels" = .list (label :: labels) ∧
      obj.read "properties" = .dict properties ∧ coerceLocalName label "node label" = .ok type ∧
      node = Dict.ofEntries ([("node_id", obj.read "id"), ("type", .str type), (LABELS_COLUMN,
        .list ((label :: labels).map fun label => .str label.toText))] ++ properties) := by
  unfold neo4jParts at made
  dsimp only at made
  split at made
  · next label labels isLabels =>
    obtain ⟨_, same, made⟩ := except_bind_ok made
    cases same
    split at made
    · next properties isProperties =>
      obtain ⟨_, same, made⟩ := except_bind_ok made
      cases same
      obtain ⟨type, coerced, made⟩ := except_bind_ok made
      split at made
      · obtain ⟨_, same, made⟩ := except_bind_ok made
        cases same
        obtain ⟨isNode, _⟩ := Prod.mk.inj (Except.ok.inj made)
        exact ⟨label, labels, properties, type, isLabels, isProperties, coerced, isNode.symm⟩
      · obtain ⟨_, absurdity, _⟩ := except_bind_ok made
        cases absurdity
    · obtain ⟨_, absurdity, _⟩ := except_bind_ok made
      cases absurdity
  · obtain ⟨_, absurdity, _⟩ := except_bind_ok made
    cases absurdity

/-- The node of a Neo4j object has the id and the type that were given last. -/
theorem neo4jParts_reads {obj node : Row} {relationships : List (String × Value)}
    (made : neo4jParts obj = .ok (node, relationships)) :
    node.read "node_id" = (propertyValues obj "node_id").getLast?.getD (obj.read "id") ∧
      ((firstLabel obj ++ propertyValues obj "type").map typeNamed).getLast? =
        some (typeNamed (node.read "type")) := by
  obtain ⟨label, labels, properties, type, isLabels, isProperties, coerced, isNode⟩ :=
    neo4jParts_ok made
  have last : ∀ name value, (([("node_id", obj.read "id"), ("type", .str type), (LABELS_COLUMN,
      .list ((label :: labels).map fun label => .str label.toText))].filter
        fun entry : String × Value => entry.1 = name).map Prod.snd).getLast? = some value →
      node.read name = (propertyValues obj name).getLast?.getD value := by
    intro name value isFirst
    rw [isNode, Row.read, Dict.ofEntries, Dict.get_foldl_last, List.filter_append, List.map_append,
      List.getLast?_append, isFirst, propertyValues, isProperties]
    dsimp only
    cases ((properties.filter fun entry => entry.1 = name).map Prod.snd).getLast? <;> rfl
  refine ⟨last "node_id" _ rfl, ?_⟩
  obtain ⟨isLabel, isType⟩ := typeNamed_of_coerced coerced
  have first : (firstLabel obj).map typeNamed = [typeNamed (.str type)] := by
    rw [firstLabel, isLabels, isType]
    exact congrArg (fun name => [name]) isLabel
  rw [last "type" (.str type) rfl, List.map_append, first, List.getLast?_append, List.getLast?_map]
  cases (propertyValues obj "type").getLast? <;> rfl

/-- The placeholders are for the targets that are not stored. -/
theorem placeholderNodes_reads {runtime : Runtime} {db : Database} {ids : IdMap}
    (complete : Complete db ids) {targets : List Value} {rows : List Row}
    (made : placeholderNodes runtime ids targets = .ok rows) :
    (∀ target ∈ targets, ∃ key, target.hashed = .ok key) ∧
      rows.map (Row.read · "node_id") =
        targets.filter fun target => ¬ Stored db target.hashed := by
  induction targets generalizing rows with
  | nil =>
    cases made
    exact ⟨fun _ absurdity => absurd absurdity List.not_mem_nil, rfl⟩
  | cons target targets inductionHypothesis =>
    obtain ⟨key, hashes, made⟩ := except_bind_ok made
    rw [List.filter_cons, List.forall_mem_cons]
    by_cases known : ids.contains key = true
    · rw [if_pos known] at made
      obtain ⟨hashable, reads⟩ := inductionHypothesis made
      have stored : Stored db target.hashed := hashes ▸ (complete key).mp known
      rw [if_neg (by simpa using stored)]
      exact ⟨⟨⟨key, hashes⟩, hashable⟩, reads⟩
    · rw [if_neg known] at made
      obtain ⟨placeholder, isPlaceholder, made⟩ := except_bind_ok made
      obtain ⟨others, later, made⟩ := except_bind_ok made
      obtain ⟨hashable, reads⟩ := inductionHypothesis later
      have unstored : ¬ Stored db target.hashed := fun stored =>
        known ((complete key).mpr (hashes ▸ stored))
      obtain ⟨type, _, isRow⟩ := except_bind_ok isPlaceholder
      rw [if_pos (by simpa using unstored), ← Except.ok.inj made, List.map_cons, reads,
        ← Except.ok.inj isRow]
      exact ⟨⟨⟨key, hashes⟩, hashable⟩, rfl⟩

theorem lastType_same {id other : Value} {types : List Value} {type : String}
    (last : lastType (types.map fun type => (id, type)) other = some type) :
    id.hashed = other.hashed ∧ (types.map typeNamed).getLast? = some type := by
  obtain ⟨_, member, same, _⟩ := lastType_mem last
  obtain ⟨_, _, rfl⟩ := List.mem_map.mp member
  refine ⟨same, ?_⟩
  rwa [lastType, List.filter_eq_self.mpr, List.map_map] at last
  intro pair member
  obtain ⟨_, _, rfl⟩ := List.mem_map.mp member
  exact decide_eq_true same

theorem CallAdds.of_keys {db cached after : Database} {call : Import} {rows : List Row}
    (added : CallAdds cached after call rows)
    (keys : ∀ directory, keysIn cached directory = keysIn db directory) :
    CallAdds db after call rows :=
  { added with
    keys := fun directory => by rw [added.keys, keys]
    new := fun row member stored => added.new row member ((stored_iff_of_keys keys _).mpr stored) }

theorem neo4j_adds {runtime : Runtime} (lawful : runtime.Lawful) {obj : Row} {policy : String}
    {refs : GraphRefs} {db after : Database} (inOrder : InOrder db)
    (shape : resourceShape obj = .neo4j) (fresh : (Import.resource obj policy).Fresh db)
    (done : Call.run (importNeo4jResource runtime obj) db = (.ok refs, after)) :
    ∃ rows, CallAdds db after (.resource obj policy) rows := by
  obtain ⟨⟨node, relationships⟩, _, parts, done⟩ := Call.run_bind_returns done
  rw [Call.run_ofExcept] at parts
  obtain ⟨isParts, rfl⟩ := Prod.mk.inj parts
  obtain ⟨ids, cached, caches, done⟩ := Call.run_bind_returns done
  obtain ⟨still, sameKeys, complete, _⟩ := inOrder.externalIdMap caches
  obtain ⟨placeholders, _, makes, done⟩ := Call.run_bind_returns done
  rw [Call.run_ofExcept] at makes
  obtain ⟨made, rfl⟩ := Prod.mk.inj makes
  obtain ⟨hashable, placeholderIds⟩ := placeholderNodes_reads complete made
  obtain ⟨nodeId, nodeType⟩ := neo4jParts_reads isParts
  have targets : relationTargets obj = relationships.map Prod.snd := by
    rw [relationTargets, isParts]
  have adds : (Import.resource obj policy).adds db = obj.read "id" ::
      (relationTargets obj).filter fun target => ¬ Stored db target.hashed := by
    rw [Import.adds, shape]
  have mentions : (Import.resource obj policy).mentions = obj.read "id" :: relationTargets obj := by
    rw [Import.mentions, shape]
  have renames : (Import.resource obj policy).renames =
      (propertyValues obj "node_id").map fun value => (obj.read "id", value) := by
    rw [Import.renames, shape]
  obtain ⟨ownPlain, _⟩ := fresh.new (obj.read "id") (adds ▸ List.mem_cons_self)
  -- the node keeps the id of the object
  have own : (node.read "node_id").Plain ∧ nodeKey node = (obj.read "id").hashed := by
    rw [nodeKey, nodeId]
    cases last : (propertyValues obj "node_id").getLast? with
    | none => exact ⟨ownPlain, rfl⟩
    | some value =>
      exact fresh.kept (obj.read "id", value)
        (renames ▸ List.mem_map_of_mem (List.mem_of_getLast? last))
  have keys : (node :: placeholders).map nodeKey =
      ((Import.resource obj policy).adds db).map Value.hashed := by
    rw [adds, List.map_cons, List.map_cons, own.2, targets, ← placeholderIds, List.map_map]
    rfl
  have newKeys : ∀ row ∈ node :: placeholders, ¬ Stored db (nodeKey row) := by
    intro row member
    have among : nodeKey row ∈ ((Import.resource obj policy).adds db).map Value.hashed :=
      keys ▸ List.mem_map_of_mem member
    obtain ⟨id, isAdded, same⟩ := List.mem_map.mp among
    exact same ▸ (fresh.new id isAdded).2
  refine ⟨node :: placeholders,
    CallAdds.of_keys (.ofGraph lawful still done ?_ ?_ ?_ ?_ ?_) sameKeys⟩
  · rw [List.forall_mem_cons]
    refine ⟨own.1, fun row member => ?_⟩
    have among : row.read "node_id" ∈ placeholders.map (Row.read · "node_id") :=
      List.mem_map_of_mem member
    rw [placeholderIds, ← targets] at among
    exact (fresh.new _ (adds ▸ List.mem_cons_of_mem _ among)).1
  · rw [keys]
    exact fresh.once shape
  · exact fun row member stored => newKeys row member ((stored_iff_of_keys sameKeys _).mp stored)
  · intro id member
    rw [mentions] at member
    rcases List.mem_cons.mp member with rfl | isTarget
    · exact .inl ⟨node, List.mem_cons_self, own.2⟩
    · obtain ⟨key, hashes⟩ := hashable id (targets ▸ isTarget)
      by_cases stored : Stored db id.hashed
      · exact .inr ⟨key, hashes, (stored_iff_of_keys sameKeys _).mpr (hashes ▸ stored)⟩
      · have among : id ∈ placeholders.map (Row.read · "node_id") := by
          rw [placeholderIds, ← targets]
          exact List.mem_filter.mpr ⟨isTarget, decide_eq_true stored⟩
        obtain ⟨row, inside, same⟩ := List.mem_map.mp among
        exact .inl ⟨row, List.mem_cons_of_mem _ inside, by rw [nodeKey, same]⟩
  · intro id type last
    rw [Import.declares, shape] at last
    obtain ⟨same, isLast⟩ := lastType_same last
    rw [nodeType] at isLast
    exact ⟨node, List.mem_cons_self, own.2.trans same, Option.some.inj isLast⟩

/-! ### Triples -/

/-- Every node is for one of some ids and has its key. -/
def Kept (ids : List Value) (nodes : Dict Value Row) : Prop :=
  ∀ key row, nodes.get? key = some row → (∃ id ∈ ids, id.hashed = .ok key) ∧
    (row.read "node_id").Plain ∧ nodeKey row = .ok key

namespace Kept

variable {runtime : Runtime} {columns : TripleColumns} {ids : List Value}

theorem node {tables next : TripleTables} (kept : Kept ids tables.nodes) {external_id key : Value}
    {node : Row} (among : external_id ∈ ids) (plain : external_id.Plain)
    (found : tables.node runtime external_id = .ok (key, node, next)) :
    Kept ids next.nodes ∧ external_id.hashed = .ok key ∧ next.nodes.get? key = some node ∧
      ∀ other, tables.nodes.get? other ≠ none → next.nodes.get? other ≠ none := by
  obtain ⟨placeholder, made, found⟩ := except_bind_ok found
  obtain ⟨filed, hashes, found⟩ := except_bind_ok found
  cases there : tables.nodes.get? filed with
  | some row =>
    rw [there] at found
    obtain ⟨rfl, same⟩ := Prod.mk.inj (Except.ok.inj found)
    obtain ⟨rfl, rfl⟩ := Prod.mk.inj same
    exact ⟨kept, hashes, there, fun _ known => known⟩
  | none =>
    rw [there] at found
    obtain ⟨rfl, same⟩ := Prod.mk.inj (Except.ok.inj found)
    obtain ⟨rfl, rfl⟩ := Prod.mk.inj same
    obtain ⟨type, _, isPlaceholder⟩ := except_bind_ok made
    have reads : placeholder.read "node_id" = external_id := by
      rw [← Except.ok.inj isPlaceholder]
      rfl
    refine ⟨fun other row stored => ?_, hashes, Dict.get_set_self _ _ _, fun other known => ?_⟩
    · rw [Dict.get_set] at stored
      split at stored
      · next same =>
        rw [← Option.some.inj stored, nodeKey, reads, same]
        exact ⟨⟨external_id, among, hashes⟩, plain, hashes⟩
      · exact kept other row stored
    · rw [Dict.get_set]
      split
      · exact Option.some_ne_none _
      · exact known

theorem set {nodes : Dict Value Row} (kept : Kept ids nodes) {key : Value} {node : Row}
    (there : nodes.get? key = some node) {name : String} {value : Value}
    (fine : name = "node_id" → value.Plain ∧ value.hashed = .ok key) :
    Kept ids (nodes.set key (node.set name value)) := by
  intro other row stored
  rw [Dict.get_set] at stored
  split at stored
  · next same =>
    obtain ⟨isNamed, plain, hashes⟩ := kept key node there
    rw [← Option.some.inj stored, same, nodeKey, Row.read_set]
    refine ⟨isNamed, ?_⟩
    by_cases here : "node_id" = name
    · rw [if_pos here]
      exact fine here.symm
    · rw [if_neg here]
      exact ⟨plain, hashes⟩
  · exact kept other row stored

/-- A triple adds nodes for the ids that it names. -/
theorem addTriple {tables next : TripleTables} {triple : Row} (kept : Kept ids tables.nodes)
    (among : ∀ id ∈ tripleIds columns triple, id ∈ ids ∧ id.Plain)
    (renames : ∀ pair ∈ tripleValues columns "node_id" [triple],
      pair.2.Plain ∧ pair.2.hashed = pair.1.hashed)
    (added : addTriple runtime columns tables triple = .ok next) :
    Kept ids next.nodes ∧
      (∀ id ∈ tripleIds columns triple, ∃ key, id.hashed = .ok key ∧ next.nodes.get? key ≠ none) ∧
      ∀ other, tables.nodes.get? other ≠ none → next.nodes.get? other ≠ none := by
  obtain ⟨_, _, added⟩ := except_bind_ok added
  obtain ⟨predicate, isPredicate, added⟩ := except_bind_ok added
  obtain ⟨⟨key, node, withNode⟩, found, added⟩ := except_bind_ok added
  rw [tripleIds, isPredicate] at among ⊢
  dsimp only at among added ⊢
  obtain ⟨own, ownPlain⟩ := among _ List.mem_cons_self
  obtain ⟨later, hashes, there, remains⟩ := kept.node own ownPlain found
  have written : ∀ (name : String) (value : Value) other, withNode.nodes.get? other ≠ none →
      (withNode.nodes.set key (node.set name value)).get? other ≠ none := by
    intro name value other known
    rw [Dict.get_set]
    split
    · exact Option.some_ne_none _
    · exact known
  have isThere : withNode.nodes.get? key ≠ none := there ▸ Option.some_ne_none node
  by_cases isType :
      isRdfType (textOr (predicateIri (triple.read columns.predicate_col)) predicate) = true
  · rw [if_pos isType] at added
    obtain ⟨class_name, _, same⟩ := except_bind_ok added
    rw [← Except.ok.inj same, isType, Bool.true_or, if_pos rfl]
    refine ⟨later.set there fun absurdity => absurd absurdity (by decide), ?_,
      fun other known => written _ _ other (remains other known)⟩
    intro id member
    rw [List.mem_singleton.mp member]
    exact ⟨key, hashes, written _ _ key isThere⟩
  · rw [if_neg isType] at added
    by_cases isLiteral : isLiteralObject (triple.read columns.object_col) = true
    · rw [if_pos isLiteral] at added
      rw [← Except.ok.inj added, isLiteral, Bool.or_true, if_pos rfl]
      refine ⟨later.set there fun isId => ?_, ?_,
        fun other known => written _ _ other (remains other known)⟩
      · have write : tripleWrite columns triple =
            some ("node_id", literalValue (triple.read columns.object_col)) := by
          rw [tripleWrite, isPredicate]
          dsimp only
          rw [if_neg isType, if_pos isLiteral, isId]
        obtain ⟨plain, same⟩ := renames
          (resourceId (triple.read columns.subject_col),
            literalValue (triple.read columns.object_col))
          (by simp [tripleValues, write])
        exact ⟨plain, same.trans hashes⟩
      · intro id member
        rw [List.mem_singleton.mp member]
        exact ⟨key, hashes, written _ _ key isThere⟩
    · rw [if_neg isLiteral] at added
      obtain ⟨⟨target, other, withTarget⟩, targetFound, same⟩ := except_bind_ok added
      have notEither :
          ¬ (isRdfType (textOr (predicateIri (triple.read columns.predicate_col)) predicate) ||
            isLiteralObject (triple.read columns.object_col)) = true := by
        simp [isType, isLiteral]
      rw [if_neg notEither] at among ⊢
      obtain ⟨isTarget, targetPlain⟩ := among _ (List.mem_cons_of_mem _ (List.mem_singleton_self _))
      obtain ⟨last, targetHashes, targetThere, stays⟩ := later.node isTarget targetPlain targetFound
      rw [← Except.ok.inj same]
      refine ⟨last, ?_, fun other known => stays other (remains other known)⟩
      intro id member
      rcases List.mem_cons.mp member with rfl | isLast
      · exact ⟨key, hashes, stays key isThere⟩
      · rw [List.mem_singleton.mp isLast]
        exact ⟨target, targetHashes, targetThere ▸ Option.some_ne_none _⟩

theorem foldlM (payload : List Row) {tables last : TripleTables} (kept : Kept ids tables.nodes)
    (among : ∀ id ∈ payload.flatMap (tripleIds columns), id ∈ ids ∧ id.Plain)
    (renames : ∀ pair ∈ tripleValues columns "node_id" payload,
      pair.2.Plain ∧ pair.2.hashed = pair.1.hashed)
    (added : payload.foldlM (Database.addTriple runtime columns) tables = .ok last) :
    Kept ids last.nodes ∧
      (∀ id ∈ payload.flatMap (tripleIds columns), ∃ key,
        id.hashed = .ok key ∧ last.nodes.get? key ≠ none) ∧
      ∀ other, tables.nodes.get? other ≠ none → last.nodes.get? other ≠ none := by
  induction payload generalizing tables with
  | nil =>
    cases added
    exact ⟨kept, fun _ absurdity => absurd absurdity List.not_mem_nil, fun _ known => known⟩
  | cons triple payload inductionHypothesis =>
    rw [List.foldlM_cons] at added
    obtain ⟨next, first, added⟩ := except_bind_ok added
    have split : tripleValues columns "node_id" (triple :: payload) =
        tripleValues columns "node_id" [triple] ++ tripleValues columns "node_id" payload :=
      List.filterMap_append (l := [triple])
    rw [split] at renames
    rw [List.flatMap_cons] at among ⊢
    obtain ⟨still, named, stays⟩ := kept.addTriple
      (fun id member => among id (List.mem_append_left _ member))
      (fun pair member => renames pair (List.mem_append_left _ member)) first
    obtain ⟨later, laterNamed, laterStays⟩ := inductionHypothesis still
      (fun id member => among id (List.mem_append_right _ member))
      (fun pair member => renames pair (List.mem_append_right _ member)) added
    refine ⟨later, fun id member => ?_, fun other known => laterStays other (stays other known)⟩
    rcases List.mem_append.mp member with here | after
    · obtain ⟨key, hashes, known⟩ := named id here
      exact ⟨key, hashes, laterStays key known⟩
    · exact laterNamed id after

end Kept

theorem mem_tripleValues {columns : TripleColumns} {name : String} {payload : List Row}
    {pair : Value × Value} (member : pair ∈ tripleValues columns name payload) :
    ∃ triple ∈ payload, pair.1 = resourceId (triple.read columns.subject_col) := by
  obtain ⟨triple, isTriple, about⟩ := List.mem_filterMap.mp member
  refine ⟨triple, isTriple, ?_⟩
  cases writes : tripleWrite columns triple with
  | none =>
    rw [writes] at about
    cases about
  | some entry =>
    rw [writes] at about
    dsimp only at about
    split at about
    · exact Option.some.inj about ▸ rfl
    · cases about

/-- The values that triples give an id under a name are those that are written under its key. -/
theorem tripleValues_writes (columns : TripleColumns) (name : String) (payload : List Row)
    (key : Value) :
    ((tripleValues columns name payload).filter fun pair => pair.1.hashed = .ok key).map Prod.snd =
      ((writesTo columns payload key).filter fun entry => entry.1 = name).map Prod.snd := by
  induction payload with
  | nil => rfl
  | cons triple payload inductionHypothesis =>
    rw [tripleValues, writesTo] at inductionHypothesis ⊢
    rw [List.filterMap_cons, List.filterMap_cons, subjectKey]
    cases written : tripleWrite columns triple with
    | none => simpa using inductionHypothesis
    | some entry =>
      obtain ⟨column, value⟩ := entry
      by_cases about : (resourceId (triple.read columns.subject_col)).hashed = .ok key
      · by_cases here : column = name
        · simp [about, here, inductionHypothesis]
        · simp [about, here, inductionHypothesis]
      · by_cases here : column = name
        · simp [about, here, inductionHypothesis]
        · simp [about, here, inductionHypothesis]

/-- A batch of triples adds the resources that it names. -/
theorem triples_adds {runtime : Runtime} (lawful : runtime.Lawful) {call : Import}
    {payload : List Row} {columns : TripleColumns} {policy : String} {refs : GraphRefs}
    {db after : Database} (inOrder : InOrder db) (fresh : call.Fresh db)
    (mentions : call.mentions = payload.flatMap (tripleIds columns))
    (adds : call.adds db = call.mentions)
    (declares : call.declares = tripleValues columns "type" payload)
    (renames : call.renames = tripleValues columns "node_id" payload)
    (done : Call.run (insertTriples runtime payload columns policy) db = (.ok refs, after)) :
    ∃ rows, CallAdds db after call rows := by
  obtain ⟨tables, _, makes, done⟩ := Call.run_bind_returns done
  rw [Call.run_ofExcept] at makes
  obtain ⟨made, rfl⟩ := Prod.mk.inj makes
  have written := written_of_tables made
  obtain ⟨_, _, made⟩ := except_bind_ok made
  obtain ⟨_, _, made⟩ := except_bind_ok made
  have initially : Kept call.mentions ({} : TripleTables).nodes := fun _ _ absurdity => by
    cases absurdity
  obtain ⟨kept, named, _⟩ := initially.foldlM payload
    (fun id member => ⟨mentions ▸ member, (fresh.new id (adds ▸ mentions ▸ member)).1⟩)
    (renames ▸ fresh.kept) made
  have entryOf : ∀ row ∈ tables.nodes.values, ∃ key, tables.nodes.get? key = some row :=
    fun row member => (Dict.mem_values _ _).mp member
  refine ⟨tables.nodes.values, .ofGraph lawful inOrder done ?_ ?_ ?_ ?_ ?_⟩
  · intro row member
    obtain ⟨key, stored⟩ := entryOf row member
    exact (kept key row stored).2.1
  · have keys : tables.nodes.values.map nodeKey = tables.nodes.keys.map .ok := by
      rw [Dict.values, Dict.keys, List.map_map, List.map_map]
      exact List.map_congr_left fun entry member =>
        (kept entry.1 entry.2 ((Dict.get_eq_some _ _ _).mpr member)).2.2
    rw [keys]
    exact tables.nodes.distinct.map fun _ _ same => Except.ok.inj same
  · intro row member
    obtain ⟨key, stored⟩ := entryOf row member
    obtain ⟨⟨id, isNamed, hashes⟩, _, isKey⟩ := kept key row stored
    rw [isKey, ← hashes]
    exact (fresh.new id (adds ▸ isNamed)).2
  · intro id member
    obtain ⟨key, hashes, known⟩ := named id (mentions ▸ member)
    obtain ⟨row, stored⟩ := Option.ne_none_iff_exists'.mp known
    exact .inl ⟨row, (Dict.mem_values _ _).mpr ⟨key, stored⟩,
      (kept key row stored).2.2.trans hashes.symm⟩
  · intro id type last
    rw [declares] at last
    obtain ⟨pair, member, same, _⟩ := lastType_mem last
    -- a triple declares the type, so its subject has a node
    obtain ⟨triple, isTriple, subject⟩ := mem_tripleValues member
    have isNamed : pair.1 ∈ payload.flatMap (tripleIds columns) :=
      List.mem_flatMap.mpr ⟨triple, isTriple, subject ▸ List.mem_cons_self⟩
    obtain ⟨key, hashes, known⟩ := named pair.1 isNamed
    obtain ⟨row, stored⟩ := Option.ne_none_iff_exists'.mp known
    refine ⟨row, (Dict.mem_values _ _).mpr ⟨key, stored⟩,
      (kept key row stored).2.2.trans (hashes.symm.trans same), ?_⟩
    obtain ⟨base, isRow⟩ := written.written key row stored
    have isLast : ((((writesTo columns payload key).filter fun entry => entry.1 = "type").map
        Prod.snd).map typeNamed).getLast? = some type := by
      rw [← tripleValues_writes, ← hashes, same, List.map_map]
      exact last
    rw [List.getLast?_map] at isLast
    obtain ⟨value, isValue, isType⟩ := Option.map_eq_some_iff.mp isLast
    rw [isRow, Row.read, Dict.get_foldl_last, isValue]
    exact isType

/-! ## Runs -/

/-- A call that meets the condition adds rows for ids that were not stored. -/
theorem import_adds {runtime : Runtime} (lawful : runtime.Lawful) {call : Import}
    {refs : GraphRefs} {db after : Database} (inOrder : InOrder db) (fresh : call.Fresh db)
    (done : Call.run (call.call runtime) db = (.ok refs, after)) :
    ∃ rows, CallAdds db after call rows := by
  cases call with
  | triples payload columns policy =>
    exact triples_adds lawful inOrder fresh rfl rfl rfl rfl done
  | resource obj policy =>
    obtain ⟨_, _, valid, done⟩ := Call.run_bind_returns done
    rw [Call.run_ofExcept] at valid
    obtain ⟨_, rfl⟩ := Prod.mk.inj valid
    cases shape : resourceShape obj with
    | neo4j =>
      rw [shape] at done
      exact neo4j_adds lawful inOrder shape fresh done
    | iri =>
      rw [shape] at done
      obtain ⟨node, _, makes, done⟩ := Call.run_bind_returns done
      rw [Call.run_ofExcept] at makes
      obtain ⟨made, rfl⟩ := Prod.mk.inj makes
      obtain ⟨reads, types⟩ := iriNode_reads made
      have mentions : (Import.resource obj policy).mentions = [iriKey obj] := by
        rw [Import.mentions, shape]
      refine ⟨[node], .single lawful inOrder done fresh mentions ?_ reads fun pair member => ?_⟩
      · rw [Import.adds, shape]
        exact mentions
      · rw [Import.declares, shape] at member
        obtain ⟨type, found, rfl⟩ := List.mem_map.mp member
        exact ⟨rfl, types type (Option.mem_toList.mp found)⟩
    | triple =>
      rw [shape] at done
      refine triples_adds lawful inOrder fresh ?_ ?_ ?_ ?_ done
      · rw [Import.mentions, shape, List.flatMap_singleton]
      · rw [Import.adds, shape]
      · rw [Import.declares, shape]
      · rw [Import.renames, shape]
    | typed_node =>
      rw [shape] at done
      have mentions : (Import.resource obj policy).mentions = [obj.read "node_id"] := by
        rw [Import.mentions, shape]
      refine ⟨[obj], .single lawful inOrder done fresh mentions ?_ rfl fun pair member => ?_⟩
      · rw [Import.adds, shape]
        exact mentions
      · rw [Import.declares, shape] at member
        rw [List.mem_singleton.mp member]
        exact ⟨rfl, rfl⟩
    | typed_edge =>
      rw [shape] at done
      obtain ⟨edgeRefs, _, inserts, ends⟩ := Call.run_bind_returns done
      cases ends
      obtain ⟨still, keys, ended⟩ := insertEdgeTable_keys inOrder inserts
      refine ⟨[], still, fun directory => ?_, fun _ absurdity => absurd absurdity List.not_mem_nil,
        List.nodup_nil, fun _ absurdity => absurd absurdity List.not_mem_nil, fun id member => ?_,
        fun id type last => ?_⟩
      · rw [keys]
        exact (List.append_nil _).symm
      · rw [Import.mentions, shape] at member
        have isEnd : ∃ column ∈ ["src", "dst"], id = obj.read column := by
          simpa using member
        obtain ⟨column, among, rfl⟩ := isEnd
        obtain ⟨key, hashes, stored⟩ := ended obj (List.mem_singleton_self obj) column among
        exact ⟨key, hashes, (stored_iff_of_keys keys _).mpr stored⟩
      · rw [Import.declares, shape] at last
        cases last
    | unknown =>
      rw [shape] at done
      cases done

theorem Imported.ledger {runtime : Runtime} (lawful : runtime.Lawful) {calls : List Import}
    {db : Database} (run : Imported runtime (fun db call => call.Fresh db) calls db) :
    Ledger calls db := by
  induction run with
  | create path =>
    exact ⟨inOrder_create path, fun _ _ absurdity => absurd absurdity List.not_mem_nil,
      fun _ => List.nodup_nil, fun _ _ _ absurdity => absurd absurdity List.not_mem_nil,
      fun _ absurdity => absurd absurdity List.not_mem_nil, fun _ _ absurdity => by cases absurdity⟩
  | call before may returns ledger =>
    obtain ⟨rows, added⟩ := import_adds lawful ledger.inOrder may returns
    exact ledger.add added

/-- As long as no call stores a row for an id that is stored, every resource that is named has one
row, of the type that was declared for it last. -/
theorem resources_kept {runtime : Runtime} (lawful : runtime.Lawful) {calls : List Import}
    {db : Database} (run : Imported runtime (fun db call => call.Fresh db) calls db) :
    OnePerResource runtime calls db :=
  (run.ledger lawful).onePerResource runtime

/-! ### A reference and a declaration -/

/-- The database after calls on a new one. -/
def imported (calls : List Import) : Database :=
  calls.foldl (fun db call => (Call.run (call.call Runtime.plain) db).2)
    (Database.create "graph.crcl")

theorem Imported.snoc {allowed : Database → Import → Prop} {calls : List Import}
    (before : Imported Runtime.plain allowed calls (imported calls)) (call : Import)
    (may : allowed (imported calls) call)
    (answers : (Call.run (call.call Runtime.plain) (imported calls)).1.isOk = true) :
    Imported Runtime.plain allowed (calls ++ [call]) (imported (calls ++ [call])) := by
  cases outcome : (Call.run (call.call Runtime.plain) (imported calls)).1 with
  | error raised =>
    rw [outcome] at answers
    cases answers
  | ok refs =>
    have after : imported (calls ++ [call]) =
        (Call.run (call.call Runtime.plain) (imported calls)).2 := by
      rw [imported, List.foldl_append]
      rfl
    rw [after]
    exact .call before may (Prod.ext outcome rfl)

/-- One employee knows another. -/
def acquaintance : Row :=
  Dict.ofEntries [("subject", .str "employee/ada"), ("predicate", .str "knows"),
    ("object", .str "employee/bob")]

/-- The other is declared as a person. -/
def declaration : Row :=
  Dict.ofEntries [("node_id", .str "employee/bob"), ("type", .str "Person")]

/-- The same declaration as a triple. -/
def declaredType : Row :=
  Dict.ofEntries [("subject", .str "employee/bob"), ("predicate", .str "rdf:type"),
    ("object", .str "Person")]

/-- A friendship of the two, as an edge. -/
def friendship : Row :=
  Dict.ofEntries [("src", .str "employee/bob"), ("dst", .str "employee/ada"),
    ("type", .str "likes")]

/-- A resource that is referenced in one call and declared in the next has two rows, and the type
that was guessed for the placeholder. -/
theorem declaration_missed :
    ∃ calls db, Imported Runtime.plain (fun _ _ => True) calls db ∧
      .str "employee/bob" ∈ calls.flatMap Import.mentions ∧ ¬ OneRow db (.str "employee/bob") ∧
      lastType (calls.flatMap Import.declares) (.str "employee/bob") = some "Person" ∧
      (resource Runtime.plain db (.str "employee/bob") "node_id").map ResourceRef.type =
        .ok "Employee" := by
  have none : Imported Runtime.plain (fun _ _ => True) [] (imported []) := .create "graph.crcl"
  have first := none.snoc (.triples [acquaintance] {} "warn") trivial (by decide +kernel)
  refine ⟨_, _, first.snoc (.resource declaration "warn") trivial (by decide +kernel),
    by decide +kernel, ?_, by decide +kernel, by decide +kernel⟩
  rintro ⟨class_name, _, only⟩
  have asEmployee : (Value.str "employee/bob").hashed ∈ keysIn
      (imported [.triples [acquaintance] {} "warn", .resource declaration "warn"]) "Employee" := by
    decide +kernel
  have asPerson : (Value.str "employee/bob").hashed ∈ keysIn
      (imported [.triples [acquaintance] {} "warn", .resource declaration "warn"]) "Person" := by
    decide +kernel
  have isEmployee : class_name = "Employee" := by
    by_contra other
    exact only "Employee" (Ne.symm other) asEmployee
  exact only "Person" (by rw [isEmployee]; decide) asPerson

/-- Declared behind the reference in one batch, the resource has one row and its type. -/
theorem declaration_kept : OnePerResource Runtime.plain
    [.triples [acquaintance, declaredType] {} "warn", .resource friendship "warn"]
    (imported [.triples [acquaintance, declaredType] {} "warn", .resource friendship "warn"]) := by
  have none : Imported Runtime.plain (fun db call => call.Fresh db) [] (imported []) :=
    .create "graph.crcl"
  have first := none.snoc (.triples [acquaintance, declaredType] {} "warn")
    ⟨by decide +kernel, trivial, by decide +kernel⟩ (by decide +kernel)
  exact resources_kept Runtime.plain_lawful (first.snoc (.resource friendship "warn")
    ⟨by decide +kernel, fun shape => absurd shape (by decide +kernel), by decide +kernel⟩
    (by decide +kernel))

end CaracalDB.Database
