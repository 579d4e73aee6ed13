import CaracalDB.HierarchyAnswers

/-!
# The scan below a class

The scan opens the stores of all classes below a base class and gives their batches
with the columns that they share and the IRI of the class. It opens a store by the local
part of the IRI. Where the catalog keeps another local name for a class, the store is
not found, and the scan goes on without its rows.
-/

namespace CaracalDB.ClosureScan

open Hierarchy Relation Where

/-! ## The operator -/

/-- `closure.descendants_bitmap(iri, include_self=...)` -/
def descendantsBitmap (closure : ClassClosureIndex) (iri : String) (include_self : Bool) :
    Except Raised (Finset Nat) := do
  let id ← closure.requireClass iri
  let ids := ((closure.hierarchy.descendants iri).filterMap closure.class_id_by_iri).toFinset
  return if include_self then insert id ids else ids

/-- `closure.descendant_iris(iri, include_self=...)` -/
def descendantIris (closure : ClassClosureIndex) (iri : String) (include_self : Bool) :
    Except Raised (List String) := do
  return ((← descendantsBitmap closure iri include_self).sort (· ≤ ·)).filterMap
    closure.class_iri_by_id

/-- `ClosureScanOperator` -/
structure ClosureScanOperator where
  graph : Graph
  closure : ClassClosureIndex
  base_iri : String
  include_self : Bool
  columns : Option (List String)

/-- `ClosureScanOperator(bundle, closure, base_iri=..., include_self=..., columns=...)` -/
def ClosureScanOperator.make (graph : Graph) (closure : ClassClosureIndex) (base_iri : String)
    (include_self : Bool) (columns : Option (List String)) : Except Raised ClosureScanOperator := do
  refuse (closure.class_id_by_iri base_iri = none) (.caracal
    { code := "CDB-6070"
      message := "ClosureScan base class not in catalog: " ++ Value.quoted base_iri })
  return { graph, closure, base_iri, include_self, columns }

/-- `list(per_class_batches[i][1][0].schema.names)` -/
def firstNames (entry : String × List Batch) : List String :=
  (entry.2.head?.map Batch.names).getD []

/-- The names that the first batches of all classes have, in the order of the first class. -/
def intersection (per_class : List (String × List Batch)) : List String :=
  match per_class.map firstNames with
  | [] => []
  | first :: rest => rest.foldl (fun shared names => shared.filter fun name => name ∈ names) first

/-- Those of the names that are asked for, all of them if nothing is. -/
def asked (columns : Option (List String)) (names : List String) : List String :=
  match columns with
  | none => names
  | some columns => names.filter fun name => name ∈ columns

/-- A batch with the shared columns and the IRI of its class. -/
def project (shared : List String) (iri : String) (batch : Batch) : Except Raised Batch := do
  let projected ← batch.select shared
  return { projected with
    columns := projected.columns ++ [("class_iri", classColumn iri projected.num_rows)] }

/-- `_collect_batches()` -/
def ClosureScanOperator.collectBatches (op : ClosureScanOperator) : Except Raised (List Batch) := do
  let per_class ← perClassBatches op.graph (← descendantIris op.closure op.base_iri op.include_self)
  let shared := asked op.columns (intersection per_class)
  (per_class.flatMap fun entry => entry.2.map fun batch => (entry.1, batch)).mapM
    fun (iri, batch) => project shared iri batch

/-- The batches of a scan that is made and run. -/
def scan (graph : Graph) (closure : ClassClosureIndex) (base_iri : String) (include_self : Bool)
    (columns : Option (List String)) : Except Raised (List Batch) := do
  (← ClosureScanOperator.make graph closure base_iri include_self columns).collectBatches

/-! ## What a scan is to give -/

/-- Stores that were opened under the IRIs and the local names of classes, with what `append`
accepts and `scan` reads: batches that are not empty, with the same columns under distinct names. -/
structure Opened (graph : Graph) : Prop where
  registered : (graph.catalog.classes.items.map Definition.iri).Nodup
  named : ∀ name store, graph.stores.get? name = some store →
    ∃ cls ∈ graph.catalog.classes.items, cls.iri = store.class_iri ∧ cls.localName = name
  filled : ∀ name store, graph.stores.get? name = some store →
    ∀ batch ∈ store.batches, 0 < batch.num_rows
  alike : ∀ name store, graph.stores.get? name = some store →
    ∀ batch ∈ store.batches, ∀ other ∈ store.batches, batch.names = other.names
  distinct : ∀ name store, graph.stores.get? name = some store →
    ∀ batch ∈ store.batches, batch.names.Nodup

/-- A class that is below the base, or is the base and the base is asked for. -/
def Covered (items : List Definition) (base : Definition) (include_self : Bool) (cls : Definition) :
    Prop :=
  include_self = true ∧ cls = base ∨
    TransGen (fun child parent => parent ∈ parentsOf items child) cls.iri base.iri

/-- The names that all stored batches of some classes share, those that are asked for. -/
structure Common (graph : Graph) (classes : List Definition) (columns : Option (List String))
    (shared : List String) : Prop where
  once : shared.Nodup
  members : (∃ cls ∈ classes, storedUnder graph cls ≠ []) → ∀ name, name ∈ shared ↔
    (∀ requested, columns = some requested → name ∈ requested) ∧
      ∀ cls ∈ classes, ∀ batch ∈ storedUnder graph cls, name ∈ batch.names

/-- The value of a row in the column of a name. -/
def valueAt (batch : Batch) (name : String) (index : Nat) : Option Value :=
  (batch.columns.find? fun column => column.1 = name).bind fun column => column.2.values[index]?

/-- The rows of a batch, restricted to some columns and tagged with a class. -/
def taggedRows (shared : List String) (iri : String) (batch : Batch) : List (List (Option Value)) :=
  (List.range batch.num_rows).map fun index =>
    (shared.map fun name => valueAt batch name index) ++ [some (.str iri)]

/-- The batches have exactly the rows stored under the classes that are covered, each under the
common columns and the IRI of its class. -/
def Complete (graph : Graph) (base : Definition) (include_self : Bool)
    (columns : Option (List String)) (output : List Batch) : Prop :=
  ∃ classes shared, classes.Nodup ∧
    (∀ cls, cls ∈ classes ↔ cls ∈ graph.catalog.classes.items ∧
      Covered graph.catalog.classes.items base include_self cls) ∧
    Common graph classes columns shared ∧
    (∀ batch ∈ output, batch.names = shared ++ ["class_iri"]) ∧
    (output.flatMap Batch.rows).Perm (classes.flatMap fun cls =>
      (storedUnder graph cls).flatMap (taggedRows shared cls.iri))

/-- The local part of the IRI of a class can be a directory, no store of another class is there, and
it is the local name of the class if rows are stored under the class. -/
structure Located (graph : Graph) (cls : Definition) : Prop where
  proper : isLocalName (localOf cls.iri) = true
  own : ∀ store, graph.stores.get? (localOf cls.iri) = some store → store.class_iri = cls.iri
  kept : storedUnder graph cls ≠ [] → localOf cls.iri = cls.localName

/-! ## The classes of a scan -/

section Classes

variable {items : List Definition} {base : Definition}

/-- The classes that a scan goes through. -/
theorem descendantIris_ok (ontology : Ontology items) (numbered : (items.map Definition.id).Nodup)
    (known : base ∈ items) (include_self : Bool) :
    ∃ iris, descendantIris (closureOf items) base.iri include_self = .ok iris ∧ iris.Nodup ∧
      ∀ iri, iri ∈ iris ↔ ∃ cls ∈ items, cls.iri = iri ∧ Covered items base include_self cls := by
  have baseId := class_id_of_mem ontology.distinct known
  let ids := (((closureOf items).hierarchy.descendants base.iri).filterMap
    (closureOf items).class_id_by_iri).toFinset
  have members : ∀ id, id ∈ (if include_self then insert base.id ids else ids) ↔
      ∃ cls ∈ items, cls.id = id ∧ Covered items base include_self cls := by
    intro id
    have below : id ∈ ids ↔ _ := List.mem_toFinset.trans (mem_descendant_ids ontology base.iri id)
    cases include_self with
    | false =>
      rw [if_neg Bool.false_ne_true, below]
      simp [Covered]
    | true =>
      rw [if_pos rfl, Finset.mem_insert, below]
      constructor
      · rintro (rfl | ⟨cls, member, same, reached⟩)
        · exact ⟨base, known, rfl, .inl ⟨rfl, rfl⟩⟩
        · exact ⟨cls, member, same, .inr reached⟩
      · rintro ⟨cls, member, rfl, ⟨_, rfl⟩ | reached⟩
        · exact .inl rfl
        · exact .inr ⟨cls, member, rfl, reached⟩
  obtain ⟨once, listed⟩ := iris_of_ids ontology.distinct numbered members
  refine ⟨_, ?_, once, listed⟩
  rw [descendantIris, descendantsBitmap, ClassClosureIndex.requireClass, baseId]
  rfl

end Classes

/-! ## The shared columns -/

theorem mem_foldl_filter {name : String} (rest : List (List String)) (first : List String) :
    name ∈ rest.foldl (fun shared names => shared.filter fun name => name ∈ names) first ↔
      name ∈ first ∧ ∀ names ∈ rest, name ∈ names := by
  induction rest generalizing first with
  | nil => simp
  | cons names rest inductionHypothesis =>
    rw [List.foldl_cons, inductionHypothesis, List.mem_filter, List.forall_mem_cons, and_assoc,
      decide_eq_true_eq]

theorem foldl_filter_sublist (rest : List (List String)) (first : List String) :
    (rest.foldl (fun shared names => shared.filter fun name => name ∈ names) first).Sublist first := by
  induction rest generalizing first with
  | nil => exact List.Sublist.refl _
  | cons names rest inductionHypothesis =>
    exact (inductionHypothesis _).trans List.filter_sublist

theorem mem_intersection {per_class : List (String × List Batch)} (filled : per_class ≠ [])
    (name : String) : name ∈ intersection per_class ↔ ∀ entry ∈ per_class, name ∈ firstNames entry := by
  obtain ⟨entry, rest, rfl⟩ := List.exists_cons_of_ne_nil filled
  rw [intersection, List.map_cons]
  simp only
  rw [mem_foldl_filter, List.forall_mem_cons, List.forall_mem_map]

theorem intersection_nodup {per_class : List (String × List Batch)}
    (distinct : ∀ entry ∈ per_class, (firstNames entry).Nodup) : (intersection per_class).Nodup := by
  cases per_class with
  | nil => exact List.nodup_nil
  | cons entry rest =>
    exact (distinct entry List.mem_cons_self).sublist (foldl_filter_sublist _ _)

theorem mem_asked {columns : Option (List String)} {names : List String} {name : String} :
    name ∈ asked columns names ↔
      (∀ requested, columns = some requested → name ∈ requested) ∧ name ∈ names := by
  cases columns with
  | none => simp [asked]
  | some requested => simp [asked, and_comm]

theorem asked_sublist (columns : Option (List String)) (names : List String) :
    (asked columns names).Sublist names := by
  cases columns with
  | none => exact List.Sublist.refl _
  | some requested => exact List.filter_sublist

/-! ## Rows of one batch -/

section Rows

variable {batch : Batch} {shared : List String}

theorem filter_name_alone {columns : List (String × Column)}
    (distinct : (columns.map Prod.fst).Nodup) {entry : String × Column} (member : entry ∈ columns) :
    (columns.filter fun other => other.1 = entry.1) = [entry] := by
  induction columns with
  | nil => cases member
  | cons first columns inductionHypothesis =>
    obtain ⟨absent, distinct⟩ := List.nodup_cons.mp distinct
    rcases List.mem_cons.mp member with rfl | later
    · have none : (columns.filter fun other => other.1 = entry.1) = [] := by
        rw [List.filter_eq_nil_iff]
        intro other inside same
        exact absent (of_decide_eq_true same ▸ List.mem_map_of_mem inside)
      rw [List.filter_cons_of_pos (by simp), none]
    · have apart : first.1 ≠ entry.1 := fun same => absent (same ▸ List.mem_map_of_mem later)
      rw [List.filter_cons_of_neg (by simpa using apart), inductionHypothesis distinct later]

/-- A batch with distinct names has a column under each of them. -/
theorem has_of_distinct (distinct : batch.names.Nodup) (among : ∀ name ∈ shared, name ∈ batch.names) :
    batch.Has shared := by
  intro name member
  obtain ⟨entry, inside, rfl⟩ := List.mem_map.mp (among name member)
  exact ⟨entry.2, by rw [Batch.column, filter_name_alone distinct inside]⟩

theorem value_of_column {name : String} {column : Column} (found : batch.column name = .ok column)
    (index : Nat) : valueAt batch name index = column.values[index]? := by
  rw [Batch.column] at found
  rw [valueAt, ← List.head?_filter]
  split at found
  · rename_i entry only
    cases found
    rw [only]
    rfl
  · cases found

/-- The rows of a projected batch. -/
theorem closureBatch_rows (has : batch.Has shared) (iri : String) :
    (closureBatch shared iri batch).rows = taggedRows shared iri batch := by
  rw [Batch.rows, taggedRows]
  show (List.range batch.num_rows).map _ = _
  apply List.map_congr_left
  intro index inside
  rw [closureBatch, List.map_append, Batch.picked, List.map_map]
  congr 1
  · apply List.map_congr_left
    intro name member
    obtain ⟨column, found⟩ := has name member
    rw [value_of_column found]
    show ((batch.column name).toOption.getD _).values[index]? = _
    rw [found]
    rfl
  · have replicated : (List.replicate batch.num_rows (Value.str iri))[index]? = some (.str iri) := by
      rw [List.getElem?_replicate, if_pos (List.mem_range.mp inside)]
    exact congrArg (fun value => [value]) replicated

theorem closureBatch_names (iri : String) :
    (closureBatch shared iri batch).names = shared ++ ["class_iri"] := by
  rw [Batch.names, closureBatch, List.map_append, Batch.picked, List.map_map]
  exact congrArg (· ++ ["class_iri"]) (List.map_id shared)

theorem project_ok (has : batch.Has shared) (iri : String) :
    project shared iri batch = .ok (closureBatch shared iri batch) := by
  rw [project, select_of_has has]
  rfl

/-- Every row of a projected batch ends in the IRI of its class. -/
theorem project_tagged {iri : String} {projected : Batch} (done : project shared iri batch = .ok projected)
    {row : List (Option Value)} (member : row ∈ projected.rows) :
    row.getLast? = some (some (.str iri)) := by
  obtain ⟨selected, picks, _⟩ := except_bind_ok done
  rw [project_ok (has_of_select picks)] at done
  cases done
  rw [closureBatch_rows (has_of_select picks)] at member
  obtain ⟨index, _, rfl⟩ := List.mem_map.mp member
  exact List.getLast?_concat

end Rows

/-! ## Opened stores -/

section Opening

variable {graph : Graph}

/-- A store is opened if its name can be a directory and no other class has it. -/
theorem openNodeStore_ok {class_iri name : String} {opened : Option Stored} :
    openNodeStore graph class_iri name = .ok opened ↔ isLocalName name = true ∧
      (∀ store, graph.stores.get? name = some store → store.class_iri = class_iri) ∧
        opened = graph.stores.get? name := by
  rw [openNodeStore, assertLocalName]
  by_cases proper : isLocalName name = true
  · rw [if_pos proper, ok_bind]
    cases graph.stores.get? name with
    | none => simp [proper, pure, Except.pure, eq_comm]
    | some store =>
      by_cases own : store.class_iri = class_iri
      · simp [proper, own, refuse, bind, Except.bind, pure, Except.pure, eq_comm]
      · simp [proper, own, refuse, bind, Except.bind]
  · rw [if_neg proper]
    simp [proper, bind, Except.bind]

/-- All classes of a scan that goes through are opened under the local parts of their IRIs. -/
theorem opened_of_ok {iris : List String} {per_class : List (String × List Batch)}
    (ran : perClassBatches graph iris = .ok per_class) {iri : String} (member : iri ∈ iris) :
    isLocalName (localOf iri) = true ∧
      ∀ store, graph.stores.get? (localOf iri) = some store → store.class_iri = iri := by
  obtain ⟨entries, mapped, _⟩ := except_bind_ok ran
  obtain ⟨entry, one⟩ := ok_of_mapM_ok mapped iri member
  obtain ⟨opened, done, _⟩ := except_bind_ok one
  obtain ⟨proper, own, _⟩ := openNodeStore_ok.mp done
  exact ⟨proper, own⟩

/-- The batches of a class come from the store under the local part of its IRI. -/
theorem stored_of_ok {iris : List String} {per_class : List (String × List Batch)}
    (ran : perClassBatches graph iris = .ok per_class) {entry : String × List Batch}
    (member : entry ∈ per_class) :
    ∃ store, graph.stores.get? (localOf entry.1) = some store ∧ store.class_iri = entry.1 := by
  obtain ⟨entries, mapped, same⟩ := except_bind_ok ran
  cases same
  obtain ⟨made, inside, shown⟩ := List.mem_filterMap.mp member
  obtain rfl : made = some entry := shown
  obtain ⟨iri, _, one⟩ := (mem_of_mapM_ok mapped _).mp inside
  obtain ⟨opened, done, rest⟩ := except_bind_ok one
  obtain ⟨_, own, rfl⟩ := openNodeStore_ok.mp done
  cases found : graph.stores.get? (localOf iri) with
  | none =>
    rw [found] at rest
    cases rest
  | some store =>
    rw [found] at rest
    by_cases empty : store.batches = []
    · simp [empty, pure, Except.pure] at rest
    · simp only [empty, if_false] at rest
      cases rest
      exact ⟨store, found, own store found⟩

theorem mem_storedUnder {cls : Definition} {batch : Batch} :
    batch ∈ storedUnder graph cls ↔ ∃ store, graph.stores.get? cls.localName = some store ∧
      store.class_iri = cls.iri ∧ batch ∈ store.batches := by
  rw [storedUnder]
  cases graph.stores.get? cls.localName with
  | none => simp
  | some store =>
    by_cases own : store.class_iri = cls.iri
    · simp [own]
    · simp [own]

/-- A class is the only one with its IRI, so its store is under its local name. -/
theorem Opened.localName_of_store (opened : Opened graph) {cls : Definition}
    (known : cls ∈ graph.catalog.classes.items) {name : String} {store : Stored}
    (found : graph.stores.get? name = some store) (own : store.class_iri = cls.iri) :
    name = cls.localName := by
  obtain ⟨other, member, sameIri, named⟩ := opened.named name store found
  rw [← named, List.inj_on_of_nodup_map opened.registered member known (sameIri.trans own)]

/-- A class that is located is found by its IRI. -/
theorem Located.found (opened : Opened graph) {cls : Definition}
    (known : cls ∈ graph.catalog.classes.items) (located : Located graph cls) :
    FoundByIri graph cls := by
  refine ⟨_, openNodeStore_ok.mpr ⟨located.proper, located.own, rfl⟩, ?_⟩
  cases found : graph.stores.get? (localOf cls.iri) with
  | none =>
    by_contra differs
    have filled : storedUnder graph cls ≠ [] := fun empty => differs empty.symm
    have missing : graph.stores.get? cls.localName = none := located.kept filled ▸ found
    apply filled
    simp [storedUnder, missing]
  | some store =>
    have own := located.own store found
    rw [opened.localName_of_store known found own] at found
    simp [storedUnder, found, own]

end Opening

/-! ## The rows of a scan -/

section Scan

variable {graph : Graph} {closure : ClassClosureIndex} {base : Definition} {include_self : Bool}
  {columns : Option (List String)} {output : List Batch}

/-- A scan below a class of the catalog is made. -/
theorem scan_eq (ontology : Ontology graph.catalog.classes.items)
    (known : base ∈ graph.catalog.classes.items) :
    scan graph (closureOf graph.catalog.classes.items) base.iri include_self columns =
      ClosureScanOperator.collectBatches
        { graph, closure := closureOf graph.catalog.classes.items, base_iri := base.iri,
          include_self, columns } := by
  rw [scan, ClosureScanOperator.make, class_id_of_mem ontology.distinct known]
  rfl

/-- What a scan that goes through has opened and projected. -/
theorem scan_ok (ran : scan graph closure base.iri include_self columns = .ok output) :
    ∃ iris per_class, descendantIris closure base.iri include_self = .ok iris ∧
      perClassBatches graph iris = .ok per_class ∧
      (per_class.flatMap fun entry => entry.2.map fun batch => (entry.1, batch)).mapM
        (fun entry => project (asked columns (intersection per_class)) entry.1 entry.2) =
          .ok output := by
  obtain ⟨op, made, collected⟩ := except_bind_ok ran
  obtain ⟨_, _, same⟩ := except_bind_ok made
  cases same
  obtain ⟨iris, listed, rest⟩ := except_bind_ok collected
  obtain ⟨per_class, opened, projected⟩ := except_bind_ok rest
  exact ⟨iris, per_class, listed, opened, projected⟩

/-- A class whose IRI ends a row of the scan has a store under the local part of the IRI. -/
theorem tagged_stored {iris : List String} {per_class : List (String × List Batch)}
    {shared : List String} (opened : perClassBatches graph iris = .ok per_class)
    (projected : (per_class.flatMap fun entry => entry.2.map fun batch => (entry.1, batch)).mapM
      (fun entry => project shared entry.1 entry.2) = .ok output)
    {row : List (Option Value)} (member : row ∈ output.flatMap Batch.rows) {iri : String}
    (tagged : row.getLast? = some (some (.str iri))) :
    ∃ store, graph.stores.get? (localOf iri) = some store ∧ store.class_iri = iri := by
  obtain ⟨batch, inside, row_in⟩ := List.mem_flatMap.mp member
  obtain ⟨pair, among, made⟩ := (mem_of_mapM_ok projected batch).mp inside
  obtain ⟨entry, listed, same⟩ := List.mem_flatMap.mp among
  obtain ⟨stored, _, rfl⟩ := List.mem_map.mp same
  have ends := project_tagged made row_in
  rw [tagged] at ends
  obtain rfl : iri = entry.1 := by simpa using ends
  exact stored_of_ok opened listed

/-- All batches of a class have the names of the first. -/
theorem firstNames_eq (opened : Opened graph) {cls : Definition} {batch : Batch}
    (stored : batch ∈ storedUnder graph cls) (iri : String) :
    firstNames (iri, storedUnder graph cls) = batch.names := by
  rw [firstNames]
  cases batches : storedUnder graph cls with
  | nil =>
    rw [batches] at stored
    cases stored
  | cons first rest =>
    have starts : first ∈ storedUnder graph cls := by
      rw [batches]
      exact List.mem_cons_self
    obtain ⟨store, found, _, within⟩ := mem_storedUnder.mp stored
    obtain ⟨other, again, _, firstWithin⟩ := mem_storedUnder.mp starts
    obtain rfl := Option.some.inj (found.symm.trans again)
    exact opened.alike _ store found first firstWithin batch within

/-- The classes with some IRIs. -/
def classesOf (graph : Graph) (iris : List String) : List Definition :=
  graph.catalog.classes.items.filter fun cls => cls.iri ∈ iris

theorem mem_classesOf {iris : List String} {cls : Definition} :
    cls ∈ classesOf graph iris ↔ cls ∈ graph.catalog.classes.items ∧ cls.iri ∈ iris :=
  List.mem_filter.trans (and_congr_right' decide_eq_true_iff)

section Iris

variable {iris : List String}

/-- The classes with stored batches are listed with them. -/
theorem mem_filledClasses_iff (opened : Opened graph)
    (known : ∀ iri ∈ iris, ∃ cls ∈ graph.catalog.classes.items, cls.iri = iri)
    {entry : String × List Batch} :
    entry ∈ filledClasses graph iris ↔ ∃ cls ∈ classesOf graph iris,
      entry = (cls.iri, storedUnder graph cls) ∧ storedUnder graph cls ≠ [] := by
  constructor
  · intro member
    obtain ⟨among, same, filled⟩ := mem_filledClasses member
    obtain ⟨cls, inside, isIri⟩ := known entry.1 among
    rw [← isIri, storedAt_of_mem opened.registered inside] at same
    refine ⟨cls, mem_classesOf.mpr ⟨inside, isIri ▸ among⟩, Prod.ext isIri.symm same, same ▸ filled⟩
  · rintro ⟨cls, member, rfl, filled⟩
    obtain ⟨inside, among⟩ := mem_classesOf.mp member
    refine List.mem_filterMap.mpr ⟨_, List.mem_map.mpr ⟨cls.iri, among, ?_⟩, rfl⟩
    rw [storedAt_of_mem opened.registered inside, if_neg filled]

/-- What the scan shares is what all stored batches of its classes share. -/
theorem common_shared (opened : Opened graph)
    (known : ∀ iri ∈ iris, ∃ cls ∈ graph.catalog.classes.items, cls.iri = iri)
    (columns : Option (List String)) :
    Common graph (classesOf graph iris) columns
      (asked columns (intersection (filledClasses graph iris))) where
  once := by
    refine (intersection_nodup fun entry member => ?_).sublist (asked_sublist _ _)
    obtain ⟨cls, _, rfl, filled⟩ := (mem_filledClasses_iff opened known).mp member
    obtain ⟨batch, stored⟩ := List.exists_mem_of_ne_nil _ filled
    obtain ⟨store, found, _, within⟩ := mem_storedUnder.mp stored
    rw [firstNames_eq opened stored]
    exact opened.distinct _ store found batch within
  members := by
    rintro ⟨some_cls, some_member, some_filled⟩ name
    have listed := (mem_filledClasses_iff opened known).mpr ⟨some_cls, some_member, rfl, some_filled⟩
    rw [mem_asked, mem_intersection (List.ne_nil_of_mem listed)]
    apply and_congr_right
    intro _
    constructor
    · intro everywhere cls member batch stored
      have entry := (mem_filledClasses_iff opened known).mpr
        ⟨cls, member, rfl, List.ne_nil_of_mem stored⟩
      exact firstNames_eq opened stored cls.iri ▸ everywhere _ entry
    · intro everywhere entry member
      obtain ⟨cls, inside, rfl, filled⟩ := (mem_filledClasses_iff opened known).mp member
      obtain ⟨batch, stored⟩ := List.exists_mem_of_ne_nil _ filled
      rw [firstNames_eq opened stored]
      exact everywhere cls inside batch stored

/-- A stored batch of a class has the shared columns. -/
theorem has_common (opened : Opened graph) {classes : List Definition} {shared : List String}
    (common : Common graph classes columns shared) {cls : Definition} (member : cls ∈ classes)
    {batch : Batch} (stored : batch ∈ storedUnder graph cls) : batch.Has shared := by
  obtain ⟨store, found, _, within⟩ := mem_storedUnder.mp stored
  apply has_of_distinct (opened.distinct _ store found batch within)
  intro name among
  have filled : ∃ cls ∈ classes, storedUnder graph cls ≠ [] := ⟨cls, member, List.ne_nil_of_mem stored⟩
  exact ((common.members filled name).mp among).2 cls member batch stored

/-- The rows read for IRIs are those stored under their classes. -/
theorem rows_perm (opened : Opened graph) (once : iris.Nodup)
    (known : ∀ iri ∈ iris, ∃ cls ∈ graph.catalog.classes.items, cls.iri = iri)
    (rows : String → Batch → List (List (Option Value))) :
    (iris.flatMap fun iri => (storedAt graph iri).flatMap (rows iri)).Perm
      ((classesOf graph iris).flatMap fun cls => (storedUnder graph cls).flatMap (rows cls.iri)) := by
  have distinct : ((classesOf graph iris).map Definition.iri).Nodup :=
    opened.registered.sublist (List.filter_sublist.map _)
  have same : iris.Perm ((classesOf graph iris).map Definition.iri) := by
    rw [List.perm_ext_iff_of_nodup once distinct]
    intro iri
    constructor
    · intro member
      obtain ⟨cls, inside, rfl⟩ := known iri member
      exact List.mem_map_of_mem (mem_classesOf.mpr ⟨inside, member⟩)
    · intro member
      obtain ⟨cls, inside, rfl⟩ := List.mem_map.mp member
      exact (mem_classesOf.mp inside).2
  have moved := same.flatMap_right fun iri => (storedAt graph iri).flatMap (rows iri)
  rw [List.flatMap_map] at moved
  refine moved.trans (List.Perm.of_eq (List.flatMap_congr fun cls member => ?_))
  rw [storedAt_of_mem opened.registered (mem_classesOf.mp member).1]

end Iris

/-- The scan of classes that are all located. -/
theorem scan_located (opened : Opened graph)
    (ontology : Ontology graph.catalog.classes.items) (known : base ∈ graph.catalog.classes.items)
    (located : ∀ cls ∈ graph.catalog.classes.items,
      Covered graph.catalog.classes.items base include_self cls → Located graph cls) :
    ∃ output, scan graph (closureOf graph.catalog.classes.items) base.iri include_self columns =
      .ok output ∧ Complete graph base include_self columns output := by
  obtain ⟨iris, listed, once, members⟩ := descendantIris_ok ontology
    graph.catalog.classes.numbered known include_self
  have inCatalog : ∀ iri ∈ iris, ∃ cls ∈ graph.catalog.classes.items, cls.iri = iri := by
    intro iri member
    obtain ⟨cls, inside, isIri, _⟩ := (members iri).mp member
    exact ⟨cls, inside, isIri⟩
  let per_class := filledClasses graph iris
  let shared := asked columns (intersection per_class)
  let pairs := per_class.flatMap fun entry => entry.2.map fun batch => (entry.1, batch)
  have common : Common graph (classesOf graph iris) columns shared :=
    common_shared opened inCatalog columns
  have found : perClassBatches graph iris = .ok per_class := by
    apply perClassBatches_ok
    intro iri member
    obtain ⟨cls, inside, rfl, covered⟩ := (members iri).mp member
    rw [storedAt_of_mem opened.registered inside]
    exact (located cls inside covered).found opened inside
  have has : ∀ pair ∈ pairs, pair.2.Has shared := by
    intro pair member
    obtain ⟨entry, among, inside⟩ := List.mem_flatMap.mp member
    obtain ⟨batch, stored, rfl⟩ := List.mem_map.mp inside
    obtain ⟨cls, inClasses, rfl, _⟩ := (mem_filledClasses_iff opened inCatalog).mp among
    exact has_common opened common inClasses stored
  have ran : scan graph (closureOf graph.catalog.classes.items) base.iri include_self columns =
      .ok (pairs.map fun pair => closureBatch shared pair.1 pair.2) := by
    rw [scan_eq ontology known, ClosureScanOperator.collectBatches, listed, ok_bind, found, ok_bind]
    exact mapM_of_ok (fun pair : String × Batch => closureBatch shared pair.1 pair.2) pairs
      fun pair member => project_ok (has pair member) pair.1
  refine ⟨_, ran, classesOf graph iris, shared, ?_, ?_, common, ?_, ?_⟩
  · exact (opened.registered.of_map _).filter _
  · intro cls
    rw [mem_classesOf, members]
    refine and_congr_right fun inside => ⟨?_, fun covered => ⟨cls, inside, rfl, covered⟩⟩
    rintro ⟨other, member, same, covered⟩
    rwa [List.inj_on_of_nodup_map opened.registered member inside same] at covered
  · intro batch member
    obtain ⟨pair, _, rfl⟩ := List.mem_map.mp member
    exact closureBatch_names pair.1
  · have each : ∀ pair ∈ pairs, (closureBatch shared pair.1 pair.2).rows =
        taggedRows shared pair.1 pair.2 := fun pair member => closureBatch_rows (has pair member) _
    have perm := rows_perm opened once inCatalog (taggedRows shared)
    rw [← flatMap_filledClasses] at perm
    rw [List.flatMap_map, List.flatMap_congr each, List.flatMap_assoc]
    simpa only [List.flatMap_map] using perm

/-- A class that a complete scan covers is kept under the local part of its IRI: the rows under the
class are in the output, which tells the store they were read from. -/
theorem kept_of_complete (opened : Opened graph)
    (ran : scan graph closure base.iri include_self columns = .ok output)
    (complete : Complete graph base include_self columns output) {cls : Definition}
    (inside : cls ∈ graph.catalog.classes.items)
    (covered : Covered graph.catalog.classes.items base include_self cls)
    (filled : storedUnder graph cls ≠ []) : localOf cls.iri = cls.localName := by
  obtain ⟨classes, shared, _, members, _, _, rows⟩ := complete
  obtain ⟨_, _, _, found, projected⟩ := scan_ok ran
  obtain ⟨batch, stored⟩ := List.exists_mem_of_ne_nil _ filled
  obtain ⟨store, held, _, within⟩ := mem_storedUnder.mp stored
  have first : (shared.map fun name => valueAt batch name 0) ++ [some (.str cls.iri)] ∈
      taggedRows shared cls.iri batch :=
    List.mem_map.mpr ⟨0, List.mem_range.mpr (opened.filled _ store held batch within), rfl⟩
  have given := rows.mem_iff.mpr (List.mem_flatMap.mpr ⟨cls, (members cls).mpr ⟨inside, covered⟩,
    List.mem_flatMap.mpr ⟨batch, stored, first⟩⟩)
  obtain ⟨other, there, same⟩ := tagged_stored found projected given List.getLast?_concat
  exact opened.localName_of_store inside there same

/-- A scan gives exactly the rows stored under the classes that it covers if and only if each of
these classes is located under the local part of its IRI. -/
theorem scan_complete (opened : Opened graph) (made : fromCatalog graph.catalog = .ok closure)
    (known : base ∈ graph.catalog.classes.items) :
    (∃ output, scan graph closure base.iri include_self columns = .ok output ∧
      Complete graph base include_self columns output) ↔
    ∀ cls ∈ graph.catalog.classes.items,
      Covered graph.catalog.classes.items base include_self cls → Located graph cls := by
  obtain ⟨ontology, rfl⟩ := closureOf_made opened.registered made
  constructor
  · rintro ⟨output, ran, complete⟩ cls inside covered
    obtain ⟨iris, per_class, listed, found, _⟩ := scan_ok ran
    obtain ⟨all, again, _, members⟩ := descendantIris_ok ontology graph.catalog.classes.numbered
      known include_self
    obtain rfl := Except.ok.inj (again.symm.trans listed)
    obtain ⟨proper, own⟩ := opened_of_ok found ((members cls.iri).mpr ⟨cls, inside, rfl, covered⟩)
    exact ⟨proper, own, kept_of_complete opened ran complete inside covered⟩
  · exact scan_located opened ontology known

end Scan

/-! ## Genes -/

/-- The class of the stored gene, under a local name. -/
def codingGene (local_name : String) : Definition where
  id := 2
  iri := proteinCodingGene.iri
  local_name := some local_name
  superclass_iris := [gene.iri]

/-- One gene that is stored under the local name of its class. -/
def genesUnder (local_name : String) : Graph where
  catalog :=
    { classes :=
        { items := [gene, codingGene local_name]
          numbered := by simp [gene, codingGene] } }
  stores :=
    { entries := [(local_name, { class_iri := proteinCodingGene.iri, batches := [tp53] })]
      distinct := List.nodup_singleton _ }

theorem genesUnder_opened {local_name : String} (filled : local_name ≠ "") :
    Opened (genesUnder local_name) := by
  have only : ∀ name store, (genesUnder local_name).stores.get? name = some store →
      name = local_name ∧ store = { class_iri := proteinCodingGene.iri, batches := [tp53] } := by
    intro name store found
    have member := (Dict.get_eq_some _ _ _).mp found
    simpa [genesUnder] using member
  refine ⟨by simp [genesUnder, gene, codingGene, proteinCodingGene], ?_, ?_, ?_, ?_⟩
  · intro name store found
    obtain ⟨rfl, rfl⟩ := only name store found
    refine ⟨codingGene name, by simp [genesUnder], rfl, ?_⟩
    simp [codingGene, Definition.localName, textOr, filled]
  · intro name store found
    obtain ⟨rfl, rfl⟩ := only name store found
    decide
  · intro name store found
    obtain ⟨rfl, rfl⟩ := only name store found
    decide
  · intro name store found
    obtain ⟨rfl, rfl⟩ := only name store found
    decide

theorem genesUnder_made (local_name : String) : fromCatalog (genesUnder local_name).catalog =
    .ok (closureOf (genesUnder local_name).catalog.classes.items) := by
  rfl

/-- The stored gene is found below the class of all genes. -/
theorem genes_scanned : ∃ output,
    scan (genesUnder "ProteinCodingGene") (closureOf (genesUnder "ProteinCodingGene").catalog.classes.items)
      gene.iri true none = .ok output ∧
    Complete (genesUnder "ProteinCodingGene") gene true none output := by
  apply (scan_complete (genesUnder_opened (by decide)) (genesUnder_made _) (by decide)).mpr
  intro cls inside _
  simp only [genesUnder, List.mem_cons, List.not_mem_nil, or_false] at inside
  rcases inside with rfl | rfl
  · exact ⟨by decide, by decide, by decide⟩
  · exact ⟨by decide, by decide, by decide⟩

/-- No store is under the local part of an IRI. -/
theorem coding_skipped :
    scan (genesUnder "Coding") (closureOf (genesUnder "Coding").catalog.classes.items) gene.iri true
      none = .ok [] := by
  obtain ⟨ontology, _⟩ := closureOf_made (genesUnder_opened (by decide)).registered
    (genesUnder_made "Coding")
  obtain ⟨iris, listed, _, members⟩ := descendantIris_ok ontology
    (genesUnder "Coding").catalog.classes.numbered (by decide : gene ∈ _) true
  have skipped : perClassBatches (genesUnder "Coding") iris = .ok ((iris.map fun _ => none).filterMap id) := by
    have each : ∀ iri ∈ iris, classBatches (genesUnder "Coding") iri = .ok none := by
      intro iri member
      obtain ⟨cls, inside, rfl, _⟩ := (members iri).mp member
      simp only [genesUnder, List.mem_cons, List.not_mem_nil, or_false] at inside
      rcases inside with rfl | rfl
      · rfl
      · rfl
    rw [perClassBatches, mapM_of_ok (fun _ => none) iris each]
    rfl
  rw [scan_eq ontology (by decide), ClosureScanOperator.collectBatches, listed, ok_bind, skipped,
    ok_bind]
  simp
  rfl

/-- With another local name in the catalog the scan is empty, and the gene is lost. -/
theorem renamed_class_lost :
    scan (genesUnder "Coding") (closureOf (genesUnder "Coding").catalog.classes.items) gene.iri true
      none = .ok [] ∧
    ¬ ∀ (graph : Graph) (closure : ClassClosureIndex) (base : Definition) (include_self : Bool)
      (columns : Option (List String)), Opened graph → fromCatalog graph.catalog = .ok closure →
      base ∈ graph.catalog.classes.items →
      ∃ output, scan graph closure base.iri include_self columns = .ok output ∧
        Complete graph base include_self columns output := by
  refine ⟨coding_skipped, fun claim => ?_⟩
  obtain ⟨output, ran, complete⟩ := claim (genesUnder "Coding") _ gene true none
    (genesUnder_opened (by decide)) (genesUnder_made _) (by decide)
  have below : Covered (genesUnder "Coding").catalog.classes.items gene true (codingGene "Coding") :=
    .inr (TransGen.single (by decide))
  have kept := kept_of_complete (genesUnder_opened (by decide)) ran complete (by decide) below
    (by decide)
  exact absurd kept (by decide)

end CaracalDB.ClosureScan
