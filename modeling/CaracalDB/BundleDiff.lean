import Mathlib.Data.Finset.Sort
import Mathlib.Data.Finset.Card
import Mathlib.Data.String.Basic
import CaracalDB.Writes
import CaracalDB.KeyTypes

/-!
# Differences of two bundles

Catalogs are compared by their local names. Of the classes and the relations only
those are compared whose name is registered in both catalogs and has a store in both
bundles; of each the ids, or the pairs of endpoints, and the columns. A difference in
anything else is not seen.
-/

namespace CaracalDB.Diff

open Database

/-- `ClassDiff` -/
structure ClassDiff where
  local_name : String
  only_in_a : Nat
  only_in_b : Nat
  in_both : Nat
  schema_changed : Bool
  a_columns : List String
  b_columns : List String

/-- `RelationDiff` -/
structure RelationDiff where
  local_name : String
  only_in_a : Nat
  only_in_b : Nat
  in_both : Nat

/-- `BundleDiff` -/
structure BundleDiff where
  classes_added : List String
  classes_removed : List String
  properties_added : List String
  properties_removed : List String
  class_changes : List ClassDiff
  relation_changes : List RelationDiff
  a_path : String
  b_path : String

/-- `diff.is_empty()` -/
def BundleDiff.isEmpty (diff : BundleDiff) : Bool :=
  diff.classes_added = [] && diff.classes_removed = [] && diff.properties_added = [] &&
    diff.properties_removed = [] &&
    diff.class_changes.all (fun change =>
      change.only_in_a = 0 && change.only_in_b = 0 && !change.schema_changed) &&
    diff.relation_changes.all fun change => change.only_in_a = 0 && change.only_in_b = 0

/-- `store.schema.names` -/
def schemaNames (store : NodeStore) : List String :=
  if store.chunks = [] then [NID_COLUMN]
  else NID_COLUMN :: store.names ++ [CREATED_LSN_COLUMN, DELETED_LSN_COLUMN]

/-- `_id_column(store_schema)` -/
def idColumn (names : List String) : String :=
  if INTERNAL_GID_COLUMN ∈ names then INTERNAL_GID_COLUMN else NID_COLUMN

/-- The values of the id column that are no nulls. -/
def idValues (store : NodeStore) : List Value :=
  ((store.to_pylist none).map (Row.read · (idColumn (schemaNames store)))).filter (· ≠ .null)

/-- The values of both endpoint columns. -/
def endpointValues (store : EdgeStore) : List (Value × Value) :=
  (store.to_pylist none).map fun row => (row.read SRC_COLUMN, row.read DST_COLUMN)

variable (runtime : Runtime)

def readPair (pair : Value × Value) : Except Raised (Int × Int) := do
  let src ← runtime.toInt pair.1
  let dst ← runtime.toInt pair.2
  return (src, dst)

/-- The first class or property with a local name. -/
def named (registry : Registry) (local_name : String) : Option Definition :=
  registry.items.find? fun item => item.local_name.getD "" = local_name

/-- `_node_id_set(bundle, local_name)` -/
def nodeIdSet (bundle : Database) (local_name : String) :
    Except Raised (Finset Int × List String) :=
  match named bundle.catalog.classes local_name with
  | none => .ok (∅, [])
  | some cls => do
      let store ← bundle.openNodes cls.iri local_name
      if store.rows = [] then return (∅, schemaNames store)
      else
        let ids ← (idValues store).mapM runtime.toInt
        return (ids.toFinset, schemaNames store)

/-- `_edge_pair_set(bundle, local_name)` -/
def edgePairSet (bundle : Database) (local_name : String) : Except Raised (Finset (Int × Int)) :=
  match named bundle.catalog.properties local_name with
  | none => .ok ∅
  | some property => do
      let store ← bundle.openEdges property.iri local_name
      if store.rows = [] then return ∅
      else
        let pairs ← (endpointValues store).mapM (readPair runtime)
        return pairs.toFinset

/-- `{(c.local_name or "") for c in catalog.classes}` -/
def localNames (registry : Registry) : Finset String :=
  (registry.items.map fun item => item.local_name.getD "").toFinset

def sorted (names : Finset String) : List String := names.sort (· ≤ ·)

def classDiff (a b : Database) (name : String) : Except Raised ClassDiff := do
  let (a_ids, a_cols) ← nodeIdSet runtime a name
  let (b_ids, b_cols) ← nodeIdSet runtime b name
  return {
    local_name := name
    only_in_a := (a_ids \ b_ids).card
    only_in_b := (b_ids \ a_ids).card
    in_both := (a_ids ∩ b_ids).card
    schema_changed := a_cols ≠ b_cols
    a_columns := a_cols
    b_columns := b_cols }

def relationDiff (a b : Database) (name : String) : Except Raised RelationDiff := do
  let a_edges ← edgePairSet runtime a name
  let b_edges ← edgePairSet runtime b name
  return {
    local_name := name
    only_in_a := (a_edges \ b_edges).card
    only_in_b := (b_edges \ a_edges).card
    in_both := (a_edges ∩ b_edges).card }

/-- The names of both catalogs that have a store in both bundles. -/
def compared (a_names b_names : Finset String) (a_stores b_stores : List String) : List String :=
  (sorted (a_names ∩ b_names)).filter fun name =>
    name ≠ "" ∧ name ∈ a_stores ∧ name ∈ b_stores

/-- `diff_bundles(a_path, b_path)` of what the two bundles hold. -/
def diffBundles (a b : Database) : Except Raised BundleDiff := do
  let a_classes := localNames a.catalog.classes
  let b_classes := localNames b.catalog.classes
  let a_props := localNames a.catalog.properties
  let b_props := localNames b.catalog.properties
  let class_changes ← (compared a_classes b_classes a.list_node_stores
    b.list_node_stores).mapM (classDiff runtime a b)
  let relation_changes ← (compared a_props b_props a.list_edge_stores
    b.list_edge_stores).mapM (relationDiff runtime a b)
  return {
    classes_added := sorted (b_classes \ a_classes)
    classes_removed := sorted (a_classes \ b_classes)
    properties_added := sorted (b_props \ a_props)
    properties_removed := sorted (a_props \ b_props)
    class_changes
    relation_changes
    a_path := a.bundle.path
    b_path := b.bundle.path }

/-! ## Symmetry -/

/-- The same difference seen from the other bundle. -/
def ClassDiff.swap (diff : ClassDiff) : ClassDiff :=
  { diff with
    only_in_a := diff.only_in_b, only_in_b := diff.only_in_a
    a_columns := diff.b_columns, b_columns := diff.a_columns }

def RelationDiff.swap (diff : RelationDiff) : RelationDiff :=
  { diff with only_in_a := diff.only_in_b, only_in_b := diff.only_in_a }

def BundleDiff.swap (diff : BundleDiff) : BundleDiff where
  classes_added := diff.classes_removed
  classes_removed := diff.classes_added
  properties_added := diff.properties_removed
  properties_removed := diff.properties_added
  class_changes := diff.class_changes.map ClassDiff.swap
  relation_changes := diff.relation_changes.map RelationDiff.swap
  a_path := diff.b_path
  b_path := diff.a_path

theorem compared_swap (a_names b_names : Finset String) (a_stores b_stores : List String) :
    compared b_names a_names b_stores a_stores = compared a_names b_names a_stores b_stores := by
  rw [compared, Finset.inter_comm]
  apply List.filter_congr
  intro name _
  simp only [and_comm (a := name ∈ b_stores)]

theorem mapM_swap {Error Item Made : Type} {first second : Item → Except Error Made}
    {swap : Made → Made} (each : ∀ item one, first item = .ok one → second item = .ok (swap one))
    {items : List Item} {made : List Made} (done : items.mapM first = .ok made) :
    items.mapM second = .ok (made.map swap) := by
  induction items generalizing made with
  | nil =>
    cases done
    rfl
  | cons item items inductionHypothesis =>
    rw [List.mapM_cons] at done
    obtain ⟨one, here, rest⟩ := except_bind_ok done
    obtain ⟨others, later, same⟩ := except_bind_ok rest
    cases same
    rw [List.mapM_cons, each item one here, ok_bind, inductionHypothesis later]
    rfl

theorem classDiff_swap (a b : Database) (name : String) (diff : ClassDiff)
    (done : classDiff runtime a b name = .ok diff) :
    classDiff runtime b a name = .ok diff.swap := by
  obtain ⟨⟨a_ids, a_cols⟩, left, rest⟩ := except_bind_ok done
  obtain ⟨⟨b_ids, b_cols⟩, right, same⟩ := except_bind_ok rest
  cases same
  rw [classDiff, right, left]
  simp only [ok_bind, ClassDiff.swap, Finset.inter_comm b_ids, ne_comm (a := b_cols)]
  rfl

theorem relationDiff_swap (a b : Database) (name : String) (diff : RelationDiff)
    (done : relationDiff runtime a b name = .ok diff) :
    relationDiff runtime b a name = .ok diff.swap := by
  obtain ⟨a_edges, left, rest⟩ := except_bind_ok done
  obtain ⟨b_edges, right, same⟩ := except_bind_ok rest
  cases same
  rw [relationDiff, right, left]
  simp only [ok_bind, RelationDiff.swap, Finset.inter_comm b_edges]
  rfl

theorem diffBundles_swap {a b : Database} {diff : BundleDiff}
    (done : diffBundles runtime a b = .ok diff) : diffBundles runtime b a = .ok diff.swap := by
  obtain ⟨class_changes, classes, rest⟩ := except_bind_ok done
  obtain ⟨relation_changes, relations, same⟩ := except_bind_ok rest
  cases same
  rw [diffBundles, compared_swap (localNames a.catalog.classes),
    compared_swap (localNames a.catalog.properties),
    mapM_swap (classDiff_swap runtime a b) classes, ok_bind,
    mapM_swap (relationDiff_swap runtime a b) relations]
  rfl

/-! ## Completeness -/

/-- What a bundle stores under a class: ids and columns. A missing store is an empty one. -/
def nodeContent (bundle : Database) (name : String) : Finset Int × List String :=
  match bundle.nodes.get? name with
  | none => (∅, [NID_COLUMN])
  | some store => (((idValues store).filterMap fun value =>
      (runtime.toInt value).toOption).toFinset, schemaNames store)

/-- The pairs of endpoints that a bundle stores under a relation. -/
def edgeContent (bundle : Database) (name : String) : Finset (Int × Int) :=
  match bundle.edges.get? name with
  | none => ∅
  | some store => ((endpointValues store).filterMap fun pair =>
      (readPair runtime pair).toOption).toFinset

/-- The same names in the catalogs, and the same content under every name. -/
structure SameContent (a b : Database) : Prop where
  classes : localNames a.catalog.classes = localNames b.catalog.classes
  properties : localNames a.catalog.properties = localNames b.catalog.properties
  nodes : ∀ name, nodeContent runtime a name = nodeContent runtime b name
  edges : ∀ name, edgeContent runtime a name = edgeContent runtime b name

/-- A class whose stores are compared. -/
def ClassCompared (a b : Database) (name : String) : Prop :=
  name ∈ compared (localNames a.catalog.classes) (localNames b.catalog.classes) a.list_node_stores
    b.list_node_stores

/-- A relation whose stores are compared. -/
def RelationCompared (a b : Database) (name : String) : Prop :=
  name ∈ compared (localNames a.catalog.properties) (localNames b.catalog.properties)
    a.list_edge_stores b.list_edge_stores

/-- No difference where the diff looks. -/
structure LooksSame (a b : Database) : Prop where
  classes : localNames a.catalog.classes = localNames b.catalog.classes
  properties : localNames a.catalog.properties = localNames b.catalog.properties
  nodes : ∀ name, ClassCompared a b name → nodeContent runtime a name = nodeContent runtime b name
  edges : ∀ name, RelationCompared a b name →
    edgeContent runtime a name = edgeContent runtime b name

/-- No difference where the diff does not look: under names that are empty, not registered in both
catalogs, or without a store in one of the bundles. -/
structure SkippedSame (a b : Database) : Prop where
  nodes : ∀ name, ¬ ClassCompared a b name →
    nodeContent runtime a name = nodeContent runtime b name
  edges : ∀ name, ¬ RelationCompared a b name →
    edgeContent runtime a name = edgeContent runtime b name

theorem mem_compared {a_names b_names : Finset String} {a_stores b_stores : List String}
    {name : String} : name ∈ compared a_names b_names a_stores b_stores ↔
      (name ∈ a_names ∧ name ∈ b_names) ∧ name ≠ "" ∧ name ∈ a_stores ∧ name ∈ b_stores := by
  simp [compared, sorted]

theorem filterMap_of_mapM_ok {Error Item Made : Type} {make : Item → Except Error Made}
    {items : List Item} {made : List Made} (done : items.mapM make = .ok made) :
    items.filterMap (fun item => (make item).toOption) = made := by
  induction items generalizing made with
  | nil =>
    cases done
    rfl
  | cons item items inductionHypothesis =>
    rw [List.mapM_cons] at done
    obtain ⟨one, here, rest⟩ := except_bind_ok done
    obtain ⟨others, later, same⟩ := except_bind_ok rest
    cases same
    rw [List.filterMap_cons, here, inductionHypothesis later]
    rfl

theorem openNodes_stored {bundle : Database} {iri name : String} {store : NodeStore}
    (opened : bundle.openNodes iri name = .ok store) : bundle.nodes.get? name = some store := by
  rw [openNodes, nodeStoreOf] at opened
  cases valid : assertLocalName "CDB-7010" "class" name with
  | error raised =>
    rw [valid] at opened
    cases opened
  | ok answer =>
    cases found : bundle.nodes.get? name with
    | none =>
      rw [valid, found] at opened
      cases opened
    | some stored =>
      rw [valid, found] at opened
      by_cases same : stored.iri = iri
      · simp only [if_pos same] at opened
        rw [Except.ok.inj opened]
      · simp only [if_neg same, raiseCaracal] at opened
        cases opened

theorem openEdges_stored {bundle : Database} {iri name : String} {store : EdgeStore}
    (opened : bundle.openEdges iri name = .ok store) : bundle.edges.get? name = some store := by
  rw [openEdges, edgeStoreOf] at opened
  cases valid : assertLocalName "CDB-7020" "property" name with
  | error raised =>
    rw [valid] at opened
    cases opened
  | ok answer =>
    cases found : bundle.edges.get? name with
    | none =>
      rw [valid, found] at opened
      cases opened
    | some stored =>
      rw [valid, found] at opened
      by_cases same : stored.iri = iri
      · simp only [if_pos same] at opened
        rw [Except.ok.inj opened]
      · simp only [if_neg same, raiseCaracal] at opened
        cases opened

theorem named_of_mem {registry : Registry} {name : String} (registered : name ∈ localNames registry) :
    ∃ item, named registry name = some item := by
  simp only [localNames, List.mem_toFinset, List.mem_map] at registered
  obtain ⟨item, member, same⟩ := registered
  apply Option.isSome_iff_exists.mp
  rw [named, List.find?_isSome]
  exact ⟨item, member, decide_eq_true same⟩

/-- What is read of a registered class is its content. -/
theorem nodeIdSet_content {bundle : Database} {name : String}
    (registered : name ∈ localNames bundle.catalog.classes) {read : Finset Int × List String}
    (done : nodeIdSet runtime bundle name = .ok read) : read = nodeContent runtime bundle name := by
  obtain ⟨cls, found⟩ := named_of_mem registered
  rw [nodeIdSet, found] at done
  obtain ⟨store, opened, rest⟩ := except_bind_ok done
  rw [nodeContent, openNodes_stored opened]
  split at rest
  · next empty =>
    cases rest
    simp [idValues, Store.to_pylist, empty]
  · obtain ⟨ids, mapped, same⟩ := except_bind_ok rest
    cases same
    simp only [filterMap_of_mapM_ok mapped]

theorem edgePairSet_content {bundle : Database} {name : String}
    (registered : name ∈ localNames bundle.catalog.properties) {read : Finset (Int × Int)}
    (done : edgePairSet runtime bundle name = .ok read) : read = edgeContent runtime bundle name := by
  obtain ⟨property, found⟩ := named_of_mem registered
  rw [edgePairSet, found] at done
  obtain ⟨store, opened, rest⟩ := except_bind_ok done
  rw [edgeContent, openEdges_stored opened]
  split at rest
  · next empty =>
    cases rest
    simp [endpointValues, Store.to_pylist, empty]
  · obtain ⟨pairs, mapped, same⟩ := except_bind_ok rest
    cases same
    simp only [filterMap_of_mapM_ok mapped]

theorem card_sdiff_eq_zero_iff {Item : Type} [DecidableEq Item] (left right : Finset Item) :
    (left \ right).card = 0 ∧ (right \ left).card = 0 ↔ left = right := by
  rw [Finset.card_eq_zero, Finset.card_eq_zero, Finset.sdiff_eq_empty_iff_subset,
    Finset.sdiff_eq_empty_iff_subset]
  exact ⟨fun both => both.1.antisymm both.2, fun same => ⟨same.subset, same.superset⟩⟩

theorem sorted_eq_nil_iff (names : Finset String) : sorted names = [] ↔ names = ∅ := by
  rw [List.eq_nil_iff_forall_not_mem, Finset.eq_empty_iff_forall_notMem]
  simp [sorted]

theorem classDiff_same_iff {a b : Database} {name : String} {diff : ClassDiff}
    (isCompared : ClassCompared a b name) (done : classDiff runtime a b name = .ok diff) :
    (diff.only_in_a = 0 ∧ diff.only_in_b = 0) ∧ diff.schema_changed = false ↔
      nodeContent runtime a name = nodeContent runtime b name := by
  obtain ⟨⟨inA, inB⟩, _⟩ := mem_compared.mp isCompared
  obtain ⟨left, readLeft, rest⟩ := except_bind_ok done
  obtain ⟨right, readRight, same⟩ := except_bind_ok rest
  cases same
  rw [← nodeIdSet_content runtime inA readLeft, ← nodeIdSet_content runtime inB readRight]
  simp only [card_sdiff_eq_zero_iff, decide_eq_false_iff_not, not_not, ne_eq]
  exact Prod.ext_iff.symm

theorem relationDiff_same_iff {a b : Database} {name : String} {diff : RelationDiff}
    (isCompared : RelationCompared a b name) (done : relationDiff runtime a b name = .ok diff) :
    diff.only_in_a = 0 ∧ diff.only_in_b = 0 ↔
      edgeContent runtime a name = edgeContent runtime b name := by
  obtain ⟨⟨inA, inB⟩, _⟩ := mem_compared.mp isCompared
  obtain ⟨left, readLeft, rest⟩ := except_bind_ok done
  obtain ⟨right, readRight, same⟩ := except_bind_ok rest
  cases same
  rw [← edgePairSet_content runtime inA readLeft, ← edgePairSet_content runtime inB readRight]
  exact card_sdiff_eq_zero_iff left right

/-- The diff is empty exactly when there is no difference where it looks. -/
theorem isEmpty_iff {a b : Database} {diff : BundleDiff} (done : diffBundles runtime a b = .ok diff) :
    diff.isEmpty = true ↔ LooksSame runtime a b := by
  obtain ⟨class_changes, classes, rest⟩ := except_bind_ok done
  obtain ⟨relation_changes, relations, same⟩ := except_bind_ok rest
  cases same
  simp only [BundleDiff.isEmpty, Bool.and_eq_true, decide_eq_true_eq, List.all_eq_true,
    Bool.not_eq_true', sorted_eq_nil_iff, Finset.sdiff_eq_empty_iff_subset]
  constructor
  · rintro ⟨⟨⟨⟨⟨added, removed⟩, new⟩, gone⟩, changes⟩, edges⟩
    refine { classes := removed.antisymm added, properties := gone.antisymm new
             nodes := ?_, edges := ?_ }
    · intro name isCompared
      obtain ⟨change, made⟩ := ok_of_mapM_ok classes name isCompared
      exact (classDiff_same_iff runtime isCompared made).mp
        (changes change ((mem_of_mapM_ok classes change).mpr ⟨name, isCompared, made⟩))
    · intro name isCompared
      obtain ⟨change, made⟩ := ok_of_mapM_ok relations name isCompared
      exact (relationDiff_same_iff runtime isCompared made).mp
        (edges change ((mem_of_mapM_ok relations change).mpr ⟨name, isCompared, made⟩))
  · intro looks
    refine ⟨⟨⟨⟨⟨looks.classes.superset, looks.classes.subset⟩, looks.properties.superset⟩,
      looks.properties.subset⟩, ?_⟩, ?_⟩
    · intro change member
      obtain ⟨name, isCompared, made⟩ := (mem_of_mapM_ok classes change).mp member
      exact (classDiff_same_iff runtime isCompared made).mpr (looks.nodes name isCompared)
    · intro change member
      obtain ⟨name, isCompared, made⟩ := (mem_of_mapM_ok relations change).mp member
      exact (relationDiff_same_iff runtime isCompared made).mpr (looks.edges name isCompared)

theorem sameContent_iff (a b : Database) :
    SameContent runtime a b ↔ LooksSame runtime a b ∧ SkippedSame runtime a b := by
  constructor
  · intro same
    exact ⟨{ same with nodes := fun name _ => same.nodes name, edges := fun name _ => same.edges name },
      { nodes := fun name _ => same.nodes name, edges := fun name _ => same.edges name }⟩
  · rintro ⟨looks, skipped⟩
    refine { classes := looks.classes, properties := looks.properties, nodes := ?_, edges := ?_ }
    · intro name
      by_cases isCompared : ClassCompared a b name
      · exact looks.nodes name isCompared
      · exact skipped.nodes name isCompared
    · intro name
      by_cases isCompared : RelationCompared a b name
      · exact looks.edges name isCompared
      · exact skipped.edges name isCompared

/-- The diff of the exchanged bundles is the exchanged diff; and an empty diff means the same
content exactly when bundles without a difference where the diff looks have none elsewhere. -/
theorem diff_complete_iff (a b : Database) (diff : BundleDiff)
    (done : diffBundles runtime a b = .ok diff) :
    diffBundles runtime b a = .ok diff.swap ∧
      ((diff.isEmpty = true ↔ SameContent runtime a b) ↔
        (LooksSame runtime a b → SkippedSame runtime a b)) := by
  refine ⟨diffBundles_swap runtime done, ?_⟩
  rw [isEmpty_iff runtime done, sameContent_iff]
  tauto

/-- Bundles of which nothing is compared beyond the catalogs have a diff. -/
theorem diffBundles_uncompared {a b : Database} (classes : ∀ name, ¬ ClassCompared a b name)
    (relations : ∀ name, ¬ RelationCompared a b name) : ∃ diff, diffBundles runtime a b = .ok diff := by
  have noClasses := List.eq_nil_iff_forall_not_mem.mpr classes
  have noRelations := List.eq_nil_iff_forall_not_mem.mpr relations
  rw [diffBundles, noClasses, noRelations]
  exact ⟨_, rfl⟩

/-- A class without rows. -/
def declared : Database :=
  { Database.create "declared.crcl" with
    catalog := { classes :=
      { items := [{ id := 1, iri := "urn:Person", local_name := some "Person" }]
        numbered := List.nodup_singleton _ } } }

/-- The class with one row. -/
def populated : Database :=
  { declared with
    nodes := Dict.ofEntries [("Person",
      { iri := "urn:Person", next_id := 1, fields := []
        chunks := [[{ id := 0, values := Dict.empty, created_lsn := 1 }]]
        distinct := List.nodup_nil, unreserved := by decide
        aligned := by simp [Dict.empty, Dict.keys], numbered := by simp })] }

theorem populated_uncompared : (∀ name, ¬ ClassCompared populated declared name) ∧
    ∀ name, ¬ RelationCompared populated declared name := by
  have noNodes : declared.list_node_stores = [] := rfl
  have noEdges : declared.list_edge_stores = [] := rfl
  constructor
  · intro name isCompared
    have stored := (mem_compared.mp isCompared).2.2.2
    rw [noNodes] at stored
    exact List.not_mem_nil stored
  · intro name isCompared
    have stored := (mem_compared.mp isCompared).2.2.2
    rw [noEdges] at stored
    exact List.not_mem_nil stored

theorem populated_diff : ∃ diff, diffBundles Runtime.plain populated declared = .ok diff ∧
    diffBundles Runtime.plain declared populated = .ok diff.swap := by
  obtain ⟨diff, done⟩ := diffBundles_uncompared Runtime.plain populated_uncompared.1
    populated_uncompared.2
  exact ⟨diff, done, (diff_complete_iff Runtime.plain populated declared diff done).1⟩

/-- One bundle has a row and the other no store, and their diff is empty. -/
theorem populated_overlooked : ¬ ∀ (a b : Database) (diff : BundleDiff),
    diffBundles Runtime.plain a b = .ok diff →
      (diff.isEmpty = true ↔ SameContent Runtime.plain a b) := by
  intro always
  obtain ⟨diff, done⟩ := diffBundles_uncompared Runtime.plain populated_uncompared.1
    populated_uncompared.2
  have looks : LooksSame Runtime.plain populated declared :=
    { classes := rfl, properties := rfl
      nodes := fun name isCompared => absurd isCompared (populated_uncompared.1 name)
      edges := fun name isCompared => absurd isCompared (populated_uncompared.2 name) }
  have same := (always populated declared diff done).mp
    ((isEmpty_iff Runtime.plain done).mpr looks)
  have columns := congrArg Prod.snd (same.nodes "Person")
  revert columns
  decide

end CaracalDB.Diff
