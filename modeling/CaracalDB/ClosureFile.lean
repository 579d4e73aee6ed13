import CaracalDB.CatalogIntegrity
import CaracalDB.HierarchyDag
import Mathlib.Logic.Equiv.Finset

/-!
# The file of the class closure

A closure keeps for every class the numbers of the classes below it and above it, and is
saved with the numbers of all classes. When it is loaded, the numbers are compared with
those of the catalog, the superclasses are not. So what is loaded answers for the catalog
of today exactly if the classes still reach one another as they did when it was saved.
-/

namespace CaracalDB.ClosureFile

open Onto Dag Relation

/-- The superclasses of the classes, under their IRIs. -/
def superclasses (catalog : Onto.Catalog) : Dict String (List String) :=
  Dict.ofEntries (catalog.classes.map fun item => (item.iri, item.superclass_iris))

/-- The superproperties of the properties, under their IRIs. -/
def superproperties (catalog : Onto.Catalog) : Dict String (List String) :=
  Dict.ofEntries (catalog.properties.map fun item => (item.iri, item.superproperty_iris))

/-- `OntologyHierarchy` -/
structure OntologyHierarchy where
  classes : HierarchyDAG
  properties : HierarchyDAG

/-- `OntologyHierarchy.from_catalog(catalog)` -/
def OntologyHierarchy.fromCatalog (catalog : Onto.Catalog) : Except Raised OntologyHierarchy := do
  let classes ← fromEdges "class" (catalog.classes.map ClassDef.iri) (superclasses catalog)
  let properties ←
    fromEdges "property" (catalog.properties.map PropertyDef.iri) (superproperties catalog)
  return { classes, properties }

/-- Which classes a bitmap holds. -/
inductive Direction where
  | descendants | ancestors
deriving DecidableEq

/-- The bitmaps of the library: each is read back from its text in base 64, and a number that is
no unsigned one of 32 bits is refused. -/
structure Bitmaps where
  dumps : Finset Nat → String
  loads : String → Except Raised (Finset Nat)
  overflow : Int → Raised
  loads_dumps : ∀ bitmap, loads (dumps bitmap) = .ok bitmap

/-- `ClassClosureIndex`, with its caches for both directions. -/
structure ClassClosureIndex where
  hierarchy : HierarchyDAG
  class_id_by_iri : Dict String Int
  caches : Direction → Dict String (Finset Nat)

/-- `ClassClosureIndex.from_catalog(catalog)` -/
def fromCatalog (catalog : Onto.Catalog) : Except Raised ClassClosureIndex := do
  let hierarchy ← OntologyHierarchy.fromCatalog catalog
  return { hierarchy := hierarchy.classes
           class_id_by_iri := Dict.ofEntries (catalog.classes.map fun item => (item.iri, item.cid))
           caches := fun _ => Dict.empty }

section Bitmaps

variable (bitmaps : Bitmaps)

/-- `BitMap(ids)` -/
def Bitmaps.ofIds (ids : List Int) : Except Raised (Finset Nat) :=
  match ids.find? fun id => id < 0 ∨ 2 ^ 32 ≤ id with
  | some id => .error (bitmaps.overflow id)
  | none => .ok (ids.map Int.toNat).toFinset

/-- `_require_class(iri)`, which gives the number of the class. -/
def ClassClosureIndex.requireClass (index : ClassClosureIndex) (iri : String) : Except Raised Int :=
  match index.class_id_by_iri.get? iri with
  | some id => .ok id
  | none => .error (unknownHierarchyNode "class" iri)

/-- `self.class_id_by_iri[item]` -/
def ClassClosureIndex.idOf (index : ClassClosureIndex) (item : String) : Except Raised Int :=
  match index.class_id_by_iri.get? item with
  | some id => .ok id
  | none => .error (.keyError item)

/-- The classes on one side of a class, without the class. -/
def Direction.walk (direction : Direction) (hierarchy : HierarchyDAG) (iri : String) :
    Except Raised (List String) :=
  match direction with
  | .descendants => hierarchy.descendants iri false
  | .ancestors => hierarchy.ancestors iri false

/-- The bitmap from the cache, or a new one with which it is filled. -/
def ClassClosureIndex.cached (index : ClassClosureIndex) (direction : Direction) (iri : String) :
    Except Raised (Finset Nat × ClassClosureIndex) :=
  match (index.caches direction).get? iri with
  | some bitmap => .ok (bitmap, index)
  | none => do
      let ids ← (← direction.walk index.hierarchy iri).mapM index.idOf
      let bitmap ← bitmaps.ofIds ids
      return (bitmap, { index with
        caches := Function.update index.caches direction ((index.caches direction).set iri bitmap) })

/-- A bitmap of one direction, and the index with it in its cache. -/
def ClassClosureIndex.bitmap (index : ClassClosureIndex) (direction : Direction) (iri : String)
    (include_self : Bool) : Except Raised (Finset Nat × ClassClosureIndex) := do
  let id ← index.requireClass iri
  let (bitmap, index) ← index.cached bitmaps direction iri
  if include_self then return (bitmap ∪ (← bitmaps.ofIds [id]), index)
  else return (bitmap, index)

/-- `descendants_bitmap(iri, include_self=...)` -/
def ClassClosureIndex.descendantsBitmap (index : ClassClosureIndex) (iri : String)
    (include_self : Bool) : Except Raised (Finset Nat × ClassClosureIndex) :=
  index.bitmap bitmaps .descendants iri include_self

/-- `ancestors_bitmap(iri, include_self=...)` -/
def ClassClosureIndex.ancestorsBitmap (index : ClassClosureIndex) (iri : String)
    (include_self : Bool) : Except Raised (Finset Nat × ClassClosureIndex) :=
  index.bitmap bitmaps .ancestors iri include_self

/-- One turn of the loop of `materialize_all()`. -/
def ClassClosureIndex.materialize (index : ClassClosureIndex) (iri : String) :
    Except Raised ClassClosureIndex := do
  let (_, index) ← index.descendantsBitmap bitmaps iri true
  let (_, index) ← index.ancestorsBitmap bitmaps iri true
  return index

/-- `materialize_all()` -/
def ClassClosureIndex.materializeAll (index : ClassClosureIndex) : Except Raised ClassClosureIndex :=
  index.hierarchy.nodes.foldlM (ClassClosureIndex.materialize bitmaps) index

/-! ## The file -/

def CLOSURE_ENCODING : String := "caracal.class-closure.v1+roaring"

/-- The entries of a dictionary as values. -/
def written {Item : Type} (write : Item → Value) (dict : Dict String Item) : Value :=
  .dict (dict.entries.map fun entry => (entry.1, write entry.2))

/-- `base64.b64encode(bitmap.serialize()).decode("ascii")` -/
def Bitmaps.write (bitmap : Finset Nat) : Value := .str (bitmaps.dumps bitmap)

/-- The entries of the dictionary that is saved. -/
def ClassClosureIndex.envelope (index : ClassClosureIndex) : List (String × Value) :=
  [("encoding", .str CLOSURE_ENCODING), ("class_id_by_iri", written .int index.class_id_by_iri),
    ("descendants_by_iri", written bitmaps.write (index.caches .descendants)),
    ("ancestors_by_iri", written bitmaps.write (index.caches .ancestors))]

variable {Text : Type} (json : Json Text)

/-- `to_bytes()` -/
def ClassClosureIndex.toBytes (index : ClassClosureIndex) : Except Raised (FileBytes Text) := do
  let index ← index.materializeAll bitmaps
  return { header := MAGIC, text := json.dumps (sorted (.dict (index.envelope bitmaps))) }

/-- `{key: read(value) for key, value in payload.get(name, {}).items()}` -/
def readEntries {Item : Type} (read : Value → Except Raised Item) (name : String) (payload : Value) :
    Except Raised (Dict String Item) := do
  match ← entryOr name (.dict []) payload with
  | .dict entries => do
      return Dict.ofEntries (← entries.mapM fun entry => do return (entry.1, ← read entry.2))
  | _ => .error (.attributeError "items")

/-- `BitMap.deserialize(base64.b64decode(encoded))` -/
def Bitmaps.read : Value → Except Raised (Finset Nat)
  | .str encoded => bitmaps.loads encoded
  | _ => .error (.typeError "argument should be a bytes-like object or ASCII string")

/-- Equal dictionaries, whatever their order. -/
def sameDict (left right : Dict String Int) : Prop :=
  left.keys.length = right.keys.length ∧ ∀ entry ∈ left.entries, right.get? entry.1 = some entry.2

instance (left right : Dict String Int) : Decidable (sameDict left right) :=
  inferInstanceAs (Decidable (_ ∧ _))

/-- `ClassClosureIndex.from_bytes(data, catalog=...)` -/
def fromBytes (c : Conversions) (data : FileBytes Text) (catalog : Onto.Catalog) :
    Except Raised ClassClosureIndex := do
  let index ← fromCatalog catalog
  refuse (data.header ≠ MAGIC)
    (.caracal { code := "CDB-9506", message := "class closure file has invalid magic" })
  let payload ← json.loads data.text
  refuse ((← entryOr "encoding" .null payload) ≠ .str CLOSURE_ENCODING)
    (.caracal { code := "CDB-9506", message := "unsupported class closure encoding" })
  let stored_ids ← readEntries c.toInt "class_id_by_iri" payload
  refuse (¬ sameDict stored_ids index.class_id_by_iri) (.caracal
    { code := "CDB-9507", message := "class closure cache is stale for the current catalog" })
  let descendants ← readEntries bitmaps.read "descendants_by_iri" payload
  let ancestors ← readEntries bitmaps.read "ancestors_by_iri" payload
  return { index with caches := fun
    | .descendants => descendants
    | .ancestors => ancestors }

end Bitmaps

/-! ## Dictionaries read back -/

/-- A dictionary of entries with distinct keys has these entries. -/
theorem get_ofEntries {Item : Type} {entries : List (String × Item)}
    (distinct : (entries.map Prod.fst).Nodup) (key : String) (item : Item) :
    (Dict.ofEntries entries).get? key = some item ↔ (key, item) ∈ entries := by
  rw [Dict.ofEntries, Dict.get_foldl_set entries distinct, Dict.get_empty, Option.or_none]
  exact Dict.get_eq_some ⟨entries, distinct⟩ key item

theorem get_arranged {Item : Type} (dict : Dict String Item) {arranged : List (String × Item)}
    (perm : arranged.Perm dict.entries) (key : String) :
    (Dict.ofEntries arranged).get? key = dict.get? key := by
  have distinct : (arranged.map Prod.fst).Nodup :=
    (perm.map Prod.fst).nodup_iff.mpr dict.distinct
  refine Option.ext fun item => ?_
  rw [get_ofEntries distinct, dict.get_eq_some, perm.mem_iff]

/-- Dictionaries are the same if they have the same entries. -/
theorem sameDict_iff (left right : Dict String Int) :
    sameDict left right ↔ ∀ key, left.get? key = right.get? key := by
  constructor
  · rintro ⟨length, inside⟩ key
    have among : ∀ key ∈ left.keys, key ∈ right.keys := by
      intro key member
      obtain ⟨item, held⟩ := (left.mem_keys key).mp member
      exact (right.mem_keys key).mpr ⟨item, inside _ ((left.get_eq_some key item).mp held)⟩
    have perm := (left.distinct.subperm among).perm_of_length_le length.ge
    by_cases member : key ∈ left.keys
    · obtain ⟨item, held⟩ := (left.mem_keys key).mp member
      rw [held, inside _ ((left.get_eq_some key item).mp held)]
    · rw [(left.get_eq_none key).mpr member,
        (right.get_eq_none key).mpr fun other => member (perm.mem_iff.mpr other)]
  · intro same
    refine ⟨?_, fun entry member => ?_⟩
    · have keys : ∀ key, key ∈ left.keys ↔ key ∈ right.keys := fun key => by
        rw [left.mem_keys, right.mem_keys, same]
      exact ((List.perm_ext_iff_of_nodup left.distinct right.distinct).mpr keys).length_eq
    · rw [← same]
      exact (left.get_eq_some _ _).mpr member

/-- An entry stands at its place among other written entries. -/
theorem insert_written {Item : Type} (write : Item → Value) (entry : String × Item)
    (entries : List (String × Item)) :
    ∃ arranged : List (String × Item), arranged.Perm (entry :: entries) ∧
      (entries.map fun entry => (entry.1, write entry.2)).orderedInsert keyOrder
        (entry.1, write entry.2) = arranged.map fun entry => (entry.1, write entry.2) := by
  induction entries with
  | nil => exact ⟨[entry], List.Perm.refl _, rfl⟩
  | cons first entries inductionHypothesis =>
    obtain ⟨arranged, perm, same⟩ := inductionHypothesis
    rw [List.map_cons, List.orderedInsert_cons]
    by_cases earlier : keyOrder (entry.1, write entry.2) (first.1, write first.2)
    · rw [if_pos earlier]
      exact ⟨entry :: first :: entries, List.Perm.refl _, rfl⟩
    · rw [if_neg earlier, same]
      exact ⟨first :: arranged, (perm.cons first).trans (List.Perm.swap entry first entries), rfl⟩

theorem sortedEntries_written {Item : Type} {write : Item → Value}
    (plain : ∀ item, sorted (write item) = write item) (entries : List (String × Item)) :
    ∃ arranged : List (String × Item), arranged.Perm entries ∧
      sortedEntries (entries.map fun entry => (entry.1, write entry.2)) =
        arranged.map fun entry => (entry.1, write entry.2) := by
  induction entries with
  | nil => exact ⟨[], List.Perm.refl _, rfl⟩
  | cons entry entries inductionHypothesis =>
    obtain ⟨others, perm, same⟩ := inductionHypothesis
    obtain ⟨arranged, moved, inserted⟩ := insert_written write entry others
    refine ⟨arranged, moved.trans (perm.cons entry), ?_⟩
    rw [List.map_cons, sortedEntries, same, plain, inserted]

/-- A dictionary that was written is read back with its entries. -/
theorem readEntries_written {Item : Type} {read : Value → Except Raised Item} {write : Item → Value}
    (plain : ∀ item, sorted (write item) = write item) (back : ∀ item, read (write item) = .ok item)
    (dict : Dict String Item) {name : String} {entries : List (String × Value)}
    (found : lookup name entries = some (written write dict)) :
    ∃ again : Dict String Item, readEntries read name (sorted (.dict entries)) = .ok again ∧
      ∀ key, again.get? key = dict.get? key := by
  obtain ⟨arranged, perm, same⟩ := sortedEntries_written plain dict.entries
  refine ⟨Dict.ofEntries arranged, ?_, get_arranged dict perm⟩
  have each : (arranged.map fun entry => (entry.1, write entry.2)).mapM
      (fun entry => do return (entry.1, ← read entry.2)) = .ok arranged := by
    rw [List.mapM_map]
    have step : ∀ entry ∈ arranged,
        (do return (entry.1, ← read (write entry.2)) : Except Raised (String × Item)) =
          .ok (id entry) := fun entry _ => by rw [back]; rfl
    have answers := mapM_of_ok id arranged step
    rw [List.map_id] at answers
    exact answers
  rw [readEntries, entryOr_dict name _ entries found, ok_bind, written, sorted, same]
  show (do return Dict.ofEntries (← List.mapM _ _)) = _
  rw [each]
  rfl

/-! ## Bitmaps and the hierarchy -/

/-- A hierarchy of nodes only, without a cycle. -/
def Ordered (nodes : List String) (parents : Dict String (List String)) : Prop :=
  Mentions nodes parents.entries ∧ ∀ node, ¬ TransGen (Parent parents) node node

/-- The numbers of the classes under their IRIs. -/
def classIds (catalog : Onto.Catalog) : Dict String Int :=
  Dict.ofEntries (catalog.classes.map fun item => (item.iri, item.cid))

/-- A class is on one side of another in the hierarchy of a catalog. -/
def Direction.Reaches (direction : Direction) (catalog : Onto.Catalog) (iri other : String) : Prop :=
  match direction with
  | .descendants => TransGen (Parent (superclasses catalog)) other iri
  | .ancestors => TransGen (Parent (superclasses catalog)) iri other

/-- A bitmap holds the numbers of the classes on one side of a class. -/
def Describes (catalog : Onto.Catalog) (direction : Direction) (iri : String) (bitmap : Finset Nat) :
    Prop :=
  ∀ number, number ∈ bitmap ↔ ∃ other id, direction.Reaches catalog iri other ∧
    (classIds catalog).get? other = some id ∧ id.toNat = number

section Catalog

variable {catalog : Onto.Catalog}

theorem iris_distinct (sound : Sound catalog) : (catalog.classes.map ClassDef.iri).Nodup := by
  have distinct := (sound .classes).2
  rwa [Onto.Catalog.labels, List.map_map] at distinct

theorem properties_distinct (sound : Sound catalog) :
    (catalog.properties.map PropertyDef.iri).Nodup := by
  have distinct := (sound .properties).2
  rwa [Onto.Catalog.labels, List.map_map] at distinct

theorem get_classIds (sound : Sound catalog) (iri : String) (id : Int) :
    (classIds catalog).get? iri = some id ↔ ∃ item ∈ catalog.classes, item.iri = iri ∧ item.cid = id := by
  have distinct : ((catalog.classes.map fun item => (item.iri, item.cid)).map Prod.fst).Nodup := by
    rw [List.map_map]
    exact iris_distinct sound
  rw [classIds, get_ofEntries distinct, List.mem_map]
  simp only [Prod.mk.injEq]

/-- A number is the number of one class. -/
theorem classIds_injective (sound : Sound catalog) {first second : String} {id : Int}
    (firstIs : (classIds catalog).get? first = some id)
    (secondIs : (classIds catalog).get? second = some id) : first = second := by
  obtain ⟨item, among, rfl, rfl⟩ := (get_classIds sound _ _).mp firstIs
  obtain ⟨other, amongOther, rfl, same⟩ := (get_classIds sound _ _).mp secondIs
  have numbers := (sound .classes).1
  rw [Onto.Catalog.labels, List.map_map] at numbers
  exact congrArg ClassDef.iri (List.inj_on_of_nodup_map numbers among amongOther same.symm)

theorem mem_classes_iff (sound : Sound catalog) (iri : String) :
    iri ∈ catalog.classes.map ClassDef.iri ↔ ∃ id, (classIds catalog).get? iri = some id := by
  constructor
  · intro member
    obtain ⟨item, among, rfl⟩ := List.mem_map.mp member
    exact ⟨item.cid, (get_classIds sound _ _).mpr ⟨item, among, rfl, rfl⟩⟩
  · rintro ⟨id, held⟩
    obtain ⟨item, among, rfl, _⟩ := (get_classIds sound _ _).mp held
    exact List.mem_map_of_mem among

/-- A catalog gives an index exactly if its classes and its properties are ordered. -/
theorem fromCatalog_iff (sound : Sound catalog) :
    (∃ index, fromCatalog catalog = .ok index) ↔
      Ordered (catalog.classes.map ClassDef.iri) (superclasses catalog) ∧
        Ordered (catalog.properties.map PropertyDef.iri) (superproperties catalog) := by
  have classes := (hierarchy_answers "class" _ (superclasses catalog) (iris_distinct sound)).1
  have properties :=
    (hierarchy_answers "property" _ (superproperties catalog) (properties_distinct sound)).1
  rw [Ordered, Ordered, ← classes, ← properties]
  constructor
  · rintro ⟨index, built⟩
    obtain ⟨_, both, _⟩ := except_bind_ok built
    obtain ⟨first, firstBuilt, rest⟩ := except_bind_ok both
    obtain ⟨second, secondBuilt, _⟩ := except_bind_ok rest
    exact ⟨⟨first, firstBuilt⟩, ⟨second, secondBuilt⟩⟩
  · rintro ⟨⟨first, firstBuilt⟩, ⟨second, secondBuilt⟩⟩
    rw [fromCatalog, OntologyHierarchy.fromCatalog, firstBuilt, ok_bind, secondBuilt, ok_bind]
    exact ⟨_, rfl⟩

/-- The index of a catalog has its hierarchy and its numbers, and nothing is cached. -/
theorem fromCatalog_ok {index : ClassClosureIndex} (built : fromCatalog catalog = .ok index) :
    fromEdges "class" (catalog.classes.map ClassDef.iri) (superclasses catalog) =
      .ok index.hierarchy ∧ index.class_id_by_iri = classIds catalog ∧
        index.caches = fun _ => Dict.empty := by
  obtain ⟨_, both, rest⟩ := except_bind_ok built
  obtain ⟨first, firstBuilt, more⟩ := except_bind_ok both
  obtain ⟨_, _, same⟩ := except_bind_ok more
  cases same
  cases rest
  exact ⟨firstBuilt, rfl, rfl⟩

/-- An index of a catalog whose caches describe the hierarchy of a catalog. -/
structure ClassClosureIndex.Of (index : ClassClosureIndex) (catalog cached : Onto.Catalog) : Prop where
  hierarchy : fromEdges "class" (catalog.classes.map ClassDef.iri) (superclasses catalog) =
    .ok index.hierarchy
  ids : index.class_id_by_iri = classIds catalog
  described : ∀ direction iri bitmap, (index.caches direction).get? iri = some bitmap →
    Describes cached direction iri bitmap

theorem of_fromCatalog {index : ClassClosureIndex} (built : fromCatalog catalog = .ok index)
    (cached : Onto.Catalog) : index.Of catalog cached := by
  obtain ⟨hierarchy, ids, empty⟩ := fromCatalog_ok built
  refine ⟨hierarchy, ids, fun direction iri bitmap held => ?_⟩
  rw [empty] at held
  cases held

variable {index : ClassClosureIndex}

/-- What is walked are the classes on one side, each of which has a number. -/
theorem ClassClosureIndex.Of.walk {cached : Onto.Catalog} (sound : Sound catalog)
    (holds : index.Of catalog cached) (direction : Direction) {iri : String}
    (known : iri ∈ catalog.classes.map ClassDef.iri) :
    ∃ found, direction.walk index.hierarchy iri = .ok found ∧
      (∀ other, other ∈ found ↔ direction.Reaches catalog iri other) ∧
      ∃ ids, found.mapM index.idOf = .ok ids ∧
        ∀ id, id ∈ ids ↔ ∃ other, direction.Reaches catalog iri other ∧
          (classIds catalog).get? other = some id := by
  obtain ⟨built, answers⟩ :=
    hierarchy_answers "class" _ (superclasses catalog) (iris_distinct sound)
  have mentions := (built.mp ⟨_, holds.hierarchy⟩).1
  have answers := answers _ holds.hierarchy
  have walked : ∃ found, direction.walk index.hierarchy iri = .ok found ∧
      ∀ other, other ∈ found ↔ direction.Reaches catalog iri other := by
    cases direction with
    | descendants =>
      obtain ⟨below, gives, _, reached⟩ := answers.descendants iri known
      exact ⟨below, gives, reached⟩
    | ancestors =>
      obtain ⟨above, gives, _, reached⟩ := answers.ancestors iri known
      exact ⟨above, gives, reached⟩
  obtain ⟨found, gives, reached⟩ := walked
  -- both ends of a path are classes
  have inside : ∀ other ∈ found, ∃ id, (classIds catalog).get? other = some id := by
    intro other member
    rw [← mem_classes_iff sound]
    have path := (reached other).mp member
    cases direction with
    | descendants =>
      obtain ⟨_, step, _⟩ := TransGen.head'_iff.mp path
      exact (parent_known mentions step).1
    | ancestors =>
      obtain ⟨_, _, step⟩ := TransGen.tail'_iff.mp path
      exact (parent_known mentions step).2
  have each : ∀ other ∈ found, index.idOf other = .ok (((classIds catalog).get? other).getD 0) := by
    intro other member
    obtain ⟨id, held⟩ := inside other member
    rw [ClassClosureIndex.idOf, holds.ids, held]
    rfl
  refine ⟨found, gives, reached, _, mapM_of_ok _ found each, fun id => ?_⟩
  rw [List.mem_map]
  constructor
  · rintro ⟨other, member, rfl⟩
    obtain ⟨id, held⟩ := inside other member
    exact ⟨other, (reached other).mp member, by rw [held]; rfl⟩
  · rintro ⟨other, path, held⟩
    exact ⟨other, (reached other).mpr path, by rw [held]; rfl⟩

end Catalog

/-! ## Saving -/

section Saving

variable {bitmaps : Bitmaps} {catalog : Onto.Catalog} {index after : ClassClosureIndex}

/-- A number that a bitmap can hold. -/
def Narrow (id : Int) : Prop := 0 ≤ id ∧ id < 2 ^ 32

theorem ofIds_ok {ids : List Int} {bitmap : Finset Nat} (made : bitmaps.ofIds ids = .ok bitmap) :
    (∀ id ∈ ids, Narrow id) ∧ bitmap = (ids.map Int.toNat).toFinset := by
  rw [Bitmaps.ofIds] at made
  cases found : ids.find? fun id => id < 0 ∨ 2 ^ 32 ≤ id with
  | some id =>
    rw [found] at made
    cases made
  | none =>
    rw [found] at made
    cases made
    refine ⟨fun id member => ?_, rfl⟩
    have inside := List.find?_eq_none.mp found id member
    simp only [decide_eq_true_eq] at inside
    exact ⟨by omega, by omega⟩

theorem ofIds_of {ids : List Int} (narrow : ∀ id ∈ ids, Narrow id) :
    bitmaps.ofIds ids = .ok (ids.map Int.toNat).toFinset := by
  have none : ids.find? (fun id => id < 0 ∨ 2 ^ 32 ≤ id) = none := by
    rw [List.find?_eq_none]
    intro id member
    obtain ⟨low, high⟩ := narrow id member
    simp only [decide_eq_true_eq]
    omega
  rw [Bitmaps.ofIds, none]

/-- The bitmap of numbers that were walked. -/
theorem describes_ids {direction : Direction} {iri : String} {ids : List Int}
    (walked : ∀ id, id ∈ ids ↔ ∃ other, direction.Reaches catalog iri other ∧
      (classIds catalog).get? other = some id) :
    Describes catalog direction iri (ids.map Int.toNat).toFinset := by
  intro number
  rw [List.mem_toFinset, List.mem_map]
  constructor
  · rintro ⟨id, member, rfl⟩
    obtain ⟨other, path, held⟩ := (walked id).mp member
    exact ⟨other, id, path, held, rfl⟩
  · rintro ⟨other, id, path, held, rfl⟩
    exact ⟨id, (walked id).mpr ⟨other, path, held⟩, rfl⟩

/-- What is asked of an index goes on describing its catalog, and nothing that was cached is lost. -/
structure Grows (catalog : Onto.Catalog) (index after : ClassClosureIndex) : Prop where
  holds : after.Of catalog catalog
  keeps : ∀ direction iri bitmap, (index.caches direction).get? iri = some bitmap →
    (after.caches direction).get? iri = some bitmap

theorem Grows.trans {middle : ClassClosureIndex} (first : Grows catalog index middle)
    (second : Grows catalog middle after) : Grows catalog index after :=
  ⟨second.holds, fun direction iri bitmap held =>
    second.keeps direction iri bitmap (first.keeps direction iri bitmap held)⟩

theorem ClassClosureIndex.Of.cached (sound : Sound catalog) (holds : index.Of catalog catalog)
    {direction : Direction} {iri : String} (known : iri ∈ catalog.classes.map ClassDef.iri)
    {bitmap : Finset Nat} (gives : index.cached bitmaps direction iri = .ok (bitmap, after)) :
    Describes catalog direction iri bitmap ∧ Grows catalog index after ∧
      (after.caches direction).get? iri = some bitmap := by
  rw [ClassClosureIndex.cached] at gives
  cases hit : (index.caches direction).get? iri with
  | some held =>
    rw [hit] at gives
    cases gives
    exact ⟨holds.described direction iri _ hit, ⟨holds, fun _ _ _ kept => kept⟩, hit⟩
  | none =>
    rw [hit] at gives
    obtain ⟨found, walk, _, ids, numbered, walked⟩ := holds.walk sound direction known
    simp only [walk, ok_bind, numbered] at gives
    obtain ⟨made, madeIs, rest⟩ := except_bind_ok gives
    obtain ⟨_, rfl⟩ := ofIds_ok madeIs
    cases rest
    have describes := describes_ids walked
    refine ⟨describes, ⟨⟨holds.hierarchy, holds.ids, ?_⟩, ?_⟩, ?_⟩
    · intro other item kept held
      by_cases same : other = direction
      · subst same
        simp only [Function.update_self, Dict.get_set] at held
        by_cases here : item = iri
        · rw [if_pos here] at held
          cases held
          exact here ▸ describes
        · rw [if_neg here] at held
          exact holds.described other item kept held
      · simp only [Function.update_of_ne same] at held
        exact holds.described other item kept held
    · intro other item kept held
      by_cases same : other = direction
      · subst same
        have apart : item ≠ iri := by
          rintro rfl
          rw [hit] at held
          cases held
        simp only [Function.update_self, Dict.get_set_of_ne _ apart, held]
      · simp only [Function.update_of_ne same, held]
    · simp only [Function.update_self, Dict.get_set_self]

theorem ClassClosureIndex.Of.bitmap (sound : Sound catalog) (holds : index.Of catalog catalog)
    {direction : Direction} {iri : String} {bitmap : Finset Nat}
    (gives : index.bitmap bitmaps direction iri true = .ok (bitmap, after)) :
    Grows catalog index after ∧ (∃ held, (after.caches direction).get? iri = some held) ∧
      ∀ id, (classIds catalog).get? iri = some id → Narrow id := by
  obtain ⟨id, asked, rest⟩ := except_bind_ok gives
  obtain ⟨⟨held, middle⟩, cached, rest⟩ := except_bind_ok rest
  simp only [if_true] at rest
  obtain ⟨own, ownIs, rest⟩ := except_bind_ok rest
  cases rest
  rw [ClassClosureIndex.requireClass, holds.ids] at asked
  cases found : (classIds catalog).get? iri with
  | none =>
    rw [found] at asked
    cases asked
  | some number =>
    rw [found] at asked
    obtain rfl : number = id := Except.ok.inj asked
    have known := (mem_classes_iff sound iri).mpr ⟨number, found⟩
    obtain ⟨_, grows, kept⟩ := holds.cached sound known cached
    refine ⟨grows, ⟨held, kept⟩, fun other same => ?_⟩
    obtain rfl : number = other := Option.some.inj same
    exact (ofIds_ok ownIs).1 number (List.mem_singleton_self _)

/-- One turn of the loop has both bitmaps of its class in the caches. -/
theorem ClassClosureIndex.Of.materialize (sound : Sound catalog) (holds : index.Of catalog catalog)
    {iri : String} (turn : index.materialize bitmaps iri = .ok after) :
    Grows catalog index after ∧ (∀ direction, ∃ held, (after.caches direction).get? iri = some held) ∧
      ∀ id, (classIds catalog).get? iri = some id → Narrow id := by
  obtain ⟨⟨_, middle⟩, first, rest⟩ := except_bind_ok turn
  obtain ⟨⟨_, last⟩, second, rest⟩ := except_bind_ok rest
  cases rest
  obtain ⟨grows, ⟨below, belowIs⟩, narrow⟩ := holds.bitmap sound first
  obtain ⟨more, above, _⟩ := grows.holds.bitmap sound second
  refine ⟨grows.trans more, fun direction => ?_, narrow⟩
  cases direction with
  | descendants => exact ⟨below, more.keeps _ _ _ belowIs⟩
  | ancestors => exact above

/-- The loop has the bitmaps of all its classes in the caches. -/
theorem materialize_all (sound : Sound catalog) (iris : List String)
    (holds : index.Of catalog catalog)
    (loop : iris.foldlM (ClassClosureIndex.materialize bitmaps) index = .ok after) :
    Grows catalog index after ∧ ∀ iri ∈ iris,
      (∀ direction, ∃ held, (after.caches direction).get? iri = some held) ∧
        ∀ id, (classIds catalog).get? iri = some id → Narrow id := by
  induction iris generalizing index with
  | nil =>
    cases loop
    exact ⟨⟨holds, fun _ _ _ kept => kept⟩, List.forall_mem_nil _⟩
  | cons first iris inductionHypothesis =>
    rw [List.foldlM_cons] at loop
    obtain ⟨middle, turn, rest⟩ := except_bind_ok loop
    obtain ⟨grows, here, narrow⟩ := holds.materialize sound turn
    obtain ⟨more, others⟩ := inductionHypothesis grows.holds rest
    refine ⟨grows.trans more, List.forall_mem_cons.mpr ⟨⟨fun direction => ?_, narrow⟩, others⟩⟩
    obtain ⟨held, kept⟩ := here direction
    exact ⟨held, more.keeps direction first held kept⟩

end Saving

/-- The bytes of the index of a catalog hold the numbers of its classes and all its bitmaps. -/
theorem toBytes_ok (bitmaps : Bitmaps) {Text : Type} (json : Json Text) {catalog : Onto.Catalog}
    (sound : Sound catalog) {data : FileBytes Text}
    (wrote : (fromCatalog catalog >>= fun index => index.toBytes bitmaps json) = .ok data) :
    ∃ full : ClassClosureIndex, full.Of catalog catalog ∧
      data = { header := MAGIC, text := json.dumps (sorted (.dict (full.envelope bitmaps))) } ∧
      ∀ iri id, (classIds catalog).get? iri = some id → Narrow id ∧
        ∀ direction, ∃ held, (full.caches direction).get? iri = some held := by
  obtain ⟨index, built, rest⟩ := except_bind_ok wrote
  obtain ⟨full, loop, same⟩ := except_bind_ok rest
  cases same
  have holds := of_fromCatalog built catalog
  obtain ⟨grows, all⟩ := materialize_all sound index.hierarchy.nodes holds loop
  obtain ⟨_, _, _, _, _, dag⟩ := fromEdges_ok (iris_distinct sound) (fromCatalog_ok built).1
  have nodes : index.hierarchy.nodes = catalog.classes.map ClassDef.iri :=
    congrArg HierarchyDAG.nodes dag
  refine ⟨full, grows.holds, rfl, fun iri id held => ?_⟩
  obtain ⟨cached, narrow⟩ := all iri (nodes ▸ (mem_classes_iff sound iri).mpr ⟨id, held⟩)
  exact ⟨narrow id held, cached⟩

/-! ## Loading -/

section Loading

variable {bitmaps : Bitmaps} {Text : Type} {json : Json Text} (c : Conversions)
variable {saved later : Onto.Catalog}

/-- The bitmaps that an index serves for the classes of a catalog are those that the catalog gives. -/
def UpToDate (bitmaps : Bitmaps) (catalog : Onto.Catalog) (index : ClassClosureIndex) : Prop :=
  ∀ fresh, fromCatalog catalog = .ok fresh → ∀ item ∈ catalog.classes, ∀ direction include_self,
    (index.bitmap bitmaps direction item.iri include_self).map Prod.fst =
      (fresh.bitmap bitmaps direction item.iri include_self).map Prod.fst

/-- What is loaded is up to date, or it is refused as stale. -/
def NeverStale (bitmaps : Bitmaps) (json : Json Text) (data : FileBytes Text)
    (catalog : Onto.Catalog) : Prop :=
  match fromBytes bitmaps json c data catalog with
  | .ok index => UpToDate bitmaps catalog index
  | .error raised => raised.code = some "CDB-9507"

/-- Two catalogs give their classes the same numbers. -/
def SameIds (saved later : Onto.Catalog) : Prop :=
  ∀ iri, (classIds saved).get? iri = (classIds later).get? iri

/-- The classes of two catalogs reach the same classes upward. -/
def SameReach (saved later : Onto.Catalog) : Prop :=
  ∀ lower upper, TransGen (Parent (superclasses saved)) lower upper ↔
    TransGen (Parent (superclasses later)) lower upper

theorem SameReach.reaches (same : SameReach saved later) (direction : Direction)
    (iri other : String) :
    direction.Reaches saved iri other ↔ direction.Reaches later iri other := by
  cases direction with
  | descendants => exact same other iri
  | ancestors => exact same iri other

/-- The bytes of a catalog are loaded with its bitmaps if the numbers are those of today, and are
refused as stale otherwise. -/
theorem fromBytes_saved (bitmaps : Bitmaps) (json : Json Text) {full fresh : ClassClosureIndex} (holds : full.Of saved saved)
    (built : fromCatalog later = .ok fresh) :
    (SameIds saved later → ∃ index,
      fromBytes bitmaps json c
        { header := MAGIC, text := json.dumps (sorted (.dict (full.envelope bitmaps))) } later = .ok index ∧
        index.class_id_by_iri = classIds later ∧
        ∀ direction iri, (index.caches direction).get? iri = (full.caches direction).get? iri) ∧
    (¬ SameIds saved later → ∃ raised,
      fromBytes bitmaps json c
        { header := MAGIC, text := json.dumps (sorted (.dict (full.envelope bitmaps))) } later =
          .error raised ∧ raised.code = some "CDB-9507") := by
  have freshIds := (fromCatalog_ok built).2.1
  have plain : isJson (.dict (full.envelope bitmaps)) = true := by
    have values {Item : Type} (write : Item → Value) (simple : ∀ item, isJson (write item) = true)
        (dict : Dict String Item) : isJson (written write dict) = true := by
      refine isJson_dict ?_ ?_
      · induction dict.entries with
        | nil => rfl
        | cons entry entries inductionHypothesis =>
          simp [haveJson, simple, inductionHypothesis]
      · rw [List.map_map]
        exact dict.distinct
    have numbers := values .int (fun _ => rfl) full.class_id_by_iri
    have texts (direction : Direction) := values bitmaps.write (fun _ => rfl) (full.caches direction)
    refine isJson_dict ?_ (by simp [ClassClosureIndex.envelope])
    have encoding : isJson (.str CLOSURE_ENCODING) = true := rfl
    simp [ClassClosureIndex.envelope, haveJson, encoding, numbers, texts]
  have loaded : json.loads (json.dumps (sorted (.dict (full.envelope bitmaps)))) =
      .ok (sorted (.dict (full.envelope bitmaps))) :=
    json.loads_dumps _ ((isJson_sorted _).trans plain)
  have encoding : entryOr "encoding" .null (sorted (.dict (full.envelope bitmaps))) =
      .ok (.str CLOSURE_ENCODING) := entryOr_dict "encoding" .null (full.envelope bitmaps) rfl
  obtain ⟨stored, readIds, idsBack⟩ : ∃ again : Dict String Int,
      readEntries c.toInt "class_id_by_iri" (sorted (.dict (full.envelope bitmaps))) = .ok again ∧
        ∀ key, again.get? key = full.class_id_by_iri.get? key := by
    have plain : ∀ id : Int, sorted (.int id) = .int id := fun _ => rfl
    have back : ∀ id : Int, c.toInt (.int id) = .ok id := fun _ => rfl
    exact readEntries_written plain back full.class_id_by_iri rfl
  have readBitmaps (direction : Direction) (name : String) (found : lookup name
      (full.envelope bitmaps) = some (written bitmaps.write (full.caches direction))) :
      ∃ again : Dict String (Finset Nat),
        readEntries bitmaps.read name (sorted (.dict (full.envelope bitmaps))) = .ok again ∧
          ∀ key, again.get? key = (full.caches direction).get? key := by
    have plain : ∀ bitmap, sorted (bitmaps.write bitmap) = bitmaps.write bitmap := fun _ => rfl
    have back : ∀ bitmap, bitmaps.read (bitmaps.write bitmap) = .ok bitmap := bitmaps.loads_dumps
    exact readEntries_written plain back (full.caches direction) found
  obtain ⟨descendants, readDescendants, descendantsBack⟩ :=
    readBitmaps .descendants "descendants_by_iri" rfl
  obtain ⟨ancestors, readAncestors, ancestorsBack⟩ := readBitmaps .ancestors "ancestors_by_iri" rfl
  have compared : sameDict stored fresh.class_id_by_iri ↔ SameIds saved later := by
    rw [sameDict_iff, freshIds]
    refine forall_congr' fun iri => ?_
    rw [idsBack, holds.ids]
  have magic : ¬ (MAGIC ≠ MAGIC) := not_not.mpr rfl
  have known : ¬ (Value.str CLOSURE_ENCODING ≠ .str CLOSURE_ENCODING) := not_not.mpr rfl
  have start : fromBytes bitmaps json c
      { header := MAGIC, text := json.dumps (sorted (.dict (full.envelope bitmaps))) } later = (do
        refuse (¬ sameDict stored fresh.class_id_by_iri) (.caracal
          { code := "CDB-9507"
            message := "class closure cache is stale for the current catalog" })
        let descendants ← readEntries bitmaps.read "descendants_by_iri"
          (sorted (.dict (full.envelope bitmaps)))
        let ancestors ← readEntries bitmaps.read "ancestors_by_iri" (sorted (.dict (full.envelope bitmaps)))
        return { fresh with caches := fun
          | .descendants => descendants
          | .ancestors => ancestors }) := by
    rw [fromBytes, built, ok_bind, refuse, if_neg magic, ok_bind]
    simp only [loaded, ok_bind, encoding]
    rw [refuse, if_neg known, ok_bind]
    exact congrArg (· >>= _) readIds
  constructor
  · intro same
    rw [start, refuse, if_neg (not_not.mpr (compared.mpr same)), ok_bind]
    simp only [readDescendants, readAncestors, ok_bind]
    refine ⟨_, rfl, freshIds, fun direction iri => ?_⟩
    cases direction with
    | descendants => exact descendantsBack iri
    | ancestors => exact ancestorsBack iri
  · intro differ
    rw [start, refuse, if_pos (fun same => differ (compared.mp same))]
    exact ⟨_, rfl, rfl⟩

/-- The bitmaps that an index gives without a cached one. -/
theorem ClassClosureIndex.Of.computed {index : ClassClosureIndex} {catalog : Onto.Catalog}
    (holds : index.Of catalog catalog) (bitmaps : Bitmaps) (sound : Sound catalog)
    (narrow : ∀ iri id, (classIds catalog).get? iri = some id → Narrow id) (direction : Direction)
    {iri : String} (known : iri ∈ catalog.classes.map ClassDef.iri) :
    ∃ bitmap after, index.cached bitmaps direction iri = .ok (bitmap, after) ∧
      Describes catalog direction iri bitmap := by
  have answers : ∃ bitmap after, index.cached bitmaps direction iri = .ok (bitmap, after) := by
    rw [ClassClosureIndex.cached]
    cases (index.caches direction).get? iri with
    | some held => exact ⟨_, _, rfl⟩
    | none =>
      obtain ⟨found, walk, _, ids, numbered, walked⟩ := holds.walk sound direction known
      have small : ∀ id ∈ ids, Narrow id := by
        intro id member
        obtain ⟨other, _, held⟩ := (walked id).mp member
        exact narrow other id held
      simp only [walk, ok_bind, numbered, ofIds_of small]
      exact ⟨_, _, rfl⟩
  obtain ⟨bitmap, after, gives⟩ := answers
  exact ⟨bitmap, after, gives, (holds.cached sound known gives).1⟩

/-- What an index serves of a bitmap. -/
theorem bitmap_of_cached {index after : ClassClosureIndex} {direction : Direction} {iri : String}
    {id : Int} {bitmap : Finset Nat} (numbered : index.class_id_by_iri.get? iri = some id)
    (gives : index.cached bitmaps direction iri = .ok (bitmap, after)) (include_self : Bool) :
    (index.bitmap bitmaps direction iri include_self).map Prod.fst =
      if include_self then (bitmap ∪ ·) <$> bitmaps.ofIds [id] else .ok bitmap := by
  rw [ClassClosureIndex.bitmap, ClassClosureIndex.requireClass, numbered, ok_bind, gives, ok_bind]
  cases include_self with
  | false => rfl
  | true =>
    simp only [if_true]
    cases bitmaps.ofIds [id] <;> rfl

theorem describes_unique {catalog : Onto.Catalog} {direction : Direction} {iri : String}
    {first second : Finset Nat} (firstIs : Describes catalog direction iri first)
    (secondIs : Describes catalog direction iri second) : first = second :=
  Finset.ext fun number => (firstIs number).trans (secondIs number).symm

/-- A bitmap that describes one catalog and another, with the same numbers, has the classes that
both reach. -/
theorem reaches_of_describes (sound : Sound later) (same : SameIds saved later)
    {direction : Direction} {iri other : String} {bitmap : Finset Nat}
    (first : Describes saved direction iri bitmap) (second : Describes later direction iri bitmap)
    (narrow : ∀ iri id, (classIds later).get? iri = some id → Narrow id)
    (numbered : ∃ id, (classIds later).get? other = some id) :
    direction.Reaches saved iri other → direction.Reaches later iri other := by
  intro path
  obtain ⟨id, held⟩ := numbered
  have inside : id.toNat ∈ bitmap := (first _).mpr ⟨other, id, path, (same other).trans held, rfl⟩
  obtain ⟨found, number, reached, foundIs, equal⟩ := (second _).mp inside
  obtain ⟨low, _⟩ := narrow other id held
  obtain ⟨lowFound, _⟩ := narrow found number foundIs
  have numbers : number = id := by omega
  subst numbers
  exact classIds_injective sound foundIs held ▸ reached

/-- What is on the other end of a path has a number. -/
theorem numbered_of_reaches {catalog : Onto.Catalog} (sound : Sound catalog)
    (ordered : Ordered (catalog.classes.map ClassDef.iri) (superclasses catalog))
    {lower upper : String} (path : TransGen (Parent (superclasses catalog)) lower upper) :
    (∃ id, (classIds catalog).get? lower = some id) ∧ ∃ id, (classIds catalog).get? upper = some id := by
  rw [← mem_classes_iff sound, ← mem_classes_iff sound]
  obtain ⟨_, first, _⟩ := TransGen.head'_iff.mp path
  obtain ⟨_, _, last⟩ := TransGen.tail'_iff.mp path
  exact ⟨(parent_known ordered.1 first).1, (parent_known ordered.1 last).2⟩

/-- An index whose caches have the bitmaps of a catalog is up to date for another one with the same
numbers exactly if the classes of both reach the same classes. -/
theorem upToDate_iff (bitmaps : Bitmaps) {index full fresh : ClassClosureIndex} (soundSaved : Sound saved)
    (soundLater : Sound later) (holds : full.Of saved saved)
    (all : ∀ iri id, (classIds saved).get? iri = some id → Narrow id ∧
      ∀ direction, ∃ held, (full.caches direction).get? iri = some held)
    (built : fromCatalog later = .ok fresh) (same : SameIds saved later)
    (ids : index.class_id_by_iri = classIds later)
    (caches : ∀ direction iri, (index.caches direction).get? iri = (full.caches direction).get? iri) :
    UpToDate bitmaps later index ↔ SameReach saved later := by
  have orderedSaved : Ordered (saved.classes.map ClassDef.iri) (superclasses saved) :=
    (hierarchy_answers "class" _ (superclasses saved) (iris_distinct soundSaved)).1.mp
      ⟨_, holds.hierarchy⟩
  have orderedLater : Ordered (later.classes.map ClassDef.iri) (superclasses later) :=
    ((fromCatalog_iff soundLater).mp ⟨fresh, built⟩).1
  have narrow : ∀ iri id, (classIds later).get? iri = some id → Narrow id :=
    fun iri id held => (all iri id ((same iri).trans held)).1
  have freshIs := of_fromCatalog built later
  -- the index serves a bitmap of the saved catalog, and a new one is one of the catalog of today
  have both (direction : Direction) (iri : String) (id : Int)
      (held : (classIds later).get? iri = some id) : ∃ old new, Describes saved direction iri old ∧
        Describes later direction iri new ∧ ∀ include_self,
          (index.bitmap bitmaps direction iri include_self).map Prod.fst =
            (if include_self then (old ∪ ·) <$> bitmaps.ofIds [id] else .ok old) ∧
          (fresh.bitmap bitmaps direction iri include_self).map Prod.fst =
            (if include_self then (new ∪ ·) <$> bitmaps.ofIds [id] else .ok new) := by
    obtain ⟨old, cached⟩ := (all iri id ((same iri).trans held)).2 direction
    have hit : index.cached bitmaps direction iri = .ok (old, index) := by
      rw [ClassClosureIndex.cached, caches, cached]
    obtain ⟨new, after, gives, describes⟩ := freshIs.computed bitmaps soundLater narrow
      direction ((mem_classes_iff soundLater iri).mpr ⟨id, held⟩)
    refine ⟨old, new, holds.described direction iri old cached, describes, fun include_self => ?_⟩
    exact ⟨bitmap_of_cached (ids ▸ held) hit include_self,
      bitmap_of_cached (freshIs.ids ▸ held) gives include_self⟩
  constructor
  · intro upToDate
    have equal (lower : String) (numbered : ∃ id, (classIds later).get? lower = some id) :
        ∃ bitmap, Describes saved .ancestors lower bitmap ∧ Describes later .ancestors lower bitmap := by
      obtain ⟨id, held⟩ := numbered
      obtain ⟨old, new, first, second, serves⟩ := both .ancestors lower id held
      obtain ⟨item, among, rfl, _⟩ := (get_classIds soundLater _ _).mp held
      have served := upToDate fresh built item among .ancestors false
      rw [(serves false).1, (serves false).2] at served
      obtain rfl : old = new := Except.ok.inj served
      exact ⟨old, first, second⟩
    intro lower upper
    constructor
    · intro path
      obtain ⟨⟨id, held⟩, ⟨other, heldUpper⟩⟩ := numbered_of_reaches soundSaved orderedSaved path
      obtain ⟨bitmap, first, second⟩ := equal lower ⟨id, (same lower).symm.trans held⟩
      exact reaches_of_describes soundLater same first second narrow
        ⟨other, (same upper).symm.trans heldUpper⟩ path
    · intro path
      obtain ⟨numbered, ⟨other, heldUpper⟩⟩ := numbered_of_reaches soundLater orderedLater path
      obtain ⟨bitmap, first, second⟩ := equal lower numbered
      exact reaches_of_describes soundSaved (fun iri => (same iri).symm) second first
        (fun iri id held => (all iri id held).1) ⟨other, (same upper).trans heldUpper⟩ path
  · intro reach given givenBuilt item among direction include_self
    obtain rfl : fresh = given := Except.ok.inj (built.symm.trans givenBuilt)
    have held := (get_classIds soundLater _ _).mpr ⟨item, among, rfl, rfl⟩
    obtain ⟨old, new, first, second, serves⟩ := both direction item.iri item.cid held
    have moved : Describes later direction item.iri old := by
      intro number
      rw [first number]
      refine exists_congr fun other => exists_congr fun id => ?_
      rw [reach.reaches direction, same]
    obtain rfl := describes_unique moved second
    rw [(serves include_self).1, (serves include_self).2]

end Loading

/-! ## Refusals -/

/-- The code of an error that is raised for a hierarchy. -/
def OfHierarchy (raised : Raised) : Prop :=
  raised.code = some "CDB-9504" ∨ raised.code = some "CDB-9505"

theorem refuse_error {condition : Prop} [Decidable condition] {raised error : Raised}
    (stopped : refuse condition raised = .error error) : error = raised := by
  rw [refuse] at stopped
  split at stopped
  · exact (Except.error.inj stopped).symm
  · cases stopped

/-- What stops two steps stops the first one, or the second one behind it. -/
theorem except_bind_error {Answer Next : Type} {first : Except Raised Answer}
    {next : Answer → Except Raised Next} {raised : Raised} (stopped : first >>= next = .error raised) :
    first = .error raised ∨ ∃ answer, first = .ok answer ∧ next answer = .error raised := by
  cases first with
  | error error => exact Or.inl (congrArg Except.error (Except.error.inj stopped))
  | ok answer => exact Or.inr ⟨answer, rfl, stopped⟩

/-- What stops a loop stops one of its steps. -/
theorem foldlM_error {State Item : Type} {step : State → Item → Except Raised State}
    {items : List Item} {state : State} {raised : Raised}
    (stopped : items.foldlM step state = .error raised) :
    ∃ before, ∃ item ∈ items, step before item = .error raised := by
  induction items generalizing state with
  | nil => cases stopped
  | cons item items inductionHypothesis =>
    rw [List.foldlM_cons] at stopped
    rcases except_bind_error stopped with here | ⟨middle, _, later⟩
    · exact ⟨state, item, List.mem_cons_self, here⟩
    · obtain ⟨before, other, among, there⟩ := inductionHypothesis later
      exact ⟨before, other, List.mem_cons_of_mem _ among, there⟩

theorem fromEdges_error {relation_name : String} {nodes : List String}
    {parents_by_child : Dict String (List String)} {raised : Raised}
    (stopped : fromEdges relation_name nodes parents_by_child = .error raised) :
    OfHierarchy raised := by
  rcases except_bind_error stopped with loop | ⟨edges, _, rest⟩
  · obtain ⟨before, entry, _, turn⟩ := foldlM_error loop
    rcases except_bind_error turn with unknown | ⟨_, _, parents⟩
    · rw [refuse_error unknown]
      exact Or.inl rfl
    · obtain ⟨_, parent, _, filed⟩ := foldlM_error parents
      rcases except_bind_error filed with unknown | ⟨_, _, impossible⟩
      · rw [refuse_error unknown]
        exact Or.inl rfl
      · cases impossible
  · rcases except_bind_error rest with cycle | ⟨_, _, impossible⟩
    · rw [refuse_error cycle]
      exact Or.inr rfl
    · cases impossible

theorem fromCatalog_error {catalog : Onto.Catalog} {raised : Raised}
    (stopped : fromCatalog catalog = .error raised) : OfHierarchy raised := by
  rcases except_bind_error stopped with both | ⟨_, _, impossible⟩
  · rcases except_bind_error both with classes | ⟨_, _, rest⟩
    · exact fromEdges_error classes
    · rcases except_bind_error rest with properties | ⟨_, _, impossible⟩
      · exact fromEdges_error properties
      · cases impossible
  · cases impossible

/-- The saved closure of a catalog is never stale for another one exactly if the properties of the
other are ordered and, where the numbers of the classes agree, the classes reach the same classes. -/
theorem loaded_never_stale (bitmaps : Bitmaps) {Text : Type} (json : Json Text) (c : Conversions)
    (saved later : Onto.Catalog) (data : FileBytes Text) (soundSaved : Sound saved)
    (soundLater : Sound later)
    (ordered : Ordered (later.classes.map ClassDef.iri) (superclasses later))
    (wrote : (fromCatalog saved >>= fun index => index.toBytes bitmaps json) = .ok data) :
    NeverStale c bitmaps json data later ↔
      Ordered (later.properties.map PropertyDef.iri) (superproperties later) ∧
        (SameIds saved later → SameReach saved later) := by
  obtain ⟨full, holds, rfl, all⟩ := toBytes_ok bitmaps json soundSaved wrote
  cases built : fromCatalog later with
  | error raised =>
    have code := fromCatalog_error built
    have refused : fromBytes bitmaps json c
        { header := MAGIC, text := json.dumps (sorted (.dict (full.envelope bitmaps))) } later =
          .error raised := by
      rw [fromBytes, built]
      rfl
    have unordered : ¬ Ordered (later.properties.map PropertyDef.iri) (superproperties later) := by
      intro properties
      obtain ⟨index, made⟩ := (fromCatalog_iff soundLater).mpr ⟨ordered, properties⟩
      rw [built] at made
      cases made
    rw [NeverStale, refused]
    refine iff_of_false (fun stale : raised.code = some "CDB-9507" => ?_)
      (fun both => unordered both.1)
    rcases code with first | second
    · rw [stale] at first
      exact absurd first (by decide)
    · rw [stale] at second
      exact absurd second (by decide)
  | ok fresh =>
    have properties := ((fromCatalog_iff soundLater).mp ⟨fresh, built⟩).2
    obtain ⟨loads, refuses⟩ := fromBytes_saved c bitmaps json holds built
    rw [and_iff_right properties]
    by_cases same : SameIds saved later
    · obtain ⟨index, loaded, ids, caches⟩ := loads same
      rw [NeverStale, loaded]
      have exactly := upToDate_iff bitmaps soundSaved soundLater holds all built same ids
        caches
      exact exactly.trans (imp_iff_right same).symm
    · obtain ⟨raised, refused, code⟩ := refuses same
      rw [NeverStale, refused]
      exact iff_of_true code fun agree => absurd agree same

/-- A catalog of animals and dogs. -/
def animals (superclass_iris : List String) : Onto.Catalog :=
  { Catalog.empty none "2026-01-01" with
    classes := [
      { cid := 1, iri := "animal", local_name := none, superclass_iris := [], fields := []
        doc := none },
      { cid := 2, iri := "dog", local_name := none, superclass_iris, fields := [], doc := none }] }

/-- Bitmaps written as their number in unary. -/
def unaryBitmaps : Bitmaps where
  dumps bitmap := String.ofList (List.replicate (Encodable.encode bitmap) '1')
  loads text := match Encodable.decode text.toList.length with
    | some bitmap => .ok bitmap
    | none => .error (.typeError "not a bitmap")
  overflow _ := .typeError "value out of range"
  loads_dumps bitmap := by
    rw [String.toList_ofList, List.length_replicate, Encodable.encodek]

def plainJson : Json Value := ⟨id, .ok, fun _ _ => rfl⟩

def noConversions : Conversions :=
  ⟨fun _ => .error (.typeError "int"), fun _ => "", fun _ _ => .invalidKind⟩

theorem animals_sound (superclass_iris : List String) : Sound (animals superclass_iris) := by
  intro kind
  cases kind <;> exact ⟨by simp [Onto.Catalog.labels, animals, Catalog.empty],
    by simp [Onto.Catalog.labels, animals, Catalog.empty]⟩

/-- The closure of the animals can be written. -/
theorem animals_written : ∃ data : FileBytes Value,
    (fromCatalog (animals ["animal"]) >>= fun index => index.toBytes unaryBitmaps plainJson) =
      .ok data := ⟨_, rfl⟩

/-- A closure that is loaded for the catalog it was saved for is up to date. -/
theorem same_catalog_loaded : ∃ data : FileBytes Value,
    NeverStale noConversions unaryBitmaps plainJson data (animals ["animal"]) := by
  have built : ∃ index, fromCatalog (animals ["animal"]) = .ok index := ⟨_, rfl⟩
  have both := (fromCatalog_iff (animals_sound ["animal"])).mp built
  obtain ⟨data, wrote⟩ := animals_written
  exact ⟨data, (loaded_never_stale unaryBitmaps plainJson noConversions (animals ["animal"])
    (animals ["animal"]) data (animals_sound _) (animals_sound _) both.1 wrote).mpr
      ⟨both.2, fun _ _ _ => Iff.rfl⟩⟩

/-- A closure that was saved when a dog was an animal is loaded when it is none. -/
theorem closure_stale : ∃ data : FileBytes Value,
    (fromCatalog (animals ["animal"]) >>= fun index => index.toBytes unaryBitmaps plainJson) =
      .ok data ∧ ¬ NeverStale noConversions unaryBitmaps plainJson data (animals []) := by
  obtain ⟨data, wrote⟩ := animals_written
  refine ⟨data, wrote, fun never => ?_⟩
  obtain ⟨full, holds, same, all⟩ := toBytes_ok unaryBitmaps plainJson
    (animals_sound ["animal"]) wrote
  have built : ∃ fresh, fromCatalog (animals []) = .ok fresh := ⟨_, rfl⟩
  obtain ⟨fresh, built⟩ := built
  have ids : SameIds (animals ["animal"]) (animals []) := fun _ => rfl
  obtain ⟨index, loaded, numbers, caches⟩ :=
    (fromBytes_saved noConversions unaryBitmaps plainJson holds built).1 ids
  rw [same, NeverStale, loaded] at never
  have reach := (upToDate_iff unaryBitmaps (animals_sound _) (animals_sound _) holds all built ids numbers
    caches).mp never
  have path := (reach "dog" "animal").mp (TransGen.single ⟨["animal"], rfl, List.mem_singleton_self _⟩)
  obtain ⟨_, ⟨parents, given, among⟩, _⟩ := TransGen.head'_iff.mp path
  obtain rfl : [] = parents := Option.some.inj given
  exact absurd among List.not_mem_nil

end CaracalDB.ClosureFile
