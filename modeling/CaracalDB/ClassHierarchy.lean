import CaracalDB.Digraph
import CaracalDB.GraphCatalog
import CaracalDB.Loops
import Mathlib.Data.Finset.Sort

/-!
# The class hierarchy

The hierarchy is read off the catalog: every class under its superclasses, every
property under its superproperties. It is refused when a superclass is no class or
when there is a cycle. The closure keeps, for a class, the numbers of the classes
below it.
-/

namespace CaracalDB.Hierarchy

open Digraph Relation

/-- `HierarchyDAG` -/
structure HierarchyDAG where
  nodes : List String
  parents_by_child : String → List String
  children_by_parent : String → List String

/-- `tuple(dict.fromkeys(parents))` of the definition with an IRI. -/
def parentsOf (items : List Definition) (iri : String) : List String :=
  ((items.find? fun item => item.iri = iri).map fun item => item.superclass_iris.eraseDups).getD []

/-- `HierarchyDAG.from_edges(nodes, parents_by_child, relation_name=...)`; the sort counts the
parents of each node. -/
def fromEdges (relation_name : String) (items : List Definition) : Except Raised HierarchyDAG := do
  let nodes := items.map Definition.iri
  let parents := parentsOf items
  match (nodes.flatMap parents).find? fun parent => parent ∉ nodes with
  | some parent =>
      raiseCaracal "CDB-9504"
        ("unknown " ++ relation_name ++ " hierarchy node: " ++ parent)
  | none => .ok ()
  let ordered := sort (children nodes parents) nodes.length (Sorting.start nodes parents)
  refuse (ordered.length ≠ nodes.length)
    (.caracal { code := "CDB-9505", message := relation_name ++ " hierarchy contains a cycle" })
  return { nodes, parents_by_child := parents, children_by_parent := children nodes parents }

/-- `dag.descendants(iri)` -/
def HierarchyDAG.descendants (dag : HierarchyDAG) (iri : String) : List String :=
  collect dag.children_by_parent (dag.nodes.length + 1) iri []

/-- `ClassClosureIndex`, without its caches. -/
structure ClassClosureIndex where
  hierarchy : HierarchyDAG
  classes : List Definition

/-- `ClassClosureIndex.from_catalog(catalog)`. A property keeps its superproperties where a class
keeps its superclasses. -/
def fromCatalog (catalog : Catalog) : Except Raised ClassClosureIndex := do
  let classes ← fromEdges "class" catalog.classes.items
  let _ ← fromEdges "property" catalog.properties.items
  return { hierarchy := classes, classes := catalog.classes.items }

namespace ClassClosureIndex

variable (closure : ClassClosureIndex)

/-- `closure.class_id_by_iri` -/
def class_id_by_iri (iri : String) : Option Nat :=
  (closure.classes.find? fun item => item.iri = iri).map Definition.id

/-- `closure.class_iri_by_id` -/
def class_iri_by_id (class_id : Nat) : Option String :=
  (closure.classes.find? fun item => item.id = class_id).map Definition.iri

/-- `closure._require_class(iri)`, which gives the number of the class. -/
def requireClass (iri : String) : Except Raised Nat :=
  match closure.class_id_by_iri iri with
  | some id => .ok id
  | none => raiseCaracal "CDB-9504" ("unknown class hierarchy node: " ++ iri)

/-- `closure.descendants_bitmap(iri)`, the class included. -/
def descendantsBitmap (iri : String) : Except Raised (Finset Nat) := do
  let id ← closure.requireClass iri
  return insert id ((closure.hierarchy.descendants iri).filterMap closure.class_id_by_iri).toFinset

/-- `closure.descendant_iris(iri)`: a bitmap gives its numbers in ascending order. -/
def descendantIris (iri : String) : Except Raised (List String) := do
  return ((← closure.descendantsBitmap iri).sort (· ≤ ·)).filterMap closure.class_iri_by_id

/-- `closure.is_subclass(child_iri, parent_iri)` -/
def isSubclass (child_iri parent_iri : String) : Except Raised Bool := do
  let child ← closure.requireClass child_iri
  return decide (child ∈ (← closure.descendantsBitmap parent_iri))

end ClassClosureIndex

/-! ## Classes below a class -/

/-- A class is another or has it as a superclass, at any distance. -/
def Descends (items : List Definition) (child parent : String) : Prop :=
  ReflTransGen (fun child parent => parent ∈ parentsOf items child) child parent

/-- Definitions with distinct IRIs whose superclasses are defined and never lead back. -/
structure Ontology (items : List Definition) : Prop where
  distinct : (items.map Definition.iri).Nodup
  known : ∀ iri ∈ items.map Definition.iri, ∀ parent ∈ parentsOf items iri,
    parent ∈ items.map Definition.iri
  acyclic : Acyclic (parentsOf items)

section Ontology

variable {items : List Definition}

theorem parentsOf_nodup (iri : String) : (parentsOf items iri).Nodup := by
  rw [parentsOf]
  cases items.find? fun item => item.iri = iri with
  | none => exact List.nodup_nil
  | some item => exact nodup_eraseDups _

/-- Only defined classes have superclasses. -/
theorem defined_of_parent {iri parent : String} (among : parent ∈ parentsOf items iri) :
    iri ∈ items.map Definition.iri := by
  rw [parentsOf] at among
  cases search : items.find? fun item => item.iri = iri with
  | none =>
    rw [search] at among
    cases among
  | some item =>
    have same : item.iri = iri := by simpa using List.find?_some search
    exact same ▸ List.mem_map_of_mem (List.mem_of_find?_eq_some search)

theorem Ontology.wellFormed (ontology : Ontology items) :
    WellFormed (items.map Definition.iri) (parentsOf items) :=
  ⟨ontology.distinct, fun iri _ => parentsOf_nodup iri, ontology.known⟩

/-- A catalog without cycles has a hierarchy. -/
theorem fromEdges_ok (relation_name : String) (ontology : Ontology items) :
    fromEdges relation_name items = .ok
      { nodes := items.map Definition.iri
        parents_by_child := parentsOf items
        children_by_parent := children (items.map Definition.iri) (parentsOf items) } := by
  have none_unknown : ((items.map Definition.iri).flatMap (parentsOf items)).find?
      (fun parent => parent ∉ items.map Definition.iri) = none := by
    rw [List.find?_eq_none]
    intro parent member
    obtain ⟨iri, known, among⟩ := List.mem_flatMap.mp member
    rw [decide_eq_true_eq, not_not]
    exact ontology.known iri known parent among
  have all_sorted := sort_length ontology.wellFormed (children_lists ontology.distinct)
    ontology.acyclic (items.map Definition.iri).length (start_fits ontology.wellFormed)
    topological_nil (by omega)
  rw [fromEdges, none_unknown]
  simp only [all_sorted, refuse, ne_eq, not_true_eq_false, if_false]
  rfl

/-- Reaching a class from above is descending to it. -/
theorem reach_iff {source node : String} :
    TransGen (fun node child => child ∈ children (items.map Definition.iri) (parentsOf items) node)
      source node ↔ TransGen (fun child parent => parent ∈ parentsOf items child) node source := by
  have swapped : (fun node child =>
      child ∈ children (items.map Definition.iri) (parentsOf items) node) =
        Function.swap fun child parent => parent ∈ parentsOf items child := by
    funext node child
    exact propext ⟨fun member => (mem_children.mp member).2,
      fun among => mem_children.mpr ⟨defined_of_parent among, among⟩⟩
  rw [swapped, transGen_swap]

end Ontology

/-- The closure of a catalog whose classes are the given definitions. -/
def closureOf (items : List Definition) : ClassClosureIndex where
  hierarchy :=
    { nodes := items.map Definition.iri
      parents_by_child := parentsOf items
      children_by_parent := children (items.map Definition.iri) (parentsOf items) }
  classes := items

theorem fromCatalog_ok {catalog : Catalog} (classes : Ontology catalog.classes.items)
    (properties : Ontology catalog.properties.items) :
    fromCatalog catalog = .ok (closureOf catalog.classes.items) := by
  rw [fromCatalog, fromEdges_ok _ classes, fromEdges_ok _ properties]
  rfl

/-- A hierarchy that was built has no unknown superclass and no cycle. -/
theorem ontology_of_fromEdges {relation_name : String} {items : List Definition}
    (distinct : (items.map Definition.iri).Nodup) {dag : HierarchyDAG}
    (built : fromEdges relation_name items = .ok dag) : Ontology items := by
  rw [fromEdges] at built
  have none_unknown : ((items.map Definition.iri).flatMap (parentsOf items)).find?
      (fun parent => parent ∉ items.map Definition.iri) = none := by
    cases search : ((items.map Definition.iri).flatMap (parentsOf items)).find?
        fun parent => parent ∉ items.map Definition.iri with
    | none => rfl
    | some other =>
      rw [search] at built
      cases built
  have known : ∀ iri ∈ items.map Definition.iri, ∀ parent ∈ parentsOf items iri,
      parent ∈ items.map Definition.iri := by
    intro iri defined parent among
    have found := List.find?_eq_none.mp none_unknown parent
      (List.mem_flatMap.mpr ⟨iri, defined, among⟩)
    simpa using found
  have formed : WellFormed (items.map Definition.iri) (parentsOf items) :=
    ⟨distinct, fun iri _ => parentsOf_nodup iri, known⟩
  refine ⟨distinct, known, ?_⟩
  rw [none_unknown] at built
  obtain ⟨_, _, rest⟩ := except_bind_ok built
  obtain ⟨_, all, _⟩ := except_bind_ok rest
  have all := not_not.mp (refuse_ok all)
  obtain ⟨final, fits, topological, empty, sorted⟩ := sort_fits formed (children_lists distinct)
    (items.map Definition.iri).length (start_fits formed) topological_nil (Nat.le_add_left _ _)
  rw [sorted] at all
  have distinctOrder : final.ordered.Nodup := by
    have both := fits.distinct
    rwa [empty, List.append_nil] at both
  have inside : ∀ node ∈ final.ordered, node ∈ items.map Definition.iri :=
    fun node member => fits.known node (List.mem_append_left _ member)
  have perm := (distinctOrder.subperm inside).perm_of_length_le all.ge
  exact acyclic_of_topological topological distinctOrder fun child parent among =>
    perm.mem_iff.mpr (defined_of_parent among)

/-- The closure that a catalog gives is the one of its classes. -/
theorem closureOf_made {catalog : Catalog} (distinct : (catalog.classes.items.map Definition.iri).Nodup)
    {closure : ClassClosureIndex} (made : fromCatalog catalog = .ok closure) :
    Ontology catalog.classes.items ∧ closure = closureOf catalog.classes.items := by
  obtain ⟨classes, built, rest⟩ := except_bind_ok made
  obtain ⟨_, _, same⟩ := except_bind_ok rest
  have ontology := ontology_of_fromEdges distinct built
  rw [fromEdges_ok "class" ontology] at built
  cases built
  cases same
  exact ⟨ontology, rfl⟩

section Closure

variable {items : List Definition}

theorem mem_descendants (ontology : Ontology items) (source node : String) :
    node ∈ (closureOf items).hierarchy.descendants source ↔
      TransGen (fun child parent => parent ∈ parentsOf items child) node source := by
  rw [HierarchyDAG.descendants]
  exact (mem_collect ontology.distinct (fun _ child member => (mem_children.mp member).1)
    (Nat.lt_succ_self _) source node).trans reach_iff

/-- The definition with an IRI is found. -/
theorem find_of_mem_iri (distinct : (items.map Definition.iri).Nodup) {item : Definition}
    (member : item ∈ items) : (items.find? fun other => other.iri = item.iri) = some item := by
  cases search : items.find? fun other => other.iri = item.iri with
  | none => exact absurd (decide_eq_true rfl) (List.find?_eq_none.mp search item member)
  | some found =>
    have same : found.iri = item.iri := by simpa using List.find?_some search
    rw [List.inj_on_of_nodup_map distinct (List.mem_of_find?_eq_some search) member same]

theorem class_id_of_mem (distinct : (items.map Definition.iri).Nodup) {item : Definition}
    (member : item ∈ items) : (closureOf items).class_id_by_iri item.iri = some item.id := by
  rw [ClassClosureIndex.class_id_by_iri]
  show (items.find? fun other => other.iri = item.iri).map Definition.id = some item.id
  rw [find_of_mem_iri distinct member]
  rfl

theorem class_iri_of_mem (numbered : (items.map Definition.id).Nodup) {item : Definition}
    (member : item ∈ items) : (closureOf items).class_iri_by_id item.id = some item.iri := by
  rw [ClassClosureIndex.class_iri_by_id]
  show (items.find? fun other => other.id = item.id).map Definition.iri = some item.iri
  cases search : items.find? fun other => other.id = item.id with
  | none => exact absurd (decide_eq_true rfl) (List.find?_eq_none.mp search item member)
  | some found =>
    have same : found.id = item.id := by simpa using List.find?_some search
    rw [List.inj_on_of_nodup_map numbered (List.mem_of_find?_eq_some search) member same]
    rfl

/-- The numbers that are collected below a class. -/
theorem mem_descendant_ids (ontology : Ontology items) (base_iri : String) (id : Nat) :
    id ∈ ((closureOf items).hierarchy.descendants base_iri).filterMap
        (closureOf items).class_id_by_iri ↔
      ∃ item ∈ items, item.id = id ∧
        TransGen (fun child parent => parent ∈ parentsOf items child) item.iri base_iri := by
  rw [List.mem_filterMap]
  constructor
  · rintro ⟨iri, below, found⟩
    have descends := (mem_descendants ontology base_iri iri).mp below
    obtain ⟨parent, step, _⟩ := TransGen.head'_iff.mp descends
    obtain ⟨item, member, rfl⟩ := List.mem_map.mp (defined_of_parent step)
    rw [class_id_of_mem ontology.distinct member] at found
    exact ⟨item, member, Option.some.inj found, descends⟩
  · rintro ⟨item, member, rfl, descends⟩
    exact ⟨item.iri, (mem_descendants ontology base_iri item.iri).mpr descends,
      class_id_of_mem ontology.distinct member⟩

/-- The numbers of the classes at or below a class. -/
theorem descendantsBitmap_ok (ontology : Ontology items) {base : Definition} (known : base ∈ items) :
    ∃ bitmap, (closureOf items).descendantsBitmap base.iri = .ok bitmap ∧
      ∀ id, id ∈ bitmap ↔ ∃ item ∈ items, item.id = id ∧ Descends items item.iri base.iri := by
  have baseId := class_id_of_mem ontology.distinct known
  refine ⟨_, by rw [ClassClosureIndex.descendantsBitmap, ClassClosureIndex.requireClass, baseId]; rfl,
    fun id => ?_⟩
  rw [Finset.mem_insert, List.mem_toFinset, mem_descendant_ids ontology]
  constructor
  · rintro (same | ⟨item, member, same, descends⟩)
    · exact ⟨base, known, same.symm, ReflTransGen.refl⟩
    · exact ⟨item, member, same, descends.to_reflTransGen⟩
  · rintro ⟨item, member, rfl, descends⟩
    rcases reflTransGen_iff_eq_or_transGen.mp descends with same | reached
    · have isBase := List.inj_on_of_nodup_map ontology.distinct known member same
      exact .inl (congrArg Definition.id isBase.symm)
    · exact .inr ⟨item, member, rfl, reached⟩

/-- `is_subclass` decides whether a class descends from another. -/
theorem isSubclass_ok (ontology : Ontology items) (numbered : (items.map Definition.id).Nodup)
    {child parent : Definition} (childKnown : child ∈ items) (parentKnown : parent ∈ items) :
    ∃ answer, (closureOf items).isSubclass child.iri parent.iri = .ok answer ∧
      (answer = true ↔ Descends items child.iri parent.iri) := by
  obtain ⟨bitmap, ok, members⟩ := descendantsBitmap_ok ontology parentKnown
  refine ⟨decide (child.id ∈ bitmap), ?_, ?_⟩
  · rw [ClassClosureIndex.isSubclass, ClassClosureIndex.requireClass,
      class_id_of_mem ontology.distinct childKnown, ok]
    rfl
  · rw [decide_eq_true_eq, members]
    constructor
    · rintro ⟨item, member, same, descends⟩
      rw [List.inj_on_of_nodup_map numbered member childKnown same] at descends
      exact descends
    · exact fun descends => ⟨child, childKnown, rfl, descends⟩

/-- The IRIs under the numbers of some classes are those of the classes, each once. -/
theorem iris_of_ids (distinct : (items.map Definition.iri).Nodup)
    (numbered : (items.map Definition.id).Nodup) {bitmap : Finset Nat} {chosen : Definition → Prop}
    (members : ∀ id, id ∈ bitmap ↔ ∃ item ∈ items, item.id = id ∧ chosen item) :
    ((bitmap.sort (· ≤ ·)).filterMap (closureOf items).class_iri_by_id).Nodup ∧
      ∀ iri, iri ∈ (bitmap.sort (· ≤ ·)).filterMap (closureOf items).class_iri_by_id ↔
        ∃ item ∈ items, item.iri = iri ∧ chosen item := by
  constructor
  · refine (bitmap.sort_nodup (· ≤ ·)).filterMap ?_
    intro first second iri atFirst atSecond
    obtain ⟨item, search, rfl⟩ := Option.map_eq_some_iff.mp atFirst
    obtain ⟨other, searchOther, same⟩ := Option.map_eq_some_iff.mp atSecond
    have itemId : item.id = first := by simpa using List.find?_some search
    have otherId : other.id = second := by simpa using List.find?_some searchOther
    have equal := List.inj_on_of_nodup_map distinct (List.mem_of_find?_eq_some searchOther)
      (List.mem_of_find?_eq_some search) same
    rw [← itemId, ← otherId, equal]
  · intro iri
    rw [List.mem_filterMap]
    constructor
    · rintro ⟨id, inside, found⟩
      rw [Finset.mem_sort, members] at inside
      obtain ⟨item, member, rfl, holds⟩ := inside
      rw [class_iri_of_mem numbered member] at found
      exact ⟨item, member, Option.some.inj found, holds⟩
    · rintro ⟨item, member, rfl, holds⟩
      refine ⟨item.id, ?_, class_iri_of_mem numbered member⟩
      rw [Finset.mem_sort, members]
      exact ⟨item, member, rfl, holds⟩

/-- `descendant_iris` lists the classes at or below a class, each once. -/
theorem descendantIris_ok (ontology : Ontology items) (numbered : (items.map Definition.id).Nodup)
    {base : Definition} (known : base ∈ items) :
    ∃ iris, (closureOf items).descendantIris base.iri = .ok iris ∧ iris.Nodup ∧
      ∀ iri, iri ∈ iris ↔ iri ∈ items.map Definition.iri ∧ Descends items iri base.iri := by
  obtain ⟨bitmap, ok, members⟩ := descendantsBitmap_ok ontology known
  obtain ⟨once, listed⟩ := iris_of_ids ontology.distinct numbered members
  refine ⟨(bitmap.sort (· ≤ ·)).filterMap (closureOf items).class_iri_by_id, ?_, once, fun iri => ?_⟩
  · rw [ClassClosureIndex.descendantIris, ok]
    rfl
  · rw [listed, List.mem_map]
    constructor
    · rintro ⟨item, member, rfl, descends⟩
      exact ⟨⟨item, member, rfl⟩, descends⟩
    · rintro ⟨⟨item, member, rfl⟩, descends⟩
      exact ⟨item, member, rfl, descends⟩

end Closure

end CaracalDB.Hierarchy
