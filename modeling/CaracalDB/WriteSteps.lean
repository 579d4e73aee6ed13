import CaracalDB.Writes

/-!
# What the insertions are made of

The inserting methods only define classes and properties, create and extend
stores and touch the caches. A relation between databases that each of these
steps respects is respected by every insertion, whether it answers or raises.
-/

namespace CaracalDB

open Database

/-- A relation that every step of an insertion respects. -/
structure WriteSteps (relation : Database → Database → Prop) : Prop where
  define_class : ∀ name, Call.Relates relation (defineClass name)
  define_property : ∀ name iri, Call.Relates relation (defineProperty name iri)
  create_nodes : ∀ iri name, Call.Relates relation (createNodes iri name)
  create_edges : ∀ iri name, Call.Relates relation (createEdges iri name)
  append_nodes : ∀ name table, Call.Relates relation (appendNodes name table)
  append_edges : ∀ name table repeated, Call.Relates relation (appendEdges name table repeated)
  invalidate_all : Call.Relates relation invalidateAll
  invalidate_relation : ∀ name, Call.Relates relation (invalidateRelation name)
  remember : ∀ key_col ids db, relation db (Database.remember key_col ids db)

namespace WriteSteps

open Call

variable {relation : Database → Database → Prop} [IsPreorder Database relation]

/-! ### Nodes -/

theorem insertNodes (steps : WriteSteps relation) (class_name : String) (table : Table) :
    Relates relation (Database.insertNodes class_name table) := by
  refine Relates.bind (Relates.ofExcept _) fun _ => ?_
  refine Relates.bind (Relates.ask _) fun cls => ?_
  refine Relates.bind (steps.create_nodes _ _) fun _ => ?_
  refine Relates.bind (steps.append_nodes _ _) fun ref => ?_
  refine Relates.bind steps.invalidate_all fun _ => ?_
  exact Relates.bind (Relates.ofExcept _) fun _ => Relates.pure ref

theorem externalIdMap (steps : WriteSteps relation) (runtime : Runtime) (key_col : String) :
    Relates relation (Database.externalIdMap runtime key_col) := by
  apply Relates.attempt
  intro db ids after happens
  cases answer : idMap runtime key_col db with
  | error raised =>
    rw [answer] at happens
    cases happens
  | ok found =>
    rw [answer] at happens
    cases happens
    exact steps.remember key_col ids db

theorem assignKey (steps : WriteSteps relation) (key_col : String) (numbering : Numbering)
    (value : Value) : Relates relation (Database.assignKey key_col numbering value) := by
  refine Relates.bind (Relates.ofExcept _) fun key => ?_
  exact Relates.bind (Relates.change (steps.remember key_col _)) fun _ => Relates.pure _

theorem storeClass (steps : WriteSteps relation) (class_name : String)
    (table : Except Raised Table) (refs : Dict String ChunkRef) :
    Relates relation (Database.storeClass class_name table refs) := by
  refine Relates.bind (steps.define_class _) fun _ => ?_
  refine Relates.bind (Relates.ofExcept _) fun table => ?_
  exact Relates.bind (steps.insertNodes _ _) fun ref => Relates.pure _

theorem insertNodeTable (steps : WriteSteps relation) (runtime : Runtime) (payload : List Row)
    (key_col type_col : String) :
    Relates relation (Database.insertNodeTable runtime payload key_col type_col) := by
  refine Relates.bind (Relates.ofExcept _) fun _ => ?_
  refine Relates.bind (Relates.ofExcept _) fun _ => ?_
  refine Relates.bind (steps.externalIdMap _ _) fun ids => ?_
  refine Relates.bind (Relates.foldlM _ ?_ _) ?_
  · intro state row _
    refine Relates.bind (steps.assignKey _ _ _) fun ⟨numbering, gid⟩ => ?_
    exact Relates.bind (Relates.ofExcept _) fun class_name => Relates.pure _
  · rintro ⟨numbering, grouped⟩
    exact Relates.foldlM _ (fun refs group _ => steps.storeClass _ _ _) _

theorem insertNodeTableArrow (steps : WriteSteps relation) (runtime : Runtime) (table : Table)
    (key_col type_col : String) :
    Relates relation (Database.insertNodeTableArrow runtime table key_col type_col) := by
  refine Relates.bind (Relates.ofExcept _) fun _ => ?_
  refine Relates.bind (Relates.ofExcept _) fun _ => ?_
  split
  · refine Relates.bind (steps.externalIdMap _ _) fun ids => ?_
    refine Relates.bind (Relates.ofExcept _) fun _ => ?_
    refine Relates.bind (Relates.foldlM _ ?_ _) ?_
    · intro state value _
      exact Relates.bind (steps.assignKey _ _ _) fun ⟨numbering, gid⟩ => Relates.pure _
    · rintro ⟨numbering, gids⟩
      refine Relates.bind (Relates.ofExcept _) fun _ => ?_
      refine Relates.bind (Relates.ofExcept _) fun _ => ?_
      refine Relates.foldlM _ (fun refs raw_type _ => ?_) _
      exact Relates.bind (Relates.ofExcept _) fun class_name => steps.storeClass _ _ _
  · exact Relates.raise _

/-! ### Edges -/

theorem storeRelation (steps : WriteSteps relation) (name : String) (table : Except Raised Table)
    (repeated : List String) (refs : Dict String ChunkRef) :
    Relates relation (Database.storeRelation name table repeated refs) := by
  refine Relates.bind (steps.define_property _ _) fun prop => ?_
  refine Relates.bind (steps.create_edges _ _) fun _ => ?_
  refine Relates.bind (Relates.ofExcept _) fun table => ?_
  refine Relates.bind (steps.append_edges _ _ _) fun ref => ?_
  exact Relates.bind (steps.invalidate_relation _) fun _ => Relates.pure _

theorem insertEdgeTable (steps : WriteSteps relation) (runtime : Runtime) (payload : List Row)
    (columns : EdgeColumns) :
    Relates relation (Database.insertEdgeTable runtime payload columns) := by
  refine Relates.bind (Relates.ofExcept _) fun _ => ?_
  refine Relates.bind (steps.externalIdMap _ _) fun ids => ?_
  refine Relates.bind (Relates.ofExcept _) fun grouped => ?_
  exact Relates.foldlM _ (fun refs group _ => steps.storeRelation _ _ _ _) _

theorem insertEdgeTableArrow (steps : WriteSteps relation) (runtime : Runtime) (table : Table)
    (columns : EdgeColumns) :
    Relates relation (Database.insertEdgeTableArrow runtime table columns) := by
  refine Relates.bind (Relates.ofExcept _) fun _ => ?_
  refine Relates.bind (Relates.ofExcept _) fun _ => ?_
  refine Relates.bind (Relates.ofExcept _) fun _ => ?_
  refine Relates.bind (steps.externalIdMap _ _) fun ids => ?_
  refine Relates.bind (Relates.ofExcept _) fun _ => ?_
  refine Relates.bind (Relates.ofExcept _) fun _ => ?_
  refine Relates.bind (Relates.ofExcept _) fun _ => ?_
  refine Relates.foldlM _ (fun refs raw_type _ => ?_) _
  exact Relates.bind (Relates.ofExcept _) fun name => steps.storeRelation _ _ _ _

/-! ### Triples and resources -/

theorem storeGraph (steps : WriteSteps relation) (runtime : Runtime) (nodes edges : List Row)
    (property_iris : Dict String String) :
    Relates relation (Database.storeGraph runtime nodes edges property_iris) := by
  refine Relates.bind (steps.insertNodeTable _ _ _ _) fun nodeRefs => ?_
  refine Relates.bind (Relates.foldlM _ ?_ _) fun _ => ?_
  · rintro ⟨⟩ ⟨name, iri⟩ _
    exact Relates.bind (steps.define_property _ _) fun _ => Relates.pure _
  · split
    · exact Relates.pure _
    · exact Relates.bind (steps.insertEdgeTable _ _ _) fun edgeRefs => Relates.pure _

theorem insertTriples (steps : WriteSteps relation) (runtime : Runtime) (payload : List Row)
    (columns : TripleColumns) (policy : String) :
    Relates relation (Database.insertTriples runtime payload columns policy) :=
  Relates.bind (Relates.ofExcept _) fun _ => steps.storeGraph _ _ _ _

theorem importResource (steps : WriteSteps relation) (runtime : Runtime) (obj : Row)
    (policy : String) : Relates relation (Database.importResource runtime obj policy) := by
  refine Relates.bind (Relates.ofExcept _) fun _ => ?_
  cases resourceShape obj with
  | neo4j =>
    refine Relates.bind (Relates.ofExcept _) fun ⟨node, relationships⟩ => ?_
    refine Relates.bind (steps.externalIdMap _ _) fun ids => ?_
    exact Relates.bind (Relates.ofExcept _) fun placeholders => steps.storeGraph _ _ _ _
  | iri => exact Relates.bind (Relates.ofExcept _) fun node => steps.storeGraph _ _ _ _
  | triple => exact steps.insertTriples _ _ _ _
  | typed_node => exact steps.storeGraph _ _ _ _
  | typed_edge => exact Relates.bind (steps.insertEdgeTable _ _ _) fun edges => Relates.pure _
  | unknown => exact Relates.raise _

/-! ### Upserts -/

section Removing

variable (removeNodes : ∀ name, Relates relation (Database.removeNodes name))
  (removeEdges : ∀ name, Relates relation (Database.removeEdges name))

include removeNodes in
theorem upsertNodeTable (steps : WriteSteps relation) (runtime : Runtime) (table : Table)
    (key_col type_col : String) (update_existing : Bool) :
    Relates relation
      (Database.upsertNodeTable runtime table key_col type_col update_existing) := by
  refine Relates.bind (Relates.ask _) fun ⟨grouped, counts⟩ => ?_
  refine Relates.bind (Relates.foldlM _ (fun _ group _ => ?_) _) fun _ => ?_
  · refine Relates.bind (steps.define_class _) fun _ => ?_
    refine Relates.bind (Relates.ask _) fun cls => ?_
    refine Relates.bind (removeNodes _) fun _ => ?_
    refine Relates.bind (steps.create_nodes _ _) fun _ => ?_
    split
    · exact Relates.pure _
    · refine Relates.bind (Relates.ofExcept _) fun table => ?_
      exact Relates.bind (steps.append_nodes _ _) fun _ => Relates.pure _
  · exact Relates.bind steps.invalidate_all fun _ => Relates.pure _

include removeEdges in
theorem upsertEdgeTable (steps : WriteSteps relation) (runtime : Runtime) (table : Table)
    (edge_key_col : String) (columns : EdgeColumns) (update_existing : Bool) :
    Relates relation
      (Database.upsertEdgeTable runtime table edge_key_col columns update_existing) := by
  refine Relates.bind (Relates.ofExcept _) fun table => ?_
  refine Relates.bind (Relates.ask _) fun collected => ?_
  refine Relates.bind (steps.externalIdMap _ _) fun id_map => ?_
  refine Relates.bind (Relates.ofExcept _) fun ⟨grouped, counts⟩ => ?_
  refine Relates.bind (Relates.foldlM _ (fun _ group _ => ?_) _) fun _ => Relates.pure _
  refine Relates.bind (steps.define_property _ _) fun _ => ?_
  refine Relates.bind ?_ fun _ => steps.invalidate_relation _
  refine Relates.bind (Relates.ask _) fun prop => ?_
  refine Relates.bind (removeEdges _) fun _ => ?_
  refine Relates.bind (steps.create_edges _ _) fun _ => ?_
  split
  · exact Relates.pure _
  · refine Relates.bind (Relates.ofExcept _) fun table => ?_
    exact Relates.bind (steps.append_edges _ _ _) fun _ => Relates.pure _

end Removing

end WriteSteps

/-! ### Writes -/

namespace Write

open Call

variable {relation : Database → Database → Prop} [IsPreorder Database relation]

/-- Whether a write only inserts. -/
def Inserts : Write → Prop
  | .upsert_node_table_arrow _ _ _ _ => False
  | .upsert_edge_table_arrow _ _ _ _ => False
  | _ => True

/-- A call that ends with an answer of its own ends in the same database. -/
theorem relates_answer {Given : Type} {method : Method Given} (make : Given → Answer)
    (related : Relates relation method) :
    Relates relation (do return make (← method) : Method Answer) :=
  Relates.bind related fun value => Relates.pure (make value)

theorem relates_insertion (steps : WriteSteps relation) (runtime : Runtime) {write : Write}
    (inserts : write.Inserts) : Relates relation (write.call runtime) := by
  cases write with
  | insert_nodes class_name rows =>
    exact Relates.bind (Relates.ofExcept _)
      fun table => relates_answer Answer.chunk (steps.insertNodes class_name table)
  | insert_nodes_arrow class_name table =>
    exact relates_answer Answer.chunk (steps.insertNodes class_name table)
  | insert_node_table rows key_col type_col =>
    exact relates_answer Answer.chunks (steps.insertNodeTable runtime rows key_col type_col)
  | insert_node_table_arrow table key_col type_col =>
    exact relates_answer Answer.chunks (steps.insertNodeTableArrow runtime table key_col type_col)
  | insert_edge_table rows columns =>
    exact relates_answer Answer.chunks (steps.insertEdgeTable runtime rows columns)
  | insert_edge_table_arrow table columns =>
    exact relates_answer Answer.chunks (steps.insertEdgeTableArrow runtime table columns)
  | insert_triples triples columns policy =>
    exact relates_answer Answer.graph (steps.insertTriples runtime triples columns policy)
  | import_resource obj policy =>
    exact relates_answer Answer.graph (steps.importResource runtime obj policy)
  | upsert_node_table_arrow table key_col type_col update_existing => exact inserts.elim
  | upsert_edge_table_arrow table edge_key_col columns update_existing => exact inserts.elim

/-- Every write respects a relation that its steps and the removal of directories respect. -/
theorem relates_write (steps : WriteSteps relation)
    (removeNodes : ∀ name, Relates relation (Database.removeNodes name))
    (removeEdges : ∀ name, Relates relation (Database.removeEdges name)) (runtime : Runtime)
    (write : Write) : Relates relation (write.call runtime) := by
  cases write with
  | upsert_node_table_arrow table key_col type_col update_existing =>
    exact relates_answer Answer.counts
      (steps.upsertNodeTable removeNodes runtime table key_col type_col update_existing)
  | upsert_edge_table_arrow table edge_key_col columns update_existing =>
    exact relates_answer Answer.counts
      (steps.upsertEdgeTable removeEdges runtime table edge_key_col columns update_existing)
  | _ => exact relates_insertion steps runtime trivial

end Write

end CaracalDB
