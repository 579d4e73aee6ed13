import CaracalDB.CatalogFile
import CaracalDB.Call
import CaracalDB.GraphCatalog

/-!
# Registering in the catalog

Classes, properties, graphs and indexes are registered under the next number of
their kind and refused where the IRI or the name is taken. Defining a class or a
property that exists gives the existing one; a class gains the superclasses and the
local name it lacks.
-/

namespace CaracalDB.Onto

/-- `_find_by_attr(items, attr, value)` -/
def findByAttr {Item : Type} (items : List Item) (attr : Item → String) (value : String) :
    Option Item :=
  items.find? fun item => attr item = value

/-- `_next_id(values)` -/
def nextId (values : List Int) : Int := values.max?.getD 0 + 1

/-- `_ensure_unique(kind, value, items, attr=attr)` -/
def ensureUnique {Item : Type} (kind value : String) (items : List Item) (attr : Item → String) :
    Except Raised Unit :=
  match findByAttr items attr value with
  | some _ => raiseCaracal "CDB-9503" (kind ++ " already exists: " ++ value)
  | none => .ok ()

/-- `Catalog.empty(catalog_id=...)` at a time. -/
def Catalog.empty (catalog_id : Option String) (now : String) : Catalog :=
  { format_version := FORMAT_VERSION
    catalog_id
    created_at := now
    updated_at := now
    ontologies := []
    classes := []
    properties := []
    graphs := []
    indexes := [] }

/-- A change of the catalog. -/
abbrev Change (Answer : Type) : Type := Call Catalog Raised Answer

section Registering

variable (now : String)

/-- What the registrations share: the check, the next number, the item behind the others. -/
def registerItem {Item : Type} (kind value : String) (items : Catalog → List Item)
    (attr : Item → String) (id : Item → Int) (make : Int → Item)
    (store : List Item → Catalog → Catalog) : Change Item := do
  let catalog ← Call.current
  Call.ofExcept (ensureUnique kind value (items catalog) attr)
  let item := make (nextId ((items catalog).map id))
  Call.change fun catalog => { store (items catalog ++ [item]) catalog with updated_at := now }
  return item

/-- `catalog.register_class(iri, ...)` -/
def registerClass (iri : String) (local_name : Option String) (superclass_iris : List String)
    (fields : List FieldDef) (doc : Option String) : Change ClassDef :=
  registerItem now "class" iri Catalog.classes ClassDef.iri ClassDef.cid
    (fun cid =>
      { cid
        iri
        local_name := some (textOr local_name (localOf iri))
        superclass_iris
        fields
        doc })
    fun classes catalog => { catalog with classes }

/-- `catalog.register_property(iri, ...)` -/
def registerProperty (iri : String) (local_name : Option String) (kind : PropertyKind)
    (superproperty_iris domain_iris : List String) (range_type : Option TypeRef)
    (range_iris : List String) (characteristics : List PropertyCharacteristic)
    (fields : List FieldDef) (inverse_iri doc : Option String) : Change PropertyDef :=
  registerItem now "property" iri Catalog.properties PropertyDef.iri PropertyDef.pid
    (fun pid =>
      { pid
        iri
        local_name := some (textOr local_name (localOf iri))
        kind
        superproperty_iris
        domain_iris
        range_type
        range_iris
        characteristics
        fields
        inverse_iri
        doc })
    fun properties catalog => { catalog with properties }

/-- `catalog.register_graph(name, ...)` -/
def registerGraph (name : String) (ontology_iris class_iris property_iris : List String)
    (doc : Option String) : Change GraphDef :=
  registerItem now "graph" name Catalog.graphs GraphDef.name GraphDef.gid
    (fun gid =>
      { gid
        name
        ontology_iris
        class_iris
        property_iris
        doc })
    fun graphs catalog => { catalog with graphs }

/-- `catalog.register_index(name, ...)` -/
def registerIndex (name : String) (kind : IndexKind)
    (target_class_iri target_property_iri : Option String) (fields : List String)
    (sort : SortDirection) (options : List IndexOptionDef) (unique : Bool) : Change IndexDef :=
  registerItem now "index" name Catalog.indexes IndexDef.name IndexDef.iid
    (fun iid =>
      { iid
        name
        kind
        target_class_iri
        target_property_iri
        fields
        sort
        options
        unique })
    fun indexes catalog => { catalog with indexes }

/-- `candidate.local_name or _local(candidate.iri)` -/
def ClassDef.localName (cls : ClassDef) : String := textOr cls.local_name (localOf cls.iri)

/-- `candidate.local_name or _local(candidate.iri)` -/
def PropertyDef.localName (property : PropertyDef) : String :=
  textOr property.local_name (localOf property.iri)

/-- `db._merge_class(cls, local_name=..., superclass_iris=...)` -/
def mergeClass (cls : ClassDef) (local_name : String) (superclass_iris : List String) :
    Change ClassDef :=
  let merged_superclasses := (cls.superclass_iris ++ superclass_iris).eraseDups
  let merged_local_name := some (textOr cls.local_name local_name)
  if merged_superclasses = cls.superclass_iris ∧ merged_local_name = cls.local_name then pure cls
  else do
    let updated : ClassDef :=
      { cls with
        local_name := merged_local_name
        superclass_iris := merged_superclasses }
    Call.change fun catalog =>
      { catalog with
        classes := catalog.classes.map fun item => if item.cid = cls.cid then updated else item
        updated_at := now }
    return updated

/-- `db.define_class(name, iri=..., superclass_iris=...)` -/
def defineClass (name : String) (iri : Option String) (superclass_iris : List String) :
    Change ClassDef := do
  let class_iri := textOr iri (syntheticIri name)
  let catalog ← Call.current
  match findByAttr catalog.classes ClassDef.iri class_iri with
  | some existing => mergeClass now existing name superclass_iris
  | none =>
      match catalog.classes.find? fun candidate => candidate.localName = name with
      | some candidate => mergeClass now candidate name superclass_iris
      | none => registerClass now class_iri (some name) superclass_iris [] none

/-- `db._define_property(name, iri=...)` -/
def defineProperty (name : String) (iri : Option String) : Change PropertyDef := do
  let property_iri := textOr iri (syntheticIri name)
  let catalog ← Call.current
  match findByAttr catalog.properties PropertyDef.iri property_iri with
  | some existing => pure existing
  | none =>
      match catalog.properties.find? fun candidate => candidate.localName = name with
      | some candidate => pure candidate
      | none => registerProperty now property_iri (some name) .OBJECT [] [] none [] [] [] none none

end Registering

/-- What is done to a catalog. -/
inductive Operation where
  | register_class (iri : String) (local_name : Option String) (superclass_iris : List String)
      (fields : List FieldDef) (doc : Option String)
  | register_property (iri : String) (local_name : Option String) (kind : PropertyKind)
      (superproperty_iris domain_iris : List String) (range_type : Option TypeRef)
      (range_iris : List String) (characteristics : List PropertyCharacteristic)
      (fields : List FieldDef) (inverse_iri doc : Option String)
  | register_graph (name : String) (ontology_iris class_iris property_iris : List String)
      (doc : Option String)
  | register_index (name : String) (kind : IndexKind)
      (target_class_iri target_property_iri : Option String) (fields : List String)
      (sort : SortDirection) (options : List IndexOptionDef) (unique : Bool)
  | define_class (name : String) (iri : Option String) (superclass_iris : List String)
  | define_property (name : String) (iri : Option String)
  /-- `save_catalog`, then `load_catalog` in place of the catalog. -/
  | save_and_load

section Operating

variable {Text : Type} (json : Json Text) (c : Conversions)

/-- One operation at a time. -/
def Operation.run (now : String) : Operation → Change Unit
  | .register_class iri local_name superclass_iris fields doc => do
      let _ ← registerClass now iri local_name superclass_iris fields doc
  | .register_property iri local_name kind superproperty_iris domain_iris range_type range_iris
      characteristics fields inverse_iri doc => do
      let _ ← registerProperty now iri local_name kind superproperty_iris domain_iris range_type
        range_iris characteristics fields inverse_iri doc
  | .register_graph name ontology_iris class_iris property_iris doc => do
      let _ ← registerGraph now name ontology_iris class_iris property_iris doc
  | .register_index name kind target_class_iri target_property_iri fields sort options unique => do
      let _ ← registerIndex now name kind target_class_iri target_property_iri fields sort options
        unique
  | .define_class name iri superclass_iris => do
      let _ ← defineClass now name iri superclass_iris
  | .define_property name iri => do
      let _ ← defineProperty now name iri
  | .save_and_load => do
      let catalog ← Call.current
      let loaded ← Call.ofExcept (Catalog.fromBytes json c now (catalog.toBytes json))
      Call.change fun _ => loaded

/-- The catalog after an operation, done or refused. -/
def operated (catalog : Catalog) (operation : String × Operation) : Catalog :=
  (Call.run (operation.2.run json c operation.1) catalog).2

/-- The catalog after operations, each at its time. -/
def afterAll (catalog : Catalog) (operations : List (String × Operation)) : Catalog :=
  operations.foldl (operated json c) catalog

end Operating

end CaracalDB.Onto
