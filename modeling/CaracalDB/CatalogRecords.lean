import CaracalDB.Loops
import CaracalDB.PythonValue
import CaracalDB.LocalName

/-!
# Records of the catalog

The catalog keeps its definitions as records. Each is written to a dictionary of
plain values and read back from one; a missing entry is read as a default where the
record has one. What a record is written to is read back as the record.
-/

namespace CaracalDB.Onto

/-- What the language's library makes of values that a catalog is not written with: `int(value)`,
`str(value)` and a number that is no member of an enumeration. -/
structure Conversions where
  int : Value → Except Raised Int
  str : Value → String
  invalid : String → Int → Raised

section Reading

variable (c : Conversions)

/-- `int(value)` -/
def Conversions.toInt : Value → Except Raised Int
  | .int number => .ok number
  | value => c.int value

/-- `str(value)` -/
def Conversions.toStr : Value → String
  | .str text => text
  | value => c.str value

/-- `_optional_str(value)` -/
def Conversions.optionalStr : Value → Option String
  | .null => none
  | value => some (c.toStr value)

/-- The entry of a dictionary under a key. -/
def lookup (key : String) : List (String × Value) → Option Value
  | [] => none
  | (name, value) :: entries => if name = key then some value else lookup key entries

@[simp] theorem lookup_nil (key : String) : lookup key [] = none := rfl

@[simp] theorem lookup_cons (key name : String) (value : Value) (entries : List (String × Value)) :
    lookup key ((name, value) :: entries) = if name = key then some value else lookup key entries :=
  rfl

/-- `value[key]` -/
def entry (key : String) : Value → Except Raised Value
  | .dict entries =>
      match lookup key entries with
      | some value => .ok value
      | none => .error (.keyError key)
  | _ => .error (.typeError "indices must be integers")

/-- `value.get(key, default)` -/
def entryOr (key : String) (default : Value) : Value → Except Raised Value
  | .dict entries => .ok ((lookup key entries).getD default)
  | _ => .error (.attributeError "get")

/-- What a loop over a value goes through. -/
def itemsOf : Value → Except Raised (List Value)
  | .list items => .ok items
  | .dict entries => .ok (entries.map fun entry => .str entry.1)
  | .str text => .ok (text.toList.map fun char => .str (String.singleton char))
  | _ => .error (.typeError "object is not iterable")

/-- `tuple(read(item) for item in value.get(key, []))` -/
def records {Item : Type} (read : Value → Except Raised Item) (key : String) (value : Value) :
    Except Raised (List Item) := do
  (← itemsOf (← entryOr key (.list []) value)).mapM read

/-- `tuple(str(item) for item in value.get(key, []))` -/
def texts (key : String) (value : Value) : Except Raised (List String) :=
  records (fun item => .ok (c.toStr item)) key value

/-- The value of a member of an enumeration: its place in the order of the members. -/
def numberOf {Member : Type} [DecidableEq Member] (members : List Member) (member : Member) : Value :=
  .int (members.idxOf member)

/-- `Enumeration(int(value))` -/
def memberOf {Member : Type} (name : String) (members : List Member) (value : Value) :
    Except Raised Member := do
  let number ← c.toInt value
  match if 0 ≤ number then members[number.toNat]? else none with
  | some member => .ok member
  | none => .error (c.invalid name number)

end Reading

/-! ## Enumerations -/

inductive TypeKind where
  | UNKNOWN | BOOL | INT8 | INT16 | INT32 | INT64 | UINT8 | UINT16 | UINT32 | UINT64 | FLOAT32
  | FLOAT64 | DECIMAL | STRING | BYTES | DATE | TIME | DATETIME | DURATION | IRI | UUID | NODE
  | EDGE | TRIPLE | PATH | SUBGRAPH | CLASS | PROPERTY | EMBEDDING | ADJACENCY | LIST | MAP
  | STRUCT | UNION | VECTOR | MATRIX
deriving DecidableEq

def TypeKind.members : List TypeKind :=
  [.UNKNOWN, .BOOL, .INT8, .INT16, .INT32, .INT64, .UINT8, .UINT16, .UINT32, .UINT64, .FLOAT32,
    .FLOAT64, .DECIMAL, .STRING, .BYTES, .DATE, .TIME, .DATETIME, .DURATION, .IRI, .UUID, .NODE,
    .EDGE, .TRIPLE, .PATH, .SUBGRAPH, .CLASS, .PROPERTY, .EMBEDDING, .ADJACENCY, .LIST, .MAP,
    .STRUCT, .UNION, .VECTOR, .MATRIX]

inductive PropertyKind where
  | OBJECT | DATATYPE
deriving DecidableEq

def PropertyKind.members : List PropertyKind := [.OBJECT, .DATATYPE]

inductive PropertyCharacteristic where
  | SYMMETRIC | TRANSITIVE | REFLEXIVE | INVERSE | FUNCTIONAL
deriving DecidableEq

def PropertyCharacteristic.members : List PropertyCharacteristic :=
  [.SYMMETRIC, .TRANSITIVE, .REFLEXIVE, .INVERSE, .FUNCTIONAL]

inductive ConstraintKind where
  | REQUIRED | UNIQUE | CHECK | DEFAULT
deriving DecidableEq

def ConstraintKind.members : List ConstraintKind := [.REQUIRED, .UNIQUE, .CHECK, .DEFAULT]

inductive IndexKind where
  | CSR | CSC | HNSW | IVF | BTREE | HASH | BITMAP | ZONE_MAP
deriving DecidableEq

def IndexKind.members : List IndexKind :=
  [.CSR, .CSC, .HNSW, .IVF, .BTREE, .HASH, .BITMAP, .ZONE_MAP]

inductive SortDirection where
  | NONE | ASC | DESC
deriving DecidableEq

def SortDirection.members : List SortDirection := [.NONE, .ASC, .DESC]

/-! ## Records -/

/-- `TypeRef` -/
inductive TypeRef where
  | mk (kind : TypeKind) (name : Option String) (params : List TypeRef) (int_params : List Int)
      (precision scale : Int) (nullable : Bool)

structure ConstraintDef where
  kind : ConstraintKind
  expr : Option String

structure FieldDef where
  name : String
  type : TypeRef
  constraints : List ConstraintDef
  default_expr : Option String
  doc : Option String

structure ClassDef where
  cid : Int
  iri : String
  local_name : Option String
  superclass_iris : List String
  fields : List FieldDef
  doc : Option String

structure PropertyDef where
  pid : Int
  iri : String
  local_name : Option String
  kind : PropertyKind
  superproperty_iris : List String
  domain_iris : List String
  range_type : Option TypeRef
  range_iris : List String
  characteristics : List PropertyCharacteristic
  fields : List FieldDef
  inverse_iri : Option String
  doc : Option String

structure GraphDef where
  gid : Int
  name : String
  ontology_iris : List String
  class_iris : List String
  property_iris : List String
  doc : Option String

structure IndexOptionDef where
  key : String
  value : Option String

structure IndexDef where
  iid : Int
  name : String
  kind : IndexKind
  target_class_iri : Option String
  target_property_iri : Option String
  fields : List String
  sort : SortDirection
  options : List IndexOptionDef
  unique : Bool

structure PrefixDef where
  /-- `prefix` -/
  short : String
  iri : String

structure OntologyDef where
  iri : String
  base_iri : Option String
  prefixes : List PrefixDef
  class_iris : List String
  property_iris : List String
  imported_iris : List String
  doc : Option String

structure Catalog where
  format_version : Int
  catalog_id : Option String
  created_at : String
  updated_at : String
  ontologies : List OntologyDef
  classes : List ClassDef
  properties : List PropertyDef
  graphs : List GraphDef
  indexes : List IndexDef

/-! ## Writing -/

/-- A text or None. -/
def ofOptional : Option String → Value
  | none => .null
  | some text => .str text

/-- `list(texts)` -/
def ofTexts (texts : List String) : Value := .list (texts.map .str)

mutual

/-- `type_ref.to_dict()` -/
def TypeRef.toDict : TypeRef → Value
  | .mk kind name params int_params precision scale nullable => .dict
      [("kind", numberOf TypeKind.members kind), ("name", ofOptional name),
        ("params", .list (TypeRef.toDicts params)), ("int_params", .list (int_params.map .int)),
        ("precision", .int precision), ("scale", .int scale), ("nullable", .bool nullable)]

def TypeRef.toDicts : List TypeRef → List Value
  | [] => []
  | type :: types => type.toDict :: TypeRef.toDicts types

end

def ConstraintDef.toDict (constraint : ConstraintDef) : Value := .dict
  [("kind", numberOf ConstraintKind.members constraint.kind), ("expr", ofOptional constraint.expr)]

def FieldDef.toDict (field : FieldDef) : Value := .dict
  [("name", .str field.name), ("type", field.type.toDict),
    ("constraints", .list (field.constraints.map ConstraintDef.toDict)),
    ("default_expr", ofOptional field.default_expr), ("doc", ofOptional field.doc)]

def ClassDef.toDict (cls : ClassDef) : Value := .dict
  [("cid", .int cls.cid), ("iri", .str cls.iri), ("local_name", ofOptional cls.local_name),
    ("superclass_iris", ofTexts cls.superclass_iris),
    ("fields", .list (cls.fields.map FieldDef.toDict)), ("doc", ofOptional cls.doc)]

def PropertyDef.toDict (property : PropertyDef) : Value := .dict
  [("pid", .int property.pid), ("iri", .str property.iri),
    ("local_name", ofOptional property.local_name),
    ("kind", numberOf PropertyKind.members property.kind),
    ("superproperty_iris", ofTexts property.superproperty_iris),
    ("domain_iris", ofTexts property.domain_iris),
    ("range_type", (property.range_type.map TypeRef.toDict).getD .null),
    ("range_iris", ofTexts property.range_iris),
    ("characteristics",
      .list (property.characteristics.map (numberOf PropertyCharacteristic.members))),
    ("fields", .list (property.fields.map FieldDef.toDict)),
    ("inverse_iri", ofOptional property.inverse_iri), ("doc", ofOptional property.doc)]

def GraphDef.toDict (graph : GraphDef) : Value := .dict
  [("gid", .int graph.gid), ("name", .str graph.name),
    ("ontology_iris", ofTexts graph.ontology_iris), ("class_iris", ofTexts graph.class_iris),
    ("property_iris", ofTexts graph.property_iris), ("doc", ofOptional graph.doc)]

def IndexOptionDef.toDict (option : IndexOptionDef) : Value := .dict
  [("key", .str option.key), ("value", ofOptional option.value)]

def IndexDef.toDict (index : IndexDef) : Value := .dict
  [("iid", .int index.iid), ("name", .str index.name),
    ("kind", numberOf IndexKind.members index.kind),
    ("target_class_iri", ofOptional index.target_class_iri),
    ("target_property_iri", ofOptional index.target_property_iri),
    ("fields", ofTexts index.fields), ("sort", numberOf SortDirection.members index.sort),
    ("options", .list (index.options.map IndexOptionDef.toDict)), ("unique", .bool index.unique)]

def PrefixDef.toDict (declared : PrefixDef) : Value := .dict
  [("prefix", .str declared.short), ("iri", .str declared.iri)]

def OntologyDef.toDict (ontology : OntologyDef) : Value := .dict
  [("iri", .str ontology.iri), ("base_iri", ofOptional ontology.base_iri),
    ("prefixes", .list (ontology.prefixes.map PrefixDef.toDict)),
    ("class_iris", ofTexts ontology.class_iris), ("property_iris", ofTexts ontology.property_iris),
    ("imported_iris", ofTexts ontology.imported_iris), ("doc", ofOptional ontology.doc)]

def Catalog.toDict (catalog : Catalog) : Value := .dict
  [("format_version", .int catalog.format_version), ("catalog_id", ofOptional catalog.catalog_id),
    ("created_at", .str catalog.created_at), ("updated_at", .str catalog.updated_at),
    ("ontologies", .list (catalog.ontologies.map OntologyDef.toDict)),
    ("classes", .list (catalog.classes.map ClassDef.toDict)),
    ("properties", .list (catalog.properties.map PropertyDef.toDict)),
    ("graphs", .list (catalog.graphs.map GraphDef.toDict)),
    ("indexes", .list (catalog.indexes.map IndexDef.toDict))]

/-! ## Reading -/

section Reading

variable (c : Conversions)

/-- `TypeRef.from_dict(value)`, as deep as the recursion is allowed to go. -/
def TypeRef.fromDict : Nat → Value → Except Raised TypeRef
  | 0, _ => .error (.typeError "maximum recursion depth exceeded")
  | depth + 1, value => do
      let kind ← memberOf c "TypeKind" TypeKind.members (← entryOr "kind" (.int 0) value)
      let name := c.optionalStr (← entryOr "name" .null value)
      let params ← records (TypeRef.fromDict depth) "params" value
      let int_params ← records c.toInt "int_params" value
      let precision ← c.toInt (← entryOr "precision" (.int 0) value)
      let scale ← c.toInt (← entryOr "scale" (.int 0) value)
      let nullable := (← entryOr "nullable" (.bool true) value).truthy
      return .mk kind name params int_params precision scale nullable

mutual

/-- How deep the lists and dictionaries of a value go. -/
def depthOf : Value → Nat
  | .list items => depthOfItems items + 1
  | .dict entries => depthOfEntries entries + 1
  | _ => 1

def depthOfItems : List Value → Nat
  | [] => 0
  | item :: items => max (depthOf item) (depthOfItems items)

def depthOfEntries : List (String × Value) → Nat
  | [] => 0
  | (_, value) :: entries => max (depthOf value) (depthOfEntries entries)

end

/-- `TypeRef.from_dict(value)` -/
def typeRef (value : Value) : Except Raised TypeRef := TypeRef.fromDict c (depthOf value) value

def ConstraintDef.fromDict (value : Value) : Except Raised ConstraintDef := do
  let kind ← memberOf c "ConstraintKind" ConstraintKind.members (← entry "kind" value)
  let expr := c.optionalStr (← entryOr "expr" .null value)
  return { kind, expr }

def FieldDef.fromDict (value : Value) : Except Raised FieldDef := do
  let name := c.toStr (← entry "name" value)
  let type ← typeRef c (← entry "type" value)
  let constraints ← records (ConstraintDef.fromDict c) "constraints" value
  let default_expr := c.optionalStr (← entryOr "default_expr" .null value)
  let doc := c.optionalStr (← entryOr "doc" .null value)
  return { name, type, constraints, default_expr, doc }

def ClassDef.fromDict (value : Value) : Except Raised ClassDef := do
  let cid ← c.toInt (← entry "cid" value)
  let iri := c.toStr (← entry "iri" value)
  let local_name := c.optionalStr (← entryOr "local_name" .null value)
  let superclass_iris ← texts c "superclass_iris" value
  let fields ← records (FieldDef.fromDict c) "fields" value
  let doc := c.optionalStr (← entryOr "doc" .null value)
  return { cid, iri, local_name, superclass_iris, fields, doc }

/-- `TypeRef.from_dict(range_type) if range_type is not None else None` -/
def optionalTypeRef : Value → Except Raised (Option TypeRef)
  | .null => .ok none
  | value => (typeRef c value).map some

def PropertyDef.fromDict (value : Value) : Except Raised PropertyDef := do
  let range_value ← entryOr "range_type" .null value
  let pid ← c.toInt (← entry "pid" value)
  let iri := c.toStr (← entry "iri" value)
  let local_name := c.optionalStr (← entryOr "local_name" .null value)
  let kind ← memberOf c "PropertyKind" PropertyKind.members (← entryOr "kind" (.int 0) value)
  let superproperty_iris ← texts c "superproperty_iris" value
  let domain_iris ← texts c "domain_iris" value
  let range_type ← optionalTypeRef c range_value
  let range_iris ← texts c "range_iris" value
  let characteristics ← records
    (memberOf c "PropertyCharacteristic" PropertyCharacteristic.members) "characteristics" value
  let fields ← records (FieldDef.fromDict c) "fields" value
  let inverse_iri := c.optionalStr (← entryOr "inverse_iri" .null value)
  let doc := c.optionalStr (← entryOr "doc" .null value)
  return { pid, iri, local_name, kind, superproperty_iris, domain_iris, range_type, range_iris,
           characteristics, fields, inverse_iri, doc }

def GraphDef.fromDict (value : Value) : Except Raised GraphDef := do
  let gid ← c.toInt (← entry "gid" value)
  let name := c.toStr (← entry "name" value)
  let ontology_iris ← texts c "ontology_iris" value
  let class_iris ← texts c "class_iris" value
  let property_iris ← texts c "property_iris" value
  let doc := c.optionalStr (← entryOr "doc" .null value)
  return { gid, name, ontology_iris, class_iris, property_iris, doc }

def IndexOptionDef.fromDict (value : Value) : Except Raised IndexOptionDef := do
  let key := c.toStr (← entry "key" value)
  let text := c.optionalStr (← entryOr "value" .null value)
  return { key, value := text }

def IndexDef.fromDict (value : Value) : Except Raised IndexDef := do
  let iid ← c.toInt (← entry "iid" value)
  let name := c.toStr (← entry "name" value)
  let kind ← memberOf c "IndexKind" IndexKind.members (← entry "kind" value)
  let target_class_iri := c.optionalStr (← entryOr "target_class_iri" .null value)
  let target_property_iri := c.optionalStr (← entryOr "target_property_iri" .null value)
  let fields ← texts c "fields" value
  let sort ← memberOf c "SortDirection" SortDirection.members (← entryOr "sort" (.int 0) value)
  let options ← records (IndexOptionDef.fromDict c) "options" value
  let unique := (← entryOr "unique" (.bool false) value).truthy
  return { iid, name, kind, target_class_iri, target_property_iri, fields, sort, options, unique }

def PrefixDef.fromDict (value : Value) : Except Raised PrefixDef := do
  let short := c.toStr (← entry "prefix" value)
  let iri := c.toStr (← entry "iri" value)
  return { short, iri }

def OntologyDef.fromDict (value : Value) : Except Raised OntologyDef := do
  let iri := c.toStr (← entry "iri" value)
  let base_iri := c.optionalStr (← entryOr "base_iri" .null value)
  let prefixes ← records (PrefixDef.fromDict c) "prefixes" value
  let class_iris ← texts c "class_iris" value
  let property_iris ← texts c "property_iris" value
  let imported_iris ← texts c "imported_iris" value
  let doc := c.optionalStr (← entryOr "doc" .null value)
  return { iri, base_iri, prefixes, class_iris, property_iris, imported_iris, doc }

def FORMAT_VERSION : Int := 1

/-- `Catalog.from_dict(value)`; the time is what `utc_now_iso()` gives. -/
def Catalog.fromDict (now : String) (value : Value) : Except Raised Catalog := do
  let format_version ← c.toInt (← entryOr "format_version" (.int FORMAT_VERSION) value)
  let catalog_id := c.optionalStr (← entryOr "catalog_id" .null value)
  let created_at := c.toStr (← entryOr "created_at" (.str now) value)
  let updated_at := c.toStr (← entryOr "updated_at" (.str now) value)
  let ontologies ← records (OntologyDef.fromDict c) "ontologies" value
  let classes ← records (ClassDef.fromDict c) "classes" value
  let properties ← records (PropertyDef.fromDict c) "properties" value
  let graphs ← records (GraphDef.fromDict c) "graphs" value
  let indexes ← records (IndexDef.fromDict c) "indexes" value
  return { format_version, catalog_id, created_at, updated_at, ontologies, classes, properties,
           graphs, indexes }

end Reading

end CaracalDB.Onto
