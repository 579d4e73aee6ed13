import CaracalDB.EdgeTable

/-!
# Triples and resources

A batch of triples or a resource object is turned into a node table and an edge
table. All rows are derived before the first is stored; the nodes are stored
first, then the edges.
-/

namespace CaracalDB

def IRI_COLUMN : String := "_iri"
def LABELS_COLUMN : String := "_labels"
def PLACEHOLDER_COLUMN : String := "_placeholder"

def RDF_TYPE_PREDICATES : List String :=
  ["a", "rdf:type", "http://www.w3.org/1999/02/22-rdf-syntax-ns#type",
    "https://www.w3.org/1999/02/22-rdf-syntax-ns#type"]

/-! ### Texts -/

/-- The characters that `text.strip()` takes away. -/
def isSpace (char : Char) : Bool :=
  let code := char.toNat
  (9 ≤ code && code ≤ 13) || (28 ≤ code && code ≤ 32) || code = 133 || code = 160 ||
    code = 5760 || (8192 ≤ code && code ≤ 8202) || code = 8232 || code = 8233 ||
    code = 8239 || code = 8287 || code = 12288

/-- `text.strip()` -/
def strip (text : List Char) : List Char :=
  ((text.dropWhile isSpace).reverse.dropWhile isSpace).reverse

/-- Whether `part in text`. -/
def hasPart (part text : List Char) : Bool := text.tails.any part.isPrefixOf

/-- `_strip_iri_ref(value)` -/
def stripIriRef : Value → Value
  | .str text =>
      let inner := strip text.toList
      if inner.head? = some '<' ∧ inner.getLast? = some '>' then
        .str (String.ofList (inner.drop 1).dropLast)
      else .str (String.ofList inner)
  | value => value

/-- `value.get(name)` of a nested object. -/
def objectGet (entries : List (String × Value)) (name : String) : Option Value :=
  (entries.find? fun entry => entry.1 = name).map Prod.snd

/-- `value.get(first) or value.get(second) or ...` -/
def firstOf (entries : List (String × Value)) : List String → Value
  | [] => .null
  | [name] => (objectGet entries name).getD .null
  | name :: names => ((objectGet entries name).getD .null).orElse (firstOf entries names)

/-- `_resource_id(value)` -/
def resourceId : Value → Value
  | .dict entries =>
      match objectGet entries "@id", objectGet entries "iri", objectGet entries "id",
        objectGet entries "node_id" with
      | some value, _, _, _ => stripIriRef value
      | none, some value, _, _ => stripIriRef value
      | none, none, some value, _ => value
      | none, none, none, some value => value
      | none, none, none, none => .dict entries
  | value => stripIriRef value

/-- `_predicate_iri(value)` -/
def predicateIri : Value → Option String
  | .dict entries =>
      match firstOf entries ["@id", "iri"] with
      | .null => none
      | raw => some (stripIriRef raw).toText
  | value =>
      let text := (stripIriRef value).toText
      if hasPart "://".toList text.toList ∨ "urn:".toList.isPrefixOf text.toList then some text
      else none

/-- `_predicate_name(value)` -/
def predicateName (value : Value) : Except Raised String :=
  let raw := match value with
    | .dict entries => firstOf entries ["name", "local_name", "@id", "iri"]
    | value => value
  coerceLocalName (stripIriRef raw) "triple predicate"

/-- `_is_rdf_type(predicate)` -/
def isRdfType (predicate : String) : Bool :=
  predicate ∈ RDF_TYPE_PREDICATES || localOf predicate = "type"

/-- `_resource_type(value)` -/
def resourceType (value : Value) : Except Raised String :=
  let raw := match value with
    | .dict entries => firstOf entries ["type", "label", "@id", "iri", "id"]
    | value => value
  coerceLocalName (stripIriRef raw) "rdf:type object"

/-- `_is_literal_object(value)` -/
def isLiteralObject : Value → Bool
  | .dict entries => (objectGet entries "value").isSome || (objectGet entries "literal").isSome
  | .str text =>
      let inner := strip text.toList
      !("<".toList.isPrefixOf inner || hasPart "://".toList inner ||
        "urn:".toList.isPrefixOf inner || '/' ∈ inner || (':' ∈ inner && ' ' ∉ inner))
  | _ => true

/-- `_literal_value(value)` -/
def literalValue : Value → Value
  | .dict entries =>
      (objectGet entries "value").getD ((objectGet entries "literal").getD .null)
  | value => value

/-- `_type_from_external_id(external_id)` -/
def typeFromExternalId (runtime : Runtime) (external_id : Value) : Except Raised String :=
  let text := external_id.toText.toList
  let head := if '/' ∈ text then text.takeWhile (· ≠ '/') else "Resource".toList
  let word := match head with
    | [] => "Resource"
    | first :: rest => runtime.upper first ++ String.ofList rest
  coerceLocalName (.str word) "resource type"

/-- `_placeholder_node(external_id)` -/
def placeholderNode (runtime : Runtime) (external_id : Value) : Except Raised Row := do
  let type ← typeFromExternalId runtime external_id
  return Dict.ofEntries
    [("node_id", external_id), ("type", .str type), (PLACEHOLDER_COLUMN, .bool true)]

/-- `_validate_import_policy(policy)` -/
def validateImportPolicy (policy : String) : Except Raised Unit :=
  refuse (policy ≠ "warn" ∧ policy ≠ "strict") (.caracal
    { code := "CDB-7010"
      message := "unsupported import policy: " ++ Value.quoted policy
      hint := some "supported policies are 'warn' and 'strict'" })

namespace Database

/-! ### Triples -/

/-- The columns of a triple. -/
structure TripleColumns where
  subject_col : String := "subject"
  predicate_col : String := "predicate"
  object_col : String := "object"

/-- The tables that triples are turned into. -/
structure TripleTables where
  nodes : Dict Value Row := Dict.empty
  edges : List Row := []
  property_iris : Dict String String := Dict.empty

/-- `nodes.setdefault(external_id, _placeholder_node(external_id))` -/
def TripleTables.node (runtime : Runtime) (tables : TripleTables) (external_id : Value) :
    Except Raised (Value × Row × TripleTables) := do
  let placeholder ← placeholderNode runtime external_id
  let key ← external_id.hashed
  match tables.nodes.get? key with
  | some node => return (key, node, tables)
  | none => return (key, placeholder, { tables with nodes := tables.nodes.set key placeholder })

/-- One triple. -/
def addTriple (runtime : Runtime) (columns : TripleColumns) (tables : TripleTables)
    (triple : Row) : Except Raised TripleTables := do
  requireColumns triple [columns.subject_col, columns.predicate_col, columns.object_col] "triple"
  let subject := resourceId (triple.read columns.subject_col)
  let predicate ← predicateName (triple.read columns.predicate_col)
  let predicate_iri := predicateIri (triple.read columns.predicate_col)
  let obj := triple.read columns.object_col
  let (key, node, tables) ← tables.node runtime subject
  if isRdfType (textOr predicate_iri predicate) then
    let class_name ← resourceType obj
    return { tables with nodes := tables.nodes.set key (node.set "type" (.str class_name)) }
  else
    let property_iris := match predicate_iri with
      | none => tables.property_iris
      | some iri => tables.property_iris.set predicate iri
    if isLiteralObject obj then
      return { tables with
        nodes := tables.nodes.set key (node.set predicate (literalValue obj))
        property_iris }
    else
      let target := resourceId obj
      let (_, _, tables) ← tables.node runtime target
      return { tables with
        edges := tables.edges ++
          [Dict.ofEntries [("src", subject), ("dst", target), ("type", .str predicate)]]
        property_iris }

/-- The node table and the edge table of a batch of triples. -/
def tripleTables (runtime : Runtime) (columns : TripleColumns) (policy : String)
    (payload : List Row) : Except Raised TripleTables := do
  validateImportPolicy policy
  refuse (payload = []) (tableError "cannot insert an empty triple batch")
  payload.foldlM (addTriple runtime columns) {}

/-- Define the properties that triples name by IRI. -/
def defineProperties (property_iris : Dict String String) : Method Unit :=
  property_iris.entries.foldlM (fun _ (local_name, iri) => do
    let _ ← defineProperty local_name (some iri)) ()

/-- What an insertion of nodes and then of edges answers. -/
structure GraphRefs where
  nodes : Dict String ChunkRef
  edges : Option (Dict String ChunkRef)

/-- Store a node table, define properties and store an edge table if it has rows. -/
def storeGraph (runtime : Runtime) (nodes edges : List Row)
    (property_iris : Dict String String) : Method GraphRefs := do
  let nodes ← insertNodeTable runtime nodes "node_id" "type"
  defineProperties property_iris
  if edges = [] then return { nodes, edges := none }
  else
    let edges ← insertEdgeTable runtime edges {}
    return { nodes, edges := some edges }

/-- `db.insert_triples(triples, subject_col=..., policy=...)` -/
def insertTriples (runtime : Runtime) (payload : List Row) (columns : TripleColumns)
    (policy : String) : Method GraphRefs := do
  let tables ← Call.ofExcept (tripleTables runtime columns policy payload)
  storeGraph runtime tables.nodes.values tables.edges tables.property_iris

/-! ### Resources -/

inductive Shape where
  | neo4j
  | iri
  | triple
  | typed_node
  | typed_edge
  | unknown
deriving DecidableEq

def hasKeys (obj : Row) (keys : List String) : Bool := keys.all fun key => key ∈ obj.keys

/-- `_resource_shape(obj)` -/
def resourceShape (obj : Row) : Shape :=
  if hasKeys obj ["id", "labels", "properties", "relationships"] then .neo4j
  else if "@id" ∈ obj.keys ∨ "iri" ∈ obj.keys then .iri
  else if hasKeys obj ["subject", "predicate", "object"] ∨ hasKeys obj ["s", "p", "o"] then .triple
  else if hasKeys obj ["node_id", "type"] then .typed_node
  else if hasKeys obj ["src", "dst", "type"] then .typed_edge
  else .unknown

/-- `_unsupported_resource_shape()` -/
def unsupportedShape : Raised := .caracal
  { code := "CDB-7010"
    message := "unsupported resource shape"
    hint := some ("expected Neo4j keys id/labels/properties/relationships, " ++
      "IRI keys @id or iri, triple keys subject/predicate/object or s/p/o, " ++
      "typed node keys node_id/type, or typed edge keys src/dst/type") }

/-- `_canonical_triple(obj)` -/
def canonicalTriple (obj : Row) : Row :=
  if hasKeys obj ["subject", "predicate", "object"] then
    Dict.ofEntries [("subject", obj.read "subject"), ("predicate", obj.read "predicate"),
      ("object", obj.read "object")]
  else Dict.ofEntries [("subject", obj.read "s"), ("predicate", obj.read "p"),
    ("object", obj.read "o")]

/-- `_relationship_targets(value)` -/
def relationshipTargets : Value → List Value
  | .list items => items
  | value => [value]

def resourceError (message : String) : Raised := .caracal { code := "CDB-7010", message }

/-- What a Neo4j resource consists of: its node, and its relationships with their targets. -/
def neo4jParts (obj : Row) : Except Raised (Row × List (String × Value)) := do
  let labels ← match obj.read "labels" with
    | .list (label :: labels) => .ok (label :: labels)
    | _ => .error (resourceError "Neo4j resource requires non-empty labels")
  let properties ← match obj.read "properties" with
    | .dict entries => .ok entries
    | _ => .error (resourceError "Neo4j resource properties must be an object")
  let type ← coerceLocalName (labels.headD .null) "node label"
  let node : Row := Dict.ofEntries ([("node_id", obj.read "id"), ("type", .str type),
    (LABELS_COLUMN, .list (labels.map fun label => .str label.toText))] ++ properties)
  let relationships ← match obj.read "relationships" with
    | .dict entries => .ok entries
    | _ => .error (resourceError "Neo4j resource relationships must be an object")
  return (node, relationships.flatMap fun (relation, raw) =>
    (relationshipTargets raw).map fun target => (relation, resourceId target))

/-- A placeholder for each target that has no id yet. -/
def placeholderNodes (runtime : Runtime) (existing_ids : IdMap) :
    List Value → Except Raised (List Row)
  | [] => .ok []
  | target :: targets => do
      let key ← target.hashed
      if existing_ids.contains key then placeholderNodes runtime existing_ids targets
      else
        let placeholder ← placeholderNode runtime target
        let placeholders ← placeholderNodes runtime existing_ids targets
        return placeholder :: placeholders

/-- `db._import_neo4j_resource(obj)` -/
def importNeo4jResource (runtime : Runtime) (obj : Row) : Method GraphRefs := do
  let (node, relationships) ← Call.ofExcept (neo4jParts obj)
  let existing_ids ← externalIdMap runtime "node_id"
  let placeholders ← Call.ofExcept
    (placeholderNodes runtime existing_ids (relationships.map Prod.snd))
  let edges := relationships.map fun (relation, target) =>
    Dict.ofEntries [("src", obj.read "id"), ("dst", target), ("type", .str relation)]
  storeGraph runtime (node :: placeholders) edges Dict.empty

/-- The node of an object that carries its IRI. -/
def iriNode (obj : Row) : Except Raised Row := do
  let iri := Value.str ((obj.read "@id").orElse (obj.read "iri")).toText
  let external_id := (obj.read "node_id").orElse ((obj.read "id").orElse iri)
  let class_name ← coerceLocalName
    ((obj.read "type").orElse ((obj.read "label").orElse (.str "Resource"))) "resource type"
  let node : Row := Dict.ofEntries
    [("node_id", external_id), ("type", .str class_name), (IRI_COLUMN, iri)]
  return node.update (obj.keep fun key =>
    key ∉ ["@id", "iri", "id", "node_id", "type", "label"])

/-- `db.import_resource(obj, policy=...)` -/
def importResource (runtime : Runtime) (obj : Row) (policy : String) : Method GraphRefs := do
  Call.ofExcept (validateImportPolicy policy)
  match resourceShape obj with
  | .neo4j => importNeo4jResource runtime obj
  | .iri =>
      let node ← Call.ofExcept (iriNode obj)
      storeGraph runtime [node] [] Dict.empty
  | .triple => insertTriples runtime [canonicalTriple obj] {} policy
  | .typed_node => storeGraph runtime [obj] [] Dict.empty
  | .typed_edge =>
      let edges ← insertEdgeTable runtime [obj] {}
      return { nodes := Dict.empty, edges := some edges }
  | .unknown => Call.raise unsupportedShape

end Database

end CaracalDB
