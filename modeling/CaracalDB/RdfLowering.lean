import CaracalDB.Dict
import CaracalDB.LocalName
import CaracalDB.Loops
import Mathlib.Data.List.Induction

/-!
# Lowering triples to rows

One pass over the triples collects the classes of the subjects, the literal properties and the edges;
then every IRI under which properties or a class were collected becomes a node. A subject that has
edges only is collected by none of the maps, and a literal property may be named like a column that
the row has anyway.
-/

namespace CaracalDB.Rdf

def RDF_TYPE_IRI : String := "http://www.w3.org/1999/02/22-rdf-syntax-ns#type"

/-- A triple of `parse_ntriples`, without its line. -/
structure Triple where
  subj : String
  pred : String
  obj : String
  is_iri : Bool
deriving DecidableEq

structure RdfImportStats where
  triples_seen : Nat := 0
  triples_kept : Nat := 0
  nodes_emitted : Nat := 0
  edges_emitted : Nat := 0
  blank_nodes_skipped : Nat := 0
  parse_errors : List (Nat × String) := []
deriving DecidableEq

structure EdgeRow where
  node_id : String
  src : String
  dst : String
  type : String
deriving DecidableEq

/-- `iri.strip("<>")` -/
def stripAngles (iri : List Char) : List Char :=
  let angle := fun char => char = '<' || char = '>'
  ((iri.dropWhile angle).reverse.dropWhile angle).reverse

/-- The part behind the last separator, unless there is no separator or nothing behind it. -/
def partBehind (separator : Char) (bare : List Char) : Option (List Char) :=
  if separator ∈ bare ∧ afterLast separator bare ≠ [] then some (afterLast separator bare) else none

/-- `_local_name(iri)` -/
def localName (iri : String) : String :=
  let bare := stripAngles iri.toList
  String.ofList (((partBehind '#' bare).or (partBehind '/' bare)).getD bare)

/-- `dict.setdefault(key, value)` -/
def setDefault {Held : Type} (dict : Dict String Held) (key : String) (value : Held) :
    Dict String Held :=
  if dict.contains key then dict else dict.set key value

/-- What the first pass collects. -/
structure Lowering where
  subject_class : Dict String String
  subject_props : Dict String (Dict String String)
  edges : List EdgeRow
  triples_kept : Nat

/-- A triple that gives its subject a class. -/
def Triple.isType (triple : Triple) : Bool := triple.pred = RDF_TYPE_IRI && triple.is_iri

/-- A triple between two nodes. -/
def Triple.isEdge (triple : Triple) : Bool := !triple.isType && triple.is_iri

def Triple.edge (triple : Triple) : EdgeRow :=
  { node_id := triple.subj, src := triple.subj, dst := triple.obj, type := localName triple.pred }

def lowerTriple (state : Lowering) (triple : Triple) : Lowering :=
  if triple.isType then
    { state with
      subject_class := state.subject_class.set triple.subj (localName triple.obj)
      triples_kept := state.triples_kept + 1 }
  else if triple.is_iri then
    { state with
      edges := state.edges ++ [triple.edge]
      subject_props := setDefault state.subject_props triple.obj Dict.empty
      triples_kept := state.triples_kept + 1 }
  else
    let props := (state.subject_props.get? triple.subj).getD Dict.empty
    { state with
      subject_props := state.subject_props.set triple.subj (props.set (localName triple.pred) triple.obj)
      triples_kept := state.triples_kept + 1 }

def lowered (triples : List Triple) (triples_kept : Nat) : Lowering :=
  triples.foldl lowerTriple
    { subject_class := Dict.empty, subject_props := Dict.empty, edges := [], triples_kept }

/-- The properties of the nodes, for each IRI that was collected. -/
def nodeProps (state : Lowering) : Dict String (Dict String String) :=
  (state.subject_props.keys ++ state.subject_class.keys).foldl
    (fun props subj => setDefault props subj Dict.empty) state.subject_props

def nodeRow (state : Lowering) (default_class : String) (entry : String × Dict String String) :
    Dict String String :=
  let cls := (state.subject_class.get? entry.1).getD default_class
  ((Dict.empty.set "node_id" entry.1).set "type" cls).update entry.2

/-- `lower_to_tables(triples, default_class, stats)`: the nodes, the edges and the statistics. -/
def lowerToTables (triples : List Triple) (default_class : String) (stats : RdfImportStats) :
    List (Dict String String) × List EdgeRow × RdfImportStats :=
  let state := lowered triples stats.triples_kept
  let nodes := (nodeProps state).entries.map (nodeRow state default_class)
  (nodes, state.edges,
    { stats with
      triples_seen := stats.triples_seen + triples.length
      triples_kept := state.triples_kept
      nodes_emitted := nodes.length
      edges_emitted := state.edges.length })

/-! ## What the triples say -/

/-- What the last item that a test accepts gives. -/
def lastOf {Item Made : Type} (accepts : Item → Bool) (make : Item → Made) (items : List Item) :
    Option Made :=
  (items.filter accepts).getLast?.map make

/-- An IRI is a subject, or an object of a triple between nodes. -/
def Occurs (triples : List Triple) (iri : String) : Prop :=
  ∃ triple ∈ triples, triple.subj = iri ∨ triple.isEdge = true ∧ triple.obj = iri

/-- The local name of the type of an IRI. -/
def typeOf (triples : List Triple) (iri : String) : Option String :=
  lastOf (fun triple => triple.isType && triple.subj = iri) (fun triple => localName triple.obj) triples

/-- The value of the literal property of an IRI with some local name. -/
def literalOf (triples : List Triple) (iri column : String) : Option String :=
  lastOf (fun triple => !triple.is_iri && (triple.subj = iri && localName triple.pred = column))
    Triple.obj triples

/-- The IRIs of the node rows, in their order. -/
def nodeIris (triples : List Triple) : List String := (nodeProps (lowered triples 0)).keys

/-- One row for each IRI that occurs, with its identity and class, and no edge without its nodes. -/
structure KeepsIdentity (triples : List Triple) (default_class : String)
    (nodes : List (Dict String String)) (edges : List EdgeRow) : Prop where
  once : (nodeIris triples).Nodup
  occurring : ∀ iri, iri ∈ nodeIris triples ↔ Occurs triples iri
  rows : List.Forall₂ (fun iri row => row.get? "node_id" = some iri ∧
    row.get? "type" = some ((typeOf triples iri).getD default_class)) (nodeIris triples) nodes
  endpoints : ∀ edge ∈ edges, (∃ row ∈ nodes, row.get? "node_id" = some edge.src) ∧
    ∃ row ∈ nodes, row.get? "node_id" = some edge.dst

/-- No subject has edges only, and literal properties that are named like a column of the row say the
same as the row. -/
structure Lossless (triples : List Triple) (default_class : String) : Prop where
  collected : ∀ triple ∈ triples, triple.isEdge = true → ∃ other ∈ triples,
    other.isEdge = false ∧ other.subj = triple.subj ∨ other.isEdge = true ∧ other.obj = triple.subj
  node_id : ∀ iri value, literalOf triples iri "node_id" = some value → value = iri
  type : ∀ iri value, literalOf triples iri "type" = some value →
    value = (typeOf triples iri).getD default_class

/-! ## The first pass -/

theorem lastOf_concat {Item Made : Type} (accepts : Item → Bool) (make : Item → Made)
    (items : List Item) (item : Item) :
    lastOf accepts make (items ++ [item]) =
      if accepts item then some (make item) else lastOf accepts make items := by
  rw [lastOf, List.filter_append]
  by_cases accepted : accepts item
  · simp [accepted]
  · simp [accepted, lastOf]

/-- The maps hold what the triples of the pass so far say. -/
structure Collected (triples : List Triple) (state : Lowering) : Prop where
  classes : ∀ iri, state.subject_class.get? iri = typeOf triples iri
  props : ∀ iri column, ((state.subject_props.get? iri).getD Dict.empty).get? column =
    literalOf triples iri column
  known : ∀ iri, iri ∈ state.subject_props.keys ↔ ∃ triple ∈ triples,
    triple.is_iri = false ∧ triple.subj = iri ∨ triple.isEdge = true ∧ triple.obj = iri
  edges : state.edges = (triples.filter Triple.isEdge).map Triple.edge

theorem get_setDefault {Held : Type} (dict : Dict String Held) (key other : String) (value : Held) :
    (setDefault dict key value).get? other =
      if other = key then some ((dict.get? key).getD value) else dict.get? other := by
  rw [setDefault]
  by_cases present : dict.contains key
  · obtain ⟨held, found⟩ := (Dict.mem_keys dict key).mp ((Dict.contains_iff dict key).mp present)
    rw [if_pos present]
    by_cases same : other = key
    · simp [same, found]
    · simp [same]
  · have missing := (Dict.get_eq_none dict key).mpr fun member =>
      present ((Dict.contains_iff dict key).mpr member)
    rw [if_neg present, Dict.get_set, missing]
    rfl

theorem mem_keys_setDefault {Held : Type} (dict : Dict String Held) (key other : String)
    (value : Held) :
    other ∈ (setDefault dict key value).keys ↔ other = key ∨ other ∈ dict.keys := by
  rw [Dict.mem_keys, get_setDefault, Dict.mem_keys]
  by_cases same : other = key
  · simp [same]
  · simp [same]

theorem mem_concat_exists {Item : Type} (items : List Item) (item : Item) (holds : Item → Prop) :
    (∃ one ∈ items ++ [item], holds one) ↔ (∃ one ∈ items, holds one) ∨ holds item := by
  simp [or_and_right, exists_or]

/-- One triple more. -/
theorem lowerTriple_collects (triples : List Triple) (triple : Triple) (state : Lowering)
    (collected : Collected triples state) :
    Collected (triples ++ [triple]) (lowerTriple state triple) := by
  obtain ⟨classes, props, known, edges⟩ := collected
  rw [lowerTriple]
  by_cases typing : triple.isType = true
  · -- a class: only the map of classes changes
    have iri : triple.is_iri = true := by
      rw [Triple.isType, Bool.and_eq_true] at typing
      exact typing.2
    have noEdge : triple.isEdge = false := by simp [Triple.isEdge, typing]
    rw [if_pos typing]
    refine ⟨fun subj => ?_, fun subj column => ?_, fun subj => ?_, ?_⟩
    · rw [Dict.get_set, classes, typeOf, typeOf, lastOf_concat]
      by_cases same : subj = triple.subj
      · simp [typing, same]
      · simp [same, Ne.symm same]
    · rw [props, literalOf, literalOf, lastOf_concat]
      simp [iri]
    · rw [known, mem_concat_exists]
      simp [iri, noEdge]
    · rw [edges, List.filter_append]
      simp [noEdge]
  · rw [if_neg typing]
    have plain : triple.isType = false := by simpa using typing
    have unclassed (subj : String) : typeOf (triples ++ [triple]) subj = typeOf triples subj := by
      rw [typeOf, typeOf, lastOf_concat]
      simp [plain]
    by_cases iri : triple.is_iri = true
    · -- an edge: its object gets properties if it has none
      have isEdge : triple.isEdge = true := by simp [Triple.isEdge, plain, iri]
      rw [if_pos iri]
      refine ⟨fun subj => ?_, fun subj column => ?_, fun subj => ?_, ?_⟩
      · rw [classes, unclassed]
      · have unchanged : literalOf (triples ++ [triple]) subj column = literalOf triples subj column := by
          rw [literalOf, literalOf, lastOf_concat]
          simp [iri]
        rw [get_setDefault, unchanged, ← props]
        by_cases same : subj = triple.obj
        · simp [same]
        · simp [same]
      · rw [mem_keys_setDefault, known, mem_concat_exists]
        simp [iri, isEdge, @eq_comm _ subj, or_comm]
      · rw [edges, List.filter_append]
        simp [isEdge]
    · -- a literal: one property of its subject changes
      have literal : triple.is_iri = false := by simpa using iri
      have noEdge : triple.isEdge = false := by simp [Triple.isEdge, literal]
      rw [if_neg iri]
      refine ⟨fun subj => ?_, fun subj column => ?_, fun subj => ?_, ?_⟩
      · rw [classes, unclassed]
      · rw [Dict.get_set, literalOf, lastOf_concat, ← literalOf, ← props]
        by_cases same : subj = triple.subj
        · rw [if_pos same, Option.getD_some, Dict.get_set, same]
          by_cases named : column = localName triple.pred
          · simp [named, literal]
          · simp [named, Ne.symm named]
        · simp [same, Ne.symm same]
      · rw [Dict.mem_keys_set, known, mem_concat_exists]
        simp [literal, noEdge, @eq_comm _ subj, or_comm]
      · rw [edges, List.filter_append]
        simp [noEdge]

theorem lowered_concat (triples : List Triple) (triple : Triple) (triples_kept : Nat) :
    lowered (triples ++ [triple]) triples_kept = lowerTriple (lowered triples triples_kept) triple :=
  List.foldl_concat ..

theorem lowered_collects (triples : List Triple) (triples_kept : Nat) :
    Collected triples (lowered triples triples_kept) := by
  induction triples using List.reverseRecOn with
  | nil => exact ⟨fun _ => rfl, fun _ _ => rfl, fun _ => by simp [lowered], rfl⟩
  | append_singleton triples triple inductionHypothesis =>
    rw [lowered_concat]
    exact lowerTriple_collects triples triple _ inductionHypothesis

/-- Every triple is counted, and the count changes nothing else. -/
theorem lowered_counts (triples : List Triple) (triples_kept : Nat) :
    lowered triples triples_kept =
      { lowered triples 0 with triples_kept := triples_kept + triples.length } := by
  induction triples using List.reverseRecOn with
  | nil => rfl
  | append_singleton triples triple inductionHypothesis =>
    rw [lowered_concat, lowered_concat, inductionHypothesis, lowerTriple, lowerTriple]
    split_ifs <;> simp [Nat.add_assoc]

/-! ## The nodes -/

/-- Every key gets a value, and no value changes. -/
theorem setDefaults_spec {Held : Type} (keys : List String) (blank : Held) (dict : Dict String Held) :
    (∀ key, ((keys.foldl (fun dict key => setDefault dict key blank) dict).get? key).getD blank =
      (dict.get? key).getD blank) ∧
    ∀ key, key ∈ (keys.foldl (fun dict key => setDefault dict key blank) dict).keys ↔
      key ∈ keys ∨ key ∈ dict.keys := by
  induction keys generalizing dict with
  | nil => simp
  | cons first keys inductionHypothesis =>
    obtain ⟨values, known⟩ := inductionHypothesis (setDefault dict first blank)
    constructor
    · intro key
      rw [List.foldl_cons, values, get_setDefault]
      by_cases same : key = first
      · simp [same]
      · simp [same]
    · intro key
      rw [List.foldl_cons, known, mem_keys_setDefault, List.mem_cons]
      tauto

theorem lastOf_isSome {Item Made : Type} (accepts : Item → Bool) (make : Item → Made)
    (items : List Item) :
    (∃ made, lastOf accepts make items = some made) ↔ ∃ item ∈ items, accepts item = true := by
  rw [lastOf]
  constructor
  · rintro ⟨made, found⟩
    obtain ⟨item, last, _⟩ := Option.map_eq_some_iff.mp found
    exact ⟨item, List.mem_filter.mp (List.mem_of_getLast? last)⟩
  · rintro ⟨item, member, accepted⟩
    have kept : item ∈ items.filter accepts := List.mem_filter.mpr ⟨member, accepted⟩
    exact ⟨_, by rw [List.getLast?_eq_some_getLast (List.ne_nil_of_mem kept), Option.map_some]⟩

theorem typeOf_isSome (triples : List Triple) (iri : String) :
    (∃ cls, typeOf triples iri = some cls) ↔
      ∃ triple ∈ triples, triple.isType = true ∧ triple.subj = iri := by
  rw [typeOf, lastOf_isSome]
  simp

theorem literalOf_isSome (triples : List Triple) (iri column : String) :
    (∃ value, literalOf triples iri column = some value) ↔ ∃ triple ∈ triples,
      triple.is_iri = false ∧ triple.subj = iri ∧ localName triple.pred = column := by
  rw [literalOf, lastOf_isSome]
  simp

theorem nodeProps_get (state : Lowering) (iri : String) :
    ((nodeProps state).get? iri).getD Dict.empty = (state.subject_props.get? iri).getD Dict.empty := by
  rw [nodeProps]
  exact (setDefaults_spec _ _ _).1 iri

/-- The IRIs of the rows: subjects of types and literals, and objects of edges. -/
theorem mem_nodeIris (triples : List Triple) (iri : String) :
    iri ∈ nodeIris triples ↔ ∃ triple ∈ triples,
      triple.isEdge = false ∧ triple.subj = iri ∨ triple.isEdge = true ∧ triple.obj = iri := by
  obtain ⟨classes, _, known, _⟩ := lowered_collects triples 0
  have classed : iri ∈ (lowered triples 0).subject_class.keys ↔
      ∃ triple ∈ triples, triple.isType = true ∧ triple.subj = iri := by
    rw [Dict.mem_keys, classes, typeOf_isSome]
  rw [nodeIris, nodeProps, (setDefaults_spec _ _ _).2, List.mem_append, known, classed]
  constructor
  · rintro ((⟨triple, member, either⟩ | ⟨triple, member, typing, same⟩) | ⟨triple, member, either⟩)
    · refine ⟨triple, member, either.imp_left fun literal => ⟨?_, literal.2⟩⟩
      simp [Triple.isEdge, literal.1]
    · exact ⟨triple, member, .inl ⟨by simp [Triple.isEdge, typing], same⟩⟩
    · refine ⟨triple, member, either.imp_left fun literal => ⟨?_, literal.2⟩⟩
      simp [Triple.isEdge, literal.1]
  · rintro ⟨triple, member, ⟨noEdge, same⟩ | edge⟩
    · by_cases typing : triple.isType = true
      · exact .inl (.inr ⟨triple, member, typing, same⟩)
      · have literal : triple.is_iri = false := by
          rw [Triple.isEdge] at noEdge
          simpa [typing] using noEdge
        exact .inr ⟨triple, member, .inl ⟨literal, same⟩⟩
    · exact .inr ⟨triple, member, .inr edge⟩

/-- A row has the values of the literals that are named like its columns, and else its own. -/
theorem nodeRow_columns (triples : List Triple) (triples_kept : Nat) (default_class : String)
    {entry : String × Dict String String}
    (member : entry ∈ (nodeProps (lowered triples triples_kept)).entries) :
    (nodeRow (lowered triples triples_kept) default_class entry).get? "node_id" =
        some ((literalOf triples entry.1 "node_id").getD entry.1) ∧
      (nodeRow (lowered triples triples_kept) default_class entry).get? "type" =
        some ((literalOf triples entry.1 "type").getD ((typeOf triples entry.1).getD default_class)) := by
  obtain ⟨classes, props, _, _⟩ := lowered_collects triples triples_kept
  have held (column : String) : entry.2.get? column = literalOf triples entry.1 column := by
    have found := (Dict.get_eq_some _ entry.1 entry.2).mpr member
    have kept := nodeProps_get (lowered triples triples_kept) entry.1
    rw [found, Option.getD_some] at kept
    rw [← props, ← kept]
  constructor
  · rw [nodeRow, Dict.get_update, held, Dict.get_set_of_ne _ (by decide), Dict.get_set_self]
    cases literalOf triples entry.1 "node_id" <;> rfl
  · rw [nodeRow, Dict.get_update, held, Dict.get_set_self, classes]
    cases literalOf triples entry.1 "type" <;> rfl

/-- The IRIs of the rows are the keys of the properties that the rows are made of. -/
theorem nodeIris_entries (triples : List Triple) (triples_kept : Nat) :
    nodeIris triples = (nodeProps (lowered triples triples_kept)).entries.map Prod.fst := by
  rw [lowered_counts, nodeIris, nodeProps, nodeProps]
  rfl

/-- The rows identify their nodes exactly if no literal of a node says otherwise. -/
theorem rows_identify (triples : List Triple) (default_class : String) (stats : RdfImportStats) :
    List.Forall₂ (fun iri row => row.get? "node_id" = some iri ∧
      row.get? "type" = some ((typeOf triples iri).getD default_class)) (nodeIris triples)
        (lowerToTables triples default_class stats).1 ↔
      ∀ iri ∈ nodeIris triples, (literalOf triples iri "node_id").getD iri = iri ∧
        (literalOf triples iri "type").getD ((typeOf triples iri).getD default_class) =
          (typeOf triples iri).getD default_class := by
  rw [nodeIris_entries triples stats.triples_kept, lowerToTables, List.forall₂_map_left_iff,
    List.forall₂_map_right_iff, List.forall₂_same, List.forall_mem_map]
  refine forall₂_congr fun entry member => ?_
  obtain ⟨node_id, type⟩ := nodeRow_columns triples stats.triples_kept default_class member
  rw [node_id, type, Option.some.injEq, Option.some.injEq]

/-- An IRI with a literal has a row. -/
theorem literal_node {triples : List Triple} {iri column value : String}
    (literal : literalOf triples iri column = some value) : iri ∈ nodeIris triples := by
  obtain ⟨triple, member, lexical, same, _⟩ :=
    (literalOf_isSome triples iri column).mp ⟨value, literal⟩
  exact (mem_nodeIris triples iri).mpr ⟨triple, member, .inl ⟨by simp [Triple.isEdge, lexical], same⟩⟩

/-- Of lossless triples every IRI that occurs has a row. -/
theorem Lossless.occurring {triples : List Triple} {default_class : String}
    (lossless : Lossless triples default_class) (iri : String) :
    iri ∈ nodeIris triples ↔ Occurs triples iri := by
  rw [mem_nodeIris]
  constructor
  · rintro ⟨triple, member, subject | object⟩
    · exact ⟨triple, member, .inl subject.2⟩
    · exact ⟨triple, member, .inr object⟩
  · rintro ⟨triple, member, same | object⟩
    · cases edge : triple.isEdge with
      | false => exact ⟨triple, member, .inl ⟨edge, same⟩⟩
      | true =>
        rw [← same]
        exact lossless.collected triple member edge
    · exact ⟨triple, member, .inr object⟩

/-- Of lossless triples no literal of a node says otherwise. -/
theorem Lossless.identities {triples : List Triple} {default_class : String}
    (lossless : Lossless triples default_class) (iri : String) :
    (literalOf triples iri "node_id").getD iri = iri ∧
      (literalOf triples iri "type").getD ((typeOf triples iri).getD default_class) =
        (typeOf triples iri).getD default_class := by
  constructor
  · cases literal : literalOf triples iri "node_id" with
    | none => rfl
    | some value => exact lossless.node_id iri value literal
  · cases literal : literalOf triples iri "type" with
    | none => rfl
    | some value => exact lossless.type iri value literal

/-- Lowering keeps the identity of every node exactly if the triples are lossless. -/
theorem lowering_keeps_identity (triples : List Triple) (default_class : String)
    (stats : RdfImportStats) :
    KeepsIdentity triples default_class (lowerToTables triples default_class stats).1
        (lowerToTables triples default_class stats).2.1 ↔
      Lossless triples default_class := by
  constructor
  · intro keeps
    have same := (rows_identify triples default_class stats).mp keeps.rows
    refine ⟨fun triple member _ => ?_, fun iri value literal => ?_, fun iri value literal => ?_⟩
    · exact (mem_nodeIris triples triple.subj).mp
        ((keeps.occurring triple.subj).mpr ⟨triple, member, .inl rfl⟩)
    · have column := (same iri (literal_node literal)).1
      rwa [literal] at column
    · have column := (same iri (literal_node literal)).2
      rwa [literal] at column
  · intro lossless
    have row {iri : String} (occurs : Occurs triples iri) :
        ∃ row ∈ (lowerToTables triples default_class stats).1, row.get? "node_id" = some iri := by
      have listed := (lossless.occurring iri).mpr occurs
      have identity := (lossless.identities iri).1
      rw [nodeIris_entries triples stats.triples_kept] at listed
      obtain ⟨entry, member, rfl⟩ := List.mem_map.mp listed
      refine ⟨_, List.mem_map.mpr ⟨entry, member, rfl⟩, ?_⟩
      rw [(nodeRow_columns triples stats.triples_kept default_class member).1, identity]
    refine ⟨(nodeProps _).distinct, lossless.occurring, ?_, fun edge made => ?_⟩
    · exact (rows_identify triples default_class stats).mpr fun iri _ => lossless.identities iri
    · have edges := (lowered_collects triples stats.triples_kept).edges
      rw [lowerToTables, edges] at made
      obtain ⟨triple, kept, rfl⟩ := List.mem_map.mp made
      obtain ⟨member, isEdge⟩ := List.mem_filter.mp kept
      exact ⟨row ⟨triple, member, .inl rfl⟩, row ⟨triple, member, .inr ⟨isEdge, rfl⟩⟩⟩

/-- One edge between two IRIs. -/
def loneEdge : List Triple := [⟨"http://ex.org/a", "http://ex.org/knows", "http://ex.org/b", true⟩]

/-- The subject of the edge gets no row. -/
theorem lone_subject_lost :
    lowerToTables loneEdge "Resource" {} =
      ([(Dict.empty.set "node_id" "http://ex.org/b").set "type" "Resource"],
        [⟨"http://ex.org/a", "http://ex.org/a", "http://ex.org/b", "knows"⟩],
        { triples_seen := 1, triples_kept := 1, nodes_emitted := 1, edges_emitted := 1 }) ∧
    ¬ KeepsIdentity loneEdge "Resource" (lowerToTables loneEdge "Resource" {}).1
      (lowerToTables loneEdge "Resource" {}).2.1 := by
  refine ⟨by decide, fun keeps => ?_⟩
  have listed := (keeps.occurring "http://ex.org/a").mpr ⟨_, List.mem_singleton_self _, .inl rfl⟩
  exact absurd listed (by decide)

/-- A literal property is written over the identity. -/
example : (lowerToTables [⟨"http://ex.org/a", "http://ex.org/node_id", "b", false⟩] "Resource" {}).1 =
    [(Dict.empty.set "node_id" "b").set "type" "Resource"] := by decide

end CaracalDB.Rdf
