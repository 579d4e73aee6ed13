import Mathlib.Data.List.Sort
import CaracalDB.PythonValue
import CaracalDB.Loops

/-!
# Tensor exports of a subgraph

Both adapters hand the ids that stand in an edge table to the tensors, cast to signed
integers and otherwise unchanged. An index of a tensor is a row number, so the export
is right exactly where the row that an endpoint's id numbers is the row of that id.
-/

namespace CaracalDB.Tensors

/-- `table.num_rows` rows of a node class: the `nid` column, and the feature column if there is
one. -/
structure NodeRows (Feature : Type) where
  nids : List UInt64
  features : Option (List Feature)
  aligned : ∀ rows ∈ features, rows.length = nids.length
  /-- Arrow counts rows with a signed 64-bit integer. -/
  bounded : nids.length ≤ 2 ^ 63

/-- The `src` and `dst` columns of an edge table, row by row. -/
abbrev EdgeRows : Type := List (UInt64 × UInt64)

structure Subgraph (Feature : Type) where
  nodes : Dict String (NodeRows Feature)
  edges : Dict String EdgeRows

variable {Feature : Type}

/-! ## PyG -/

/-- `column.astype("int64")` -/
def astypeInt64 (id : UInt64) : Int := (id.toNat : Int).bmod (2 ^ 64)

/-- `torch_geometric.data.HeteroData` -/
structure HeteroData (Feature : Type) where
  num_nodes : List (String × Nat)
  x : List (String × List Feature)
  edge_index : List ((String × String × String) × List Int × List Int)

/-- `edge_endpoints` -/
abbrev Endpoints : Type := String → Option (String × String)

/-- The endpoint classes of a property, by the mapping or because there is one class only. -/
def endpointsOf (subgraph : Subgraph Feature) (edge_endpoints : Endpoints) (prop : String) :
    Option (String × String) :=
  match edge_endpoints prop with
  | some classes => some classes
  | none => match subgraph.nodes.keys with
    | [homogeneous_cls] => some (homogeneous_cls, homogeneous_cls)
    | _ => none

def endpointsError (prop : String) : Raised := .caracal
  { code := "CDB-6110"
    message := "edge_endpoints[" ++ Value.quoted prop ++
      "] is required when the subgraph carries more than one node class" }

/-- The `edge_index` of one property. -/
def edgeIndex (subgraph : Subgraph Feature) (edge_endpoints : Endpoints)
    (entry : String × EdgeRows) :
    Except Raised ((String × String × String) × List Int × List Int) :=
  match endpointsOf subgraph edge_endpoints entry.1 with
  | some (src_cls, dst_cls) => .ok ((src_cls, entry.1, dst_cls),
      entry.2.map fun edge => astypeInt64 edge.1, entry.2.map fun edge => astypeInt64 edge.2)
  | none => .error (endpointsError entry.1)

/-- `to_pyg_data(subgraph, edge_endpoints=...)` -/
def toPygData (subgraph : Subgraph Feature) (edge_endpoints : Endpoints) :
    Except Raised (HeteroData Feature) := do
  let edge_index ← subgraph.edges.entries.mapM (edgeIndex subgraph edge_endpoints)
  return {
    num_nodes := subgraph.nodes.entries.map fun (cls, table) => (cls, table.nids.length)
    x := subgraph.nodes.entries.filterMap fun (cls, table) => table.features.map (cls, ·)
    edge_index }

/-! ## jraph -/

/-- `column.astype("int32")` -/
def astypeInt32 (id : UInt64) : Int := (id.toNat : Int).bmod (2 ^ 32)

/-- `jraph.GraphsTuple` of one graph. -/
structure GraphsTuple (Feature : Type) where
  nodes : Option (List Feature)
  edges : List Nat
  senders : List Int
  receivers : List Int
  n_node : Nat
  n_edge : Nat
deriving DecidableEq

/-- Each property's rows, in the order of the tables. -/
def allEdges (subgraph : Subgraph Feature) : EdgeRows :=
  subgraph.edges.entries.flatMap Prod.snd

/-- The `nid` columns of the node tables, one behind the other. -/
def allNids (subgraph : Subgraph Feature) : List UInt64 :=
  subgraph.nodes.entries.flatMap fun (_, table) => table.nids

/-- `to_graphs_tuple(subgraph)`, or none where a size does not fit into `int32`. -/
def toGraphsTuple (subgraph : Subgraph Feature) : Option (GraphsTuple Feature) :=
  let etype_ids := subgraph.edges.keys.insertionSort (· ≤ ·)
  let senders := (allEdges subgraph).map fun edge => astypeInt32 edge.1
  let receivers := (allEdges subgraph).map fun edge => astypeInt32 edge.2
  let etypes := subgraph.edges.entries.flatMap fun (prop, table) =>
    table.map fun _ => etype_ids.idxOf prop
  let n_nodes := (subgraph.nodes.entries.map fun (_, table) => table.nids.length).sum
  let node_features := subgraph.nodes.entries.findSome? fun (_, table) => table.features
  if n_nodes < 2 ^ 31 ∧ senders.length < 2 ^ 31 then
    some { nodes := node_features, edges := etypes, senders, receivers, n_node := n_nodes
           n_edge := senders.length }
  else none

/-! ## What the indexes should be -/

/-- The row of an id. -/
def rowOf (nids : List UInt64) (id : UInt64) : Int := (nids.idxOf id : Int)

/-- The row that the low bits of the id number is the row of the id. -/
def InPlace (bits : Nat) (nids : List UInt64) (id : UInt64) : Prop :=
  nids[id.toNat % 2 ^ bits]? = some id

instance (bits : Nat) (nids : List UInt64) (id : UInt64) : Decidable (InPlace bits nids id) :=
  inferInstanceAs (Decidable (_ = _))

theorem inPlace_iff (bits : Nat) {nids : List UInt64} (distinct : nids.Nodup) {id : UInt64}
    (known : id ∈ nids) : InPlace bits nids id ↔ nids.idxOf id = id.toNat % 2 ^ bits := by
  have inside := List.idxOf_lt_length_of_mem known
  constructor
  · intro inPlace
    obtain ⟨bounded, same⟩ := List.getElem?_eq_some_iff.mp inPlace
    have found := distinct.idxOf_getElem (id.toNat % 2 ^ bits) bounded
    rwa [same] at found
  · intro found
    rw [InPlace, ← found, List.getElem?_eq_getElem inside, List.getElem_idxOf inside]

/-- A cast to a signed integer that is wide enough for the rows gives the row of an id exactly when
the id is in place. -/
theorem cast_eq_rowOf (bits : Nat) {nids : List UInt64} (distinct : nids.Nodup)
    (rows : nids.length ≤ 2 ^ bits) {id : UInt64} (known : id ∈ nids) :
    (id.toNat : Int).bmod (2 ^ (bits + 1) : Nat) = rowOf nids id ↔ InPlace (bits + 1) nids id := by
  have inside := List.idxOf_lt_length_of_mem known
  have doubled : 2 ^ (bits + 1) = 2 * 2 ^ bits := by rw [Nat.pow_succ, Nat.mul_comm]
  have positive : 0 < 2 ^ bits := Nat.two_pow_pos bits
  have low := Nat.mod_lt id.toNat (show 0 < 2 * 2 ^ bits by omega)
  rw [inPlace_iff (bits + 1) distinct known, rowOf, doubled, Int.bmod_def, ← Int.natCast_emod]
  split
  · omega
  · omega

/-! ## The exports -/

/-- Each endpoint is a row of its class, in which no id occurs twice. -/
structure CoveredByClass (subgraph : Subgraph Feature) (edge_endpoints : Endpoints) : Prop where
  distinct : ∀ table ∈ subgraph.nodes.values, table.nids.Nodup
  known : ∀ entry ∈ subgraph.edges.entries, ∀ src_cls dst_cls,
    endpointsOf subgraph edge_endpoints entry.1 = some (src_cls, dst_cls) →
      ∃ sources targets, subgraph.nodes.get? src_cls = some sources ∧
        subgraph.nodes.get? dst_cls = some targets ∧
          ∀ edge ∈ entry.2, edge.1 ∈ sources.nids ∧ edge.2 ∈ targets.nids

/-- For each pair of node tables of a property's endpoint classes, the property's edges. -/
def OnClasses (subgraph : Subgraph Feature) (edge_endpoints : Endpoints)
    (holds : String × EdgeRows → String → String → List UInt64 → List UInt64 → Prop) : Prop :=
  ∀ entry ∈ subgraph.edges.entries, ∀ src_cls dst_cls,
    endpointsOf subgraph edge_endpoints entry.1 = some (src_cls, dst_cls) →
      ∀ sources targets, subgraph.nodes.get? src_cls = some sources →
        subgraph.nodes.get? dst_cls = some targets →
          holds entry src_cls dst_cls sources.nids targets.nids

/-- Each column of an edge index consists of the rows of its edge's endpoints. -/
def HeteroData.Right (data : HeteroData Feature) (subgraph : Subgraph Feature)
    (edge_endpoints : Endpoints) : Prop :=
  OnClasses subgraph edge_endpoints fun entry src_cls dst_cls sources targets =>
    ((src_cls, entry.1, dst_cls), entry.2.map (fun edge => rowOf sources edge.1),
      entry.2.map fun edge => rowOf targets edge.2) ∈ data.edge_index

/-- Each endpoint is in place in the table of its class. -/
def InPlaceByClass (subgraph : Subgraph Feature) (edge_endpoints : Endpoints) : Prop :=
  OnClasses subgraph edge_endpoints fun entry _ _ sources targets =>
    ∀ edge ∈ entry.2, InPlace 64 sources edge.1 ∧ InPlace 64 targets edge.2

/-- Senders and receivers are the rows of the endpoints behind one another, below the number of
nodes, and a nodes array has a row for each node. -/
structure GraphsTuple.Right (tuple : GraphsTuple Feature) (subgraph : Subgraph Feature) : Prop where
  senders : tuple.senders = (allEdges subgraph).map fun edge => rowOf (allNids subgraph) edge.1
  receivers : tuple.receivers = (allEdges subgraph).map fun edge => rowOf (allNids subgraph) edge.2
  below : ∀ index ∈ tuple.senders ++ tuple.receivers, 0 ≤ index ∧ index < tuple.n_node
  nodes : ∀ rows ∈ tuple.nodes, rows.length = tuple.n_node

/-- Each endpoint is in place among all nodes, and the first table with features is the only one
with rows. -/
structure InPlaceTogether (subgraph : Subgraph Feature) : Prop where
  edges : ∀ edge ∈ allEdges subgraph,
    InPlace 32 (allNids subgraph) edge.1 ∧ InPlace 32 (allNids subgraph) edge.2
  nodes : ∀ rows ∈ subgraph.nodes.entries.findSome? fun (_, table) => table.features,
    rows.length = (allNids subgraph).length

theorem mapM_entries {subgraph : Subgraph Feature} {edge_endpoints : Endpoints}
    {data : HeteroData Feature} (made : toPygData subgraph edge_endpoints = .ok data) :
    subgraph.edges.entries.mapM (edgeIndex subgraph edge_endpoints) = .ok data.edge_index := by
  obtain ⟨edge_index, mapped, same⟩ := except_bind_ok made
  cases same
  exact mapped

/-- Two properties never share a key of the edge indexes. -/
theorem edgeIndex_unique {subgraph : Subgraph Feature} {edge_endpoints : Endpoints}
    {data : HeteroData Feature} (made : toPygData subgraph edge_endpoints = .ok data)
    {entry : String × EdgeRows} (member : entry ∈ subgraph.edges.entries) {src_cls dst_cls : String}
    (classes : endpointsOf subgraph edge_endpoints entry.1 = some (src_cls, dst_cls))
    (index : List Int × List Int) :
    ((src_cls, entry.1, dst_cls), index) ∈ data.edge_index ↔
      index = (entry.2.map fun edge => astypeInt64 edge.1,
        entry.2.map fun edge => astypeInt64 edge.2) := by
  rw [mem_of_mapM_ok (mapM_entries made)]
  constructor
  · rintro ⟨other, otherMember, computed⟩
    rw [edgeIndex] at computed
    split at computed
    · next left right found =>
      simp only [Except.ok.injEq, Prod.mk.injEq] at computed
      obtain ⟨⟨_, name, _⟩, columns⟩ := computed
      have same : other.2 = entry.2 := by
        have first := (Dict.get_eq_some subgraph.edges other.1 other.2).mpr otherMember
        have second := (Dict.get_eq_some subgraph.edges entry.1 entry.2).mpr member
        rw [name] at first
        exact Option.some.inj (first.symm.trans second)
      rw [← columns, same]
    · cases computed
  · rintro rfl
    refine ⟨entry, member, ?_⟩
    rw [edgeIndex, classes]

theorem toPygData_right_iff {subgraph : Subgraph Feature} {edge_endpoints : Endpoints}
    (covered : CoveredByClass subgraph edge_endpoints) {data : HeteroData Feature}
    (made : toPygData subgraph edge_endpoints = .ok data) :
    data.Right subgraph edge_endpoints ↔ InPlaceByClass subgraph edge_endpoints := by
  have each : ∀ entry ∈ subgraph.edges.entries, ∀ src_cls dst_cls,
      endpointsOf subgraph edge_endpoints entry.1 = some (src_cls, dst_cls) →
        ∀ sources targets, subgraph.nodes.get? src_cls = some sources →
          subgraph.nodes.get? dst_cls = some targets → ∀ edge ∈ entry.2,
            (astypeInt64 edge.1 = rowOf sources.nids edge.1 ↔ InPlace 64 sources.nids edge.1) ∧
              (astypeInt64 edge.2 = rowOf targets.nids edge.2 ↔ InPlace 64 targets.nids edge.2) := by
    intro entry member src_cls dst_cls classes sources targets left right edge inside
    obtain ⟨_, _, foundLeft, foundRight, known⟩ := covered.known entry member src_cls dst_cls classes
    cases foundLeft.symm.trans left
    cases foundRight.symm.trans right
    have distinctLeft := covered.distinct sources
      ((Dict.mem_values _ _).mpr ⟨src_cls, left⟩)
    have distinctRight := covered.distinct targets
      ((Dict.mem_values _ _).mpr ⟨dst_cls, right⟩)
    exact ⟨cast_eq_rowOf 63 distinctLeft sources.bounded (known edge inside).1,
      cast_eq_rowOf 63 distinctRight targets.bounded (known edge inside).2⟩
  constructor
  · intro right entry member src_cls dst_cls classes sources targets left found edge inside
    have same := (edgeIndex_unique made member classes _).mp
      (right entry member src_cls dst_cls classes sources targets left found)
    obtain ⟨first, second⟩ := Prod.mk.inj same
    obtain ⟨source, target⟩ := each entry member src_cls dst_cls classes sources targets left found
      edge inside
    exact ⟨source.mp (List.map_inj_left.mp first edge inside).symm,
      target.mp (List.map_inj_left.mp second edge inside).symm⟩
  · intro inPlace entry member src_cls dst_cls classes sources targets left found
    apply (edgeIndex_unique made member classes _).mpr
    have places := inPlace entry member src_cls dst_cls classes sources targets left found
    have rows := each entry member src_cls dst_cls classes sources targets left found
    rw [Prod.mk.injEq]
    constructor
    · exact List.map_congr_left fun edge inside =>
        ((rows edge inside).1.mpr (places edge inside).1).symm
    · exact List.map_congr_left fun edge inside =>
        ((rows edge inside).2.mpr (places edge inside).2).symm

theorem length_allNids (subgraph : Subgraph Feature) :
    (subgraph.nodes.entries.map fun (_, table) => table.nids.length).sum =
      (allNids subgraph).length := by
  rw [allNids, List.length_flatMap]

theorem toGraphsTuple_right_iff {subgraph : Subgraph Feature} (distinct : (allNids subgraph).Nodup)
    (known : ∀ edge ∈ allEdges subgraph, edge.1 ∈ allNids subgraph ∧ edge.2 ∈ allNids subgraph)
    {tuple : GraphsTuple Feature} (made : toGraphsTuple subgraph = some tuple) :
    tuple.Right subgraph ↔ InPlaceTogether subgraph := by
  simp only [toGraphsTuple, length_allNids] at made
  split at made
  · next small =>
    cases made
    have rows : (allNids subgraph).length ≤ 2 ^ 31 := Nat.le_of_lt small.1
    have each : ∀ edge ∈ allEdges subgraph,
        (astypeInt32 edge.1 = rowOf (allNids subgraph) edge.1 ↔
          InPlace 32 (allNids subgraph) edge.1) ∧
        (astypeInt32 edge.2 = rowOf (allNids subgraph) edge.2 ↔
          InPlace 32 (allNids subgraph) edge.2) := fun edge inside =>
      ⟨cast_eq_rowOf 31 distinct rows (known edge inside).1,
        cast_eq_rowOf 31 distinct rows (known edge inside).2⟩
    constructor
    · intro right
      refine { edges := ?_, nodes := right.nodes }
      intro edge inside
      exact ⟨(each edge inside).1.mp (List.map_inj_left.mp right.senders edge inside),
        (each edge inside).2.mp (List.map_inj_left.mp right.receivers edge inside)⟩
    · intro inPlace
      have senders : (allEdges subgraph).map (fun edge => astypeInt32 edge.1) =
          (allEdges subgraph).map fun edge => rowOf (allNids subgraph) edge.1 :=
        List.map_congr_left fun edge inside => (each edge inside).1.mpr (inPlace.edges edge inside).1
      have receivers : (allEdges subgraph).map (fun edge => astypeInt32 edge.2) =
          (allEdges subgraph).map fun edge => rowOf (allNids subgraph) edge.2 :=
        List.map_congr_left fun edge inside => (each edge inside).2.mpr (inPlace.edges edge inside).2
      refine { senders, receivers, below := ?_, nodes := inPlace.nodes }
      intro index member
      have inRange (id : UInt64) (present : id ∈ allNids subgraph) :
          0 ≤ rowOf (allNids subgraph) id ∧
            rowOf (allNids subgraph) id < (allNids subgraph).length := by
        have inside := List.idxOf_lt_length_of_mem present
        exact ⟨Int.natCast_nonneg _, Int.ofNat_lt.mpr inside⟩
      rcases List.mem_append.mp member with sent | received
      · rw [senders] at sent
        obtain ⟨edge, inside, rfl⟩ := List.mem_map.mp sent
        exact inRange edge.1 (known edge inside).1
      · rw [receivers] at received
        obtain ⟨edge, inside, rfl⟩ := List.mem_map.mp received
        exact inRange edge.2 (known edge inside).2
  · cases made

/-- What the two exports produce is right exactly where every endpoint's id is the row that the
export takes it for. -/
theorem exports_right_iff (subgraph : Subgraph Feature) (edge_endpoints : Endpoints) :
    (∀ data, CoveredByClass subgraph edge_endpoints →
      toPygData subgraph edge_endpoints = .ok data →
        (data.Right subgraph edge_endpoints ↔ InPlaceByClass subgraph edge_endpoints)) ∧
    (∀ tuple, (allNids subgraph).Nodup →
      (∀ edge ∈ allEdges subgraph, edge.1 ∈ allNids subgraph ∧ edge.2 ∈ allNids subgraph) →
        toGraphsTuple subgraph = some tuple →
          (tuple.Right subgraph ↔ InPlaceTogether subgraph)) := by
  constructor
  · intro data covered made
    exact toPygData_right_iff covered made
  · intro tuple distinct known made
    exact toGraphsTuple_right_iff distinct known made

/-- Two people stored under the ids 0 and 1. -/
def dense : Subgraph Unit where
  nodes := Dict.ofEntries [("Person", { nids := [0, 1], features := none
                                        aligned := nofun, bounded := by decide })]
  edges := Dict.ofEntries [("KNOWS", [(1, 0)])]

theorem dense_right : ∃ tuple, toGraphsTuple dense = some tuple ∧ tuple.Right dense := by
  have made : toGraphsTuple dense = some
      { nodes := none, edges := [0], senders := [1], receivers := [0], n_node := 2, n_edge := 1 } := by
    decide +kernel
  have nids : allNids dense = [0, 1] := rfl
  have edges : allEdges dense = [(1, 0)] := rfl
  refine ⟨_, made, ?_⟩
  apply ((exports_right_iff dense fun _ => none).2 _ (by simp [nids]) (by simp [nids, edges])
    made).mpr
  constructor
  · intro edge member
    rw [edges] at member
    rw [List.mem_singleton.mp member, nids]
    exact ⟨rfl, rfl⟩
  · nofun

/-- Two people stored under the ids 7 and 3, who know each other. -/
def sparse : Subgraph Unit where
  nodes := Dict.ofEntries [("Person", { nids := [7, 3], features := none
                                        aligned := nofun, bounded := by decide })]
  edges := Dict.ofEntries [("KNOWS", [(7, 3)])]

/-- The only edge goes from row 0 to row 1, but the tensors say from 7 to 3. -/
theorem sparse_misplaced : ¬ ∀ (subgraph : Subgraph Unit) (edge_endpoints : Endpoints),
    (∀ data, CoveredByClass subgraph edge_endpoints →
      toPygData subgraph edge_endpoints = .ok data → data.Right subgraph edge_endpoints) ∧
    (∀ tuple, (allNids subgraph).Nodup →
      (∀ edge ∈ allEdges subgraph, edge.1 ∈ allNids subgraph ∧ edge.2 ∈ allNids subgraph) →
        toGraphsTuple subgraph = some tuple → tuple.Right subgraph) := by
  intro always
  have made : toGraphsTuple sparse = some
      { nodes := none, edges := [0], senders := [7], receivers := [3], n_node := 2, n_edge := 1 } := by
    decide +kernel
  have nids : allNids sparse = [7, 3] := rfl
  have edges : allEdges sparse = [(7, 3)] := rfl
  have right := (always sparse fun _ => none).2 _ (by simp [nids]) (by simp [nids, edges]) made
  exact absurd right.senders (by decide)

end CaracalDB.Tensors
