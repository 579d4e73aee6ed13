import Mathlib.Data.List.Sort
import CaracalDB.ArrowTable
import CaracalDB.Loops

/-!
# Exchanging a subgraph

An Arrow container holds each table of a subgraph as a stream of record batches under
a key; a stream without batches cannot be read back, since nothing else says what its
columns are. A Lynxes graph frame holds all node tables in one table and all edge
tables in another, column by column, and the endpoints of an edge only as texts of its
own columns, which are dropped when the frame is split again.
-/

namespace CaracalDB.Exchange

/-- `pa.Table`, with the record batches that `to_batches` gives. -/
structure Table where
  fields : List Field
  batches : List (List (List Value))
  distinct : (fields.map Field.name).Nodup
deriving DecidableEq

namespace Table

def names (table : Table) : List String := table.fields.map Field.name

def rows (table : Table) : List (List Value) := table.batches.flatten

/-- `table.column(name).to_pylist()` of a column that exists. -/
def column (table : Table) (name : String) : List Value :=
  table.rows.map fun row => row.getD (table.names.idxOf name) .null

/-- A column by its name. -/
def column? (table : Table) (name : String) : Option (List Value) :=
  if name ∈ table.names then some (table.column name) else none

@[simp] theorem length_column (table : Table) (name : String) :
    (table.column name).length = table.rows.length := List.length_map _

end Table

/-- `Subgraph` -/
structure Subgraph where
  nodes : Dict String Table := Dict.empty
  edges : Dict String Table := Dict.empty
  info : Dict String String := Dict.empty
deriving DecidableEq

/-! ## Arrow -/

/-- Arrow IPC: a stream gives back the schema and the batches that were written. -/
structure Ipc (Bytes : Type) where
  write : Table → Bytes
  read : Bytes → Table
  read_write : ∀ table, read (write table) = table

def NODES_PREFIX : String := "nodes/"
def EDGES_PREFIX : String := "edges/"
def META_KEY : String := "meta"

/-- A row of the container. -/
structure Entry (Bytes : Type) where
  key : String
  kind : String
  payload : Bytes

variable {Bytes : Type}

/-- The table of the annotations, in one batch. -/
def infoTable (info : Dict String String) : Table where
  fields := [{ name := "key", type := .string }, { name := "value", type := .string }]
  batches := [info.entries.map fun (key, value) => [.str key, .str value]]
  distinct := by decide

def nodeEntry (ipc : Ipc Bytes) (entry : String × Table) : Entry Bytes :=
  { key := NODES_PREFIX ++ entry.1, kind := "node", payload := ipc.write entry.2 }

def edgeEntry (ipc : Ipc Bytes) (entry : String × Table) : Entry Bytes :=
  { key := EDGES_PREFIX ++ entry.1, kind := "edge", payload := ipc.write entry.2 }

/-- The annotations, if there are any. -/
def infoEntries (ipc : Ipc Bytes) (info : Dict String String) : List (Entry Bytes) :=
  if info.entries = [] then []
  else [{ key := META_KEY, kind := "meta", payload := ipc.write (infoTable info) }]

/-- `export_subgraph_to_arrow(subgraph, path)`: the rows of the container. -/
def exportSubgraphToArrow (ipc : Ipc Bytes) (subgraph : Subgraph) :
    Except Raised (List (Entry Bytes)) := do
  refuse (subgraph.nodes.entries = [] ∧ subgraph.edges.entries = [])
    (.caracal { code := "CDB-6160", message := "cannot export an empty subgraph" })
  return subgraph.nodes.entries.map (nodeEntry ipc) ++ subgraph.edges.entries.map (edgeEntry ipc) ++
    infoEntries ipc subgraph.info

/-- `_deserialize_table(payload)` -/
def deserializeTable (ipc : Ipc Bytes) (payload : Bytes) : Except Raised Table :=
  let table := ipc.read payload
  if table.batches = [] then
    .error (.arrowError "Must pass schema, or at least one RecordBatch")
  else .ok table

/-- `key[len(beginning) :]` -/
def dropBeginning (beginning key : String) : String :=
  String.ofList (key.toList.drop beginning.length)

/-- One row of the container. -/
def importEntry (ipc : Ipc Bytes) (subgraph : Subgraph) (entry : Entry Bytes) :
    Except Raised Subgraph :=
  if entry.kind = "node" then do
    let table ← deserializeTable ipc entry.payload
    return { subgraph with
      nodes := subgraph.nodes.set (dropBeginning NODES_PREFIX entry.key) table }
  else if entry.kind = "edge" then do
    let table ← deserializeTable ipc entry.payload
    return { subgraph with
      edges := subgraph.edges.set (dropBeginning EDGES_PREFIX entry.key) table }
  else if entry.kind = "meta" then do
    let table ← deserializeTable ipc entry.payload
    return { subgraph with
      info := ((table.column "key").zip (table.column "value")).foldl
        (fun info (key, value) => info.set key.toText value.toText) subgraph.info }
  else .ok subgraph

/-- `import_subgraph_from_arrow(path)` -/
def importSubgraphFromArrow (ipc : Ipc Bytes) (entries : List (Entry Bytes)) :
    Except Raised Subgraph :=
  entries.foldlM (importEntry ipc) {}

theorem dropBeginning_append (beginning name : String) :
    dropBeginning beginning (beginning ++ name) = name := by
  simp [dropBeginning, ← String.length_toList]

theorem deserialize_write (ipc : Ipc Bytes) (table : Table) :
    deserializeTable ipc (ipc.write table) = if table.batches = [] then
      .error (.arrowError "Must pass schema, or at least one RecordBatch") else .ok table := by
  rw [deserializeTable, ipc.read_write]

/-- Tables with batches are filed again under their names. -/
theorem import_nodes (ipc : Ipc Bytes) (tables : List (String × Table)) (subgraph : Subgraph)
    (filled : ∀ entry ∈ tables, entry.2.batches ≠ []) :
    (tables.map (nodeEntry ipc)).foldlM (importEntry ipc) subgraph =
      .ok { subgraph with
        nodes := tables.foldl (fun nodes entry => nodes.set entry.1 entry.2) subgraph.nodes } := by
  induction tables generalizing subgraph with
  | nil => rfl
  | cons entry tables inductionHypothesis =>
    have first := filled entry List.mem_cons_self
    rw [List.map_cons, List.foldlM_cons, importEntry, nodeEntry]
    simp only [if_true, deserialize_write, if_neg first, ok_bind, dropBeginning_append]
    exact inductionHypothesis _ fun other member => filled other (List.mem_cons_of_mem entry member)

theorem import_edges (ipc : Ipc Bytes) (tables : List (String × Table)) (subgraph : Subgraph)
    (filled : ∀ entry ∈ tables, entry.2.batches ≠ []) :
    (tables.map (edgeEntry ipc)).foldlM (importEntry ipc) subgraph =
      .ok { subgraph with
        edges := tables.foldl (fun edges entry => edges.set entry.1 entry.2) subgraph.edges } := by
  induction tables generalizing subgraph with
  | nil => rfl
  | cons entry tables inductionHypothesis =>
    have first := filled entry List.mem_cons_self
    have other : "edge" ≠ "node" := by decide
    rw [List.map_cons, List.foldlM_cons, importEntry, edgeEntry]
    simp only [if_neg other, if_true, deserialize_write, if_neg first, ok_bind, dropBeginning_append]
    exact inductionHypothesis _ fun other member => filled other (List.mem_cons_of_mem entry member)

theorem import_info (ipc : Ipc Bytes) (info : Dict String String) (subgraph : Subgraph)
    (fresh : subgraph.info = Dict.empty) :
    (infoEntries ipc info).foldlM (importEntry ipc) subgraph = .ok { subgraph with info } := by
  rw [infoEntries]
  split
  · next empty =>
    have nothing : info = Dict.empty := Dict.ext empty
    rw [nothing, ← fresh]
    rfl
  · have notNode : "meta" ≠ "node" := by decide
    have notEdge : "meta" ≠ "edge" := by decide
    have batched : (infoTable info).batches ≠ [] := List.cons_ne_nil _ _
    have keys : (infoTable info).column "key" = info.entries.map fun entry => .str entry.1 := by
      simp [Table.column, Table.rows, Table.names, infoTable]
    have values : (infoTable info).column "value" = info.entries.map fun entry => .str entry.2 := by
      simp [Table.column, Table.rows, Table.names, infoTable]
    have filed : (info.entries.map fun entry => (Value.str entry.1, Value.str entry.2)).foldl
        (fun info (key, value) => info.set key.toText value.toText) Dict.empty = info := by
      rw [List.foldl_map]
      exact info.ofEntries_eq
    rw [List.foldlM_cons, importEntry]
    simp only [if_neg notNode, if_neg notEdge, if_true, deserialize_write, if_neg batched, ok_bind,
      keys, values, List.zip_map', fresh, filed]
    rfl

/-- A container gives back the subgraph exactly when each of its tables has a record batch. -/
theorem arrow_round_trip_iff (ipc : Ipc Bytes) {subgraph : Subgraph}
    (filled : ¬ (subgraph.nodes.entries = [] ∧ subgraph.edges.entries = [])) :
    (∃ entries, exportSubgraphToArrow ipc subgraph = .ok entries ∧
      importSubgraphFromArrow ipc entries = .ok subgraph) ↔
        ∀ table ∈ subgraph.nodes.values ++ subgraph.edges.values, table.batches ≠ [] := by
  have exported : exportSubgraphToArrow ipc subgraph =
      .ok (subgraph.nodes.entries.map (nodeEntry ipc) ++
        subgraph.edges.entries.map (edgeEntry ipc) ++ infoEntries ipc subgraph.info) := by
    rw [exportSubgraphToArrow, refuse, if_neg filled]
    rfl
  constructor
  · rintro ⟨entries, found, imported⟩ table member empty
    cases exported.symm.trans found
    have steps := foldlM_steps _ _ _ imported
    have unread : deserializeTable ipc (ipc.write table) =
        .error (.arrowError "Must pass schema, or at least one RecordBatch") := by
      rw [deserialize_write, if_pos empty]
    rcases List.mem_append.mp member with node | edge
    · obtain ⟨entry, inside, rfl⟩ := List.mem_map.mp node
      obtain ⟨before, middle, step⟩ := steps (nodeEntry ipc entry) (List.mem_append_left _
        (List.mem_append_left _ (List.mem_map_of_mem inside)))
      rw [importEntry, nodeEntry, if_pos rfl, unread] at step
      cases step
    · obtain ⟨entry, inside, rfl⟩ := List.mem_map.mp edge
      obtain ⟨before, middle, step⟩ := steps (edgeEntry ipc entry) (List.mem_append_left _
        (List.mem_append_right _ (List.mem_map_of_mem inside)))
      have other : ¬ "edge" = "node" := by decide
      rw [importEntry, edgeEntry, if_neg other, if_pos rfl, unread] at step
      cases step
  · intro batched
    refine ⟨_, exported, ?_⟩
    rw [importSubgraphFromArrow, List.foldlM_append, List.foldlM_append,
      import_nodes ipc subgraph.nodes.entries {} fun entry member =>
        batched entry.2 (List.mem_append_left _ (List.mem_map_of_mem member)), ok_bind,
      import_edges ipc subgraph.edges.entries _ fun entry member =>
        batched entry.2 (List.mem_append_right _ (List.mem_map_of_mem member)), ok_bind,
      import_info ipc subgraph.info _ rfl]
    have nodes : subgraph.nodes.entries.foldl (fun nodes entry => nodes.set entry.1 entry.2)
        Dict.empty = subgraph.nodes := subgraph.nodes.ofEntries_eq
    have edges : subgraph.edges.entries.foldl (fun edges entry => edges.set entry.1 entry.2)
        Dict.empty = subgraph.edges := subgraph.edges.ofEntries_eq
    simp only [nodes, edges]

end CaracalDB.Exchange
