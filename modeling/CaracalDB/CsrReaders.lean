import CaracalDB.Writes

/-!
# Readers of compressed adjacencies

The compressed adjacency of a relation is a file under `graph`, one for each
direction and snapshot, and a reader of it in the handle. A file is read again if its
numbers of vertices and of edges are those of the stores, and made anew otherwise; a
reader in the handle is used without a look at the stores.
-/

namespace CaracalDB

/-- The reader in one direction. -/
def CsrEntry.reader (entry : CsrEntry) (reverse : Bool) : Option CsrFile :=
  if reverse then entry.reverse else entry.forward

/-- `entry["forward"] = file` or `entry["reverse"] = file` -/
def CsrEntry.record (entry : CsrEntry) (reverse : Bool) (file : CsrFile) : CsrEntry :=
  if reverse then { entry with reverse := some file } else { entry with forward := some file }

namespace Database

/-- Python's `max` of a list that does not only hold integers, which is not below those it holds. -/
structure Greatest (runtime : Runtime) where
  max : List Value → Except Raised Value
  above : ∀ values top number whole, max values = .ok top → .int number ∈ values →
    runtime.toInt top = .ok whole → number ≤ whole

section Readers

variable {runtime : Runtime} (greatest : Greatest runtime)

/-! ## What the stores hold -/

/-- An integer of a row. -/
def integerOf : Value → Option Int
  | .int number => some number
  | _ => none

/-- `max(arr)` -/
def Greatest.of (values : List Value) : Except Raised Value :=
  match values.mapM integerOf with
  | some (first :: rest) => .ok (.int (rest.foldl Max.max first))
  | _ => greatest.max values

/-- The first number that is above the ids of the rows of one store and not below the given one. -/
def boundOf (n : Int) (store : NodeStore) : Except Raised Int := do
  if INTERNAL_GID_COLUMN ∈ store.names ∧ store.rows ≠ [] then
    let arr := store.rows.map fun row => row.values.read INTERNAL_GID_COLUMN
    let last ← runtime.toInt (arr.getLastD .null)
    let top ← runtime.toInt (← greatest.of arr)
    return Max.max (Max.max (Max.max n (last + 1)) (top + 1)) store.next_id
  else return Max.max n store.next_id

/-- The store of the class that a directory is listed for. -/
def listedStore (db : Database) (class_name : String) : Except Raised NodeStore := do
  let cls ← db.catalog.find_class class_name
  db.openNodes cls.iri cls.localName

/-- `_global_vertex_count(db)` -/
def globalVertexCount (db : Database) : Except Raised Int :=
  db.list_node_stores.foldlM (fun n class_name => do
    boundOf greatest n (← listedStore db class_name)) 0

/-- The edge of a row. The columns of endpoints hold unsigned integers, as `append` checks. -/
def arcOf (row : Row) : Arc :=
  let number := fun name => ((integerOf (row.read name)).getD 0).toNat
  { src := number SRC_COLUMN, dst := number DST_COLUMN, eid := number EID_COLUMN }

/-- The edges of a relation, all or those visible at a snapshot. -/
def relationArcs (db : Database) (key : CsrKey) : Except Raised (List Arc) :=
  match db.catalog.properties.by_name key.1 with
  | none => .error (.caracal
      { code := "CDB-6023", message := "property " ++ Value.quoted key.1 ++ " not in catalog" })
  | some prop => do
      let store ← db.openEdges prop.iri prop.localName
      return (store.to_pylist key.2).map arcOf

/-! ## Building -/

/-- `build_csr(edges, num_vertices=..., with_eids=...)` -/
def buildCsr (with_eids : Bool) (arcs : List Arc) (num_vertices : Nat) :
    Except Raised CsrFile :=
  if arcs = [] ∧ num_vertices = 0 then .ok (CsrFile.build false [] 0)
  else
    let top := (arcs.map Arc.src).foldl Max.max 0
    if arcs ≠ [] ∧ num_vertices ≤ top then .error (.caracal
      { code := "CDB-7082"
        message := "src index " ++ toString top ++ " exceeds num_vertices=" ++
          toString num_vertices ++ "; increase num_vertices or filter out-of-range edges" })
    else .ok (CsrFile.build with_eids arcs num_vertices)

/-- `build_csr` of the edges, or `build_csc`, which swaps the endpoints and gives an adjacency
without edges no ids. -/
def buildReader (reverse : Bool) (arcs : List Arc) (num_vertices : Nat) : Except Raised CsrFile :=
  if reverse then buildCsr (decide (arcs ≠ [])) (arcs.map Arc.swap) num_vertices
  else buildCsr true arcs num_vertices

/-! ## Readers -/

/-- `_fresh_csr_reader(path, num_vertices=..., num_edges=...)` -/
def freshCsrReader (name : CsrName) (num_vertices num_edges : Nat) : Method (Option CsrFile) :=
  fun db => match db.graph.get? name with
  | none => (.ok none, db)
  | some file =>
      if file.num_vertices = num_vertices ∧ file.num_edges = num_edges then (.ok (some file), db)
      else (.ok none, { db with graph := db.graph.erase name })

/-- The reader of a file, which is made anew unless it is fresh. -/
def openReader (name : CsrName) (arcs : List Arc) (num_vertices : Nat) : Method CsrFile := do
  match ← freshCsrReader name num_vertices arcs.length with
  | some file => return file
  | none =>
      let file ← Call.ofExcept (buildReader name.reverse arcs num_vertices)
      Call.change fun db => { db with graph := db.graph.set name file }
      return file

/-- The entry of a relation; one without readers is as good as none. -/
def entryAt (db : Database) (key : CsrKey) : CsrEntry := (db.csr_cache.get? key).getD {}

/-- The reader of a relation in one direction, from the entry or from its file. -/
def directedReader (key : CsrKey) (reverse needed : Bool) (arcs : List Arc) (num_vertices : Nat) :
    Method (Option CsrFile) := do
  let entry ← Call.ask fun db => .ok (entryAt db key)
  if needed ∧ entry.reader reverse = none then
    let file ← openReader { relation := key.1, reverse, snapshot_lsn := key.2 } arcs num_vertices
    Call.change fun db => { db with
      csr_cache := db.csr_cache.set key ((entryAt db key).record reverse file) }
    return some file
  else return entry.reader reverse

/-- `_readers_for_relation(db, relation_local, direction, snapshot_lsn=...)` -/
def readersForRelation (relation_local direction : String) (snapshot_lsn : Option Nat) :
    Method (Option CsrFile × Option CsrFile) := do
  Call.ofExcept (refuse (direction ∉ ["out", "in", "both"]) (.caracal
    { code := "CDB-6020"
      message := "relation reader direction must be 'out', 'in', or 'both', got " ++
        Value.quoted direction }))
  let key : CsrKey := (relation_local, snapshot_lsn)
  let needs_forward := decide (direction = "out" ∨ direction = "both")
  let needs_reverse := decide (direction = "in" ∨ direction = "both")
  let entry ← Call.ask fun db => .ok (entryAt db key)
  if (needs_forward → entry.forward.isSome) ∧ (needs_reverse → entry.reverse.isSome) then
    return (entry.forward, entry.reverse)
  else
    let arcs ← Call.ask fun db => relationArcs db key
    let num_vertices ← Call.ask (globalVertexCount greatest)
    let forward ← directedReader key false needs_forward arcs num_vertices.toNat
    let reverse ← directedReader key true needs_reverse arcs num_vertices.toNat
    return (forward, reverse)

end Readers

end Database

end CaracalDB
