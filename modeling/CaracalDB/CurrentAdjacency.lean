import CaracalDB.FileSteps
import CaracalDB.KeptAdjacency

/-!
# When traversals read current edges

What a process keeps of a bundle stays what is stored in it as long as no write, and
no new bundle at the same path, changes an edge table of which the pool or an
adjacency in the handle still holds a copy.
-/

namespace CaracalDB

open Database

namespace Paths

section Runs

variable (runtime : Runtime) {Number : Type} [LinearOrder Number]
  (edgeNumber : EdgeStep → String → Except Raised Number)

/-! ## Runs of a process -/

/-- What happens at one path: a write, closing and opening the bundle again, deleting its
directory and creating another, or a read. -/
inductive Operation where
  | write (write : Write)
  | reopen
  | recreate
  | arrow_table (relation : String)
  | typed_adjacency (request : AdjacencyRequest)
  | cached_typed_adjacency (request : AdjacencyRequest)

/-- A handle that has just been opened keeps nothing. -/
def Held.reopened (held : Held) : Held :=
  { held with db := { held.db with
    csr_cache := Dict.empty, external_id_map_cache := Dict.empty, typed_adjacency_cache := Dict.empty } }

/-- What is at hand after an operation, whether it answered or raised. -/
def Held.after (held : Held) (path : String) : Operation → Held
  | .write write => { held with db := write.after runtime held.db }
  | .reopen => held.reopened
  | .recreate => { held with db := Database.create path }
  | .arrow_table relation => (Call.run (keptTable relation) held).2
  | .typed_adjacency request => (Call.run (keptAdjacency runtime edgeNumber request) held).2
  | .cached_typed_adjacency request =>
      (Call.run (cachedAdjacency runtime edgeNumber request) held).2

/-- The bundles that a process can reach, by their paths. -/
abbrev Process : Type := Dict String Held

/-- What a process has at hand at a path, where there may be no bundle yet. -/
def Process.at (process : Process) (path : String) : Held :=
  (process.get? path).getD { pool := Dict.empty, db := Database.create path }

/-- The process after an operation at a path. -/
def Process.step (process : Process) (event : String × Operation) : Process :=
  process.set event.1 ((process.at event.1).after runtime edgeNumber event.1 event.2)

/-- The process after a run of operations. -/
def Process.run (process : Process) (events : List (String × Operation)) : Process :=
  events.foldl (Process.step runtime edgeNumber) process

/-! ## Steps that leave copies current -/

/-- No edge table of which a copy is kept has changed: neither one in the pool nor one whose edges
are in an adjacency that the handle still keeps. -/
def Spares (pool : BufferPool) (before after : Database) : Prop :=
  (∀ relation ∈ pool.keys, storedTable after relation = storedTable before relation) ∧
    ∀ key ∈ after.typed_adjacency_cache.keys, ∀ relation ∈ key.edge_types,
      storedEdges runtime after Dict.empty relation = storedEdges runtime before Dict.empty relation

def Held.Allows (held : Held) (path : String) : Operation → Prop
  | .write write => Spares runtime held.pool held.db (write.after runtime held.db)
  | .recreate => Spares runtime held.pool held.db (Database.create path)
  | _ => True

def Process.AllowsAll (process : Process) : List (String × Operation) → Prop
  | [] => True
  | event :: events => (process.at event.1).Allows runtime event.1 event.2 ∧
      Process.AllowsAll (process.step runtime edgeNumber event) events

variable {runtime edgeNumber}

/-- What is kept stays current when no table of which a copy is kept changes. -/
theorem Current.spared {held : Held} {after : Database} (current : Current runtime edgeNumber held)
    (sheds : ∀ key adjacency, after.typed_adjacency_cache.get? key = some adjacency →
      held.db.typed_adjacency_cache.get? key = some adjacency) (spares : Spares runtime held.pool held.db after) :
    Current runtime edgeNumber { held with db := after } := by
  constructor
  · intro relation table kept
    have pooled : relation ∈ held.pool.keys := (Dict.mem_keys _ _).mpr ⟨table, kept⟩
    exact (spares.1 relation pooled).trans (current.tables relation table kept)
  · intro key adjacency kept
    have listed : key ∈ after.typed_adjacency_cache.keys :=
      (Dict.mem_keys _ _).mpr ⟨adjacency, kept⟩
    have edges : (requestOf key).edge_types.mapM (storedEdges runtime after (requestOf key).filters) =
        (requestOf key).edge_types.mapM (storedEdges runtime held.db (requestOf key).filters) :=
      mapM_congr (spares.2 key listed)
    rw [← current.adjacencies key adjacency (sheds key adjacency kept), adjacencyNow, adjacencyNow,
      edges]

theorem Current.after {held : Held} (current : Current runtime edgeNumber held) {path : String}
    {operation : Operation} (allowed : held.Allows runtime path operation) :
    Current runtime edgeNumber (held.after runtime edgeNumber path operation) := by
  cases operation with
  | write write => exact current.spared (write.file_steps runtime held.db).sheds.adjacencies allowed
  | reopen => exact ⟨current.tables, fun _ _ kept => nomatch kept⟩
  | recreate => exact current.spared (fun _ _ kept => nomatch kept) allowed
  | arrow_table relation =>
    obtain ⟨after, reads, _, later⟩ := keptTable_run current relation
    rw [Held.after, reads]
    exact later
  | typed_adjacency request =>
    obtain ⟨after, reads, _, later⟩ := keptAdjacency_run current request
    rw [Held.after, reads]
    exact later
  | cached_typed_adjacency request => exact (cachedAdjacency_run current request).2

/-- A run whose steps spare the kept copies leaves everything that is kept current. -/
theorem Process.run_current (events : List (String × Operation)) {process : Process}
    (current : ∀ path, Current runtime edgeNumber (process.at path))
    (allowed : process.AllowsAll runtime edgeNumber events) (path : String) :
    Current runtime edgeNumber ((process.run runtime edgeNumber events).at path) := by
  induction events generalizing process with
  | nil => exact current path
  | cons event events inductionHypothesis =>
    refine inductionHypothesis ?_ allowed.2
    intro other
    rw [Process.at, Process.step, Dict.get_set]
    split
    · exact (current event.1).after allowed.1
    · exact current other

/-- In a process that has read nothing yet, every read at the end of a run answers what is stored
then. -/
theorem reads_current (events : List (String × Operation)) {process : Process}
    (unread : ∀ path, (process.at path).pool = Dict.empty ∧
      (process.at path).db.typed_adjacency_cache = Dict.empty)
    (allowed : process.AllowsAll runtime edgeNumber events) (path : String) :
    let held := (process.run runtime edgeNumber events).at path
    (∀ relation, (Call.run (keptTable relation) held).1 = storedTable held.db relation) ∧
      (∀ request, (Call.run (keptAdjacency runtime edgeNumber request) held).1 =
        adjacencyNow runtime edgeNumber held.db request) ∧
      ∀ request, (Call.run (cachedAdjacency runtime edgeNumber request) held).1 =
        adjacencyNow runtime edgeNumber held.db (requestOf request.key) := by
  have start : ∀ path, Current runtime edgeNumber (process.at path) := by
    intro path
    obtain ⟨noTables, noAdjacencies⟩ := unread path
    constructor
    · intro relation table kept
      rw [noTables] at kept
      cases kept
    · intro key adjacency kept
      rw [noAdjacencies] at kept
      cases kept
  have current := Process.run_current events start allowed path
  refine ⟨fun relation => ?_, fun request => ?_, fun request =>
    (cachedAdjacency_run current request).1⟩
  · obtain ⟨_, reads, _⟩ := keptTable_run current relation
    rw [reads]
  · obtain ⟨_, reads, _⟩ := keptAdjacency_run current request
    rw [reads]

end Runs

/-! ## A third friend -/

/-- The value of an integer property of an edge. -/
def integerNumber (step : EdgeStep) (name : String) : Except Raised ℤ :=
  match step.properties.read name with
  | .int number => .ok number
  | _ => .ok 0

/-- Everybody whom a person knows, as every traversal asks for it. -/
def whoKnows (relation : String) : AdjacencyRequest :=
  { edge_types := [relation], direction := "out", filters := Dict.empty
    order_by_property := none, top_per_node := none }

def storeEdgeOf (relation source target : String) : String × Operation :=
  ("graph.crcl", .write (.insert_edge_table [Dict.ofEntries [("src", .str source),
    ("dst", .str target), ("type", .str relation), ("since", .int 1852)]] {}))

/-- A process that has opened the bundle of two friends. -/
def friendsProcess : Process :=
  Dict.ofEntries [("graph.crcl", Held.reopened { pool := Dict.empty, db := friends })]

/-- The adjacency is read, and an edge of another relation is stored. -/
def otherEdge : List (String × Operation) :=
  [("graph.crcl", .cached_typed_adjacency (whoKnows "knows")), storeEdgeOf "admires" "bob" "ada",
    ("graph.crcl", .reopen)]

theorem friendsProcess_unread (path : String) : (friendsProcess.at path).pool = Dict.empty ∧
    (friendsProcess.at path).db.typed_adjacency_cache = Dict.empty := by
  have found : friendsProcess.get? path = none ∨
      friendsProcess.get? path = some (Held.reopened { pool := Dict.empty, db := friends }) := by
    rw [friendsProcess, Dict.ofEntries, List.foldl_cons, List.foldl_nil, Dict.get_set]
    split
    · exact Or.inr rfl
    · exact Or.inl rfl
  rcases found with none | some
  · rw [Process.at, none]
    exact ⟨rfl, rfl⟩
  · rw [Process.at, some]
    exact ⟨rfl, rfl⟩

theorem otherEdge_current :
    let held := (friendsProcess.run Runtime.plain integerNumber otherEdge).at "graph.crcl"
    (∀ relation, (Call.run (keptTable relation) held).1 = storedTable held.db relation) ∧
      (∀ request, (Call.run (keptAdjacency Runtime.plain integerNumber request) held).1 =
        adjacencyNow Runtime.plain integerNumber held.db request) ∧
      ∀ request, (Call.run (cachedAdjacency Runtime.plain integerNumber request) held).1 =
        adjacencyNow Runtime.plain integerNumber held.db (requestOf request.key) :=
  reads_current otherEdge friendsProcess_unread
    ⟨trivial, ⟨by decide +kernel, by decide +kernel⟩, trivial, trivial⟩ "graph.crcl"

/-- The neighbours that an answer gives a node. -/
def neighboursOf (answer : Except Raised Adjacency) (node : Int) : Option (List Int) :=
  answer.toOption.map fun adjacency => (stepsFrom adjacency node).map EdgeStep.next

/-- The adjacency is read, an edge of its relation is stored, and the bundle is opened again. -/
def sameEdge : List (String × Operation) :=
  [("graph.crcl", .typed_adjacency (whoKnows "knows")), storeEdgeOf "knows" "ada" "ada",
    ("graph.crcl", .reopen)]

/-- What is at hand after that run. -/
def sameEdgeHeld : Held := (friendsProcess.run Runtime.plain integerNumber sameEdge).at "graph.crcl"

/-- The edge that a person is given after the edges were read is not read, not even after the bundle
is closed and opened again. -/
theorem later_edge_unread :
    neighboursOf (Call.run (keptAdjacency Runtime.plain integerNumber (whoKnows "knows"))
        sameEdgeHeld).1 0 = some [1] ∧
      neighboursOf (adjacencyNow Runtime.plain integerNumber sameEdgeHeld.db (whoKnows "knows")) 0 =
        some [1, 0] := by
  constructor <;> decide +kernel

end Paths

end CaracalDB
