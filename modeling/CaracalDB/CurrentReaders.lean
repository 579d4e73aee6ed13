import CaracalDB.CsrReaders
import CaracalDB.FileSteps

/-!
# When readers are current

Counts of vertices and edges tell whether a CSR file belongs to the stored rows as
long as no write, and no stop within a write, leaves a file with the old count over
other rows; a reader in the handle belongs to them as long as no write leaves it over
other rows or brings new nodes.
-/

namespace CaracalDB.Database

section Readers

variable {runtime : Runtime} {greatest : Greatest runtime}

/-! ## Vertices -/

/-- An id of a node that is stored: the id of its row or its internal id. -/
def InUse (db : Database) (id : Int) : Prop :=
  ∃ class_name ∈ db.list_node_stores, ∃ store, listedStore db class_name = .ok store ∧
    ∃ row ∈ store.rows, id = row.id ∨ row.values.read INTERNAL_GID_COLUMN = .int id

theorem values_of_integers {values : List Value} {numbers : List Int}
    (all : values.mapM integerOf = some numbers) : values = numbers.map .int := by
  induction values generalizing numbers with
  | nil =>
    cases all
    rfl
  | cons value values inductionHypothesis =>
    rw [List.mapM_cons] at all
    obtain ⟨number, first, all⟩ := Option.bind_eq_some_iff.mp all
    obtain ⟨rest, others, all⟩ := Option.bind_eq_some_iff.mp all
    cases all
    rw [inductionHypothesis others, List.map_cons]
    cases value <;> cases first
    rfl

theorem le_foldl_max (numbers : List Int) (first number : Int)
    (member : number = first ∨ number ∈ numbers) : number ≤ numbers.foldl max first := by
  have least : ∀ (numbers : List Int) (first : Int), first ≤ numbers.foldl max first := by
    intro numbers
    induction numbers with
    | nil => exact fun first => le_refl first
    | cons head numbers inductionHypothesis =>
      exact fun first => (le_max_left first head).trans (inductionHypothesis _)
  induction numbers generalizing first with
  | nil => exact (member.resolve_right List.not_mem_nil).le
  | cons head numbers inductionHypothesis =>
    rw [List.foldl_cons]
    rcases member with same | later
    · exact (same.le.trans (le_max_left first head)).trans (least numbers _)
    · rcases List.mem_cons.mp later with here | later
      · exact (here.le.trans (le_max_right first head)).trans (least numbers _)
      · exact inductionHypothesis _ (Or.inr later)

/-- The greatest of some values is not below their integers. -/
theorem Greatest.of_above {values : List Value} {top : Value} {number whole : Int}
    (found : greatest.of values = .ok top) (member : .int number ∈ values)
    (isWhole : runtime.toInt top = .ok whole) : number ≤ whole := by
  rw [Greatest.of] at found
  split at found
  · next first rest all =>
    rw [values_of_integers all, List.mem_map] at member
    obtain ⟨other, among, same⟩ := member
    cases found
    cases isWhole
    cases same
    exact le_foldl_max rest first _ (List.mem_cons.mp among)
  · exact greatest.above values top number whole found member isWhole

/-- The bound of a store is above the ids of its rows. -/
theorem boundOf_ok {n bound : Int} {store : NodeStore}
    (counted : boundOf greatest n store = .ok bound) :
    n ≤ bound ∧ ∀ row ∈ store.rows, ∀ id : Int,
      id = row.id ∨ row.values.read INTERNAL_GID_COLUMN = .int id → id < bound := by
  have numbered : ∀ row ∈ store.rows, ((row.id : Nat) : Int) < store.next_id := fun row member =>
    Int.ofNat_lt.mpr (store.row_numbered member)
  rw [boundOf] at counted
  split at counted
  · obtain ⟨last, _, counted⟩ := except_bind_ok counted
    obtain ⟨top, highest, counted⟩ := except_bind_ok counted
    obtain ⟨whole, isWhole, counted⟩ := except_bind_ok counted
    cases counted
    refine ⟨by omega, ?_⟩
    rintro row member id (isRow | isGid)
    · have := numbered row member
      omega
    · have among : .int id ∈ store.rows.map fun row => row.values.read INTERNAL_GID_COLUMN :=
        List.mem_map.mpr ⟨row, member, isGid⟩
      have := Greatest.of_above highest among isWhole
      omega
  · next without =>
    cases counted
    refine ⟨by omega, ?_⟩
    rintro row member id (isRow | isGid)
    · have := numbered row member
      omega
    · -- a store without the column has no internal ids
      have absent : INTERNAL_GID_COLUMN ∉ row.values.keys := by
        rw [store.row_aligned member]
        exact fun present => without ⟨present, List.ne_nil_of_mem member⟩
      rw [Row.read_of_absent absent] at isGid
      cases isGid

/-- The count of vertices is above every id in use. -/
theorem globalVertexCount_ok {db : Database} {count : Int}
    (counted : globalVertexCount greatest db = .ok count) :
    ∀ id, InUse db id → id < (count.toNat : Int) := by
  have each : ∀ (names : List String) (n count : Int),
      names.foldlM (fun n class_name => do
        boundOf greatest n (← listedStore db class_name)) n = .ok count →
        n ≤ count ∧ ∀ class_name ∈ names, ∀ store, listedStore db class_name = .ok store →
          ∀ row ∈ store.rows, ∀ id : Int,
            id = row.id ∨ row.values.read INTERNAL_GID_COLUMN = .int id → id < count := by
    intro names
    induction names with
    | nil =>
      intro n count done
      cases done
      exact ⟨le_refl _, fun _ member => absurd member List.not_mem_nil⟩
    | cons class_name names inductionHypothesis =>
      intro n count done
      rw [List.foldlM_cons] at done
      obtain ⟨middle, first, rest⟩ := except_bind_ok done
      obtain ⟨store, opened, bounded⟩ := except_bind_ok first
      obtain ⟨early, here⟩ := boundOf_ok bounded
      obtain ⟨late, there⟩ := inductionHypothesis middle count rest
      refine ⟨early.trans late, ?_⟩
      intro other member found listed row inStore id isId
      rcases List.mem_cons.mp member with same | later
      · rw [same, opened] at listed
        cases listed
        exact lt_of_lt_of_le (here row inStore id isId) late
      · exact there other later found listed row inStore id isId
  rintro id ⟨class_name, member, store, listed, row, inStore, isId⟩
  have bounded := (each _ 0 count counted).2 class_name member store listed row inStore id isId
  exact lt_of_lt_of_le bounded (Int.self_le_toNat count)

/-! ## Readers and stores -/

/-- A reader is the adjacency of the rows that are visible now, and has room for every node. -/
structure IsCurrent (db : Database) (key : CsrKey) (reverse : Bool) (file : CsrFile) : Prop where
  edges : ∃ arcs, relationArcs db key = .ok arcs ∧
    buildReader reverse arcs file.num_vertices = .ok file
  vertices : ∀ id, InUse db id → id < (file.num_vertices : Int)

/-- The key of a relation and snapshot to which a file belongs. -/
def csrKeyOf (name : CsrName) : CsrKey := (name.relation, name.snapshot_lsn)

/-- Every reader in the handle is current, and a file with the present number of edges is the
adjacency of the present edges. -/
structure Sound (db : Database) : Prop where
  readers : ∀ key entry, db.csr_cache.get? key = some entry →
    ∀ reverse file, entry.reader reverse = some file → IsCurrent db key reverse file
  files : ∀ name file, db.graph.get? name = some file → ∀ arcs,
    relationArcs db (csrKeyOf name) = .ok arcs → arcs.length = file.num_edges →
      buildReader name.reverse arcs file.num_vertices = .ok file

theorem buildCsr_ok {with_eids : Bool} {arcs : List Arc} {num_vertices : Nat} {file : CsrFile}
    (built : buildCsr with_eids arcs num_vertices = .ok file) :
    file.num_vertices = num_vertices ∧ file.num_edges = arcs.length := by
  rw [buildCsr] at built
  split at built
  · next empty =>
    cases built
    rw [empty.1, empty.2]
    exact ⟨CsrFile.num_vertices_build _ _ _, CsrFile.num_edges_build _ _ _⟩
  · dsimp only at built
    split at built
    · cases built
    · cases built
      exact ⟨CsrFile.num_vertices_build _ _ _, CsrFile.num_edges_build _ _ _⟩

theorem buildReader_ok {reverse : Bool} {arcs : List Arc} {num_vertices : Nat} {file : CsrFile}
    (built : buildReader reverse arcs num_vertices = .ok file) :
    file.num_vertices = num_vertices ∧ file.num_edges = arcs.length := by
  rw [buildReader] at built
  split at built
  · obtain ⟨vertices, edges⟩ := buildCsr_ok built
    exact ⟨vertices, edges.trans (List.length_map _)⟩
  · exact buildCsr_ok built

theorem buildCsr_neighbors {with_eids : Bool} {arcs : List Arc} {num_vertices vertex : Nat}
    {file : CsrFile} (built : buildCsr with_eids arcs num_vertices = .ok file)
    (inside : vertex < num_vertices) :
    (file.neighbors_of vertex).Perm ((arcs.filter fun arc => arc.src = vertex).map Arc.dst) := by
  rw [buildCsr] at built
  split at built
  · next empty => omega
  · dsimp only at built
    split at built
    · cases built
    · cases built
      exact CsrFile.neighbors_of_build _ _ inside

/-- A current reader gives for a vertex the other ends of the edges that leave or enter it. -/
theorem IsCurrent.neighbors {db : Database} {key : CsrKey} {reverse : Bool} {file : CsrFile}
    (current : IsCurrent db key reverse file) {vertex : Nat} (inside : vertex < file.num_vertices) :
    ∃ arcs, relationArcs db key = .ok arcs ∧ (file.neighbors_of vertex).Perm
      (((if reverse then arcs.map Arc.swap else arcs).filter fun arc => arc.src = vertex).map
        Arc.dst) := by
  obtain ⟨arcs, stored, built⟩ := current.edges
  refine ⟨arcs, stored, ?_⟩
  rw [buildReader] at built
  split at built
  · next isReverse =>
    rw [if_pos isReverse]
    exact buildCsr_neighbors built inside
  · next isForward =>
    rw [if_neg isForward]
    exact buildCsr_neighbors built inside

/-- The database with other files and readers. -/
def withReaders (db : Database) (graph : Dict CsrName CsrFile)
    (csr_cache : Dict CsrKey CsrEntry) : Database := { db with graph, csr_cache }

theorem IsCurrent.withReaders {db : Database} {key : CsrKey} {reverse : Bool} {file : CsrFile}
    (current : IsCurrent db key reverse file) (graph : Dict CsrName CsrFile)
    (csr_cache : Dict CsrKey CsrEntry) :
    IsCurrent (db.withReaders graph csr_cache) key reverse file :=
  ⟨current.edges, current.vertices⟩

/-- The files of a directory may change when they stay sound. -/
theorem Sound.withFiles {db : Database} (sound : Sound db) {graph : Dict CsrName CsrFile}
    (files : ∀ name file, graph.get? name = some file → ∀ arcs,
      relationArcs db (csrKeyOf name) = .ok arcs → arcs.length = file.num_edges →
        buildReader name.reverse arcs file.num_vertices = .ok file) :
    Sound (db.withReaders graph db.csr_cache) :=
  ⟨fun key entry kept reverse file found =>
    (sound.readers key entry kept reverse file found).withReaders _ _, files⟩

/-- The reader of a file is current, and the files stay sound. -/
theorem openReader_run {db : Database} (sound : Sound db) {key : CsrKey} {arcs : List Arc}
    {count : Int} (stored : relationArcs db key = .ok arcs)
    (counted : globalVertexCount greatest db = .ok count) (reverse : Bool) :
    ∃ result graph, Call.run (openReader { relation := key.1, reverse, snapshot_lsn := key.2 } arcs
        count.toNat) db = (result, db.withReaders graph db.csr_cache) ∧
      Sound (db.withReaders graph db.csr_cache) ∧
      ∀ file, result = .ok file → IsCurrent db key reverse file := by
  have room := globalVertexCount_ok counted
  have fresh : ∃ found graph, Call.run (freshCsrReader
        { relation := key.1, reverse, snapshot_lsn := key.2 } count.toNat arcs.length) db =
          (.ok found, db.withReaders graph db.csr_cache) ∧
      (∀ name file, graph.get? name = some file → db.graph.get? name = some file) ∧
      ∀ file, found = some file → IsCurrent db key reverse file := by
    rw [Call.run, freshCsrReader]
    cases there : db.graph.get? { relation := key.1, reverse, snapshot_lsn := key.2 } with
    | none =>
      exact ⟨none, db.graph, rfl, fun _ _ kept => kept, fun _ absurdity => by cases absurdity⟩
    | some file =>
      dsimp only
      split
      · next counts =>
        refine ⟨some file, db.graph, rfl, fun _ _ kept => kept, fun other same => ?_⟩
        cases same
        exact
          { edges := ⟨arcs, stored, sound.files _ file there arcs stored counts.2.symm⟩
            vertices := by
              rw [counts.1]
              exact room }
      · exact ⟨none, _, rfl, fun _ _ kept => get_of_keep kept,
          fun _ absurdity => by cases absurdity⟩
  obtain ⟨found, graph, opens, kept, current⟩ := fresh
  have files : ∀ name file, graph.get? name = some file → ∀ arcs,
      relationArcs db (csrKeyOf name) = .ok arcs → arcs.length = file.num_edges →
        buildReader name.reverse arcs file.num_vertices = .ok file := fun name file there =>
    sound.files name file (kept name file there)
  rw [openReader, Call.run_bind, opens]
  cases found with
  | some file =>
    refine ⟨_, graph, rfl, sound.withFiles files, fun other same => ?_⟩
    cases same
    exact current file rfl
  | none =>
    dsimp only
    rw [Call.run_bind, Call.run_ofExcept]
    cases built : buildReader reverse arcs count.toNat with
    | error raised =>
      exact ⟨_, graph, rfl, sound.withFiles files, fun _ absurdity => by cases absurdity⟩
    | ok file =>
      obtain ⟨vertices, _⟩ := buildReader_ok built
      have made : buildReader reverse arcs file.num_vertices = .ok file := by rw [vertices, built]
      refine ⟨_, graph.set { relation := key.1, reverse, snapshot_lsn := key.2 } file, rfl,
        sound.withFiles ?_, ?_⟩
      · intro name other listed otherArcs otherStored counts
        rw [Dict.get_set] at listed
        split at listed
        · next here =>
          cases listed
          rw [here] at otherStored ⊢
          rw [Except.ok.inj (otherStored.symm.trans stored)]
          exact made
        · exact files name other listed otherArcs otherStored counts
      · intro other same
        cases same
        refine ⟨⟨arcs, stored, made⟩, ?_⟩
        rw [vertices]
        exact room

theorem reader_record (entry : CsrEntry) (reverse other : Bool) (file : CsrFile) :
    (entry.record reverse file).reader other =
      if other = reverse then some file else entry.reader other := by
  cases reverse <;> cases other <;> rfl

theorem entryAt_current {db : Database} (sound : Sound db) {key : CsrKey} {reverse : Bool}
    {file : CsrFile} (found : (entryAt db key).reader reverse = some file) :
    IsCurrent db key reverse file := by
  rw [entryAt] at found
  cases cached : db.csr_cache.get? key with
  | none =>
    rw [cached] at found
    cases reverse <;> cases found
  | some entry =>
    rw [cached] at found
    exact sound.readers key entry cached reverse file found

/-- The reader in one direction is current, and the handle stays sound. -/
theorem directedReader_run {db : Database} (sound : Sound db) {key : CsrKey} {arcs : List Arc}
    {count : Int} (stored : relationArcs db key = .ok arcs)
    (counted : globalVertexCount greatest db = .ok count) (reverse needed : Bool) :
    ∃ result graph cache, Call.run (directedReader key reverse needed arcs count.toNat) db =
        (result, db.withReaders graph cache) ∧ Sound (db.withReaders graph cache) ∧
      ∀ file, result = .ok (some file) → IsCurrent db key reverse file := by
  rw [directedReader, Call.run_bind, Call.run_ask]
  dsimp only
  split
  · obtain ⟨result, graph, opens, later, current⟩ := openReader_run sound stored counted reverse
    rw [Call.run_bind, opens]
    cases result with
    | error raised => exact ⟨_, graph, _, rfl, later, fun _ absurdity => nomatch absurdity⟩
    | ok file =>
      refine ⟨_, graph, _, rfl, ⟨?_, later.files⟩, fun other same => ?_⟩
      · intro other entry kept direction found listed
        have cached : (db.csr_cache.set key ((entryAt db key).record reverse file)).get? other =
            some entry := kept
        rw [Dict.get_set] at cached
        split at cached
        · next here =>
          cases cached
          rw [reader_record] at listed
          rw [here]
          split at listed
          · next same =>
            cases listed
            rw [same]
            exact (current file rfl).withReaders _ _
          · exact (entryAt_current sound listed).withReaders _ _
        · exact (sound.readers other entry cached direction found listed).withReaders _ _
      · cases same
        exact current file rfl
  · exact ⟨_, db.graph, db.csr_cache, rfl, sound, fun file found =>
      entryAt_current sound (Except.ok.inj found)⟩

variable (greatest) in
/-- The readers of a relation are current, and the handle stays sound. -/
theorem readersForRelation_run {db : Database} (sound : Sound db) (relation direction : String)
    (snapshot_lsn : Option Nat) :
    ∃ result graph cache, Call.run (readersForRelation greatest relation direction snapshot_lsn) db =
        (result, db.withReaders graph cache) ∧ Sound (db.withReaders graph cache) ∧
      ∀ forward reverse, result = .ok (forward, reverse) →
        (∀ file, forward = some file → IsCurrent db (relation, snapshot_lsn) false file) ∧
        ∀ file, reverse = some file → IsCurrent db (relation, snapshot_lsn) true file := by
  have raises : ∀ raised : Raised, ∃ result graph cache,
      ((.error raised, db) : Except Raised (Option CsrFile × Option CsrFile) × Database) =
        (result, db.withReaders graph cache) ∧ Sound (db.withReaders graph cache) ∧
      ∀ forward reverse, result = .ok (forward, reverse) →
        (∀ file, forward = some file → IsCurrent db (relation, snapshot_lsn) false file) ∧
        ∀ file, reverse = some file → IsCurrent db (relation, snapshot_lsn) true file :=
    fun raised => ⟨_, db.graph, db.csr_cache, rfl, sound, fun _ _ absurdity => nomatch absurdity⟩
  rw [readersForRelation, Call.run_bind, Call.run_ofExcept]
  cases refuse (direction ∉ ["out", "in", "both"]) _ with
  | error raised => exact raises raised
  | ok _ =>
    dsimp only
    rw [Call.run_bind, Call.run_ask]
    dsimp only
    split
    · refine ⟨_, db.graph, db.csr_cache, rfl, sound, ?_⟩
      intro forward reverse answer
      cases answer
      exact ⟨fun file (found : (entryAt db (relation, snapshot_lsn)).reader false = some file) =>
          entryAt_current sound found,
        fun file (found : (entryAt db (relation, snapshot_lsn)).reader true = some file) =>
          entryAt_current sound found⟩
    · rw [Call.run_bind, Call.run_ask]
      cases stored : relationArcs db (relation, snapshot_lsn) with
      | error raised => exact raises raised
      | ok arcs =>
        dsimp only
        rw [Call.run_bind, Call.run_ask]
        cases counted : globalVertexCount greatest db with
        | error raised => exact raises raised
        | ok count =>
          dsimp only
          obtain ⟨first, graph, cache, opens, later, forwardCurrent⟩ := directedReader_run sound
            stored counted false (decide (direction = "out" ∨ direction = "both"))
          rw [Call.run_bind, opens]
          cases first with
          | error raised =>
            exact ⟨_, graph, cache, rfl, later, fun _ _ absurdity => nomatch absurdity⟩
          | ok forward =>
            dsimp only
            -- the files and readers do not change what is stored
            obtain ⟨second, graph, cache, reopens, last, reverseCurrent⟩ := directedReader_run later
              (show relationArcs _ _ = _ from stored) (show globalVertexCount greatest _ = _ from counted)
              true (decide (direction = "in" ∨ direction = "both"))
            rw [Call.run_bind, reopens]
            cases second with
            | error raised =>
              exact ⟨_, graph, cache, rfl, last, fun _ _ absurdity => nomatch absurdity⟩
            | ok reverse =>
              refine ⟨_, graph, cache, rfl, last, ?_⟩
              intro one other answer
              cases answer
              refine ⟨fun file found => forwardCurrent file (congrArg Except.ok found), ?_⟩
              intro file found
              have current := reverseCurrent file (congrArg Except.ok found)
              exact ⟨current.edges, current.vertices⟩

/-! ## Runs -/

/-- No reader and no file that the step leaves is over other rows: the readers in the handle are of
relations whose visible edges are those from before the step, and it brings no new node while there
are any; a file with as many edges as there are now is of a relation whose visible edges are those
from before the step. -/
structure Spares (before after : Database) : Prop where
  edges : ∀ key ∈ after.csr_cache.keys, relationArcs after key = relationArcs before key
  nodes : after.csr_cache.keys ≠ [] → ∀ id, InUse after id → InUse before id
  files : ∀ name file, after.graph.get? name = some file → ∀ arcs,
    relationArcs after (csrKeyOf name) = .ok arcs → arcs.length = file.num_edges →
      relationArcs before (csrKeyOf name) = .ok arcs

theorem Sound.spared {before after : Database} (sound : Sound before) (sheds : Sheds before after)
    (spares : Spares before after) : Sound after := by
  constructor
  · intro key entry kept reverse file found
    have listed : key ∈ after.csr_cache.keys := (Dict.mem_keys _ _).mpr ⟨entry, kept⟩
    have current := sound.readers key entry (sheds.readers key entry kept) reverse file found
    refine ⟨?_, fun id used => current.vertices id (spares.nodes (List.ne_nil_of_mem listed) id used)⟩
    rw [spares.edges key listed]
    exact current.edges
  · intro name file kept arcs stored counts
    exact sound.files name file (sheds.files name file kept) arcs
      (spares.files name file kept arcs stored counts) counts

/-- A bundle that has been opened again: its handle keeps nothing. -/
def reopened (db : Database) : Database :=
  { db with
    csr_cache := Dict.empty
    external_id_map_cache := Dict.empty
    typed_adjacency_cache := Dict.empty }

variable (runtime greatest) in
/-- The databases that a run reaches whose writes and stops spare readers and files. A stop within
a read leaves what a read in one direction and a removal of files leave. -/
inductive Reaches (start : Database) : Database → Prop where
  | start : Reaches start start
  | write {db : Database} (reached : Reaches start db) (write : Write)
      (spares : Spares db (write.after runtime db)) : Reaches start (write.after runtime db)
  | stop {db stopped : Database} (reached : Reaches start db) (steps : FileSteps db stopped)
      (spares : Spares db stopped.reopened) : Reaches start stopped.reopened
  | read {db : Database} (reached : Reaches start db) (relation direction : String)
      (snapshot_lsn : Option Nat) :
      Reaches start (Call.run (readersForRelation greatest relation direction snapshot_lsn) db).2

theorem Reaches.sound {start db : Database} (reached : Reaches runtime greatest start db)
    (unread : start.graph = Dict.empty ∧ start.csr_cache = Dict.empty) : Sound db := by
  induction reached with
  | start =>
    constructor
    · intro key entry kept
      rw [unread.2] at kept
      cases kept
    · intro name file kept
      rw [unread.1] at kept
      cases kept
  | write reached write spares inductionHypothesis =>
    exact inductionHypothesis.spared (write.file_steps runtime _).sheds spares
  | stop reached steps spares inductionHypothesis =>
    exact inductionHypothesis.spared
      ⟨steps.sheds.files, fun _ _ kept => (nomatch kept), fun _ _ kept => (nomatch kept)⟩ spares
  | read reached relation direction snapshot_lsn inductionHypothesis =>
    obtain ⟨_, _, _, reads, later, _⟩ :=
      readersForRelation_run greatest inductionHypothesis relation direction snapshot_lsn
    rw [reads]
    exact later

end Readers

/-! ## One edge -/

/-- Python's `max` where only integers occur. -/
def plainGreatest : Greatest Runtime.plain where
  max _ := .error (.typeError "")
  above _ _ _ _ found := nomatch found

def storePerson (name : String) : Write :=
  .insert_node_table [Dict.ofEntries [("node_id", .str name), ("type", .str "Person")]]
    "node_id" "type"

/-- The edges of a table with one key column. -/
def edgeOf (source target : String) : Table :=
  Table.build
    [{ name := "edge_id", type := .string }, { name := "src", type := .string },
      { name := "dst", type := .string }, { name := "type", type := .string }] (by decide)
    [fun name => if name = "edge_id" then .str "first" else if name = "src" then .str source
      else if name = "dst" then .str target else .str "knows"]

def storeEdge (source target : String) : Write :=
  .upsert_edge_table_arrow (edgeOf source target) "edge_id" {} true

/-- The first part of an upsert of edges, up to the removal of the CSR files of its relation. -/
def upsertUpToUnlink (table : Table) : Method Unit := do
  let collected ← Call.ask fun db =>
    db.list_edge_stores.foldlM (collectEdges "edge_id" "type" db) {}
  let id_map ← externalIdMap Runtime.plain "node_id"
  let (grouped, _) ← Call.ofExcept (planEdges table "edge_id" {} true collected id_map)
  (sortedGroups grouped).foldlM (fun _ group => do
    let _ ← defineProperty group.1 none
    replaceEdgeRows Runtime.plain group.1 group.2) ()

/-- Two persons. -/
def persons : Database :=
  (storePerson "bob").after Runtime.plain
    ((storePerson "ada").after Runtime.plain (Database.create "graph.crcl"))

/-- Two persons of whom one knows the other, and the edges have been read. -/
def acquainted : Database :=
  (Call.run (readersForRelation plainGreatest "knows" "out" none)
    ((storeEdge "ada" "bob").after Runtime.plain persons)).2

/-- The edge is turned round. -/
def turned : Database := (storeEdge "bob" "ada").after Runtime.plain acquainted

/-- The process stops while the edge is turned round, before the CSR files are removed. -/
def interrupted : Database := (Call.run (upsertUpToUnlink (edgeOf "bob" "ada")) acquainted).2

/-- The adjacency of one edge between two nodes. -/
def oneArc (src dst : Nat) : CsrFile := CsrFile.build true [{ src, dst, eid := 0 }] 2

theorem spares_of_nothing {before after : Database} (noReaders : after.csr_cache.keys = [])
    (noFiles : after.graph.keys = []) : Spares before after where
  edges key listed := by
    rw [noReaders] at listed
    cases listed
  nodes some := absurd noReaders some
  files name file kept := by
    have listed : name ∈ after.graph.keys := (Dict.mem_keys _ _).mpr ⟨file, kept⟩
    rw [noFiles] at listed
    cases listed

theorem acquainted_reached :
    Reaches Runtime.plain plainGreatest (Database.create "graph.crcl") acquainted := by
  refine .read (.write (.write (.write .start _ (spares_of_nothing ?_ ?_)) _
    (spares_of_nothing ?_ ?_)) _ (spares_of_nothing ?_ ?_)) _ _ _ <;> decide +kernel

theorem turned_answer : (Call.run (readersForRelation plainGreatest "knows" "out" none) turned).1 =
    .ok (some (oneArc 1 0), none) := by decide +kernel

theorem interrupted_passed : FileSteps acquainted interrupted := by
  have relates : Call.Relates FileSteps (upsertUpToUnlink (edgeOf "bob" "ada")) := by
    refine Call.Relates.bind (Call.Relates.ask _) fun collected => ?_
    refine Call.Relates.bind (FileSteps.insertion.externalIdMap _ _) fun id_map => ?_
    refine Call.Relates.bind (Call.Relates.ofExcept _) fun ⟨grouped, _⟩ => ?_
    refine Call.Relates.foldlM _ (fun _ group _ => ?_) _
    refine Call.Relates.bind (FileSteps.insertion.define_property _ _) fun _ => ?_
    refine Call.Relates.bind (Call.Relates.ask _) fun prop => ?_
    refine Call.Relates.bind (FileSteps.removeEdges _) fun _ => ?_
    refine Call.Relates.bind (FileSteps.createEdges _ _) fun _ => ?_
    split
    · exact Call.Relates.pure _
    · refine Call.Relates.bind (Call.Relates.ofExcept _) fun table => ?_
      exact Call.Relates.bind (FileSteps.appendEdges _ _ _) fun _ => Call.Relates.pure _
  exact relates acquainted

end CaracalDB.Database
