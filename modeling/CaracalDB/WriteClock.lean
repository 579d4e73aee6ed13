import CaracalDB.Recovery
import CaracalDB.Snapshots

/-!
# The write clock

The manifest's `last_lsn` is the clock of the row stores; checkpoints and recovery
write it too, from the counter of the log. An insertion moves the clock forward and
dates its rows with it, and recovery takes the larger of the two counters. A
checkpoint takes the log's, which moves the clock back where the log is behind.
-/

namespace CaracalDB

namespace Database

/-- The rows in a directory of stores. -/
def rowsIn {id_column : String} (stores : Dict String (Store id_column)) (name : String) :
    List StoredRow :=
  match stores.get? name with
  | none => []
  | some store => store.rows

/-- The rows of a directory are old ones or were written later than the clock was. -/
def DatedAfter {id_column : String} (clock : Nat) (before after : Dict String (Store id_column)) :
    Prop :=
  ∀ name, ∀ row ∈ rowsIn after name, row ∈ rowsIn before name ∨ clock < row.created_lsn

/-- The clock does not move back, and new rows are dated after it. -/
def Dated (before after : Database) : Prop :=
  before.clock ≤ after.clock ∧ DatedAfter before.clock before.nodes after.nodes ∧
    DatedAfter before.clock before.edges after.edges

section DatedAfter

variable {id_column : String} {clock : Nat} {first second third : Dict String (Store id_column)}

theorem DatedAfter.refl : DatedAfter clock first first := fun _ _ member => Or.inl member

theorem DatedAfter.trans {later : Nat} (early : DatedAfter clock first second)
    (late : DatedAfter later second third) (forward : clock ≤ later) :
    DatedAfter clock first third := by
  intro name row member
  rcases late name row member with kept | new
  · exact early name row kept
  · exact Or.inr (Nat.lt_of_le_of_lt forward new)

/-- A directory whose rows are old or new changes a database of stores to one that is dated. -/
theorem datedAfter_set {name : String} {store : Store id_column}
    (rows : ∀ row ∈ store.rows, row ∈ rowsIn first name ∨ clock < row.created_lsn) :
    DatedAfter clock first (first.set name store) := by
  intro other row member
  rw [rowsIn, Dict.get_set] at member
  by_cases here : other = name
  · rw [if_pos here] at member
    exact here ▸ rows row member
  · rw [if_neg here] at member
    exact Or.inl member

theorem datedAfter_create {name iri : String} :
    DatedAfter clock first (first.set name (Store.create iri)) :=
  datedAfter_set fun _ member => absurd member List.not_mem_nil

theorem datedAfter_push {name : String} {store : Store id_column} {batch : Table}
    {created_lsn : Nat} (stored : first.get? name = some store) (accepts : store.Accepts batch)
    (later : clock < created_lsn) :
    DatedAfter clock first (first.set name (store.push batch created_lsn accepts)) := by
  apply datedAfter_set
  intro row member
  rw [Store.rows_push, List.mem_append] at member
  rcases member with old | new
  · left
    rw [rowsIn, stored]
    exact old
  · right
    rw [Store.chunkOf_created new]
    exact later

theorem datedAfter_erase {name : String} : DatedAfter clock first (first.erase name) := by
  intro other row member
  rw [rowsIn, Dict.get_erase] at member
  by_cases here : other = name
  · rw [if_pos here] at member
    cases member
  · rw [if_neg here] at member
    exact Or.inl member

theorem datedAfter_empty : DatedAfter clock first Dict.empty :=
  fun _ _ member => absurd member List.not_mem_nil

end DatedAfter

instance : IsPreorder Database Dated where
  refl _ := ⟨Nat.le_refl _, DatedAfter.refl, DatedAfter.refl⟩
  trans _ _ _ early late :=
    ⟨Nat.le_trans early.1 late.1, early.2.1.trans late.2.1 early.1,
      early.2.2.trans late.2.2 early.1⟩

/-! ## Writes -/

section Steps

open Call

theorem dated_createNodes (iri name : String) : Relates Dated (createNodes iri name) := by
  apply Relates.attempt
  intro db _ after happens
  cases opened : db.nodeStoreOf iri name with
  | error raised =>
    rw [opened] at happens
    cases happens
  | ok found =>
    rw [opened] at happens
    cases found with
    | some store =>
      cases happens
      exact Std.Refl.refl db
    | none =>
      cases happens
      exact ⟨Nat.le_refl _, datedAfter_create, DatedAfter.refl⟩

theorem dated_createEdges (iri name : String) : Relates Dated (createEdges iri name) := by
  apply Relates.attempt
  intro db _ after happens
  cases opened : db.edgeStoreOf iri name with
  | error raised =>
    rw [opened] at happens
    cases happens
  | ok found =>
    rw [opened] at happens
    cases found with
    | some store =>
      cases happens
      exact Std.Refl.refl db
    | none =>
      cases happens
      exact ⟨Nat.le_refl _, DatedAfter.refl, datedAfter_create⟩

theorem dated_appendNodes (name : String) (table : Table) :
    Relates Dated (appendNodes name table) := by
  intro db
  rw [appendNodes_run]
  have ticked : db.clock < db.tick.clock := Nat.lt_succ_self _
  cases happens : db.tick.appendNodesAt name table with
  | error raised => exact ⟨ticked.le, DatedAfter.refl, DatedAfter.refl⟩
  | ok pair =>
    obtain ⟨ref, after⟩ := pair
    obtain ⟨store, stored, _, _, accepts, rfl⟩ := appendNodesAt_ok happens
    exact ⟨ticked.le, datedAfter_push stored accepts ticked, DatedAfter.refl⟩

theorem dated_appendEdges (name : String) (table : Table) (repeated : List String) :
    Relates Dated (appendEdges name table repeated) := by
  intro db
  rw [appendEdges_run]
  have ticked : db.clock < db.tick.clock := Nat.lt_succ_self _
  cases happens : db.tick.appendEdgesAt name table repeated with
  | error raised => exact ⟨ticked.le, DatedAfter.refl, DatedAfter.refl⟩
  | ok pair =>
    obtain ⟨ref, after⟩ := pair
    obtain ⟨store, stored, _, _, accepts, rfl⟩ := appendEdgesAt_ok happens
    exact ⟨ticked.le, DatedAfter.refl, datedAfter_push stored accepts ticked⟩

/-- Every step of an insertion moves the clock forward only. -/
theorem dated_steps : WriteSteps Dated where
  define_class _ := fun _ => ⟨Nat.le_refl _, DatedAfter.refl, DatedAfter.refl⟩
  define_property _ _ := fun _ => ⟨Nat.le_refl _, DatedAfter.refl, DatedAfter.refl⟩
  create_nodes := dated_createNodes
  create_edges := dated_createEdges
  append_nodes := dated_appendNodes
  append_edges := dated_appendEdges
  invalidate_all := fun _ => ⟨Nat.le_refl _, DatedAfter.refl, DatedAfter.refl⟩
  invalidate_relation _ := fun _ => ⟨Nat.le_refl _, DatedAfter.refl, DatedAfter.refl⟩
  remember _ _ _ := ⟨Nat.le_refl _, DatedAfter.refl, DatedAfter.refl⟩

theorem dated_removeNodes (name : String) : Relates Dated (removeNodes name) := by
  rw [removeNodes]
  split
  · exact Relates.change fun db => ⟨Nat.le_refl _, datedAfter_empty, DatedAfter.refl⟩
  · split
    · exact Relates.bind
        (Relates.change fun db => ⟨Nat.le_refl _, datedAfter_empty, datedAfter_empty⟩)
        fun _ => Relates.raise _
    · exact Relates.change fun db => ⟨Nat.le_refl _, datedAfter_erase, DatedAfter.refl⟩

theorem dated_removeEdges (name : String) : Relates Dated (removeEdges name) := by
  rw [removeEdges]
  split
  · exact Relates.change fun db => ⟨Nat.le_refl _, DatedAfter.refl, datedAfter_empty⟩
  · split
    · exact Relates.bind
        (Relates.change fun db => ⟨Nat.le_refl _, datedAfter_empty, datedAfter_empty⟩)
        fun _ => Relates.raise _
    · exact Relates.change fun db => ⟨Nat.le_refl _, DatedAfter.refl, datedAfter_erase⟩

theorem dated_createSnapshot (name : String) : Relates Dated (createSnapshot name) := by
  apply Relates.attempt
  intro db _ after happens
  split at happens
  · cases happens
  · split at happens
    · cases happens
    · cases happens
      exact ⟨Nat.le_refl _, DatedAfter.refl, DatedAfter.refl⟩

end Steps

end Database

/-! ## One handle and its log -/

/-- A database handle, the directory of its log and the handle on it. -/
structure Handle where
  db : Database
  directory : Log.Directory
  wal : Log.Wal

namespace Handle

variable {State : Type}

/-- What moves the clock or could: `append` is also what begins, commits and rolls back a
transaction. -/
inductive Operation (State : Type) where
  | write (write : Write)
  | append (kind : String) (payload : List UInt8)
  | create_snapshot (name : String)
  | checkpoint
  | recover (handlers : String → Option (Log.RedoHandler State)) (state : State)

/-- One operation. A call that raises leaves what it did before raising. -/
def step (runtime : Runtime) (handle : Handle) : Operation State → Handle
  | .write write => { handle with db := write.after runtime handle.db }
  | .append kind payload =>
      match Log.append handle.directory handle.wal kind payload with
      | .error _ => handle
      | .ok ((directory, wal), _) => { handle with directory, wal }
  | .create_snapshot name =>
      { handle with db := (Call.run (Database.createSnapshot name) handle.db).2 }
  | .checkpoint =>
      let ((bundle, directory, wal), _) :=
        Log.checkpoint handle.db.bundle handle.directory handle.wal
      { db := { handle.db with bundle }, directory, wal }
  | .recover handlers state =>
      match Log.recover handle.db.bundle handle.directory handlers state with
      | .error _ => handle
      | .ok (_, bundle, _) => { handle with db := { handle.db with bundle } }

/-- The handle after a list of operations. -/
def run (runtime : Runtime) (operations : List (Operation State)) (handle : Handle) : Handle :=
  operations.foldl (step runtime) handle

/-- A checkpoint is not made while its marker would be behind the clock; one that is refused
because the log is behind the last checkpoint may be. -/
def Allows (handle : Handle) : Operation State → Prop
  | .checkpoint => handle.db.clock ≤ handle.wal.last_lsn + 1 ∨
      handle.wal.last_lsn < handle.db.bundle.manifest.checkpoint_lsn
  | _ => True

/-- Every operation of a list is allowed where it is made. -/
def AllowsAll (runtime : Runtime) : List (Operation State) → Handle → Prop
  | [], _ => True
  | operation :: operations, handle =>
      handle.Allows operation ∧ AllowsAll runtime operations (handle.step runtime operation)

end Handle

namespace Log

/-- The marker of a checkpoint has the next LSN of the log. -/
theorem checkpoint_clock (bundle : Bundle) (directory : Directory) (wal : Wal) :
    (checkpoint bundle directory wal).1.1 = bundle ∨
      (¬ wal.last_lsn < bundle.manifest.checkpoint_lsn ∧
        (checkpoint bundle directory wal).1.1.manifest.last_lsn = wal.last_lsn + 1) := by
  rw [checkpoint]
  split
  · exact Or.inl rfl
  · next current =>
    cases appended : append directory wal CHECKPOINT_KIND [] with
    | error raised => exact Or.inl rfl
    | ok answer =>
      obtain ⟨⟨grown, moved⟩, marker⟩ := answer
      obtain ⟨encoded, _, same⟩ := except_bind_ok appended
      have marks : wal.last_lsn + 1 = marker := congrArg Prod.snd (Except.ok.inj same)
      exact Or.inr ⟨current, marks.symm⟩

theorem replay_seen {State : Type} (handlers : String → Option (RedoHandler State))
    (records : List WalRecord) (replay after : Replay State)
    (done : records.foldlM (replayRecord handlers) replay = .ok after) :
    replay.last_seen ≤ after.last_seen := by
  induction records generalizing replay with
  | nil =>
    cases done
    exact Nat.le_refl _
  | cons record records inductionHypothesis =>
    rw [List.foldlM_cons] at done
    obtain ⟨middle, first, rest⟩ := except_bind_ok done
    refine Nat.le_trans ?_ (inductionHypothesis middle rest)
    rw [replayRecord] at first
    split at first
    · cases first
      exact Nat.le_max_left _ _
    · split at first
      · cases first
        split <;> exact Nat.le_max_left _ _
      · obtain ⟨state, _, answered⟩ := except_bind_ok first
        cases answered
        exact Nat.le_max_left _ _

/-- Recovery does not move the clock back. -/
theorem recover_clock {State : Type} {bundle after : Bundle} {directory : Directory}
    {handlers : String → Option (RedoHandler State)} {state left : State} {report : RecoveryReport}
    (recovered : recover bundle directory handlers state = .ok (report, after, left)) :
    bundle.manifest.last_lsn ≤ after.manifest.last_lsn := by
  obtain ⟨wal, _, recovered⟩ := except_bind_ok recovered
  obtain ⟨records, _, recovered⟩ := except_bind_ok recovered
  obtain ⟨replay, replayed, recovered⟩ := except_bind_ok recovered
  have seen := replay_seen handlers records _ replay replayed
  have same := (Prod.mk.inj (Prod.mk.inj (Except.ok.inj recovered)).2).1
  rw [← same]
  split
  · exact seen
  · exact Nat.le_refl _

end Log

namespace Handle

open Database

variable {State : Type}

/-- An allowed operation does not move the clock back and dates new rows after it. -/
theorem dated_step (runtime : Runtime) (handle : Handle) (operation : Operation State)
    (allowed : handle.Allows operation) : Dated handle.db (handle.step runtime operation).db := by
  cases operation with
  | write write =>
    exact Write.relates_write dated_steps dated_removeNodes dated_removeEdges runtime write handle.db
  | append kind payload =>
    rw [step]
    split <;> exact Std.Refl.refl handle.db
  | create_snapshot name => exact dated_createSnapshot name handle.db
  | checkpoint =>
    have marks := Log.checkpoint_clock handle.db.bundle handle.directory handle.wal
    refine ⟨?_, DatedAfter.refl, DatedAfter.refl⟩
    show handle.db.bundle.manifest.last_lsn ≤
      (Log.checkpoint handle.db.bundle handle.directory handle.wal).1.1.manifest.last_lsn
    rcases marks with same | ⟨current, marker⟩
    · rw [same]
    · rw [marker]
      exact allowed.resolve_right current
  | recover handlers state =>
    rw [step]
    split
    · exact Std.Refl.refl handle.db
    · next recovered => exact ⟨Log.recover_clock recovered, DatedAfter.refl, DatedAfter.refl⟩

theorem dated_run (runtime : Runtime) (operations : List (Operation State)) (handle : Handle)
    (allowed : AllowsAll runtime operations handle) :
    Dated handle.db (handle.run runtime operations).db := by
  induction operations generalizing handle with
  | nil => exact Std.Refl.refl handle.db
  | cons operation operations inductionHypothesis =>
    exact IsTrans.trans _ _ _ (dated_step runtime handle operation allowed.1)
      (inductionHypothesis _ allowed.2)

/-- A new bundle and the first handle on its log. -/
def create (path : String) : Handle where
  db := Database.create path
  directory := { path := path ++ "/wal", segments := [] }
  wal := { roll_size := Log.DEFAULT_ROLL_SIZE, segment := none, last_lsn := 0 }

/-- Storing one person. -/
def storePerson (key : String) : Operation Unit :=
  .write (.insert_node_table [Dict.ofEntries [("node_id", .str key), ("type", .str "Person")]]
    "node_id" "type")

end Handle

end CaracalDB
