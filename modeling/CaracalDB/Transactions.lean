import CaracalDB.Dict
import CaracalDB.Diagnostics
import CaracalDB.Loops
import Mathlib.Data.List.Pairwise
import Mathlib.Algebra.GroupWithZero.Nat

/-!
# Transactions

The manager numbers transactions, logs their boundaries and keeps the LSN of the
last committer of every key. Transactions are objects that their users hold, so a
write set may change at any time, also after a commit. A state has all objects
that were begun, and a handle is the position of one.

The last committer of a key is the newest commit with the key in its write set.
A commit that passes the check has a snapshot that is not older, so of two
commits of one key the later has the earlier in its snapshot.
-/

namespace CaracalDB.Tx

def BEGIN_KIND : String := "TX_BEGIN"

def COMMIT_KIND : String := "TX_COMMIT"

def ROLLBACK_KIND : String := "TX_ABORT"

/-- A record of the log, with its payload as the JSON object that it encodes. -/
structure Record where
  lsn : Nat
  prev_lsn : Nat
  kind : String
  payload : List (String × Nat)
deriving DecidableEq

/-- What a log holds, and its last LSN. -/
structure Wal where
  records : List Record
  last_lsn : Nat

/-- `Wal.append(kind, payload)`; an LSN has 64 bits. -/
def Wal.append (wal : Wal) (kind : String) (payload : List (String × Nat)) :
    Except Raised (Nat × Wal) :=
  let next_lsn := wal.last_lsn + 1
  if next_lsn < 256 ^ 8 then
    .ok (next_lsn,
      { records := wal.records ++ [{ lsn := next_lsn, prev_lsn := wal.last_lsn, kind, payload }]
        last_lsn := next_lsn })
  else .error .structError

theorem Wal.append_ok {wal next : Wal} {kind : String} {payload : List (String × Nat)} {lsn : Nat}
    (appended : wal.append kind payload = .ok (lsn, next)) :
    lsn = wal.last_lsn + 1 ∧ next.last_lsn = lsn ∧ next.records = wal.records ++
      [{ lsn, prev_lsn := wal.last_lsn, kind, payload }] := by
  rw [Wal.append] at appended
  split at appended
  · cases appended
    exact ⟨rfl, rfl, rfl⟩
  · cases appended

theorem Wal.append_room {wal next : Wal} {kind : String} {payload : List (String × Nat)} {lsn : Nat}
    (appended : wal.append kind payload = .ok (lsn, next)) : wal.last_lsn + 1 < 256 ^ 8 := by
  by_contra full
  rw [Wal.append, if_neg full] at appended
  cases appended

theorem Wal.append_grows {wal next : Wal} {kind : String} {payload : List (String × Nat)} {lsn : Nat}
    (appended : wal.append kind payload = .ok (lsn, next)) : wal.last_lsn ≤ next.last_lsn := by
  obtain ⟨next_lsn, last, _⟩ := Wal.append_ok appended
  rw [last, next_lsn]
  exact Nat.le_succ _

structure Transaction (Key : Type) where
  tx_id : Nat
  snapshot : Nat
  writes : List (String × Key)
  committed_lsn : Option Nat

section Manager

variable {Key : Type} [DecidableEq Key]

/-- `Transaction.record_write(table, key)` -/
def Transaction.recordWrite (tx : Transaction Key) (table : String) (key : Key) : Transaction Key :=
  if (table, key) ∈ tx.writes then tx else { tx with writes := tx.writes ++ [(table, key)] }

structure Manager (Key : Type) where
  next_tx : Nat
  committed_writes : Dict (String × Key) Nat

/-- `TransactionManager(wal)` -/
def Manager.create : Manager Key := { next_tx := 1, committed_writes := Dict.empty }

/-- A log, its manager and the transactions that were begun. -/
structure State (Key : Type) where
  wal : Wal
  manager : Manager Key
  transactions : List (Transaction Key)

def State.start (wal : Wal) : State Key := { wal, manager := Manager.create, transactions := [] }

/-- `begin(snapshot)`, with the handle of the new transaction. -/
def beginTx (state : State Key) (snapshot : Option Nat) : State Key × Except Raised Nat :=
  let tx_id := state.manager.next_tx
  let manager := { state.manager with next_tx := state.manager.next_tx + 1 }
  let lsn_high := snapshot.getD state.wal.last_lsn
  match state.wal.append BEGIN_KIND [("tx_id", tx_id), ("snapshot_lsn", lsn_high)] with
  | .error raised => ({ state with manager }, .error raised)
  | .ok (_, wal) =>
      ({ wal, manager, transactions := state.transactions ++
          [{ tx_id, snapshot := lsn_high, writes := [], committed_lsn := none }] },
        .ok state.transactions.length)

/-- The first key that another transaction committed after the snapshot, with its LSN. -/
def Manager.conflict (manager : Manager Key) (tx : Transaction Key) :
    Option ((String × Key) × Nat) :=
  tx.writes.findSome? fun key =>
    match manager.committed_writes.get? key with
    | some last_committed =>
        if last_committed > tx.snapshot then some (key, last_committed) else none
    | none => none

/-- `TxConflictError` of a key, given the text of the key. -/
def conflictError (text : String) (last_committed lsn_high : Nat) : Raised :=
  .caracal
    { code := "CDB-8002"
      message := "write-write conflict on " ++ text ++
        ": another transaction committed at lsn=" ++ toString last_committed ++
        " after this transaction's snapshot lsn=" ++ toString lsn_high
      hint := some "re-read the latest snapshot and retry the transaction" }

/-- The loop of `commit(tx)` that notes the LSN under every written key. -/
def Manager.note (manager : Manager Key) (keys : List (String × Key)) (lsn : Nat) : Manager Key :=
  { manager with
    committed_writes := keys.foldl (fun map key => map.set key lsn) manager.committed_writes }

variable (repr : String × Key → String)

/-- `commit(tx)` of one transaction. -/
def commitTx (wal : Wal) (manager : Manager Key) (tx : Transaction Key) :
    Except Raised (Nat × Wal × Manager Key × Transaction Key) :=
  match manager.conflict tx with
  | some (key, last_committed) => .error (conflictError (repr key) last_committed tx.snapshot)
  | none => do
      let (commit_lsn, wal) ← wal.append COMMIT_KIND
        [("tx_id", tx.tx_id), ("writes", tx.writes.length)]
      return (commit_lsn, wal, manager.note tx.writes commit_lsn,
        { tx with committed_lsn := some commit_lsn })

/-- `commit(tx)` of the transaction with a handle. -/
def commit (state : State Key) (handle : Nat) : State Key × Except Raised Nat :=
  match state.transactions[handle]? with
  | none => (state, .error (.typeError "no transaction"))
  | some tx =>
      match commitTx repr state.wal state.manager tx with
      | .error raised => (state, .error raised)
      | .ok (commit_lsn, wal, manager, tx) =>
          ({ wal, manager, transactions := state.transactions.set handle tx }, .ok commit_lsn)

/-- `rollback(tx)`; the write set is emptied even where the log cannot be written. -/
def rollback (state : State Key) (handle : Nat) : State Key × Except Raised Nat :=
  match state.transactions[handle]? with
  | none => (state, .error (.typeError "no transaction"))
  | some tx =>
      let transactions := state.transactions.set handle { tx with writes := [] }
      match state.wal.append ROLLBACK_KIND [("tx_id", tx.tx_id)] with
      | .error raised => ({ state with transactions }, .error raised)
      | .ok (lsn, wal) => ({ state with wal, transactions }, .ok lsn)

/-- Another user of the log appends a record. -/
def otherAppend (state : State Key) (kind : String) (payload : List (String × Nat)) : State Key :=
  match state.wal.append kind payload with
  | .error _ => state
  | .ok (_, wal) => { state with wal }

/-! ## First committer wins -/

inductive Action (Key : Type) where
  | beginTx (snapshot : Option Nat)
  | recordWrite (handle : Nat) (table : String) (key : Key)
  | commit (handle : Nat)
  | rollback (handle : Nat)
  | otherAppend (kind : String) (payload : List (String × Nat))

/-- A commit that succeeded, with what its transaction was then. -/
structure Commit (Key : Type) where
  handle : Nat
  lsn : Nat
  snapshot : Nat
  writes : List (String × Key)

/-- What a commit that succeeds adds to the history. -/
def committed (state : State Key) (handle : Nat) : List (Commit Key) :=
  match state.transactions[handle]?, (commit repr state handle).2 with
  | some tx, .ok lsn => [{ handle, lsn, snapshot := tx.snapshot, writes := tx.writes }]
  | _, _ => []

def step (state : State Key) : Action Key → State Key
  | .beginTx snapshot => (beginTx state snapshot).1
  | .recordWrite handle table key =>
      { state with transactions := state.transactions.modify handle (·.recordWrite table key) }
  | .commit handle => (commit repr state handle).1
  | .rollback handle => (rollback state handle).1
  | .otherAppend kind payload => otherAppend state kind payload

/-- A run, with its commits in their order. -/
def run (state : State Key) (history : List (Commit Key)) :
    List (Action Key) → State Key × List (Commit Key)
  | [] => (state, history)
  | action :: actions =>
      let found := match action with
        | .commit handle => committed repr state handle
        | _ => []
      run (step repr state action) (history ++ found) actions

/-- The manager knows every commit, and each commit had the earlier ones of its keys in its
snapshot. -/
structure Sound (state : State Key) (history : List (Commit Key)) : Prop where
  logged : ∀ event ∈ history, event.lsn ≤ state.wal.last_lsn
  known : ∀ event ∈ history, ∀ key ∈ event.writes,
    ∃ lsn, state.manager.committed_writes.get? key = some lsn ∧ event.lsn ≤ lsn
  seen : history.Pairwise fun earlier later => earlier.lsn < later.lsn ∧
    ∀ key ∈ earlier.writes, key ∈ later.writes → earlier.lsn ≤ later.snapshot

variable {repr} {state : State Key} {history : List (Commit Key)}

theorem Manager.conflict_none {manager : Manager Key} {tx : Transaction Key}
    (free : manager.conflict tx = none) {key : String × Key} (member : key ∈ tx.writes) {lsn : Nat}
    (found : manager.committed_writes.get? key = some lsn) : lsn ≤ tx.snapshot := by
  have clear := List.findSome?_eq_none_iff.mp free key member
  rw [found] at clear
  by_contra newer
  rw [show (match (some lsn : Option Nat) with
    | some last_committed => if last_committed > tx.snapshot then some (key, last_committed) else none
    | none => none) = if lsn > tx.snapshot then some (key, lsn) else none from rfl,
    if_pos (Nat.lt_of_not_le newer)] at clear
  cases clear

/-- What a commit that succeeds does. -/
theorem commitTx_ok {wal next : Wal} {manager after : Manager Key} {tx done : Transaction Key}
    {lsn : Nat} (success : commitTx repr wal manager tx = .ok (lsn, next, after, done)) :
    manager.conflict tx = none ∧
      wal.append COMMIT_KIND [("tx_id", tx.tx_id), ("writes", tx.writes.length)] = .ok (lsn, next) ∧
      after = manager.note tx.writes lsn ∧
      done = { tx with committed_lsn := some lsn } := by
  rw [commitTx] at success
  cases clash : manager.conflict tx with
  | some found =>
    rw [clash] at success
    cases success
  | none =>
    rw [clash] at success
    obtain ⟨⟨commit_lsn, appended⟩, written, rest⟩ := except_bind_ok success
    cases rest
    exact ⟨rfl, written, rfl, rfl⟩

omit [DecidableEq Key] in
/-- A number is taken, and the transaction is logged and held if the log can be written. -/
theorem begin_cases (state : State Key) (snapshot : Option Nat) :
    (∃ raised, beginTx state snapshot = ({ state with manager :=
        { state.manager with next_tx := state.manager.next_tx + 1 } }, .error raised)) ∨
      ∃ lsn wal, state.wal.append BEGIN_KIND [("tx_id", state.manager.next_tx),
          ("snapshot_lsn", snapshot.getD state.wal.last_lsn)] = .ok (lsn, wal) ∧
        beginTx state snapshot =
          ({ wal, manager := { state.manager with next_tx := state.manager.next_tx + 1 },
              transactions := state.transactions ++
                [{ tx_id := state.manager.next_tx, snapshot := snapshot.getD state.wal.last_lsn,
                   writes := [], committed_lsn := none }] }, .ok state.transactions.length) := by
  rw [beginTx]
  cases outcome : state.wal.append BEGIN_KIND [("tx_id", state.manager.next_tx),
    ("snapshot_lsn", snapshot.getD state.wal.last_lsn)] with
  | error raised => exact .inl ⟨raised, rfl⟩
  | ok made => exact .inr ⟨made.1, made.2, rfl, rfl⟩

omit [DecidableEq Key] in
/-- A rollback empties the write set, and is logged if the log can be written. -/
theorem rollback_cases (state : State Key) (handle : Nat) :
    (∃ raised, rollback state handle = (state, .error raised)) ∨
      ∃ tx, state.transactions[handle]? = some tx ∧
        ((∃ raised, rollback state handle =
          ({ state with transactions := state.transactions.set handle { tx with writes := [] } },
            .error raised)) ∨
        ∃ lsn wal, state.wal.append ROLLBACK_KIND [("tx_id", tx.tx_id)] = .ok (lsn, wal) ∧
          rollback state handle =
            ({ state with
                wal
                transactions := state.transactions.set handle { tx with writes := [] } },
              .ok lsn)) := by
  rw [rollback]
  cases held : state.transactions[handle]? with
  | none => exact .inl ⟨_, rfl⟩
  | some tx =>
    refine .inr ⟨tx, rfl, ?_⟩
    cases outcome : state.wal.append ROLLBACK_KIND [("tx_id", tx.tx_id)] with
    | error raised => exact .inl ⟨raised, by simp only [outcome]⟩
    | ok made => exact .inr ⟨made.1, made.2, rfl, by simp only [outcome]⟩

/-- A commit is refused and changes nothing, or it is logged and noted. -/
theorem commit_cases (repr : String × Key → String) (state : State Key) (handle : Nat) :
    (∃ raised, commit repr state handle = (state, .error raised)) ∨
      ∃ tx lsn wal, state.transactions[handle]? = some tx ∧ state.manager.conflict tx = none ∧
        state.wal.append COMMIT_KIND [("tx_id", tx.tx_id), ("writes", tx.writes.length)] =
          .ok (lsn, wal) ∧
        commit repr state handle =
          ({ wal, manager := state.manager.note tx.writes lsn, transactions :=
              state.transactions.set handle { tx with committed_lsn := some lsn } }, .ok lsn) := by
  rw [commit]
  cases held : state.transactions[handle]? with
  | none => exact .inl ⟨_, rfl⟩
  | some tx =>
    cases outcome : commitTx repr state.wal state.manager tx with
    | error raised => exact .inl ⟨raised, by simp only [outcome]⟩
    | ok made =>
      obtain ⟨lsn, wal, manager, done⟩ := made
      obtain ⟨free, written, rfl, rfl⟩ := commitTx_ok outcome
      exact .inr ⟨tx, lsn, wal, rfl, free, written, by simp only [outcome]⟩

/-- The noted keys have the new LSN, the others keep theirs. -/
theorem Manager.get_note (manager : Manager Key) (keys : List (String × Key)) (lsn : Nat)
    (key : String × Key) : (manager.note keys lsn).committed_writes.get? key =
      if key ∈ keys then some lsn else manager.committed_writes.get? key := by
  obtain ⟨next_tx, map⟩ := manager
  show (keys.foldl (fun map key => map.set key lsn) map).get? key = _
  induction keys generalizing map with
  | nil => rfl
  | cons first keys inductionHypothesis =>
    rw [List.foldl_cons, inductionHypothesis, Dict.get_set]
    by_cases later : key ∈ keys
    · rw [if_pos later, if_pos (List.mem_cons_of_mem _ later)]
    · by_cases same : key = first
      · rw [if_neg later, if_pos same, if_pos (List.mem_cons.mpr (.inl same))]
      · rw [if_neg later, if_neg same, if_neg fun member => (List.mem_cons.mp member).elim same later]

/-- Steps that leave the committed keys alone and do not shorten the log stay sound. -/
theorem Sound.later {next : State Key} (sound : Sound state history)
    (log : state.wal.last_lsn ≤ next.wal.last_lsn)
    (map : next.manager.committed_writes = state.manager.committed_writes) : Sound next history where
  logged event member := Nat.le_trans (sound.logged event member) log
  known event member key written := by
    rw [map]
    exact sound.known event member key written
  seen := sound.seen

/-- A commit that succeeds is the newest of its keys. -/
theorem Sound.commit (sound : Sound state history) (handle : Nat) :
    Sound (commit repr state handle).1 (history ++ committed repr state handle) := by
  rw [committed]
  rcases commit_cases repr state handle with ⟨raised, refused⟩ | ⟨tx, lsn, wal, held, free, written, done⟩
  · have nothing : (match state.transactions[handle]?, (Tx.commit repr state handle).2 with
        | some tx, .ok lsn => [{ handle, lsn, snapshot := tx.snapshot, writes := tx.writes }]
        | _, _ => ([] : List (Commit Key))) = [] := by
      rw [refused]
      cases state.transactions[handle]? <;> rfl
    rw [nothing, List.append_nil, refused]
    exact sound
  · rw [held, done]
    obtain ⟨next_lsn, last, _⟩ := Wal.append_ok written
    have newer (event : Commit Key) (member : event ∈ history) : event.lsn < lsn :=
      next_lsn ▸ Nat.lt_succ_of_le (sound.logged event member)
    constructor
    · intro event member
      show event.lsn ≤ wal.last_lsn
      rw [last]
      rcases List.mem_append.mp member with old | new
      · exact Nat.le_of_lt (newer event old)
      · cases List.mem_singleton.mp new
        exact Nat.le_refl _
    · intro event member key writes
      show ∃ found, (state.manager.note tx.writes lsn).committed_writes.get? key = some found ∧
        event.lsn ≤ found
      rw [Manager.get_note]
      rcases List.mem_append.mp member with old | new
      · by_cases again : key ∈ tx.writes
        · exact ⟨lsn, if_pos again, Nat.le_of_lt (newer event old)⟩
        · rw [if_neg again]
          exact sound.known event old key writes
      · cases List.mem_singleton.mp new
        exact ⟨lsn, if_pos writes, Nat.le_refl lsn⟩
    · refine List.pairwise_append.mpr ⟨sound.seen, List.pairwise_singleton _ _, ?_⟩
      intro earlier old later new
      cases List.mem_singleton.mp new
      refine ⟨newer earlier old, fun key first second => ?_⟩
      obtain ⟨found, known, below⟩ := sound.known earlier old key first
      exact Nat.le_trans below (Manager.conflict_none free second known)

theorem Sound.step (sound : Sound state history) (action : Action Key) :
    Sound (step repr state action) (history ++ match action with
      | .commit handle => committed repr state handle
      | _ => []) := by
  cases action with
  | beginTx snapshot =>
    rw [List.append_nil, Tx.step]
    rcases begin_cases state snapshot with ⟨raised, done⟩ | ⟨lsn, wal, written, done⟩
    · rw [done]
      exact sound.later (Nat.le_refl _) rfl
    · rw [done]
      exact sound.later (Wal.append_grows written) rfl
  | recordWrite handle table key =>
    rw [List.append_nil]
    exact sound.later (Nat.le_refl _) rfl
  | commit handle => exact sound.commit handle
  | rollback handle =>
    rw [List.append_nil, Tx.step]
    rcases rollback_cases state handle with ⟨raised, done⟩ | ⟨tx, _, ⟨raised, done⟩ | ⟨lsn, wal, written, done⟩⟩
    · rw [done]
      exact sound
    · rw [done]
      exact sound.later (Nat.le_refl _) rfl
    · rw [done]
      exact sound.later (Wal.append_grows written) rfl
  | otherAppend kind payload =>
    rw [List.append_nil, Tx.step, otherAppend]
    cases written : state.wal.append kind payload with
    | error raised => exact sound
    | ok made => exact sound.later (Wal.append_grows written) rfl

theorem Sound.run (sound : Sound state history) (actions : List (Action Key)) :
    Sound (run repr state history actions).1 (run repr state history actions).2 := by
  induction actions generalizing state history with
  | nil => exact sound
  | cons action actions inductionHypothesis => exact inductionHypothesis (sound.step action)

theorem start_sound (wal : Wal) : Sound (State.start wal : State Key) [] where
  logged _ member := nomatch member
  known _ member := nomatch member
  seen := List.Pairwise.nil

/-- Of two commits of one key, the one with the larger LSN has the other in its snapshot; a
commit that is refused changes neither the log nor the noted keys. -/
theorem first_committer_wins (repr : String × Key → String) (wal : Wal)
    (actions : List (Action Key)) :
    (∀ first ∈ (run repr (State.start wal) [] actions).2,
      ∀ second ∈ (run repr (State.start wal) [] actions).2,
        (∃ key ∈ first.writes, key ∈ second.writes) → first.lsn < second.lsn →
          first.lsn ≤ second.snapshot) ∧
    ∀ handle raised, (commit repr (run repr (State.start wal) [] actions).1 handle).2 =
        .error raised →
      (commit repr (run repr (State.start wal) [] actions).1 handle).1 =
        (run repr (State.start wal) [] actions).1 := by
  constructor
  · have sound : Sound (run repr (State.start wal) [] actions).1
        (run repr (State.start wal) [] actions).2 := (start_sound wal).run actions
    rintro first member second other ⟨key, written, again⟩ before
    obtain ⟨earlier, firstAt, rfl⟩ := List.getElem_of_mem member
    obtain ⟨later, secondAt, rfl⟩ := List.getElem_of_mem other
    rcases Nat.lt_trichotomy earlier later with order | rfl | order
    · exact (List.pairwise_iff_getElem.mp sound.seen _ _ firstAt secondAt order).2 key written again
    · exact absurd before (Nat.lt_irrefl _)
    · have reversed := (List.pairwise_iff_getElem.mp sound.seen _ _ secondAt firstAt order).1
      exact absurd before (Nat.lt_asymm reversed)
  · intro handle raised refused
    rcases commit_cases repr (run repr (State.start wal) [] actions).1 handle with
      ⟨other, same⟩ | ⟨tx, lsn, next, held, free, written, done⟩
    · rw [same]
    · rw [done] at refused
      cases refused

end Manager

end CaracalDB.Tx
