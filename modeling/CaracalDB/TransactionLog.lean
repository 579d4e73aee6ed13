import CaracalDB.Transactions

/-!
# Boundaries of transactions in the log

Recovery finds a transaction by its number: one `TX_BEGIN`, then at most one
`TX_COMMIT` or `TX_ABORT`. Numbers start anew with every manager, a transaction may
be ended twice, and a block whose commit is refused is left without its end. A run
that avoids these steps leaves a log in which every number has one beginning and
every block that was left has one end.
-/

namespace CaracalDB.Tx

/-- A boundary of a transaction. -/
inductive Mark where
  | begun
  | ended
deriving DecidableEq

/-- The transaction that a record names. -/
def Record.txId (record : Record) : Option Nat := record.payload.lookup "tx_id"

/-- The boundary of a transaction that a record is. -/
def mark (id : Nat) (record : Record) : Option Mark :=
  if record.txId = some id then
    if record.kind = BEGIN_KIND then some .begun
    else if record.kind = COMMIT_KIND ∨ record.kind = ROLLBACK_KIND then some .ended
    else none
  else none

/-- The boundaries of a transaction in a log, in their order. -/
def life (id : Nat) (records : List Record) : List Mark := records.filterMap (mark id)

theorem life_snoc (id : Nat) (records : List Record) (record : Record) :
    life id (records ++ [record]) = life id records ++ (mark id record).toList := by
  rw [life, List.filterMap_append]
  cases marked : mark id record with
  | none => rw [List.filterMap_cons_none marked]; rfl
  | some found => rw [List.filterMap_cons_some marked]; rfl

/-- How the body of a block ends. -/
inductive BodyEnd where
  | normal
  | exception
  | baseException
deriving DecidableEq

/-- A state with its open blocks, by handle, and the transactions of the blocks that were left. -/
structure Session (Key : Type) where
  state : State Key
  blocks : List Nat
  exited : List Nat

inductive Call (Key : Type) where
  | act (action : Action Key)
  | enter (snapshot : Option Nat)
  | leave (handle : Nat) (ended : BodyEnd)
  | restart

variable {Key : Type} [DecidableEq Key] (repr : String × Key → String)

namespace Session

def start (wal : Wal) : Session Key := { state := State.start wal, blocks := [], exited := [] }

/-- `transaction(snapshot)` until its body. -/
def enter (session : Session Key) (snapshot : Option Nat) : Session Key :=
  match beginTx session.state snapshot with
  | (state, .error _) => { session with state }
  | (state, .ok handle) => { session with state, blocks := session.blocks ++ [handle] }

/-- What `transaction()` does behind its body. -/
def afterBody (state : State Key) (handle : Nat) : BodyEnd → State Key
  | .normal => (commit repr state handle).1
  | .exception => (rollback state handle).1
  | .baseException => state

/-- An open block is left. -/
def leave (session : Session Key) (handle : Nat) (ended : BodyEnd) : Session Key :=
  match session.state.transactions[handle]? with
  | none => session
  | some tx =>
      if handle ∈ session.blocks then
        { state := afterBody repr session.state handle ended
          blocks := session.blocks.erase handle
          exited := session.exited ++ [tx.tx_id] }
      else session

def step (session : Session Key) : Call Key → Session Key
  | .act action => { session with state := Tx.step repr session.state action }
  | .enter snapshot => session.enter snapshot
  | .leave handle ended => session.leave repr handle ended
  | .restart => { session with state := State.start session.state.wal, blocks := [] }

def run (session : Session Key) (calls : List (Call Key)) : Session Key :=
  calls.foldl (step repr) session

/-- The boundaries of a transaction in the log of a session. -/
def life (session : Session Key) (id : Nat) : List Mark := Tx.life id session.state.wal.records

/-- Every transaction begins once and ends at most once, and every block that was left ended. -/
structure Recoverable (session : Session Key) : Prop where
  boundaries : ∀ id, session.life id = [] ∨ session.life id = [.begun] ∨
    session.life id = [.begun, .ended]
  begun : ∀ tx ∈ session.state.transactions, session.life tx.tx_id ≠ []
  ended : ∀ id ∈ session.exited, session.life id = [.begun, .ended]

/-- Whether leaving a block appends a record. -/
def Settles (session : Session Key) (tx : Transaction Key) : BodyEnd → Prop
  | .normal => session.state.manager.conflict tx = none ∧ session.state.wal.last_lsn + 1 < 256 ^ 8
  | .exception => session.state.wal.last_lsn + 1 < 256 ^ 8
  | .baseException => False

/-- No number is given out twice, no transaction is ended twice, and every block is left with
its transaction ended. -/
def Allows (session : Session Key) : Call Key → Prop
  | .act (.beginTx _) | .enter _ => session.life session.state.manager.next_tx = []
  | .act (.commit handle) => ∀ tx ∈ session.state.transactions[handle]?,
      session.state.manager.conflict tx = none → session.life tx.tx_id = [.begun]
  | .act (.rollback handle) => ∀ tx ∈ session.state.transactions[handle]?,
      session.life tx.tx_id = [.begun]
  | .leave handle ended => handle ∈ session.blocks → ∀ tx ∈ session.state.transactions[handle]?,
      (session.Settles tx ended → session.life tx.tx_id = [.begun]) ∧
        (¬ session.Settles tx ended → session.life tx.tx_id = [.begun, .ended])
  | .act (.otherAppend kind _) => kind ≠ BEGIN_KIND ∧ kind ≠ COMMIT_KIND ∧ kind ≠ ROLLBACK_KIND
  | .act (.recordWrite _ _ _) => True
  | .restart => True

/-- Every call of a run is allowed where it is made. -/
def AllowsAll : Session Key → List (Call Key) → Prop
  | _, [] => True
  | session, call :: calls => session.Allows call ∧ AllowsAll (session.step repr call) calls

end Session

/-! ## One step -/

theorem mark_begin (id tx_id snapshot lsn prev_lsn : Nat) :
    mark id ⟨lsn, prev_lsn, BEGIN_KIND, [("tx_id", tx_id), ("snapshot_lsn", snapshot)]⟩ =
      if tx_id = id then some .begun else none := by
  by_cases same : tx_id = id
  · simp [mark, Record.txId, same]
  · simp [mark, Record.txId, same]

theorem mark_commit (id tx_id writes lsn prev_lsn : Nat) :
    mark id ⟨lsn, prev_lsn, COMMIT_KIND, [("tx_id", tx_id), ("writes", writes)]⟩ =
      if tx_id = id then some .ended else none := by
  by_cases same : tx_id = id
  · simp [mark, Record.txId, same, BEGIN_KIND, COMMIT_KIND]
  · simp [mark, Record.txId, same]

theorem mark_rollback (id tx_id lsn prev_lsn : Nat) :
    mark id ⟨lsn, prev_lsn, ROLLBACK_KIND, [("tx_id", tx_id)]⟩ =
      if tx_id = id then some .ended else none := by
  by_cases same : tx_id = id
  · simp [mark, Record.txId, same, BEGIN_KIND, COMMIT_KIND, ROLLBACK_KIND]
  · simp [mark, Record.txId, same]

theorem mark_other (id lsn prev_lsn : Nat) {kind : String} (payload : List (String × Nat))
    (other : kind ≠ BEGIN_KIND ∧ kind ≠ COMMIT_KIND ∧ kind ≠ ROLLBACK_KIND) :
    mark id ⟨lsn, prev_lsn, kind, payload⟩ = none := by
  simp [mark, other.1, other.2.1, other.2.2]

/-- What the log says of boundaries, of the transactions that are held and the blocks left. -/
structure Kept (records : List Record) (held exited : List Nat) : Prop where
  boundaries : ∀ id, life id records = [] ∨ life id records = [.begun] ∨
    life id records = [.begun, .ended]
  begun : ∀ id ∈ held, life id records ≠ []
  ended : ∀ id ∈ exited, life id records = [.begun, .ended]

variable {records : List Record} {held exited : List Nat}

/-- A new number is logged and held. -/
theorem Kept.begins (kept : Kept records held exited) {record : Record} {fresh : Nat}
    (marked : ∀ id, mark id record = if fresh = id then some .begun else none)
    (unused : life fresh records = []) :
    Kept (records ++ [record]) (held ++ [fresh]) exited := by
  have grown (id : Nat) : life id (records ++ [record]) =
      if fresh = id then [.begun] else life id records := by
    rw [life_snoc, marked]
    by_cases same : fresh = id
    · subst same
      rw [if_pos rfl, if_pos rfl, unused]
      rfl
    · rw [if_neg same, if_neg same]
      exact List.append_nil _
  constructor
  · intro id
    rw [grown]
    by_cases same : fresh = id
    · exact .inr (.inl (if_pos same))
    · rw [if_neg same]
      exact kept.boundaries id
  · intro id member
    rw [grown]
    by_cases same : fresh = id
    · rw [if_pos same]
      exact List.cons_ne_nil _ _
    · rw [if_neg same]
      refine kept.begun id ((List.mem_append.mp member).resolve_right fun new => ?_)
      exact same (List.mem_singleton.mp new).symm
  · intro id member
    have done := kept.ended id member
    have other : fresh ≠ id := by
      rintro rfl
      rw [unused] at done
      cases done
    rw [grown, if_neg other, done]

/-- The end of a transaction that was open is logged. -/
theorem Kept.ends (kept : Kept records held exited) {record : Record} {tx_id : Nat}
    (marked : ∀ id, mark id record = if tx_id = id then some .ended else none)
    (live : life tx_id records = [.begun]) :
    Kept (records ++ [record]) held exited ∧ life tx_id (records ++ [record]) = [.begun, .ended] := by
  have grown (id : Nat) : life id (records ++ [record]) =
      if tx_id = id then [.begun, .ended] else life id records := by
    rw [life_snoc, marked]
    by_cases same : tx_id = id
    · subst same
      rw [if_pos rfl, if_pos rfl, live]
      rfl
    · rw [if_neg same, if_neg same]
      exact List.append_nil _
  refine ⟨⟨?_, ?_, ?_⟩, by rw [grown, if_pos rfl]⟩
  · intro id
    rw [grown]
    by_cases same : tx_id = id
    · exact .inr (.inr (if_pos same))
    · rw [if_neg same]
      exact kept.boundaries id
  · intro id member
    rw [grown]
    by_cases same : tx_id = id
    · rw [if_pos same]
      exact List.cons_ne_nil _ _
    · rw [if_neg same]
      exact kept.begun id member
  · intro id member
    rw [grown]
    by_cases same : tx_id = id
    · exact if_pos same
    · rw [if_neg same]
      exact kept.ended id member

/-- Records of other users are no boundaries. -/
theorem Kept.passes (kept : Kept records held exited) {record : Record}
    (unmarked : ∀ id, mark id record = none) : Kept (records ++ [record]) held exited := by
  have same (id : Nat) : life id (records ++ [record]) = life id records := by
    rw [life_snoc, unmarked]
    exact List.append_nil _
  exact ⟨fun id => same id ▸ kept.boundaries id, fun id member => same id ▸ kept.begun id member,
    fun id member => same id ▸ kept.ended id member⟩

/-- A block is left whose transaction has ended. -/
theorem Kept.leaves (kept : Kept records held exited) {tx_id : Nat}
    (done : life tx_id records = [.begun, .ended]) : Kept records held (exited ++ [tx_id]) where
  boundaries := kept.boundaries
  begun := kept.begun
  ended id member := by
    rcases List.mem_append.mp member with old | new
    · exact kept.ended id old
    · rw [List.mem_singleton.mp new]
      exact done

/-- The numbers of transactions that are held. -/
def ids (transactions : List (Transaction Key)) : List Nat := transactions.map Transaction.tx_id

omit [DecidableEq Key] in
theorem ids_set {transactions : List (Transaction Key)} {handle : Nat} {tx next : Transaction Key}
    (held : transactions[handle]? = some tx) (same : next.tx_id = tx.tx_id) :
    ids (transactions.set handle next) = ids transactions := by
  rw [ids, List.map_set, same]
  apply List.ext_getElem?
  intro index
  rw [List.getElem?_set]
  by_cases here : handle = index
  · subst here
    obtain ⟨inside, found⟩ := List.getElem?_eq_some_iff.mp held
    simp [ids, inside, found]
  · rw [if_neg here, ids]

omit [DecidableEq Key] in
theorem ids_modify (transactions : List (Transaction Key)) (handle : Nat)
    (change : Transaction Key → Transaction Key) (same : ∀ tx, (change tx).tx_id = tx.tx_id) :
    ids (transactions.modify handle change) = ids transactions := by
  rw [ids, ids]
  apply List.ext_getElem?
  intro index
  rw [List.getElem?_map, List.getElem?_map, List.getElem?_modify]
  by_cases here : handle = index
  · cases transactions[index]? with
    | none => simp
    | some tx => simp [here, same]
  · cases transactions[index]? with
    | none => simp
    | some tx => simp [here]

namespace Session

variable {session : Session Key}

/-- What a session keeps. -/
def Sound (session : Session Key) : Prop :=
  Kept session.state.wal.records (ids session.state.transactions) session.exited

omit [DecidableEq Key] in
theorem Sound.recoverable (sound : session.Sound) : session.Recoverable where
  boundaries := sound.boundaries
  begun tx member := sound.begun tx.tx_id (List.mem_map_of_mem member)
  ended := sound.ended

omit [DecidableEq Key] in
theorem Sound.beginTx (sound : session.Sound) (snapshot : Option Nat)
    (unused : session.life session.state.manager.next_tx = []) :
    Kept (Tx.beginTx session.state snapshot).1.wal.records
      (ids (Tx.beginTx session.state snapshot).1.transactions) session.exited := by
  rcases begin_cases session.state snapshot with ⟨raised, done⟩ | ⟨lsn, wal, written, done⟩
  · rw [done]
    exact sound
  · obtain ⟨rfl, _, records⟩ := Wal.append_ok written
    rw [done]
    show Kept wal.records (ids (session.state.transactions ++ _)) session.exited
    rw [records, ids, List.map_append]
    exact Kept.begins sound (fun id => mark_begin id _ _ _ _) unused

variable {handle : Nat} {tx : Transaction Key}

/-- A commit without conflict is logged where the log has room. -/
theorem commit_logs (held : session.state.transactions[handle]? = some tx)
    (settles : session.Settles tx .normal) :
    ∃ lsn, (commit repr session.state handle).2 = .ok lsn := by
  obtain ⟨free, room⟩ := settles
  rw [commit, held]
  simp only [commitTx, free, Wal.append, if_pos room, ok_bind]
  exact ⟨_, rfl⟩

omit [DecidableEq Key] in
/-- A rollback is logged where the log has room. -/
theorem rollback_logs (held : session.state.transactions[handle]? = some tx)
    (room : session.state.wal.last_lsn + 1 < 256 ^ 8) :
    ∃ lsn, (rollback session.state handle).2 = .ok lsn := by
  rw [rollback, held]
  simp only [Wal.append, if_pos room]
  exact ⟨_, rfl⟩

/-- A commit that is allowed; it ends its transaction if it succeeds. -/
theorem Sound.commit (sound : session.Sound)
    (held : session.state.transactions[handle]? = some tx)
    (live : session.Settles tx .normal → session.life tx.tx_id = [.begun]) :
    Kept (Tx.commit repr session.state handle).1.wal.records
        (ids (Tx.commit repr session.state handle).1.transactions) session.exited ∧
      (session.Settles tx .normal →
        Tx.life tx.tx_id (Tx.commit repr session.state handle).1.wal.records = [.begun, .ended]) ∧
      (¬ session.Settles tx .normal → (Tx.commit repr session.state handle).1 = session.state) := by
  rcases commit_cases repr session.state handle with
    ⟨raised, done⟩ | ⟨other, lsn, wal, again, free, written, done⟩
  · refine ⟨by rw [done]; exact sound, fun settles => ?_, fun _ => by rw [done]⟩
    obtain ⟨lsn, logs⟩ := commit_logs repr held settles
    rw [done] at logs
    cases logs
  · obtain rfl : tx = other := Option.some.inj (held.symm.trans again)
    have settles : session.Settles tx .normal := ⟨free, Wal.append_room written⟩
    obtain ⟨_, _, records⟩ := Wal.append_ok written
    obtain ⟨kept, ended⟩ := Kept.ends sound (fun id => mark_commit id _ _ _ _) (live settles)
    rw [← records] at kept ended
    rw [done]
    refine ⟨?_, fun _ => ended, fun clash => absurd settles clash⟩
    show Kept wal.records (ids (session.state.transactions.set handle
      { tx with committed_lsn := some lsn })) session.exited
    have unchanged : ids (session.state.transactions.set handle
        { tx with committed_lsn := some lsn }) = ids session.state.transactions :=
      ids_set held rfl
    rw [unchanged]
    exact kept

/-- A rollback that is allowed; it ends its transaction if the log has room. -/
theorem Sound.rollback (sound : session.Sound)
    (held : session.state.transactions[handle]? = some tx)
    (live : session.Settles tx .exception → session.life tx.tx_id = [.begun]) :
    Kept (Tx.rollback session.state handle).1.wal.records
        (ids (Tx.rollback session.state handle).1.transactions) session.exited ∧
      (session.Settles tx .exception →
        Tx.life tx.tx_id (Tx.rollback session.state handle).1.wal.records = [.begun, .ended]) ∧
      (¬ session.Settles tx .exception →
        (Tx.rollback session.state handle).1.wal = session.state.wal) := by
  have unchanged : ids (session.state.transactions.set handle { tx with writes := [] }) =
      ids session.state.transactions := ids_set held rfl
  rcases rollback_cases session.state handle with
    ⟨raised, done⟩ | ⟨other, again, ⟨raised, done⟩ | ⟨lsn, wal, written, done⟩⟩
  · refine ⟨by rw [done]; exact sound, fun settles => ?_, fun _ => by rw [done]⟩
    obtain ⟨lsn, logs⟩ := rollback_logs held settles
    rw [done] at logs
    cases logs
  · obtain rfl : tx = other := Option.some.inj (held.symm.trans again)
    refine ⟨?_, fun settles => ?_, fun _ => by rw [done]⟩
    · rw [done]
      show Kept session.state.wal.records (ids (session.state.transactions.set handle
        { tx with writes := [] })) session.exited
      rw [unchanged]
      exact sound
    · obtain ⟨lsn, logs⟩ := rollback_logs held settles
      rw [done] at logs
      cases logs
  · obtain rfl : tx = other := Option.some.inj (held.symm.trans again)
    have settles : session.Settles tx .exception := Wal.append_room written
    obtain ⟨_, _, records⟩ := Wal.append_ok written
    obtain ⟨kept, ended⟩ := Kept.ends sound (fun id => mark_rollback id _ _ _) (live settles)
    rw [← records] at kept ended
    rw [done]
    refine ⟨?_, fun _ => ended, fun full => absurd settles full⟩
    show Kept wal.records (ids (session.state.transactions.set handle { tx with writes := [] }))
      session.exited
    rw [unchanged]
    exact kept

/-- A block is left with its transaction ended. -/
theorem Sound.leave (sound : session.Sound) {ended : BodyEnd}
    (allowed : session.Allows (.leave handle ended)) : (session.leave repr handle ended).Sound := by
  rw [Session.leave]
  cases held : session.state.transactions[handle]? with
  | none => exact sound
  | some tx =>
    by_cases within : handle ∈ session.blocks
    · simp only [within, ↓reduceIte]
      have rules : (session.Settles tx ended → session.life tx.tx_id = [.begun]) ∧
          (¬ session.Settles tx ended → session.life tx.tx_id = [.begun, .ended]) :=
        allowed within tx held
      obtain ⟨live, dead⟩ := rules
      cases ended with
      | normal =>
        obtain ⟨kept, done, same⟩ := Sound.commit repr sound held live
        by_cases settles : session.Settles tx .normal
        · exact kept.leaves (done settles)
        · refine kept.leaves ?_
          rw [same settles]
          exact dead settles
      | exception =>
        obtain ⟨kept, done, same⟩ := Sound.rollback sound held live
        by_cases settles : session.Settles tx .exception
        · exact kept.leaves (done settles)
        · refine kept.leaves ?_
          rw [same settles]
          exact dead settles
      | baseException => exact Kept.leaves sound (dead id)
    · simp only [within, ↓reduceIte]
      exact sound

theorem Sound.act (sound : session.Sound) {action : Action Key}
    (allowed : session.Allows (.act action)) : (session.step repr (.act action)).Sound := by
  cases action with
  | beginTx snapshot => exact sound.beginTx snapshot allowed
  | recordWrite handle table key =>
    show Kept session.state.wal.records (ids (session.state.transactions.modify handle _)) _
    rw [ids_modify]
    · exact sound
    · intro tx
      rw [Transaction.recordWrite]
      split <;> rfl
  | commit handle =>
    cases held : session.state.transactions[handle]? with
    | none =>
      have same : Tx.commit repr session.state handle =
          (session.state, .error (.typeError "no transaction")) := by rw [Tx.commit, held]
      show Kept (Tx.commit repr session.state handle).1.wal.records
        (ids (Tx.commit repr session.state handle).1.transactions) session.exited
      rw [same]
      exact sound
    | some tx => exact (Sound.commit repr sound held fun settles => allowed tx held settles.1).1
  | rollback handle =>
    cases held : session.state.transactions[handle]? with
    | none =>
      have same : Tx.rollback session.state handle =
          (session.state, .error (.typeError "no transaction")) := by rw [Tx.rollback, held]
      show Kept (Tx.rollback session.state handle).1.wal.records
        (ids (Tx.rollback session.state handle).1.transactions) session.exited
      rw [same]
      exact sound
    | some tx => exact (Sound.rollback sound held fun _ => allowed tx held).1
  | otherAppend kind payload =>
    show Kept (otherAppend session.state kind payload).wal.records
      (ids (otherAppend session.state kind payload).transactions) session.exited
    rw [otherAppend]
    cases written : session.state.wal.append kind payload with
    | error raised => exact sound
    | ok made =>
      show Kept made.2.records _ _
      rw [(Wal.append_ok written).2.2]
      exact Kept.passes sound fun id => mark_other id _ _ payload allowed

theorem Sound.step (sound : session.Sound) {call : Call Key} (allowed : session.Allows call) :
    (session.step repr call).Sound := by
  cases call with
  | act action => exact sound.act repr allowed
  | enter snapshot =>
    have kept := sound.beginTx snapshot allowed
    rw [Session.step, Session.enter]
    rcases made : Tx.beginTx session.state snapshot with ⟨state, raised | handle⟩
    · rw [made] at kept
      exact kept
    · rw [made] at kept
      exact kept
  | leave handle ended => exact sound.leave repr allowed
  | restart => exact ⟨sound.boundaries, List.forall_mem_nil _, sound.ended⟩

theorem Sound.run (sound : session.Sound) (calls : List (Call Key))
    (allowed : session.AllowsAll repr calls) : (session.run repr calls).Sound := by
  induction calls generalizing session with
  | nil => exact sound
  | cons call calls inductionHypothesis =>
    exact inductionHypothesis (sound.step repr allowed.1) allowed.2

omit [DecidableEq Key] in
theorem start_sound {wal : Wal} (empty : ∀ id, Tx.life id wal.records = []) :
    (start wal : Session Key).Sound where
  boundaries id := .inl (empty id)
  begun _ member := nomatch member
  ended _ member := nomatch member

end Session

/-- In every run that gives out no number twice, ends no transaction twice and leaves every
block with its transaction ended, the boundaries in the log are recoverable. -/
theorem boundaries_recoverable (wal : Wal) (empty : ∀ id, life id wal.records = [])
    (calls : List (Call Key)) (allowed : (Session.start wal).AllowsAll repr calls) :
    ((Session.start wal).run repr calls).Recoverable :=
  ((Session.start_sound empty).run repr calls allowed).recoverable

/-- A block that commits one write, and the next manager. -/
theorem one_block_recoverable : ((Session.start { records := [], last_lsn := 0 }).run
    (fun _ => "") [.enter none, .act (.recordWrite 0 "Gene" 7), .leave 0 .normal,
      .restart] : Session Nat).Recoverable := by
  refine boundaries_recoverable (fun _ => "") _ (fun _ => rfl) _ ⟨rfl, trivial, ?_, trivial, trivial⟩
  intro _ tx held
  cases held
  refine ⟨fun _ => rfl, fun stays => absurd ⟨rfl, ?_⟩ stays⟩
  show 1 + 1 < 256 ^ 8
  omega

/-- A block whose commit is refused is left without an end, and the first number of the next
manager is given out again. -/
theorem conflict_leaves_no_end : ¬ ∀ (wal : Wal) (calls : List (Call Nat)),
    (∀ id, life id wal.records = []) →
      ((Session.start wal).run (fun _ => "") calls).Recoverable := by
  intro recoverable
  have found := recoverable { records := [], last_lsn := 0 }
    [.enter none, .act (.recordWrite 0 "Gene" 7), .act (.beginTx none),
      .act (.recordWrite 1 "Gene" 7), .act (.commit 1), .leave 0 .normal] fun _ => rfl
  have ended := found.ended 1 (by decide)
  exact absurd ended (by decide)

end CaracalDB.Tx
