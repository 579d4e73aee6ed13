import CaracalDB.Checkpoint
import CaracalDB.WalRun

/-!
# Recovery

Recovery reads the whole log, skips what the manifest's checkpoint covers, and
dispatches the rest to handlers by kind. A marker moves the boundary while the
log is read, and the manifest is rewritten when either of its LSNs changed.

Handlers act on a state of their own and may fail; nothing else is known of them.
-/

namespace CaracalDB.Log

/-- A redo handler: it changes the caller's state or raises with a text. -/
abbrev RedoHandler (State : Type) := WalRecord → State → Except String State

structure RecoveryReport where
  replayed : Nat := 0
  skipped_pre_checkpoint : Nat := 0
  last_lsn : Nat := 0
  checkpoint_lsn : Nat := 0
  handler_invocations : List (String × Nat) := []

/-- `counts[kind] = counts.get(kind, 0) + 1` -/
def countKind (kind : String) : List (String × Nat) → List (String × Nat)
  | [] => [(kind, 1)]
  | (other, count) :: rest =>
      if other = kind then (other, count + 1) :: rest else (other, count) :: countKind kind rest

/-- The variables of the recovery loop. -/
structure Replay (State : Type) where
  report : RecoveryReport
  last_seen : Nat
  boundary : Nat
  state : State

/-- Call the handler of a record's kind, if there is one. -/
def callHandler {State : Type} (handlers : String → Option (RedoHandler State))
    (state : State) (record : WalRecord) : Except Raised State :=
  match handlers record.kind with
  | none => .ok state
  | some handler =>
      match handler record state with
      | .ok state => .ok state
      | .error cause => .error (.redoFailed record.kind record.lsn cause)

/-- One round of the recovery loop. -/
def replayRecord {State : Type} (handlers : String → Option (RedoHandler State))
    (replay : Replay State) (record : WalRecord) : Except Raised (Replay State) :=
  let replay := { replay with last_seen := max replay.last_seen record.lsn }
  if record.lsn ≤ replay.boundary then
    .ok { replay with report :=
      { replay.report with skipped_pre_checkpoint := replay.report.skipped_pre_checkpoint + 1 } }
  else if record.kind = CHECKPOINT_KIND then
    .ok (if record.lsn > replay.boundary then { replay with boundary := record.lsn } else replay)
  else do
    let state ← callHandler handlers replay.state record
    return { replay with
      state
      report :=
        { replay.report with
          replayed := replay.report.replayed + 1
          handler_invocations := countKind record.kind replay.report.handler_invocations } }

/-- `recover(bundle, handlers=...)` -/
def recover {State : Type} (bundle : Bundle) (directory : Directory)
    (handlers : String → Option (RedoHandler State)) (state : State) :
    Except Raised (RecoveryReport × Bundle × State) := do
  let report : RecoveryReport := { checkpoint_lsn := bundle.manifest.checkpoint_lsn }
  let _wal ← openWal directory DEFAULT_ROLL_SIZE
  let records ← iterSince directory 0
  let replay ← records.foldlM (replayRecord handlers)
    { report
      last_seen := bundle.manifest.last_lsn
      boundary := bundle.manifest.checkpoint_lsn
      state }
  let report := { replay.report with
    last_lsn := replay.last_seen, checkpoint_lsn := replay.boundary }
  let refreshed : Manifest :=
    { bundle.manifest with last_lsn := replay.last_seen, checkpoint_lsn := replay.boundary }
  let bundle :=
    if replay.last_seen ≠ bundle.manifest.last_lsn ∨
        replay.boundary ≠ bundle.manifest.checkpoint_lsn then
      { bundle with manifest := refreshed }
    else bundle
  return (report, bundle, replay.state)

/-- Call the handlers on a list of records, one after another. -/
def callHandlers {State : Type} (handlers : String → Option (RedoHandler State))
    (records : List WalRecord) (state : State) : Except Raised State :=
  records.foldlM (callHandler handlers) state

/-- The records recovery dispatches: those that are no markers. -/
def redoable (records : List WalRecord) : List WalRecord :=
  records.filter fun record => record.kind ≠ CHECKPOINT_KIND

/-- The LSN of the last marker in a list, or a given one where there is none. -/
def lastMarker (boundary : Nat) (records : List WalRecord) : Nat :=
  ((records.filter fun record => record.kind = CHECKPOINT_KIND).getLast?.map WalRecord.lsn).getD
    boundary

/-- Covered records are skipped, whatever their kind. -/
theorem replay_covered {State : Type} (handlers : String → Option (RedoHandler State))
    (records : List WalRecord) (replay : Replay State)
    (covered : ∀ record ∈ records, record.lsn ≤ replay.boundary)
    (seen : replay.boundary ≤ replay.last_seen) : ∃ report,
      records.foldlM (replayRecord handlers) replay = .ok { replay with report } := by
  induction records generalizing replay with
  | nil => exact ⟨replay.report, rfl⟩
  | cons record rest inductionHypothesis =>
    have below := covered record List.mem_cons_self
    have unseen : max replay.last_seen record.lsn = replay.last_seen :=
      Nat.max_eq_left (Nat.le_trans below seen)
    rw [List.foldlM_cons]
    simp only [replayRecord, below, ↓reduceIte, unseen, bind, Except.bind]
    exact inductionHypothesis { replay with report := { replay.report with
      skipped_pre_checkpoint := replay.report.skipped_pre_checkpoint + 1 } }
      (fun later member => covered later (List.mem_cons_of_mem _ member)) seen

/-- A marker in front moves the boundary the rest starts from. -/
theorem last_marker_cons (boundary : Nat) (record : WalRecord) (rest : List WalRecord) :
    lastMarker boundary (record :: rest) =
      lastMarker (if record.kind = CHECKPOINT_KIND then record.lsn else boundary) rest := by
  unfold lastMarker
  by_cases marker : record.kind = CHECKPOINT_KIND
  · simp only [marker, decide_true, List.filter_cons_of_pos, ↓reduceIte, List.getLast?_cons,
      Option.map_some, Option.getD_some]
    cases (rest.filter fun record => decide (record.kind = CHECKPOINT_KIND)).getLast? <;> rfl
  · simp [marker]

theorem last_marker_append (boundary : Nat) (first second : List WalRecord) :
    lastMarker boundary (first ++ second) = lastMarker (lastMarker boundary first) second := by
  induction first generalizing boundary with
  | nil => rfl
  | cons record rest inductionHypothesis =>
    rw [List.cons_append, last_marker_cons, inductionHypothesis, ← last_marker_cons]

/-- A marker at the end is the last one. -/
theorem last_marker_concat (boundary : Nat) (records : List WalRecord) (record : WalRecord)
    (marker : record.kind = CHECKPOINT_KIND) :
    lastMarker boundary (records ++ [record]) = record.lsn := by
  rw [last_marker_append, last_marker_cons]
  simp only [marker, ↓reduceIte]
  rfl

/-- A chain of records behind the boundary is dispatched in order; the boundary
ends at the last marker, and the newest LSN is the last one. -/
theorem replay_chain {State : Type} (handlers : String → Option (RedoHandler State))
    (records : List WalRecord) (last : Nat) (chained : Chained last records)
    (replay : Replay State) (reached : replay.boundary ≤ last) (seen : replay.last_seen = last) :
    ∃ report, records.foldlM (replayRecord handlers) replay =
      (callHandlers handlers (redoable records) replay.state).map fun state =>
        { report, last_seen := last + records.length,
          boundary := lastMarker replay.boundary records, state } := by
  induction records generalizing last replay with
  | nil =>
    subst seen
    exact ⟨replay.report, rfl⟩
  | cons record rest inductionHypothesis =>
    obtain ⟨lsn, _, restChained⟩ := chained
    have newer : ¬ record.lsn ≤ replay.boundary := by omega
    have newest : max replay.last_seen record.lsn = last + 1 := by
      rw [seen, lsn]
      exact Nat.max_eq_right (Nat.le_succ last)
    have total : last + 1 + rest.length = last + (record :: rest).length := by
      rw [List.length_cons]
      omega
    rw [List.foldlM_cons, last_marker_cons, ← total]
    by_cases marker : record.kind = CHECKPOINT_KIND
    · have moved : record.lsn > replay.boundary := Nat.lt_of_not_le newer
      have skipped : redoable (record :: rest) = redoable rest := by simp [redoable, marker]
      simp only [replayRecord, newest, newer, ↓reduceIte, marker, moved, skipped, bind, Except.bind]
      exact inductionHypothesis (last + 1) restChained
        { replay with last_seen := last + 1, boundary := record.lsn } (Nat.le_of_eq lsn) rfl
    · have dispatched : redoable (record :: rest) = record :: redoable rest := by
        simp [redoable, marker]
      simp only [replayRecord, newest, newer, ↓reduceIte, marker, dispatched, callHandlers,
        List.foldlM_cons, bind, Except.bind]
      cases called : callHandler handlers replay.state record with
      | error raised => exact ⟨replay.report, rfl⟩
      | ok state =>
        exact inductionHypothesis (last + 1) restChained _ (Nat.le_succ_of_le reached) rfl

end CaracalDB.Log
