import CaracalDB.Recovery

/-!
# Runs of appends and checkpoints

A run keeps the history of everything it appended. On disk stands the end of
that history from some record on, and every record that is gone was covered by
the last completed checkpoint. A run may end anywhere, in particular between the
two halves of a checkpoint: an appended marker that the manifest does not know.
-/

namespace CaracalDB.Log

/-- A bundle with its log and handle, everything appended so far, and the marker
of the last completed checkpoint (zero before the first). -/
structure Trace where
  bundle : Bundle
  directory : Directory
  wal : Wal
  history : List WalRecord
  completed : Nat

inductive Write where
  | append (kind : String) (payload : List UInt8)
  | checkpoint

/-- What a write appends. -/
def Write.entry : Write → String × List UInt8
  | .append kind payload => (kind, payload)
  | .checkpoint => (CHECKPOINT_KIND, [])

/-- The record a write appends to a log. -/
def Write.record (write : Write) (last : Nat) : WalRecord :=
  { lsn := last + 1, prev_lsn := last, kind := write.entry.1, payload := write.entry.2 }

/-- One write. A write that raises appends nothing to the history. -/
def Trace.step (trace : Trace) (write : Write) : Trace :=
  match write with
  | .append kind payload =>
      match append trace.directory trace.wal kind payload with
      | .error _ => trace
      | .ok ((directory, wal), _) =>
          { trace with
            directory, wal, history := trace.history ++ [write.record trace.wal.last_lsn] }
  | .checkpoint =>
      match checkpoint trace.bundle trace.directory trace.wal with
      | ((bundle, directory, wal), .error _) => { trace with bundle, directory, wal }
      | ((bundle, directory, wal), .ok result) =>
          { bundle, directory, wal
            history := trace.history ++ [write.record trace.wal.last_lsn]
            completed := result.checkpoint_lsn }

/-- A new bundle with a handle on its empty log. -/
def Trace.start (path : String) (roll_size : Nat) : Trace :=
  { bundle := { path, manifest := {} }
    directory := { path := path ++ "/wal", segments := [] }
    wal := { roll_size, segment := none, last_lsn := 0 }
    history := []
    completed := 0 }

/-- The record of a write goes to a segment whose number has six digits. -/
def Trace.SixDigits (trace : Trace) (write : Write) : Prop :=
  ∀ directory wal lsn,
    append trace.directory trace.wal write.entry.1 write.entry.2 = .ok ((directory, wal), lsn) →
      directory.SixDigits

/-- The traces of runs whose segment numbers keep six digits. -/
inductive Trace.Reached (path : String) : Trace → Prop where
  | start (roll_size : Nat) (accepted : HEADER_SIZE + 64 < roll_size) :
      Trace.Reached path (Trace.start path roll_size)
  | step (trace : Trace) (write : Write) (reached : Trace.Reached path trace)
      (sixDigits : trace.SixDigits write) : Trace.Reached path (trace.step write)

/-- A chain that grows at its end. -/
theorem chained_concat (last : Nat) (records : List WalRecord) (record : WalRecord)
    (chained : Chained last records) (lsn : record.lsn = last + records.length + 1)
    (prev : record.prev_lsn = last + records.length) : Chained last (records ++ [record]) := by
  induction records generalizing last with
  | nil => exact ⟨lsn, prev, trivial⟩
  | cons first rest inductionHypothesis =>
    obtain ⟨firstLsn, firstPrev, restChained⟩ := chained
    rw [List.length_cons] at lsn prev
    exact ⟨firstLsn, firstPrev, inductionHypothesis (last + 1) restChained (by omega) (by omega)⟩

/-- The end of a chain is a chain. -/
theorem chained_drop (last count : Nat) (records : List WalRecord) (chained : Chained last records)
    (within : count ≤ records.length) : Chained (last + count) (records.drop count) := by
  induction count generalizing last records with
  | zero => exact chained
  | succ count inductionHypothesis =>
    cases records with
    | nil => cases within
    | cons first rest =>
      have position : last + (count + 1) = last + 1 + count := by omega
      rw [position]
      exact inductionHypothesis (last + 1) rest chained.2.2 (Nat.le_of_succ_le_succ within)

/-- The beginning of a chain is a chain. -/
theorem chained_take (last count : Nat) (records : List WalRecord)
    (chained : Chained last records) : Chained last (records.take count) := by
  induction records generalizing last count with
  | nil =>
    rw [List.take_nil]
    trivial
  | cons first rest inductionHypothesis =>
    cases count with
    | zero => trivial
    | succ count =>
      exact ⟨chained.1, chained.2.1, inductionHypothesis (last + 1) count chained.2.2⟩

/-- LSNs of a chain lie behind its start and within its length. -/
theorem chained_bounds (last : Nat) (records : List WalRecord) (chained : Chained last records) :
    ∀ record ∈ records, last < record.lsn ∧ record.lsn ≤ last + records.length := by
  induction records generalizing last with
  | nil =>
    intro record member
    cases member
  | cons first rest inductionHypothesis =>
    obtain ⟨lsn, _, restChained⟩ := chained
    intro record member
    rw [List.length_cons]
    rcases List.mem_cons.mp member with rfl | later
    · omega
    · have bounds := inductionHypothesis (last + 1) restChained record later
      omega

/-- The segments in front of the open one lose every record that is covered; files
without records stay. -/
theorem truncate_front (wal : Wal) (lsn : Nat) (tail : SegmentFile) (size : Nat)
    (opened : wal.segment = some ⟨tail.index, size⟩) (front kept : List SegmentFile)
    (directory : Directory) (removed : Nat) (ordered : directory.Ordered)
    (files : directory.segments = kept ++ (front ++ [tail]))
    (keptEmpty : iterSegments directory kept = .ok []) (before : List WalRecord)
    (read : iterSegments directory front = .ok before)
    (covered : ∀ record ∈ before, record.lsn ≤ lsn) :
    ∃ final count after, truncateSegments wal lsn (front ++ [tail]) directory removed =
        (final, .ok count) ∧ final.Ordered ∧ final.segments = after ++ [tail] ∧
      iterSegments final after = .ok [] := by
  induction front generalizing kept directory removed before with
  | nil =>
    have skipped : wal.segment.map Segment.index = some tail.index := by rw [opened]; rfl
    refine ⟨directory, removed, kept, ?_, ordered, files, keptEmpty⟩
    simp only [List.nil_append, truncateSegments, skipped, ↓reduceIte]
  | cons first rest inductionHypothesis =>
    have distinct : first.index ≠ tail.index := by
      have increasing := ordered.increasing
      rw [files, List.pairwise_append, List.cons_append, List.pairwise_cons] at increasing
      exact Nat.ne_of_lt (increasing.2.1.1 tail (by simp))
    have other : wal.segment.map Segment.index ≠ some first.index := by
      rw [opened]
      exact fun same => distinct (Option.some.inj same).symm
    simp only [iterSegments] at read
    cases firstRead : iterSegmentRecords (segmentPath directory first.index) first.data with
    | error raised => simp [firstRead, bind, Except.bind] at read
    | ok firstRecords =>
      cases restRead : iterSegments directory rest with
      | error raised => simp [firstRead, restRead, bind, Except.bind] at read
      | ok restRecords =>
        obtain rfl : firstRecords ++ restRecords = before := by
          simpa [firstRead, restRead, bind, Except.bind, pure, Except.pure] using read
        have restCovered : ∀ record ∈ restRecords, record.lsn ≤ lsn := fun record member =>
          covered record (List.mem_append.mpr (Or.inr member))
        simp only [List.cons_append, truncateSegments, other, ↓reduceIte, segmentMaxLsn, firstRead,
          bind, Except.bind, pure, Except.pure]
        cases newest : firstRecords.getLast? with
        | none =>
          have empty := List.getLast?_eq_none_iff.mp newest
          simp only [Option.map_none]
          apply inductionHypothesis (kept ++ [first]) directory removed ordered _ _ restRecords
            restRead restCovered
          · rw [files]
            simp
          · rw [iter_segments_append, keptEmpty]
            simp [iterSegments, firstRead, empty, bind, Except.bind, pure, Except.pure]
        | some record =>
          have below : record.lsn ≤ lsn :=
            covered record (List.mem_append.mpr (Or.inl (List.mem_of_getLast? newest)))
          simp only [Option.map_some, below, ↓reduceIte]
          have remaining : (directory.unlink first.index).segments = kept ++ (rest ++ [tail]) := by
            have increasing := ordered.increasing
            rw [files, List.pairwise_append, List.cons_append, List.pairwise_cons] at increasing
            have keptOther : kept.filter (·.index != first.index) = kept := by
              rw [List.filter_eq_self]
              intro file member
              exact bne_iff_ne.mpr (Nat.ne_of_lt (increasing.2.2 file member first (by simp)))
            have restOther : (rest ++ [tail]).filter (·.index != first.index) = rest ++ [tail] := by
              rw [List.filter_eq_self]
              intro file member
              exact bne_iff_ne.mpr (Nat.ne_of_gt (increasing.2.1.1 file member))
            rw [Directory.unlink, files, List.filter_append, keptOther, List.cons_append,
              List.filter_cons_of_neg (by simp), restOther]
          have stillOrdered : (directory.unlink first.index).Ordered :=
            ⟨ordered.increasing.filter _, fun file member =>
              ordered.sixDigits file (List.mem_filter.mp member).1⟩
          have samePath (files : List SegmentFile) :
              iterSegments (directory.unlink first.index) files = iterSegments directory files := by
            apply iter_segments_path
            rfl
          exact inductionHypothesis kept (directory.unlink first.index) (removed + 1) stillOrdered
            remaining ((samePath kept).trans keptEmpty) restRecords ((samePath rest).trans restRead)
            restCovered

/-- A truncation that covers every record leaves those of the open segment. -/
theorem Tracks.truncate {directory : Directory} {wal : Wal} {records : List WalRecord}
    (tracks : Tracks directory wal records) (opened : wal.segment.isSome) (lsn : Nat)
    (covered : ∀ record ∈ records, record.lsn ≤ lsn) :
    ∃ final count gone, truncateBefore directory wal lsn = (final, .ok count) ∧
      gone ≤ records.length ∧ Tracks final wal (records.drop gone) := by
  rcases tracks.layout with ⟨_, closed, _⟩ |
    ⟨front, tail, before, old, files, read, extendable, fits, rfl, segment⟩
  · rw [closed] at opened
    cases opened
  have isTail : wal.segment = some ⟨tail.index, tail.data.length⟩ := by
    rcases segment with closed | isTail
    · rw [closed] at opened
      cases opened
    · exact isTail
  obtain ⟨final, count, after, run, ordered, remaining, empty⟩ := truncate_front wal lsn tail
    tail.data.length isTail front [] directory 0 tracks.ordered (by rw [files, List.nil_append]) rfl
    before read (fun record member => covered record (List.mem_append.mpr (Or.inl member)))
  refine ⟨final, count, before.length, ?_, ?_, ordered, Or.inr
    ⟨after, tail, [], old, remaining, empty, extendable, fits, ?_, segment⟩⟩
  · rw [truncateBefore, wal_segments_ordered directory tracks.ordered, files, run]
  · rw [List.length_append]
    exact Nat.le_add_right ..
  · rw [List.drop_left, List.nil_append]

/-- What stands on disk and in the manifest after every write of a run. -/
structure Trace.Sound (trace : Trace) : Prop where
  tracks : ∃ gone, gone ≤ trace.completed ∧
    Tracks trace.directory trace.wal (trace.history.drop gone)
  chained : Chained 0 trace.history
  last : trace.wal.last_lsn = trace.history.length
  manifest : trace.bundle.manifest = { last_lsn := trace.completed, checkpoint_lsn := trace.completed }
  completed : trace.completed ≤ trace.history.length
  marker : lastMarker 0 (trace.history.take trace.completed) = trace.completed

theorem Trace.start_sound (path : String) (roll_size : Nat) :
    (Trace.start path roll_size).Sound := by
  have tracks : Tracks (Trace.start path roll_size).directory (Trace.start path roll_size).wal [] :=
    ⟨⟨List.Pairwise.nil, fun _ member => nomatch member⟩, Or.inl ⟨rfl, rfl, rfl⟩⟩
  exact ⟨⟨0, Nat.le_refl _, tracks⟩, trivial, rfl, rfl, Nat.le_refl _, rfl⟩

/-- The record of an answered append stands behind all others. -/
theorem Trace.Sound.append {trace : Trace} (sound : trace.Sound) (write : Write)
    (sixDigits : trace.SixDigits write) (directory : Directory) (wal : Wal) (lsn : Nat)
    (success : append trace.directory trace.wal write.entry.1 write.entry.2 =
      .ok ((directory, wal), lsn)) :
    lsn = trace.history.length + 1 ∧ wal.segment.isSome ∧ ({ trace with
      directory, wal, history := trace.history ++ [write.record trace.wal.last_lsn] } : Trace).Sound := by
  obtain ⟨gone, covered, tracks⟩ := sound.tracks
  obtain ⟨fits, rfl, written⟩ := append_ok _ _ _ _ _ _ success
  have files := sixDigits directory wal _ success
  have within : gone ≤ trace.history.length := Nat.le_trans covered sound.completed
  have opened : wal.segment.isSome := by
    have reached := congrArg (fun pair => pair.2.segment.isSome) written
    exact reached
  have newer : wal.last_lsn = trace.wal.last_lsn + 1 := by
    have reached := congrArg (fun pair => pair.2.last_lsn) written
    exact reached
  have longer : (trace.history ++ [write.record trace.wal.last_lsn]).length =
      trace.history.length + 1 := by
    rw [List.length_append, List.length_singleton]
  have after := tracks.write (write.record trace.wal.last_lsn) fits rfl rfl
  simp only [Write.record] at after
  rw [← written] at after
  refine ⟨by rw [sound.last], opened, ⟨gone, covered, ?_⟩, ?_, ?_, sound.manifest, ?_,
    ?_⟩
  · rw [List.drop_append_of_le_length within]
    exact after files
  · apply chained_concat 0 _ _ sound.chained
    · rw [Nat.zero_add, ← sound.last]
      rfl
    · rw [Nat.zero_add, ← sound.last]
      rfl
  · rw [longer, newer, sound.last]
  · rw [longer]
    exact Nat.le_succ_of_le sound.completed
  · rw [List.take_append_of_le_length sound.completed]
    exact sound.marker

/-- Every write keeps a run sound. -/
theorem Trace.Sound.step {trace : Trace} (sound : trace.Sound) (write : Write)
    (sixDigits : trace.SixDigits write) : (trace.step write).Sound := by
  cases write with
  | append kind payload =>
    simp only [Trace.step]
    cases appended : Log.append trace.directory trace.wal kind payload with
    | error raised => exact sound
    | ok answer =>
      obtain ⟨⟨directory, wal⟩, lsn⟩ := answer
      exact (sound.append (.append kind payload) sixDigits directory wal lsn appended).2.2
  | checkpoint =>
    have current : ¬ trace.wal.last_lsn < trace.bundle.manifest.checkpoint_lsn := by
      rw [sound.manifest, sound.last]
      exact Nat.not_lt.mpr sound.completed
    simp only [Trace.step, checkpoint, current, ↓reduceIte]
    cases appended : Log.append trace.directory trace.wal CHECKPOINT_KIND [] with
    | error raised => exact sound
    | ok answer =>
      obtain ⟨⟨directory, wal⟩, marker⟩ := answer
      obtain ⟨lsn, opened, marked⟩ :=
        sound.append .checkpoint sixDigits directory wal marker appended
      obtain ⟨gone, covered, tracks⟩ := marked.tracks
      have total : (trace.history ++ [Write.checkpoint.record trace.wal.last_lsn]).length = marker := by
        rw [List.length_append, List.length_singleton, lsn]
      have bounds := chained_bounds 0 _ marked.chained
      obtain ⟨final, count, more, run, fewer, tracksAfter⟩ := tracks.truncate opened marker (by
        intro record member
        have bound := (bounds record (List.mem_of_mem_drop member)).2
        rwa [Nat.zero_add, total] at bound)
      simp only [run, Except.map]
      rw [List.drop_drop] at tracksAfter
      rw [List.length_drop, total] at fewer
      have earlier : gone ≤ marker := Nat.le_trans covered (total ▸ marked.completed)
      refine ⟨⟨gone + more, by dsimp only; omega, tracksAfter⟩, marked.chained, marked.last, rfl,
        Nat.le_of_eq total.symm, ?_⟩
      dsimp only
      rw [← total, List.take_length, last_marker_concat _ _ _ rfl, total, lsn, ← sound.last]
      rfl

/-- Every run within six digits stays sound. -/
theorem Trace.Reached.sound {path : String} {trace : Trace} (reached : Trace.Reached path trace) :
    trace.Sound := by
  induction reached with
  | start roll_size accepted => exact Trace.start_sound path roll_size
  | step trace write reached sixDigits inductionHypothesis =>
    exact inductionHypothesis.step write sixDigits

/-- A run that stops between the two halves of a checkpoint: the marker is on
disk and the manifest does not know it. -/
def Trace.Stopped (trace : Trace) (directory : Directory) : Prop :=
  ∃ wal lsn, append trace.directory trace.wal CHECKPOINT_KIND [] = .ok ((directory, wal), lsn) ∧
    directory.SixDigits

/-- The history of a run that stopped behind the marker of a checkpoint. -/
def Trace.marked (trace : Trace) : List WalRecord :=
  trace.history ++ [Write.checkpoint.record trace.history.length]

/-- The manifest recovery leaves after a history. -/
def recoveredManifest (history : List WalRecord) : Manifest :=
  { last_lsn := history.length, checkpoint_lsn := lastMarker 0 history }

/-- Recovery after a sound run replays what the last completed checkpoint does not
cover. -/
theorem Trace.Sound.recover {trace : Trace} (sound : trace.Sound) {State : Type}
    (handlers : String → Option (RedoHandler State)) (state : State) :
    ∃ report, recover trace.bundle trace.directory handlers state =
      (callHandlers handlers (redoable (trace.history.drop trace.completed)) state).map
        fun state => (report,
          { trace.bundle with manifest := recoveredManifest trace.history }, state) := by
  obtain ⟨gone, covered, tracks⟩ := sound.tracks
  have read := tracks.read
  have positive : (trace.history.drop gone).filter (0 < ·.lsn) = trace.history.drop gone := by
    rw [List.filter_eq_self]
    intro record member
    exact decide_eq_true (chained_bounds 0 _ sound.chained record (List.mem_of_mem_drop member)).1
  have since : iterSince trace.directory 0 = .ok (trace.history.drop gone) := by
    simp only [iterSince, read, bind, Except.bind, pure, Except.pure, positive]
  have opened : ∃ wal, openWal trace.directory DEFAULT_ROLL_SIZE = .ok wal := by
    have accepted : ¬ DEFAULT_ROLL_SIZE ≤ HEADER_SIZE + 64 := by decide
    simp only [openWal, accepted, ↓reduceIte, read, bind, Except.bind, pure, Except.pure]
    exact ⟨_, rfl⟩
  obtain ⟨wal, opened⟩ := opened
  have split : trace.history.drop gone = (trace.history.take trace.completed).drop gone ++
      trace.history.drop trace.completed := by
    have within : gone ≤ (trace.history.take trace.completed).length := by
      rw [List.length_take, Nat.min_eq_left sound.completed]
      exact covered
    rw [← List.drop_append_of_le_length within, List.take_append_drop]
  have front : ∀ record ∈ (trace.history.take trace.completed).drop gone,
      record.lsn ≤ trace.completed := by
    intro record member
    have bound := (chained_bounds 0 _ (chained_take 0 trace.completed _ sound.chained) record
      (List.mem_of_mem_drop member)).2
    rw [List.length_take] at bound
    omega
  have rest := chained_drop 0 trace.completed _ sound.chained sound.completed
  rw [Nat.zero_add] at rest
  obtain ⟨skipped, skipping⟩ := replay_covered handlers _
    { report := { checkpoint_lsn := trace.completed }, last_seen := trace.completed,
      boundary := trace.completed, state } front (Nat.le_refl _)
  obtain ⟨report, replaying⟩ := replay_chain handlers _ trace.completed rest
    { report := skipped, last_seen := trace.completed, boundary := trace.completed, state }
    (Nat.le_refl _) rfl
  have seen : trace.completed + (trace.history.drop trace.completed).length =
      trace.history.length := by
    rw [List.length_drop]
    exact Nat.add_sub_cancel' sound.completed
  have boundary : lastMarker trace.completed (trace.history.drop trace.completed) =
      lastMarker 0 trace.history := by
    have whole := last_marker_append 0 (trace.history.take trace.completed)
      (trace.history.drop trace.completed)
    rwa [List.take_append_drop, sound.marker, eq_comm] at whole
  rw [seen, boundary] at replaying
  refine ⟨{ report with
    last_lsn := trace.history.length, checkpoint_lsn := lastMarker 0 trace.history }, ?_⟩
  simp only [Log.recover, opened, since, split, List.foldlM_append, sound.manifest, skipping,
    replaying, bind, Except.bind]
  cases callHandlers handlers (redoable (trace.history.drop trace.completed)) state with
  | error raised => rfl
  | ok reached =>
    simp only [Except.map, pure, Except.pure, recoveredManifest]
    split
    · rfl
    · case isFalse same =>
      rw [not_or, not_not, not_not] at same
      rw [same.1, same.2, ← sound.manifest]

/-- Whatever a run appended and however often it checkpointed, recovery calls the
handlers on exactly the records behind the last completed checkpoint that are no
markers, in the order of their LSNs, and the manifest ends at the newest LSN and
the last marker. The same holds where a checkpoint stopped behind its marker. -/
theorem recover_replays {path : String} {trace : Trace} (reached : Trace.Reached path trace)
    {State : Type} (handlers : String → Option (RedoHandler State)) (state : State) :
    Chained 0 trace.history ∧
    (∃ report, recover trace.bundle trace.directory handlers state =
      (callHandlers handlers (redoable (trace.history.drop trace.completed)) state).map
        fun state => (report,
          { trace.bundle with manifest := recoveredManifest trace.history }, state)) ∧
    ∀ directory, trace.Stopped directory →
      ∃ report, recover trace.bundle directory handlers state =
        (callHandlers handlers (redoable (trace.history.drop trace.completed)) state).map
          fun state => (report,
            { trace.bundle with manifest := recoveredManifest trace.marked }, state) := by
  have sound := reached.sound
  refine ⟨sound.chained, sound.recover handlers state, ?_⟩
  rintro directory ⟨wal, lsn, appended, sixDigits⟩
  have marker : trace.SixDigits .checkpoint := by
    intro reachedDirectory reachedWal reachedLsn again
    rw [Write.entry, appended] at again
    cases again
    exact sixDigits
  obtain ⟨_, _, stopped⟩ := sound.append .checkpoint marker directory wal lsn appended
  obtain ⟨report, run⟩ := stopped.recover handlers state
  have undispatched : redoable ((trace.history ++
      [Write.checkpoint.record trace.wal.last_lsn]).drop trace.completed) =
        redoable (trace.history.drop trace.completed) := by
    rw [List.drop_append_of_le_length sound.completed, redoable, List.filter_append]
    simp [redoable, Write.record, Write.entry]
  dsimp only at run
  rw [undispatched, sound.last] at run
  exact ⟨report, run⟩

/-- A handler that notes the record it is called for. -/
def noteRecord : RedoHandler (List WalRecord) := fun record noted => .ok (noted ++ [record])

/-- Six digits can be checked by running the append. -/
theorem six_digits_of_run (trace : Trace) (write : Write)
    (checked : ((append trace.directory trace.wal write.entry.1 write.entry.2).toOption.all
      fun answer => answer.1.1.indices.all (· < 1000000)) = true) : trace.SixDigits write := by
  intro directory wal lsn success
  rw [success] at checked
  intro index present
  have all : directory.indices.all (· < 1000000) = true := checked
  exact of_decide_eq_true (List.all_eq_true.mp all index present)

/-- A record, a checkpoint, and another record. -/
def checkpointedTrace : Trace :=
  (((Trace.start "b.crcl" 200).step (.append "INSERT_NODE" [97])).step .checkpoint).step
    (.append "INSERT_NODE" [98])

/-- Only the last record is replayed. -/
theorem recover_after_checkpoint : ∃ report,
    recover checkpointedTrace.bundle checkpointedTrace.directory (fun _ => some noteRecord) [] =
      .ok (report, { path := "b.crcl", manifest := { last_lsn := 3, checkpoint_lsn := 2 } },
        [{ lsn := 3, prev_lsn := 2, kind := "INSERT_NODE", payload := [98] }]) := by
  have reached : Trace.Reached "b.crcl" checkpointedTrace := by
    apply Trace.Reached.step
    · apply Trace.Reached.step
      · apply Trace.Reached.step
        · exact Trace.Reached.start 200 (by decide)
        · exact six_digits_of_run _ _ (by decide +kernel)
      · exact six_digits_of_run _ _ (by decide +kernel)
    · exact six_digits_of_run _ _ (by decide +kernel)
  have run := (recover_replays reached (fun _ => some noteRecord) []).2.1
  have behind : checkpointedTrace.history.drop checkpointedTrace.completed =
      [{ lsn := 3, prev_lsn := 2, kind := "INSERT_NODE", payload := [98] }] := by decide +kernel
  have manifest : { checkpointedTrace.bundle with
      manifest := recoveredManifest checkpointedTrace.history } =
        ({ path := "b.crcl", manifest := { last_lsn := 3, checkpoint_lsn := 2 } } : Bundle) := by
    decide +kernel
  rw [behind, manifest] at run
  exact run

/-- A caller may append a record of the marker's kind. Recovery dispatches the
record in front of it and moves the checkpoint to it, although no checkpoint ever
ran. -/
theorem appended_marker_moves_checkpoint :
    let trace := ([.append "INSERT_NODE" [97], .append CHECKPOINT_KIND []] : List Write).foldl
      Trace.step (Trace.start "b.crcl" 200)
    trace.completed = 0 ∧ trace.history.getLast?.map WalRecord.kind = some CHECKPOINT_KIND ∧
    (recover trace.bundle trace.directory (fun _ => some noteRecord) []).toOption.map
        (fun answer => (answer.2.1.manifest.checkpoint_lsn, answer.2.2.map WalRecord.lsn)) =
      some (2, [1]) := by
  decide +kernel

end CaracalDB.Log
