import CaracalDB.Checkpoint
import CaracalDB.LogView
import CaracalDB.RecoveredCounter

/-!
# Histories of a Python log

A history is any order of appends, truncations, checkpoints, closings and
reopenings of one log directory, one handle at a time. The LSNs behave like a
counter that is recovered from what survives in the directory: appending issues
a number, truncation forgets, and reopening recovers.
-/

namespace CaracalDB.Log

/-- Everything a history changes, and the LSNs its appends answered. -/
structure Session where
  bundle : Bundle
  directory : Directory
  wal : Wal
  returned : List Nat

inductive Operation where
  | append (kind : String) (payload : List UInt8)
  | truncate_before (lsn : Nat)
  | checkpoint
  | close
  | reopen (roll_size : Nat)

/-- One operation. A call that raises leaves what it did before raising. -/
def Session.step (session : Session) : Operation → Session
  | .append kind payload =>
      match append session.directory session.wal kind payload with
      | .error _ => session
      | .ok ((directory, wal), lsn) =>
          { session with directory, wal, returned := session.returned ++ [lsn] }
  | .truncate_before lsn =>
      { session with directory := (truncateBefore session.directory session.wal lsn).1 }
  | .checkpoint =>
      let ((bundle, directory, wal), result) :=
        checkpoint session.bundle session.directory session.wal
      { bundle, directory, wal, returned := session.returned ++ match result with
        | .ok answer => [answer.checkpoint_lsn]
        | .error _ => [] }
  | .close => { session with wal := close session.wal }
  | .reopen roll_size =>
      match openWal session.directory roll_size with
      | .error _ => session
      | .ok wal => { session with wal }

/-- A new bundle with the first handle on its empty log directory. -/
def Session.start (path : String) (roll_size : Nat) : Session :=
  { bundle := { path, manifest := {} }
    directory := { path := path ++ "/wal", segments := [] }
    wal := { roll_size, segment := none, last_lsn := 0 }
    returned := [] }

/-- LSNs were handed out, and no segment holds a record any more. -/
def Session.Emptied (session : Session) : Prop :=
  0 < session.wal.last_lsn ∧ iterAllRecords session.directory = .ok []

/-- The log is not reopened while it is emptied. -/
def Session.Allows (session : Session) : Operation → Prop
  | .reopen _ => ¬ session.Emptied
  | _ => True

/-- The sessions of histories that never reopen an emptied log. -/
inductive Session.Reached (path : String) : Session → Prop where
  | start (roll_size : Nat) (accepted : HEADER_SIZE + 64 < roll_size) :
      Session.Reached path (Session.start path roll_size)
  | step (session : Session) (operation : Operation) (reached : Session.Reached path session)
      (allowed : session.Allows operation) : Session.Reached path (session.step operation)

/-- The counter a session stands for. -/
def Session.counter (session : Session) : Counter :=
  { last := session.wal.last_lsn
    surviving := session.directory.lsns
    issued := session.returned }

/-- What holds in every session whose history never reopens an emptied log. -/
structure Session.Sound (session : Session) : Prop where
  kept : ∃ groups, Kept session.directory session.wal groups
  counter : session.counter.Sound
  checkpoint_le : session.bundle.manifest.checkpoint_lsn ≤ session.wal.last_lsn

theorem Session.start_sound (path : String) (roll_size : Nat) :
    (Session.start path roll_size).Sound := by
  have shows : Shows (Session.start path roll_size).directory [] := by
    constructor
    · rfl
    · simp
    · simp
    · simp
  refine ⟨⟨[], shows, ?_⟩, ?_, Nat.le_refl _⟩
  · intro segment opened
    cases opened
  · have nothing : (Session.start path roll_size).counter = Counter.initial := by
      ext
      · rfl
      · simp [Session.counter, shows.lsns, Counter.initial]
      · rfl
    rw [nothing]
    exact Counter.initial_sound

/-- A successful append issues the next number. -/
theorem Session.Sound.append {session : Session} (sound : session.Sound) (kind : String)
    (payload : List UInt8) (directory : Directory) (wal : Wal) (lsn : Nat)
    (success : append session.directory session.wal kind payload = .ok ((directory, wal), lsn)) :
    lsn = session.wal.last_lsn + 1 ∧ wal.last_lsn = lsn ∧
      ({ session with directory, wal, returned := session.returned ++ [lsn] } : Session).Sound := by
  obtain ⟨groups, kept⟩ := sound.kept
  obtain ⟨fits, rfl, written⟩ := append_ok _ _ _ _ _ _ success
  obtain ⟨after, keptAfter, found, known⟩ := kept.write _ fits rfl sound.counter.surviving_le
  rw [← written] at keptAfter found known
  have newer : wal.last_lsn = session.wal.last_lsn + 1 := by
    have reached := congrArg (fun pair => pair.2.last_lsn) written
    exact reached
  refine ⟨rfl, newer, ⟨after, keptAfter⟩, ?_, ?_⟩
  · have moved := sound.counter.move (.issue session.counter directory.lsns found known)
    rw [Session.counter]
    rw [newer]
    exact moved
  · exact Nat.le_trans sound.checkpoint_le (by rw [newer]; exact Nat.le_succ _)

/-- A truncation forgets. -/
theorem Session.Sound.truncate {session : Session} (sound : session.Sound) (lsn : Nat) :
    ∃ count, (truncateBefore session.directory session.wal lsn).2 = .ok count ∧
      ({ session with
        directory := (truncateBefore session.directory session.wal lsn).1 } : Session).Sound := by
  obtain ⟨groups, kept⟩ := sound.kept
  obtain ⟨final, count, after, run, keptAfter, _, fewer, newest⟩ :=
    kept.truncate lsn sound.counter.surviving_le sound.counter.newest
  rw [run]
  exact ⟨count, rfl, ⟨after, keptAfter⟩,
    sound.counter.move (.forget session.counter final.lsns fewer newest), sound.checkpoint_le⟩

/-- A checkpoint issues the marker's number and forgets; its guard never fires. -/
theorem Session.Sound.checkpoint {session : Session} (sound : session.Sound) :
    (session.step .checkpoint).Sound := by
  have current : ¬ session.wal.last_lsn < session.bundle.manifest.checkpoint_lsn :=
    Nat.not_lt.mpr sound.checkpoint_le
  simp only [Session.step, Log.checkpoint, current, ↓reduceIte]
  cases appended : Log.append session.directory session.wal CHECKPOINT_KIND [] with
  | error raised =>
    simp only [List.append_nil]
    exact sound
  | ok answer =>
    obtain ⟨⟨directory, wal⟩, marker⟩ := answer
    obtain ⟨_, last, marked⟩ := sound.append CHECKPOINT_KIND [] directory wal marker appended
    obtain ⟨count, removed, truncated⟩ := marked.truncate marker
    simp only [removed, Except.map]
    exact ⟨truncated.kept, truncated.counter, Nat.le_of_eq last.symm⟩

/-- Reopening recovers, where the log is not emptied. -/
theorem Session.Sound.reopen {session : Session} (sound : session.Sound) (roll_size : Nat)
    (allowed : ¬ session.Emptied) : (session.step (.reopen roll_size)).Sound := by
  obtain ⟨groups, kept⟩ := sound.kept
  simp only [Session.step]
  cases opened : openWal session.directory roll_size with
  | error raised => exact sound
  | ok wal =>
    obtain ⟨closed, largest⟩ := kept.shows.open roll_size wal opened
    have evidence : ¬ session.counter.Emptied := by
      rintro ⟨positive, nothing⟩
      exact allowed ⟨positive, kept.shows.lsns_empty.mp nothing⟩
    have same := sound.counter.recovered wal.last_lsn evidence largest
    refine ⟨⟨groups, kept.shows, ?_⟩, ?_, ?_⟩
    · intro segment isOpen
      rw [closed] at isOpen
      cases isOpen
    · exact sound.counter.move (.recover session.counter wal.last_lsn evidence largest)
    · exact Nat.le_trans sound.checkpoint_le (Nat.le_of_eq same.symm)

/-- Every allowed operation keeps a session sound. -/
theorem Session.Sound.step {session : Session} (sound : session.Sound) (operation : Operation)
    (allowed : session.Allows operation) : (session.step operation).Sound := by
  cases operation with
  | append kind payload =>
    simp only [Session.step]
    cases appended : Log.append session.directory session.wal kind payload with
    | error raised => exact sound
    | ok answer =>
      obtain ⟨⟨directory, wal⟩, lsn⟩ := answer
      exact (sound.append kind payload directory wal lsn appended).2.2
  | truncate_before lsn =>
    obtain ⟨_, _, truncated⟩ := sound.truncate lsn
    exact truncated
  | checkpoint => exact sound.checkpoint
  | close =>
    obtain ⟨groups, kept⟩ := sound.kept
    refine ⟨⟨groups, kept.shows, ?_⟩, sound.counter, sound.checkpoint_le⟩
    intro segment isOpen
    cases isOpen
  | reopen roll_size => exact sound.reopen roll_size allowed

/-- Every history that never reopens an emptied log stays sound. -/
theorem Session.Reached.sound {path : String} {session : Session}
    (reached : Session.Reached path session) : session.Sound := by
  induction reached with
  | start roll_size accepted => exact Session.start_sound path roll_size
  | step session operation reached allowed inductionHypothesis =>
    exact inductionHypothesis.step operation allowed

end CaracalDB.Log
