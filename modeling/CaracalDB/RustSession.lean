import CaracalDB.RecoveredCounter
import CaracalDB.RustWal

/-!
# Histories of a Rust log

The same operations as on a Python log. All records stand in one segment, so
opening at the last record is opening at the largest LSN.
-/

namespace CaracalDB.Rust

open Log

structure Session where
  bundle : Bundle
  directory : Directory
  wal : Wal
  returned : List Nat

inductive Operation where
  | append (kind : String) (payload : List UInt8)
  | truncate_before (lsn : Nat)
  | checkpoint
  | reopen

/-- One operation. A call that fails leaves what it did before failing. -/
def Session.step (session : Session) : Operation → Session
  | .append kind payload =>
      let ((directory, wal), result) := append session.directory session.wal kind payload
      { session with directory, wal, returned := session.returned ++ match result with
        | .ok lsn => [lsn]
        | .error _ => [] }
  | .truncate_before lsn =>
      { session with directory := (truncateBefore session.directory lsn).1 }
  | .checkpoint =>
      let ((bundle, directory, wal), result) :=
        checkpoint session.bundle session.directory session.wal
      { bundle, directory, wal, returned := session.returned ++ match result with
        | .ok answer => [answer.checkpoint_lsn]
        | .error _ => [] }
  | .reopen =>
      match openWal session.directory with
      | .error _ => session
      | .ok wal => { session with wal }

/-- A new bundle with the first handle on its empty log directory. -/
def Session.start (path : String) : Session :=
  { bundle := { path, manifest := {} }
    directory := { path := path ++ "/wal", segments := [] }
    wal := { last_lsn := 0 }
    returned := [] }

/-- LSNs were handed out, and no segment holds a record any more. -/
def Session.Emptied (session : Session) : Prop :=
  0 < session.wal.last_lsn ∧ iterAllRecords session.directory = .ok []

/-- The log is not reopened while it is emptied, and the LSN word does not wrap. -/
def Session.Allows (session : Session) : Operation → Prop
  | .append _ _ => session.wal.last_lsn + 1 < U64_SIZE
  | .checkpoint => session.wal.last_lsn + 1 < U64_SIZE
  | .truncate_before _ => True
  | .reopen => ¬ session.Emptied

/-- The sessions of histories that allow each of their operations. -/
inductive Session.Reached (path : String) : Session → Prop where
  | start : Session.Reached path (Session.start path)
  | step (session : Session) (operation : Operation) (reached : Session.Reached path session)
      (allowed : session.Allows operation) : Session.Reached path (session.step operation)

/-- The counter a session stands for. -/
def Session.counter (session : Session) : Counter :=
  { last := session.wal.last_lsn
    surviving := session.directory.lsns
    issued := session.returned }

/-- Both readers see an empty log alike. -/
theorem reads_empty (directory : Directory) :
    iterAllRecords directory = .ok [] ↔ Log.iterAllRecords directory = .ok [] := by
  rw [iter_all_same]
  cases Log.iterAllRecords directory with
  | error raised => simp [Except.mapError]
  | ok records => simp [Except.mapError]

/-- At most one segment, and the groups of a directory. -/
structure Single (directory : Directory) (groups : List Group) : Prop where
  shows : Shows directory groups
  atMostOne : groups.length ≤ 1

/-- The segment an append writes to is there and holds what the log holds. -/
theorem Single.target {directory : Directory} {groups : List Group}
    (single : Single directory groups) : ∃ records,
      Single (if directory.segments.any (·.index == segmentIndex directory) then directory
        else directory.put (segmentIndex directory) packHeader)
        [⟨segmentIndex directory, records⟩] ∧
      ∀ record, record ∈ records ↔ ∃ group ∈ groups, record ∈ group.records := by
  have shows := single.shows
  match groups, single.atMostOne with
  | [], _ =>
    have empty : directory.segments = [] := shows.files
    have first : segmentIndex directory = 1 := by simp [segmentIndex, walSegments, empty]
    refine ⟨[], ⟨?_, Nat.le_refl _⟩, by simp⟩
    have put := shows.put (segmentIndex directory)
    simpa [empty] using put
  | [group], _ =>
    have files : directory.segments = [group.file] := shows.files
    have index : segmentIndex directory = group.index := by
      simp [segmentIndex, walSegments, files, Group.file]
    refine ⟨group.records, ⟨?_, Nat.le_refl _⟩, by simp⟩
    simpa [files, index, Group.file] using shows

/-- The last record read is the newest one. -/
theorem Single.open {directory : Directory} {groups : List Group}
    (single : Single directory groups) (wal : Wal) (opened : openWal directory = .ok wal) :
    IsGreatest directory.lsns wal.last_lsn ∨ (directory.lsns = ∅ ∧ wal.last_lsn = 0) := by
  have shows := single.shows
  obtain ⟨sorted, reordered, files⟩ := shows.sorted
  have read : Log.iterAllRecords directory = .ok (sorted.flatMap Group.records) := by
    rw [Log.iterAllRecords, files]
    exact iter_groups directory sorted fun group member =>
      shows.fits group (reordered.mem_iff.mp member)
  rw [openWal, iter_all_same, read] at opened
  simp only [Except.mapError, bind, Except.bind, pure, Except.pure, Except.ok.injEq] at opened
  subst opened
  have atMostOne := single.atMostOne
  cases groups with
  | nil =>
    have nothing : sorted = [] := reordered.eq_nil
    rw [nothing] at read ⊢
    exact Or.inr ⟨shows.lsns_empty.mpr read, rfl⟩
  | cons group others =>
    obtain rfl : others = [] := by simpa using atMostOne
    have only : sorted = [group] := List.perm_singleton.mp reordered
    rw [only] at read ⊢
    simp only [List.flatMap_cons, List.flatMap_nil, List.append_nil] at read ⊢
    cases last : group.records.getLast? with
    | none =>
      have empty := List.getLast?_eq_none_iff.mp last
      rw [empty] at read
      exact Or.inr ⟨shows.lsns_empty.mpr read, rfl⟩
    | some record =>
      have member := List.mem_of_getLast? last
      left
      refine ⟨(shows.lsns _).mpr ⟨group, List.mem_singleton.mpr rfl, record, member, rfl⟩, ?_⟩
      intro lsn survives
      obtain ⟨other, isOther, older, inside, rfl⟩ := (shows.lsns lsn).mp survives
      rw [List.mem_singleton.mp isOther] at inside
      obtain ⟨newest, isNewest, _, below⟩ :=
        shows.last_newest (List.mem_singleton.mpr rfl) inside
      rw [last] at isNewest
      cases isNewest
      exact below

/-- A truncation forgets LSNs, but not the newest one unless it forgets all. -/
theorem Single.truncate {directory : Directory} {groups : List Group}
    (single : Single directory groups) (last lsn : Nat)
    (bounded : ∀ any ∈ directory.lsns, any ≤ last)
    (newest : directory.lsns.Nonempty → last ∈ directory.lsns) :
    ∃ final count after, truncateBefore directory lsn = (final, .ok count) ∧
      Single final after ∧ final.lsns ⊆ directory.lsns ∧
      (final.lsns.Nonempty → last ∈ final.lsns) := by
  have kept : Kept directory ⟨0, none, last⟩ groups := by
    refine ⟨single.shows, ?_⟩
    intro segment opened
    cases opened
  obtain ⟨final, count, after, run, keptAfter, remaining, fewer, newestAfter⟩ :=
    kept.truncate lsn bounded newest
  have run' : truncateBefore directory lsn = (final, .ok count) := by
    simp only [Log.truncateBefore] at run
    rw [truncateBefore, truncate_segments_same lsn last, run]
    rfl
  have fewGroups : after.length ≤ groups.length :=
    (List.subperm_of_subset keptAfter.shows.distinct.of_map remaining).length_le
  exact ⟨final, count, after, run', ⟨keptAfter.shows, Nat.le_trans fewGroups single.atMostOne⟩, fewer,
    newestAfter⟩

/-- Whatever an append answers, the log before it is still shown; an answered
append added its record. -/
theorem Single.append {directory : Directory} {groups : List Group}
    (single : Single directory groups) (wal : Wal) (kind : String) (payload : List UInt8)
    (room : wal.last_lsn + 1 < U64_SIZE)
    (bounded : ∀ any ∈ directory.lsns, any ≤ wal.last_lsn) : ∃ final after,
      Single final after ∧
      ((∃ raised, append directory wal kind payload = ((final, wal), .error raised) ∧
          final.lsns = directory.lsns) ∨
        (append directory wal kind payload =
            ((final, ⟨wal.last_lsn + 1⟩), .ok (wal.last_lsn + 1)) ∧
          wal.last_lsn + 1 ∈ final.lsns ∧
          ∀ any ∈ final.lsns, any = wal.last_lsn + 1 ∨ any ∈ directory.lsns)) := by
  obtain ⟨records, target, same⟩ := single.target
  have next : (wal.last_lsn + 1) % U64_SIZE = wal.last_lsn + 1 := Nat.mod_eq_of_lt room
  have unchanged : (if directory.segments.any (·.index == segmentIndex directory) then directory
      else directory.put (segmentIndex directory) packHeader).lsns = directory.lsns := by
    ext lsn
    rw [target.shows.lsns, single.shows.lsns]
    constructor
    · rintro ⟨group, member, record, inside, rfl⟩
      rw [List.mem_singleton.mp member] at inside
      obtain ⟨old, present, again⟩ := (same record).mp inside
      exact ⟨old, present, record, again, rfl⟩
    · rintro ⟨group, member, record, inside, rfl⟩
      exact ⟨_, List.mem_singleton.mpr rfl, record, (same record).mpr ⟨group, member, inside⟩, rfl⟩
  simp only [Rust.append, next]
  generalize (if directory.segments.any (·.index == segmentIndex directory) then directory
      else directory.put (segmentIndex directory) packHeader) = opened at target unchanged ⊢
  cases encoded : encode ⟨wal.last_lsn + 1, wal.last_lsn, kind, payload⟩ with
  | error raised => exact ⟨opened, _, target, Or.inl ⟨raised, rfl, unchanged⟩⟩
  | ok bytes =>
    obtain ⟨fits, rfl⟩ : (⟨wal.last_lsn + 1, wal.last_lsn, kind, payload⟩ : WalRecord).Fits ∧
        bytes = (⟨wal.last_lsn + 1, wal.last_lsn, kind, payload⟩ : WalRecord).bytes := by
      rw [encode] at encoded
      split at encoded
      · cases encoded
      · split at encoded
        · cases encoded
        · cases encoded
          exact ⟨⟨room, Nat.lt_of_succ_lt room, by omega, by omega⟩, rfl⟩
    have newest : ∀ group ∈ [(⟨segmentIndex directory, records⟩ : Group)],
        ∀ older ∈ group.records, older.lsn < wal.last_lsn + 1 := by
      intro group member older inside
      have survives : older.lsn ∈ directory.lsns := by
        rw [← unchanged]
        exact (target.shows.lsns _).mpr ⟨group, member, older, inside, rfl⟩
      exact Nat.lt_succ_of_le (bounded _ survives)
    have extended := target.shows.extend (segmentIndex directory)
      ⟨wal.last_lsn + 1, wal.last_lsn, kind, payload⟩ fits newest
    refine ⟨_, _, ⟨extended, Nat.le_refl _⟩, Or.inr ⟨rfl, ?_, ?_⟩⟩
    · rw [extended.lsns]
      refine ⟨_, List.mem_singleton.mpr rfl, ⟨wal.last_lsn + 1, wal.last_lsn, kind, payload⟩, ?_, rfl⟩
      simp [Group.extend]
    · intro any survives
      obtain ⟨group, member, record, inside, rfl⟩ := (extended.lsns any).mp survives
      rw [List.map_singleton, List.mem_singleton] at member
      rw [member] at inside
      simp only [Group.extend, ↓reduceIte, List.mem_append, List.mem_singleton] at inside
      rcases inside with older | rfl
      · right
        rw [← unchanged]
        exact (target.shows.lsns _).mpr ⟨_, List.mem_singleton.mpr rfl, record, older, rfl⟩
      · exact Or.inl rfl

/-- What holds in every session of an allowed history. -/
structure Session.Sound (session : Session) : Prop where
  single : ∃ groups, Single session.directory groups
  counter : session.counter.Sound
  checkpoint_le : session.bundle.manifest.checkpoint_lsn ≤ session.wal.last_lsn

theorem Session.start_sound (path : String) : (Session.start path).Sound := by
  have shows : Shows (Session.start path).directory [] := by
    constructor
    · rfl
    · simp
    · simp
    · simp
  refine ⟨⟨[], shows, Nat.zero_le _⟩, ?_, Nat.le_refl _⟩
  have nothing : (Session.start path).counter = Counter.initial := by
    ext
    · rfl
    · simp [Session.counter, shows.lsns, Counter.initial]
    · rfl
  rw [nothing]
  exact Counter.initial_sound

/-- The directory and handle an append leaves, with its answer. -/
theorem Session.Sound.append {session : Session} (sound : session.Sound) (kind : String)
    (payload : List UInt8) (room : session.wal.last_lsn + 1 < U64_SIZE) :
    (∃ directory raised, Rust.append session.directory session.wal kind payload =
        ((directory, session.wal), .error raised) ∧
      ({ session with directory } : Session).Sound) ∨
    ∃ directory, Rust.append session.directory session.wal kind payload =
        ((directory, ⟨session.wal.last_lsn + 1⟩), .ok (session.wal.last_lsn + 1)) ∧
      ({ session with
        directory
        wal := ⟨session.wal.last_lsn + 1⟩
        returned := session.returned ++ [session.wal.last_lsn + 1] } : Session).Sound := by
  obtain ⟨groups, single⟩ := sound.single
  obtain ⟨final, after, singleAfter, ⟨raised, failed, same⟩ | ⟨answered, found, known⟩⟩ :=
    single.append session.wal kind payload room sound.counter.surviving_le
  · refine Or.inl ⟨final, raised, failed, ⟨after, singleAfter⟩, ?_, sound.checkpoint_le⟩
    rw [Session.counter]
    dsimp only
    rw [same]
    exact sound.counter
  · refine Or.inr ⟨final, answered, ⟨after, singleAfter⟩, ?_, ?_⟩
    · exact sound.counter.move (.issue session.counter final.lsns found known)
    · exact Nat.le_succ_of_le sound.checkpoint_le

/-- A truncation forgets. -/
theorem Session.Sound.truncate {session : Session} (sound : session.Sound) (lsn : Nat) :
    ∃ final count, truncateBefore session.directory lsn = (final, .ok count) ∧
      ({ session with directory := final } : Session).Sound := by
  obtain ⟨groups, single⟩ := sound.single
  obtain ⟨final, count, after, run, singleAfter, fewer, newest⟩ := single.truncate
    session.wal.last_lsn lsn sound.counter.surviving_le sound.counter.newest
  exact ⟨final, count, run, ⟨after, singleAfter⟩,
    sound.counter.move (.forget session.counter final.lsns fewer newest), sound.checkpoint_le⟩

/-- Every allowed operation keeps a session sound. -/
theorem Session.Sound.step {session : Session} (sound : session.Sound) (operation : Operation)
    (allowed : session.Allows operation) : (session.step operation).Sound := by
  cases operation with
  | append kind payload =>
    simp only [Session.step]
    rcases sound.append kind payload allowed with
      ⟨directory, raised, failed, after⟩ | ⟨directory, answered, after⟩
    · simp only [failed, List.append_nil]
      exact after
    · simp only [answered]
      exact after
  | truncate_before lsn =>
    obtain ⟨final, _, run, truncated⟩ := sound.truncate lsn
    simp only [Session.step, run]
    exact truncated
  | checkpoint =>
    have current : ¬ session.wal.last_lsn < session.bundle.manifest.checkpoint_lsn :=
      Nat.not_lt.mpr sound.checkpoint_le
    simp only [Session.step, checkpoint, current, ↓reduceIte]
    rcases sound.append CHECKPOINT_KIND [] allowed with
      ⟨directory, raised, failed, after⟩ | ⟨directory, answered, marked⟩
    · simp only [failed, List.append_nil]
      exact after
    · obtain ⟨final, count, run, truncated⟩ := marked.truncate (session.wal.last_lsn + 1)
      simp only at run
      simp only [answered, run, Except.map]
      exact ⟨truncated.single, truncated.counter, Nat.le_refl _⟩
  | reopen =>
    obtain ⟨groups, single⟩ := sound.single
    simp only [Session.step]
    cases opened : openWal session.directory with
    | error raised => exact sound
    | ok wal =>
      have largest := single.open wal opened
      have evidence : ¬ session.counter.Emptied := by
        rintro ⟨positive, nothing⟩
        exact allowed ⟨positive, (reads_empty _).mpr (single.shows.lsns_empty.mp nothing)⟩
      have same := sound.counter.recovered wal.last_lsn evidence largest
      exact ⟨⟨groups, single⟩,
        sound.counter.move (.recover session.counter wal.last_lsn evidence largest),
        Nat.le_trans sound.checkpoint_le (Nat.le_of_eq same.symm)⟩

/-- Every allowed history stays sound. -/
theorem Session.Reached.sound {path : String} {session : Session}
    (reached : Session.Reached path session) : session.Sound := by
  induction reached with
  | start => exact Session.start_sound path
  | step session operation reached allowed inductionHypothesis =>
    exact inductionHypothesis.step operation allowed

end CaracalDB.Rust
