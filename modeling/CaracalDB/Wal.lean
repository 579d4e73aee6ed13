import CaracalDB.WalDirectory

/-!
# The Python write-ahead log

A handle remembers the last LSN it knows and, once it has appended, the segment
it keeps open together with that file's size. Opening a log reads every segment;
appending either continues the open segment, resumes the last file of the
directory, or starts a new file when the record would exceed the roll size.

The operating system's part is taken as given: every write reaches its file in
order. Encoding is the only step of an append that can raise, and it comes before
any file is touched.
-/

namespace CaracalDB.Log

open Bytes

/-- The segment a handle keeps open. -/
structure Segment where
  index : Nat
  size : Nat
deriving DecidableEq

structure Wal where
  roll_size : Nat
  segment : Option Segment
  last_lsn : Nat
deriving DecidableEq

def DEFAULT_ROLL_SIZE : Nat := 64 * 1024 * 1024

/-- `Wal(directory, roll_size=...)` -/
def openWal (directory : Directory) (roll_size : Nat) : Except Raised Wal := do
  if roll_size ≤ HEADER_SIZE + 64 then
    raiseCaracal "CDB-7050" "roll_size is too small"
  let records ← iterAllRecords directory
  return { roll_size, segment := none, last_lsn := (records.map WalRecord.lsn).foldl max 0 }

/-- `close()` drops the open segment; the handle itself stays usable. -/
def close (wal : Wal) : Wal := { wal with segment := none }

/-- `_create_new_segment`: one past the number of the last file by name. -/
def createNewSegment (directory : Directory) : Directory × Segment :=
  let nextIndex := match (walSegments directory).getLast? with
    | some tail => tail.index + 1
    | none => 1
  (directory.put nextIndex packHeader, { index := nextIndex, size := HEADER_SIZE })

/-- `_resume_or_create` -/
def resumeOrCreate (directory : Directory) (wal : Wal) : Directory × Segment :=
  match (walSegments directory).getLast? with
  | some tail =>
      if tail.data.length < wal.roll_size then
        (directory, { index := tail.index, size := tail.data.length })
      else createNewSegment directory
  | none => createNewSegment directory

/-- The open segment, opened first where there is none. -/
def currentSegment (directory : Directory) (wal : Wal) : Directory × Segment :=
  match wal.segment with
  | some segment => (directory, segment)
  | none => resumeOrCreate directory wal

/-- `_ensure_segment`: a segment that is just created is checked again, so a
record longer than a whole segment leaves one without records behind. -/
def ensureSegment (directory : Directory) (wal : Wal) (extra : Nat) : Directory × Segment :=
  let current := currentSegment directory wal
  if current.2.size + extra > wal.roll_size then createNewSegment current.1 else current

/-- Write an encoded record to the segment that takes it. -/
def writeRecord (directory : Directory) (wal : Wal) (encoded : List UInt8) : Directory × Wal :=
  let (directory, segment) := ensureSegment directory wal encoded.length
  (directory.extend segment.index encoded,
    { wal with
      segment := some { segment with size := segment.size + encoded.length }
      last_lsn := wal.last_lsn + 1 })

/-- `append(kind, payload)` answers the new LSN. -/
def append (directory : Directory) (wal : Wal) (kind : String) (payload : List UInt8) :
    Except Raised ((Directory × Wal) × Nat) := do
  let record : WalRecord := { lsn := wal.last_lsn + 1, prev_lsn := wal.last_lsn, kind, payload }
  let encoded ← record.encode
  return (writeRecord directory wal encoded, wal.last_lsn + 1)

/-- `iter_since(lsn)` -/
def iterSince (directory : Directory) (lsn : Nat) : Except Raised (List WalRecord) := do
  return (← iterAllRecords directory).filter (lsn < ·.lsn)

/-- The loop of `truncate_before`; a segment that cannot be read stops it with
the earlier segments already deleted. -/
def truncateSegments (wal : Wal) (lsn : Nat) : List SegmentFile → Directory → Nat →
    Directory × Except Raised Nat
  | [], directory, removed => (directory, .ok removed)
  | file :: rest, directory, removed =>
      if wal.segment.map Segment.index = some file.index then
        truncateSegments wal lsn rest directory removed
      else match segmentMaxLsn directory file with
        | .error raised => (directory, .error raised)
        | .ok (some max_lsn) =>
            if max_lsn ≤ lsn then
              truncateSegments wal lsn rest (directory.unlink file.index) (removed + 1)
            else truncateSegments wal lsn rest directory removed
        | .ok none => truncateSegments wal lsn rest directory removed

/-- `truncate_before(lsn)` answers the number of deleted segments. -/
def truncateBefore (directory : Directory) (wal : Wal) (lsn : Nat) :
    Directory × Except Raised Nat :=
  truncateSegments wal lsn (walSegments directory) directory 0

/-- What a caller asks to append: a kind and a payload whose lengths the record
format can hold. -/
structure Entry where
  kind : String
  payload : List UInt8
  kind_fits : (utf8 kind).length < 256 ^ 4
  payload_fits : payload.length < 256 ^ 4

/-- The record an append writes for an entry after a given LSN. -/
def Entry.record (entry : Entry) (last : Nat) : WalRecord :=
  { lsn := last + 1, prev_lsn := last, kind := entry.kind, payload := entry.payload }

/-- The records of consecutive appends. -/
def numbered (last : Nat) : List Entry → List WalRecord
  | [] => []
  | entry :: rest => entry.record last :: numbered (last + 1) rest

/-- Append a list of entries, one after another. -/
def appendAll (directory : Directory) (wal : Wal) : List Entry → Except Raised (Directory × Wal)
  | [] => .ok (directory, wal)
  | entry :: rest => do
      let ((directory, wal), _) ← append directory wal entry.kind entry.payload
      appendAll directory wal rest

theorem numbered_length (last : Nat) (entries : List Entry) :
    (numbered last entries).length = entries.length := by
  induction entries generalizing last with
  | nil => rfl
  | cons entry rest inductionHypothesis => simp [numbered, inductionHypothesis]

theorem numbered_append (last : Nat) (first second : List Entry) :
    numbered last (first ++ second) =
      numbered last first ++ numbered (last + first.length) second := by
  induction first generalizing last with
  | nil => simp [numbered]
  | cons entry rest inductionHypothesis =>
    have position : last + 1 + rest.length = last + (rest.length + 1) := by omega
    simp [numbered, inductionHypothesis, position]

theorem numbered_take (last count : Nat) (entries : List Entry) :
    (numbered last entries).take count = numbered last (entries.take count) := by
  induction entries generalizing last count with
  | nil => simp [numbered]
  | cons entry rest inductionHypothesis =>
    cases count with
    | zero => rfl
    | succ count => simp [numbered, inductionHypothesis]

/-- The largest LSN of consecutive appends is that of the last one. -/
theorem numbered_max (last : Nat) (entries : List Entry) :
    ((numbered last entries).map WalRecord.lsn).foldl max last = last + entries.length := by
  induction entries generalizing last with
  | nil => rfl
  | cons entry rest inductionHypothesis =>
    have next : max last (last + 1) = last + 1 := Nat.max_eq_right (Nat.le_succ last)
    simp only [numbered, Entry.record, List.map_cons, List.foldl_cons, next, inductionHypothesis,
      List.length_cons]
    omega

/-- LSNs increase by one and every record points to the one before it. -/
def Chained (last : Nat) : List WalRecord → Prop
  | [] => True
  | record :: rest => record.lsn = last + 1 ∧ record.prev_lsn = last ∧ Chained (last + 1) rest

theorem numbered_chained (last : Nat) (entries : List Entry) : Chained last (numbered last entries) := by
  induction entries generalizing last with
  | nil => trivial
  | cons entry rest inductionHypothesis => exact ⟨rfl, rfl, inductionHypothesis (last + 1)⟩

/-- A record below the largest LSN fits its words. -/
theorem Entry.record_fits (entry : Entry) (last : Nat) (bounded : last + 1 < 256 ^ 8) :
    (entry.record last).Fits :=
  ⟨bounded, Nat.lt_of_succ_lt bounded, entry.kind_fits, entry.payload_fits⟩

theorem numbered_fits (last : Nat) (entries : List Entry)
    (bounded : last + entries.length < 256 ^ 8) : ∀ record ∈ numbered last entries, record.Fits := by
  induction entries generalizing last with
  | nil =>
    intro record member
    cases member
  | cons entry rest inductionHypothesis =>
    rw [List.length_cons] at bounded
    intro record member
    rcases List.mem_cons.mp member with rfl | later
    · exact entry.record_fits last (by omega)
    · exact inductionHypothesis (last + 1) (by omega) record later

/-- The LSN word is the only thing that can refuse an entry. -/
theorem append_entry (directory : Directory) (wal : Wal) (entry : Entry)
    (bounded : wal.last_lsn + 1 < 256 ^ 8) :
    append directory wal entry.kind entry.payload =
      .ok (writeRecord directory wal (entry.record wal.last_lsn).bytes, wal.last_lsn + 1) := by
  have encoded : (entry.record wal.last_lsn).encode =
      .ok (entry.record wal.last_lsn).bytes :=
    (encode_ok_iff _ _).mpr ⟨entry.record_fits wal.last_lsn bounded, rfl⟩
  simp only [Entry.record] at encoded
  simp only [append, encoded, bind, Except.bind, pure, Except.pure, Entry.record]

/-- Whatever an append answers, it wrote a record that fits. -/
theorem append_ok (directory : Directory) (wal : Wal) (kind : String) (payload : List UInt8)
    (after : Directory × Wal) (lsn : Nat)
    (success : append directory wal kind payload = .ok (after, lsn)) :
    (⟨wal.last_lsn + 1, wal.last_lsn, kind, payload⟩ : WalRecord).Fits ∧
      lsn = wal.last_lsn + 1 ∧
      after = writeRecord directory wal
        (⟨wal.last_lsn + 1, wal.last_lsn, kind, payload⟩ : WalRecord).bytes := by
  simp only [append] at success
  cases encoded : (⟨wal.last_lsn + 1, wal.last_lsn, kind, payload⟩ : WalRecord).encode with
  | error raised => simp [encoded, bind, Except.bind] at success
  | ok bytes =>
    obtain ⟨fits, rfl⟩ := (encode_ok_iff _ _).mp encoded
    simp only [encoded, bind, Except.bind, pure, Except.pure, Except.ok.injEq,
      Prod.mk.injEq] at success
    exact ⟨fits, success.2.symm, success.1.symm⟩

@[simp] theorem write_record_last (directory : Directory) (wal : Wal) (encoded : List UInt8) :
    (writeRecord directory wal encoded).2.last_lsn = wal.last_lsn + 1 := rfl

@[simp] theorem write_record_roll (directory : Directory) (wal : Wal) (encoded : List UInt8) :
    (writeRecord directory wal encoded).2.roll_size = wal.roll_size := rfl

end CaracalDB.Log
