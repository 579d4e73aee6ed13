import CaracalDB.Checkpoint
import CaracalDB.LogView

/-!
# The Rust write-ahead log

The Rust handle knows only its directory and the last LSN; every append opens the
last segment anew, and no segment is ever left for another. The record format
and the checks of the reader are those of the Python log; only the error of an
invalid kind differs. Truncation has no open segment to spare, so a checkpoint
deletes its own marker.
-/

namespace CaracalDB.Rust

open Bytes Crc32 Log

/-- `Wal`, without the directory. -/
structure Wal where
  last_lsn : Nat
deriving DecidableEq

/-- One more than the largest `u64`. -/
def U64_SIZE : Nat := 256 ^ 8

/-- `WalRecord::encode` -/
def encode (record : WalRecord) : Except Raised (List UInt8) :=
  if (utf8 record.kind).length ≥ 256 ^ 4 then raiseCaracal "CDB-7050" "WAL kind is too large"
  else if record.payload.length ≥ 256 ^ 4 then
    raiseCaracal "CDB-7050" "WAL payload is too large"
  else .ok record.bytes

/-- The engine reports a kind that is no UTF-8 under its own code. -/
def engineError : Raised → Raised
  | .unicodeDecodeError => .invalidKind
  | raised => raised

/-- `read_record` -/
def readRecord (data : List UInt8) (offset : Nat) : Except Raised (Option (WalRecord × Nat)) :=
  (Log.readRecord data offset).mapError engineError

/-- The loop of `iter_segment_records`. -/
def scanRecords (data : List UInt8) : Nat → Nat → Except Raised (List WalRecord)
  | 0, _ => .ok []
  | fuel + 1, cursor =>
      if cursor < data.length then do
        match ← readRecord data cursor with
        | none => return []
        | some (record, next) => return record :: (← scanRecords data fuel next)
      else .ok []

def iterSegmentRecords (path : String) (data : List UInt8) : Except Raised (List WalRecord) :=
  if data.length < HEADER_SIZE ∨ data.take MAGIC.length ≠ MAGIC then
    raiseCaracal "CDB-7053" ("invalid WAL segment header: " ++ path)
  else scanRecords data data.length HEADER_SIZE

def iterSegments (directory : Directory) : List SegmentFile → Except Raised (List WalRecord)
  | [] => .ok []
  | file :: rest => do
      let records ← iterSegmentRecords (segmentPath directory file.index) file.data
      return records ++ (← iterSegments directory rest)

def iterAllRecords (directory : Directory) : Except Raised (List WalRecord) :=
  iterSegments directory (walSegments directory)

/-- `Wal::open` continues from the last record it reads. -/
def openWal (directory : Directory) : Except Raised Wal := do
  let records ← iterAllRecords directory
  return { last_lsn := (records.getLast?.map WalRecord.lsn).getD 0 }

/-- `segment_path`: the last segment, or the first one there will be. -/
def segmentIndex (directory : Directory) : Nat :=
  match (walSegments directory).getLast? with
  | some tail => tail.index
  | none => 1

/-- `append`: the segment is there, with its header, before the record is encoded.
The LSN wraps at the end of the word. -/
def append (directory : Directory) (wal : Wal) (kind : String) (payload : List UInt8) :
    (Directory × Wal) × Except Raised Nat :=
  let lsn := (wal.last_lsn + 1) % U64_SIZE
  let record : WalRecord := { lsn, prev_lsn := wal.last_lsn, kind, payload }
  let index := segmentIndex directory
  let directory :=
    if directory.segments.any (·.index == index) then directory
    else directory.put index packHeader
  match encode record with
  | .error raised => ((directory, wal), .error raised)
  | .ok encoded => ((directory.extend index encoded, { last_lsn := lsn }), .ok lsn)

/-- The loop of `truncate_before`. -/
def truncateSegments (lsn : Nat) : List SegmentFile → Directory → Nat →
    Directory × Except Raised Nat
  | [], directory, removed => (directory, .ok removed)
  | file :: rest, directory, removed =>
      match iterSegmentRecords (segmentPath directory file.index) file.data with
      | .error raised => (directory, .error raised)
      | .ok records =>
          match records.getLast?.map WalRecord.lsn with
          | some max_lsn =>
              if max_lsn ≤ lsn then
                truncateSegments lsn rest (directory.unlink file.index) (removed + 1)
              else truncateSegments lsn rest directory removed
          | none => truncateSegments lsn rest directory removed

def truncateBefore (directory : Directory) (lsn : Nat) : Directory × Except Raised Nat :=
  truncateSegments lsn (walSegments directory) directory 0

structure CheckpointResult where
  checkpoint_lsn : Nat
  wal_segments_removed : Nat

/-- `checkpoint` of the Rust engine. -/
def checkpoint (bundle : Bundle) (directory : Directory) (wal : Wal) :
    (Bundle × Directory × Wal) × Except Raised CheckpointResult :=
  if wal.last_lsn < bundle.manifest.checkpoint_lsn then
    ((bundle, directory, wal),
      .error (regressionError wal.last_lsn bundle.manifest.checkpoint_lsn))
  else match append directory wal CHECKPOINT_KIND [] with
    | ((directory, wal), .error raised) => ((bundle, directory, wal), .error raised)
    | ((directory, wal), .ok marker_lsn) =>
        let manifest : Manifest :=
          { bundle.manifest with last_lsn := marker_lsn, checkpoint_lsn := marker_lsn }
        let (directory, removed) := truncateBefore directory marker_lsn
        (({ bundle with manifest }, directory, wal), removed.map fun wal_segments_removed =>
          { checkpoint_lsn := marker_lsn, wal_segments_removed })

/-- The Rust scan finds what the Python scan finds. -/
theorem scan_records_same (data : List UInt8) (fuel cursor : Nat) :
    scanRecords data fuel cursor = (Log.scanRecords data fuel cursor).mapError engineError := by
  induction fuel generalizing cursor with
  | zero => rfl
  | succ fuel inductionHypothesis =>
    simp only [scanRecords, Log.scanRecords, readRecord]
    split
    · cases Log.readRecord data cursor with
      | error raised => rfl
      | ok answer =>
        cases answer with
        | none => rfl
        | some step =>
          simp only [Except.mapError, bind, Except.bind, inductionHypothesis]
          cases Log.scanRecords data fuel step.2 <;> rfl
    · rfl

theorem iter_segment_same (path : String) (data : List UInt8) :
    iterSegmentRecords path data = (Log.iterSegmentRecords path data).mapError engineError := by
  simp only [iterSegmentRecords, Log.iterSegmentRecords, recordsFrom, scan_records_same]
  split <;> rfl

theorem iter_segments_same (directory : Directory) (files : List SegmentFile) :
    iterSegments directory files = (Log.iterSegments directory files).mapError engineError := by
  induction files with
  | nil => rfl
  | cons file rest inductionHypothesis =>
    simp only [iterSegments, Log.iterSegments, inductionHypothesis, iter_segment_same]
    cases Log.iterSegmentRecords (segmentPath directory file.index) file.data with
    | error raised => rfl
    | ok records => cases Log.iterSegments directory rest <;> rfl

/-- Both readers agree on every directory that the Python reader accepts. -/
theorem iter_all_same (directory : Directory) :
    iterAllRecords directory = (Log.iterAllRecords directory).mapError engineError :=
  iter_segments_same directory (walSegments directory)

/-- A Rust truncation is a Python truncation of a handle without open segment. -/
theorem truncate_segments_same (lsn last : Nat) (files : List SegmentFile) (directory : Directory)
    (removed : Nat) :
    truncateSegments lsn files directory removed =
      ((Log.truncateSegments ⟨0, none, last⟩ lsn files directory removed).1,
        (Log.truncateSegments ⟨0, none, last⟩ lsn files directory removed).2.mapError
          engineError) := by
  induction files generalizing directory removed with
  | nil => rfl
  | cons file rest inductionHypothesis =>
    simp only [truncateSegments, Log.truncateSegments, Option.map_none, reduceCtorEq, ↓reduceIte,
      segmentMaxLsn, iter_segment_same]
    cases Log.iterSegmentRecords (segmentPath directory file.index) file.data with
    | error raised => rfl
    | ok records =>
      simp only [Except.mapError, bind, Except.bind, pure, Except.pure]
      cases records.getLast?.map WalRecord.lsn with
      | none => exact inductionHypothesis directory removed
      | some max_lsn =>
        simp only
        split
        · exact inductionHypothesis _ _
        · exact inductionHypothesis _ _

end CaracalDB.Rust
