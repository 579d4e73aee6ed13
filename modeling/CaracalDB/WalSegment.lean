import CaracalDB.WalRecord

/-!
# Reading one segment file

A segment is the common file header followed by records. The scan stops at the
end of the file or at a truncated tail; every record it passes takes at least 28
bytes, so a fuel of the file's length never runs out.

A scan is determined by what stands behind the header: it returns a list of
records exactly when the bytes are the encodings of that list followed by
something the reader takes for a truncated tail.
-/

namespace CaracalDB.Log

open Bytes Crc32

/-- `b"CRCL\x00\x00\x00\x01"` -/
def MAGIC : List UInt8 := [0x43, 0x52, 0x43, 0x4C, 0, 0, 0, 1]

def FORMAT_VERSION : Nat := 1

def DEFAULT_PAGE_SIZE : Nat := 16 * 1024

def HEADER_SIZE : Nat := 24

def headerCrc32 : Nat :=
  crc32 (MAGIC ++ word 4 FORMAT_VERSION ++ word 4 DEFAULT_PAGE_SIZE ++ word 4 0)

def packHeader : List UInt8 :=
  MAGIC ++ word 4 FORMAT_VERSION ++ word 4 DEFAULT_PAGE_SIZE ++ word 4 0 ++ word 4 headerCrc32

@[simp] theorem pack_header_length : packHeader.length = HEADER_SIZE := by
  simp [packHeader, MAGIC, HEADER_SIZE]

/-- The reading loop of a segment. -/
def scanRecords (data : List UInt8) : Nat → Nat → Except Raised (List WalRecord)
  | 0, _ => .ok []
  | fuel + 1, cursor =>
      if cursor < data.length then do
        match ← readRecord data cursor with
        | none => return []
        | some (record, next) => return record :: (← scanRecords data fuel next)
      else .ok []

/-- Records from a position on. -/
def recordsFrom (data : List UInt8) (cursor : Nat) : Except Raised (List WalRecord) :=
  scanRecords data data.length cursor

/-- `iter_segment_records(path)` of a file with the given bytes. -/
def iterSegmentRecords (path : String) (data : List UInt8) : Except Raised (List WalRecord) :=
  if data.length < HEADER_SIZE ∨ data.take MAGIC.length ≠ MAGIC then
    raiseCaracal "CDB-7053" ("invalid WAL segment header: " ++ path)
  else recordsFrom data HEADER_SIZE

/-- Any fuel that covers the bytes left gives the same scan. -/
theorem scan_records_enough (data : List UInt8) (fuel more cursor : Nat)
    (enough : data.length ≤ cursor + fuel) (enoughMore : data.length ≤ cursor + more) :
    scanRecords data fuel cursor = scanRecords data more cursor := by
  induction fuel generalizing more cursor with
  | zero =>
    have done : ¬ cursor < data.length := by omega
    cases more <;> simp [scanRecords, done]
  | succ fuel inductionHypothesis =>
    cases more with
    | zero =>
      have done : ¬ cursor < data.length := by omega
      simp [scanRecords, done]
    | succ more =>
      simp only [scanRecords]
      split
      · cases found : readRecord data cursor with
        | error raised => rfl
        | ok answer =>
          cases answer with
          | none => rfl
          | some step =>
            obtain ⟨record, next⟩ := step
            obtain ⟨_, position, _, _⟩ := (read_record_iff data cursor record next).mp found
            have size := bytes_length record
            simp only [bind, Except.bind]
            rw [inductionHypothesis more next (by omega) (by omega)]
      · rfl

/-- One round of the scan, free of fuel. -/
theorem records_from_unfold (data : List UInt8) (cursor : Nat) :
    recordsFrom data cursor =
      if cursor < data.length then do
        match ← readRecord data cursor with
        | none => return []
        | some (record, next) => return record :: (← recordsFrom data next)
      else .ok [] := by
  unfold recordsFrom
  rw [scan_records_enough data data.length (data.length + 1) cursor (by omega) (by omega)]
  rfl

/-- A scan behind a leading part is the scan of the rest. -/
theorem records_from_shift (leading rest : List UInt8) (cursor : Nat) :
    recordsFrom (leading ++ rest) (leading.length + cursor) = recordsFrom rest cursor := by
  induction left : rest.length - cursor using Nat.strongRecOn generalizing cursor with
  | ind left inductionHypothesis =>
    rw [records_from_unfold, records_from_unfold rest, read_record_shift, List.length_append]
    by_cases inside : cursor < rest.length
    · have shiftedInside : leading.length + cursor < leading.length + rest.length := by omega
      simp only [inside, shiftedInside, ↓reduceIte]
      cases found : readRecord rest cursor with
      | error raised => rfl
      | ok answer =>
        cases answer with
        | none => rfl
        | some step =>
          obtain ⟨record, next⟩ := step
          obtain ⟨_, position, _, _⟩ := (read_record_iff rest cursor record next).mp found
          have size := bytes_length record
          simp only [Except.map, Option.map_some, bind, Except.bind]
          rw [inductionHypothesis (rest.length - next) (by omega) next rfl]
    · have shiftedOutside : ¬ leading.length + cursor < leading.length + rest.length := by omega
      simp only [inside, shiftedOutside, ↓reduceIte]

/-- The records a byte string starts with. -/
def parse (bytes : List UInt8) : Except Raised (List WalRecord) := recordsFrom bytes 0

/-- A file that starts with the header is read by parsing what follows. -/
theorem iter_segment_header (path : String) (rest : List UInt8) :
    iterSegmentRecords path (packHeader ++ rest) = parse rest := by
  have long : ¬ (packHeader ++ rest).length < HEADER_SIZE := by simp
  have magic : (packHeader ++ rest).take MAGIC.length = MAGIC := by
    simp only [packHeader, List.append_assoc]
    exact List.take_left
  simp only [iterSegmentRecords, long, magic, ne_eq, not_true_eq_false, or_self, ↓reduceIte]
  have shifted := records_from_shift packHeader rest 0
  rwa [pack_header_length, Nat.add_zero] at shifted

/-- A file shorter than the header is refused. -/
theorem iter_segment_short (path : String) (data : List UInt8) (short : data.length < HEADER_SIZE) :
    iterSegmentRecords path data =
      raiseCaracal "CDB-7053" ("invalid WAL segment header: " ++ path) := by
  simp only [iterSegmentRecords, short, true_or, ↓reduceIte]

/-- Nothing behind the header is no record. -/
@[simp] theorem parse_nil : parse [] = .ok [] := by
  rfl

/-- An encoded record is found and the rest is parsed behind it. -/
theorem parse_cons (record : WalRecord) (fits : record.Fits) (rest : List UInt8) :
    parse (record.bytes ++ rest) = (parse rest).map (record :: ·) := by
  have size := bytes_length record
  have found : readRecord (record.bytes ++ rest) 0 = .ok (some (record, record.bytes.length)) := by
    rw [read_record_iff]
    exact ⟨fits, by omega, by simp, slice_append_self record.bytes rest⟩
  have inside : 0 < (record.bytes ++ rest).length := by
    rw [List.length_append]
    omega
  have behind := records_from_shift record.bytes rest 0
  rw [Nat.add_zero] at behind
  rw [parse, records_from_unfold]
  simp only [inside, ↓reduceIte, found, bind, Except.bind, behind, parse]
  rfl

/-- A truncated tail parses to nothing. -/
theorem parse_tail (bytes : List UInt8) (tail : readRecord bytes 0 = .ok none) :
    parse bytes = .ok [] := by
  rw [parse, records_from_unfold, tail]
  split <;> rfl

/-- A proper prefix of an encoded record is a truncated tail. -/
theorem read_torn (record : WalRecord) (fits : record.Fits) (torn missing : List UInt8)
    (whole : torn ++ missing = record.bytes) (lost : missing ≠ []) :
    readRecord torn 0 = .ok none := by
  have found : readRecord record.bytes 0 = .ok (some (record, record.bytes.length)) := by
    rw [read_record_iff]
    refine ⟨fits, by omega, by omega, ?_⟩
    rw [slice_zero, List.take_length]
  have shorter : torn.length < record.bytes.length := by
    have positive := List.length_pos_of_ne_nil lost
    rw [← whole, List.length_append]
    omega
  have cut := read_record_cut record.bytes 0 torn.length record record.bytes.length found shorter
  rwa [← whole, List.take_left] at cut

/-- The encodings of a list, one after another. -/
def encodings (records : List WalRecord) : List UInt8 := records.flatMap WalRecord.bytes

@[simp] theorem encodings_nil : encodings [] = [] := rfl

@[simp] theorem encodings_cons (record : WalRecord) (rest : List WalRecord) :
    encodings (record :: rest) = record.bytes ++ encodings rest := by
  simp [encodings]

@[simp] theorem encodings_append (first second : List WalRecord) :
    encodings (first ++ second) = encodings first ++ encodings second := by
  simp [encodings]

/-- Encoded records are found in order, whatever follows them. -/
theorem parse_encodings (records : List WalRecord) (fits : ∀ record ∈ records, record.Fits)
    (rest : List UInt8) : parse (encodings records ++ rest) = (parse rest).map (records ++ ·) := by
  induction records with
  | nil =>
    simp only [encodings_nil, List.nil_append]
    cases parse rest <;> rfl
  | cons record records inductionHypothesis =>
    rw [encodings_cons, List.append_assoc, parse_cons record (fits record (by simp)),
      inductionHypothesis (fun later member => fits later (by simp [member]))]
    cases parse rest <;> rfl

/-- Whatever a scan returns first is encoded at the front. -/
theorem parse_inversion (bytes : List UInt8) (record : WalRecord) (records : List WalRecord)
    (parsed : parse bytes = .ok (record :: records)) :
    ∃ rest, bytes = record.bytes ++ rest ∧ parse rest = .ok records := by
  rw [parse, records_from_unfold] at parsed
  split at parsed
  · cases found : readRecord bytes 0 with
    | error raised => simp [found, bind, Except.bind] at parsed
    | ok answer =>
      cases answer with
      | none => simp [found, bind, Except.bind, pure, Except.pure] at parsed
      | some step =>
        obtain ⟨first, next⟩ := step
        obtain ⟨_, position, within, contents⟩ := (read_record_iff bytes 0 first next).mp found
        simp only [found, bind, Except.bind] at parsed
        cases behind : recordsFrom bytes next with
        | error raised => simp [behind] at parsed
        | ok later =>
          obtain ⟨rfl, rfl⟩ : first = record ∧ later = records := by
            simpa [behind, pure, Except.pure] using parsed
          have split : bytes = first.bytes ++ bytes.drop next := by
            rw [← contents, slice_zero, List.take_append_drop]
          refine ⟨bytes.drop next, split, ?_⟩
          have shifted := records_from_shift first.bytes (bytes.drop next) 0
          rw [← split, Nat.add_zero, ← Nat.zero_add first.bytes.length, ← position, behind]
            at shifted
          exact shifted.symm
  · cases parsed

end CaracalDB.Log
