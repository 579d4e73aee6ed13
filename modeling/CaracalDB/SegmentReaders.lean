import CaracalDB.RustWal

/-!
# Reading corrupted segments

The bytes of a segment file are arbitrary. Both engines stop quietly at a truncated tail and report
a wrong checksum or a wrong header under the same codes. They differ at a kind that is no UTF-8: the
Rust reader reports it as a corrupted record, the Python reader lets the decoder's exception through.
-/

namespace CaracalDB.Rust.Segment

open Bytes Crc32 Log

def CRC_SIZE : Nat := 4

/-- `read_u32_len`, with the cursor behind the length. -/
def readU32Len (data : List UInt8) (cursor : Nat) : Option (Nat × Nat) :=
  if cursor + 4 > data.length then none
  else some (value (slice data cursor (cursor + 4)), cursor + 4)

/-- `read_record` -/
def readRecord (data : List UInt8) (offset : Nat) : Except Raised (Option (WalRecord × Nat)) :=
  if offset + RECORD_HEAD_SIZE > data.length then .ok none
  else
    let lsn := value (slice data offset (offset + 8))
    let prev_lsn := value (slice data (offset + 8) (offset + 16))
    match readU32Len data (offset + RECORD_HEAD_SIZE) with
    | none => .ok none
    | some (kind_len, cursor) =>
        if cursor + kind_len + 4 > data.length then .ok none
        else match String.fromUTF8? ⟨(slice data cursor (cursor + kind_len)).toArray⟩ with
          | none => .error .invalidKind
          | some kind =>
              match readU32Len data (cursor + kind_len) with
              | none => .ok none
              | some (payload_len, cursor) =>
                  if cursor + payload_len + CRC_SIZE > data.length then .ok none
                  else
                    let payload := slice data cursor (cursor + payload_len)
                    let cursor := cursor + payload_len
                    let expected_crc := value (slice data cursor (cursor + CRC_SIZE))
                    let cursor := cursor + CRC_SIZE
                    let actual_crc := crc32 (slice data offset (cursor - CRC_SIZE))
                    if actual_crc ≠ expected_crc then
                      raiseCaracal "CDB-7052" "WAL record CRC mismatch"
                    else .ok (some ({ lsn, prev_lsn, kind, payload }, cursor))

/-- The loop of `iter_segment_records`, behind the records that it has found. -/
def scanRecords (data : List UInt8) :
    Nat → Nat → List WalRecord → Except Raised (List WalRecord)
  | 0, _, records => .ok records
  | fuel + 1, cursor, records =>
      if cursor < data.length then
        match readRecord data cursor with
        | .error raised => .error raised
        | .ok none => .ok records
        | .ok (some (record, next)) => scanRecords data fuel next (records ++ [record])
      else .ok records

/-- `iter_segment_records(path)` of a file with the given bytes. -/
def iterSegmentRecords (path : String) (data : List UInt8) : Except Raised (List WalRecord) :=
  if data.length < HEADER_SIZE ∨ data.take MAGIC.length ≠ MAGIC then
    raiseCaracal "CDB-7053" ("invalid WAL segment header: " ++ path)
  else scanRecords data data.length HEADER_SIZE []

/-! ## One reader and the other -/

/-- The Rust reader of a record is the Python one but for the error of its decoder. -/
theorem read_record_same (data : List UInt8) (offset : Nat) :
    readRecord data offset = Rust.readRecord data offset := by
  rw [Rust.readRecord, read_record_framed]
  unfold readRecord readFramed readU32Len readBlock decodeUtf8 CRC_SIZE
  by_cases head : data.length < offset + RECORD_HEAD_SIZE
  · simp [head, Except.mapError]
  simp only [gt_iff_lt, head, ↓reduceIte]
  have lsns : offset + RECORD_HEAD_SIZE = offset + 16 := rfl
  rw [← lsns]
  generalize offset + RECORD_HEAD_SIZE = start
  generalize value (slice data start (start + 4)) = kind_len
  by_cases noLength : data.length < start + 4
  · have short : data.length < start + 4 + kind_len + 4 := by omega
    simp [noLength, short, Except.mapError]
  by_cases short : data.length < start + 4 + kind_len + 4
  · simp [noLength, short, Except.mapError]
  simp only [noLength, short, ↓reduceIte]
  cases String.fromUTF8? ⟨(slice data (start + 4) (start + 4 + kind_len)).toArray⟩ with
  | none => rfl
  | some kind =>
    simp only [bind, Except.bind]
    generalize start + 4 + kind_len = behind at *
    generalize value (slice data behind (behind + 4)) = payload_len
    by_cases shortPayload : data.length < behind + 4 + payload_len + 4
    · simp [shortPayload, Except.mapError]
    · simp only [shortPayload, ↓reduceIte, Nat.add_sub_cancel]
      by_cases same : crc32 (slice data offset (behind + 4 + payload_len)) =
          value (slice data (behind + 4 + payload_len) (behind + 4 + payload_len + 4))
      · simp [same, Except.mapError]
      · simp [same, Except.mapError, raiseCaracal, engineError]

theorem scan_records_same (data : List UInt8) (fuel cursor : Nat) (records : List WalRecord) :
    scanRecords data fuel cursor records =
      (Rust.scanRecords data fuel cursor).map (records ++ ·) := by
  induction fuel generalizing cursor records with
  | zero => simp [scanRecords, Rust.scanRecords, Except.map]
  | succ fuel inductionHypothesis =>
    rw [scanRecords, Rust.scanRecords, read_record_same]
    split
    · cases Rust.readRecord data cursor with
      | error raised => rfl
      | ok answer =>
        cases answer with
        | none => simp [bind, Except.bind, Except.map, pure, Except.pure]
        | some step =>
          simp only [inductionHypothesis, bind, Except.bind]
          cases Rust.scanRecords data fuel step.2 with
          | error raised => rfl
          | ok later => simp [Except.map, pure, Except.pure]
    · simp [Except.map]

theorem iter_segment_records_same (path : String) (data : List UInt8) :
    iterSegmentRecords path data = (Log.iterSegmentRecords path data).mapError engineError := by
  rw [← iter_segment_same, iterSegmentRecords, Rust.iterSegmentRecords, scan_records_same]
  split
  · rfl
  · cases Rust.scanRecords data data.length HEADER_SIZE <;> rfl

/-! ## What stands in a file -/

/-- A record stands at the front of the bytes whose kind is complete and no UTF-8, with room for the
length of its payload. -/
def InvalidKind (bytes : List UInt8) : Prop :=
  ∃ lsns kind behind, bytes = lsns ++ (word 4 kind.length ++ (kind ++ behind)) ∧
    lsns.length = RECORD_HEAD_SIZE ∧ kind.length < 256 ^ 4 ∧ 4 ≤ behind.length ∧
    String.fromUTF8? ⟨kind.toArray⟩ = none

/-- Behind the header and intact records stands a record with an invalid kind. -/
def HoldsInvalidKind (data : List UInt8) : Prop :=
  HEADER_SIZE ≤ data.length ∧ data.take MAGIC.length = MAGIC ∧
    ∃ records rest, (∀ record ∈ records, record.Fits) ∧
      data.drop HEADER_SIZE = encodings records ++ rest ∧ InvalidKind rest

/-- The decoder raises exactly at an invalid kind. -/
theorem read_invalid_iff (bytes : List UInt8) :
    Log.readRecord bytes 0 = .error .unicodeDecodeError ↔ InvalidKind bytes := by
  rw [read_record_framed, readFramed, Nat.zero_add]
  constructor
  · intro raised
    split at raised
    · cases raised
    · next long =>
      cases found : readBlock bytes RECORD_HEAD_SIZE with
      | none => simp [found] at raised
      | some block =>
        obtain ⟨kind, behind⟩ := block
        obtain ⟨room, position, fits, contents⟩ := (read_block_iff bytes _ kind behind).mp found
        simp only [found, decodeUtf8] at raised
        refine ⟨bytes.take RECORD_HEAD_SIZE, kind, bytes.drop behind, ?_, ?_, fits, ?_, ?_⟩
        · have front := slice_join bytes 0 RECORD_HEAD_SIZE behind (Nat.zero_le _) (by omega)
          rw [slice_zero, slice_zero, contents] at front
          rw [← List.append_assoc (word 4 _), ← List.append_assoc, front, List.take_append_drop]
        · simp only [List.length_take]
          omega
        · simp only [List.length_drop]
          omega
        · cases decoded : String.fromUTF8? ⟨kind.toArray⟩ with
          | none => rfl
          | some text =>
            simp only [decoded, bind, Except.bind] at raised
            split at raised
            · cases raised
            · split at raised <;> cases raised
  · rintro ⟨lsns, kind, behind, rfl, head, fits, room, undecoded⟩
    have block : readBlock (word 4 kind.length ++ (kind ++ behind)) 0 =
        some (kind, 4 + kind.length) := by
      rw [read_block_iff]
      refine ⟨?_, by omega, fits, ?_⟩
      · simp only [List.length_append, word_length]
        omega
      · have whole := slice_append_self (word 4 kind.length ++ kind) behind
        rwa [List.length_append, word_length, List.append_assoc] at whole
    have shifted := read_block_shift lsns (word 4 kind.length ++ (kind ++ behind)) 0
    rw [Nat.add_zero, head, block, Option.map_some] at shifted
    have long : ¬ (lsns ++ (word 4 kind.length ++ (kind ++ behind))).length < RECORD_HEAD_SIZE := by
      rw [List.length_append]
      omega
    simp only [long, ↓reduceIte, shifted, decodeUtf8, undecoded]
    rfl

/-- A record is refused for its checksum or its kind. -/
theorem read_raised {bytes : List UInt8} {raised : Raised}
    (refused : Log.readRecord bytes 0 = .error raised) :
    raised = .caracal { code := "CDB-7052", message := "WAL record CRC mismatch" } ∨
      raised = .unicodeDecodeError := by
  rw [read_record_framed, readFramed] at refused
  split at refused
  · cases refused
  · split at refused
    · cases refused
    · next kind behind _ =>
      cases decoded : decodeUtf8 kind with
      | error error =>
        rw [decoded] at refused
        cases refused
        rw [decodeUtf8] at decoded
        split at decoded <;> cases decoded
        exact .inr rfl
      | ok text =>
        rw [decoded] at refused
        simp only [bind, Except.bind] at refused
        split at refused
        · cases refused
        · split at refused
          · cases refused
          · cases refused
            exact .inl rfl

/-- The three outcomes of parsing: records, a wrong checksum, or an invalid kind behind intact
records. -/
theorem parse_outcome (bytes : List UInt8) :
    (∃ records, parse bytes = .ok records) ∨
      parse bytes = raiseCaracal "CDB-7052" "WAL record CRC mismatch" ∨
      parse bytes = .error .unicodeDecodeError ∧
        ∃ records rest, (∀ record ∈ records, record.Fits) ∧ bytes = encodings records ++ rest ∧
          InvalidKind rest := by
  induction sized : bytes.length using Nat.strongRecOn generalizing bytes with
  | ind size inductionHypothesis =>
    have unfolded := records_from_unfold bytes 0
    split at unfolded
    · cases found : Log.readRecord bytes 0 with
      | error raised =>
        rw [found] at unfolded
        rcases read_raised found with rfl | rfl
        · exact .inr (.inl unfolded)
        · exact .inr (.inr ⟨unfolded, [], bytes, by simp, rfl, (read_invalid_iff bytes).mp found⟩)
      | ok answer =>
        cases answer with
        | none =>
          rw [found] at unfolded
          exact .inl ⟨[], unfolded⟩
        | some step =>
          -- the record stands at the front, so the rest is parsed behind it
          obtain ⟨record, next⟩ := step
          obtain ⟨fits, position, _, contents⟩ := (read_record_iff bytes 0 record next).mp found
          have whole : bytes = record.bytes ++ bytes.drop next := by
            rw [← contents, slice_zero, List.take_append_drop]
          have shorter : (bytes.drop next).length < size := by
            have long := bytes_length record
            rw [List.length_drop]
            omega
          have behind := parse_cons record fits (bytes.drop next)
          rw [← whole] at behind
          rcases inductionHypothesis _ shorter (bytes.drop next) rfl with
            ⟨records, parsed⟩ | mismatch | ⟨undecoded, records, rest, others, split, invalid⟩
          · rw [parsed] at behind
            exact .inl ⟨_, behind⟩
          · rw [mismatch] at behind
            exact .inr (.inl behind)
          · rw [undecoded] at behind
            refine .inr (.inr ⟨behind, record :: records, rest, ?_, ?_, invalid⟩)
            · exact List.forall_mem_cons.mpr ⟨fits, others⟩
            · rw [encodings_cons, List.append_assoc, ← split, ← whole]
    · exact .inl ⟨[], unfolded⟩

/-- Bytes are parsed up to an invalid kind behind intact records. -/
theorem parse_invalid (records : List WalRecord) (fits : ∀ record ∈ records, record.Fits)
    {rest : List UInt8} (invalid : InvalidKind rest) :
    parse (encodings records ++ rest) = .error .unicodeDecodeError := by
  have refused : parse rest = .error .unicodeDecodeError := by
    rw [parse, records_from_unfold, (read_invalid_iff rest).mpr invalid]
    obtain ⟨lsns, kind, behind, rfl, head, _⟩ := invalid
    have inside : 0 < (lsns ++ (word 4 kind.length ++ (kind ++ behind))).length := by
      rw [List.length_append, head]
      exact Nat.add_pos_left (by decide) _
    rw [if_pos inside]
    rfl
  rw [parse_encodings records fits rest, refused]
  rfl

/-! ## Agreement -/

/-- Both readers give the same records, or engine errors of the same code. -/
def Agree (python rust : Except Raised (List WalRecord)) : Prop :=
  match python, rust with
  | .ok records, .ok same => records = same
  | .error raised, .error other =>
      raised.code = other.code ∧
        ∃ error, raised = .caracal error ∧ (error.code = "CDB-7052" ∨ error.code = "CDB-7053")
  | _, _ => False

/-- On every byte string, the two readers agree and the Python reader raises its own errors only,
exactly if no record with an invalid kind stands behind the intact records. -/
theorem segment_readers_agree (path : String) (data : List UInt8) :
    Agree (Log.iterSegmentRecords path data) (iterSegmentRecords path data) ↔
      ¬ HoldsInvalidKind data := by
  rw [iter_segment_records_same]
  by_cases headed : HEADER_SIZE ≤ data.length ∧ data.take MAGIC.length = MAGIC
  · have parsed : Log.iterSegmentRecords path data = parse (data.drop HEADER_SIZE) := by
      have shifted := records_from_shift (data.take HEADER_SIZE) (data.drop HEADER_SIZE) 0
      have size : (data.take HEADER_SIZE).length = HEADER_SIZE := by
        rw [List.length_take]
        exact Nat.min_eq_left headed.1
      rw [List.take_append_drop, size, Nat.add_zero] at shifted
      rw [Log.iterSegmentRecords, if_neg (by simp [headed]), shifted]
      rfl
    rw [parsed]
    constructor
    · rintro agree ⟨_, _, records, rest, fits, split, invalid⟩
      rw [split, parse_invalid records fits invalid] at agree
      obtain ⟨_, error, impossible, _⟩ := agree
      cases impossible
    · intro intact
      rcases parse_outcome (data.drop HEADER_SIZE) with
        ⟨records, done⟩ | mismatch | ⟨_, records, rest, fits, split, invalid⟩
      · rw [done]
        exact rfl
      · rw [mismatch]
        exact ⟨rfl, _, rfl, .inl rfl⟩
      · exact absurd ⟨headed.1, headed.2, records, rest, fits, split, invalid⟩ intact
  · have refused : Log.iterSegmentRecords path data =
        raiseCaracal "CDB-7053" ("invalid WAL segment header: " ++ path) := by
      rw [Log.iterSegmentRecords, if_pos]
      by_contra both
      obtain ⟨long, magic⟩ := not_or.mp both
      exact headed ⟨Nat.le_of_not_lt long, not_not.mp magic⟩
    rw [refused]
    constructor
    · rintro _ ⟨long, magic, _⟩
      exact headed ⟨long, magic⟩
    · intro _
      exact ⟨rfl, _, rfl, .inr rfl⟩

/-- A segment whose only record has the kind byte 255. -/
def undecodableSegment : List UInt8 :=
  packHeader ++ ((word 8 1 ++ word 8 0) ++ (word 4 1 ++ ([255] ++ word 4 0)))

/-- The Python reader lets the decoder's exception through, the Rust reader reports a corrupted
record. -/
theorem undecodable_kind_raised :
    Log.iterSegmentRecords "000001.wal" undecodableSegment = .error .unicodeDecodeError ∧
    iterSegmentRecords "000001.wal" undecodableSegment = .error .invalidKind ∧
    ¬ Agree (Log.iterSegmentRecords "000001.wal" undecodableSegment)
      (iterSegmentRecords "000001.wal" undecodableSegment) := by
  have invalid : InvalidKind ((word 8 1 ++ word 8 0) ++ (word 4 1 ++ ([255] ++ word 4 0))) :=
    ⟨_, [255], _, rfl, by decide, by decide, by decide, by decide⟩
  have raised : Log.iterSegmentRecords "000001.wal" undecodableSegment =
      .error .unicodeDecodeError := by
    rw [undecodableSegment, iter_segment_header]
    exact parse_invalid [] (by simp) invalid
  refine ⟨raised, ?_, ?_⟩
  · rw [iter_segment_records_same, raised]
    rfl
  · rw [raised, iter_segment_records_same, raised]
    rintro ⟨_, error, impossible, _⟩
    cases impossible

end CaracalDB.Rust.Segment
