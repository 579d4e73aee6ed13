import CaracalDB.Loops
import CaracalDB.RustWal

/-!
# The WAL codec in both languages

The Rust encoder and reader are translated from their own source here, branch by
branch, and compared with the Python ones. The encoders accept the same records
and give the same bytes; the readers give the same records of the same buffers.

A segment of encoded records, cut anywhere, is read as the records that the cut
left whole.
-/

namespace CaracalDB.Codec

open Bytes Crc32 Log

/-- `CRC_SIZE` -/
def CRC_SIZE : Nat := 4

/-- `u32::try_from(length)`, or an error. -/
def u32Length (length : Nat) (message : String) : Except Raised Nat :=
  if length < 256 ^ 4 then .ok length else raiseCaracal "CDB-7050" message

/-- `WalRecord::encode` -/
def encode (record : WalRecord) : Except Raised (List UInt8) := do
  let kind := utf8 record.kind
  let kind_len ← u32Length kind.length "WAL kind is too large"
  let payload_len ← u32Length record.payload.length "WAL payload is too large"
  let body := word 8 record.lsn
  let body := body ++ word 8 record.prev_lsn
  let body := body ++ word 4 kind_len
  let body := body ++ kind
  let body := body ++ word 4 payload_len
  let body := body ++ record.payload
  let crc := crc32 body
  return body ++ word 4 crc

/-- `read_u32_len`, with the moved cursor. -/
def readU32Len (data : List UInt8) (cursor : Nat) : Option (Nat × Nat) :=
  if cursor + 4 > data.length then none
  else some (value (slice data cursor (cursor + 4)), cursor + 4)

/-- `str::from_utf8` -/
def fromUtf8 (bytes : List UInt8) : Except Raised String :=
  match String.fromUTF8? ⟨bytes.toArray⟩ with
  | some kind => .ok kind
  | none => .error .invalidKind

/-- `read_record` -/
def readRecord (data : List UInt8) (offset : Nat) : Except Raised (Option (WalRecord × Nat)) := do
  if offset + RECORD_HEAD_SIZE > data.length then
    return none
  let lsn := value (slice data offset (offset + 8))
  let prev_lsn := value (slice data (offset + 8) (offset + 16))
  match readU32Len data (offset + RECORD_HEAD_SIZE) with
  | none => return none
  | some (kind_len, cursor) =>
      if cursor + kind_len + 4 > data.length then
        return none
      let kind ← fromUtf8 (slice data cursor (cursor + kind_len))
      match readU32Len data (cursor + kind_len) with
      | none => return none
      | some (payload_len, cursor) =>
          if cursor + payload_len + CRC_SIZE > data.length then
            return none
          let payload := slice data cursor (cursor + payload_len)
          let cursor := cursor + payload_len
          let expected_crc := value (slice data cursor (cursor + CRC_SIZE))
          let cursor := cursor + CRC_SIZE
          let actual_crc := crc32 (slice data offset (cursor - CRC_SIZE))
          if actual_crc ≠ expected_crc then
            raiseCaracal "CDB-7052" "WAL record CRC mismatch"
          return some ({ lsn, prev_lsn, kind, payload }, cursor)

/-- The loop of `iter_segment_records`. -/
def scanRecords (data : List UInt8) : Nat → Nat → Except Raised (List WalRecord)
  | 0, _ => .ok []
  | fuel + 1, cursor =>
      if cursor < data.length then do
        match ← readRecord data cursor with
        | none => return []
        | some (record, next) => return record :: (← scanRecords data fuel next)
      else .ok []

/-- `iter_segment_records(path)` of a file with the given bytes. -/
def iterSegmentRecords (path : String) (data : List UInt8) : Except Raised (List WalRecord) :=
  if data.length < HEADER_SIZE ∨ data.take MAGIC.length ≠ MAGIC then
    raiseCaracal "CDB-7053" ("invalid WAL segment header: " ++ path)
  else scanRecords data data.length HEADER_SIZE

/-! ## Encoding -/

theorem u32Length_fits {length : Nat} (message : String) (fits : length < 256 ^ 4) :
    u32Length length message = .ok length := if_pos fits

theorem u32Length_refused {length : Nat} (message : String) (long : ¬ length < 256 ^ 4) :
    u32Length length message = raiseCaracal "CDB-7050" message := if_neg long

/-- On records with LSNs of 64 bits the Rust encoder succeeds where both lengths have 32. -/
theorem encode_iff (record : WalRecord) (lsn : record.lsn < 256 ^ 8)
    (prev_lsn : record.prev_lsn < 256 ^ 8) (encoded : List UInt8) :
    encode record = .ok encoded ↔ record.Fits ∧ encoded = record.bytes := by
  by_cases kind : (utf8 record.kind).length < 256 ^ 4
  · by_cases payload : record.payload.length < 256 ^ 4
    · have written : encode record = .ok record.bytes := by
        rw [encode, u32Length_fits _ kind, ok_bind, u32Length_fits _ payload, ok_bind]
        simp only [WalRecord.bytes, WalRecord.body, List.append_assoc]
        rfl
      rw [written]
      constructor
      · intro same
        cases same
        exact ⟨⟨lsn, prev_lsn, kind, payload⟩, rfl⟩
      · rintro ⟨_, rfl⟩
        rfl
    · rw [encode, u32Length_fits _ kind, ok_bind, u32Length_refused _ payload]
      constructor
      · intro same
        cases same
      · rintro ⟨fits, _⟩
        exact absurd fits.payload payload
  · rw [encode, u32Length_refused _ kind]
    constructor
    · intro same
      cases same
    · rintro ⟨fits, _⟩
      exact absurd fits.kind kind

/-- Both encoders give the same bytes of the same records. -/
theorem encode_same (record : WalRecord) (lsn : record.lsn < 256 ^ 8)
    (prev_lsn : record.prev_lsn < 256 ^ 8) (encoded : List UInt8) :
    record.encode = .ok encoded ↔ encode record = .ok encoded := by
  rw [encode_ok_iff, encode_iff record lsn prev_lsn]

/-! ## Reading -/

theorem fromUtf8_same (bytes : List UInt8) :
    fromUtf8 bytes = (decodeUtf8 bytes).mapError Rust.engineError := by
  rw [fromUtf8, decodeUtf8]
  cases String.fromUTF8? ⟨bytes.toArray⟩ <;> rfl

/-- The Rust reader finds what the Python reader finds, under its own error of a kind. -/
theorem readRecord_same (data : List UInt8) (offset : Nat) :
    readRecord data offset = Rust.readRecord data offset := by
  rw [Rust.readRecord, readRecord, Log.readRecord]
  by_cases head : offset + RECORD_HEAD_SIZE > data.length
  · simp only [head, ↓reduceIte]
    rfl
  have stop : offset + 16 = offset + RECORD_HEAD_SIZE := rfl
  simp only [head, ↓reduceIte, readU32Len, stop]
  generalize offset + RECORD_HEAD_SIZE = cursor
  by_cases size : cursor + 4 > data.length
  · simp only [size, ↓reduceIte]
    rfl
  simp only [size, ↓reduceIte]
  generalize value (slice data cursor (cursor + 4)) = kind_len
  by_cases short : cursor + 4 + kind_len + 4 > data.length
  · simp only [short, ↓reduceIte]
    rfl
  simp only [short, ↓reduceIte, fromUtf8_same]
  cases decodeUtf8 (slice data (cursor + 4) (cursor + 4 + kind_len)) with
  | error raised => rfl
  | ok kind =>
    simp only [Except.mapError, ok_bind, CRC_SIZE]
    -- The four bytes demanded behind the kind are those of the next length.
    generalize cursor + 4 + kind_len = after_kind
    generalize value (slice data after_kind (after_kind + 4)) = payload_len
    by_cases cut : after_kind + 4 + payload_len + 4 > data.length
    · simp only [cut, ↓reduceIte]
      rfl
    simp only [cut, ↓reduceIte]
    by_cases same : crc32 (slice data offset (after_kind + 4 + payload_len + 4 - 4)) ≠
        value (slice data (after_kind + 4 + payload_len) (after_kind + 4 + payload_len + 4))
    · rw [if_pos same]
      exact if_pos same
    · rw [if_neg same]
      exact if_neg same

theorem scanRecords_same (data : List UInt8) (fuel cursor : Nat) :
    scanRecords data fuel cursor = Rust.scanRecords data fuel cursor := by
  induction fuel generalizing cursor with
  | zero => rfl
  | succ fuel inductionHypothesis =>
    have others : scanRecords data fuel = Rust.scanRecords data fuel := funext inductionHypothesis
    rw [scanRecords, readRecord_same, others]
    rfl

/-- The Rust reader of a segment succeeds where the Python reader does, with the same records. -/
theorem iterSegmentRecords_same (path : String) (data : List UInt8) :
    iterSegmentRecords path data =
      (Log.iterSegmentRecords path data).mapError Rust.engineError := by
  rw [← Rust.iter_segment_same, iterSegmentRecords, Rust.iterSegmentRecords, scanRecords_same]

theorem mapError_ok_iff {Answer : Type} (result : Except Raised Answer) (answer : Answer) :
    result.mapError Rust.engineError = .ok answer ↔ result = .ok answer := by
  cases result with
  | ok found => exact Iff.rfl
  | error raised => exact ⟨(nomatch ·), (nomatch ·)⟩

/-! ## Cut segments -/

/-- The records that lie wholly within the first bytes of their encodings. -/
def wholly : Nat → List WalRecord → List WalRecord
  | _, [] => []
  | kept, record :: rest =>
      if record.bytes.length ≤ kept then record :: wholly (kept - record.bytes.length) rest else []

/-- The first bytes of a list of encodings are read as the records wholly within them. -/
theorem parse_take (records : List WalRecord) (fits : ∀ record ∈ records, record.Fits)
    (kept : Nat) : parse ((encodings records).take kept) = .ok (wholly kept records) := by
  induction records generalizing kept with
  | nil =>
    rw [encodings_nil, List.take_nil]
    rfl
  | cons record records inductionHypothesis =>
    have recordFits := fits record List.mem_cons_self
    rw [encodings_cons, wholly]
    by_cases whole : record.bytes.length ≤ kept
    · rw [if_pos whole, List.take_append, List.take_of_length_le whole,
        parse_cons record recordFits,
        inductionHypothesis fun later member => fits later (List.mem_cons_of_mem _ member)]
      rfl
    · rw [if_neg whole, List.take_append_of_le_length (Nat.le_of_not_le whole)]
      apply parse_tail
      refine read_torn record recordFits _ (record.bytes.drop kept) (List.take_append_drop _ _) ?_
      intro nothing
      have short := List.drop_eq_nil_iff.mp nothing
      exact whole short

/-- All bytes leave every record whole. -/
theorem wholly_all (records : List WalRecord) : wholly (encodings records).length records = records := by
  induction records with
  | nil => rfl
  | cons record records inductionHypothesis =>
    rw [encodings_cons, List.length_append, wholly, if_pos (Nat.le_add_right _ _),
      Nat.add_sub_cancel_left, inductionHypothesis]

/-- The encoders succeed on exactly the records that fit, and list their bytes. -/
theorem encoded_iff (records : List WalRecord) (parts : List (List UInt8)) :
    records.mapM WalRecord.encode = .ok parts ↔
      (∀ record ∈ records, record.Fits) ∧ parts = records.map WalRecord.bytes := by
  induction records generalizing parts with
  | nil =>
    rw [List.mapM_nil]
    constructor
    · intro done
      cases done
      exact ⟨List.forall_mem_nil _, rfl⟩
    · rintro ⟨_, rfl⟩
      rfl
  | cons record records inductionHypothesis =>
    rw [List.mapM_cons]
    constructor
    · intro done
      obtain ⟨first, encoded, rest⟩ := except_bind_ok done
      obtain ⟨later, others, last⟩ := except_bind_ok rest
      cases last
      obtain ⟨fits, rfl⟩ := (encode_ok_iff record first).mp encoded
      obtain ⟨all, rfl⟩ := (inductionHypothesis later).mp others
      exact ⟨List.forall_mem_cons.mpr ⟨fits, all⟩, rfl⟩
    · rintro ⟨all, rfl⟩
      obtain ⟨fits, others⟩ := List.forall_mem_cons.mp all
      rw [(encode_ok_iff record _).mpr ⟨fits, rfl⟩, ok_bind, (inductionHypothesis _).mpr ⟨others, rfl⟩]
      rfl

/-- Encoded records are read back, whole or cut anywhere, in either language; the encoders
give the same bytes, and the readers accept the same. -/
theorem wal_codec :
    (∀ records parts, records.mapM WalRecord.encode = .ok parts → ∀ path,
      iterSegmentRecords path (packHeader ++ parts.flatten) = .ok records ∧
      Log.iterSegmentRecords path (packHeader ++ parts.flatten) = .ok records ∧
      ∀ kept, iterSegmentRecords path (packHeader ++ parts.flatten.take kept) =
          .ok (wholly kept records) ∧
        Log.iterSegmentRecords path (packHeader ++ parts.flatten.take kept) =
          .ok (wholly kept records)) ∧
    (∀ record : WalRecord, (∃ encoded, record.encode = .ok encoded) ↔ record.Fits) ∧
    (∀ record : WalRecord, record.lsn < 256 ^ 8 → record.prev_lsn < 256 ^ 8 → ∀ encoded,
      record.encode = .ok encoded ↔ encode record = .ok encoded) ∧
    ∀ data offset answer,
      Log.readRecord data offset = .ok answer ↔ readRecord data offset = .ok answer := by
  refine ⟨?_, ?_, fun record lsn prev_lsn => encode_same record lsn prev_lsn, ?_⟩
  · intro records parts encoded path
    obtain ⟨fits, rfl⟩ := (encoded_iff records parts).mp encoded
    have joined : (records.map WalRecord.bytes).flatten = encodings records :=
      (List.flatMap_def).symm
    have cut (kept : Nat) : Log.iterSegmentRecords path
        (packHeader ++ (records.map WalRecord.bytes).flatten.take kept) =
          .ok (wholly kept records) := by
      rw [joined, iter_segment_header, parse_take records fits]
    have whole : Log.iterSegmentRecords path
        (packHeader ++ (records.map WalRecord.bytes).flatten) = .ok records := by
      have all := cut (encodings records).length
      rwa [joined, List.take_length, wholly_all, ← joined] at all
    refine ⟨?_, whole, fun kept => ⟨?_, cut kept⟩⟩
    · rw [iterSegmentRecords_same, whole]
      rfl
    · rw [iterSegmentRecords_same, cut kept]
      rfl
  · intro record
    constructor
    · rintro ⟨encoded, done⟩
      exact ((encode_ok_iff record encoded).mp done).1
    · exact fun fits => ⟨record.bytes, (encode_ok_iff record _).mpr ⟨fits, rfl⟩⟩
  · intro data offset answer
    rw [readRecord_same, Rust.readRecord, mapError_ok_iff]

/-- A record of one byte of payload, cut after its kind. -/
theorem cut_record_unread :
    Log.iterSegmentRecords "000001.wal" (packHeader ++ ([1].map fun lsn =>
      ({ lsn, prev_lsn := 0, kind := "A", payload := [7] } : WalRecord).bytes).flatten.take 21) =
        .ok [] := by
  let record : WalRecord := { lsn := 1, prev_lsn := 0, kind := "A", payload := [7] }
  have fits : record.Fits := ⟨by decide, by decide, by decide, by decide⟩
  have encoded : [record].mapM WalRecord.encode = .ok [record.bytes] :=
    (encoded_iff _ _).mpr ⟨List.forall_mem_singleton.mpr fits, rfl⟩
  exact ((wal_codec.1 [record] [record.bytes] encoded "000001.wal").2.2 21).2

end CaracalDB.Codec
