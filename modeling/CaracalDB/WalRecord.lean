import CaracalDB.Bytes
import CaracalDB.Crc32
import CaracalDB.Diagnostics

/-!
# Encoding and reading one WAL record

A record is its two LSNs, a length-prefixed UTF-8 kind, a length-prefixed
payload and a CRC-32 over everything before it. The reader checks each length
against the bytes that are left before it touches them: running out of bytes is
a truncated tail, and only a complete record can fail its checksum.

Three laws carry every later argument about files. Reading at an encoded record
gives the record and the position behind it; reading at a proper prefix of an
encoded record gives a truncated tail; and whatever the reader accepts is the
encoding of the record it returns. Nothing is said about accidental checksum
matches: the third law covers them.
-/

namespace CaracalDB.Log

open Bytes Crc32

structure WalRecord where
  lsn : Nat
  prev_lsn : Nat
  kind : String
  payload : List UInt8
deriving DecidableEq

def RECORD_HEAD_SIZE : Nat := 16

/-- The UTF-8 bytes of a kind. -/
def utf8 (kind : String) : List UInt8 := kind.toUTF8.data.toList

/-- `bytes.decode("utf-8")`. -/
def decodeUtf8 (bytes : List UInt8) : Except Raised String :=
  match String.fromUTF8? ⟨bytes.toArray⟩ with
  | some kind => .ok kind
  | none => .error .unicodeDecodeError

/-- `struct.pack` of one unsigned little-endian word. -/
def pack (width number : Nat) : Except Raised (List UInt8) :=
  if number < 256 ^ width then .ok (word width number) else .error .structError

namespace WalRecord

/-- The record without its checksum. -/
def body (record : WalRecord) : List UInt8 :=
  word 8 record.lsn ++ (word 8 record.prev_lsn ++ (word 4 (utf8 record.kind).length ++
    (utf8 record.kind ++ (word 4 record.payload.length ++ record.payload))))

/-- The bytes of a record whose fields fit their words. -/
def bytes (record : WalRecord) : List UInt8 :=
  record.body ++ word 4 (crc32 record.body)

/-- Every field fits the word the format gives it. -/
structure Fits (record : WalRecord) : Prop where
  lsn : record.lsn < 256 ^ 8
  prev_lsn : record.prev_lsn < 256 ^ 8
  kind : (utf8 record.kind).length < 256 ^ 4
  payload : record.payload.length < 256 ^ 4

def encode (record : WalRecord) : Except Raised (List UInt8) := do
  let kind_bytes := utf8 record.kind
  let head := (← pack 8 record.lsn) ++ (← pack 8 record.prev_lsn)
  let body := head ++ (← pack 4 kind_bytes.length) ++ kind_bytes ++
    (← pack 4 record.payload.length) ++ record.payload
  let crc := crc32 body
  return body ++ (← pack 4 crc)

end WalRecord

/-- Read one record at an offset. The answer is the record with the position
behind it, or nothing when the buffer ends first. -/
def readRecord (buffer : List UInt8) (offset : Nat) :
    Except Raised (Option (WalRecord × Nat)) := do
  if offset + RECORD_HEAD_SIZE > buffer.length then
    return none
  let lsn := value (slice buffer offset (offset + 8))
  let prev_lsn := value (slice buffer (offset + 8) (offset + RECORD_HEAD_SIZE))
  let cursor := offset + RECORD_HEAD_SIZE
  if cursor + 4 > buffer.length then
    return none
  let kind_len := value (slice buffer cursor (cursor + 4))
  let cursor := cursor + 4
  if cursor + kind_len + 4 > buffer.length then
    return none
  let kind ← decodeUtf8 (slice buffer cursor (cursor + kind_len))
  let cursor := cursor + kind_len
  let payload_len := value (slice buffer cursor (cursor + 4))
  let cursor := cursor + 4
  if cursor + payload_len + 4 > buffer.length then
    return none
  let payload := slice buffer cursor (cursor + payload_len)
  let cursor := cursor + payload_len
  let expected_crc := value (slice buffer cursor (cursor + 4))
  let cursor := cursor + 4
  let body := slice buffer offset (cursor - 4)
  let actual_crc := crc32 body
  if actual_crc ≠ expected_crc then
    raiseCaracal "CDB-7052" "WAL record CRC mismatch"
  return some ({ lsn, prev_lsn, kind, payload }, cursor)

/-- Decoding the bytes of a kind gives the kind back. -/
theorem decode_utf8 (kind : String) : decodeUtf8 (utf8 kind) = .ok kind := by
  have same : (⟨(utf8 kind).toArray⟩ : ByteArray) = kind.toUTF8 := by
    simp [utf8]
  have valid : String.fromUTF8? kind.toUTF8 = some kind := by
    have isValid : kind.toUTF8.IsValidUTF8 := kind.isValidUTF8
    simp only [String.fromUTF8?, isValid, ↓reduceDIte]
    rfl
  simp only [decodeUtf8, same, valid]

/-- Accepted bytes are the UTF-8 bytes of the decoded kind. -/
theorem utf8_decode (bytes : List UInt8) (kind : String)
    (decoded : decodeUtf8 bytes = .ok kind) : utf8 kind = bytes := by
  unfold decodeUtf8 at decoded
  cases found : String.fromUTF8? ⟨bytes.toArray⟩ with
  | none => simp [found] at decoded
  | some answer =>
    have same : answer = kind := by simpa [found] using decoded
    subst same
    unfold String.fromUTF8? at found
    split at found
    · case isTrue valid =>
      have text : String.fromUTF8 ⟨bytes.toArray⟩ valid = answer := Option.some.inj found
      rw [← text]
      simp [utf8, String.fromUTF8]
    · case isFalse => cases found

theorem pack_fits (width number : Nat) (fits : number < 256 ^ width) :
    pack width number = .ok (word width number) := by
  simp [pack, fits]

theorem pack_refused (width number : Nat) (long : ¬ number < 256 ^ width) :
    pack width number = .error .structError := if_neg long

/-- `encode` succeeds exactly on the records whose fields fit, and gives their
bytes. -/
theorem encode_ok_iff (record : WalRecord) (encoded : List UInt8) :
    record.encode = .ok encoded ↔ record.Fits ∧ encoded = record.bytes := by
  constructor
  · intro success
    by_cases lsn : record.lsn < 256 ^ 8
    · by_cases prev : record.prev_lsn < 256 ^ 8
      · by_cases kind : (utf8 record.kind).length < 256 ^ 4
        · by_cases payload : record.payload.length < 256 ^ 4
          · refine ⟨⟨lsn, prev, kind, payload⟩, ?_⟩
            have crc := pack_fits 4 _ (crc32_bound record.body)
            simp only [WalRecord.encode, pack_fits _ _ lsn, pack_fits _ _ prev,
              pack_fits _ _ kind, pack_fits _ _ payload] at success
            simp only [WalRecord.body] at crc
            simp only [bind, Except.bind, List.append_assoc, crc, pure, Except.pure,
              Except.ok.injEq] at success
            simp only [WalRecord.bytes, WalRecord.body, List.append_assoc, ← success]
          · rw [WalRecord.encode, pack_fits _ _ lsn, pack_fits _ _ prev, pack_fits _ _ kind,
              pack_refused _ _ payload] at success
            cases success
        · rw [WalRecord.encode, pack_fits _ _ lsn, pack_fits _ _ prev,
            pack_refused _ _ kind] at success
          cases success
      · rw [WalRecord.encode, pack_fits _ _ lsn, pack_refused _ _ prev] at success
        cases success
    · rw [WalRecord.encode, pack_refused _ _ lsn] at success
      cases success
  · rintro ⟨fits, rfl⟩
    have crc := pack_fits 4 _ (crc32_bound record.body)
    simp only [WalRecord.body] at crc
    simp only [WalRecord.encode, pack_fits _ _ fits.lsn, pack_fits _ _ fits.prev_lsn,
      pack_fits _ _ fits.kind, pack_fits _ _ fits.payload, bind, Except.bind,
      List.append_assoc, crc, pure, Except.pure, WalRecord.bytes, WalRecord.body]

/-- A length-prefixed block that is followed by at least four more bytes. -/
def readBlock (buffer : List UInt8) (cursor : Nat) : Option (List UInt8 × Nat) :=
  let size := value (slice buffer cursor (cursor + 4))
  if buffer.length < cursor + 4 + size + 4 then none
  else some (slice buffer (cursor + 4) (cursor + 4 + size), cursor + 4 + size)

/-- The reader with its two length-prefixed blocks named. -/
def readFramed (buffer : List UInt8) (offset : Nat) :
    Except Raised (Option (WalRecord × Nat)) :=
  if buffer.length < offset + RECORD_HEAD_SIZE then .ok none
  else match readBlock buffer (offset + RECORD_HEAD_SIZE) with
    | none => .ok none
    | some (kindBytes, afterKind) => do
        let kind ← decodeUtf8 kindBytes
        match readBlock buffer afterKind with
        | none => .ok none
        | some (payload, afterPayload) =>
            if crc32 (slice buffer offset afterPayload) =
                value (slice buffer afterPayload (afterPayload + 4)) then
              .ok (some (⟨value (slice buffer offset (offset + 8)),
                value (slice buffer (offset + 8) (offset + RECORD_HEAD_SIZE)), kind, payload⟩,
                afterPayload + 4))
            else raiseCaracal "CDB-7052" "WAL record CRC mismatch"

/-- The reader's checks are those of its two blocks; the payload's own prefix is
covered by the four bytes demanded behind the kind. -/
theorem read_record_framed (buffer : List UInt8) (offset : Nat) :
    readRecord buffer offset = readFramed buffer offset := by
  unfold readRecord readFramed readBlock
  by_cases head : buffer.length < offset + RECORD_HEAD_SIZE
  · simp [head]; rfl
  simp only [gt_iff_lt, head, ↓reduceIte]
  generalize offset + RECORD_HEAD_SIZE = cursor
  generalize value (slice buffer cursor (cursor + 4)) = kindLen
  by_cases prefixed : buffer.length < cursor + 4
  · have short : buffer.length < cursor + 4 + kindLen + 4 := by omega
    simp only [prefixed, short, ↓reduceIte]; rfl
  simp only [prefixed, ↓reduceIte]
  by_cases short : buffer.length < cursor + 4 + kindLen + 4
  · simp only [short, ↓reduceIte]; rfl
  simp only [short, ↓reduceIte]
  congr 1
  funext kind
  generalize value (slice buffer _ _) = payloadLen
  by_cases shortPayload : buffer.length < cursor + 4 + kindLen + 4 + payloadLen + 4
  · simp only [shortPayload, ↓reduceIte]; rfl
  simp only [shortPayload, ↓reduceIte, Nat.add_sub_cancel]
  generalize crc32 (slice buffer offset (cursor + 4 + kindLen + 4 + payloadLen)) = actual
  generalize value (slice buffer (cursor + 4 + kindLen + 4 + payloadLen) _) = expected
  by_cases same : actual = expected
  · simp [same]; rfl
  · simp [same]; rfl

/-- Blocks behind a leading part are read in the rest of the buffer. -/
theorem read_block_shift (leading rest : List UInt8) (cursor : Nat) :
    readBlock (leading ++ rest) (leading.length + cursor) =
      (readBlock rest cursor).map fun found => (found.1, leading.length + found.2) := by
  have shifted (start stop : Nat) :
      slice (leading ++ rest) (leading.length + start) (leading.length + stop) =
        slice rest start stop := slice_append_shift leading rest start stop
  simp only [readBlock, List.length_append, Nat.add_assoc, shifted]
  generalize value (slice rest cursor (cursor + 4)) = size
  by_cases short : rest.length < cursor + (4 + (size + 4))
  · simp [short]
  · simp [short]

/-- A record behind a leading part is read in the rest of the buffer. -/
theorem read_record_shift (leading rest : List UInt8) (offset : Nat) :
    readRecord (leading ++ rest) (leading.length + offset) =
      (readRecord rest offset).map (Option.map fun found => (found.1, leading.length + found.2)) := by
  have shifted (start stop : Nat) :
      slice (leading ++ rest) (leading.length + start) (leading.length + stop) =
        slice rest start stop := slice_append_shift leading rest start stop
  simp only [read_record_framed, readFramed, List.length_append, Nat.add_assoc, read_block_shift,
    shifted, Nat.add_lt_add_iff_left]
  by_cases head : rest.length < offset + RECORD_HEAD_SIZE
  · simp [head, Except.map]
  simp only [head, ↓reduceIte]
  cases kindBlock : readBlock rest (offset + RECORD_HEAD_SIZE) with
  | none => rfl
  | some kindFound =>
    obtain ⟨kindBytes, afterKind⟩ := kindFound
    simp only [Option.map_some]
    cases decodeUtf8 kindBytes with
    | error raised => rfl
    | ok kind =>
      simp only [bind, Except.bind, read_block_shift]
      cases readBlock rest afterKind with
      | none => rfl
      | some payloadFound =>
        obtain ⟨payload, afterPayload⟩ := payloadFound
        simp only [Option.map_some, Nat.add_assoc, shifted]
        by_cases same : crc32 (slice rest offset afterPayload) =
            value (slice rest afterPayload (afterPayload + 4))
        · simp [same, Except.map]
        · simp [same, Except.map, raiseCaracal]

/-- A block is read exactly where its length prefix and contents stand, with
four more bytes behind them. -/
theorem read_block_iff (buffer : List UInt8) (cursor : Nat) (block : List UInt8) (after : Nat) :
    readBlock buffer cursor = some (block, after) ↔
      after + 4 ≤ buffer.length ∧ after = cursor + 4 + block.length ∧
        block.length < 256 ^ 4 ∧
        slice buffer cursor after = word 4 block.length ++ block := by
  constructor
  · intro found
    simp only [readBlock] at found
    split at found
    · cases found
    · case isFalse enough =>
      obtain ⟨rfl, rfl⟩ : slice buffer (cursor + 4)
            (cursor + 4 + value (slice buffer cursor (cursor + 4))) = block ∧
          cursor + 4 + value (slice buffer cursor (cursor + 4)) = after := by
        simpa only [Option.some.injEq, Prod.mk.injEq] using found
      have headLength : (slice buffer cursor (cursor + 4)).length = 4 := by
        rw [slice_length]
        omega
      have fits := value_bound (slice buffer cursor (cursor + 4))
      have written := word_value (slice buffer cursor (cursor + 4))
      rw [headLength] at fits written
      have size : (slice buffer (cursor + 4)
          (cursor + 4 + value (slice buffer cursor (cursor + 4)))).length =
            value (slice buffer cursor (cursor + 4)) := by
        rw [slice_length]
        omega
      refine ⟨by omega, by rw [size], by rw [size]; exact fits, ?_⟩
      rw [size, written]
      exact (slice_join buffer cursor (cursor + 4) _ (by omega) (by omega)).symm
  · rintro ⟨enough, rfl, fits, contents⟩
    obtain ⟨front, back⟩ := slice_split buffer (word 4 block.length) block cursor _ contents
    rw [word_length] at front back
    have size : value (slice buffer cursor (cursor + 4)) = block.length := by
      rw [front, value_word 4 _ fits]
    have within : ¬ buffer.length < cursor + 4 + block.length + 4 := by omega
    simp only [readBlock, size, within, ↓reduceIte, back]

/-- Cutting a buffer keeps exactly the blocks that still have four bytes behind
them. -/
theorem read_block_cut (buffer : List UInt8) (cursor kept : Nat) (block : List UInt8)
    (after : Nat) :
    readBlock (buffer.take kept) cursor = some (block, after) ↔
      readBlock buffer cursor = some (block, after) ∧ after + 4 ≤ kept := by
  simp only [read_block_iff, List.length_take]
  constructor
  · rintro ⟨enough, position, fits, contents⟩
    rw [slice_take buffer cursor after kept (by omega)] at contents
    exact ⟨⟨by omega, position, fits, contents⟩, by omega⟩
  · rintro ⟨⟨enough, position, fits, contents⟩, within⟩
    rw [← slice_take buffer cursor after kept (by omega)] at contents
    exact ⟨by omega, position, fits, contents⟩

/-- The steps of a successful read. -/
theorem read_record_steps (buffer : List UInt8) (offset : Nat) (record : WalRecord) (next : Nat) :
    readRecord buffer offset = .ok (some (record, next)) ↔
      ∃ kindBytes afterKind afterPayload,
        offset + RECORD_HEAD_SIZE ≤ buffer.length ∧
        readBlock buffer (offset + RECORD_HEAD_SIZE) = some (kindBytes, afterKind) ∧
        decodeUtf8 kindBytes = .ok record.kind ∧
        readBlock buffer afterKind = some (record.payload, afterPayload) ∧
        crc32 (slice buffer offset afterPayload) =
          value (slice buffer afterPayload (afterPayload + 4)) ∧
        record.lsn = value (slice buffer offset (offset + 8)) ∧
        record.prev_lsn = value (slice buffer (offset + 8) (offset + RECORD_HEAD_SIZE)) ∧
        next = afterPayload + 4 := by
  rw [read_record_framed]
  constructor
  · intro found
    unfold readFramed at found
    split at found
    · cases found
    · case isFalse head =>
      cases kindFound : readBlock buffer (offset + RECORD_HEAD_SIZE) with
      | none => simp [kindFound] at found
      | some kindBlock =>
        obtain ⟨kindBytes, afterKind⟩ := kindBlock
        simp only [kindFound] at found
        cases decoded : decodeUtf8 kindBytes with
        | error raised => simp [decoded, bind, Except.bind] at found
        | ok kind =>
          simp only [decoded, bind, Except.bind] at found
          cases payloadFound : readBlock buffer afterKind with
          | none => simp [payloadFound] at found
          | some payloadBlock =>
            obtain ⟨payload, afterPayload⟩ := payloadBlock
            simp only [payloadFound] at found
            split at found
            · case isTrue same =>
              simp only [Except.ok.injEq, Option.some.injEq, Prod.mk.injEq] at found
              obtain ⟨rfl, rfl⟩ := found
              exact ⟨kindBytes, afterKind, afterPayload, by omega, rfl, decoded, payloadFound,
                same, rfl, rfl, rfl⟩
            · cases found
  · rintro ⟨kindBytes, afterKind, afterPayload, head, kindFound, decoded, payloadFound, same,
      lsn, prev, rfl⟩
    have enough : ¬ buffer.length < offset + RECORD_HEAD_SIZE := by omega
    simp only [readFramed, enough, ↓reduceIte, kindFound, decoded, bind, Except.bind,
      payloadFound, same, ← lsn, ← prev]

@[simp] theorem body_length (record : WalRecord) :
    record.body.length = 24 + (utf8 record.kind).length + record.payload.length := by
  simp only [WalRecord.body, List.length_append, word_length]
  omega

/-- An empty record takes 28 bytes. -/
theorem bytes_length (record : WalRecord) :
    record.bytes.length = 28 + (utf8 record.kind).length + record.payload.length := by
  simp only [WalRecord.bytes, List.length_append, word_length, body_length]
  omega

/-- The reader accepts a record exactly where its encoding stands. Both
directions matter: written records are found, and nothing else is. -/
theorem read_record_iff (buffer : List UInt8) (offset : Nat) (record : WalRecord) (next : Nat) :
    readRecord buffer offset = .ok (some (record, next)) ↔
      record.Fits ∧ next = offset + record.bytes.length ∧ next ≤ buffer.length ∧
        slice buffer offset next = record.bytes := by
  rw [read_record_steps]
  simp only [read_block_iff]
  constructor
  · rintro ⟨kindBytes, afterKind, afterPayload, head, ⟨kindEnough, kindPosition, kindFits,
      kindContents⟩, decoded, ⟨enough, position, payloadFits, payloadContents⟩, same, lsn, prev,
      rfl⟩
    have kind : utf8 record.kind = kindBytes := utf8_decode _ _ decoded
    subst kind
    have headSize : RECORD_HEAD_SIZE = 16 := rfl
    have lsnLength : (slice buffer offset (offset + 8)).length = 8 := by rw [slice_length]; omega
    have prevLength : (slice buffer (offset + 8) (offset + RECORD_HEAD_SIZE)).length = 8 := by
      rw [slice_length]; omega
    have crcLength : (slice buffer afterPayload (afterPayload + 4)).length = 4 := by
      rw [slice_length]; omega
    have lsnFits := value_bound (slice buffer offset (offset + 8))
    have prevFits := value_bound (slice buffer (offset + 8) (offset + RECORD_HEAD_SIZE))
    have lsnBytes := word_value (slice buffer offset (offset + 8))
    have prevBytes := word_value (slice buffer (offset + 8) (offset + RECORD_HEAD_SIZE))
    have crcBytes := word_value (slice buffer afterPayload (afterPayload + 4))
    rw [lsnLength, ← lsn] at lsnFits lsnBytes
    rw [prevLength, ← prev] at prevFits prevBytes
    rw [crcLength, ← same] at crcBytes
    have body : slice buffer offset afterPayload = record.body := by
      rw [WalRecord.body, ← payloadContents, lsnBytes, prevBytes, ← List.append_assoc (word 4 _),
        ← kindContents,
        slice_join _ _ _ _ (by omega) (by omega),
        slice_join _ _ _ _ (by omega) (by omega), slice_join _ _ _ _ (by omega) (by omega)]
    have size := bytes_length record
    refine ⟨⟨lsnFits, prevFits, kindFits, payloadFits⟩, by omega, by omega, ?_⟩
    rw [WalRecord.bytes, ← body, crcBytes, slice_join _ _ _ _ (by omega) (by omega)]
  · rintro ⟨fits, rfl, within, contents⟩
    have size := bytes_length record
    have bodySize := body_length record
    have crcFits := crc32_bound record.body
    obtain ⟨body, crc⟩ := slice_split buffer record.body _ offset _ contents
    obtain ⟨lsn, afterLsn⟩ := slice_split buffer (word 8 record.lsn) _ offset _ body
    rw [word_length] at lsn afterLsn
    obtain ⟨prev, afterPrev⟩ := slice_split buffer (word 8 record.prev_lsn) _ _ _ afterLsn
    rw [word_length] at prev afterPrev
    rw [← List.append_assoc] at afterPrev
    obtain ⟨kindBlock, payloadBlock⟩ := slice_split buffer
      (word 4 (utf8 record.kind).length ++ utf8 record.kind) _ _ _ afterPrev
    simp only [List.length_append, word_length] at kindBlock payloadBlock
    have afterKind : offset + 8 + 8 + (4 + (utf8 record.kind).length) =
        offset + RECORD_HEAD_SIZE + 4 + (utf8 record.kind).length := by
      simp only [RECORD_HEAD_SIZE]
      omega
    rw [afterKind] at kindBlock payloadBlock
    refine ⟨utf8 record.kind, offset + RECORD_HEAD_SIZE + 4 + (utf8 record.kind).length,
      offset + record.body.length, ?_, ⟨?_, rfl, fits.kind, kindBlock⟩, decode_utf8 record.kind,
      ⟨?_, ?_, fits.payload, payloadBlock⟩, ?_, ?_, ?_, ?_⟩
    · simp only [RECORD_HEAD_SIZE]
      omega
    · simp only [RECORD_HEAD_SIZE]
      omega
    · omega
    · simp only [RECORD_HEAD_SIZE]
      omega
    · have stop : offset + record.body.length + 4 = offset + record.bytes.length := by omega
      rw [body, stop, crc, value_word 4 _ crcFits]
    · rw [lsn, value_word 8 _ fits.lsn]
    · have stop : offset + RECORD_HEAD_SIZE = offset + 8 + 8 := rfl
      rw [stop, prev, value_word 8 _ fits.prev_lsn]
    · omega

/-- Cutting bytes off a record that was readable leaves a truncated tail, never
an error: each length the reader meets is still the written one. -/
theorem read_record_cut (buffer : List UInt8) (offset kept : Nat) (record : WalRecord)
    (next : Nat) (whole : readRecord buffer offset = .ok (some (record, next)))
    (cut : kept < next) : readRecord (buffer.take kept) offset = .ok none := by
  obtain ⟨kindBytes, afterKind, afterPayload, head, kindFound, decoded, payloadFound, same,
    lsn, prev, rfl⟩ := (read_record_steps buffer offset record next).mp whole
  rw [read_record_framed, readFramed]
  by_cases short : (buffer.take kept).length < offset + RECORD_HEAD_SIZE
  · simp only [short, ↓reduceIte]
  simp only [short, ↓reduceIte]
  cases kindCut : readBlock (buffer.take kept) (offset + RECORD_HEAD_SIZE) with
  | none => rfl
  | some kindBlock =>
    obtain ⟨block, after⟩ := kindBlock
    obtain ⟨kindWhole, _⟩ := (read_block_cut buffer _ kept block after).mp kindCut
    obtain ⟨rfl, rfl⟩ : kindBytes = block ∧ afterKind = after := by
      simpa only [kindFound, Option.some.injEq, Prod.mk.injEq] using kindWhole
    simp only [decoded, bind, Except.bind]
    cases payloadCut : readBlock (buffer.take kept) afterKind with
    | none => rfl
    | some payloadBlock =>
      obtain ⟨payload, stop⟩ := payloadBlock
      obtain ⟨payloadWhole, within⟩ := (read_block_cut buffer _ kept payload stop).mp payloadCut
      obtain ⟨rfl, rfl⟩ : record.payload = payload ∧ afterPayload = stop := by
        simpa only [payloadFound, Option.some.injEq, Prod.mk.injEq] using payloadWhole
      omega
end CaracalDB.Log
