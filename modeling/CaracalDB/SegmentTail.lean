import Mathlib.Tactic.IntervalCases
import CaracalDB.Wal

/-!
# What the end of a segment file may look like

The scan of a segment stops at the first position where no whole record stands.
Whether a record written behind such a position is found again depends on what
the file holds there: clean contents, a file that is already too long to take
another record, or one accidental agreement of the bytes. Being extendable in
this sense is kept by every further record.
-/

namespace CaracalDB.Log

open Bytes Crc32

/-- A segment holding the given records and nothing else. -/
def segmentBytes (records : List WalRecord) : List UInt8 := packHeader ++ encodings records

/-- The record of an append without kind and payload. -/
def emptyRecord (last : Nat) : WalRecord :=
  { lsn := last + 1, prev_lsn := last, kind := "", payload := [] }

theorem segment_bytes_length (records : List WalRecord) :
    (segmentBytes records).length = HEADER_SIZE + (encodings records).length := by
  simp [segmentBytes]

/-- A segment's own records are read back whatever truncated tail follows. -/
theorem iter_segment_bytes (path : String) (records : List WalRecord)
    (fits : ∀ record ∈ records, record.Fits) (torn : List UInt8)
    (tail : readRecord torn 0 = .ok none) :
    iterSegmentRecords path (segmentBytes records ++ torn) = .ok records := by
  rw [segmentBytes, List.append_assoc, iter_segment_header, parse_encodings records fits,
    parse_tail torn tail]
  simp [Except.map]

/-- Nothing at all is a truncated tail. -/
theorem read_record_nil : readRecord [] 0 = .ok none := rfl

/-- Bytes of a record some of whose end is missing. -/
def Torn (torn : List UInt8) : Prop :=
  ∃ record : WalRecord, record.Fits ∧ ∃ missing, missing ≠ [] ∧ torn ++ missing = record.bytes

/-- Torn bytes are a truncated tail for the reader. -/
theorem Torn.read {torn : List UInt8} (cut : Torn torn) : readRecord torn 0 = .ok none := by
  obtain ⟨record, fits, missing, lost, whole⟩ := cut
  exact read_torn record fits torn missing whole lost

/-- What a file must hold so that the next record written to it is found: clean
contents, or no room for any record, or room for exactly an empty record whose
encoding happens to continue the torn bytes with itself. -/
inductive Extendable (roll_size last : Nat) (data : List UInt8) (records : List WalRecord) :
    Prop where
  | clean (contents : data = segmentBytes records)
  | full (torn : List UInt8) (contents : data = segmentBytes records ++ torn)
      (tail : readRecord torn 0 = .ok none) (noRoom : roll_size < data.length + 28)
  | coincidence (torn : List UInt8) (contents : data = segmentBytes records ++ torn)
      (tail : readRecord torn 0 = .ok none) (short : torn.length < 28)
      (room : data.length + 28 = roll_size)
      (again : (emptyRecord last).bytes <+: torn ++ (emptyRecord last).bytes)

/-- An extendable file is readable as it stands. -/
theorem Extendable.read {roll_size last : Nat} {data : List UInt8} {records : List WalRecord}
    (extendable : Extendable roll_size last data records)
    (fits : ∀ record ∈ records, record.Fits) (path : String) :
    iterSegmentRecords path data = .ok records := by
  cases extendable with
  | clean contents =>
    have read := iter_segment_bytes path records fits [] read_record_nil
    rwa [List.append_nil, ← contents] at read
  | full torn contents tail noRoom => exact contents ▸ iter_segment_bytes path records fits torn tail
  | coincidence torn contents tail short room again =>
    exact contents ▸ iter_segment_bytes path records fits torn tail

/-- A file of the header's length holds nothing but the header. -/
theorem Extendable.header_only {roll_size last : Nat} {data : List UInt8}
    {records : List WalRecord} (extendable : Extendable roll_size last data records)
    (short : data.length = HEADER_SIZE) : data = segmentBytes records := by
  have nothingBehind (torn : List UInt8) (contents : data = segmentBytes records ++ torn) :
      data = segmentBytes records := by
    have lengths := congrArg List.length contents
    rw [short, List.length_append, segment_bytes_length] at lengths
    have empty : torn = [] := List.length_eq_zero_iff.mp (by omega)
    rw [contents, empty, List.append_nil]
  cases extendable with
  | clean contents => exact contents
  | full torn contents tail noRoom => exact nothingBehind torn contents
  | coincidence torn contents tail short room again => exact nothingBehind torn contents

/-- The bytes of an empty record behind its two LSNs: two zero lengths and the
checksum. -/
theorem empty_record_bytes (last : Nat) :
    (emptyRecord last).bytes = word 8 (last + 1) ++ (word 8 last ++
      ([0, 0, 0, 0, 0, 0, 0, 0] ++ word 4 (crc32 (emptyRecord last).body))) := by
  have lengths : word 4 (utf8 "").length ++ (utf8 "" ++ (word 4 ([] : List UInt8).length ++ [])) =
      [0, 0, 0, 0, 0, 0, 0, 0] := by decide
  simp only [WalRecord.bytes]
  rw [WalRecord.body]
  simp only [emptyRecord, lengths, List.append_assoc]

/-- The only record of 28 bytes is the empty one. -/
theorem record_of_28_bytes (record : WalRecord) (last : Nat) (lsn : record.lsn = last + 1)
    (prev : record.prev_lsn = last) (size : record.bytes.length ≤ 28) :
    record = emptyRecord last := by
  have length := bytes_length record
  have noKind : (utf8 record.kind).length = 0 := by omega
  have noPayload : record.payload.length = 0 := by omega
  have kind : record.kind = "" := by
    have bytes : utf8 record.kind = utf8 "" := by
      rw [List.length_eq_zero_iff.mp noKind]
      rfl
    have decoded := decode_utf8 record.kind
    rw [bytes, decode_utf8] at decoded
    exact (Except.ok.inj decoded).symm
  obtain ⟨_, _, _, _⟩ := record
  simp only [emptyRecord, WalRecord.mk.injEq]
  exact ⟨lsn, prev, kind, List.length_eq_zero_iff.mp noPayload⟩

/-- A suffix of an empty record that lost at least one byte is a truncated tail.
It is too short for a record, and its length word falls on the record's zeros. -/
theorem read_empty_suffix (last lost : Nat) (some : 0 < lost) :
    readRecord ((emptyRecord last).bytes.drop lost) 0 = .ok none := by
  have size : (emptyRecord last).bytes.length = 28 := by
    rw [bytes_length]
    rfl
  rw [read_record_framed, readFramed]
  by_cases head : ((emptyRecord last).bytes.drop lost).length < 0 + RECORD_HEAD_SIZE
  · simp only [head, ↓reduceIte]
  simp only [head, ↓reduceIte]
  cases kindFound : readBlock ((emptyRecord last).bytes.drop lost) (0 + RECORD_HEAD_SIZE) with
  | none => rfl
  | some kindBlock =>
    obtain ⟨block, after⟩ := kindBlock
    obtain ⟨enough, position, fits, contents⟩ := (read_block_iff _ _ block after).mp kindFound
    rw [List.length_drop, size] at enough
    simp only [RECORD_HEAD_SIZE] at position contents
    obtain ⟨front, _⟩ := slice_split _ (word 4 block.length) block _ _ contents
    have zeros : slice ((emptyRecord last).bytes.drop lost) (0 + 16) (0 + 16 + 4) = [0, 0, 0, 0] := by
      have heads : (word 8 (last + 1) ++ word 8 last).length = 16 := by simp
      have behind : (emptyRecord last).bytes.drop (lost + 16) =
          ([0, 0, 0, 0, 0, 0, 0, 0] ++ word 4 (crc32 (emptyRecord last).body)).drop lost := by
        rw [empty_record_bytes, ← List.append_assoc, Nat.add_comm lost, ← heads, ← List.drop_drop,
          List.drop_left]
      simp only [slice, List.drop_drop, Nat.zero_add, behind]
      have few : lost ≤ 4 := by omega
      interval_cases lost <;> rfl
    have empty : block = [] := by
      rw [word_length, zeros] at front
      have written := value_word 4 block.length fits
      rw [← front] at written
      exact List.length_eq_zero_iff.mp written.symm
    subst empty
    have decoded : decodeUtf8 [] = .ok "" := decode_utf8 ""
    simp only [decoded, bind, Except.bind]
    cases payloadFound : readBlock ((emptyRecord last).bytes.drop lost) after with
    | none => rfl
    | some payloadBlock =>
      obtain ⟨payload, stop⟩ := payloadBlock
      obtain ⟨within, position', _, _⟩ := (read_block_iff _ _ payload stop).mp payloadFound
      rw [List.length_drop, size] at within
      omega

/-- Writing the next record to an extendable file makes it the file's last
record, and the file stays extendable. Clean contents stay clean; a full file
takes no record; and a coincidence takes exactly the empty record, which leaves
a rotation of the torn bytes behind it and no room for more. A record may exceed
the roll size only where the file holds nothing but complete records. -/
theorem Extendable.extend {roll_size last : Nat} {data : List UInt8} {records : List WalRecord}
    (extendable : Extendable roll_size last data records) (record : WalRecord)
    (lsn : record.lsn = last + 1) (prev : record.prev_lsn = last)
    (room : data = segmentBytes records ∨ data.length + record.bytes.length ≤ roll_size) :
    Extendable roll_size (last + 1) (data ++ record.bytes) (records ++ [record]) := by
  have size := bytes_length record
  rcases room with contents | room
  · apply Extendable.clean
    simp [contents, segmentBytes]
  cases extendable with
  | clean contents =>
    apply Extendable.clean
    simp [contents, segmentBytes]
  | full torn contents tail noRoom => omega
  | coincidence torn contents tail short exactly again =>
    have same : record = emptyRecord last :=
      record_of_28_bytes record last lsn prev (by omega)
    subst same
    obtain ⟨rotated, continued⟩ := again
    have emptySize : (emptyRecord last).bytes.length = 28 := by
      rw [bytes_length]
      rfl
    have behind : rotated = (emptyRecord last).bytes.drop (28 - torn.length) := by
      have cut := congrArg (List.drop 28) continued
      rw [← emptySize, List.drop_left, List.drop_append,
        List.drop_of_length_le (by omega : torn.length ≤ (emptyRecord last).bytes.length)] at cut
      rw [cut, emptySize, List.nil_append]
    apply Extendable.full rotated
    · simp [contents, segmentBytes, ← continued]
    · rw [behind]
      exact read_empty_suffix last (28 - torn.length) (by omega)
    · rw [List.length_append]
      omega

end CaracalDB.Log
