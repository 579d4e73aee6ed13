import CaracalDB.DictStore

/-!
# Dictionary files of any origin

A reader of a dictionary file checks its length, magic, checksum and table of offsets, and that the
last offset is the end of the strings. It trusts the other offsets and the order of the strings, so
the ids of an accepted dictionary are right exactly if its strings are in order.
-/

namespace CaracalDB.Dictionary.DictStore

open Bytes Crc32 Log

variable {data : List UInt8} {store : DictStore}

/-! ## What is read -/

/-- The bytes that the checksum covers. -/
def fileBody (data : List UInt8) : List UInt8 := slice data HEADER_SIZE (data.length - FOOTER_SIZE)

/-- The number of strings. -/
def fileCount (data : List UInt8) : Nat := value ((fileBody data).take ENTRY_COUNT_SIZE)

def fileOffsets (data : List UInt8) : List Nat :=
  words 8 (fileCount data + 1) ((fileBody data).drop ENTRY_COUNT_SIZE)

/-- The bytes of the strings. -/
def fileBlob (data : List UInt8) : List UInt8 :=
  (fileBody data).drop (ENTRY_COUNT_SIZE + (fileCount data + 1) * 8)

/-- A file passes every check of the reader. -/
structure Intact (data : List UInt8) : Prop where
  long : HEADER_SIZE + ENTRY_COUNT_SIZE + FOOTER_SIZE ≤ data.length
  magic : data.take MAGIC.length = MAGIC
  checksum : crc32 (fileBody data) = value (data.drop (data.length - FOOTER_SIZE))
  table : ENTRY_COUNT_SIZE + (fileCount data + 1) * 8 ≤ (fileBody data).length
  ends : (fileOffsets data).getLast? = some (fileBlob data).length

/-- The checks of the reader, one after another. -/
theorem fromBytes_checks (data : List UInt8) :
    fromBytes data =
      if data.length < HEADER_SIZE + ENTRY_COUNT_SIZE + FOOTER_SIZE then
        raiseCaracal "CDB-7040" "dictionary file is truncated"
      else if data.take MAGIC.length ≠ MAGIC then
        raiseCaracal "CDB-7040" "invalid dictionary magic header"
      else if crc32 (fileBody data) ≠ value (data.drop (data.length - FOOTER_SIZE)) then
        raiseCaracal "CDB-7040" "dictionary checksum mismatch"
      else if ENTRY_COUNT_SIZE + (fileCount data + 1) * 8 > (fileBody data).length then
        raiseCaracal "CDB-7040" "dictionary offsets overflow"
      else if (fileOffsets data).getLast? ≠ some (fileBlob data).length then
        raiseCaracal "CDB-7040" "dictionary blob length mismatch"
      else ((between (fileBlob data) (fileOffsets data)).mapM decodeUtf8).map DictStore.mk := by
  rw [fromBytes]
  by_cases short : data.length < HEADER_SIZE + ENTRY_COUNT_SIZE + FOOTER_SIZE
  · rw [if_pos short, if_pos short]
    rfl
  rw [if_neg short, if_neg short]
  by_cases magic : data.take MAGIC.length ≠ MAGIC
  · rw [if_pos magic, if_pos magic]
    rfl
  rw [if_neg magic, if_neg magic]
  by_cases checksum : crc32 (fileBody data) ≠ value (data.drop (data.length - FOOTER_SIZE))
  · rw [if_pos checksum]
    exact if_pos checksum
  rw [if_neg checksum]
  refine (if_neg checksum).trans ?_
  by_cases table : ENTRY_COUNT_SIZE + (fileCount data + 1) * 8 > (fileBody data).length
  · rw [if_pos table]
    exact if_pos table
  rw [if_neg table]
  refine (if_neg table).trans ?_
  by_cases ends : (fileOffsets data).getLast? ≠ some (fileBlob data).length
  · rw [if_pos ends]
    exact if_pos ends
  rw [if_neg ends]
  exact if_neg ends

/-- A file that passes is decoded string by string. -/
theorem fromBytes_intact (intact : Intact data) :
    fromBytes data =
      ((between (fileBlob data) (fileOffsets data)).mapM decodeUtf8).map DictStore.mk := by
  rw [fromBytes_checks, if_neg (Nat.not_lt.mpr intact.long), if_neg (not_not.mpr intact.magic),
    if_neg (not_not.mpr intact.checksum), if_neg (Nat.not_lt.mpr intact.table),
    if_neg (not_not.mpr intact.ends)]

/-- Every other file is refused. -/
theorem fromBytes_refused (broken : ¬ Intact data) :
    ∃ message, fromBytes data = raiseCaracal "CDB-7040" message := by
  rw [fromBytes_checks]
  split_ifs with short magic checksum table ends
  · exact ⟨_, rfl⟩
  · exact ⟨_, rfl⟩
  · exact ⟨_, rfl⟩
  · exact ⟨_, rfl⟩
  · exact ⟨_, rfl⟩
  · exact absurd ⟨Nat.le_of_not_lt short, not_not.mp magic, not_not.mp checksum, Nat.le_of_not_lt table,
      not_not.mp ends⟩ broken

/-- A file is accepted if it passes and its strings can be decoded. -/
theorem fromBytes_iff (data : List UInt8) (store : DictStore) :
    fromBytes data = .ok store ↔ Intact data ∧
      (between (fileBlob data) (fileOffsets data)).mapM decodeUtf8 = .ok store.entries := by
  constructor
  · intro accepted
    by_cases intact : Intact data
    · refine ⟨intact, ?_⟩
      rw [fromBytes_intact intact] at accepted
      cases decoded : (between (fileBlob data) (fileOffsets data)).mapM decodeUtf8 with
      | error raised =>
        rw [decoded] at accepted
        cases accepted
      | ok entries =>
        rw [decoded] at accepted
        cases accepted
        rfl
    · obtain ⟨message, refused⟩ := fromBytes_refused intact
      rw [refused] at accepted
      cases accepted
  · rintro ⟨intact, decoded⟩
    rw [fromBytes_intact intact, decoded]
    rfl

/-! ## What is accepted -/

/-- A file has no more strings than its count can say. -/
theorem accepted_length (accepted : fromBytes data = .ok store) : store.entries.length < 256 ^ 4 := by
  obtain ⟨_, decoded⟩ := (fromBytes_iff data store).mp accepted
  have count := length_of_mapM_ok decoded
  have parts : (between (fileBlob data) (fileOffsets data)).length = fileCount data := by
    rw [between, List.length_map, List.length_zip, List.length_tail, fileOffsets, words_length]
    omega
  have bound := value_bound ((fileBody data).take ENTRY_COUNT_SIZE)
  have width : ((fileBody data).take ENTRY_COUNT_SIZE).length ≤ 4 := List.length_take_le _ _
  have limit : 256 ^ ((fileBody data).take ENTRY_COUNT_SIZE).length ≤ 256 ^ 4 :=
    Nat.pow_le_pow_right (by decide) width
  rw [count, parts]
  exact Nat.lt_of_lt_of_le bound limit

/-- Every string is looked up under its id exactly in a dictionary in order. -/
theorem lookup_law_iff (store : DictStore) :
    (∀ (id : Nat) value, store.strOf id = .ok value → store.idOf value = some id) ↔ store.Sorted := by
  rw [Sorted, ← indexOf_finds_iff]
  constructor
  · intro law id value stands
    exact law id value ((strOf_iff store id value).mpr stands)
  · intro finds id value found
    exact finds id value ((strOf_iff store id value).mp found)

/-- Exactly the files that pass the checks and whose strings can be decoded are accepted, and files
that do not pass are refused with one code. What is accepted is written and read back, and its ids
are right exactly if its strings are in order. -/
theorem dictionary_files (data : List UInt8) :
    (∀ store, fromBytes data = .ok store ↔ Intact data ∧
      (between (fileBlob data) (fileOffsets data)).mapM decodeUtf8 = .ok store.entries) ∧
    (¬ Intact data → ∃ message, fromBytes data = raiseCaracal "CDB-7040" message) ∧
    ∀ store, fromBytes data = .ok store →
      ((∀ (id : Nat) value, store.strOf id = .ok value → store.idOf value = some id) ↔ store.Sorted) ∧
      ((store.entries.map utf8).flatten.length ≤ MAX_BYTES →
        ∃ written, store.toBytes = .ok written ∧ fromBytes written = .ok store) := by
  refine ⟨fromBytes_iff data, fromBytes_refused, fun store accepted => ⟨lookup_law_iff store, ?_⟩⟩
  intro small
  obtain ⟨written, encoded⟩ := (toBytes_iff store).mpr ⟨accepted_length accepted, small⟩
  exact ⟨written, encoded, fromBytes_toBytes encoded⟩

/-- The file of the strings "b" and "a", in this order. -/
def swappedFile : List UInt8 :=
  let body := word 4 2 ++ wordBytes 8 [0, 1, 2] ++ [98, 97]
  packHeader ++ body ++ word 4 (crc32 body)

/-- A file that is out of order is accepted, and its first string is not found. -/
theorem swapped_accepted :
    fromBytes swappedFile = .ok ⟨["b", "a"]⟩ ∧
    (⟨["b", "a"]⟩ : DictStore).strOf 0 = .ok "b" ∧ (⟨["b", "a"]⟩ : DictStore).idOf "b" = none := by
  refine ⟨fromBytes_toBytes ?_, by decide, by decide⟩
  rfl

end CaracalDB.Dictionary.DictStore
