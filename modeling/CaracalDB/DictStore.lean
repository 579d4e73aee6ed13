import CaracalDB.Bisect
import CaracalDB.Dict
import CaracalDB.Loops
import CaracalDB.Words
import CaracalDB.WalSegment
import CaracalDB.KeyTypes
import Mathlib.Data.Finset.Sort
import Mathlib.Data.String.Basic

/-!
# The dictionary of strings

A dictionary is its strings in increasing order, and the id of a string is its
position. A merge numbers anew. The file has the number of strings, the offsets of
their UTF-8 bytes and the bytes themselves, joined.

A reader trusts the order in a file, so order is a fact about the dictionaries that
are made from lists, merges and files written of such.
-/

namespace CaracalDB.Dictionary

open Bytes Crc32 Log

structure DictStore where
  entries : List String
deriving DecidableEq

namespace DictStore

/-- `DictStore(entries)`; without entries the dictionary is empty. -/
def create (entries : Option (List String)) : DictStore :=
  match entries with
  | none => ⟨[]⟩
  | some entries => ⟨entries.toFinset.sort (· ≤ ·)⟩

def idOf (store : DictStore) (value : String) : Option Nat := indexOf store.entries value

def strOf (store : DictStore) (dict_id : Int) : Except Raised String :=
  if dict_id < 0 ∨ (store.entries.length : Int) ≤ dict_id then
    raiseCaracal "CDB-7041" ("dictionary id out of range: " ++ toString dict_id ++ " (len=" ++
      toString store.entries.length ++ ")")
  else .ok (store.entries.getD dict_id.toNat "")

/-- The loop of `merge` over its inputs. -/
def lookUp (store : DictStore) (result : Dict String Nat) : List String →
    Except Raised (Dict String Nat)
  | [] => .ok result
  | value :: inputs =>
      if result.contains value then lookUp store result inputs
      else match store.idOf value with
        | none => raiseCaracal "CDB-7043"
            ("dictionary merge failed to register value: '" ++ value ++ "'")
        | some id => lookUp store (result.set value id) inputs

/-- `merge(values)` -/
def merge (store : DictStore) (inputs : List String) :
    Except Raised (Dict String Nat × DictStore) := do
  let before := store.entries.toFinset
  let additions := inputs.filter (· ∉ before)
  let merged : DictStore :=
    if additions ≠ [] then ⟨(before ∪ additions.toFinset).sort (· ≤ ·)⟩ else store
  return (← lookUp merged Dict.empty inputs, merged)

/-- The longest byte string of the language. -/
def MAX_BYTES : Nat := 2 ^ 63 - 1

/-- `b"".join(parts)` -/
def join (parts : List (List UInt8)) : Except Raised (List UInt8) :=
  if parts.flatten.length ≤ MAX_BYTES then .ok parts.flatten
  else .error (.typeError "join() result is too long for bytes")

/-- `to_bytes()`; the offsets are added up in words of eight bytes. -/
def toBytes (store : DictStore) : Except Raised (List UInt8) := do
  let encoded := store.entries.map utf8
  let offsets := (offsetsFrom 0 encoded).map (· % 256 ^ 8)
  let blob ← join encoded
  let count ← pack 4 encoded.length
  let body := count ++ wordBytes 8 offsets ++ blob
  let crc := crc32 body
  return packHeader ++ body ++ word 4 crc

def ENTRY_COUNT_SIZE : Nat := 4

def FOOTER_SIZE : Nat := 4

/-- `from_bytes(data)` -/
def fromBytes (data : List UInt8) : Except Raised DictStore := do
  if data.length < HEADER_SIZE + ENTRY_COUNT_SIZE + FOOTER_SIZE then
    raiseCaracal "CDB-7040" "dictionary file is truncated"
  if data.take MAGIC.length ≠ MAGIC then
    raiseCaracal "CDB-7040" "invalid dictionary magic header"
  let body := slice data HEADER_SIZE (data.length - FOOTER_SIZE)
  let expected_crc := value (data.drop (data.length - FOOTER_SIZE))
  let actual_crc := crc32 body
  if actual_crc ≠ expected_crc then
    raiseCaracal "CDB-7040" "dictionary checksum mismatch"
  let count := value (body.take ENTRY_COUNT_SIZE)
  let offsets_size := (count + 1) * 8
  if ENTRY_COUNT_SIZE + offsets_size > body.length then
    raiseCaracal "CDB-7040" "dictionary offsets overflow"
  let offsets := words 8 (count + 1) (body.drop ENTRY_COUNT_SIZE)
  let blob := body.drop (ENTRY_COUNT_SIZE + offsets_size)
  if offsets.getLast? ≠ some blob.length then
    raiseCaracal "CDB-7040" "dictionary blob length mismatch"
  let entries ← (between blob offsets).mapM decodeUtf8
  return ⟨entries⟩

/-- The strings are in strictly increasing order. -/
def Sorted (store : DictStore) : Prop := store.entries.Pairwise (· < ·)

/-- The dictionaries made of lists, merges and files that were written. -/
inductive Reached : DictStore → Prop where
  | create (entries : Option (List String)) : Reached (create entries)
  | merge {store merged : DictStore} {inputs : List String} {result : Dict String Nat} :
      Reached store → store.merge inputs = .ok (result, merged) → Reached merged
  | reread {store read : DictStore} {data : List UInt8} :
      Reached store → store.toBytes = .ok data → fromBytes data = .ok read → Reached read

/-! ## Ids -/

theorem sort_increasing (strings : Finset String) : Sorted ⟨strings.sort (· ≤ ·)⟩ :=
  strings.sortedLT_sort.pairwise

theorem idOf_iff {store : DictStore} (sorted : store.Sorted) (value : String) (id : Nat) :
    store.idOf value = some id ↔ store.entries[id]? = some value := indexOf_eq_some sorted id

theorem strOf_iff (store : DictStore) (id : Nat) (value : String) :
    store.strOf id = .ok value ↔ store.entries[id]? = some value := by
  rw [strOf]
  by_cases inside : id < store.entries.length
  · have bounds : ¬ ((id : Int) < 0 ∨ (store.entries.length : Int) ≤ id) := by omega
    rw [if_neg bounds, Int.toNat_natCast, List.getElem?_eq_getElem inside,
      List.getD_eq_getElem?_getD, List.getElem?_eq_getElem inside]
    constructor
    · intro same
      cases same
      rfl
    · intro same
      cases same
      rfl
  · have bounds : (id : Int) < 0 ∨ (store.entries.length : Int) ≤ id := by omega
    rw [if_pos bounds, List.getElem?_eq_none (Nat.le_of_not_lt inside)]
    constructor
    · intro same
      cases same
    · intro same
      cases same

/-! ## Merging -/

/-- The strings of a merge are those before and the inputs. -/
theorem merged_entries {store merged : DictStore} {inputs : List String}
    {result : Dict String Nat} (success : store.merge inputs = .ok (result, merged)) :
    (store.Sorted → merged.Sorted) ∧
      ∀ value, value ∈ merged.entries ↔ value ∈ store.entries ∨ value ∈ inputs := by
  obtain ⟨found, _, rest⟩ := except_bind_ok success
  cases rest
  by_cases added : inputs.filter (· ∉ store.entries.toFinset) = []
  · simp only [added, ne_eq, not_true_eq_false, ↓reduceIte]
    refine ⟨id, fun value => ⟨.inl, fun either => either.elim id fun input => ?_⟩⟩
    by_contra absent
    have member : value ∈ inputs.filter (· ∉ store.entries.toFinset) :=
      List.mem_filter.mpr ⟨input, by simp [absent]⟩
    rw [added] at member
    cases member
  · simp only [added, ne_eq, not_false_eq_true, ↓reduceIte]
    refine ⟨fun _ => sort_increasing _, fun value => ?_⟩
    rw [Finset.mem_sort, Finset.mem_union, List.mem_toFinset, List.mem_toFinset, List.mem_filter]
    constructor
    · rintro (old | new)
      · exact .inl old
      · exact .inr new.1
    · rintro (old | new)
      · exact .inl old
      · by_cases known : value ∈ store.entries
        · exact .inl known
        · exact .inr ⟨new, by simp [known]⟩

/-- Every input is looked up, under its id. -/
theorem lookUp_ok {store : DictStore} (sorted : store.Sorted) {inputs : List String}
    (known : ∀ value ∈ inputs, value ∈ store.entries) (result : Dict String Nat)
    (right : ∀ value ∈ result.keys, result.get? value = store.idOf value) :
    ∃ found, lookUp store result inputs = .ok found ∧
      (∀ value, value ∈ found.keys ↔ value ∈ result.keys ∨ value ∈ inputs) ∧
      ∀ value ∈ found.keys, found.get? value = store.idOf value := by
  induction inputs generalizing result with
  | nil => exact ⟨result, rfl, fun value => by simp, right⟩
  | cons input inputs inductionHypothesis =>
    obtain ⟨first, others⟩ := List.forall_mem_cons.mp known
    rw [lookUp]
    by_cases again : result.contains input
    · rw [if_pos again]
      obtain ⟨found, looked, keys, all⟩ := inductionHypothesis others result right
      refine ⟨found, looked, fun value => ?_, all⟩
      rw [keys, List.mem_cons]
      have held := (Dict.contains_iff result input).mp again
      constructor
      · rintro (old | new)
        · exact .inl old
        · exact .inr (.inr new)
      · rintro (old | rfl | new)
        · exact .inl old
        · exact .inl held
        · exact .inr new
    · rw [if_neg again]
      obtain ⟨id, position⟩ := List.mem_iff_getElem?.mp first
      have numbered := (idOf_iff sorted input id).mpr position
      simp only [numbered]
      obtain ⟨found, looked, keys, all⟩ := inductionHypothesis others (result.set input id) (by
        intro value member
        rw [Dict.get_set]
        by_cases same : value = input
        · rw [if_pos same, same, numbered]
        · rw [if_neg same]
          exact right value (((Dict.mem_keys_set result input value id).mp member).resolve_left same))
      refine ⟨found, looked, fun value => ?_, all⟩
      rw [keys, Dict.mem_keys_set, List.mem_cons]
      tauto

/-- A merge succeeds, finds every input under its id and keeps every string. -/
theorem merge_spec {store : DictStore} (sorted : store.Sorted) (inputs : List String) :
    ∃ result merged, store.merge inputs = .ok (result, merged) ∧ merged.Sorted ∧
      (∀ value, value ∈ merged.entries ↔ value ∈ store.entries ∨ value ∈ inputs) ∧
      (∀ value, value ∈ result.keys ↔ value ∈ inputs) ∧
      ∀ value ∈ inputs, ∃ id, merged.idOf value = some id ∧ result.get? value = some id := by
  let additions := inputs.filter (· ∉ store.entries.toFinset)
  let merged : DictStore :=
    if additions ≠ [] then ⟨(store.entries.toFinset ∪ additions.toFinset).sort (· ≤ ·)⟩ else store
  have finished (result : Dict String Nat) (looked : lookUp merged Dict.empty inputs = .ok result) :
      store.merge inputs = .ok (result, merged) := by
    show (lookUp merged Dict.empty inputs >>= _) = _
    rw [looked]
    rfl
  have mergedSorted : merged.Sorted := by
    show DictStore.Sorted (if _ then _ else _)
    split
    · exact sort_increasing _
    · exact sorted
  have known : ∀ value ∈ inputs, value ∈ merged.entries := by
    intro value input
    show value ∈ (if additions ≠ [] then _ else _ : DictStore).entries
    by_cases old : value ∈ store.entries
    · split
      · rw [Finset.mem_sort]
        exact Finset.mem_union_left _ (List.mem_toFinset.mpr old)
      · exact old
    · have added : value ∈ additions := List.mem_filter.mpr ⟨input, by simp [old]⟩
      rw [if_pos (List.ne_nil_of_mem added), Finset.mem_sort]
      exact Finset.mem_union_right _ (List.mem_toFinset.mpr added)
  obtain ⟨result, looked, keys, right⟩ := lookUp_ok mergedSorted known Dict.empty fun _ member =>
    nomatch member
  have done := finished result looked
  have listed (value : String) : value ∈ result.keys ↔ value ∈ inputs := by
    rw [keys]
    exact ⟨fun either => either.resolve_left (nomatch ·), .inr⟩
  refine ⟨result, merged, done, mergedSorted, (merged_entries done).2, listed, ?_⟩
  intro value input
  obtain ⟨id, position⟩ := List.mem_iff_getElem?.mp (known value input)
  have numbered := (idOf_iff mergedSorted value id).mpr position
  exact ⟨id, numbered, (right value ((listed value).mpr input)).trans numbered⟩

/-! ## The file -/

theorem mapM_decode (strings : List String) :
    (strings.map utf8).mapM decodeUtf8 = .ok strings := by
  induction strings with
  | nil => rfl
  | cons first strings inductionHypothesis =>
    rw [List.map_cons, List.mapM_cons, decode_utf8, ok_bind, inductionHypothesis]
    rfl

/-- A dictionary is read back from its file. -/
theorem fromBytes_toBytes {store : DictStore} {data : List UInt8}
    (written : store.toBytes = .ok data) : fromBytes data = .ok store := by
  obtain ⟨blob, joined, rest⟩ := except_bind_ok written
  obtain ⟨count, counted, rest⟩ := except_bind_ok rest
  cases rest
  let encoded := store.entries.map utf8
  have small : encoded.flatten.length ≤ MAX_BYTES := by
    by_contra long
    rw [join, if_neg long] at joined
    cases joined
  have blobIs : blob = encoded.flatten := by
    rw [join, if_pos small] at joined
    exact (Except.ok.inj joined).symm
  have few : encoded.length < 256 ^ 4 := by
    by_contra many
    rw [pack_refused _ _ many] at counted
    cases counted
  have countIs : count = word 4 encoded.length := by
    rw [pack_fits _ _ few] at counted
    exact (Except.ok.inj counted).symm
  have bounded : ∀ offset ∈ offsetsFrom 0 encoded, offset < 256 ^ 8 := by
    intro offset member
    have bound := offsetsFrom_bound 0 encoded offset member
    have limit : MAX_BYTES < 256 ^ 8 := by decide
    omega
  have offsetsAre : (offsetsFrom 0 encoded).map (· % 256 ^ 8) = offsetsFrom 0 encoded := by
    rw [List.map_congr_left fun offset member => Nat.mod_eq_of_lt (bounded offset member), List.map_id']
  show fromBytes (packHeader ++ (count ++ wordBytes 8 ((offsetsFrom 0 encoded).map (· % 256 ^ 8)) ++ blob)
    ++ word 4 (crc32 (count ++ wordBytes 8 ((offsetsFrom 0 encoded).map (· % 256 ^ 8)) ++ blob))) = _
  rw [offsetsAre, countIs, blobIs]
  generalize bodyIs : word 4 encoded.length ++ wordBytes 8 (offsetsFrom 0 encoded) ++
    encoded.flatten = body
  have bodyLength : body.length = 4 + (8 * (encoded.length + 1) + encoded.flatten.length) := by
    rw [← bodyIs, List.length_append, List.length_append, word_length, wordBytes_length,
      offsetsFrom_length, Nat.add_assoc]
  have whole : (packHeader ++ body ++ word 4 (crc32 body)).length = 24 + body.length + 4 := by
    rw [List.length_append, List.length_append, pack_header_length, word_length]
    rfl
  have longEnough : ¬ (packHeader ++ body ++ word 4 (crc32 body)).length <
      HEADER_SIZE + ENTRY_COUNT_SIZE + FOOTER_SIZE := by
    rw [whole, bodyLength]
    show ¬ _ < 24 + 4 + 4
    omega
  have magic : (packHeader ++ body ++ word 4 (crc32 body)).take MAGIC.length = MAGIC := by
    simp only [packHeader, List.append_assoc]
    exact List.take_left
  have stop : (packHeader ++ body ++ word 4 (crc32 body)).length - FOOTER_SIZE =
      packHeader.length + body.length := by
    rw [whole, pack_header_length]
    rfl
  have middle : slice (packHeader ++ body ++ word 4 (crc32 body)) HEADER_SIZE
      (packHeader.length + body.length) = body := by
    have shifted := slice_append_shift packHeader (body ++ word 4 (crc32 body)) 0 body.length
    rw [Nat.add_zero, pack_header_length, ← List.append_assoc] at shifted
    rw [pack_header_length, shifted, slice_append_self]
  have footer : (packHeader ++ body ++ word 4 (crc32 body)).drop (packHeader.length + body.length) =
      word 4 (crc32 body) := by
    rw [← List.length_append, List.drop_left]
  have countRead : value (body.take ENTRY_COUNT_SIZE) = encoded.length := by
    rw [← bodyIs, List.append_assoc]
    have front : (word 4 encoded.length ++ (wordBytes 8 (offsetsFrom 0 encoded) ++
        encoded.flatten)).take ENTRY_COUNT_SIZE = word 4 encoded.length :=
      List.take_left' (word_length _ _)
    rw [front, value_word 4 _ few]
  have offsetsRead : words 8 (encoded.length + 1) (body.drop ENTRY_COUNT_SIZE) =
      offsetsFrom 0 encoded := by
    have behind : body.drop ENTRY_COUNT_SIZE =
        wordBytes 8 (offsetsFrom 0 encoded) ++ encoded.flatten := by
      rw [← bodyIs, List.append_assoc]
      exact List.drop_left' (word_length _ _)
    have read := words_wordBytes 8 (offsetsFrom 0 encoded) bounded encoded.flatten
    rwa [offsetsFrom_length, ← behind] at read
  have blobRead : body.drop (ENTRY_COUNT_SIZE + (encoded.length + 1) * 8) = encoded.flatten := by
    rw [← bodyIs]
    apply List.drop_left'
    rw [List.length_append, word_length, wordBytes_length, offsetsFrom_length, Nat.mul_comm]
    rfl
  have last : (offsetsFrom 0 encoded).getLast? = some encoded.flatten.length := by
    rw [offsetsFrom_last, Nat.zero_add]
  have cut : between encoded.flatten (offsetsFrom 0 encoded) = encoded := between_offsetsFrom [] encoded
  have room : ¬ ENTRY_COUNT_SIZE + (encoded.length + 1) * 8 > body.length := by
    rw [bodyLength]
    show ¬ 4 + _ > _
    omega
  rw [fromBytes, stop, middle, footer, value_word 4 _ (crc32_bound body)]
  simp only [longEnough, magic, countRead, offsetsRead, blobRead, last, cut, room, ne_eq,
    not_true_eq_false, ↓reduceIte, mapM_decode, encoded]
  rfl

/-- A dictionary is written unless it has too many strings or bytes for the format. -/
theorem toBytes_iff (store : DictStore) : (∃ data, store.toBytes = .ok data) ↔
    store.entries.length < 256 ^ 4 ∧ (store.entries.map utf8).flatten.length ≤ MAX_BYTES := by
  constructor
  · rintro ⟨data, written⟩
    obtain ⟨blob, joined, rest⟩ := except_bind_ok written
    obtain ⟨count, counted, _⟩ := except_bind_ok rest
    constructor
    · by_contra many
      rw [List.length_map, pack_refused _ _ many] at counted
      cases counted
    · by_contra long
      rw [join, if_neg long] at joined
      cases joined
  · rintro ⟨few, small⟩
    rw [toBytes]
    simp only [join, if_pos small, ok_bind, List.length_map, pack_fits _ _ few]
    exact ⟨_, rfl⟩

/-- Dictionaries that are reached are in order. -/
theorem Reached.sorted {store : DictStore} (reached : Reached store) : store.Sorted := by
  induction reached with
  | create entries =>
    cases entries with
    | none => exact List.Pairwise.nil
    | some entries => exact sort_increasing _
  | merge _ success inductionHypothesis => exact (merged_entries success).1 inductionHypothesis
  | reread _ written read inductionHypothesis =>
    rw [fromBytes_toBytes written] at read
    cases read
    exact inductionHypothesis

/-- Dictionaries are in order, their ids and strings are inverse bijections, merges find the
inputs and keep the strings, and files are read back. -/
theorem dictionary_kept (store : DictStore) (reached : Reached store) :
    store.Sorted ∧
    (∀ value id, store.idOf value = some id ↔ store.strOf id = .ok value) ∧
    (∀ value, value ∈ store.entries ↔ ∃ id, store.idOf value = some id) ∧
    (∀ id : Nat, id < store.entries.length ↔ ∃ value, store.strOf id = .ok value) ∧
    (∀ inputs, ∃ result merged, store.merge inputs = .ok (result, merged) ∧
      (∀ value ∈ store.entries, value ∈ merged.entries) ∧
      (∀ value, value ∈ result.keys ↔ value ∈ inputs) ∧
      ∀ value ∈ inputs, ∃ id, merged.idOf value = some id ∧ result.get? value = some id) ∧
    ((∃ data, store.toBytes = .ok data) ↔
      store.entries.length < 256 ^ 4 ∧ (store.entries.map utf8).flatten.length ≤ MAX_BYTES) ∧
    ∀ data, store.toBytes = .ok data → fromBytes data = .ok store := by
  have sorted := reached.sorted
  refine ⟨sorted, ?_, ?_, ?_, ?_, toBytes_iff store, fun data => fromBytes_toBytes⟩
  · intro value id
    rw [idOf_iff sorted, strOf_iff]
  · intro value
    rw [List.mem_iff_getElem?]
    exact exists_congr fun id => (idOf_iff sorted value id).symm
  · intro id
    constructor
    · exact fun inside =>
        ⟨store.entries[id], (strOf_iff store id _).mpr (List.getElem?_eq_getElem inside)⟩
    · rintro ⟨value, found⟩
      exact (List.getElem?_eq_some_iff.mp ((strOf_iff store id value).mp found)).1
  · intro inputs
    obtain ⟨result, merged, done, _, entries, keys, ids⟩ := merge_spec sorted inputs
    exact ⟨result, merged, done, fun value old => (entries value).mpr (.inl old), keys, ids⟩

/-- The dictionary of two names. -/
theorem two_names_kept : (create (some ["TP53", "MDM2"])).Sorted ∧
    ∀ value id, (create (some ["TP53", "MDM2"])).idOf value = some id ↔
      (create (some ["TP53", "MDM2"])).strOf id = .ok value := by
  have kept := dictionary_kept _ (.create (some ["TP53", "MDM2"]))
  exact ⟨kept.1, kept.2.1⟩

end DictStore

end CaracalDB.Dictionary
