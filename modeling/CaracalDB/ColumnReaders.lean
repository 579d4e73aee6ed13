import CaracalDB.ColumnSegment
import CaracalDB.CatalogCodec

/-!
# Reading column segments in both engines

What either engine writes, both read. Of any other file the engines agree where the
footer names an unknown codec or another payload size, or has exactly the fields that
Rust wants and the counts of what it is decoded to.
-/

namespace CaracalDB.Column

open Bytes Crc32 Log

variable {Schema Batch : Type}

/-! ## The libraries -/

def IsCaracal (raised : Raised) : Prop := ∃ error, raised = .caracal error

/-- An error of the language or of a library. -/
def Foreign (raised : Raised) : Prop := ¬ IsCaracal raised

/-- The libraries read what their writers write, and raise errors of their own. -/
structure Lawful (lib : Libraries Schema Batch) : Prop where
  pythonText : ∀ footer, ∃ entries, lib.loads (lib.pythonDumps footer) = .ok (.dict entries) ∧
    ∀ key, Onto.lookup key entries = Onto.lookup key footer.toJson
  rustText : ∀ footer, ∃ entries, lib.loads (lib.rustDumps footer) = .ok (.dict entries) ∧
    ∀ key, Onto.lookup key entries = Onto.lookup key footer.toJson
  pythonPayload : ∀ codec payload, lib.decompress codec (lib.pythonCompress codec payload) = .ok payload
  rustPayload : ∀ codec payload, lib.decompress codec (lib.rustCompress codec payload) = .ok payload
  stream : ∀ schema batches, (∀ batch ∈ batches, lib.schemaOf batch = schema) →
    lib.decode (lib.encode schema batches) = .ok (schema, batches)
  loadsForeign : ∀ text raised, lib.loads text = .error raised → Foreign raised
  intForeign : ∀ value raised, lib.conversions.int value = .error raised → Foreign raised
  decompressForeign : ∀ codec payload raised, lib.decompress codec payload = .error raised →
    Foreign raised
  decodeForeign : ∀ stream raised, lib.decode stream = .error raised → Foreign raised

/-! ## The frame -/

theorem fileOf_length (payload footer_bytes : ByteString) :
    (fileOf payload footer_bytes).length = HEADER_SIZE + payload.length + footer_bytes.length + 12 := by
  simp [fileOf]
  omega

/-- A file that was written passes the checks of its frame. -/
theorem frame_fileOf (path : String) (payload footer_bytes : ByteString)
    (fits : HEADER_SIZE + payload.length < 256 ^ 8) :
    frame path (fileOf payload footer_bytes) = .ok (footer_bytes, payload) := by
  have header : packHeader.length = HEADER_SIZE := pack_header_length
  have offset_bytes : (word 8 (HEADER_SIZE + payload.length)).length = 8 := word_length _ _
  have crc_bytes : (word 4 (crc32 footer_bytes)).length = 4 := word_length _ _
  let body := packHeader ++ payload ++ footer_bytes
  have body_length : body.length = HEADER_SIZE + payload.length + footer_bytes.length := by
    simp [body]
    omega
  have start : (fileOf payload footer_bytes).length - FOOTER_TRAILER_SIZE = body.length := by
    rw [fileOf_length, body_length, FOOTER_TRAILER_SIZE]
    omega
  have whole : (fileOf payload footer_bytes).length = body.length + 12 := by
    rw [fileOf_length, body_length]
  have magic : (fileOf payload footer_bytes).take MAGIC.length = MAGIC := by
    simp [fileOf, packHeader, List.append_assoc]
  have offset : slice (fileOf payload footer_bytes) body.length (body.length + 8) =
      word 8 (HEADER_SIZE + payload.length) := by
    have shifted := slice_append_shift body
      (word 8 (HEADER_SIZE + payload.length) ++ word 4 (crc32 footer_bytes)) 0 8
    have inside := slice_append_self (word 8 (HEADER_SIZE + payload.length))
      (word 4 (crc32 footer_bytes))
    rw [offset_bytes] at inside
    exact shifted.trans inside
  have crc : slice (fileOf payload footer_bytes) (body.length + 8)
      (fileOf payload footer_bytes).length = word 4 (crc32 footer_bytes) := by
    have shifted := slice_append_shift (body ++ word 8 (HEADER_SIZE + payload.length))
      (word 4 (crc32 footer_bytes)) 0 4
    have inside := slice_append_self (word 4 (crc32 footer_bytes)) []
    rw [List.append_nil, crc_bytes] at inside
    rw [List.length_append, offset_bytes, List.append_assoc] at shifted
    rw [whole]
    exact shifted.trans inside
  have footer : slice (fileOf payload footer_bytes) (HEADER_SIZE + payload.length) body.length =
      footer_bytes := by
    have shifted := slice_append_shift (packHeader ++ payload)
      (footer_bytes ++ (word 8 (HEADER_SIZE + payload.length) ++ word 4 (crc32 footer_bytes))) 0
      footer_bytes.length
    rw [List.length_append, header, slice_append_self, ← List.append_assoc] at shifted
    rw [body_length]
    exact shifted
  have stored : slice (fileOf payload footer_bytes) HEADER_SIZE (HEADER_SIZE + payload.length) =
      payload := by
    have shifted := slice_append_shift packHeader (payload ++ (footer_bytes ++
      (word 8 (HEADER_SIZE + payload.length) ++ word 4 (crc32 footer_bytes)))) 0 payload.length
    rw [header, slice_append_self, ← List.append_assoc, ← List.append_assoc] at shifted
    exact shifted
  have crc_fits : crc32 footer_bytes < 256 ^ 4 := crc32_bound footer_bytes
  rw [frame]
  simp only [start, offset, crc, value_word 8 _ fits, value_word 4 _ crc_fits, footer, stored, magic,
    refuse, ne_eq, not_true, if_false]
  rw [if_neg (by rw [fileOf_length, FOOTER_TRAILER_SIZE]; omega), ok_bind, ok_bind, if_neg (by omega)]
  rfl

/-! ## Footers -/

/-- The entries of a dictionary are those of a footer. -/
def Holds (entries : List (String × Value)) (footer : Footer) : Prop :=
  ∀ field ∈ footer.toJson, Onto.lookup field.1 entries = some field.2

section Footers

variable (lib : Libraries Schema Batch) {entries : List (String × Value)} {footer : Footer}

/-- Entries found under the keys that the footer was written with. -/
theorem holds_of_written (same : ∀ key, Onto.lookup key entries = Onto.lookup key footer.toJson) :
    Holds entries footer := by
  intro field member
  rw [same]
  simp only [Footer.toJson, List.mem_cons, List.not_mem_nil, or_false] at member
  rcases member with rfl | rfl | rfl | rfl | rfl | rfl | rfl <;> rfl

theorem fromJson_holds (holds : Holds entries footer) (known : footer.codec ∈ CODECS) :
    fromJson lib (.dict entries) = .ok footer := by
  have at_key : ∀ key value, (key, value) ∈ footer.toJson →
      Onto.entry key (.dict entries) = .ok value := by
    intro key value member
    rw [Onto.entry, holds _ member]
  have number : ∀ number, lib.conversions.toInt (.int number) = .ok number := fun _ => rfl
  have accepted : refuse (footer.codec ∉ CODECS) (codecError footer.codec) = .ok () := by
    rw [refuse, if_neg (not_not.mpr known)]
  rw [fromJson, at_key "codec" (.str footer.codec) (by simp [Footer.toJson]), ok_bind]
  show (refuse (footer.codec ∉ CODECS) (codecError footer.codec) >>= _) = _
  simp only [accepted, ok_bind, number,
    at_key "format_version" (.int footer.format_version) (by simp [Footer.toJson]),
    at_key "row_count" (.int footer.row_count) (by simp [Footer.toJson]),
    at_key "batch_count" (.int footer.batch_count) (by simp [Footer.toJson]),
    at_key "schema" (.str footer.schema) (by simp [Footer.toJson]),
    at_key "uncompressed_size" (.int footer.uncompressed_size) (by simp [Footer.toJson]),
    at_key "payload_size" (.int footer.payload_size) (by simp [Footer.toJson])]
  rfl

/-- The numbers of a footer are those of the types that Rust has for them. -/
structure InRange (footer : Footer) : Prop where
  format_version : 0 ≤ footer.format_version ∧ footer.format_version < U32_LIMIT
  row_count : 0 ≤ footer.row_count ∧ footer.row_count < U64_LIMIT
  batch_count : 0 ≤ footer.batch_count ∧ footer.batch_count < U64_LIMIT
  uncompressed_size : 0 ≤ footer.uncompressed_size ∧ footer.uncompressed_size < U64_LIMIT
  payload_size : 0 ≤ footer.payload_size ∧ footer.payload_size < U64_LIMIT

theorem strictFooter_holds (holds : Holds entries footer) (range : InRange footer) :
    strictFooter (.dict entries) = some footer := by
  have at_key : ∀ key value, (key, value) ∈ footer.toJson →
      Onto.lookup key entries = some value := fun key value member => holds (key, value) member
  simp only [strictFooter, strictFields,
    at_key "format_version" (.int footer.format_version) (by simp [Footer.toJson]),
    at_key "codec" (.str footer.codec) (by simp [Footer.toJson]),
    at_key "row_count" (.int footer.row_count) (by simp [Footer.toJson]),
    at_key "batch_count" (.int footer.batch_count) (by simp [Footer.toJson]),
    at_key "schema" (.str footer.schema) (by simp [Footer.toJson]),
    at_key "uncompressed_size" (.int footer.uncompressed_size) (by simp [Footer.toJson]),
    at_key "payload_size" (.int footer.payload_size) (by simp [Footer.toJson]),
    strictInt, strictStr, Option.bind_eq_bind, Option.bind_some, if_pos range.format_version,
    if_pos range.row_count, if_pos range.batch_count, if_pos range.uncompressed_size,
    if_pos range.payload_size, Option.pure_def]

theorem strictInt_some {limit : Int} {value : Value} {number : Int}
    (strict : strictInt limit value = some number) : value = .int number := by
  cases value with
  | int other =>
    rw [strictInt] at strict
    split_ifs at strict
    rw [Option.some.inj strict]
  | _ => cases strict

theorem strictStr_some {value : Value} {text : String} (strict : strictStr value = some text) :
    value = .str text := by
  cases value with
  | str other => rw [Option.some.inj strict]
  | _ => cases strict

/-- A footer is made of values of its fields' types. -/
theorem strictFields_some {version codec rows batches schema size payload : Value}
    (strict : strictFields version codec rows batches schema size payload = some footer) :
    version = .int footer.format_version ∧ codec = .str footer.codec ∧
      rows = .int footer.row_count ∧ batches = .int footer.batch_count ∧
      schema = .str footer.schema ∧ size = .int footer.uncompressed_size ∧
      payload = .int footer.payload_size := by
  obtain ⟨_, is_version, strict⟩ := Option.bind_eq_some_iff.mp strict
  obtain ⟨_, is_codec, strict⟩ := Option.bind_eq_some_iff.mp strict
  obtain ⟨_, is_rows, strict⟩ := Option.bind_eq_some_iff.mp strict
  obtain ⟨_, is_batches, strict⟩ := Option.bind_eq_some_iff.mp strict
  obtain ⟨_, is_schema, strict⟩ := Option.bind_eq_some_iff.mp strict
  obtain ⟨_, is_size, strict⟩ := Option.bind_eq_some_iff.mp strict
  obtain ⟨_, is_payload, strict⟩ := Option.bind_eq_some_iff.mp strict
  cases strict
  exact ⟨strictInt_some is_version, strictStr_some is_codec, strictInt_some is_rows,
    strictInt_some is_batches, strictStr_some is_schema, strictInt_some is_size,
    strictInt_some is_payload⟩

/-- A footer that Rust takes from an object has its fields there. -/
theorem holds_of_strict (strict : strictFooter (.dict entries) = some footer) :
    Holds entries footer := by
  obtain ⟨_, version_at, strict⟩ := Option.bind_eq_some_iff.mp strict
  obtain ⟨_, codec_at, strict⟩ := Option.bind_eq_some_iff.mp strict
  obtain ⟨_, rows_at, strict⟩ := Option.bind_eq_some_iff.mp strict
  obtain ⟨_, batches_at, strict⟩ := Option.bind_eq_some_iff.mp strict
  obtain ⟨_, schema_at, strict⟩ := Option.bind_eq_some_iff.mp strict
  obtain ⟨_, size_at, strict⟩ := Option.bind_eq_some_iff.mp strict
  obtain ⟨_, payload_at, strict⟩ := Option.bind_eq_some_iff.mp strict
  obtain ⟨rfl, rfl, rfl, rfl, rfl, rfl, rfl⟩ := strictFields_some strict
  intro field member
  simp only [Footer.toJson, List.mem_cons, List.not_mem_nil, or_false] at member
  rcases member with rfl | rfl | rfl | rfl | rfl | rfl | rfl <;> assumption

/-- A footer that Python takes is an object. -/
theorem dict_of_fromJson {value : Value} (taken : fromJson lib value = .ok footer) :
    ∃ entries, value = .dict entries := by
  cases value with
  | dict entries => exact ⟨entries, rfl⟩
  | _ => cases taken

end Footers

/-! ## Errors -/

/-- What fails, fails with errors of a kind. -/
def Only {Answer : Type} (kind : Raised → Prop) (result : Except Raised Answer) : Prop :=
  ∀ raised, result = .error raised → kind raised

section Errors

variable {Answer Next : Type} {kind : Raised → Prop}

theorem Only.ok (answer : Answer) : Only kind (.ok answer) := fun _ impossible => nomatch impossible

theorem Only.error {raised : Raised} (fits : kind raised) :
    Only kind (.error raised : Except Raised Answer) := by
  intro other same
  cases same
  exact fits

theorem Only.bind {first : Except Raised Answer} {next : Answer → Except Raised Next}
    (early : Only kind first) (later : ∀ answer, Only kind (next answer)) :
    Only kind (first >>= next) := by
  intro raised fails
  cases ends : first with
  | error other =>
    rw [ends] at fails
    cases fails
    exact early raised ends
  | ok answer =>
    rw [ends] at fails
    exact later answer raised fails

theorem Only.refuse {condition : Prop} [Decidable condition] {raised : Raised} (fits : kind raised) :
    Only kind (refuse condition raised) := by
  rw [CaracalDB.refuse]
  split_ifs
  · exact Only.error fits
  · exact Only.ok ()

theorem columnError_isCaracal (message : String) : IsCaracal (columnError message) := ⟨_, rfl⟩

theorem codecError_isCaracal (codec : String) : IsCaracal (codecError codec) := ⟨_, rfl⟩

theorem frame_errors (path : String) (data : ByteString) : Only IsCaracal (frame path data) := by
  refine (Only.refuse (columnError_isCaracal _)).bind fun _ => ?_
  refine (Only.refuse (columnError_isCaracal _)).bind fun _ => ?_
  refine (Only.refuse (columnError_isCaracal _)).bind fun _ => ?_
  exact (Only.refuse (columnError_isCaracal _)).bind fun _ => Only.ok _

theorem wrap_errors (lib : Libraries Schema Batch) (code : String) (result : Except Raised Answer) :
    Only IsCaracal (wrap lib code result) := by
  cases result with
  | ok answer => exact Only.ok answer
  | error raised => exact Only.error ⟨_, rfl⟩

theorem wrap_ok {lib : Libraries Schema Batch} {code : String} {result : Except Raised Answer}
    {answer : Answer} (ends : wrap lib code result = .ok answer) : result = .ok answer := by
  cases result with
  | ok other => exact ends
  | error raised => cases ends

/-- Rust fails with its own errors. -/
theorem decode_errors (lib : Libraries Schema Batch) (path : String) (data : ByteString) :
    Only IsCaracal (decodeColumnSegment lib path data) := by
  have footers : ∀ footer_bytes, Only IsCaracal (footerFromSlice lib footer_bytes) := by
    intro footer_bytes
    refine (wrap_errors lib _ _).bind fun value => ?_
    cases strictFooter value with
    | some footer => exact Only.ok footer
    | none => exact Only.error ⟨_, rfl⟩
  have parts : Only IsCaracal (readParts lib path data) := by
    refine (frame_errors path data).bind fun framed => ?_
    refine (footers framed.1).bind fun footer => ?_
    refine (Only.refuse (columnError_isCaracal _)).bind fun _ => ?_
    exact (Only.refuse (codecError_isCaracal _)).bind fun _ => Only.ok _
  refine parts.bind fun read => ?_
  have streams : Only IsCaracal (rustDecompress lib read.2 read.1.footer.codec) := by
    rw [rustDecompress, coded]
    split_ifs
    · exact Only.ok _
    · exact wrap_errors lib _ _
  refine streams.bind fun stream => ?_
  refine (wrap_errors lib _ _).bind fun decoded => ?_
  refine (Only.refuse (columnError_isCaracal _)).bind fun _ => ?_
  exact (Only.refuse (columnError_isCaracal _)).bind fun _ => Only.ok _

/-- A footer that names a codec which neither engine knows. -/
def UnknownCodec (lib : Libraries Schema Batch) (value : Value) : Prop :=
  ∃ entries codec, value = .dict entries ∧ Onto.lookup "codec" entries = some codec ∧
    lib.conversions.toStr codec ∉ CODECS

theorem fromJson_unknown {lib : Libraries Schema Batch} {value : Value}
    (unknown : UnknownCodec lib value) :
    ∃ raised, fromJson lib value = .error raised ∧ IsCaracal raised := by
  obtain ⟨entries, codec, rfl, found, foreign⟩ := unknown
  refine ⟨codecError (lib.conversions.toStr codec), ?_, codecError_isCaracal _⟩
  rw [fromJson, Onto.entry, found, ok_bind]
  show (refuse (lib.conversions.toStr codec ∉ CODECS) (codecError _) >>= _) = _
  rw [refuse, if_pos foreign]
  rfl

/-- Where Python takes no footer, it names an unknown codec or the error is foreign. -/
theorem fromJson_errors {lib : Libraries Schema Batch} (lawful : Lawful lib) (value : Value) :
    Only (fun raised => Foreign raised ∨ UnknownCodec lib value) (fromJson lib value) := by
  have key_errors : ∀ key, Only (fun raised => Foreign raised ∨ UnknownCodec lib value)
      (Onto.entry key value) := by
    intro key
    rw [Onto.entry.eq_def]
    split
    · split
      · exact Only.ok _
      · exact Only.error (.inl fun isCaracal => nomatch isCaracal)
    · exact Only.error (.inl fun isCaracal => nomatch isCaracal)
  have numbers : ∀ other, Only (fun raised => Foreign raised ∨ UnknownCodec lib value)
      (lib.conversions.toInt other) := by
    intro other raised fails
    cases other with
    | int number => cases fails
    | _ => exact .inl (lawful.intForeign _ _ fails)
  have fields : ∀ codec, Only (fun raised => Foreign raised ∨ UnknownCodec lib value) (do
      let c := lib.conversions
      let format_version ← c.toInt (← Onto.entry "format_version" value)
      let row_count ← c.toInt (← Onto.entry "row_count" value)
      let batch_count ← c.toInt (← Onto.entry "batch_count" value)
      let schema := c.toStr (← Onto.entry "schema" value)
      let uncompressed_size ← c.toInt (← Onto.entry "uncompressed_size" value)
      let payload_size ← c.toInt (← Onto.entry "payload_size" value)
      return ({ format_version, codec, row_count, batch_count, schema, uncompressed_size,
                payload_size } : Footer)) := by
    intro codec
    refine (key_errors _).bind fun _ => (numbers _).bind fun _ => ?_
    refine (key_errors _).bind fun _ => (numbers _).bind fun _ => ?_
    refine (key_errors _).bind fun _ => (numbers _).bind fun _ => ?_
    refine (key_errors _).bind fun _ => ?_
    refine (key_errors _).bind fun _ => (numbers _).bind fun _ => ?_
    exact (key_errors _).bind fun _ => (numbers _).bind fun _ => Only.ok _
  intro raised fails
  rw [fromJson] at fails
  cases found : Onto.entry "codec" value with
  | error other =>
    rw [found] at fails
    cases fails
    exact key_errors "codec" raised found
  | ok codec =>
    rw [found, ok_bind] at fails
    by_cases known : lib.conversions.toStr codec ∈ CODECS
    · have accepted : refuse (lib.conversions.toStr codec ∉ CODECS)
          (codecError (lib.conversions.toStr codec)) = .ok () := by
        rw [refuse, if_neg (not_not.mpr known)]
      change (refuse (lib.conversions.toStr codec ∉ CODECS) (codecError _) >>= _) = _ at fails
      rw [accepted, ok_bind] at fails
      exact fields _ raised fails
    · refine .inr ?_
      cases value with
      | dict entries =>
        rw [Onto.entry] at found
        cases looked : Onto.lookup "codec" entries with
        | none =>
          rw [looked] at found
          cases found
        | some stored =>
          rw [looked] at found
          cases found
          exact ⟨entries, codec, rfl, looked, known⟩
      | _ => cases found

end Errors

end CaracalDB.Column
