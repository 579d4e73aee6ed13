import CaracalDB.ColumnReaders
import Mathlib.Data.Countable.Basic
import Mathlib.Logic.Encodable.Basic
import Mathlib.Logic.Equiv.List

/-!
# Agreement on column segments

Both readers give the batches of a file that either writer wrote, with their counts in
the footer. On other files the engines part where a footer is not what Rust wants: no
JSON, a missing or mistyped field, a payload that is no stream, counts of other
batches.
-/

namespace CaracalDB.Column

open Bytes Crc32 Log

variable {Schema Batch : Type}

section Files

variable (lib : Libraries Schema Batch) {path : String} {data footer_bytes payload : ByteString}

/-- A footer of exactly Rust's types, over a payload that is decoded to as many rows and batches. -/
structure Exact (value : Value) (payload : ByteString) (footer : Footer) (schema : Schema)
    (batches : List Batch) : Prop where
  strict : strictFooter value = some footer
  sized : (payload.length : Int) = footer.payload_size
  codec : footer.codec ∈ CODECS
  decoded : ∃ stream, pythonDecompress lib payload footer.codec = .ok stream ∧
    lib.decode stream = .ok (schema, batches)
  rows : ((batches.map lib.num_rows).sum : Int) = footer.row_count
  count : (batches.length : Int) = footer.batch_count

theorem rustDecompress_ok_iff (codec : String) (stream : ByteString) :
    rustDecompress lib payload codec = .ok stream ↔ pythonDecompress lib payload codec = .ok stream := by
  rw [rustDecompress, pythonDecompress, coded, coded]
  split_ifs
  · rfl
  · constructor
    · exact wrap_ok
    · intro ends
      rw [ends]
      rfl

theorem rows_batchInfo (batches : List Batch) :
    ((batches.map (batchInfo lib)).map Prod.fst).sum = (batches.map lib.num_rows).sum := by
  rw [List.map_map]
  rfl

/-- Rust decodes a file of which everything fits. -/
theorem decode_of_exact {value : Value} {footer : Footer} {schema : Schema} {batches : List Batch}
    (framed : frame path data = .ok (footer_bytes, payload))
    (loaded : lib.loads footer_bytes = .ok value) (exact_ : Exact lib value payload footer schema batches) :
    ∃ decoded, decodeColumnSegment lib path data = .ok decoded ∧ decoded.info.footer = footer ∧
      decoded.batches = batches.map (batchInfo lib) := by
  obtain ⟨stream, decompressed, decoded⟩ := exact_.decoded
  have footer_read : footerFromSlice lib footer_bytes = .ok footer := by
    simp only [footerFromSlice, loaded, wrap, ok_bind, exact_.strict]
    rfl
  have sized : refuse ((payload.length : Int) ≠ footer.payload_size) (sizeError path) = .ok () := by
    rw [refuse, if_neg (not_not.mpr exact_.sized)]
  have known : validateCodec footer.codec = .ok () := by
    rw [validateCodec, refuse, if_neg (not_not.mpr exact_.codec)]
  let info : SegmentInfo :=
    { footer
      payload_offset := HEADER_SIZE
      payload_size := payload.length
      footer_offset := HEADER_SIZE + payload.length }
  have parts : readParts lib path data = .ok (info, payload) := by
    rw [readParts, framed, ok_bind]
    simp only [footer_read, sized, known, ok_bind]
    rfl
  refine ⟨{ info, field_names := lib.field_names schema, batches := batches.map (batchInfo lib) }, ?_,
    rfl, rfl⟩
  rw [decodeColumnSegment, parts, ok_bind]
  simp only [(rustDecompress_ok_iff lib footer.codec stream).mpr decompressed, decoded, wrap, ok_bind,
    info, rows_batchInfo, List.length_map, refuse, exact_.rows, exact_.count, ne_eq, not_true, if_false]
  rfl

/-- What Rust decodes fits in everything. -/
theorem exact_of_decode {value : Value} {decoded : Decoded}
    (framed : frame path data = .ok (footer_bytes, payload))
    (loaded : lib.loads footer_bytes = .ok value)
    (ends : decodeColumnSegment lib path data = .ok decoded) :
    ∃ footer schema batches, Exact lib value payload footer schema batches ∧
      decoded.info.footer = footer ∧ decoded.batches = batches.map (batchInfo lib) := by
  obtain ⟨read, parts, ends⟩ := except_bind_ok ends
  obtain ⟨stream, decompressed, ends⟩ := except_bind_ok ends
  obtain ⟨⟨schema, batches⟩, decodes, ends⟩ := except_bind_ok ends
  obtain ⟨_, rows, ends⟩ := except_bind_ok ends
  obtain ⟨_, count, ends⟩ := except_bind_ok ends
  cases ends
  rw [readParts, framed, ok_bind] at parts
  obtain ⟨footer, footer_read, parts⟩ := except_bind_ok parts
  obtain ⟨_, sized, parts⟩ := except_bind_ok parts
  obtain ⟨_, known, parts⟩ := except_bind_ok parts
  cases parts
  obtain ⟨other, loads, strict⟩ := except_bind_ok footer_read
  rw [loaded] at loads
  cases loads
  have rows_fit := not_not.mp (refuse_ok rows)
  have count_fits := not_not.mp (refuse_ok count)
  rw [rows_batchInfo] at rows_fit
  rw [List.length_map] at count_fits
  refine ⟨footer, schema, batches, ?_, rfl, rfl⟩
  refine ⟨?_, not_not.mp (refuse_ok sized), not_not.mp (refuse_ok known),
    ⟨stream, (rustDecompress_ok_iff lib footer.codec stream).mp decompressed, wrap_ok decodes⟩,
    rows_fit, count_fits⟩
  cases found : strictFooter value with
  | none =>
    rw [found] at strict
    cases strict
  | some taken =>
    rw [found] at strict
    cases strict
    rfl

/-- What Python reads of a file: its footer, if the sizes agree, and the batches of its payload. -/
theorem columnReader_footer {value : Value} {footer : Footer}
    (framed : frame path data = .ok (footer_bytes, payload))
    (loaded : lib.loads footer_bytes = .ok value) (taken : fromJson lib value = .ok footer)
    (sized : (payload.length : Int) = footer.payload_size) :
    columnReader lib path data = (pythonDecompress lib payload footer.codec >>= fun stream =>
      lib.decode stream >>= fun decoded => .ok (footer, decoded.2)) := by
  have accepted : refuse ((payload.length : Int) ≠ footer.payload_size) (sizeError path) = .ok () := by
    rw [refuse, if_neg (not_not.mpr sized)]
  have read : readSegment lib path data = .ok (footer, payload) := by
    rw [readSegment, framed, ok_bind]
    simp only [loaded, taken, accepted, ok_bind]
    rfl
  rw [columnReader, read, ok_bind]
  rfl

theorem columnReader_stops {value : Value} {raised : Raised}
    (framed : frame path data = .ok (footer_bytes, payload))
    (loaded : lib.loads footer_bytes = .ok value) (refused : fromJson lib value = .error raised) :
    columnReader lib path data = .error raised := by
  have read : readSegment lib path data = .error raised := by
    rw [readSegment, framed, ok_bind]
    simp only [loaded, refused, ok_bind]
    rfl
  rw [columnReader, read]
  rfl

theorem columnReader_resized {value : Value} {footer : Footer}
    (framed : frame path data = .ok (footer_bytes, payload))
    (loaded : lib.loads footer_bytes = .ok value) (taken : fromJson lib value = .ok footer)
    (resized : (payload.length : Int) ≠ footer.payload_size) :
    columnReader lib path data = .error (sizeError path) := by
  have refused : refuse ((payload.length : Int) ≠ footer.payload_size) (sizeError path) =
      .error (sizeError path) := by
    rw [refuse, if_pos resized]
  have read : readSegment lib path data = .error (sizeError path) := by
    rw [readSegment, framed, ok_bind]
    simp only [loaded, taken, refused, ok_bind]
    rfl
  rw [columnReader, read]
  rfl

/-! ## Agreement -/

/-- Each reader returns or fails with an error of its own; both return, with the same batches, or
both fail. -/
def Agrees (path : String) (data : ByteString) : Prop :=
  match columnReader lib path data, decodeColumnSegment lib path data with
  | .ok (_, batches), .ok decoded => decoded.batches = batches.map (batchInfo lib)
  | .error raised, .error other => IsCaracal raised ∧ IsCaracal other
  | _, _ => False

/-- A footer that names an unknown codec or another size than its payload has, or fits exactly. -/
def PlainFooter (value : Value) (payload : ByteString) : Prop :=
  UnknownCodec lib value ∨
    (∃ footer, fromJson lib value = .ok footer ∧ (payload.length : Int) ≠ footer.payload_size) ∨
    ∃ footer schema batches, (∃ entries, value = .dict entries) ∧
      Exact lib value payload footer schema batches

/-- A file that does not get as far as its footer, or one with a plain footer. -/
def Plain (path : String) (data : ByteString) : Prop :=
  match frame path data with
  | .error _ => True
  | .ok (footer_bytes, payload) =>
      ∃ value, lib.loads footer_bytes = .ok value ∧ PlainFooter lib value payload

variable {lib}

theorem agrees_of_errors {raised other : Raised} (python : columnReader lib path data = .error raised)
    (rust : decodeColumnSegment lib path data = .error other) (isCaracal : IsCaracal raised) :
    Agrees lib path data := by
  rw [Agrees, python, rust]
  exact ⟨isCaracal, decode_errors lib path data other rust⟩

/-- Where Python fails with an error of its own, the readers agree if Rust does not succeed. -/
theorem agrees_of_failure {raised : Raised} (python : columnReader lib path data = .error raised)
    (isCaracal : IsCaracal raised)
    (fails : ∀ decoded, decodeColumnSegment lib path data ≠ .ok decoded) : Agrees lib path data := by
  cases rust : decodeColumnSegment lib path data with
  | ok decoded => exact absurd rust (fails decoded)
  | error other => exact agrees_of_errors python rust isCaracal

theorem not_agrees_of_foreign {raised : Raised} (python : columnReader lib path data = .error raised)
    (foreign : Foreign raised) : ¬ Agrees lib path data := by
  intro agrees
  rw [Agrees, python] at agrees
  cases rust : decodeColumnSegment lib path data with
  | ok decoded =>
    rw [rust] at agrees
    exact agrees
  | error other =>
    rw [rust] at agrees
    exact foreign agrees.1

/-- Of an exact footer in an object, Python takes the same. -/
theorem Exact.fromJson {entries : List (String × Value)} {footer : Footer} {schema : Schema}
    {batches : List Batch} (exact_ : Exact lib (.dict entries) payload footer schema batches) :
    Column.fromJson lib (.dict entries) = .ok footer :=
  fromJson_holds lib (holds_of_strict exact_.strict) exact_.codec

/-- Where Python takes a footer of the right size, plain is exact. -/
theorem PlainFooter.exact {value : Value} {footer : Footer} (plain : PlainFooter lib value payload)
    (taken : Column.fromJson lib value = .ok footer)
    (sized : (payload.length : Int) = footer.payload_size) :
    ∃ schema batches, Exact lib value payload footer schema batches := by
  rcases plain with unknown | ⟨other, takes, resized⟩ | ⟨other, schema, batches, ⟨entries, rfl⟩, fits⟩
  · obtain ⟨raised, refuses, _⟩ := fromJson_unknown unknown
    rw [taken] at refuses
    cases refuses
  · rw [taken] at takes
    cases takes
    exact absurd sized resized
  · have takes := fits.fromJson
    rw [taken] at takes
    cases takes
    exact ⟨schema, batches, fits⟩

/-- Where Python takes no footer, plain is an unknown codec. -/
theorem PlainFooter.unknown {value : Value} {raised : Raised} (plain : PlainFooter lib value payload)
    (refused : Column.fromJson lib value = .error raised) : IsCaracal raised := by
  rcases plain with unknown | ⟨other, takes, _⟩ | ⟨other, schema, batches, ⟨entries, rfl⟩, fits⟩
  · obtain ⟨error, refuses, isCaracal⟩ := fromJson_unknown unknown
    rw [refused] at refuses
    cases refuses
    exact isCaracal
  · rw [refused] at takes
    cases takes
  · have takes := fits.fromJson
    rw [refused] at takes
    cases takes

theorem decompress_errors (lawful : Lawful lib) (codec : String) :
    Only Foreign (pythonDecompress lib payload codec) := by
  rw [pythonDecompress, coded]
  split_ifs
  · exact Only.ok _
  · exact lawful.decompressForeign codec payload

section Footers

variable {value : Value} (framed : frame path data = .ok (footer_bytes, payload))
  (loaded : lib.loads footer_bytes = .ok value)

include framed loaded

/-- A footer that Python does not take. -/
theorem agrees_refused_iff (lawful : Lawful lib) {raised : Raised}
    (refused : Column.fromJson lib value = .error raised) :
    Agrees lib path data ↔ PlainFooter lib value payload := by
  have python := columnReader_stops lib framed loaded refused
  rcases fromJson_errors lawful value raised refused with foreign | unknown
  · exact iff_of_false (not_agrees_of_foreign python foreign)
      fun plain => foreign (plain.unknown refused)
  · have plain : PlainFooter lib value payload := .inl unknown
    refine iff_of_true (agrees_of_failure python (plain.unknown refused) ?_) plain
    intro decoded rust
    obtain ⟨footer, schema, batches, fits, _⟩ := exact_of_decode lib framed loaded rust
    obtain ⟨entries, codec, rfl, _⟩ := unknown
    have takes := fits.fromJson
    rw [refused] at takes
    cases takes

/-- A footer that Python takes and that gives another size. -/
theorem agrees_resized {footer : Footer} (taken : Column.fromJson lib value = .ok footer)
    (resized : (payload.length : Int) ≠ footer.payload_size) : Agrees lib path data := by
  refine agrees_of_failure (columnReader_resized lib framed loaded taken resized)
    (columnError_isCaracal _) ?_
  intro decoded rust
  obtain ⟨other, schema, batches, fits, _⟩ := exact_of_decode lib framed loaded rust
  obtain ⟨entries, rfl⟩ := dict_of_fromJson lib taken
  have takes := fits.fromJson
  rw [taken] at takes
  cases takes
  exact resized fits.sized

/-- A footer that Python takes, over a payload of its size. -/
theorem agrees_sized_iff (lawful : Lawful lib) {footer : Footer}
    (taken : Column.fromJson lib value = .ok footer)
    (sized : (payload.length : Int) = footer.payload_size) :
    Agrees lib path data ↔ ∃ schema batches, Exact lib value payload footer schema batches := by
  have python := columnReader_footer lib framed loaded taken sized
  cases decompressed : pythonDecompress lib payload footer.codec with
  | error raised =>
    rw [decompressed] at python
    refine iff_of_false (not_agrees_of_foreign python
      (decompress_errors lawful _ raised decompressed)) ?_
    rintro ⟨schema, batches, fits⟩
    obtain ⟨stream, succeeds, _⟩ := fits.decoded
    rw [decompressed] at succeeds
    cases succeeds
  | ok stream =>
    rw [decompressed, ok_bind] at python
    cases decodes : lib.decode stream with
    | error raised =>
      rw [decodes] at python
      refine iff_of_false (not_agrees_of_foreign python (lawful.decodeForeign _ raised decodes)) ?_
      rintro ⟨schema, batches, fits⟩
      obtain ⟨other, succeeds, decoded⟩ := fits.decoded
      rw [decompressed] at succeeds
      cases succeeds
      rw [decodes] at decoded
      cases decoded
    | ok answer =>
      rw [decodes, ok_bind] at python
      rw [Agrees, python]
      constructor
      · intro agrees
        cases rust : decodeColumnSegment lib path data with
        | error raised =>
          rw [rust] at agrees
          exact agrees.elim
        | ok decoded =>
          obtain ⟨other, schema, batches, fits, _⟩ := exact_of_decode lib framed loaded rust
          obtain ⟨entries, rfl⟩ := dict_of_fromJson lib taken
          have takes := fits.fromJson
          rw [taken] at takes
          cases takes
          exact ⟨schema, batches, fits⟩
      · rintro ⟨schema, batches, fits⟩
        obtain ⟨decoded, rust, _, same⟩ := decode_of_exact lib framed loaded fits
        obtain ⟨other, succeeds, decoded_stream⟩ := fits.decoded
        rw [decompressed] at succeeds
        cases succeeds
        rw [decodes] at decoded_stream
        cases decoded_stream
        rw [rust]
        exact same

end Footers

/-- The readers agree on exactly the plain files. -/
theorem agrees_iff (lawful : Lawful lib) (path : String) (data : ByteString) :
    Agrees lib path data ↔ Plain lib path data := by
  rw [Plain]
  cases framed : frame path data with
  | error raised =>
    have python : columnReader lib path data = .error raised := by
      rw [columnReader, readSegment, framed]
      rfl
    have rust : decodeColumnSegment lib path data = .error raised := by
      rw [decodeColumnSegment, readParts, framed]
      rfl
    exact iff_of_true (agrees_of_errors python rust (frame_errors path data raised framed)) trivial
  | ok pair =>
    obtain ⟨footer_bytes, payload⟩ := pair
    cases loaded : lib.loads footer_bytes with
    | error raised =>
      have python : columnReader lib path data = .error raised := by
        rw [columnReader, readSegment, framed, ok_bind]
        simp only [loaded]
        rfl
      refine iff_of_false (not_agrees_of_foreign python (lawful.loadsForeign _ _ loaded)) ?_
      rintro ⟨value, loads, _⟩
      cases loaded.symm.trans loads
    | ok value =>
      have body : (∃ other, lib.loads footer_bytes = .ok other ∧ PlainFooter lib other payload) ↔
          PlainFooter lib value payload := by
        constructor
        · rintro ⟨other, loads, plain⟩
          cases loaded.symm.trans loads
          exact plain
        · exact fun plain => ⟨value, loaded, plain⟩
      refine Iff.trans ?_ body.symm
      cases taken : Column.fromJson lib value with
      | error raised => exact agrees_refused_iff framed loaded lawful taken
      | ok footer =>
        by_cases sized : (payload.length : Int) = footer.payload_size
        · rw [agrees_sized_iff framed loaded lawful taken sized]
          constructor
          · rintro ⟨schema, batches, fits⟩
            exact .inr (.inr ⟨footer, schema, batches, dict_of_fromJson lib taken, fits⟩)
          · exact fun plain => plain.exact taken sized
        · exact iff_of_true (agrees_resized framed loaded taken sized)
            (.inr (.inl ⟨footer, taken, sized⟩))

/-! ## Written files -/

/-- The file is read as the batches in both engines, and its footer has their counts. -/
def ReadBack (lib : Libraries Schema Batch) (file : ByteString) (footer : Footer)
    (batches : List Batch) : Prop :=
  (footer.row_count = (batches.map lib.num_rows).sum ∧ footer.batch_count = batches.length) ∧
    ∀ path, columnReader lib path file = .ok (footer, batches) ∧
      ∃ decoded, decodeColumnSegment lib path file = .ok decoded ∧ decoded.info.footer = footer ∧
        decoded.batches = batches.map (batchInfo lib)

/-- Counts and sizes have 64 bits. -/
structure Fits (lib : Libraries Schema Batch) (batches : List Batch) (stream payload : ByteString) :
    Prop where
  rows : (batches.map lib.num_rows).sum < 256 ^ 8
  count : batches.length < 256 ^ 8
  stream : stream.length < 256 ^ 8
  payload : HEADER_SIZE + payload.length < 256 ^ 8

/-- The footer that both writers make, but for the text of the schema. -/
def writtenFooter (lib : Libraries Schema Batch) (codec schema : String) (batches : List Batch)
    (stream payload : ByteString) : Footer :=
  { format_version := 1
    codec
    row_count := (batches.map lib.num_rows).sum
    batch_count := batches.length
    schema
    uncompressed_size := stream.length
    payload_size := payload.length }

theorem writtenFooter_inRange {batches : List Batch} {stream : ByteString}
    (fits : Fits lib batches stream payload) (codec schema : String) :
    InRange (writtenFooter lib codec schema batches stream payload) := by
  have limit : U64_LIMIT = ((256 ^ 8 : Nat) : Int) := by decide
  have below : ∀ number : Nat, number < 256 ^ 8 → (0 : Int) ≤ number ∧ (number : Int) < U64_LIMIT := by
    intro number small
    rw [limit]
    exact ⟨Int.natCast_nonneg _, Int.ofNat_lt.mpr small⟩
  have version : (0 : Int) ≤ 1 ∧ (1 : Int) < U32_LIMIT := by decide
  exact
    { format_version := version
      row_count := below _ fits.rows
      batch_count := below _ fits.count
      uncompressed_size := below _ fits.stream
      payload_size := below _ ((Nat.le_add_left _ _).trans_lt fits.payload) }

/-- A file with the footer of its batches is read back. -/
theorem readBack_of_written {dumps : Footer → ByteString} {codec : String} (schema_text : String)
    {schema : Schema} {batches : List Batch} {stream : ByteString}
    (written : ∀ footer, ∃ entries, lib.loads (dumps footer) = .ok (.dict entries) ∧
      ∀ key, Onto.lookup key entries = Onto.lookup key footer.toJson)
    (known : codec ∈ CODECS) (fits : Fits lib batches stream payload)
    (decompressed : pythonDecompress lib payload codec = .ok stream)
    (decoded : lib.decode stream = .ok (schema, batches)) :
    ReadBack lib (fileOf payload (dumps (writtenFooter lib codec schema_text batches stream payload)))
      (writtenFooter lib codec schema_text batches stream payload) batches := by
  let footer := writtenFooter lib codec schema_text batches stream payload
  obtain ⟨entries, loaded, same⟩ := written footer
  have holds : Holds entries footer := holds_of_written same
  have exact_ : Exact lib (.dict entries) payload footer schema batches :=
    { strict := strictFooter_holds holds (writtenFooter_inRange fits codec schema_text)
      sized := rfl
      codec := known
      decoded := ⟨stream, decompressed, decoded⟩
      rows := rfl
      count := rfl }
  refine ⟨⟨rfl, rfl⟩, fun path => ?_⟩
  have framed := frame_fileOf path payload (dumps footer) fits.payload
  refine ⟨?_, decode_of_exact lib framed loaded exact_⟩
  rw [columnReader_footer lib framed loaded (fromJson_holds lib holds known) rfl]
  show (pythonDecompress lib payload codec >>= _) = _
  rw [decompressed, ok_bind, decoded]
  rfl

/-- What is compressed is decompressed. -/
theorem decompress_coded {compress : String → ByteString → ByteString}
    (inverse : ∀ codec payload, lib.decompress codec (compress codec payload) = .ok payload)
    (codec : String) (stream : ByteString) :
    pythonDecompress lib (coded codec stream id compress) codec = .ok stream := by
  rw [pythonDecompress, coded, coded]
  split_ifs
  · rfl
  · exact inverse codec stream

/-- Batches of one schema are all taken. -/
theorem append_all [DecidableEq Schema] {schema : Schema} (rest : List Batch) :
    ∀ batches : List Batch, (∀ batch ∈ batches ++ rest, lib.schemaOf batch = schema) →
      rest.foldlM (append lib) batches = .ok (batches ++ rest) := by
  induction rest with
  | nil =>
    intro batches _
    rw [List.append_nil]
    rfl
  | cons batch rest inductionHypothesis =>
    intro batches one
    have taken : append lib batches batch = .ok (batches ++ [batch]) := by
      cases batches with
      | nil => rfl
      | cons first batches =>
        have same : lib.schemaOf batch = lib.schemaOf first :=
          (one batch (List.mem_append_right _ List.mem_cons_self)).trans
            (one first List.mem_cons_self).symm
        show (refuse (lib.schemaOf batch ≠ lib.schemaOf first) _ >>= _) = _
        rw [refuse, if_neg (not_not.mpr same)]
        rfl
    rw [List.foldlM_cons, taken, ok_bind, inductionHypothesis (batches ++ [batch])
      (by rw [List.append_assoc]; exact one), List.append_assoc]
    rfl

theorem python_readBack [DecidableEq Schema] (lawful : Lawful lib) {schema : Schema}
    {batches : List Batch} {codec : String} (some_batch : batches ≠ [])
    (one : ∀ batch ∈ batches, lib.schemaOf batch = schema) (known : codec ∈ CODECS)
    (fits : Fits lib batches (lib.encode schema batches)
      (coded codec (lib.encode schema batches) id lib.pythonCompress)) :
    ∃ footer file, writeColumnSegment lib batches codec = .ok (footer, file) ∧
      ReadBack lib file footer batches := by
  obtain ⟨first, rest, rfl⟩ := List.exists_cons_of_ne_nil some_batch
  have schema_first := one first List.mem_cons_self
  refine ⟨_, _, ?_, readBack_of_written (lib.pythonText schema) lawful.pythonText known fits
    (decompress_coded lawful.pythonPayload codec _) (lawful.stream schema _ one)⟩
  have packed : refuse (256 ^ 8 ≤ HEADER_SIZE + (coded codec (lib.encode schema (first :: rest)) id
      lib.pythonCompress).length) .structError = .ok () := by
    rw [refuse, if_neg (Nat.not_le.mpr fits.payload)]
  rw [writeColumnSegment, append_all (first :: rest) [] one, ok_bind, List.nil_append, close,
    schema_first]
  simp only [packed, ok_bind]
  rfl

theorem rust_readBack (lawful : Lawful lib) (path : String) {schema : Schema} {batches : List Batch}
    {stream : ByteString} {codec : String} (decoded : lib.decode stream = .ok (schema, batches))
    (some_batch : batches ≠ []) (known : codec ∈ CODECS)
    (fits : Fits lib batches stream (coded codec stream id lib.rustCompress)) :
    ∃ info file, writeIpcStream lib path stream codec = .ok (info, file) ∧
      ReadBack lib file info.footer batches := by
  have back := readBack_of_written (lib.rustText schema) lawful.rustText known fits
    (decompress_coded lawful.rustPayload codec _) decoded
  obtain ⟨_, rust, footer, _⟩ := (back.2 path).2
  obtain ⟨read, parts, rest⟩ := except_bind_ok rust
  obtain ⟨_, _, rest⟩ := except_bind_ok rest
  obtain ⟨_, _, rest⟩ := except_bind_ok rest
  obtain ⟨_, _, rest⟩ := except_bind_ok rest
  obtain ⟨_, _, rest⟩ := except_bind_ok rest
  cases rest
  have taken : validateCodec codec = .ok () := by
    rw [validateCodec, refuse, if_neg (not_not.mpr known)]
  have stored : refuse (batches = []) (columnError "cannot write an empty column segment") = .ok () := by
    rw [refuse, if_neg some_batch]
  have same : read.1.footer = writtenFooter lib codec (lib.rustText schema) batches stream
    (coded codec stream id lib.rustCompress) := footer
  refine ⟨read.1, fileOf (coded codec stream id lib.rustCompress) (lib.rustDumps
    (writtenFooter lib codec (lib.rustText schema) batches stream
      (coded codec stream id lib.rustCompress))), ?_, same ▸ back⟩
  · rw [writeIpcStream, taken, ok_bind, decoded]
    show (refuse (batches = []) (columnError "cannot write an empty column segment") >>= _) = _
    rw [stored, ok_bind]
    show (readParts lib path (fileOf _ (lib.rustDumps (writtenFooter lib codec (lib.rustText schema)
      batches stream (coded codec stream id lib.rustCompress)))) >>= _) = _
    rw [parts]
    rfl

end Files

/-- Footers can be numbered. -/
theorem footer_countable : Countable Footer := by
  let letters : String → List Nat := fun text => text.toList.map Char.toNat
  have letters_injective : Function.Injective letters := by
    intro first second same
    have chars : first.toList = second.toList := by
      refine List.map_injective_iff.mpr ?_ same
      exact Function.LeftInverse.injective Char.ofNat_toNat
    exact String.toList_inj.mp chars
  let key : Footer → Int × List Nat × Int × Int × List Nat × Int × Int := fun footer =>
    (footer.format_version, letters footer.codec, footer.row_count, footer.batch_count,
      letters footer.schema, footer.uncompressed_size, footer.payload_size)
  have key_injective : Function.Injective key := by
    intro first second same
    obtain ⟨version, codec, rows, batches, schema, size, payload⟩ := first
    obtain ⟨_, _, _, _, _, _, _⟩ := second
    simp only [key, Prod.mk.injEq] at same
    obtain ⟨rfl, same_codec, rfl, rfl, same_schema, rfl, rfl⟩ := same
    cases letters_injective same_codec
    cases letters_injective same_schema
    rfl
  exact key_injective.countable

noncomputable def footerNumber : Footer → Nat := footer_countable.exists_injective_nat.choose

theorem footerNumber_injective : Function.Injective footerNumber :=
  footer_countable.exists_injective_nat.choose_spec

/-- `{}` -/
def EMPTY_OBJECT : ByteString := [0x7B, 0x7D]

/-- Libraries that write footers by number, batches by count and leave payloads as they are. -/
noncomputable def countingLibraries : Libraries Unit Unit :=
  { loads := fun text =>
      if text = EMPTY_OBJECT then .ok (.dict [])
      else match Classical.dec (∃ footer, List.replicate (footerNumber footer) 0 = text) with
        | .isTrue written => .ok (.dict written.choose.toJson)
        | .isFalse _ => .error (.typeError "JSONDecodeError")
    pythonDumps := fun footer => List.replicate (footerNumber footer) 0
    rustDumps := fun footer => List.replicate (footerNumber footer) 0
    conversions := ⟨fun _ => .error (.typeError "int"), fun _ => "", fun _ _ => .invalidKind⟩
    refusal := fun _ => "missing field"
    describe := fun _ => "expected value"
    pythonCompress := fun _ payload => payload
    rustCompress := fun _ payload => payload
    decompress := fun _ payload => .ok payload
    schemaOf := fun _ => ()
    num_rows := fun _ => 1
    field_names := fun _ => []
    pythonText := fun _ => ""
    rustText := fun _ => ""
    encode := fun _ batches => List.replicate batches.length 0
    decode := fun stream => .ok ((), List.replicate stream.length ()) }

theorem countingLibraries_loads (footer : Footer) :
    countingLibraries.loads (List.replicate (footerNumber footer) 0) = .ok (.dict footer.toJson) := by
  have other : List.replicate (footerNumber footer) (0 : UInt8) ≠ EMPTY_OBJECT := by
    intro same
    have member : (0x7B : UInt8) ∈ List.replicate (footerNumber footer) (0 : UInt8) :=
      same ▸ List.mem_cons_self
    exact absurd (List.eq_of_mem_replicate member) (by decide)
  have written : ∃ known, List.replicate (footerNumber known) (0 : UInt8) =
      List.replicate (footerNumber footer) 0 := ⟨footer, rfl⟩
  have same : written.choose = footer := by
    apply footerNumber_injective
    have lengths := congrArg List.length written.choose_spec
    rwa [List.length_replicate, List.length_replicate] at lengths
  show (if _ then _ else _) = _
  rw [if_neg other]
  split
  · rename_i found _
    show Except.ok (Value.dict written.choose.toJson) = _
    rw [same]
  · rename_i missing _
    exact absurd written missing

theorem countingLibraries_lawful : Lawful countingLibraries where
  pythonText footer := ⟨footer.toJson, countingLibraries_loads footer, fun _ => rfl⟩
  rustText footer := ⟨footer.toJson, countingLibraries_loads footer, fun _ => rfl⟩
  pythonPayload _ _ := rfl
  rustPayload _ _ := rfl
  stream schema batches _ := by
    show Except.ok ((), List.replicate (List.replicate batches.length (0 : UInt8)).length ()) = _
    rw [List.length_replicate]
    congr 2
    exact (List.eq_replicate_iff.mpr ⟨rfl, fun _ _ => rfl⟩).symm
  loadsForeign text raised fails := by
    change (if _ then _ else _) = _ at fails
    split at fails
    · cases fails
    · split at fails
      · cases fails
      · cases fails
        exact fun isCaracal => nomatch isCaracal
  intForeign value raised fails := by
    cases fails
    exact fun isCaracal => nomatch isCaracal
  decompressForeign _ _ _ fails := nomatch fails
  decodeForeign _ _ fails := nomatch fails

/-- Libraries and a file for which Python fails with an error of the language part the engines. -/
theorem parts_of_foreign {lib : Libraries Unit Unit} (lawful : Lawful lib) {path : String}
    {data : ByteString} {raised : Raised} (python : columnReader lib path data = .error raised)
    (foreign : Foreign raised) :
    ¬ ∀ lib : Libraries Unit Unit, Lawful lib → ∀ path data, Agrees lib path data :=
  fun agree => not_agrees_of_foreign python foreign (agree lib lawful path data)

theorem frame_nothing (path : String) :
    frame path [] = .error (columnError ("column segment is too small: " ++ path)) := by
  have short : ([] : ByteString).length < HEADER_SIZE + FOOTER_TRAILER_SIZE := by decide
  rw [frame, refuse, if_pos short]
  rfl

end CaracalDB.Column
