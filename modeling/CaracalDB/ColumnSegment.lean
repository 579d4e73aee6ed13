import CaracalDB.CatalogRecords
import CaracalDB.MixedStores
import CaracalDB.WalSegment

/-!
# Column segments

A column segment is a file header, the batches as an Arrow stream that may be
compressed, a JSON footer and a trailer with the footer's place and checksum. Python
and Rust both write and read it. Python reads the footer's fields one by one and
converts them; Rust takes a footer of exactly its types and compares the counts with
what it decodes. The Arrow, JSON and compression libraries are parameters.
-/

namespace CaracalDB.Column

open Bytes Crc32 Log

abbrev ByteString : Type := List UInt8

/-- `ColumnSegmentFooter` -/
structure Footer where
  format_version : Int
  codec : String
  row_count : Int
  batch_count : Int
  schema : String
  uncompressed_size : Int
  payload_size : Int
deriving DecidableEq

/-- `footer.to_json()` -/
def Footer.toJson (footer : Footer) : List (String × Value) :=
  [("format_version", .int footer.format_version), ("codec", .str footer.codec),
    ("row_count", .int footer.row_count), ("batch_count", .int footer.batch_count),
    ("schema", .str footer.schema), ("uncompressed_size", .int footer.uncompressed_size),
    ("payload_size", .int footer.payload_size)]

/-- The codecs that both engines know. -/
def CODECS : List String := ["none", "zstd", "lz4"]

/-- What the engines take from libraries. -/
structure Libraries (Schema Batch : Type) where
  /-- JSON: the value of a text, and the text of a footer in either language. -/
  loads : ByteString → Except Raised Value
  pythonDumps : Footer → ByteString
  rustDumps : Footer → ByteString
  /-- What `int` and `str` make of values of other types. -/
  conversions : Onto.Conversions
  /-- Why the Rust JSON library refuses a value as a footer. -/
  refusal : Value → String
  /-- The text of an error of a library. -/
  describe : Raised → String
  pythonCompress : String → ByteString → ByteString
  rustCompress : String → ByteString → ByteString
  decompress : String → ByteString → Except Raised ByteString
  /-- Arrow: a batch's schema and rows, and batches as a stream. -/
  schemaOf : Batch → Schema
  num_rows : Batch → Nat
  field_names : Schema → List String
  pythonText : Schema → String
  rustText : Schema → String
  encode : Schema → List Batch → ByteString
  decode : ByteString → Except Raised (Schema × List Batch)

variable {Schema Batch : Type} (lib : Libraries Schema Batch)

def FOOTER_TRAILER_SIZE : Nat := 12

def columnError (message : String) : Raised := .caracal { code := "CDB-7001", message }

/-! ## The frame -/

/-- The file of a payload and a footer. -/
def fileOf (payload footer_bytes : ByteString) : ByteString :=
  packHeader ++ payload ++ footer_bytes ++
    (word 8 (HEADER_SIZE + payload.length) ++ word 4 (crc32 footer_bytes))

/-- What both readers check of a file before they look into the footer: the footer and the payload
of a file that passes. -/
def frame (path : String) (data : ByteString) : Except Raised (ByteString × ByteString) := do
  refuse (data.length < HEADER_SIZE + FOOTER_TRAILER_SIZE)
    (columnError ("column segment is too small: " ++ path))
  refuse (data.take MAGIC.length ≠ MAGIC) (columnError ("invalid column segment magic: " ++ path))
  let trailer_start := data.length - FOOTER_TRAILER_SIZE
  let footer_offset := value (slice data trailer_start (trailer_start + 8))
  let expected_crc := value (slice data (trailer_start + 8) data.length)
  refuse (footer_offset < HEADER_SIZE ∨ trailer_start < footer_offset)
    (columnError ("invalid column footer offset: " ++ path))
  let footer_bytes := slice data footer_offset trailer_start
  refuse (crc32 footer_bytes ≠ expected_crc)
    (columnError ("column footer checksum mismatch: " ++ path))
  return (footer_bytes, slice data HEADER_SIZE footer_offset)

/-- The error of a payload of another size than the footer says. -/
def sizeError (path : String) : Raised := columnError ("column payload size mismatch: " ++ path)

def codecError (codec : String) : Raised :=
  .caracal { code := "CDB-7002", message := "unknown column codec: " ++ codec }

/-! ## Python -/

/-- `ColumnSegmentFooter.from_json(value)` -/
def fromJson (footer : Value) : Except Raised Footer := do
  let c := lib.conversions
  let codec := c.toStr (← Onto.entry "codec" footer)
  refuse (codec ∉ CODECS) (codecError codec)
  let format_version ← c.toInt (← Onto.entry "format_version" footer)
  let row_count ← c.toInt (← Onto.entry "row_count" footer)
  let batch_count ← c.toInt (← Onto.entry "batch_count" footer)
  let schema := c.toStr (← Onto.entry "schema" footer)
  let uncompressed_size ← c.toInt (← Onto.entry "uncompressed_size" footer)
  let payload_size ← c.toInt (← Onto.entry "payload_size" footer)
  return { format_version, codec, row_count, batch_count, schema, uncompressed_size, payload_size }

/-- `_read_segment(path)` of a file with the given bytes. -/
def readSegment (path : String) (data : ByteString) : Except Raised (Footer × ByteString) := do
  let (footer_bytes, payload) ← frame path data
  let footer ← fromJson lib (← lib.loads footer_bytes)
  refuse (payload.length ≠ footer.payload_size) (sizeError path)
  return (footer, payload)

/-- What a codec makes of bytes; `none` leaves them. -/
def coded {Answer : Type} (codec : String) (bytes : ByteString) (plain : ByteString → Answer)
    (library : String → ByteString → Answer) : Answer :=
  if codec = "none" then plain bytes else library codec bytes

/-- `_decompress(payload, codec)` of a codec that the footer may name. -/
def pythonDecompress (payload : ByteString) (codec : String) : Except Raised ByteString :=
  coded codec payload .ok lib.decompress

/-- `ColumnReader(path)` and its `record_batches()` -/
def columnReader (path : String) (data : ByteString) : Except Raised (Footer × List Batch) := do
  let (footer, payload) ← readSegment lib path data
  let stream_bytes ← pythonDecompress lib payload footer.codec
  let (_, batches) ← lib.decode stream_bytes
  return (footer, batches)

/-- `writer.append(batch)`, from the batches before. -/
def append [DecidableEq Schema] (batches : List Batch) (batch : Batch) :
    Except Raised (List Batch) := do
  match batches with
  | [] => return [batch]
  | first :: _ =>
      refuse (lib.schemaOf batch ≠ lib.schemaOf first) (columnError "record batch schema mismatch")
      return batches ++ [batch]

/-- `writer.close()`: the footer and the bytes of the file. -/
def close (batches : List Batch) (codec : String) : Except Raised (Footer × ByteString) :=
  match batches with
  | [] => .error (columnError "cannot write an empty column segment")
  | first :: _ => do
      let ipc_payload := lib.encode (lib.schemaOf first) batches
      let payload := coded codec ipc_payload id lib.pythonCompress
      let footer : Footer :=
        { format_version := 1
          codec
          row_count := (batches.map lib.num_rows).sum
          batch_count := batches.length
          schema := lib.pythonText (lib.schemaOf first)
          uncompressed_size := ipc_payload.length
          payload_size := payload.length }
      refuse (256 ^ 8 ≤ HEADER_SIZE + payload.length) .structError
      return (footer, fileOf payload (lib.pythonDumps footer))

/-- `write_column_segment(path, batches, codec=codec)` with a codec of the three. -/
def writeColumnSegment [DecidableEq Schema] (batches : List Batch) (codec : String) :
    Except Raised (Footer × ByteString) := do
  close lib (← batches.foldlM (append lib) []) codec

/-! ## Rust -/

def rustError (code message : String) : Raised := .caracal { code, message }

/-- A library's error as an error of the engine. -/
def wrap {Answer : Type} (code : String) : Except Raised Answer → Except Raised Answer
  | .ok answer => .ok answer
  | .error raised => .error (rustError code (lib.describe raised))

/-- The numbers of a type, below its limit. -/
def strictInt (limit : Int) : Value → Option Int
  | .int number => if 0 ≤ number ∧ number < limit then some number else none
  | _ => none

def strictStr : Value → Option String
  | .str text => some text
  | _ => none

def U32_LIMIT : Int := 4294967296
def U64_LIMIT : Int := 18446744073709551616

/-- A footer from its seven values. -/
def strictFields (format_version codec row_count batch_count schema uncompressed_size
    payload_size : Value) : Option Footer := do
  return { format_version := ← strictInt U32_LIMIT format_version
           codec := ← strictStr codec
           row_count := ← strictInt U64_LIMIT row_count
           batch_count := ← strictInt U64_LIMIT batch_count
           schema := ← strictStr schema
           uncompressed_size := ← strictInt U64_LIMIT uncompressed_size
           payload_size := ← strictInt U64_LIMIT payload_size }

/-- The footer that the JSON library derives: from an object by names, from an array by places. -/
def strictFooter : Value → Option Footer
  | .dict entries => do
      strictFields (← Onto.lookup "format_version" entries) (← Onto.lookup "codec" entries)
        (← Onto.lookup "row_count" entries) (← Onto.lookup "batch_count" entries)
        (← Onto.lookup "schema" entries) (← Onto.lookup "uncompressed_size" entries)
        (← Onto.lookup "payload_size" entries)
  | .list [format_version, codec, row_count, batch_count, schema, uncompressed_size, payload_size] =>
      strictFields format_version codec row_count batch_count schema uncompressed_size payload_size
  | _ => none

/-- `serde_json::from_slice(footer_bytes)` -/
def footerFromSlice (footer_bytes : ByteString) : Except Raised Footer := do
  let footer ← wrap lib "CDB-9000" (lib.loads footer_bytes)
  match strictFooter footer with
  | some strict => return strict
  | none => throw (rustError "CDB-9000" (lib.refusal footer))

/-- `validate_codec(codec)` -/
def validateCodec (codec : String) : Except Raised Unit := refuse (codec ∉ CODECS) (codecError codec)

/-- `ColumnSegmentInfo` -/
structure SegmentInfo where
  footer : Footer
  payload_offset : Nat
  payload_size : Nat
  footer_offset : Nat

/-- `read_column_segment_parts(path)` of a file with the given bytes. -/
def readParts (path : String) (data : ByteString) : Except Raised (SegmentInfo × ByteString) := do
  let (footer_bytes, payload) ← frame path data
  let footer ← footerFromSlice lib footer_bytes
  refuse (payload.length ≠ footer.payload_size) (sizeError path)
  validateCodec footer.codec
  return ({ footer
            payload_offset := HEADER_SIZE
            payload_size := payload.length
            footer_offset := HEADER_SIZE + payload.length }, payload)

/-- `decompress_payload(payload, codec)` of a codec that the footer may name. -/
def rustDecompress (payload : ByteString) (codec : String) : Except Raised ByteString :=
  coded codec payload .ok fun codec payload => wrap lib "CDB-7001" (lib.decompress codec payload)

/-- `ColumnSegmentDecoded`, with the rows and columns of every batch. -/
structure Decoded where
  info : SegmentInfo
  field_names : List String
  batches : List (Nat × Nat)

/-- What is kept of a batch: its numbers of rows and of columns. -/
def batchInfo (batch : Batch) : Nat × Nat :=
  (lib.num_rows batch, (lib.field_names (lib.schemaOf batch)).length)

/-- `decode_column_segment(path)` -/
def decodeColumnSegment (path : String) (data : ByteString) : Except Raised Decoded := do
  let (info, payload) ← readParts lib path data
  let stream ← rustDecompress lib payload info.footer.codec
  let (schema, decoded) ← wrap lib "CDB-7001" (lib.decode stream)
  let batches := decoded.map (batchInfo lib)
  let rows := (batches.map Prod.fst).sum
  refuse ((rows : Int) ≠ info.footer.row_count) (columnError ("column row count mismatch: footer=" ++
    toString info.footer.row_count ++ ", decoded=" ++ toString rows))
  refuse ((batches.length : Int) ≠ info.footer.batch_count) (columnError
    ("column batch count mismatch: footer=" ++ toString info.footer.batch_count ++ ", decoded=" ++
      toString batches.length))
  return { info
           field_names := lib.field_names schema
           batches }

/-- `write_column_segment_ipc_stream(path, ipc_stream, codec)`: the file and what is read of it. -/
def writeIpcStream (path : String) (ipc_stream : ByteString) (codec : String) :
    Except Raised (SegmentInfo × ByteString) := do
  validateCodec codec
  let (schema, batches) ← wrap lib "CDB-7001" (lib.decode ipc_stream)
  refuse (batches = []) (columnError "cannot write an empty column segment")
  let payload := coded codec ipc_stream id lib.rustCompress
  let footer : Footer :=
    { format_version := 1
      codec
      row_count := (batches.map lib.num_rows).sum
      batch_count := batches.length
      schema := lib.rustText schema
      uncompressed_size := ipc_stream.length
      payload_size := payload.length }
  let file := fileOf payload (lib.rustDumps footer)
  return ((← readParts lib path file).1, file)

end CaracalDB.Column
