import CaracalDB.WalRun

/-!
# Reopening a log after a torn tail

A crash leaves a prefix of the last segment file. The scan recovers every record
that is still complete, but the reopened log continues that file right behind
the torn bytes, where the scan never arrives in step again. The exact condition
under which nothing goes wrong is a condition on the cut alone.

The abstract layout says which records stand in which file; the run of appends
refines it, so the condition speaks about records and sizes only.
-/

namespace CaracalDB.Log

open Bytes Crc32

/-- The records of the segments already left, and of the one being filled. -/
structure Layout where
  left : List (List WalRecord)
  last : List WalRecord

/-- A record goes into the last segment unless it would exceed the roll size. -/
def Layout.place (roll_size : Nat) (layout : Layout) (record : WalRecord) : Layout :=
  if (segmentBytes layout.last).length + record.bytes.length > roll_size then
    { left := layout.left ++ [layout.last], last := [record] }
  else { layout with last := layout.last ++ [record] }

/-- Where a log that starts empty puts its records. -/
def layout (roll_size : Nat) (records : List WalRecord) : Layout :=
  records.foldl (Layout.place roll_size) { left := [], last := [] }

def Layout.records (layout : Layout) : List WalRecord := layout.left.flatten ++ layout.last

/-- The segment files of a layout, numbered from one. -/
def Layout.files (layout : Layout) : List SegmentFile :=
  (layout.left ++ [layout.last]).mapIdx fun position records =>
    { index := position + 1, data := segmentBytes records }

/-- A crash keeps a given number of bytes of the last segment file. -/
def crash (kept : Nat) (directory : Directory) : Directory :=
  { directory with
    segments := directory.segments.dropLast ++
      (directory.segments.getLast?.map fun tail =>
        { tail with data := tail.data.take kept }).toList }

/-- The records of a segment that are complete within a number of bytes. -/
def survivors : Nat → List WalRecord → List WalRecord
  | _, [] => []
  | room, record :: rest =>
      if record.bytes.length ≤ room then record :: survivors (room - record.bytes.length) rest
      else []

/-- Cutting encodings leaves the survivors and, unless the cut lies between two
records, torn bytes of the next one. -/
theorem take_encodings (kept : Nat) (records : List WalRecord)
    (fits : ∀ record ∈ records, record.Fits) (within : kept ≤ (encodings records).length) :
    ∃ torn, (encodings records).take kept = encodings (survivors kept records) ++ torn ∧
      (torn = [] ∨ Torn torn) := by
  induction records generalizing kept with
  | nil => exact ⟨[], by simp [survivors], Or.inl rfl⟩
  | cons record rest inductionHypothesis =>
    by_cases complete : record.bytes.length ≤ kept
    · have restWithin : kept - record.bytes.length ≤ (encodings rest).length := by
        rw [encodings_cons, List.length_append] at within
        omega
      obtain ⟨torn, cut, kind⟩ := inductionHypothesis (kept - record.bytes.length)
        (fun later member => fits later (List.mem_cons_of_mem _ member)) restWithin
      refine ⟨torn, ?_, kind⟩
      rw [encodings_cons, List.take_append, List.take_of_length_le complete, cut]
      simp only [survivors, complete, ↓reduceIte, encodings_cons, List.append_assoc]
    · have short : kept ≤ record.bytes.length := by omega
      refine ⟨record.bytes.take kept, ?_, Or.inr ⟨record, fits record List.mem_cons_self,
        record.bytes.drop kept, ?_, List.take_append_drop ..⟩⟩
      · rw [encodings_cons, List.take_append_of_le_length short]
        simp only [survivors, complete, ↓reduceIte, encodings_nil, List.nil_append]
      · intro nothing
        exact complete (List.drop_eq_nil_iff.mp nothing)

/-- A directory and a handle that write to the last file of a layout. A fresh
handle on an empty directory does so too: it is about to create the first file. -/
structure Holds (path : String) (roll_size : Nat) (directory : Directory) (wal : Wal)
    (layout : Layout) : Prop where
  current : currentSegment directory wal =
    (⟨path, layout.files⟩, ⟨layout.left.length + 1, (segmentBytes layout.last).length⟩)
  roll : wal.roll_size = roll_size

/-- The files in front of the last one. -/
def Layout.closedFiles (layout : Layout) : List SegmentFile :=
  layout.left.mapIdx fun position records =>
    { index := position + 1, data := segmentBytes records }

theorem Layout.files_concat (layout : Layout) : layout.files =
    layout.closedFiles ++ [⟨layout.left.length + 1, segmentBytes layout.last⟩] := by
  simp [Layout.files, Layout.closedFiles, List.mapIdx_append]

/-- Closing the last file and starting another. -/
theorem Layout.files_next (layout : Layout) (records : List WalRecord) :
    ({ left := layout.left ++ [layout.last], last := records } : Layout).files =
      layout.files ++ [⟨layout.left.length + 1 + 1, segmentBytes records⟩] := by
  rw [Layout.files_concat]
  simp [Layout.closedFiles, Layout.files]

/-- The files of a layout with fewer than a million of them are visited in order,
whatever the last one holds. -/
theorem Layout.tail_ordered (layout : Layout) (path : String) (data : List UInt8)
    (few : layout.left.length + 1 < 1000000) :
    (⟨path, layout.closedFiles ++ [⟨layout.left.length + 1, data⟩]⟩ : Directory).Ordered := by
  have closed (file : SegmentFile) (member : file ∈ layout.closedFiles) :
      file.index < layout.left.length + 1 := by
    obtain ⟨position, bound, rfl⟩ := List.mem_iff_getElem.mp member
    rw [Layout.closedFiles, List.length_mapIdx] at bound
    simpa [Layout.closedFiles] using bound
  constructor
  · rw [List.pairwise_append]
    refine ⟨?_, List.pairwise_singleton .., ?_⟩
    · rw [List.pairwise_iff_getElem]
      intro left right leftBound rightBound below
      simpa [Layout.closedFiles] using below
    · intro file member tail isTail
      rw [List.mem_singleton.mp isTail]
      exact closed file member
  · intro file member
    rcases List.mem_append.mp member with inFront | isTail
    · exact Nat.lt_trans (closed file inFront) few
    · rw [List.mem_singleton.mp isTail]
      exact few

theorem Layout.files_ordered (layout : Layout) (path : String)
    (few : layout.left.length + 1 < 1000000) : (⟨path, layout.files⟩ : Directory).Ordered := by
  rw [layout.files_concat]
  exact layout.tail_ordered path _ few

/-- An append writes the files of the layout that places the record. -/
theorem Holds.write {path : String} {roll_size : Nat} {directory : Directory} {wal : Wal}
    {layout : Layout} (holds : Holds path roll_size directory wal layout) (record : WalRecord)
    (few : (layout.place roll_size record).left.length + 1 < 1000000) :
    (writeRecord directory wal record.bytes).1 = ⟨path, (layout.place roll_size record).files⟩ ∧
      Holds path roll_size (writeRecord directory wal record.bytes).1
        (writeRecord directory wal record.bytes).2 (layout.place roll_size record) := by
  have opened (final : Directory) (written : Wal) (reached : Layout)
      (files : final = ⟨path, reached.files⟩) (roll : written.roll_size = roll_size)
      (segment : written.segment =
        some ⟨reached.left.length + 1, (segmentBytes reached.last).length⟩) :
      final = ⟨path, reached.files⟩ ∧ Holds path roll_size final written reached := by
    refine ⟨files, ?_, roll⟩
    rw [currentSegment, segment, files]
  have place := holds.current
  by_cases full : (segmentBytes layout.last).length + record.bytes.length > roll_size
  · have placed : layout.place roll_size record =
        { left := layout.left ++ [layout.last], last := [record] } := by
      simp only [Layout.place, full, ↓reduceIte]
    rw [placed] at few ⊢
    have leftFew : layout.left.length + 1 < 1000000 := by
      rw [List.length_append] at few
      exact Nat.lt_of_succ_lt few
    have created := create_ordered ⟨path, layout.files⟩ layout.closedFiles
      ⟨layout.left.length + 1, segmentBytes layout.last⟩ (layout.files_ordered path leftFew)
      layout.files_concat
    have begun : ({ left := layout.left ++ [layout.last], last := [] } : Layout).files =
        layout.files ++ [⟨layout.left.length + 1 + 1, packHeader⟩] := by
      rw [Layout.files_next]
      simp [segmentBytes]
    have target : ensureSegment directory wal record.bytes.length =
        (⟨path, layout.files ++ [⟨layout.left.length + 1 + 1, packHeader⟩]⟩,
          ⟨layout.left.length + 1 + 1, packHeader.length⟩) := by
      simp only [ensureSegment, place, holds.roll, full, ↓reduceIte, created, pack_header_length]
    have ordered := Layout.files_ordered { left := layout.left ++ [layout.last], last := [] } path few
    rw [begun] at ordered
    rw [write_tail _ _ wal _ layout.files _ target ordered rfl]
    apply opened
    · rw [Layout.files_next]
      simp [segmentBytes]
    · exact holds.roll
    · simp [segmentBytes]
  · have placed : layout.place roll_size record =
        { layout with last := layout.last ++ [record] } := by
      simp only [Layout.place, full, ↓reduceIte]
    rw [placed] at few ⊢
    have target : ensureSegment directory wal record.bytes.length =
        (⟨path, layout.files⟩, ⟨layout.left.length + 1, (segmentBytes layout.last).length⟩) := by
      simp only [ensureSegment, place, holds.roll, full, ↓reduceIte]
    rw [write_tail _ _ wal _ layout.closedFiles _ target (layout.files_ordered path few)
      layout.files_concat]
    apply opened
    · simp [Layout.files_concat, Layout.closedFiles, segmentBytes]
    · exact holds.roll
    · simp [segmentBytes, Nat.add_assoc]

/-- Placing records never takes a file back. -/
theorem place_left_length (roll_size : Nat) (records : List WalRecord) (start : Layout) :
    start.left.length ≤ (records.foldl (Layout.place roll_size) start).left.length := by
  induction records generalizing start with
  | nil => exact Nat.le_refl _
  | cons record rest inductionHypothesis =>
    have step : start.left.length ≤ (start.place roll_size record).left.length := by
      unfold Layout.place
      split <;> simp
    exact Nat.le_trans step (inductionHypothesis (start.place roll_size record))

/-- Placing keeps every record, in order. -/
theorem place_records (roll_size : Nat) (records : List WalRecord) (start : Layout) :
    (records.foldl (Layout.place roll_size) start).records = start.records ++ records := by
  induction records generalizing start with
  | nil => simp
  | cons record rest inductionHypothesis =>
    have step : (start.place roll_size record).records = start.records ++ [record] := by
      unfold Layout.place Layout.records
      split <;> simp
    rw [List.foldl_cons, inductionHypothesis, step, List.append_assoc, List.singleton_append]

/-- A run of appends writes the files of the layout of its records. -/
theorem Holds.append_all {path : String} {roll_size : Nat} {directory : Directory} {wal : Wal}
    {start : Layout} (holds : Holds path roll_size directory wal start)
    (unwritten : directory = ⟨path, start.files⟩) (entries : List Entry)
    (bounded : wal.last_lsn + entries.length < 256 ^ 8)
    (few : ((numbered wal.last_lsn entries).foldl (Layout.place roll_size) start).left.length + 1 <
      1000000) :
    ∃ final, appendAll directory wal entries = .ok
      (⟨path, ((numbered wal.last_lsn entries).foldl (Layout.place roll_size) start).files⟩,
        final) := by
  induction entries generalizing directory wal start with
  | nil => exact ⟨wal, by rw [unwritten]; rfl⟩
  | cons entry rest inductionHypothesis =>
    rw [List.length_cons] at bounded
    rw [append_all_step directory wal entry rest (by omega)]
    simp only [numbered, List.foldl_cons] at few ⊢
    have placed := place_left_length roll_size (numbered (wal.last_lsn + 1) rest)
      (start.place roll_size (entry.record wal.last_lsn))
    obtain ⟨files, later⟩ := holds.write (entry.record wal.last_lsn) (by omega)
    apply inductionHypothesis later files
    · rw [write_record_last]
      omega
    · rw [write_record_last]
      exact few

/-- The records that are complete when so many bytes of the last file are left. -/
def Layout.complete (layout : Layout) (kept : Nat) : List WalRecord :=
  layout.left.flatten ++ survivors (kept - HEADER_SIZE) layout.last

/-- The bytes left behind the last complete record. -/
def Layout.leftover (layout : Layout) (kept : Nat) : List UInt8 :=
  ((segmentBytes layout.last).take kept).drop
    (segmentBytes (survivors (kept - HEADER_SIZE) layout.last)).length

theorem survivors_initial (room : Nat) (records : List WalRecord) :
    survivors room records <+: records := by
  induction records generalizing room with
  | nil => exact List.prefix_rfl
  | cons record rest inductionHypothesis =>
    rw [survivors]
    split
    · exact (List.prefix_cons_inj record).mpr (inductionHypothesis _)
    · exact List.nil_prefix

/-- A cut behind the header leaves the survivors and the leftover. -/
theorem Layout.cut_contents (layout : Layout) (kept : Nat)
    (fits : ∀ record ∈ layout.last, record.Fits) (header : HEADER_SIZE ≤ kept)
    (within : kept ≤ (segmentBytes layout.last).length) :
    (segmentBytes layout.last).take kept =
        segmentBytes (survivors (kept - HEADER_SIZE) layout.last) ++ layout.leftover kept ∧
      (layout.leftover kept = [] ∨ Torn (layout.leftover kept)) := by
  rw [segment_bytes_length] at within
  obtain ⟨torn, cut, kind⟩ := take_encodings (kept - HEADER_SIZE) layout.last fits (by omega)
  have contents : (segmentBytes layout.last).take kept =
      segmentBytes (survivors (kept - HEADER_SIZE) layout.last) ++ torn := by
    rw [segmentBytes, List.take_append, pack_header_length, cut,
      List.take_of_length_le (by rw [pack_header_length]; exact header), segmentBytes,
      List.append_assoc]
  have same : layout.leftover kept = torn := by
    rw [Layout.leftover, contents, List.drop_left]
  rw [same]
  exact ⟨contents, kind⟩

/-- What a crash leaves of a layout's directory. -/
theorem crash_files (path : String) (layout : Layout) (kept : Nat) :
    crash kept ⟨path, layout.files⟩ = ⟨path, layout.closedFiles ++
      [⟨layout.left.length + 1, (segmentBytes layout.last).take kept⟩]⟩ := by
  simp [crash, Layout.files_concat]

/-- The log of a run of appends that starts in an empty directory. -/
def written (path : String) (roll_size : Nat) (entries : List Entry) : Except Raised Directory := do
  let directory : Directory := { path, segments := [] }
  let wal ← openWal directory roll_size
  let (directory, _) ← appendAll directory wal entries
  return directory

/-- Opening an empty directory. -/
theorem open_empty (path : String) (roll_size : Nat) (accepted : HEADER_SIZE + 64 < roll_size) :
    openWal ⟨path, []⟩ roll_size = .ok { roll_size, segment := none, last_lsn := 0 } := by
  have refused : ¬ roll_size ≤ HEADER_SIZE + 64 := by omega
  simp [openWal, refused, iterAllRecords, walSegments, iterSegments, bind, Except.bind, pure,
    Except.pure]

/-- A run of appends leaves the files of its layout. -/
theorem written_files (path : String) (roll_size : Nat) (entries : List Entry)
    (accepted : HEADER_SIZE + 64 < roll_size) (some : entries ≠ [])
    (bounded : entries.length < 256 ^ 8)
    (few : (layout roll_size (numbered 0 entries)).left.length + 1 < 1000000) :
    written path roll_size entries =
      .ok ⟨path, (layout roll_size (numbered 0 entries)).files⟩ := by
  cases entries with
  | nil => exact absurd rfl some
  | cons entry rest =>
    rw [List.length_cons] at bounded
    have fresh : Holds path roll_size ⟨path, []⟩ { roll_size, segment := none, last_lsn := 0 }
        { left := [], last := [] } := by
      constructor
      · simp [currentSegment, resumeOrCreate, walSegments, create_first, Layout.files, segmentBytes]
      · rfl
    simp only [layout, numbered, List.foldl_cons] at few ⊢
    have placed := place_left_length roll_size (numbered (0 + 1) rest)
      (Layout.place roll_size { left := [], last := [] } (entry.record 0))
    obtain ⟨files, first⟩ := fresh.write (entry.record 0) (by omega)
    obtain ⟨final, run⟩ := first.append_all files rest
      (by rw [write_record_last]; dsimp only; omega) few
    have step := append_all_step ⟨path, []⟩ { roll_size, segment := none, last_lsn := 0 } entry rest
      (by dsimp only; omega)
    simp only [written, open_empty path roll_size accepted, bind, Except.bind, step, run, pure,
      Except.pure, write_record_last]

/-- A log and its reader after a crash: a fresh handle opens, takes any further
entries, and the reader finds the complete records followed by the new ones,
chained throughout, as long as six digits number the files. -/
def SurvivesCrash (directory : Directory) (roll_size : Nat) (complete : List WalRecord)
    (more : List Entry) : Prop :=
  ∃ wal after final, openWal directory roll_size = .ok wal ∧
    appendAll directory wal more = .ok (after, final) ∧
    (after.SixDigits →
      iterAllRecords after = .ok (complete ++ numbered complete.length more) ∧
      Chained 0 (complete ++ numbered complete.length more))

/-- A cut after which the log stays readable: the header is left, and either
nothing is left behind the last complete record, or the file is too long to take
another record, or it can take only an empty one, whose encoding the leftover
bytes happen to continue. -/
def Layout.CleanCut (roll_size : Nat) (layout : Layout) (kept : Nat) : Prop :=
  HEADER_SIZE ≤ kept ∧ (layout.leftover kept = [] ∨ roll_size < kept + 28 ∨
    (kept + 28 = roll_size ∧ (emptyRecord (layout.complete kept).length).bytes <+:
      layout.leftover kept ++ (emptyRecord (layout.complete kept).length).bytes))

/-- Nothing but records in the files of a written log, numbered from one. -/
theorem layout_records (roll_size : Nat) (entries : List Entry) :
    (layout roll_size (numbered 0 entries)).records = numbered 0 entries := by
  rw [layout, place_records]
  rfl

/-- The complete records are the first ones that were appended. -/
theorem complete_numbered (roll_size : Nat) (entries : List Entry) (kept : Nat) :
    (layout roll_size (numbered 0 entries)).complete kept =
      numbered 0 (entries.take ((layout roll_size (numbered 0 entries)).complete kept).length) := by
  have leading : (layout roll_size (numbered 0 entries)).complete kept <+: numbered 0 entries := by
    have whole := layout_records roll_size entries
    generalize layout roll_size (numbered 0 entries) = reached at whole ⊢
    rw [← whole, Layout.records, Layout.complete]
    exact (List.prefix_append_right_inj _).mpr (survivors_initial _ _)
  rw [← numbered_take]
  exact List.prefix_iff_eq_take.mp leading

/-- Bytes that an empty record follows and precedes are shorter than it, where
no record stands in them. -/
theorem short_of_again (last : Nat) (torn : List UInt8) (fits : last + 1 < 256 ^ 8)
    (tail : readRecord torn 0 = .ok none)
    (again : (emptyRecord last).bytes <+: torn ++ (emptyRecord last).bytes) : torn.length < 28 := by
  have size : (emptyRecord last).bytes.length = 28 := by
    rw [bytes_length]
    rfl
  have recordFits : (emptyRecord last).Fits :=
    ⟨fits, Nat.lt_of_succ_lt fits, (by decide : (utf8 "").length < 256 ^ 4),
      (by decide : 0 < 256 ^ 4)⟩
  by_contra long
  have inside : (emptyRecord last).bytes <+: torn :=
    List.prefix_of_prefix_length_le again (List.prefix_append _ _) (by omega)
  obtain ⟨rest, whole⟩ := inside
  have found : readRecord torn 0 = .ok (some (emptyRecord last, 28)) := by
    rw [read_record_iff]
    refine ⟨recordFits, by omega, by omega, ?_⟩
    rw [slice_zero, ← size, ← whole, List.take_left]
  rw [found] at tail
  cases tail

section AfterCrash

variable (path : String) (layout : Layout) (kept : Nat)

/-- The directory a crash leaves. -/
def Layout.cutDirectory : Directory :=
  ⟨path, layout.closedFiles ++ [⟨layout.left.length + 1, (segmentBytes layout.last).take kept⟩]⟩

variable (fits : ∀ record ∈ layout.records, record.Fits)
variable (few : layout.left.length + 1 < 1000000)
variable (within : kept ≤ (segmentBytes layout.last).length)

include fits in
theorem last_fits : ∀ record ∈ layout.last, record.Fits := by
  intro record member
  exact fits record (List.mem_append.mpr (Or.inr member))

include fits in
/-- The closed files read as the records of the closed groups. -/
theorem closed_read (directory : Directory) :
    iterSegments directory layout.closedFiles = .ok layout.left.flatten := by
  apply iter_segments_clean
  intro group member record present
  exact fits record
    (List.mem_append.mpr (Or.inl (List.mem_flatten.mpr ⟨group, member, present⟩)))

include few in
theorem cut_ordered : (layout.cutDirectory path kept).Ordered :=
  layout.tail_ordered path _ few

include few in
/-- A cut inside the header makes the log unreadable. -/
theorem short_cut_refused (short : kept < HEADER_SIZE)
    (fits : ∀ record ∈ layout.records, record.Fits) :
    ∃ raised, iterAllRecords (layout.cutDirectory path kept) = .error raised := by
  have header : ((segmentBytes layout.last).take kept).length < HEADER_SIZE := by
    rw [List.length_take]
    omega
  rw [iterAllRecords, wal_segments_ordered _ (cut_ordered path layout kept few), Layout.cutDirectory, iter_segments_append,
    closed_read layout fits]
  simp only [iterSegments, iter_segment_short _ _ header, bind, Except.bind, raiseCaracal]
  exact ⟨_, rfl⟩

include fits few within in
/-- A cut behind the header leaves the complete records. -/
theorem cut_read (header : HEADER_SIZE ≤ kept) :
    iterAllRecords (layout.cutDirectory path kept) = .ok (layout.complete kept) := by
  obtain ⟨contents, kind⟩ := layout.cut_contents kept (last_fits layout fits) header within
  have tail : readRecord (layout.leftover kept) 0 = .ok none := by
    rcases kind with nothing | torn
    · rw [nothing]
      exact read_record_nil
    · exact torn.read
  have survived : ∀ record ∈ survivors (kept - HEADER_SIZE) layout.last, record.Fits := by
    intro record member
    exact last_fits layout fits record ((survivors_initial _ _).subset member)
  rw [iterAllRecords, wal_segments_ordered _ (cut_ordered path layout kept few), Layout.cutDirectory, iter_segments_append,
    closed_read layout fits]
  simp only [iterSegments, contents, iter_segment_bytes _ _ survived _ tail, bind, Except.bind,
    pure, Except.pure, List.append_nil, Layout.complete]

include fits few within in
/-- After a clean cut the directory tracks the complete records. -/
theorem clean_cut_tracks (roll_size : Nat) (bounded : (layout.complete kept).length + 1 < 256 ^ 8)
    (clean : layout.CleanCut roll_size kept) :
    Tracks (layout.cutDirectory path kept)
      { roll_size, segment := none, last_lsn := (layout.complete kept).length }
      (layout.complete kept) := by
  obtain ⟨header, cut⟩ := clean
  obtain ⟨contents, kind⟩ := layout.cut_contents kept (last_fits layout fits) header within
  have tail : readRecord (layout.leftover kept) 0 = .ok none := by
    rcases kind with nothing | torn
    · rw [nothing]
      exact read_record_nil
    · exact torn.read
  have size : ((segmentBytes layout.last).take kept).length = kept := by
    rw [List.length_take, Nat.min_eq_left within]
  refine ⟨cut_ordered path layout kept few, Or.inr ⟨layout.closedFiles, _, layout.left.flatten,
    survivors (kept - HEADER_SIZE) layout.last, rfl, closed_read layout fits _, ?_, ?_, rfl,
    Or.inl rfl⟩⟩
  · rcases cut with nothing | noRoom | ⟨exactly, again⟩
    · apply Extendable.clean
      rw [contents, nothing, List.append_nil]
    · apply Extendable.full _ contents tail
      rw [size]
      exact noRoom
    · apply Extendable.coincidence _ contents tail
      · exact short_of_again _ _ bounded tail again
      · rw [size]
        exact exactly
      · exact again
  · intro record member
    exact last_fits layout fits record ((survivors_initial _ _).subset member)

/-- A record that still has room is written behind the cut. -/
theorem write_behind_cut (roll_size last : Nat) (encoded : List UInt8) (some : encoded ≠ [])
    (few : layout.left.length + 1 < 1000000)
    (within : kept ≤ (segmentBytes layout.last).length)
    (room : kept + encoded.length ≤ roll_size) :
    (writeRecord (layout.cutDirectory path kept) { roll_size, segment := none, last_lsn := last }
      encoded).1 = ⟨path, layout.closedFiles ++
        [⟨layout.left.length + 1, (segmentBytes layout.last).take kept ++ encoded⟩]⟩ := by
  have size : ((segmentBytes layout.last).take kept).length = kept := by
    rw [List.length_take, Nat.min_eq_left within]
  have ordered := cut_ordered path layout kept few
  have longer := List.length_pos_of_ne_nil some
  have lastFile : (walSegments (layout.cutDirectory path kept)).getLast? =
      Option.some ⟨layout.left.length + 1, (segmentBytes layout.last).take kept⟩ := by
    rw [wal_segments_ordered _ ordered, Layout.cutDirectory, List.getLast?_concat]
  have small : kept < roll_size := by omega
  have fitting : ¬ kept + encoded.length > roll_size := by omega
  have target : ensureSegment (layout.cutDirectory path kept)
      { roll_size, segment := none, last_lsn := last } encoded.length =
        (layout.cutDirectory path kept,
          ⟨layout.left.length + 1, ((segmentBytes layout.last).take kept).length⟩) := by
    simp only [ensureSegment, currentSegment, resumeOrCreate, lastFile, size, small, ↓reduceIte,
      fitting]
  rw [write_tail _ _ _ _ layout.closedFiles
    ⟨layout.left.length + 1, (segmentBytes layout.last).take kept⟩ target ordered rfl]
  rfl

include fits few within in
/-- A record that is found behind leftover bytes continues them with itself. -/
theorem found_behind_cut (header : HEADER_SIZE ≤ kept) (record : WalRecord)
    (read : iterAllRecords ⟨path, layout.closedFiles ++ [⟨layout.left.length + 1,
      (segmentBytes layout.last).take kept ++ record.bytes⟩]⟩ =
        .ok (layout.complete kept ++ [record])) :
    record.bytes <+: layout.leftover kept ++ record.bytes := by
  obtain ⟨contents, _⟩ := layout.cut_contents kept (last_fits layout fits) header within
  have survived : ∀ member ∈ survivors (kept - HEADER_SIZE) layout.last, member.Fits := by
    intro member present
    exact last_fits layout fits member ((survivors_initial _ _).subset present)
  have whole : (segmentBytes layout.last).take kept ++ record.bytes = packHeader ++
      (encodings (survivors (kept - HEADER_SIZE) layout.last) ++
        (layout.leftover kept ++ record.bytes)) := by
    rw [contents, segmentBytes, List.append_assoc, List.append_assoc]
  rw [iterAllRecords, wal_segments_ordered _ (layout.tail_ordered path _ few),
    iter_segments_append, closed_read layout fits] at read
  simp only [iterSegments, whole, iter_segment_header, parse_encodings _ survived, bind,
    Except.bind] at read
  cases behind : parse (layout.leftover kept ++ record.bytes) with
  | error raised =>
    rw [behind] at read
    cases read
  | ok found =>
    rw [behind] at read
    have only : found = [record] := by
      simpa [Except.map, pure, Except.pure, Layout.complete] using read
    rw [only] at behind
    obtain ⟨rest, split, _⟩ := parse_inversion _ record [] behind
    exact ⟨rest, split.symm⟩

end AfterCrash

theorem Directory.Ordered.six_digits {directory : Directory} (ordered : directory.Ordered) :
    directory.SixDigits := by
  intro index member
  obtain ⟨file, present, rfl⟩ := List.mem_map.mp member
  exact ordered.sixDigits file present

section WrittenLog

variable (path : String) (roll_size : Nat) (entries : List Entry) (kept : Nat)

/-- The handle a reopened log gets. -/
theorem open_after_cut (accepted : HEADER_SIZE + 64 < roll_size) (directory : Directory)
    (read : iterAllRecords directory =
      .ok ((layout roll_size (numbered 0 entries)).complete kept)) :
    openWal directory roll_size = .ok { roll_size, segment := none, last_lsn :=
      ((layout roll_size (numbered 0 entries)).complete kept).length } := by
  have refused : ¬ roll_size ≤ HEADER_SIZE + 64 := by omega
  have complete := complete_numbered roll_size entries kept
  generalize (layout roll_size (numbered 0 entries)).complete kept = recovered at read complete ⊢
  have largest : (recovered.map WalRecord.lsn).foldl max 0 = recovered.length := by
    have length := congrArg List.length complete
    rw [numbered_length] at length
    rw [complete, numbered_max, numbered_length, Nat.zero_add]
  simp [openWal, refused, read, largest, bind, Except.bind, pure, Except.pure]

/-- An unreadable directory cannot be opened. -/
theorem open_unreadable (roll_size : Nat) (directory : Directory) (raised : Raised)
    (refused : iterAllRecords directory = .error raised) (wal : Wal) :
    openWal directory roll_size ≠ .ok wal := by
  intro opened
  rw [openWal, refused] at opened
  split at opened <;> cases opened

/-- Complete records and numbered new ones form one chain. -/
theorem complete_chained (more : List Entry) :
    Chained 0 ((layout roll_size (numbered 0 entries)).complete kept ++
      numbered ((layout roll_size (numbered 0 entries)).complete kept).length more) := by
  have complete := complete_numbered roll_size entries kept
  generalize (layout roll_size (numbered 0 entries)).complete kept = recovered at complete ⊢
  have length := congrArg List.length complete
  rw [numbered_length] at length
  have joined := numbered_append 0 (entries.take recovered.length) more
  rw [← complete, ← length, Nat.zero_add] at joined
  rw [← joined]
  exact numbered_chained 0 _

/-- A reopened log that tracks the complete records survives every further run. -/
theorem tracked_survives (accepted : HEADER_SIZE + 64 < roll_size) (directory : Directory)
    (tracks : Tracks directory { roll_size, segment := none, last_lsn :=
        ((layout roll_size (numbered 0 entries)).complete kept).length }
      ((layout roll_size (numbered 0 entries)).complete kept))
    (more : List Entry)
    (bounded : ((layout roll_size (numbered 0 entries)).complete kept).length + more.length <
      256 ^ 8) :
    SurvivesCrash directory roll_size ((layout roll_size (numbered 0 entries)).complete kept)
      more := by
  obtain ⟨after, final, run, _⟩ := append_all_keeps_indices more directory
    { roll_size, segment := none, last_lsn :=
      ((layout roll_size (numbered 0 entries)).complete kept).length } bounded
  refine ⟨_, after, final, open_after_cut roll_size entries kept accepted directory tracks.read,
    run, ?_⟩
  intro sixDigits
  exact ⟨(tracks.append_all more bounded after final run sixDigits).read,
    complete_chained roll_size entries kept more⟩

/-- A log that survives one entry which still fits behind the cut finds it there. -/
theorem survived_continues (accepted : HEADER_SIZE + 64 < roll_size)
    (bounded : ((layout roll_size (numbered 0 entries)).complete kept).length + 1 < 256 ^ 8)
    (fits : ∀ record ∈ (layout roll_size (numbered 0 entries)).records, record.Fits)
    (few : (layout roll_size (numbered 0 entries)).left.length + 1 < 1000000)
    (within : kept ≤ (segmentBytes (layout roll_size (numbered 0 entries)).last).length)
    (header : HEADER_SIZE ≤ kept) (entry : Entry)
    (room : kept + (entry.record
      ((layout roll_size (numbered 0 entries)).complete kept).length).bytes.length ≤ roll_size)
    (survives : SurvivesCrash ((layout roll_size (numbered 0 entries)).cutDirectory path kept)
      roll_size ((layout roll_size (numbered 0 entries)).complete kept) [entry]) :
    (entry.record ((layout roll_size (numbered 0 entries)).complete kept).length).bytes <+:
      (layout roll_size (numbered 0 entries)).leftover kept ++
        (entry.record ((layout roll_size (numbered 0 entries)).complete kept).length).bytes := by
  have opened := open_after_cut roll_size entries kept accepted _
    (cut_read path (layout roll_size (numbered 0 entries)) kept fits few within header)
  generalize layout roll_size (numbered 0 entries) = reached at *
  obtain ⟨wal, after, final, isOpened, run, read⟩ := survives
  rw [opened] at isOpened
  cases isOpened
  rw [append_all_step _ _ entry [] bounded] at run
  have longer : (entry.record (reached.complete kept).length).bytes ≠ [] := by
    intro nothing
    have size := bytes_length (entry.record (reached.complete kept).length)
    rw [nothing, List.length_nil] at size
    omega
  have behind := write_behind_cut path reached kept roll_size (reached.complete kept).length _
    longer few within room
  simp only [appendAll, Except.ok.injEq, Prod.mk.injEq] at run
  rw [← run.1, behind] at read
  obtain ⟨found, _⟩ := read (reached.tail_ordered path _ few).six_digits
  exact found_behind_cut path reached kept fits few within header _ found

end WrittenLog

/-- An entry without kind whose payload is given. -/
def payloadEntry (payload : List UInt8) (fits : payload.length < 256 ^ 4) : Entry :=
  { kind := "", payload, kind_fits := by decide, payload_fits := fits }

/-- What stands in front of a one-byte payload: both LSNs, no kind, length one. -/
def oneByteHead (last : Nat) : List UInt8 :=
  word 8 (last + 1) ++ (word 8 last ++ [0, 0, 0, 0, 1, 0, 0, 0])

theorem one_byte_head_length (last : Nat) : (oneByteHead last).length = 24 := by
  simp [oneByteHead]

theorem one_byte_bytes (last : Nat) (byte : UInt8) :
    ((payloadEntry [byte] (by simp)).record last).bytes = oneByteHead last ++
      byte :: word 4 (crc32 ((payloadEntry [byte] (by simp)).record last).body) := by
  have noKind : utf8 "" = [] := by decide
  have none : word 4 0 = [0, 0, 0, 0] := by decide
  have one : word 4 1 = [1, 0, 0, 0] := by decide
  rw [WalRecord.bytes]
  nth_rewrite 1 [WalRecord.body]
  simp [Entry.record, payloadEntry, noKind, none, one, oneByteHead]

/-- Records of one-byte payloads differ in byte 24, so not all of them can follow
leftover bytes and continue them. -/
theorem one_byte_not_again (last : Nat) (leftover : List UInt8) (some : leftover ≠ []) :
    ¬ ∀ byte : UInt8, ((payloadEntry [byte] (by simp)).record last).bytes <+:
      leftover ++ ((payloadEntry [byte] (by simp)).record last).bytes := by
  intro again
  have positive := List.length_pos_of_ne_nil some
  have size := one_byte_head_length last
  have forced (byte : UInt8) : (leftover ++ oneByteHead last)[24]? = Option.some byte := by
    obtain ⟨rest, continued⟩ := again byte
    rw [one_byte_bytes, ← List.append_assoc leftover] at continued
    have position := congrArg (fun list : List UInt8 => list[24]?) continued
    have longer : 24 < (leftover ++ oneByteHead last).length := by
      rw [List.length_append, size]
      exact Nat.lt_add_of_pos_left positive
    rw [List.append_assoc, List.getElem?_append_right (Nat.le_of_eq size), size,
      List.getElem?_append_left longer] at position
    exact position.symm
  have contradiction := (forced 0).symm.trans (forced 1)
  exact absurd contradiction (by decide)

/-- Exactly the clean cuts are survived. A log that was never written has no file
to cut. -/
theorem torn_tail_iff (path : String) (roll_size : Nat) (entries : List Entry) (kept : Nat)
    (accepted : HEADER_SIZE + 64 < roll_size) (bounded : entries.length + 1 < 256 ^ 8)
    (few : (layout roll_size (numbered 0 entries)).left.length + 1 < 1000000)
    (within : kept ≤ (segmentBytes (layout roll_size (numbered 0 entries)).last).length) :
    ∃ directory, written path roll_size entries = .ok directory ∧
      ((∀ more : List Entry,
        ((layout roll_size (numbered 0 entries)).complete kept).length + more.length < 256 ^ 8 →
          SurvivesCrash (crash kept directory) roll_size
            ((layout roll_size (numbered 0 entries)).complete kept) more) ↔
        entries = [] ∨ (layout roll_size (numbered 0 entries)).CleanCut roll_size kept) := by
  by_cases unwritten : entries = []
  · subst unwritten
    have nothing : crash kept ⟨path, []⟩ = ⟨path, []⟩ := by simp [crash]
    have fresh : (layout roll_size (numbered 0 [])).complete kept = [] := by
      simp [layout, numbered, Layout.complete, survivors]
    refine ⟨⟨path, []⟩, ?_, ?_⟩
    · simp only [written, open_empty path roll_size accepted, appendAll, bind, Except.bind, pure,
        Except.pure]
    rw [nothing]
    refine ⟨fun _ => Or.inl rfl, fun _ more moreBounded => ?_⟩
    refine tracked_survives roll_size [] kept accepted ⟨path, []⟩ ?_ more moreBounded
    rw [fresh]
    exact ⟨⟨List.Pairwise.nil, fun _ member => by cases member⟩, Or.inl ⟨rfl, rfl, rfl⟩⟩
  refine ⟨_, written_files path roll_size entries accepted unwritten (by omega) few, ?_⟩
  rw [crash_files]
  have fits : ∀ record ∈ (layout roll_size (numbered 0 entries)).records, record.Fits := by
    rw [layout_records]
    exact numbered_fits 0 entries (by omega)
  have fewer : ((layout roll_size (numbered 0 entries)).complete kept).length ≤ entries.length := by
    have length := congrArg List.length (complete_numbered roll_size entries kept)
    rw [numbered_length, List.length_take] at length
    omega
  constructor
  · intro survives
    right
    have header : HEADER_SIZE ≤ kept := by
      by_contra short
      obtain ⟨wal, _, _, opened, _⟩ := survives [] (by rw [List.length_nil]; omega)
      obtain ⟨raised, refused⟩ := short_cut_refused path (layout roll_size (numbered 0 entries))
        kept few (by omega) fits
      exact open_unreadable roll_size _ raised refused wal opened
    refine ⟨header, ?_⟩
    have oneMore (entry : Entry) (room : kept + (entry.record
        ((layout roll_size (numbered 0 entries)).complete kept).length).bytes.length ≤ roll_size) :=
      survived_continues path roll_size entries kept accepted (by omega) fits few within header
        entry room (survives [entry] (by rw [List.length_singleton]; omega))
    by_cases clean : (layout roll_size (numbered 0 entries)).leftover kept = []
    · exact Or.inl clean
    by_cases noRoom : roll_size < kept + 28
    · exact Or.inr (Or.inl noRoom)
    by_cases exactly : kept + 28 = roll_size
    · refine Or.inr (Or.inr ⟨exactly, ?_⟩)
      apply oneMore (payloadEntry [] (by simp))
      rw [bytes_length]
      exact Nat.le_of_eq exactly
    · refine absurd (fun byte => oneMore (payloadEntry [byte] (by simp)) ?_)
        (one_byte_not_again _ _ clean)
      have size := bytes_length ((payloadEntry [byte] (by simp)).record
        ((layout roll_size (numbered 0 entries)).complete kept).length)
      have noKind : (utf8 "").length = 0 := by decide
      simp only [Entry.record, payloadEntry, noKind, List.length_singleton] at size ⊢
      omega
  · rintro (nothing | clean) more moreBounded
    · exact absurd nothing unwritten
    · exact tracked_survives roll_size entries kept accepted _
        (clean_cut_tracks path (layout roll_size (numbered 0 entries)) kept fits few within roll_size
          (by omega) clean) more moreBounded

/-- An entry of the kind node inserts are logged under. -/
def insertNode (payload : List UInt8) (fits : payload.length < 256 ^ 4) : Entry :=
  { kind := "INSERT_NODE", payload, kind_fits := by decide, payload_fits := fits }

/-- Two records of 40 bytes each. -/
def twoInserts : List Entry := [insertNode [97] (by decide), insertNode [98] (by decide)]

/-- A cut between the two records is survived. -/
theorem cut_between_survives : ∃ directory,
    written "wal" DEFAULT_ROLL_SIZE twoInserts = .ok directory ∧
      ∀ more : List Entry,
        ((layout DEFAULT_ROLL_SIZE (numbered 0 twoInserts)).complete 64).length + more.length <
            256 ^ 8 →
          SurvivesCrash (crash 64 directory) DEFAULT_ROLL_SIZE
            ((layout DEFAULT_ROLL_SIZE (numbered 0 twoInserts)).complete 64) more := by
  obtain ⟨directory, log, survives⟩ := torn_tail_iff "wal" DEFAULT_ROLL_SIZE twoInserts 64
    (by decide) (by decide) (by decide) (by decide)
  exact ⟨directory, log, survives.mpr (Or.inr ⟨by decide, Or.inl (by decide)⟩)⟩

/-- Three bytes cut off the second record, and the record appended next is not
found behind them. -/
theorem torn_append_lost : ∃ directory,
    written "wal" DEFAULT_ROLL_SIZE twoInserts = .ok directory ∧
      101 < (segmentBytes (layout DEFAULT_ROLL_SIZE (numbered 0 twoInserts)).last).length ∧
      ¬ SurvivesCrash (crash 101 directory) DEFAULT_ROLL_SIZE
        ((layout DEFAULT_ROLL_SIZE (numbered 0 twoInserts)).complete 101)
        [insertNode [99] (by decide)] := by
  refine ⟨_, written_files "wal" DEFAULT_ROLL_SIZE twoInserts (by decide) (by decide) (by decide)
    (by decide), by decide, ?_⟩
  rw [crash_files]
  intro survives
  have fits : ∀ record ∈ (layout DEFAULT_ROLL_SIZE (numbered 0 twoInserts)).records,
      record.Fits := by
    rw [layout_records]
    exact numbered_fits 0 twoInserts (by decide)
  have continued := survived_continues "wal" DEFAULT_ROLL_SIZE twoInserts 101 (by decide)
    (by decide) fits (by decide) (by decide) (by decide) _ (by decide) survives
  exact absurd continued (by decide +kernel)

end CaracalDB.Log
