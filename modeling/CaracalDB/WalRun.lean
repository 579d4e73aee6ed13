import CaracalDB.SegmentTail

/-!
# Runs of appends

A directory and a handle track a list of records when the files read as that
list and the last file can take the next record. Every append keeps this as long
as file numbers stay within the six digits their names are padded to, because
files are then visited in the order they were created.
-/

namespace CaracalDB.Log

open Bytes

/-- Records of two groups of files, read one group after the other. -/
theorem iter_segments_append (directory : Directory) (first second : List SegmentFile) :
    iterSegments directory (first ++ second) = (do
      let before ← iterSegments directory first
      return before ++ (← iterSegments directory second)) := by
  induction first with
  | nil =>
    simp only [List.nil_append, iterSegments, bind, Except.bind]
    cases iterSegments directory second <;> rfl
  | cons file rest inductionHypothesis =>
    simp only [List.cons_append, iterSegments, inductionHypothesis, bind, Except.bind]
    cases iterSegmentRecords (segmentPath directory file.index) file.data with
    | error raised => rfl
    | ok records =>
      cases iterSegments directory rest with
      | error raised => rfl
      | ok before =>
        cases iterSegments directory second with
        | error raised => rfl
        | ok after => simp [pure, Except.pure]

/-- A directory and a handle stand for a list of records: the files in front of
the last one give the first records, the last file gives the rest and may be
written to, and an open segment is that file. A log that was never written has
no file at all. -/
structure Tracks (directory : Directory) (wal : Wal) (records : List WalRecord) : Prop where
  ordered : directory.Ordered
  layout : (directory.segments = [] ∧ wal.segment = none ∧ records = []) ∨
    ∃ front tail before old, directory.segments = front ++ [tail] ∧
      iterSegments directory front = .ok before ∧
      Extendable wal.roll_size wal.last_lsn tail.data old ∧
      (∀ record ∈ old, record.Fits) ∧ records = before ++ old ∧
      (wal.segment = none ∨ wal.segment = some ⟨tail.index, tail.data.length⟩)

/-- A tracked directory reads as the records it stands for. -/
theorem Tracks.read {directory : Directory} {wal : Wal} {records : List WalRecord}
    (tracks : Tracks directory wal records) : iterAllRecords directory = .ok records := by
  rw [iterAllRecords, wal_segments_ordered directory tracks.ordered]
  rcases tracks.layout with ⟨empty, _, nothing⟩ |
    ⟨front, tail, before, old, files, read, extendable, fits, split, _⟩
  · rw [empty, nothing]
    rfl
  · rw [files, iter_segments_append, read]
    simp [iterSegments, extendable.read fits, bind, Except.bind, pure, Except.pure, split]

/-- Numbers of the files in a directory. -/
def Directory.indices (directory : Directory) : List Nat :=
  directory.segments.map SegmentFile.index

/-- All numbers still have six digits. -/
def Directory.SixDigits (directory : Directory) : Prop :=
  ∀ index ∈ directory.indices, index < 1000000

@[simp] theorem Directory.extend_indices (directory : Directory) (index : Nat)
    (bytes : List UInt8) : (directory.extend index bytes).indices = directory.indices := by
  simp only [Directory.indices, Directory.extend, List.map_map]
  apply List.map_congr_left
  intro file _
  simp only [Function.comp_apply]
  split <;> rfl

theorem Directory.put_indices (directory : Directory) (index other : Nat) (data : List UInt8) :
    other ∈ (directory.put index data).indices ↔ other ∈ directory.indices ∨ other = index := by
  simp only [Directory.indices, Directory.put, List.mem_map, List.mem_append, List.mem_filter,
    bne_iff_ne, ne_eq, List.mem_singleton]
  constructor
  · rintro ⟨file, ⟨member, _⟩ | rfl, rfl⟩
    · exact Or.inl ⟨file, member, rfl⟩
    · exact Or.inr rfl
  · rintro (⟨file, member, rfl⟩ | rfl)
    · by_cases same : file.index = index
      · exact ⟨⟨index, data⟩, Or.inr rfl, same.symm⟩
      · exact ⟨file, Or.inl ⟨member, same⟩, rfl⟩
    · exact ⟨⟨other, data⟩, Or.inr rfl, rfl⟩

/-- Starting a new segment deletes no file. -/
theorem create_keeps_indices (directory : Directory) (index : Nat)
    (present : index ∈ directory.indices) : index ∈ (createNewSegment directory).1.indices := by
  simp only [createNewSegment, Directory.put_indices]
  exact Or.inl present

theorem current_keeps_indices (directory : Directory) (wal : Wal) (index : Nat)
    (present : index ∈ directory.indices) : index ∈ (currentSegment directory wal).1.indices := by
  unfold currentSegment resumeOrCreate
  split
  · exact present
  · split
    · split
      · exact present
      · exact create_keeps_indices directory index present
    · exact create_keeps_indices directory index present

theorem ensure_keeps_indices (directory : Directory) (wal : Wal) (extra index : Nat)
    (present : index ∈ (currentSegment directory wal).1.indices) :
    index ∈ (ensureSegment directory wal extra).1.indices := by
  simp only [ensureSegment]
  split
  · exact create_keeps_indices _ index present
  · exact present

/-- An append deletes no file. -/
theorem write_keeps_indices (directory : Directory) (wal : Wal) (encoded : List UInt8)
    (index : Nat) (present : index ∈ directory.indices) :
    index ∈ (writeRecord directory wal encoded).1.indices := by
  simp only [writeRecord, Directory.extend_indices]
  exact ensure_keeps_indices directory wal encoded.length index
    (current_keeps_indices directory wal index present)

/-- Starting a segment behind the last file of an ordered directory. -/
theorem create_ordered (directory : Directory) (front : List SegmentFile) (tail : SegmentFile)
    (ordered : directory.Ordered) (files : directory.segments = front ++ [tail]) :
    createNewSegment directory =
      ({ directory with segments := directory.segments ++ [⟨tail.index + 1, packHeader⟩] },
        ⟨tail.index + 1, HEADER_SIZE⟩) := by
  have last : (walSegments directory).getLast? = some tail := by
    rw [wal_segments_ordered directory ordered, files, List.getLast?_concat]
  have fresh : directory.segments.filter (·.index != tail.index + 1) = directory.segments := by
    rw [List.filter_eq_self]
    intro file member
    have increasing := ordered.increasing
    rw [files, List.pairwise_append] at increasing
    have below : file.index ≤ tail.index := by
      rw [files, List.mem_append, List.mem_singleton] at member
      rcases member with inFront | rfl
      · exact Nat.le_of_lt (increasing.2.2 file inFront tail (List.mem_singleton.mpr rfl))
      · exact Nat.le_refl _
    simp only [bne_iff_ne, ne_eq]
    exact fun same => Nat.not_succ_le_self _ (same ▸ below)
  simp only [createNewSegment, last, Directory.put, fresh]

/-- The first segment of a log. -/
theorem create_first (directory : Directory) (empty : directory.segments = []) :
    createNewSegment directory =
      ({ directory with segments := [⟨1, packHeader⟩] }, ⟨1, HEADER_SIZE⟩) := by
  simp [createNewSegment, walSegments, empty, Directory.put]

/-- A directory whose files are ordered and all but the last of which precede
it, with another file behind. -/
theorem ordered_concat (directory : Directory) (index : Nat) (data : List UInt8)
    (ordered : directory.Ordered) (above : ∀ file ∈ directory.segments, file.index < index)
    (sixDigits : index < 1000000) :
    ({ directory with segments := directory.segments ++ [⟨index, data⟩] } : Directory).Ordered := by
  constructor
  · rw [List.pairwise_append]
    refine ⟨ordered.increasing, List.pairwise_singleton .., ?_⟩
    intro file member added isAdded
    rw [List.mem_singleton.mp isAdded]
    exact above file member
  · intro file member
    rw [List.mem_append, List.mem_singleton] at member
    rcases member with present | rfl
    · exact ordered.sixDigits file present
    · exact sixDigits

/-- The last file of an ordered directory has the largest number. -/
theorem Directory.Ordered.tail_index {directory : Directory} (ordered : directory.Ordered)
    {front : List SegmentFile} {tail : SegmentFile} (files : directory.segments = front ++ [tail]) :
    ∀ file ∈ front, file.index < tail.index := by
  intro file member
  have increasing := ordered.increasing
  rw [files, List.pairwise_append] at increasing
  exact increasing.2.2 file member tail (List.mem_singleton.mpr rfl)

/-- Records of files do not depend on the other files of the directory. -/
theorem iter_segments_path (first second : Directory) (same : first.path = second.path)
    (files : List SegmentFile) : iterSegments first files = iterSegments second files := by
  induction files with
  | nil => rfl
  | cons file rest inductionHypothesis =>
    simp only [iterSegments, segmentPath, same, inductionHypothesis]

/-- Files that hold nothing but records are read as these records. -/
theorem iter_segments_clean (directory : Directory) (number : Nat → Nat)
    (groups : List (List WalRecord)) (fits : ∀ group ∈ groups, ∀ record ∈ group, record.Fits) :
    iterSegments directory
        (groups.mapIdx fun position group => ⟨number position, segmentBytes group⟩) =
      .ok groups.flatten := by
  induction groups generalizing number with
  | nil => rfl
  | cons group rest inductionHypothesis =>
    have first (path : String) := iter_segment_bytes path group (fits group List.mem_cons_self) []
      read_record_nil
    simp only [List.append_nil] at first
    have behind := inductionHypothesis (fun position => number (position + 1))
      (fun later member => fits later (List.mem_cons_of_mem _ member))
    rw [List.mapIdx_cons, iterSegments, first]
    simp only [bind, Except.bind, behind, pure, Except.pure, List.flatten_cons]

/-- Starting a new segment adds no record. -/
theorem Tracks.create {directory : Directory} {wal : Wal} {records : List WalRecord}
    (tracks : Tracks directory wal records)
    (sixDigits : (createNewSegment directory).1.SixDigits) :
    Tracks (createNewSegment directory).1
      { wal with segment := some (createNewSegment directory).2 } records := by
  have header : Extendable wal.roll_size wal.last_lsn packHeader [] := by
    apply Extendable.clean
    simp [segmentBytes]
  rcases tracks.layout with ⟨empty, _, nothing⟩ |
    ⟨front, tail, before, old, files, read, extendable, fits, split, _⟩
  · rw [create_first directory empty]
    constructor
    · constructor
      · exact List.pairwise_singleton ..
      · intro file member
        rw [List.mem_singleton.mp member]
        decide
    · refine Or.inr ⟨[], ⟨1, packHeader⟩, [], [], rfl, rfl, header, ?_, nothing, Or.inr ?_⟩
      · simp
      · simp
  · rw [create_ordered directory front tail tracks.ordered files] at sixDigits ⊢
    constructor
    · apply ordered_concat directory _ _ tracks.ordered
      · intro file member
        rw [files, List.mem_append, List.mem_singleton] at member
        rcases member with inFront | rfl
        · exact Nat.lt_succ_of_lt (tracks.ordered.tail_index files file inFront)
        · exact Nat.lt_succ_self _
      · apply sixDigits
        simp [Directory.indices]
    · refine Or.inr ⟨directory.segments, ⟨tail.index + 1, packHeader⟩, records, [], rfl, ?_,
        header, ?_, ?_, Or.inr ?_⟩
      · have whole := tracks.read
        rw [iterAllRecords, wal_segments_ordered directory tracks.ordered] at whole
        rw [← whole]
        exact iter_segments_path _ directory (by rfl) _
      · simp
      · simp
      · simp

/-- Finding the segment to write to adds no record. -/
theorem Tracks.current {directory : Directory} {wal : Wal} {records : List WalRecord}
    (tracks : Tracks directory wal records)
    (sixDigits : (currentSegment directory wal).1.SixDigits) :
    Tracks (currentSegment directory wal).1
      { wal with segment := some (currentSegment directory wal).2 } records := by
  unfold currentSegment at sixDigits ⊢
  cases opened : wal.segment with
  | some segment =>
    have same : ({ wal with segment := some segment } : Wal) = wal := by rw [← opened]
    rw [same]
    exact tracks
  | none =>
    simp only [opened, resumeOrCreate] at sixDigits ⊢
    rcases tracks.layout with ⟨empty, _, nothing⟩ |
      ⟨front, tail, before, old, files, read, extendable, fits, split, _⟩
    · have noLast : (walSegments directory).getLast? = none := by simp [walSegments, empty]
      simp only [noLast] at sixDigits ⊢
      exact tracks.create sixDigits
    · have last : (walSegments directory).getLast? = some tail := by
        rw [wal_segments_ordered directory tracks.ordered, files, List.getLast?_concat]
      simp only [last] at sixDigits ⊢
      by_cases small : tail.data.length < wal.roll_size
      · simp only [small, ↓reduceIte]
        exact ⟨tracks.ordered, Or.inr ⟨front, tail, before, old, files, read, extendable, fits,
          split, Or.inr rfl⟩⟩
      · simp only [small, ↓reduceIte] at sixDigits ⊢
        exact tracks.create sixDigits

/-- The segment a record is written to has room for it or holds no record yet. -/
theorem Tracks.ensure {directory : Directory} {wal : Wal} {records : List WalRecord}
    (tracks : Tracks directory wal records) (extra : Nat)
    (sixDigits : (ensureSegment directory wal extra).1.SixDigits) :
    Tracks (ensureSegment directory wal extra).1
        { wal with segment := some (ensureSegment directory wal extra).2 } records ∧
      ((ensureSegment directory wal extra).2.size + extra ≤ wal.roll_size ∨
        (ensureSegment directory wal extra).2.size = HEADER_SIZE) := by
  have found : (currentSegment directory wal).1.SixDigits := by
    intro index present
    exact sixDigits index (ensure_keeps_indices directory wal extra index present)
  have current := tracks.current found
  simp only [ensureSegment] at sixDigits ⊢
  by_cases full : (currentSegment directory wal).2.size + extra > wal.roll_size
  · simp only [full, ↓reduceIte] at sixDigits ⊢
    exact ⟨current.create sixDigits, Or.inr rfl⟩
  · simp only [full, ↓reduceIte]
    exact ⟨current, Or.inl (by omega)⟩

/-- Appending bytes to the last file of an ordered directory. -/
theorem extend_tail (directory : Directory) (front : List SegmentFile) (tail : SegmentFile)
    (ordered : directory.Ordered) (files : directory.segments = front ++ [tail])
    (bytes : List UInt8) : (directory.extend tail.index bytes).segments =
      front ++ [{ tail with data := tail.data ++ bytes }] := by
  have others : front.map (fun file =>
      if file.index = tail.index then { file with data := file.data ++ bytes } else file) =
        front := by
    have same := List.map_congr_left (l := front) (f := fun file =>
      if file.index = tail.index then { file with data := file.data ++ bytes } else file) (g := id)
    rw [same, List.map_id]
    intro file member
    have below := ordered.tail_index files file member
    exact if_neg (Nat.ne_of_lt below)
  simp only [Directory.extend, files, List.map_append, others, List.map_singleton, ↓reduceIte]

/-- A record is written behind the contents of the last file, once the segment
to write to is found to be that file. -/
theorem write_tail (directory reached : Directory) (wal : Wal) (encoded : List UInt8)
    (front : List SegmentFile) (tail : SegmentFile)
    (target : ensureSegment directory wal encoded.length =
      (reached, ⟨tail.index, tail.data.length⟩))
    (ordered : reached.Ordered) (files : reached.segments = front ++ [tail]) :
    writeRecord directory wal encoded =
      ({ reached with segments := front ++ [{ tail with data := tail.data ++ encoded }] },
        { wal with
          segment := some ⟨tail.index, tail.data.length + encoded.length⟩
          last_lsn := wal.last_lsn + 1 }) := by
  have extended := extend_tail reached front tail ordered files encoded
  simp only [writeRecord, target, Prod.mk.injEq, and_true]
  rw [← extended]
  rfl

/-- Appending bytes to a file keeps the order of the files. -/
theorem extend_ordered (directory : Directory) (index : Nat) (bytes : List UInt8)
    (ordered : directory.Ordered) : (directory.extend index bytes).Ordered := by
  have kept (file : SegmentFile) : (if file.index = index then
      { file with data := file.data ++ bytes } else file).index = file.index := by
    split <;> rfl
  constructor
  · simp only [Directory.extend, List.pairwise_map, kept]
    exact ordered.increasing
  · intro file member
    simp only [Directory.extend, List.mem_map] at member
    obtain ⟨old, present, rfl⟩ := member
    rw [kept]
    exact ordered.sixDigits old present

/-- A written record is the last one the directory stands for. -/
theorem Tracks.write {directory : Directory} {wal : Wal} {records : List WalRecord}
    (tracks : Tracks directory wal records) (record : WalRecord) (fits : record.Fits)
    (lsn : record.lsn = wal.last_lsn + 1) (prev : record.prev_lsn = wal.last_lsn)
    (sixDigits : (writeRecord directory wal record.bytes).1.SixDigits) :
    Tracks (writeRecord directory wal record.bytes).1
      (writeRecord directory wal record.bytes).2 (records ++ [record]) := by
  simp only [writeRecord, Directory.SixDigits, Directory.extend_indices] at sixDigits ⊢
  obtain ⟨ensured, room⟩ := tracks.ensure record.bytes.length sixDigits
  generalize ensureSegment directory wal record.bytes.length = target at ensured room ⊢
  obtain ⟨directory, segment⟩ := target
  refine ⟨extend_ordered directory _ _ ensured.ordered, Or.inr ?_⟩
  rcases ensured.layout with ⟨_, closed, _⟩ |
    ⟨front, tail, before, old, files, read, extendable, oldFits, split, opened⟩
  · cases closed
  obtain rfl : segment = ⟨tail.index, tail.data.length⟩ := by simpa using opened
  refine ⟨front, { tail with data := tail.data ++ record.bytes }, before, old ++ [record],
    extend_tail directory front tail ensured.ordered files record.bytes, ?_, ?_, ?_, ?_, Or.inr ?_⟩
  · rw [← read]
    apply iter_segments_path
    rfl
  · apply extendable.extend record lsn prev
    rcases room with enough | headerOnly
    · exact Or.inr enough
    · exact Or.inl (extendable.header_only headerOnly)
  · intro member present
    rcases List.mem_append.mp present with older | newest
    · exact oldFits member older
    · rw [List.mem_singleton.mp newest]
      exact fits
  · simp [split]
  · simp

/-- A run of appends within the LSN word is refused nothing. -/
theorem append_all_step (directory : Directory) (wal : Wal) (entry : Entry) (rest : List Entry)
    (bounded : wal.last_lsn + 1 < 256 ^ 8) :
    appendAll directory wal (entry :: rest) =
      appendAll (writeRecord directory wal (entry.record wal.last_lsn).bytes).1
        (writeRecord directory wal (entry.record wal.last_lsn).bytes).2 rest := by
  simp only [appendAll, append_entry directory wal entry bounded, bind, Except.bind]

/-- Appends delete no file. -/
theorem append_all_keeps_indices (entries : List Entry) (directory : Directory) (wal : Wal)
    (bounded : wal.last_lsn + entries.length < 256 ^ 8) :
    ∃ after final, appendAll directory wal entries = .ok (after, final) ∧
      ∀ index ∈ directory.indices, index ∈ after.indices := by
  induction entries generalizing directory wal with
  | nil => exact ⟨directory, wal, rfl, fun index present => present⟩
  | cons entry rest inductionHypothesis =>
    rw [List.length_cons] at bounded
    rw [append_all_step directory wal entry rest (by omega)]
    have later : (writeRecord directory wal (entry.record wal.last_lsn).bytes).2.last_lsn +
        rest.length < 256 ^ 8 := by
      rw [write_record_last]
      omega
    obtain ⟨after, final, run, kept⟩ := inductionHypothesis _ _ later
    refine ⟨after, final, run, ?_⟩
    intro index present
    exact kept index (write_keeps_indices directory wal _ index present)

/-- A run of appends from a tracked state ends in a tracked state, with the new
records behind the old ones. -/
theorem Tracks.append_all {directory : Directory} {wal : Wal} {records : List WalRecord}
    (tracks : Tracks directory wal records) (entries : List Entry)
    (bounded : wal.last_lsn + entries.length < 256 ^ 8) (after : Directory) (final : Wal)
    (run : appendAll directory wal entries = .ok (after, final)) (sixDigits : after.SixDigits) :
    Tracks after final (records ++ numbered wal.last_lsn entries) := by
  induction entries generalizing directory wal records with
  | nil =>
    obtain ⟨rfl, rfl⟩ : directory = after ∧ wal = final := by simpa [appendAll] using run
    simpa [numbered] using tracks
  | cons entry rest inductionHypothesis =>
    rw [List.length_cons] at bounded
    rw [append_all_step directory wal entry rest (by omega)] at run
    have later : (writeRecord directory wal (entry.record wal.last_lsn).bytes).2.last_lsn +
        rest.length < 256 ^ 8 := by
      rw [write_record_last]
      omega
    have intermediate : (writeRecord directory wal (entry.record wal.last_lsn).bytes).1.SixDigits := by
      obtain ⟨reached, _, again, kept⟩ := append_all_keeps_indices rest _ _ later
      rw [run] at again
      cases again
      intro index present
      exact sixDigits index (kept index present)
    have step := tracks.write (entry.record wal.last_lsn) (entry.record_fits _ (by omega)) rfl rfl
      intermediate
    have tail := inductionHypothesis step later run
    simpa [numbered] using tail

end CaracalDB.Log
