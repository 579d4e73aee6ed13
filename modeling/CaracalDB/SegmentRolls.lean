import CaracalDB.Loops
import CaracalDB.WalRun

/-!
# Segments of a log that rolls

A new segment takes the number behind that of the last file by name, and the files
are read in the order of their names. As long as every new name sorts behind the
names that are there, the order of the files is the order in which they were
started: the log reads as what was appended to it, without the segments that a
truncation removed, and no new segment takes the place of a file.
-/

namespace CaracalDB.Rolling

open Log Bytes

/-- A log with the records that were appended to it, each with the number of the segment it went
to, apart from those in segments that were removed. -/
structure History where
  directory : Directory
  wal : Wal
  kept : List (Nat × WalRecord)

inductive Operation where
  | append (kind : String) (payload : List UInt8)
  | truncate_before (lsn : Nat)
  | close
  | reopen (roll_size : Nat)

/-- The record of the next append. -/
def nextRecord (wal : Wal) (kind : String) (payload : List UInt8) : WalRecord :=
  { lsn := wal.last_lsn + 1, prev_lsn := wal.last_lsn, kind, payload }

/-- One operation. A call that raises leaves what it did before raising. -/
def History.step (history : History) : Operation → History
  | .append kind payload =>
      match append history.directory history.wal kind payload with
      | .error _ => history
      | .ok ((directory, wal), _) =>
          { directory, wal, kept := history.kept ++ (wal.segment.map fun segment =>
              (segment.index, nextRecord history.wal kind payload)).toList }
  | .truncate_before lsn =>
      let after := (truncateBefore history.directory history.wal lsn).1
      { history with
        directory := after
        kept := history.kept.filter fun entry =>
          ¬ (entry.1 ∈ history.directory.indices ∧ entry.1 ∉ after.indices) }
  | .close => { history with wal := close history.wal }
  | .reopen roll_size =>
      match openWal history.directory roll_size with
      | .error _ => history
      | .ok wal => { history with wal }

/-- The history after some operations. -/
def History.run (history : History) (operations : List Operation) : History :=
  operations.foldl History.step history

/-- The next segment sorts behind the last file by name. -/
def NextSorts (directory : Directory) : Prop :=
  ∀ tail, (walSegments directory).getLast? = some tail →
    segmentName tail.index < segmentName (tail.index + 1)

/-- Where an append starts a segment, because it resumes at a full file or because its record does
not fit, the name of the segment sorts behind the names that are there. -/
structure Sorts (directory : Directory) (wal : Wal) (extra : Nat) : Prop where
  resumes : wal.segment = none → ∀ tail, (walSegments directory).getLast? = some tail →
    wal.roll_size ≤ tail.data.length → segmentName tail.index < segmentName (tail.index + 1)
  rolls : (currentSegment directory wal).2.size + extra > wal.roll_size →
    NextSorts (currentSegment directory wal).1

def History.Allows (history : History) : Operation → Prop
  | .append kind payload =>
      Sorts history.directory history.wal (nextRecord history.wal kind payload).bytes.length
  | _ => True

def History.AllowsAll (history : History) : List Operation → Prop
  | [] => True
  | operation :: operations =>
      history.Allows operation ∧ (history.step operation).AllowsAll operations

/-- Every file is there still, with what it held and perhaps more. -/
def Preserves (before after : Directory) : Prop :=
  ∀ file ∈ before.segments, ∃ other ∈ after.segments,
    other.index = file.index ∧ file.data <+: other.data

theorem Preserves.refl (directory : Directory) : Preserves directory directory :=
  fun file member => ⟨file, member, rfl, List.prefix_refl _⟩

theorem Preserves.trans {first second third : Directory} (early : Preserves first second)
    (late : Preserves second third) : Preserves first third := by
  intro file member
  obtain ⟨middle, inSecond, sameMiddle, held⟩ := early file member
  obtain ⟨other, inThird, same, more⟩ := late middle inSecond
  exact ⟨other, inThird, same.trans sameMiddle, held.trans more⟩

theorem preserves_extend (directory : Directory) (index : Nat) (bytes : List UInt8) :
    Preserves directory (directory.extend index bytes) := by
  intro file member
  refine ⟨_, List.mem_map.mpr ⟨file, member, rfl⟩, ?_⟩
  split
  · exact ⟨rfl, List.prefix_append _ _⟩
  · exact ⟨rfl, List.prefix_refl _⟩

/-! ## Segments in the order of their names -/

/-- The records of a segment with its number. -/
abbrev Group : Type := Nat × List WalRecord

def Group.file (group : Group) : SegmentFile := ⟨group.1, segmentBytes group.2⟩

/-- The records of some segments, each with the number of its segment. -/
def entries (groups : List Group) : List (Nat × WalRecord) :=
  groups.flatMap fun group => group.2.map fun record => (group.1, record)

/-- A directory holds whole segments whose names sort as they are listed. -/
structure Holds (directory : Directory) (groups : List Group) : Prop where
  files : directory.segments = groups.map Group.file
  sorted : groups.Pairwise fun left right => segmentName left.1 < segmentName right.1
  fits : ∀ group ∈ groups, ∀ record ∈ group.2, record.Fits

/-- An open segment is the last one. -/
def IsLast (groups : List Group) (segment : Segment) : Prop :=
  ∃ front last, groups = front ++ [last] ∧
    segment = ⟨last.1, (segmentBytes last.2).length⟩

theorem name_asymm {left right : Nat} (below : segmentName left < segmentName right) :
    ¬ segmentName right < segmentName left := by
  rw [String.lt_iff] at below ⊢
  exact List.lt_asymm below

theorem Holds.indices {directory : Directory} {groups : List Group}
    (holds : Holds directory groups) : directory.indices = groups.map Prod.fst := by
  rw [Directory.indices, holds.files, List.map_map]
  rfl

/-- The files are read as they are listed. -/
theorem Holds.walSegments {directory : Directory} {groups : List Group}
    (holds : Holds directory groups) : walSegments directory = groups.map Group.file := by
  rw [Log.walSegments, holds.files]
  apply List.mergeSort_of_pairwise
  rw [List.pairwise_map]
  refine holds.sorted.imp ?_
  intro left right below
  rw [nameLe, Bool.not_eq_true', decide_eq_false_iff_not]
  exact name_asymm below

theorem Holds.last {directory : Directory} {groups : List Group}
    (holds : Holds directory groups) :
    (Log.walSegments directory).getLast? = groups.getLast?.map Group.file := by
  rw [holds.walSegments, List.getLast?_map]

/-- The log reads as the records of its segments, one segment after another. -/
theorem Holds.read {directory : Directory} {groups : List Group}
    (holds : Holds directory groups) :
    iterAllRecords directory = .ok ((entries groups).map Prod.snd) := by
  rw [iterAllRecords, holds.walSegments]
  have fits := holds.fits
  clear holds
  induction groups with
  | nil => rfl
  | cons group groups inductionHypothesis =>
    have first := iter_segment_bytes (segmentPath directory group.1) group.2
      (fits group List.mem_cons_self) [] read_record_nil
    rw [List.append_nil] at first
    have rest := inductionHypothesis fun other member => fits other (List.mem_cons_of_mem _ member)
    rw [List.map_cons, iterSegments]
    show (do
      let records ← iterSegmentRecords (segmentPath directory group.1) (segmentBytes group.2)
      return records ++ (← iterSegments directory (groups.map Group.file))) = _
    rw [first, rest]
    have split : entries (group :: groups) =
        (group.2.map fun record => (group.1, record)) ++ entries groups := rfl
    rw [split, List.map_append, List.map_map]
    show Except.ok (group.2 ++ _) = Except.ok (group.2.map id ++ _)
    rw [List.map_id]

/-- A segment that is started behind the others. -/
theorem Holds.create {directory : Directory} {groups : List Group}
    (holds : Holds directory groups) (sorts : NextSorts directory) :
    ∃ after, Holds (createNewSegment directory).1 after ∧
      IsLast after (createNewSegment directory).2 ∧ entries after = entries groups ∧
      Preserves directory (createNewSegment directory).1 := by
  have started : ∀ index, (createNewSegment directory) =
        (directory.put index packHeader, { index, size := HEADER_SIZE }) →
      (∀ group ∈ groups, segmentName group.1 < segmentName index) →
      ∃ after, Holds (createNewSegment directory).1 after ∧
        IsLast after (createNewSegment directory).2 ∧ entries after = entries groups ∧
        Preserves directory (createNewSegment directory).1 := by
    intro index created above
    have others : directory.segments.filter (·.index != index) = directory.segments := by
      rw [List.filter_eq_self, holds.files]
      intro file member
      obtain ⟨group, among, rfl⟩ := List.mem_map.mp member
      rw [bne_iff_ne]
      intro same
      have below := above group among
      rw [show group.1 = index from same] at below
      exact name_asymm below below
    have listed : (directory.put index packHeader).segments =
        directory.segments ++ [⟨index, packHeader⟩] := by
      rw [Directory.put, others]
    have empty : packHeader = segmentBytes [] := by rw [segmentBytes, encodings_nil, List.append_nil]
    refine ⟨groups ++ [(index, [])], ?_, ⟨groups, (index, []), rfl, ?_⟩, ?_, ?_⟩
    · rw [created]
      constructor
      · rw [listed, holds.files, List.map_append, empty]
        rfl
      · rw [List.pairwise_append]
        refine ⟨holds.sorted, List.pairwise_singleton _ _, ?_⟩
        intro group member other isNew
        rw [List.mem_singleton.mp isNew]
        exact above group member
      · intro group member record inGroup
        rcases List.mem_append.mp member with old | new
        · exact holds.fits group old record inGroup
        · rw [List.mem_singleton.mp new] at inGroup
          cases inGroup
    · rw [created, ← empty, pack_header_length]
    · rw [entries, List.flatMap_append, entries]
      exact List.append_nil _
    · rw [created]
      intro file member
      refine ⟨file, ?_, rfl, List.prefix_refl _⟩
      rw [listed]
      exact List.mem_append_left _ member
  cases found : (Log.walSegments directory).getLast? with
  | none =>
    refine started 1 (by rw [createNewSegment, found]) ?_
    rw [holds.last, Option.map_eq_none_iff, List.getLast?_eq_none_iff] at found
    rw [found]
    exact fun group member => absurd member List.not_mem_nil
  | some tail =>
    refine started (tail.index + 1) (by rw [createNewSegment, found]) ?_
    have next := sorts tail found
    rw [holds.last, Option.map_eq_some_iff] at found
    obtain ⟨last, isLast, rfl⟩ := found
    obtain ⟨front, split⟩ := List.getLast?_eq_some_iff.mp isLast
    have sorted := holds.sorted
    rw [split, List.pairwise_append] at sorted
    intro group member
    rw [split, List.mem_append, List.mem_singleton] at member
    rcases member with inFront | rfl
    · exact String.lt_trans (sorted.2.2 group inFront last (List.mem_singleton.mpr rfl)) next
    · exact next

/-- The segment that an append finds open or opens. -/
theorem Holds.current {directory : Directory} {wal : Wal} {groups : List Group}
    (holds : Holds directory groups)
    (open_ : ∀ segment, wal.segment = some segment → IsLast groups segment)
    (resumes : wal.segment = none → ∀ tail, (Log.walSegments directory).getLast? = some tail →
      wal.roll_size ≤ tail.data.length → segmentName tail.index < segmentName (tail.index + 1)) :
    ∃ after, Holds (currentSegment directory wal).1 after ∧
      IsLast after (currentSegment directory wal).2 ∧ entries after = entries groups ∧
      Preserves directory (currentSegment directory wal).1 := by
  rw [currentSegment]
  cases opened : wal.segment with
  | some segment =>
    exact ⟨groups, holds, open_ segment opened, rfl, Preserves.refl _⟩
  | none =>
    dsimp only
    rw [resumeOrCreate]
    cases found : (Log.walSegments directory).getLast? with
    | none => exact holds.create (by rw [NextSorts, found]; exact fun _ absurdity => by cases absurdity)
    | some tail =>
      dsimp only
      split
      · rw [holds.last, Option.map_eq_some_iff] at found
        obtain ⟨last, isLast, rfl⟩ := found
        obtain ⟨front, split⟩ := List.getLast?_eq_some_iff.mp isLast
        exact ⟨groups, holds, ⟨front, last, split, rfl⟩, rfl, Preserves.refl _⟩
      · next full =>
        refine holds.create ?_
        intro other isTail
        rw [found] at isTail
        cases isTail
        exact resumes opened tail found (Nat.le_of_not_lt full)

/-- The segment that takes a record of some length. -/
theorem Holds.ensure {directory : Directory} {wal : Wal} {groups : List Group} {extra : Nat}
    (holds : Holds directory groups)
    (open_ : ∀ segment, wal.segment = some segment → IsLast groups segment)
    (sorts : Sorts directory wal extra) :
    ∃ after, Holds (ensureSegment directory wal extra).1 after ∧
      IsLast after (ensureSegment directory wal extra).2 ∧ entries after = entries groups ∧
      Preserves directory (ensureSegment directory wal extra).1 := by
  obtain ⟨middle, held, last, same, preserved⟩ := holds.current open_ sorts.resumes
  rw [ensureSegment]
  split
  · next full =>
    obtain ⟨after, heldAfter, lastAfter, sameAfter, later⟩ := held.create (sorts.rolls full)
    exact ⟨after, heldAfter, lastAfter, sameAfter.trans same, preserved.trans later⟩
  · exact ⟨middle, held, last, same, preserved⟩

/-! ## Runs -/

/-- The segments of the log are whole, in the order of their names, and hold what was kept. -/
def History.Sound (history : History) : Prop :=
  ∃ groups, Holds history.directory groups ∧ history.kept = entries groups ∧
    ∀ segment, history.wal.segment = some segment → IsLast groups segment

/-- An append writes its record behind the others and overwrites nothing. -/
theorem History.Sound.append {history : History} (sound : history.Sound) {kind : String}
    {payload : List UInt8} (allowed : history.Allows (.append kind payload)) :
    (history.step (.append kind payload)).Sound ∧
      Preserves history.directory (history.step (.append kind payload)).directory := by
  obtain ⟨groups, holds, kept, open_⟩ := sound
  rw [History.step]
  cases success : Log.append history.directory history.wal kind payload with
  | error raised => exact ⟨⟨groups, holds, kept, open_⟩, Preserves.refl _⟩
  | ok answer =>
    obtain ⟨⟨directory, wal⟩, lsn⟩ := answer
    obtain ⟨fits, _, written⟩ := append_ok _ _ _ _ _ _ success
    obtain ⟨after, held, ⟨front, last, split, isSegment⟩, same, preserved⟩ :=
      holds.ensure open_ allowed
    have isDirectory := congrArg Prod.fst written
    have isWal := congrArg (fun pair => pair.2.segment) written
    dsimp only [writeRecord] at isDirectory isWal ⊢
    rw [← nextRecord] at isDirectory isWal fits
    rw [isSegment] at isDirectory isWal
    have extended : directory.segments =
        (front ++ [(last.1, last.2 ++ [nextRecord history.wal kind payload])]).map Group.file := by
      rw [isDirectory, Directory.extend]
      dsimp only
      rw [held.files, split, List.map_append, List.map_append, List.map_append]
      have sorted := held.sorted
      rw [split, List.pairwise_append] at sorted
      congr 1
      · rw [List.map_map]
        apply List.map_congr_left
        intro group member
        refine if_neg fun sameIndex => ?_
        have below := sorted.2.2 group member last (List.mem_singleton.mpr rfl)
        rw [show group.1 = last.1 from sameIndex] at below
        exact name_asymm below below
      · show [if last.1 = last.1 then _ else _] = _
        rw [if_pos rfl, List.map_singleton, Group.file, Group.file, segmentBytes, segmentBytes,
          encodings_append, encodings_cons, encodings_nil, List.append_nil, List.append_assoc]
    have heldNow : Holds directory
        (front ++ [(last.1, last.2 ++ [nextRecord history.wal kind payload])]) := by
      have sorted := held.sorted
      rw [split, List.pairwise_append] at sorted
      refine ⟨extended, ?_, ?_⟩
      · rw [List.pairwise_append]
        refine ⟨sorted.1, List.pairwise_singleton _ _, ?_⟩
        intro group member other isLast
        rw [List.mem_singleton.mp isLast]
        exact sorted.2.2 group member last (List.mem_singleton.mpr rfl)
      · intro group member record inGroup
        rcases List.mem_append.mp member with inFront | isLast
        · exact held.fits group (split ▸ List.mem_append_left _ inFront) record inGroup
        · rw [List.mem_singleton.mp isLast] at inGroup
          rcases List.mem_append.mp inGroup with old | new
          · exact held.fits last (split ▸ List.mem_append_right _ (List.mem_singleton.mpr rfl))
              record old
          · rw [List.mem_singleton.mp new]
            exact fits
    refine ⟨⟨_, heldNow, ?_, ?_⟩, ?_⟩
    · dsimp only
      rw [isWal, kept, ← same, split]
      simp [entries]
    · intro segment isOpen
      dsimp only at isOpen
      rw [isWal] at isOpen
      cases isOpen
      refine ⟨front, _, rfl, ?_⟩
      rw [Segment.mk.injEq]
      refine ⟨rfl, ?_⟩
      rw [segment_bytes_length, segment_bytes_length, encodings_append, List.length_append,
        encodings_cons, encodings_nil, List.append_nil, Nat.add_assoc]
    · rw [isDirectory]
      exact preserved.trans (preserves_extend _ _ _)

/-- A truncation removes whole files, and not the open one. -/
theorem truncateSegments_filters (wal : Wal) (lsn : Nat) (files : List SegmentFile)
    (directory : Directory) (removed : Nat) :
    ∃ keeps : Nat → Bool, (∀ segment, wal.segment = some segment → keeps segment.index = true) ∧
      (truncateSegments wal lsn files directory removed).1.segments =
        directory.segments.filter fun file => keeps file.index := by
  have unchanged : ∃ keeps : Nat → Bool,
      (∀ segment, wal.segment = some segment → keeps segment.index = true) ∧
        directory.segments = directory.segments.filter fun file => keeps file.index :=
    ⟨fun _ => true, fun _ _ => rfl, (List.filter_eq_self.mpr fun _ _ => rfl).symm⟩
  induction files generalizing directory removed with
  | nil => exact unchanged
  | cons file files inductionHypothesis =>
    rw [truncateSegments]
    split
    · exact inductionHypothesis directory removed unchanged
    · next closed =>
      split
      · exact unchanged
      · split
        · obtain ⟨keeps, keepsOpen, filtered⟩ := inductionHypothesis (directory.unlink file.index)
            (removed + 1)
            ⟨fun _ => true, fun _ _ => rfl, (List.filter_eq_self.mpr fun _ _ => rfl).symm⟩
          refine ⟨fun index => keeps index && index != file.index, ?_, ?_⟩
          · intro segment isOpen
            show (keeps segment.index && segment.index != file.index) = true
            rw [keepsOpen segment isOpen, Bool.true_and, bne_iff_ne]
            intro same
            exact closed (by rw [isOpen, Option.map_some, same])
          · rw [filtered, Directory.unlink, List.filter_filter]
        · exact inductionHypothesis directory removed unchanged
      · exact inductionHypothesis directory removed unchanged

theorem entries_filter (keeps : Nat → Bool) (groups : List Group) :
    entries (groups.filter fun group => keeps group.1) =
      (entries groups).filter fun entry => keeps entry.1 := by
  induction groups with
  | nil => rfl
  | cons group groups inductionHypothesis =>
    have whole : (group.2.map fun record => (group.1, record)).filter (fun entry => keeps entry.1) =
        if keeps group.1 then group.2.map fun record => (group.1, record) else [] := by
      rw [List.filter_map]
      cases keep : keeps group.1 <;> simp [Function.comp_def, keep]
    rw [entries, entries, List.flatMap_cons, List.filter_append, whole, List.filter_cons]
    cases keeps group.1
    · exact inductionHypothesis
    · exact congrArg (_ ++ ·) inductionHypothesis

theorem History.Sound.truncate {history : History} (sound : history.Sound) (lsn : Nat) :
    (history.step (.truncate_before lsn)).Sound := by
  obtain ⟨groups, holds, kept, open_⟩ := sound
  obtain ⟨keeps, keepsOpen, filtered⟩ := truncateSegments_filters history.wal lsn
    (Log.walSegments history.directory) history.directory 0
  rw [← truncateBefore] at filtered
  have files : (truncateBefore history.directory history.wal lsn).1.segments =
      (groups.filter fun group => keeps group.1).map Group.file := by
    rw [filtered, holds.files, List.filter_map]
    rfl
  have held : Holds (truncateBefore history.directory history.wal lsn).1
      (groups.filter fun group => keeps group.1) :=
    ⟨files, holds.sorted.sublist List.filter_sublist,
      fun group member => holds.fits group (List.mem_of_mem_filter member)⟩
  refine ⟨_, held, ?_, ?_⟩
  · show history.kept.filter _ = _
    rw [entries_filter, kept]
    apply List.filter_congr
    intro entry member
    obtain ⟨group, among, inGroup⟩ := List.mem_flatMap.mp member
    obtain ⟨record, _, rfl⟩ := List.mem_map.mp inGroup
    have before : group.1 ∈ history.directory.indices := by
      rw [holds.indices]
      exact List.mem_map_of_mem among
    have after : group.1 ∈ (truncateBefore history.directory history.wal lsn).1.indices ↔
        keeps group.1 = true := by
      rw [held.indices, List.mem_map]
      constructor
      · rintro ⟨other, stays, same⟩
        rw [← same]
        exact (List.mem_filter.mp stays).2
      · exact fun stays => ⟨group, List.mem_filter.mpr ⟨among, stays⟩, rfl⟩
    dsimp only
    cases keep : keeps group.1 with
    | true => exact decide_eq_true fun gone => gone.2 (after.mpr keep)
    | false =>
      refine decide_eq_false (not_not_intro ⟨before, fun stays => ?_⟩)
      rw [after.mp stays] at keep
      cases keep
  · intro segment isOpen
    obtain ⟨front, last, split, rfl⟩ := open_ segment isOpen
    refine ⟨front.filter fun group => keeps group.1, last, ?_, rfl⟩
    have stays : keeps last.1 = true := keepsOpen _ isOpen
    rw [split, List.filter_append, List.filter_singleton, stays]
    rfl

theorem History.Sound.step {history : History} (sound : history.Sound) {operation : Operation}
    (allowed : history.Allows operation) : (history.step operation).Sound := by
  cases operation with
  | append kind payload => exact (sound.append allowed).1
  | truncate_before lsn => exact sound.truncate lsn
  | close =>
    obtain ⟨groups, holds, kept, _⟩ := sound
    exact ⟨groups, holds, kept, fun _ absurdity => nomatch absurdity⟩
  | reopen roll_size =>
    rw [History.step]
    cases opened : openWal history.directory roll_size with
    | error raised => exact sound
    | ok wal =>
      obtain ⟨groups, holds, kept, _⟩ := sound
      refine ⟨groups, holds, kept, ?_⟩
      rw [openWal] at opened
      split at opened
      · cases opened
      · obtain ⟨records, _, opened⟩ := except_bind_ok opened
        cases opened
        exact fun _ absurdity => nomatch absurdity

theorem History.Sound.run {history : History} (sound : history.Sound)
    {operations : List Operation} (allowed : history.AllowsAll operations) :
    (history.run operations).Sound := by
  induction operations generalizing history with
  | nil => exact sound
  | cons operation operations inductionHypothesis =>
    exact inductionHypothesis (sound.step allowed.1) allowed.2

/-- A payload whose record fills a segment of the smallest roll size. -/
def filler : List UInt8 := List.replicate 37 0

/-- The record of an append of the filler. -/
def fill (last : Nat) : WalRecord := { lsn := last + 1, prev_lsn := last, kind := "", payload := filler }

/-- A log in use for long: all segments but the last were removed, and that one is full. -/
def wornLog (index : Nat) : History :=
  { directory := { path := "wal", segments := [⟨index, segmentBytes [fill 0]⟩] }
    wal := { roll_size := 89, segment := none, last_lsn := 1 }
    kept := [(index, fill 0)] }

/-- That log after one more append. -/
def rolledLog (index : Nat) : History :=
  { directory := { path := "wal", segments :=
      [⟨index, segmentBytes [fill 0]⟩, ⟨index + 1, segmentBytes [fill 1]⟩] }
    wal := { roll_size := 89, segment := some ⟨index + 1, 89⟩, last_lsn := 2 }
    kept := [(index, fill 0), (index + 1, fill 1)] }

theorem fill_length (last : Nat) : (fill last).bytes.length = 65 := by
  rw [bytes_length]
  rfl

theorem fill_fits {last : Nat} (small : last + 1 < 256 ^ 8) : (fill last).Fits :=
  ⟨small, Nat.lt_of_succ_lt small, show (utf8 "").length < 256 ^ 4 by decide,
    show filler.length < 256 ^ 4 by decide⟩

theorem full_length (last : Nat) : (segmentBytes [fill last]).length = 89 := by
  rw [segment_bytes_length, encodings_cons, encodings_nil, List.append_nil, fill_length]
  rfl

theorem wornLog_sound (index : Nat) : (wornLog index).Sound := by
  refine ⟨[(index, [fill 0])], ⟨rfl, List.pairwise_singleton _ _, ?_⟩, rfl,
    fun _ absurdity => nomatch absurdity⟩
  intro group member record inGroup
  rw [List.mem_singleton.mp member] at inGroup
  rw [List.mem_singleton.mp inGroup]
  exact fill_fits (by decide)

theorem wornLog_last (index : Nat) : (Log.walSegments (wornLog index).directory).getLast? =
    some ⟨index, segmentBytes [fill 0]⟩ := by
  rw [Log.walSegments, wornLog]
  dsimp only
  rw [List.mergeSort_singleton]
  rfl

/-- An append to the worn log starts the next segment. -/
theorem wornLog_current (index : Nat) :
    currentSegment (wornLog index).directory (wornLog index).wal =
      ({ path := "wal", segments := [⟨index, segmentBytes [fill 0]⟩, ⟨index + 1, packHeader⟩] },
        ⟨index + 1, HEADER_SIZE⟩) := by
  have full : ¬ (segmentBytes [fill 0]).length < (wornLog index).wal.roll_size := by
    rw [full_length]
    exact Nat.lt_irrefl 89
  have stays : ([⟨index, segmentBytes [fill 0]⟩] : List SegmentFile).filter
      (·.index != index + 1) = [⟨index, segmentBytes [fill 0]⟩] := by
    simp
  show resumeOrCreate (wornLog index).directory (wornLog index).wal = _
  rw [resumeOrCreate, wornLog_last]
  dsimp only
  rw [if_neg full, createNewSegment, wornLog_last, Directory.put]
  dsimp only
  rw [wornLog]
  dsimp only
  rw [stays]
  rfl

/-- An append to a log whose next record has the length of the filler's. -/
theorem append_fill (directory : Directory) (wal : Wal) (small : wal.last_lsn + 1 < 256 ^ 8) :
    append directory wal "" filler =
      .ok (writeRecord directory wal (fill wal.last_lsn).bytes, wal.last_lsn + 1) :=
  append_entry directory wal ⟨"", filler, by decide, by decide⟩ small

theorem wornLog_append (index : Nat) :
    (wornLog index).step (.append "" filler) = rolledLog index := by
  have room : ¬ HEADER_SIZE + 65 > 89 := by decide
  have ensures : ensureSegment (wornLog index).directory (wornLog index).wal 65 =
      ({ path := "wal", segments := [⟨index, segmentBytes [fill 0]⟩, ⟨index + 1, packHeader⟩] },
        ⟨index + 1, HEADER_SIZE⟩) := by
    rw [ensureSegment, wornLog_current]
    exact if_neg room
  have extends_ : Directory.extend
      { path := "wal", segments := [⟨index, segmentBytes [fill 0]⟩, ⟨index + 1, packHeader⟩] }
      (index + 1) (fill 1).bytes = (rolledLog index).directory := by
    simp [Directory.extend, rolledLog, segmentBytes]
  have small : (wornLog index).wal.last_lsn + 1 < 256 ^ 8 := show 2 < 256 ^ 8 by decide
  rw [History.step, append_fill _ _ small, writeRecord, fill_length, ensures]
  dsimp only
  rw [show (wornLog index).wal.last_lsn = 1 from rfl, extends_]
  rfl

theorem two_sorted {first second : SegmentFile} (names : segmentName second.index <
    segmentName first.index) : [first, second].mergeSort nameLe = [second, first] := by
  have order : nameLe first second = false := by
    rw [nameLe, Bool.not_eq_false', decide_eq_true_eq]
    exact names
  simp [List.mergeSort, order]

/-- Where the next name sorts before the last one, the log reads out of order, and the second of two
further appends overwrites the segment that the first one started. -/
theorem overwritten_of_names {index : Nat} (names : segmentName (index + 1) < segmentName index) :
    iterAllRecords ((wornLog index).run [.append "" filler]).directory ≠
      .ok (((wornLog index).run [.append "" filler]).kept.map Prod.snd) ∧
    ¬ Preserves ((wornLog index).run [.append "" filler]).directory
      (((wornLog index).run [.append "" filler]).step (.append "" filler)).directory := by
  have rolled : (wornLog index).run [.append "" filler] = rolledLog index := wornLog_append index
  have sorted : Log.walSegments (rolledLog index).directory =
      [⟨index + 1, segmentBytes [fill 1]⟩, ⟨index, segmentBytes [fill 0]⟩] := two_sorted names
  have reads : ∀ last path, last + 1 < 256 ^ 8 →
      iterSegmentRecords path (segmentBytes [fill last]) = .ok [fill last] := by
    intro last path small
    have read := iter_segment_bytes path [fill last] (by
      intro record member
      rw [List.mem_singleton.mp member]
      exact fill_fits small) [] read_record_nil
    rwa [List.append_nil] at read
  rw [rolled]
  constructor
  · have backwards : iterAllRecords (rolledLog index).directory = .ok [fill 1, fill 0] := by
      rw [iterAllRecords, sorted, iterSegments, iterSegments, iterSegments, reads 1 _ (by decide),
        reads 0 _ (by decide)]
      rfl
    rw [backwards]
    intro same
    have lsns := congrArg (List.map WalRecord.lsn) (Except.ok.inj same)
    exact absurd lsns (show ([2, 1] : List Nat) ≠ [1, 2] by decide)
  · have overwritten : ((rolledLog index).step (.append "" filler)).directory.segments =
        [⟨index, segmentBytes [fill 0]⟩, ⟨index + 1, segmentBytes [fill 2]⟩] := by
      have full : 89 + 65 > 89 := by decide
      have stays : ([⟨index, segmentBytes [fill 0]⟩, ⟨index + 1, segmentBytes [fill 1]⟩] :
          List SegmentFile).filter (·.index != index + 1) = [⟨index, segmentBytes [fill 0]⟩] := by
        simp
      have ensures : ensureSegment (rolledLog index).directory (rolledLog index).wal 65 =
          ({ path := "wal", segments := [⟨index, segmentBytes [fill 0]⟩, ⟨index + 1, packHeader⟩] },
            ⟨index + 1, HEADER_SIZE⟩) := by
        show (if 89 + 65 > 89 then createNewSegment (rolledLog index).directory
          else ((rolledLog index).directory, ⟨index + 1, 89⟩)) = _
        rw [if_pos full, createNewSegment, sorted, Directory.put, rolledLog]
        simp only [List.getLast?_cons_cons, List.getLast?_singleton]
        rw [stays]
        rfl
      have small : (rolledLog index).wal.last_lsn + 1 < 256 ^ 8 := show 3 < 256 ^ 8 by decide
      rw [History.step, append_fill _ _ small, writeRecord, fill_length, ensures]
      simp [Directory.extend, rolledLog, segmentBytes]
    intro preserves
    obtain ⟨other, there, same, held⟩ := preserves ⟨index + 1, segmentBytes [fill 1]⟩
      (List.mem_cons_of_mem _ List.mem_cons_self)
    rw [overwritten] at there
    have isOther : other = ⟨index + 1, segmentBytes [fill 2]⟩ := by
      rcases List.mem_cons.mp there with first | later
      · rw [first] at same
        exact absurd same (Nat.ne_of_lt (Nat.lt_succ_self index))
      · exact List.mem_singleton.mp later
    rw [isOther] at held
    have whole : segmentBytes [fill 1] = segmentBytes [fill 2] :=
      held.eq_of_length ((full_length 1).trans (full_length 2).symm)
    have read := reads 1 "" (by decide)
    rw [whole, reads 2 "" (by decide)] at read
    have lsns := congrArg (List.map WalRecord.lsn) (Except.ok.inj read)
    exact absurd lsns (show ([3] : List Nat) ≠ [2] by decide)

end CaracalDB.Rolling
