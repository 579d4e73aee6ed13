import Mathlib.Order.Bounds.Basic
import Mathlib.Data.List.Perm.Basic
import CaracalDB.WalRun

/-!
# Directories as groups of records

A directory that only well-behaved writers touched shows a list of groups, one
for each file, in no particular order. Reading, starting, extending and deleting
files become operations on groups. Nothing here depends on the order in which
file names sort.
-/

namespace CaracalDB.Log

open Bytes

/-- The records of one segment file. -/
structure Group where
  index : Nat
  records : List WalRecord

def Group.file (group : Group) : SegmentFile :=
  { index := group.index, data := segmentBytes group.records }

/-- A directory holds exactly the files of the groups: their numbers differ, their
records fit the format, and LSNs increase inside each file. -/
structure Shows (directory : Directory) (groups : List Group) : Prop where
  files : directory.segments = groups.map Group.file
  fits : ∀ group ∈ groups, ∀ record ∈ group.records, record.Fits
  distinct : (groups.map Group.index).Nodup
  increasing : ∀ group ∈ groups, (group.records.map WalRecord.lsn).Pairwise (· < ·)

/-- A group's file reads as the group's records. -/
theorem Group.read (group : Group) (fits : ∀ record ∈ group.records, record.Fits) (path : String) :
    iterSegmentRecords path group.file.data = .ok group.records := by
  have read := iter_segment_bytes path group.records fits [] read_record_nil
  rwa [List.append_nil] at read

/-- Groups read as all their records, in the order they are visited. -/
theorem iter_groups (directory : Directory) (groups : List Group)
    (fits : ∀ group ∈ groups, ∀ record ∈ group.records, record.Fits) :
    iterSegments directory (groups.map Group.file) = .ok (groups.flatMap Group.records) := by
  induction groups with
  | nil => rfl
  | cons group rest inductionHypothesis =>
    have first (path : String) := group.read (fits group List.mem_cons_self) path
    have behind := inductionHypothesis fun later member =>
      fits later (List.mem_cons_of_mem _ member)
    rw [List.map_cons, iterSegments, first]
    simp only [bind, Except.bind, behind, pure, Except.pure, List.flatMap_cons]

/-- The files in the order of their names are the groups in some order. -/
theorem Shows.sorted {directory : Directory} {groups : List Group}
    (shows : Shows directory groups) :
    ∃ sorted : List Group, sorted.Perm groups ∧ walSegments directory = sorted.map Group.file := by
  refine ⟨groups.mergeSort fun left right => nameLe left.file right.file,
    List.mergeSort_perm .., ?_⟩
  rw [walSegments, shows.files]
  exact (List.map_mergeSort (f := Group.file) fun _ _ _ _ => rfl).symm

/-- Every record of a group is read, and nothing else. -/
theorem Shows.read {directory : Directory} {groups : List Group}
    (shows : Shows directory groups) : ∃ records, iterAllRecords directory = .ok records ∧
      ∀ record, record ∈ records ↔ ∃ group ∈ groups, record ∈ group.records := by
  obtain ⟨sorted, reordered, files⟩ := shows.sorted
  refine ⟨sorted.flatMap Group.records, ?_, ?_⟩
  · rw [iterAllRecords, files]
    apply iter_groups
    intro group member
    exact shows.fits group (reordered.mem_iff.mp member)
  · intro record
    simp only [List.mem_flatMap, reordered.mem_iff]

/-- The last file by name belongs to a group. -/
theorem Shows.last_file {directory : Directory} {groups : List Group}
    (shows : Shows directory groups) {tail : SegmentFile}
    (last : (walSegments directory).getLast? = some tail) :
    ∃ group ∈ groups, group.index = tail.index := by
  obtain ⟨sorted, reordered, files⟩ := shows.sorted
  have member := List.mem_of_getLast? last
  rw [files, List.mem_map] at member
  obtain ⟨group, present, rfl⟩ := member
  exact ⟨group, reordered.mem_iff.mp present, rfl⟩

/-- Writing an empty segment replaces the group of that number. -/
theorem Shows.put {directory : Directory} {groups : List Group}
    (shows : Shows directory groups) (index : Nat) :
    Shows (directory.put index packHeader)
      (groups.filter (·.index != index) ++ [⟨index, []⟩]) := by
  constructor
  · simp only [Directory.put, shows.files, List.map_append, List.filter_map]
    simp [Group.file, segmentBytes, Function.comp_def]
  · intro group member
    rcases List.mem_append.mp member with kept | added
    · exact shows.fits group (List.mem_filter.mp kept).1
    · rw [List.mem_singleton.mp added]
      intro record nothing
      cases nothing
  · rw [List.map_append, List.map_singleton, List.nodup_append]
    refine ⟨shows.distinct.sublist (List.filter_sublist.map _), List.nodup_singleton _, ?_⟩
    intro kept member added isAdded
    obtain ⟨group, inside, rfl⟩ := List.mem_map.mp member
    rw [List.mem_singleton.mp isAdded]
    simpa using (List.mem_filter.mp inside).2
  · intro group member
    rcases List.mem_append.mp member with kept | added
    · exact shows.increasing group (List.mem_filter.mp kept).1
    · rw [List.mem_singleton.mp added]
      exact List.Pairwise.nil

/-- Deleting a file drops its group. -/
theorem Shows.unlink {directory : Directory} {groups : List Group}
    (shows : Shows directory groups) (index : Nat) :
    Shows (directory.unlink index) (groups.filter (·.index != index)) := by
  constructor
  · simp only [Directory.unlink, shows.files, List.filter_map]
    rfl
  · intro group member
    exact shows.fits group (List.mem_filter.mp member).1
  · exact shows.distinct.sublist (List.filter_sublist.map _)
  · intro group member
    exact shows.increasing group (List.mem_filter.mp member).1

/-- The group of a given number gets another record. -/
def Group.extend (index : Nat) (record : WalRecord) (group : Group) : Group :=
  if group.index = index then { group with records := group.records ++ [record] } else group

@[simp] theorem Group.extend_index (index : Nat) (record : WalRecord) (group : Group) :
    (group.extend index record).index = group.index := by
  unfold Group.extend
  split <;> rfl

/-- Writing a record that is newer than all others to a file. -/
theorem Shows.extend {directory : Directory} {groups : List Group}
    (shows : Shows directory groups) (index : Nat) (record : WalRecord) (fits : record.Fits)
    (newest : ∀ group ∈ groups, ∀ older ∈ group.records, older.lsn < record.lsn) :
    Shows (directory.extend index record.bytes) (groups.map (Group.extend index record)) := by
  constructor
  · simp only [Directory.extend, shows.files, List.map_map]
    apply List.map_congr_left
    intro group member
    by_cases same : group.index = index
    · simp [Group.file, Group.extend, same, segmentBytes]
    · simp [Group.file, Group.extend, same]
  · intro group member
    obtain ⟨old, present, rfl⟩ := List.mem_map.mp member
    intro any inside
    unfold Group.extend at inside
    split at inside
    · rcases List.mem_append.mp inside with older | added
      · exact shows.fits old present any older
      · rw [List.mem_singleton.mp added]
        exact fits
    · exact shows.fits old present any inside
  · have same : groups.map (Group.index ∘ Group.extend index record) = groups.map Group.index := by
      apply List.map_congr_left
      intro group member
      exact group.extend_index index record
    rw [List.map_map, same]
    exact shows.distinct
  · intro group member
    obtain ⟨old, present, rfl⟩ := List.mem_map.mp member
    have before := shows.increasing old present
    unfold Group.extend
    split
    · rw [List.map_append, List.pairwise_append]
      refine ⟨before, List.pairwise_singleton .., ?_⟩
      intro lsn older added isAdded
      obtain ⟨any, inside, rfl⟩ := List.mem_map.mp older
      simp only [List.map_singleton, List.mem_singleton] at isAdded
      rw [isAdded]
      exact newest old present any inside
    · exact before

/-- LSNs of the records in a directory. -/
def Directory.lsns (directory : Directory) : Set Nat :=
  { lsn | ∃ records, iterAllRecords directory = .ok records ∧ lsn ∈ records.map WalRecord.lsn }

/-- The LSNs of a directory are those of its groups. -/
theorem Shows.lsns {directory : Directory} {groups : List Group} (shows : Shows directory groups)
    (lsn : Nat) :
    lsn ∈ directory.lsns ↔ ∃ group ∈ groups, ∃ record ∈ group.records, record.lsn = lsn := by
  obtain ⟨records, read, same⟩ := shows.read
  constructor
  · rintro ⟨found, again, member⟩
    rw [read] at again
    cases again
    obtain ⟨record, inside, rfl⟩ := List.mem_map.mp member
    obtain ⟨group, present, isRecord⟩ := (same record).mp inside
    exact ⟨group, present, record, isRecord, rfl⟩
  · rintro ⟨group, present, record, isRecord, rfl⟩
    exact ⟨records, read, List.mem_map_of_mem ((same record).mpr ⟨group, present, isRecord⟩)⟩

/-- A log reads as empty exactly when no LSN survives in it. -/
theorem Shows.lsns_empty {directory : Directory} {groups : List Group}
    (shows : Shows directory groups) :
    directory.lsns = ∅ ↔ iterAllRecords directory = .ok [] := by
  obtain ⟨records, read, _⟩ := shows.read
  rw [read]
  constructor
  · intro empty
    cases records with
    | nil => rfl
    | cons record rest =>
      have member : record.lsn ∈ directory.lsns := ⟨_, read, by simp⟩
      rw [empty] at member
      cases member
  · intro nothing
    cases nothing
    rw [Set.eq_empty_iff_forall_notMem]
    rintro lsn ⟨found, again, member⟩
    rw [read] at again
    cases again
    cases member

/-- What holds of the files, the handle and the manifest after every operation:
the files show groups, and an open segment holds the newest record. -/
structure Kept (directory : Directory) (wal : Wal) (groups : List Group) : Prop where
  shows : Shows directory groups
  active : ∀ segment, wal.segment = some segment →
    ∃ group ∈ groups, group.index = segment.index ∧
      ∃ record ∈ group.records, record.lsn = wal.last_lsn

/-- Starting a segment adds an empty group and may drop one. -/
theorem Shows.create {directory : Directory} {groups : List Group}
    (shows : Shows directory groups) : ∃ after,
      Shows (createNewSegment directory).1 after ∧
      (∃ group ∈ after, group.index = (createNewSegment directory).2.index) ∧
      ∀ group ∈ after, ∀ record ∈ group.records, ∃ old ∈ groups, record ∈ old.records := by
  refine ⟨_, shows.put (createNewSegment directory).2.index, ?_, ?_⟩
  · exact ⟨⟨_, []⟩, List.mem_append.mpr (Or.inr (List.mem_singleton.mpr rfl)), rfl⟩
  · intro group member record inside
    rcases List.mem_append.mp member with kept | added
    · exact ⟨group, (List.mem_filter.mp kept).1, inside⟩
    · rw [List.mem_singleton.mp added] at inside
      cases inside

/-- Finding the segment to write to adds no record, and its group is there. -/
theorem Kept.ensure {directory : Directory} {wal : Wal} {groups : List Group}
    (kept : Kept directory wal groups) (extra : Nat) : ∃ after,
      Shows (ensureSegment directory wal extra).1 after ∧
      (∃ group ∈ after, group.index = (ensureSegment directory wal extra).2.index) ∧
      ∀ group ∈ after, ∀ record ∈ group.records, ∃ old ∈ groups, record ∈ old.records := by
  have current : ∃ after, Shows (currentSegment directory wal).1 after ∧
      (∃ group ∈ after, group.index = (currentSegment directory wal).2.index) ∧
      ∀ group ∈ after, ∀ record ∈ group.records, ∃ old ∈ groups, record ∈ old.records := by
    have unchanged (group : Group) (member : group ∈ groups) (record : WalRecord)
        (inside : record ∈ group.records) : ∃ old ∈ groups, record ∈ old.records :=
      ⟨group, member, inside⟩
    unfold currentSegment
    cases opened : wal.segment with
    | some segment =>
      obtain ⟨group, member, same, _⟩ := kept.active segment opened
      exact ⟨groups, kept.shows, ⟨group, member, same⟩, unchanged⟩
    | none =>
      simp only [resumeOrCreate]
      cases last : (walSegments directory).getLast? with
      | none => exact kept.shows.create
      | some tail =>
        simp only
        split
        · exact ⟨groups, kept.shows, kept.shows.last_file last, unchanged⟩
        · exact kept.shows.create
  obtain ⟨middle, shows, present, known⟩ := current
  simp only [ensureSegment]
  split
  · obtain ⟨after, again, there, old⟩ := shows.create
    refine ⟨after, again, there, ?_⟩
    intro group member record inside
    obtain ⟨previous, isPrevious, again⟩ := old group member record inside
    exact known previous isPrevious record again
  · exact ⟨middle, shows, present, known⟩

/-- An append adds its record, drops records at most, and keeps its segment open
with that record in it. -/
theorem Kept.write {directory : Directory} {wal : Wal} {groups : List Group}
    (kept : Kept directory wal groups) (record : WalRecord) (fits : record.Fits)
    (lsn : record.lsn = wal.last_lsn + 1)
    (newest : ∀ older ∈ directory.lsns, older ≤ wal.last_lsn) : ∃ after,
      Kept (writeRecord directory wal record.bytes).1 (writeRecord directory wal record.bytes).2
        after ∧
      record.lsn ∈ (writeRecord directory wal record.bytes).1.lsns ∧
      ∀ any ∈ (writeRecord directory wal record.bytes).1.lsns,
        any = record.lsn ∨ any ∈ directory.lsns := by
  obtain ⟨middle, shows, ⟨target, isTarget, index⟩, known⟩ := kept.ensure record.bytes.length
  have older : ∀ group ∈ middle, ∀ any ∈ group.records, any.lsn < record.lsn := by
    intro group member any inside
    obtain ⟨old, present, again⟩ := known group member any inside
    rw [lsn]
    exact Nat.lt_succ_of_le (newest _ ((kept.shows.lsns _).mpr ⟨old, present, any, again, rfl⟩))
  have extended := shows.extend (ensureSegment directory wal record.bytes.length).2.index record fits
    older
  have added : target.extend (ensureSegment directory wal record.bytes.length).2.index record ∈
      middle.map (Group.extend (ensureSegment directory wal record.bytes.length).2.index record) :=
    List.mem_map_of_mem isTarget
  have inside : record ∈
      (target.extend (ensureSegment directory wal record.bytes.length).2.index record).records := by
    simp [Group.extend, index]
  refine ⟨_, ⟨extended, ?_⟩, (extended.lsns _).mpr ⟨_, added, record, inside, rfl⟩, ?_⟩
  · rintro segment opened
    simp only [writeRecord, Option.some.injEq] at opened
    refine ⟨_, added, ?_, record, inside, lsn⟩
    rw [← opened, Group.extend_index]
    exact index
  · intro any member
    obtain ⟨group, present, found, isFound, rfl⟩ := (extended.lsns any).mp member
    obtain ⟨old, wasThere, rfl⟩ := List.mem_map.mp present
    unfold Group.extend at isFound
    split at isFound
    · rcases List.mem_append.mp isFound with before | newer
      · obtain ⟨group, present, again⟩ := known old wasThere found before
        exact Or.inr ((kept.shows.lsns _).mpr ⟨group, present, found, again, rfl⟩)
      · exact Or.inl (congrArg WalRecord.lsn (List.mem_singleton.mp newer))
    · obtain ⟨group, present, again⟩ := known old wasThere found isFound
      exact Or.inr ((kept.shows.lsns _).mpr ⟨group, present, found, again, rfl⟩)

/-- The groups a truncation deletes: those with records, all of them covered, that
are not the open segment. -/
def Group.Pruned (wal : Wal) (lsn : Nat) (group : Group) : Prop :=
  wal.segment.map Segment.index ≠ some group.index ∧
    ∃ record, group.records.getLast? = some record ∧ record.lsn ≤ lsn

/-- The loop of a truncation never fails on groups, and deletes the pruned ones. -/
theorem truncate_segments_groups (wal : Wal) (lsn : Nat) (visited : List Group)
    (directory : Directory) (groups : List Group) (shows : Shows directory groups) (removed : Nat)
    (fits : ∀ group ∈ visited, ∀ record ∈ group.records, record.Fits) :
    ∃ final count after,
      truncateSegments wal lsn (visited.map Group.file) directory removed = (final, .ok count) ∧
      Shows final after ∧ ∀ group, group ∈ after ↔
        group ∈ groups ∧ ∀ other ∈ visited, other.index = group.index → ¬ other.Pruned wal lsn := by
  induction visited generalizing directory groups removed with
  | nil =>
    refine ⟨directory, removed, groups, rfl, shows, ?_⟩
    intro group
    simp
  | cons first rest inductionHypothesis =>
    have restFits : ∀ group ∈ rest, ∀ record ∈ group.records, record.Fits :=
      fun group member => fits group (List.mem_cons_of_mem _ member)
    have skipped (kept : ¬ first.Pruned wal lsn) : ∃ final count after,
        truncateSegments wal lsn (rest.map Group.file) directory removed = (final, .ok count) ∧
        Shows final after ∧ ∀ group, group ∈ after ↔ group ∈ groups ∧
          ∀ other ∈ first :: rest, other.index = group.index → ¬ other.Pruned wal lsn := by
      obtain ⟨final, count, after, run, shown, same⟩ :=
        inductionHypothesis directory groups shows removed restFits
      refine ⟨final, count, after, run, shown, ?_⟩
      intro group
      rw [same, List.forall_mem_cons]
      exact and_congr_right fun _ => (and_iff_right fun _ => kept).symm
    have reading : segmentMaxLsn directory first.file =
        .ok (first.records.getLast?.map WalRecord.lsn) := by
      simp only [segmentMaxLsn, first.read (fits first List.mem_cons_self), bind, Except.bind, pure,
        Except.pure]
    simp only [List.map_cons, truncateSegments, reading]
    by_cases opened : wal.segment.map Segment.index = some first.index
    · simp only [Group.file, opened, ↓reduceIte]
      exact skipped fun pruned => pruned.1 opened
    · simp only [Group.file, opened, ↓reduceIte]
      cases newest : first.records.getLast? with
      | none =>
        simp only [Option.map_none]
        apply skipped
        rintro ⟨_, record, isLast, _⟩
        rw [newest] at isLast
        cases isLast
      | some record =>
        simp only [Option.map_some]
        by_cases covered : record.lsn ≤ lsn
        · simp only [covered, ↓reduceIte]
          obtain ⟨final, count, after, run, shown, same⟩ := inductionHypothesis
            (directory.unlink first.index) _ (shows.unlink first.index) (removed + 1) restFits
          refine ⟨final, count, after, run, shown, ?_⟩
          intro group
          have pruned : first.Pruned wal lsn := ⟨opened, record, newest, covered⟩
          rw [same, List.forall_mem_cons, List.mem_filter, bne_iff_ne]
          constructor
          · rintro ⟨⟨member, other⟩, later⟩
            exact ⟨member, fun index => absurd index.symm other, later⟩
          · rintro ⟨member, other, later⟩
            exact ⟨⟨member, fun index => other index.symm pruned⟩, later⟩
        · simp only [covered, ↓reduceIte]
          apply skipped
          rintro ⟨_, other, isLast, again⟩
          rw [newest] at isLast
          cases isLast
          exact covered again

/-- A truncation deletes exactly the pruned groups. -/
theorem Shows.truncate {directory : Directory} {groups : List Group}
    (shows : Shows directory groups) (wal : Wal) (lsn : Nat) : ∃ final count after,
      truncateBefore directory wal lsn = (final, .ok count) ∧ Shows final after ∧
      ∀ group, group ∈ after ↔ group ∈ groups ∧ ¬ group.Pruned wal lsn := by
  obtain ⟨sorted, reordered, files⟩ := shows.sorted
  obtain ⟨final, count, after, run, shown, same⟩ := truncate_segments_groups wal lsn sorted directory
    groups shows 0 fun group member => shows.fits group (reordered.mem_iff.mp member)
  rw [← files] at run
  refine ⟨final, count, after, run, shown, ?_⟩
  intro group
  rw [same]
  constructor
  · rintro ⟨member, kept⟩
    exact ⟨member, kept group (reordered.mem_iff.mpr member) rfl⟩
  · rintro ⟨member, kept⟩
    refine ⟨member, ?_⟩
    intro other present index
    have identical : other = group :=
      List.inj_on_of_nodup_map shows.distinct (reordered.mem_iff.mp present) member index
    rwa [identical]

/-- The last record of a group is its newest. -/
theorem Shows.last_newest {directory : Directory} {groups : List Group}
    (shows : Shows directory groups) {group : Group} (member : group ∈ groups)
    {record : WalRecord} (inside : record ∈ group.records) :
    ∃ newest, group.records.getLast? = some newest ∧ newest ∈ group.records ∧
      record.lsn ≤ newest.lsn := by
  have increasing := shows.increasing group member
  obtain ⟨front, newest, split⟩ : ∃ front newest, group.records = front ++ [newest] := by
    rcases List.eq_nil_or_concat group.records with nothing | ⟨front, newest, split⟩
    · rw [nothing] at inside
      cases inside
    · exact ⟨front, newest, by rw [split, List.concat_eq_append]⟩
  refine ⟨newest, by rw [split, List.getLast?_concat], by rw [split]; simp, ?_⟩
  rw [split, List.map_append, List.pairwise_append] at increasing
  rw [split] at inside
  rcases List.mem_append.mp inside with older | same
  · exact Nat.le_of_lt (increasing.2.2 _ (List.mem_map_of_mem older) _ (by simp))
  · rw [List.mem_singleton.mp same]

/-- A truncation forgets LSNs, but not the newest one unless it forgets all. -/
theorem Kept.truncate {directory : Directory} {wal : Wal} {groups : List Group}
    (kept : Kept directory wal groups) (lsn : Nat)
    (bounded : ∀ any ∈ directory.lsns, any ≤ wal.last_lsn)
    (newest : directory.lsns.Nonempty → wal.last_lsn ∈ directory.lsns) :
    ∃ final count after, truncateBefore directory wal lsn = (final, .ok count) ∧
      Kept final wal after ∧ after ⊆ groups ∧ final.lsns ⊆ directory.lsns ∧
      (final.lsns.Nonempty → wal.last_lsn ∈ final.lsns) := by
  obtain ⟨final, count, after, run, shows, same⟩ := kept.shows.truncate wal lsn
  have activeKept (segment : Segment) (opened : wal.segment = some segment) : ∃ group ∈ after,
      group.index = segment.index ∧ ∃ record ∈ group.records, record.lsn = wal.last_lsn := by
    obtain ⟨group, member, index, found⟩ := kept.active segment opened
    refine ⟨group, (same group).mpr ⟨member, ?_⟩, index, found⟩
    rintro ⟨other, _⟩
    rw [opened, index] at other
    exact other rfl
  refine ⟨final, count, after, run, ⟨shows, activeKept⟩,
    fun group member => ((same group).mp member).1, ?_, ?_⟩
  · intro any survives
    obtain ⟨group, member, record, inside, rfl⟩ := (shows.lsns any).mp survives
    exact (kept.shows.lsns _).mpr ⟨group, ((same group).mp member).1, record, inside, rfl⟩
  · rintro ⟨any, survives⟩
    obtain ⟨group, member, record, inside, _⟩ := (shows.lsns any).mp survives
    obtain ⟨present, notPruned⟩ := (same group).mp member
    rw [shows.lsns]
    cases opened : wal.segment with
    | some segment =>
      obtain ⟨group, member, _, found⟩ := activeKept segment opened
      exact ⟨group, member, found⟩
    | none =>
      obtain ⟨last, isLast, lastInside, _⟩ := kept.shows.last_newest present inside
      have above : lsn < last.lsn := by
        by_contra covered
        exact notPruned ⟨by simp [opened], last, isLast, by omega⟩
      have lastSurvives : last.lsn ∈ directory.lsns :=
        (kept.shows.lsns _).mpr ⟨group, present, last, lastInside, rfl⟩
      obtain ⟨holder, isHolder, top, topInside, isTop⟩ :=
        (kept.shows.lsns _).mp (newest ⟨_, lastSurvives⟩)
      refine ⟨holder, (same holder).mpr ⟨isHolder, ?_⟩, top, topInside, isTop⟩
      rintro ⟨_, lastThere, isLastThere, covered⟩
      obtain ⟨newestThere, again, _, below⟩ := kept.shows.last_newest isHolder topInside
      rw [isLastThere] at again
      cases again
      have bound := bounded last.lsn lastSurvives
      omega

/-- Folding with the maximum finds the largest element, or the start. -/
theorem foldl_max_greatest (numbers : List Nat) (start : Nat) :
    (numbers.foldl max start = start ∨ numbers.foldl max start ∈ numbers) ∧
      start ≤ numbers.foldl max start ∧ ∀ number ∈ numbers, number ≤ numbers.foldl max start := by
  induction numbers generalizing start with
  | nil => exact ⟨Or.inl rfl, Nat.le_refl _, fun _ member => nomatch member⟩
  | cons first rest inductionHypothesis =>
    obtain ⟨source, above, all⟩ := inductionHypothesis (max start first)
    rw [List.foldl_cons]
    refine ⟨?_, Nat.le_trans (Nat.le_max_left start first) above, ?_⟩
    · rcases source with same | member
      · rw [same]
        rcases Nat.le_total start first with below | below
        · exact Or.inr (by rw [Nat.max_eq_right below]; exact List.mem_cons_self)
        · exact Or.inl (Nat.max_eq_left below)
      · exact Or.inr (List.mem_cons_of_mem _ member)
    · intro number member
      rcases List.mem_cons.mp member with rfl | later
      · exact Nat.le_trans (Nat.le_max_right start number) above
      · exact all number later

/-- A handle that opens a directory of groups continues from the largest LSN that
survives. -/
theorem Shows.open {directory : Directory} {groups : List Group} (shows : Shows directory groups)
    (roll_size : Nat) (wal : Wal) (opened : openWal directory roll_size = .ok wal) :
    wal.segment = none ∧ (IsGreatest directory.lsns wal.last_lsn ∨
      (directory.lsns = ∅ ∧ wal.last_lsn = 0)) := by
  obtain ⟨records, read, _⟩ := shows.read
  rw [openWal, read] at opened
  split at opened
  · cases opened
  simp only [bind, Except.bind, pure, Except.pure, Except.ok.injEq] at opened
  subst opened
  refine ⟨rfl, ?_⟩
  have survives (lsn : Nat) : lsn ∈ directory.lsns ↔ lsn ∈ records.map WalRecord.lsn := by
    constructor
    · rintro ⟨found, again, member⟩
      rw [read] at again
      cases again
      exact member
    · exact fun member => ⟨records, read, member⟩
  obtain ⟨source, _, all⟩ := foldl_max_greatest (records.map WalRecord.lsn) 0
  cases records with
  | nil =>
    right
    rw [shows.lsns_empty]
    exact ⟨read, rfl⟩
  | cons first rest =>
    left
    constructor
    · rcases source with zero | member
      · have firstZero := all first.lsn (by simp)
        rw [zero] at firstZero
        dsimp only
        rw [zero, survives]
        simp [Nat.le_zero.mp firstZero]
      · exact (survives _).mpr member
    · intro lsn member
      exact all lsn ((survives lsn).mp member)

end CaracalDB.Log
