import Mathlib.Data.List.Chain
import Mathlib.Data.List.Basic
import Mathlib.Tactic.Ring

/-!
# Runs and flat segments

A list of segments is often kept flat: the items of all segments in one array, each with a copy of
what the segment belongs to. Arithmetic on the lengths gives the indices of the items without a loop;
and where neighboring segments belong to different things, the places at which the copies change give
the segments back. Equal neighbors are one run, and so one segment.
-/

namespace CaracalDB.Runs

/-! ## Flat arrays -/

/-- Each item as often as the count at its place says. -/
def repeatEach {Item : Type} (items : List Item) (counts : List Nat) : List Item :=
  (items.zip counts).flatMap fun entry => List.replicate entry.2 entry.1

/-- The sums of the numbers up to each place. -/
def cumsum (numbers : List Int) : List Int := (numbers.scanl (· + ·) 0).tail

/-- The numbers below a bound. -/
def arange (bound : Nat) : List Int := (List.range bound).map Int.ofNat

/-- The places of the flags that are set. -/
def flatNonzero (flags : List Bool) : List Nat := (flags.zipIdx.filter Prod.fst).map Prod.snd

/-- The places at which an item differs from the one before it, the first included. -/
def changes {Item : Type} [DecidableEq Item] (items : List Item) : List Bool :=
  true :: List.zipWith (fun item before => decide (item ≠ before)) items.tail items.dropLast

/-- An array of a length, filled with the items again and again. -/
def resize (items : List Nat) (length : Nat) : List Nat :=
  (List.range length).map fun index => items.getD (index % items.length) 0

/-- The items of some segments: each begins at a number and has a length. -/
def segmentItems (segments : List (Nat × Nat)) : List Nat :=
  segments.flatMap fun segment => List.range' segment.1 segment.2

section Indices

@[simp] theorem repeatEach_nil {Item : Type} (items : List Item) : repeatEach items [] = [] := by
  simp [repeatEach]

@[simp] theorem repeatEach_cons {Item : Type} (item : Item) (items : List Item) (count : Nat)
    (counts : List Nat) :
    repeatEach (item :: items) (count :: counts) =
      List.replicate count item ++ repeatEach items counts := by
  simp [repeatEach]

theorem repeatEach_map {Item Made : Type} (make : Item → Made) (count : Item → Nat)
    (items : List Item) :
    repeatEach (items.map make) (items.map count) =
      items.flatMap fun item => List.replicate (count item) (make item) := by
  induction items with
  | nil => rfl
  | cons item items inductionHypothesis => simp [inductionHypothesis]

/-- Where each segment begins among the items of all of them. -/
def startsFrom (base : Int) : List Nat → List Int
  | [] => []
  | count :: counts => base :: startsFrom (base + count) counts

theorem scanl_dropLast (base : Int) (count : Nat) (counts : List Nat) :
    ((count :: counts).dropLast.map Int.ofNat).scanl (· + ·) base = startsFrom base (count :: counts) := by
  induction counts generalizing base count with
  | nil => rfl
  | cons next counts inductionHypothesis =>
    have rest := inductionHypothesis (base + count) next
    simp only [List.dropLast_cons_cons, List.map_cons, List.scanl_cons] at rest ⊢
    exact congrArg (base :: ·) rest

/-- The sums of all counts but the last, behind a zero, are where the segments begin. -/
theorem cumsum_dropLast (counts : List Nat) (some_count : counts ≠ []) :
    0 :: cumsum (counts.dropLast.map Int.ofNat) = startsFrom 0 counts := by
  obtain ⟨count, rest, rfl⟩ := List.exists_cons_of_ne_nil some_count
  rw [← scanl_dropLast, cumsum]
  cases (count :: rest).dropLast.map Int.ofNat <;> simp

/-- Counting on from the beginning of each segment gives its items. -/
theorem counted_items (base : Nat) (segments : List (Nat × Nat)) :
    List.zipWith (· + ·)
        (repeatEach (segments.map fun segment => (segment.1 : Int)) (segments.map Prod.snd))
        (List.zipWith (· - ·) ((List.range' base (segments.map Prod.snd).sum).map Int.ofNat)
          (repeatEach (startsFrom base (segments.map Prod.snd)) (segments.map Prod.snd))) =
      (segmentItems segments).map Int.ofNat := by
  induction segments generalizing base with
  | nil => rfl
  | cons segment segments inductionHypothesis =>
    obtain ⟨start, count⟩ := segment
    have one : List.zipWith (· + ·) (List.replicate count (start : Int))
        (List.zipWith (· - ·) ((List.range' base count).map Int.ofNat)
          (List.replicate count (base : Int))) = (List.range' start count).map Int.ofNat := by
      apply List.ext_getElem
      · simp
      · intro index _ _
        simp
    have split : List.range' base (count + (segments.map Prod.snd).sum) =
        List.range' base count ++ List.range' (base + count) (segments.map Prod.snd).sum := by
      simp
    simp only [List.map_cons, List.sum_cons, startsFrom, repeatEach_cons, split, List.map_append,
      segmentItems, List.flatMap_cons]
    rw [List.zipWith_append (by simp), List.zipWith_append (by simp), one]
    have rest := inductionHypothesis (base + count)
    push_cast at rest
    rw [rest, segmentItems]

/-- The indices of all segments without a loop over them. -/
theorem segment_indices (segments : List (Nat × Nat)) (some_segment : segments ≠ []) :
    List.zipWith (· + ·)
        (repeatEach (segments.map fun segment => (segment.1 : Int)) (segments.map Prod.snd))
        (List.zipWith (· - ·) (arange (segments.map Prod.snd).sum)
          (repeatEach (0 :: cumsum ((segments.map Prod.snd).dropLast.map Int.ofNat))
            (segments.map Prod.snd))) =
      (segmentItems segments).map Int.ofNat := by
  rw [cumsum_dropLast _ (by simpa using some_segment), arange, List.range_eq_range']
  exact counted_items 0 segments

end Indices

/-! ## Runs -/

variable {Item : Type}

/-- The items of some parts. -/
def expand (parts : List (Item × Nat)) : List Item :=
  parts.flatMap fun part => List.replicate part.2 part.1

@[simp] theorem expand_nil : expand ([] : List (Item × Nat)) = [] := rfl

@[simp] theorem expand_cons (part : Item × Nat) (parts : List (Item × Nat)) :
    expand (part :: parts) = List.replicate part.2 part.1 ++ expand parts := by
  simp [expand]

@[simp] theorem expand_length (parts : List (Item × Nat)) :
    (expand parts).length = (parts.map Prod.snd).sum := by
  induction parts with
  | nil => rfl
  | cons part parts inductionHypothesis => simp [inductionHypothesis]

section Bounds

variable [DecidableEq Item]

/-- The runs of a list: each item with the number of times that it follows itself. -/
def runs : List Item → List (Item × Nat)
  | [] => []
  | item :: items =>
      match runs items with
      | [] => [(item, 1)]
      | (other, many) :: rest =>
          if item = other then (other, many + 1) :: rest else (item, 1) :: (other, many) :: rest

/-- No part is empty, and neighboring parts are of different items. -/
structure Separate (parts : List (Item × Nat)) : Prop where
  filled : ∀ part ∈ parts, 0 < part.2
  apart : parts.IsChain fun part next => part.1 ≠ next.1

@[simp] theorem expand_runs (items : List Item) : expand (runs items) = items := by
  induction items with
  | nil => rfl
  | cons item items inductionHypothesis =>
    rw [runs]
    split
    · next none =>
      rw [none] at inductionHypothesis
      simp [← inductionHypothesis]
    · next other many rest found =>
      rw [found] at inductionHypothesis
      split
      · next same => simp [← inductionHypothesis, same, List.replicate_succ]
      · simp [← inductionHypothesis]

theorem runs_separate (items : List Item) : Separate (runs items) := by
  induction items with
  | nil => exact ⟨List.forall_mem_nil _, .nil⟩
  | cons item items inductionHypothesis =>
    obtain ⟨filled, apart⟩ := inductionHypothesis
    rw [runs]
    split
    · exact ⟨by simp, .singleton _⟩
    · next other many rest found =>
      rw [found] at filled apart
      obtain ⟨_, others⟩ := List.forall_mem_cons.mp filled
      split
      · refine ⟨List.forall_mem_cons.mpr ⟨Nat.succ_pos many, others⟩, ?_⟩
        rw [List.isChain_cons] at apart ⊢
        exact apart
      · next differs =>
        exact ⟨List.forall_mem_cons.mpr ⟨Nat.one_pos, filled⟩, .cons_cons differs apart⟩

/-- Every run is of an item of the list. -/
theorem mem_of_mem_runs {items : List Item} {part : Item × Nat} (member : part ∈ runs items) :
    part.1 ∈ items := by
  have filled := (runs_separate items).filled part member
  have held : part.1 ∈ expand (runs items) :=
    List.mem_flatMap.mpr ⟨part, member, List.mem_replicate.mpr ⟨by omega, rfl⟩⟩
  rwa [expand_runs] at held

/-- Where each part begins and ends in the items. -/
def boundsFrom (base : Nat) : List Nat → List (Nat × Nat)
  | [] => []
  | count :: counts => (base, base + count) :: boundsFrom (base + count) counts

/-- Parts that are not empty end behind their beginning. -/
theorem boundsFrom_filled {base : Nat} {counts : List Nat} (filled : ∀ count ∈ counts, 0 < count) :
    ∀ bounds ∈ boundsFrom base counts, bounds.1 < bounds.2 := by
  induction counts generalizing base with
  | nil => exact List.forall_mem_nil _
  | cons count counts inductionHypothesis =>
    obtain ⟨here, others⟩ := List.forall_mem_cons.mp filled
    exact List.forall_mem_cons.mpr ⟨Nat.lt_add_of_pos_right here, inductionHypothesis others⟩

/-- The changes behind an item. -/
def changesFrom (before : Item) : List Item → List Bool
  | [] => []
  | item :: items => decide (item ≠ before) :: changesFrom item items

theorem changes_cons (item : Item) (items : List Item) :
    changes (item :: items) = true :: changesFrom item items := by
  have behind (before : Item) : List.zipWith (fun item before => decide (item ≠ before)) items
      (before :: items).dropLast = changesFrom before items := by
    induction items generalizing before with
    | nil => rfl
    | cons next items inductionHypothesis =>
      rw [List.dropLast_cons_cons, List.zipWith_cons_cons, inductionHypothesis, changesFrom]
  rw [changes, List.tail_cons, behind]

theorem changesFrom_replicate (item : Item) (count : Nat) (items : List Item) :
    changesFrom item (List.replicate count item ++ items) =
      List.replicate count false ++ changesFrom item items := by
  induction count with
  | zero => rfl
  | succ count inductionHypothesis =>
    simp [List.replicate_succ, changesFrom, inductionHypothesis]

/-- The places of flags from a number on. -/
def placesFrom (base : Nat) (flags : List Bool) : List Nat :=
  ((flags.zipIdx base).filter Prod.fst).map Prod.snd

theorem placesFrom_false (base count : Nat) (flags : List Bool) :
    placesFrom base (List.replicate count false ++ flags) = placesFrom (base + count) flags := by
  induction count generalizing base with
  | zero => rfl
  | succ count inductionHypothesis =>
    have rest := inductionHypothesis (base + 1)
    rw [placesFrom] at rest ⊢
    simp only [List.replicate_succ, List.cons_append, List.zipIdx_cons, List.filter_cons,
      Bool.false_eq_true, if_false, rest]
    rw [Nat.add_right_comm, Nat.add_assoc]

/-- The items of a part change once, at its beginning. -/
theorem placesFrom_part (base count : Nat) (item : Item) (items : List Item) :
    placesFrom base (true :: changesFrom item (List.replicate count item ++ items)) =
      base :: placesFrom (base + (count + 1)) (changesFrom item items) := by
  have behind := placesFrom_false (base + 1) count (changesFrom item items)
  rw [changesFrom_replicate, placesFrom, List.zipIdx_cons, List.filter_cons_of_pos rfl, List.map_cons]
  rw [placesFrom] at behind
  rw [behind, Nat.add_assoc, Nat.add_comm 1 count]

theorem placesFrom_changes (base : Nat) (before : Item) {parts : List (Item × Nat)}
    (separate : Separate parts) (different : ∀ part ∈ parts.head?, part.1 ≠ before) :
    placesFrom base (changesFrom before (expand parts)) =
      (boundsFrom base (parts.map Prod.snd)).map Prod.fst := by
  induction parts generalizing base before with
  | nil => rfl
  | cons part parts inductionHypothesis =>
    obtain ⟨item, many⟩ := part
    obtain ⟨filled, apart⟩ := separate
    obtain ⟨here, others⟩ := List.forall_mem_cons.mp filled
    obtain ⟨count, rfl⟩ := Nat.exists_eq_succ_of_ne_zero (Nat.pos_iff_ne_zero.mp here)
    rw [List.isChain_cons] at apart
    have differs : item ≠ before := different _ rfl
    have rest := inductionHypothesis (base + (count + 1)) item ⟨others, apart.2⟩
      fun part among => Ne.symm (apart.1 part among)
    have changed : changesFrom before (expand ((item, count + 1) :: parts)) =
        true :: changesFrom item (List.replicate count item ++ expand parts) := by
      rw [expand_cons, List.replicate_succ, List.cons_append, changesFrom]
      simp [differs]
    rw [changed, placesFrom_part, rest]
    rfl

theorem zip_ends (base : Nat) (counts : List Nat) :
    ((boundsFrom base counts).map Prod.fst).zip
        (((boundsFrom base counts).map Prod.fst).tail ++ [base + counts.sum]) =
      boundsFrom base counts := by
  induction counts generalizing base with
  | nil => rfl
  | cons count counts inductionHypothesis =>
    have rest := inductionHypothesis (base + count)
    cases counts with
    | nil => simp [boundsFrom]
    | cons next counts =>
      simp only [boundsFrom, List.map_cons, List.tail_cons, List.cons_append, List.zip_cons_cons,
        List.sum_cons, Nat.add_assoc] at rest ⊢
      rw [rest]

/-- The places at which the items change give the parts back. -/
theorem bounds_of_changes {parts : List (Item × Nat)} (separate : Separate parts)
    (some_part : parts ≠ []) :
    (flatNonzero (changes (expand parts))).zip
        ((flatNonzero (changes (expand parts))).tail ++ [(expand parts).length]) =
      boundsFrom 0 (parts.map Prod.snd) := by
  obtain ⟨⟨item, many⟩, rest, rfl⟩ := List.exists_cons_of_ne_nil some_part
  obtain ⟨filled, apart⟩ := separate
  obtain ⟨here, others⟩ := List.forall_mem_cons.mp filled
  obtain ⟨count, rfl⟩ := Nat.exists_eq_succ_of_ne_zero (Nat.pos_iff_ne_zero.mp here)
  rw [List.isChain_cons] at apart
  have places : flatNonzero (changes (expand ((item, count + 1) :: rest))) =
      (boundsFrom 0 (((item, count + 1) :: rest).map Prod.snd)).map Prod.fst := by
    have behind := placesFrom_changes (0 + (count + 1)) item ⟨others, apart.2⟩
      fun part among => Ne.symm (apart.1 part among)
    have first := placesFrom_part 0 count item (expand rest)
    rw [behind] at first
    rw [expand_cons, List.replicate_succ, List.cons_append, changes_cons]
    exact first
  have ends := zip_ends 0 (((item, count + 1) :: rest).map Prod.snd)
  rw [Nat.zero_add, ← expand_length] at ends
  rw [places, ends]

end Bounds

end CaracalDB.Runs
