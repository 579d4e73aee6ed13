import Mathlib.Data.List.Sort
import CaracalDB.WalSegment

/-!
# A directory of numbered segments

Segment files are named by a decimal number padded to six digits, and every
reader visits them in the order of their names. Names of at most six digits sort
like their numbers; a seventh digit breaks the correspondence, since the padding
is fixed. Directories list their files in no particular order and never hold two
files of one number.
-/

namespace CaracalDB.Log

open Bytes

structure SegmentFile where
  index : Nat
  data : List UInt8
deriving DecidableEq

/-- The WAL directory: its path and the segment files in it. -/
structure Directory where
  path : String
  segments : List SegmentFile
deriving DecidableEq

/-- `f"{index:06d}.wal"` -/
def segmentName (index : Nat) : String :=
  String.ofList ((Nat.toDigits 10 index).leftpad 6 '0' ++ ".wal".toList)

/-- The order of file names. -/
def nameLe (left right : SegmentFile) : Bool :=
  !decide (segmentName right.index < segmentName left.index)

/-- `sorted(directory.glob("*.wal"))` -/
def walSegments (directory : Directory) : List SegmentFile :=
  directory.segments.mergeSort nameLe

/-- The path of a segment file. -/
def segmentPath (directory : Directory) (index : Nat) : String :=
  directory.path ++ "/" ++ segmentName index

/-- The records of a list of segment files, read one file after another. -/
def iterSegments (directory : Directory) : List SegmentFile → Except Raised (List WalRecord)
  | [] => .ok []
  | file :: rest => do
      let records ← iterSegmentRecords (segmentPath directory file.index) file.data
      return records ++ (← iterSegments directory rest)

def iterAllRecords (directory : Directory) : Except Raised (List WalRecord) :=
  iterSegments directory (walSegments directory)

/-- The last record's LSN of one segment, absent for a segment without records. -/
def segmentMaxLsn (directory : Directory) (file : SegmentFile) : Except Raised (Option Nat) := do
  let records ← iterSegmentRecords (segmentPath directory file.index) file.data
  return records.getLast?.map WalRecord.lsn

namespace Directory

/-- Write a file of a given number, replacing one that exists. -/
def put (directory : Directory) (index : Nat) (data : List UInt8) : Directory :=
  { directory with
    segments := directory.segments.filter (·.index != index) ++ [⟨index, data⟩] }

/-- Append bytes to the file of a given number. -/
def extend (directory : Directory) (index : Nat) (bytes : List UInt8) : Directory :=
  { directory with
    segments := directory.segments.map fun file =>
      if file.index = index then { file with data := file.data ++ bytes } else file }

/-- Delete the file of a given number. -/
def unlink (directory : Directory) (index : Nat) : Directory :=
  { directory with segments := directory.segments.filter (·.index != index) }

@[simp] theorem put_path (directory : Directory) (index : Nat) (data : List UInt8) :
    (directory.put index data).path = directory.path := rfl

@[simp] theorem extend_path (directory : Directory) (index : Nat) (bytes : List UInt8) :
    (directory.extend index bytes).path = directory.path := rfl

@[simp] theorem unlink_path (directory : Directory) (index : Nat) :
    (directory.unlink index).path = directory.path := rfl

/-- The files are listed by increasing number, all of at most six digits. -/
structure Ordered (directory : Directory) : Prop where
  increasing : directory.segments.Pairwise (fun left right => left.index < right.index)
  sixDigits : ∀ file ∈ directory.segments, file.index < 1000000

end Directory

/-- Exactly `width` decimal digits, most significant first. -/
def decimalDigits : Nat → Nat → List Char
  | 0, _ => []
  | width + 1, number => decimalDigits width (number / 10) ++ [Nat.digitChar (number % 10)]

theorem decimal_digits_zero (width : Nat) : decimalDigits width 0 = List.replicate width '0' := by
  induction width with
  | zero => rfl
  | succ width inductionHypothesis =>
    simp only [decimalDigits, Nat.zero_div, inductionHypothesis, Nat.zero_mod,
      List.replicate_succ', List.append_cancel_left_eq, List.cons.injEq, and_true]
    rfl

/-- Padding a number that needs no more than the width gives its digits. -/
theorem padded_digits (width number : Nat) (fits : number < 10 ^ (width + 1)) :
    (Nat.toDigits 10 number).leftpad (width + 1) '0' = decimalDigits (width + 1) number := by
  induction width generalizing number with
  | zero =>
    have small : number < 10 := by simpa using fits
    simp [Nat.toDigits_of_lt_base small, List.leftpad, decimalDigits, Nat.mod_eq_of_lt small]
  | succ width inductionHypothesis =>
    by_cases small : number < 10
    · have quotient : number / 10 = 0 := by omega
      rw [Nat.toDigits_of_lt_base small, decimalDigits, quotient, decimal_digits_zero,
        Nat.mod_eq_of_lt small]
      simp [List.leftpad]
    · have quotientFits : number / 10 < 10 ^ (width + 1) := by
        rw [Nat.pow_succ] at fits
        exact Nat.div_lt_of_lt_mul (by omega)
      have digits := inductionHypothesis (number / 10) quotientFits
      rw [Nat.toDigits_of_base_le (by decide) (by omega), decimalDigits, ← digits]
      simp [List.leftpad]

/-- Digits of one width compare like the numbers. -/
theorem decimal_digits_lt (width left right : Nat) (leftFits : left < 10 ^ width)
    (rightFits : right < 10 ^ width) (below : left < right) (leftTail rightTail : List Char) :
    decimalDigits width left ++ leftTail < decimalDigits width right ++ rightTail := by
  induction width generalizing left right leftTail rightTail with
  | zero =>
    simp only [Nat.pow_zero] at rightFits
    omega
  | succ width inductionHypothesis =>
    rw [Nat.pow_succ] at leftFits rightFits
    simp only [decimalDigits, List.append_assoc]
    by_cases higher : left / 10 < right / 10
    · exact inductionHypothesis _ _ (Nat.div_lt_of_lt_mul (by omega))
        (Nat.div_lt_of_lt_mul (by omega)) higher _ _
    · have same : left / 10 = right / 10 := by omega
      have low : left % 10 < right % 10 := by omega
      have digit : ∀ first second : Fin 10, first < second →
          Nat.digitChar first.val < Nat.digitChar second.val := by decide
      rw [same]
      apply List.append_left_lt
      rw [List.singleton_append, List.singleton_append, List.cons_lt_cons_iff]
      exact Or.inl (digit ⟨left % 10, Nat.mod_lt _ (by decide)⟩
        ⟨right % 10, Nat.mod_lt _ (by decide)⟩ low)

/-- Names of at most six digits sort by number. -/
theorem segment_name_lt (left right : Nat) (below : left < right) (sixDigits : right < 1000000) :
    segmentName left < segmentName right := by
  have million : 10 ^ (5 + 1) = 1000000 := by decide
  have leftFits : left < 10 ^ (5 + 1) := by omega
  have rightFits : right < 10 ^ (5 + 1) := by omega
  rw [String.lt_iff]
  simp only [segmentName, String.toList_ofList, padded_digits 5 _ leftFits,
    padded_digits 5 _ rightFits]
  exact decimal_digits_lt 6 left right leftFits rightFits below _ _

/-- Reading an ordered directory visits the files as listed. -/
theorem wal_segments_ordered (directory : Directory) (ordered : directory.Ordered) :
    walSegments directory = directory.segments := by
  apply List.mergeSort_of_pairwise
  apply ordered.increasing.imp_of_mem
  intro left right _ rightMember below
  have named := segment_name_lt left.index right.index below (ordered.sixDigits right rightMember)
  simp only [nameLe, Bool.not_eq_true', decide_eq_false_iff_not]
  intro opposite
  rw [String.lt_iff] at named opposite
  exact List.lt_asymm named opposite

end CaracalDB.Log
