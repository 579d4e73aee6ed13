import Mathlib.Data.List.Basic
import Mathlib.Algebra.GroupWithZero.Nat

/-!
# Little-endian words and slices of byte strings

A fixed-width word is written low byte first. Widths are counted in bytes and
values are natural numbers, so that the only machine fact left is whether a
value fits its width. Slicing follows the half-open convention: positions past
the end of the string select nothing instead of failing.

These are laws about byte strings only; record formats and files are built on
them elsewhere.
-/

namespace CaracalDB.Bytes

/-- The bytes of a word of the given width, least significant first. A value
that does not fit loses its high part; callers check the range first. -/
def word : Nat → Nat → List UInt8
  | 0, _ => []
  | width + 1, value => UInt8.ofNat (value % 256) :: word width (value / 256)

/-- The value of a little-endian byte string of any length. -/
def value : List UInt8 → Nat
  | [] => 0
  | byte :: rest => byte.toNat + 256 * value rest

/-- Bytes from `start` up to, and not including, `stop`. -/
def slice (bytes : List UInt8) (start stop : Nat) : List UInt8 :=
  (bytes.drop start).take (stop - start)

@[simp] theorem word_length (width number : Nat) : (word width number).length = width := by
  induction width generalizing number with
  | zero => rfl
  | succ width inductionHypothesis => simp [word, inductionHypothesis]

/-- A byte string of a given length denotes a value below that many bytes. -/
theorem value_bound (bytes : List UInt8) : value bytes < 256 ^ bytes.length := by
  induction bytes with
  | nil => decide
  | cons byte rest inductionHypothesis =>
    have low : byte.toNat < 256 := byte.toNat_lt
    simp only [value, List.length_cons, Nat.pow_succ]
    omega

/-- Reading back a word that fits its width gives the value written. -/
theorem value_word (width number : Nat) (fits : number < 256 ^ width) :
    value (word width number) = number := by
  induction width generalizing number with
  | zero =>
    simp only [Nat.pow_zero] at fits
    simp only [word, value]
    omega
  | succ width inductionHypothesis =>
    have high : number / 256 < 256 ^ width := by
      rw [Nat.pow_succ] at fits
      exact Nat.div_lt_of_lt_mul (by omega)
    have low : (UInt8.ofNat (number % 256)).toNat = number % 256 := by
      simp
    simp only [word, value, low, inductionHypothesis _ high]
    omega

/-- Writing a string's value at the string's own width reproduces the string. -/
theorem word_value (bytes : List UInt8) : word bytes.length (value bytes) = bytes := by
  induction bytes with
  | nil => rfl
  | cons byte rest inductionHypothesis =>
    have low : byte.toNat < 256 := byte.toNat_lt
    have remainder : (byte.toNat + 256 * value rest) % 256 = byte.toNat := by omega
    have quotient : (byte.toNat + 256 * value rest) / 256 = value rest := by omega
    simp only [List.length_cons, value, word, remainder, quotient, inductionHypothesis,
      UInt8.ofNat_toNat]

@[simp] theorem slice_length (bytes : List UInt8) (start stop : Nat) :
    (slice bytes start stop).length = min (stop - start) (bytes.length - start) := by
  simp [slice]

/-- Positions behind a leading part are read in the rest of the string. -/
theorem slice_append_shift (leading rest : List UInt8) (start stop : Nat) :
    slice (leading ++ rest) (leading.length + start) (leading.length + stop) =
      slice rest start stop := by
  have width : leading.length + stop - (leading.length + start) = stop - start := by omega
  have dropped : (leading ++ rest).drop (leading.length + start) = rest.drop start := by
    rw [← List.drop_drop, List.drop_left]
  rw [slice, slice, width, dropped]

/-- The slice that starts at zero and covers a whole leading part is that part. -/
theorem slice_append_self (leading rest : List UInt8) :
    slice (leading ++ rest) 0 leading.length = leading := by
  simp [slice]

/-- Adjacent slices join. -/
theorem slice_join (bytes : List UInt8) (start middle stop : Nat) (low : start ≤ middle)
    (high : middle ≤ stop) :
    slice bytes start middle ++ slice bytes middle stop = slice bytes start stop := by
  have later : bytes.drop middle = (bytes.drop start).drop (middle - start) := by
    rw [List.drop_drop]
    congr 1
    omega
  have width : stop - start = (middle - start) + (stop - middle) := by omega
  simp only [slice, later, width]
  exact (List.take_add ..).symm

/-- A slice that consists of two parts is cut at the end of the first. -/
theorem slice_split (bytes first second : List UInt8) (start stop : Nat)
    (whole : slice bytes start stop = first ++ second) :
    slice bytes start (start + first.length) = first ∧
      slice bytes (start + first.length) stop = second := by
  have width : first.length ≤ stop - start := by
    have lengths := congrArg List.length whole
    rw [slice_length, List.length_append] at lengths
    omega
  have front : slice bytes start (start + first.length) =
      (slice bytes start stop).take first.length := by
    simp only [slice, List.take_take, Nat.add_sub_cancel_left, Nat.min_eq_left width]
  have back : slice bytes (start + first.length) stop =
      (slice bytes start stop).drop first.length := by
    simp only [slice, List.drop_take, List.drop_drop]
    congr 1
    omega
  rw [front, back, whole]
  exact ⟨List.take_left, List.drop_left⟩

/-- Cutting bytes off behind a slice leaves it unchanged. -/
theorem slice_take (bytes : List UInt8) (start stop kept : Nat) (within : stop ≤ kept) :
    slice (bytes.take kept) start stop = slice bytes start stop := by
  simp only [slice, List.drop_take, List.take_take]
  congr 1
  omega

/-- The slice from zero is a prefix. -/
theorem slice_zero (bytes : List UInt8) (stop : Nat) : slice bytes 0 stop = bytes.take stop := by
  simp [slice]

end CaracalDB.Bytes
