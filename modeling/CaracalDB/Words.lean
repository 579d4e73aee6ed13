import CaracalDB.Bytes

/-!
# Arrays of words and joined parts

An array of words is read back from the bytes it was written to, whatever follows.
Parts that are joined are cut apart again at their offsets, the positions where
they begin and end.
-/

namespace CaracalDB.Bytes

/-- The first words of a byte string. -/
def words (width : Nat) : Nat → List UInt8 → List Nat
  | 0, _ => []
  | count + 1, bytes => value (bytes.take width) :: words width count (bytes.drop width)

/-- The bytes of an array of words. -/
def wordBytes (width : Nat) (numbers : List Nat) : List UInt8 := numbers.flatMap (word width)

@[simp] theorem wordBytes_length (width : Nat) (numbers : List Nat) :
    (wordBytes width numbers).length = width * numbers.length := by
  induction numbers with
  | nil => rfl
  | cons number numbers inductionHypothesis =>
    rw [wordBytes, List.flatMap_cons, List.length_append, word_length, ← wordBytes,
      inductionHypothesis, List.length_cons, Nat.mul_succ, Nat.add_comm]

@[simp] theorem words_length (width count : Nat) (bytes : List UInt8) :
    (words width count bytes).length = count := by
  induction count generalizing bytes with
  | zero => rfl
  | succ count inductionHypothesis => rw [words, List.length_cons, inductionHypothesis]

/-- An array is read back from its bytes. -/
theorem words_wordBytes (width : Nat) (numbers : List Nat)
    (fits : ∀ number ∈ numbers, number < 256 ^ width) (rest : List UInt8) :
    words width numbers.length (wordBytes width numbers ++ rest) = numbers := by
  induction numbers with
  | nil => rfl
  | cons number numbers inductionHypothesis =>
    obtain ⟨small, others⟩ := List.forall_mem_cons.mp fits
    have front : (wordBytes width (number :: numbers) ++ rest).take width = word width number := by
      rw [wordBytes, List.flatMap_cons, List.append_assoc]
      exact List.take_left' (word_length _ _)
    have back : (wordBytes width (number :: numbers) ++ rest).drop width =
        wordBytes width numbers ++ rest := by
      rw [wordBytes, List.flatMap_cons, List.append_assoc]
      exact List.drop_left' (word_length _ _)
    rw [List.length_cons, words, front, back, value_word width number small,
      inductionHypothesis others]

/-- Where parts that are joined behind a position begin, and where the last one ends. -/
def offsetsFrom (position : Nat) : List (List UInt8) → List Nat
  | [] => [position]
  | part :: parts => position :: offsetsFrom (position + part.length) parts

/-- The slices between one offset and the next. -/
def between (bytes : List UInt8) (offsets : List Nat) : List (List UInt8) :=
  (offsets.zip offsets.tail).map fun bounds => slice bytes bounds.1 bounds.2

@[simp] theorem offsetsFrom_length (position : Nat) (parts : List (List UInt8)) :
    (offsetsFrom position parts).length = parts.length + 1 := by
  induction parts generalizing position with
  | nil => rfl
  | cons part parts inductionHypothesis =>
    rw [offsetsFrom, List.length_cons, inductionHypothesis, List.length_cons]

/-- The last offset is where the joined parts end. -/
theorem offsetsFrom_last (position : Nat) (parts : List (List UInt8)) :
    (offsetsFrom position parts).getLast? = some (position + parts.flatten.length) := by
  induction parts generalizing position with
  | nil => rfl
  | cons part parts inductionHypothesis =>
    rw [offsetsFrom, List.getLast?_cons, inductionHypothesis, List.flatten_cons,
      List.length_append, ← Nat.add_assoc]
    rfl

/-- No offset is beyond the last. -/
theorem offsetsFrom_bound (position : Nat) (parts : List (List UInt8)) :
    ∀ offset ∈ offsetsFrom position parts, offset ≤ position + parts.flatten.length := by
  induction parts generalizing position with
  | nil =>
    intro offset member
    rw [List.mem_singleton.mp member]
    exact Nat.le_add_right _ _
  | cons part parts inductionHypothesis =>
    intro offset member
    rw [List.flatten_cons, List.length_append, ← Nat.add_assoc]
    rcases List.mem_cons.mp member with rfl | later
    · omega
    · exact inductionHypothesis _ offset later

/-- Joined parts are cut apart at their offsets. -/
theorem between_offsetsFrom (leading : List UInt8) (parts : List (List UInt8)) :
    between (leading ++ parts.flatten) (offsetsFrom leading.length parts) = parts := by
  induction parts generalizing leading with
  | nil => rfl
  | cons part parts inductionHypothesis =>
    have rest := inductionHypothesis (leading ++ part)
    rw [List.length_append, List.append_assoc, ← List.flatten_cons] at rest
    have first : slice (leading ++ (part :: parts).flatten) leading.length
        (leading.length + part.length) = part := by
      have shifted := slice_append_shift leading (part :: parts).flatten 0 part.length
      rw [Nat.add_zero] at shifted
      rw [shifted, List.flatten_cons, slice_append_self]
    cases parts with
    | nil =>
      rw [between, offsetsFrom, offsetsFrom]
      show [slice _ leading.length (leading.length + part.length)] = _
      rw [first]
    | cons next parts =>
      rw [between, offsetsFrom]
      show slice _ leading.length (leading.length + part.length) :: between _ _ = _
      rw [first, rest]

end CaracalDB.Bytes
