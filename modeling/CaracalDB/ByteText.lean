import Mathlib.Data.String.Basic
import Mathlib.Data.List.Infix
import Mathlib.Data.List.TakeWhile

/-!
# Texts addressed by bytes

A text is a list of characters, and a position in it is the number of bytes before the
position in UTF-8. Only the ends of characters are positions; a slice between others,
or between positions in the wrong order, does not exist. Found positions are ends of
characters, also in a text with other characters of the same width.
-/

namespace CaracalDB.ByteText

open String (utf8Len)

/-- Where a part occurs first, in bytes. -/
def find (part : List Char) : List Char → Option Nat
  | [] => if part = [] then some 0 else none
  | char :: text =>
      if part <+: char :: text then some 0
      else (find part text).map (char.utf8Size + ·)

/-- A text cut at a byte, if a character ends there. -/
def cut : Nat → List Char → Option (List Char × List Char)
  | 0, text => some ([], text)
  | _ + 1, [] => none
  | offset + 1, char :: text =>
      if offset + 1 < char.utf8Size then none
      else (cut (offset + 1 - char.utf8Size) text).map fun halves => (char :: halves.1, halves.2)

/-- What stands from one byte to another. -/
def slice (text : List Char) (start stop : Nat) : Option (List Char) :=
  if stop < start then none
  else do
    let (front, _) ← cut stop text
    let (_, middle) ← cut start front
    return middle

/-- What stands behind a byte. -/
def sliceFrom (text : List Char) (start : Nat) : Option (List Char) :=
  (cut start text).map Prod.snd

/-- A text without the spaces around it. -/
def trim (space : Char → Bool) (text : List Char) : List Char :=
  ((text.dropWhile space).reverse.dropWhile space).reverse

/-! ## Occurrences -/

/-- The part occurs behind this many characters, and not earlier. -/
structure FirstAt (part text : List Char) (index : Nat) : Prop where
  occurs : part <+: text.drop index
  first : ∀ earlier < index, ¬ part <+: text.drop earlier

theorem FirstAt.unique {part text : List Char} {one other : Nat} (left : FirstAt part text one)
    (right : FirstAt part text other) : one = other := by
  rcases Nat.lt_trichotomy one other with before | same | behind
  · exact absurd left.occurs (right.first one before)
  · exact same
  · exact absurd right.occurs (left.first other behind)

theorem FirstAt.bounded {part text : List Char} {index : Nat} (filled : part ≠ [])
    (found : FirstAt part text index) : index + part.length ≤ text.length := by
  have short := found.occurs.length_le
  have positive := List.length_pos_iff.mpr filled
  rw [List.length_drop] at short
  omega

/-- A part is found at the bytes before its first occurrence. -/
theorem find_eq_some {part text : List Char} {offset : Nat} (found : find part text = some offset) :
    ∃ index, offset = utf8Len (text.take index) ∧ FirstAt part text index := by
  induction text generalizing offset with
  | nil =>
    rw [find] at found
    split at found
    · next empty =>
      cases found
      exact ⟨0, rfl, by simp [empty], fun earlier less => absurd less (Nat.not_lt_zero earlier)⟩
    · cases found
  | cons char text inductionHypothesis =>
    rw [find] at found
    split at found
    · next here =>
      cases found
      exact ⟨0, rfl, here, fun earlier less => absurd less (Nat.not_lt_zero earlier)⟩
    · next elsewhere =>
      obtain ⟨further, later, rfl⟩ := Option.map_eq_some_iff.mp found
      obtain ⟨index, rfl, occurrence⟩ := inductionHypothesis later
      refine ⟨index + 1, ?_, occurrence.occurs, ?_⟩
      · rw [List.take_succ_cons, String.utf8Len_cons, Nat.add_comm]
      · intro earlier less
        cases earlier with
        | zero => exact elsewhere
        | succ earlier => exact occurrence.first earlier (by omega)

/-- A part that occurs is found. -/
theorem find_isSome {part text : List Char} {index : Nat} (occurs : part <+: text.drop index) :
    ∃ offset, find part text = some offset := by
  induction text generalizing index with
  | nil =>
    have empty : part = [] := by simpa using occurs
    exact ⟨0, by simp [find, empty]⟩
  | cons char text inductionHypothesis =>
    rw [find]
    split
    · exact ⟨0, rfl⟩
    · next elsewhere =>
      cases index with
      | zero => exact absurd occurs elsewhere
      | succ index =>
        obtain ⟨offset, found⟩ := inductionHypothesis occurs
        exact ⟨char.utf8Size + offset, by rw [found, Option.map_some]⟩

theorem find_of_first {part text : List Char} {index : Nat} (occurrence : FirstAt part text index) :
    find part text = some (utf8Len (text.take index)) := by
  obtain ⟨offset, found⟩ := find_isSome occurrence.occurs
  obtain ⟨other, rfl, again⟩ := find_eq_some found
  rw [found, again.unique occurrence]

/-! ## Slices between characters -/

theorem cut_append (front back : List Char) :
    cut (utf8Len front) (front ++ back) = some (front, back) := by
  induction front with
  | nil => cases back <;> rfl
  | cons char front inductionHypothesis =>
    have wide := char.utf8Size_pos
    obtain ⟨offset, bytes⟩ : ∃ offset, utf8Len (char :: front) = offset + 1 :=
      Nat.exists_eq_succ_of_ne_zero (by rw [String.utf8Len_cons]; omega)
    have further : offset + 1 - char.utf8Size = utf8Len front := by
      rw [← bytes, String.utf8Len_cons]
      omega
    have reached : ¬ offset + 1 < char.utf8Size := by
      rw [← bytes, String.utf8Len_cons]
      omega
    rw [bytes, List.cons_append, cut, if_neg reached, further, inductionHypothesis]
    rfl

theorem slice_append (front middle back : List Char) :
    slice (front ++ (middle ++ back)) (utf8Len front) (utf8Len (front ++ middle)) =
      some middle := by
  have ordered : ¬ utf8Len (front ++ middle) < utf8Len front := by
    rw [String.utf8Len_append]
    omega
  have inner : cut (utf8Len front) (front ++ middle) = some (front, middle) :=
    cut_append front middle
  rw [slice, if_neg ordered, ← List.append_assoc, cut_append]
  simp only [Option.bind_eq_bind, Option.bind_some, inner, Option.pure_def]

theorem sliceFrom_append (front back : List Char) :
    sliceFrom (front ++ back) (utf8Len front) = some back := by
  rw [sliceFrom, cut_append, Option.map_some]

/-- Texts that agree in the width of each character have their positions in common. -/
theorem utf8Len_map (change : Char → Char) (same : ∀ char, (change char).utf8Size = char.utf8Size)
    (text : List Char) : utf8Len (text.map change) = utf8Len text := by
  induction text with
  | nil => rfl
  | cons char text inductionHypothesis =>
    rw [List.map_cons, String.utf8Len_cons, String.utf8Len_cons, inductionHypothesis, same]

/-- An ASCII letter in upper case is as wide as in lower case. -/
theorem toUpper_size (char : Char) : char.toUpper.utf8Size = char.utf8Size := by
  delta Char.toUpper
  split
  · next lower =>
    have narrow : char.utf8Size = 1 := by
      apply Char.utf8Size_eq_one_iff.mpr
      exact Nat.le_trans lower.2 (by decide)
    rw [narrow]
    apply Char.utf8Size_eq_one_iff.mpr
    obtain ⟨above, below⟩ := lower
    have letters : 97 ≤ char.val.toNat ∧ char.val.toNat ≤ 122 := ⟨above, below⟩
    rw [UInt32.le_iff_toNat_le]
    simp only [UInt32.toNat_add, UInt32.reduceSub, Char.reduceVal, UInt32.reduceToNat]
    omega
  · rfl

/-! ## Trimming and splitting -/

section Trimming

variable (space : Char → Bool)

theorem trim_split (text : List Char) : ∃ before after, text = before ++ (trim space text ++ after) ∧
    (∀ char ∈ before, space char = true) ∧ ∀ char ∈ after, space char = true := by
  refine ⟨text.takeWhile space, ((text.dropWhile space).reverse.takeWhile space).reverse, ?_,
    fun char member => List.mem_takeWhile_imp member, fun char member =>
      List.mem_takeWhile_imp (List.mem_reverse.mp member)⟩
  have inner : (text.dropWhile space).reverse.takeWhile space ++
      (text.dropWhile space).reverse.dropWhile space = (text.dropWhile space).reverse :=
    List.takeWhile_append_dropWhile
  have turned := congrArg List.reverse inner
  rw [List.reverse_append, List.reverse_reverse] at turned
  rw [trim, turned, List.takeWhile_append_dropWhile]

theorem trim_inside (text : List Char) : trim space text <:+: text := by
  obtain ⟨before, after, split, _⟩ := trim_split space text
  exact ⟨before, after, by rw [List.append_assoc, ← split]⟩

theorem dropWhile_head {text : List Char} {char : Char}
    (first : (text.dropWhile space).head? = some char) : space char = false := by
  have kept := List.head?_dropWhile_not space text
  rwa [first] at kept

/-- A trimmed text begins and ends with other characters than spaces. -/
theorem trim_head {text : List Char} {char : Char}
    (first : (trim space text).head? = some char) : space char = false := by
  obtain ⟨middle, turned⟩ : ∃ middle, (text.dropWhile space) = trim space text ++ middle := by
    obtain ⟨front, joined⟩ := List.dropWhile_suffix space (l := (text.dropWhile space).reverse)
    refine ⟨front.reverse, ?_⟩
    rw [trim, ← List.reverse_append, joined, List.reverse_reverse]
  have early : (text.dropWhile space).head? = some char := by
    rw [turned, List.head?_append, first]
    rfl
  exact dropWhile_head space early

theorem trim_last {text : List Char} {char : Char}
    (last : (trim space text).getLast? = some char) : space char = false := by
  rw [trim, List.getLast?_reverse] at last
  exact dropWhile_head space last

end Trimming

theorem mem_intersperse {Item : Type} (separator item : Item) (items : List Item)
    (member : item ∈ items) : item ∈ items.intersperse separator := by
  induction items with
  | nil => cases member
  | cons first items inductionHypothesis =>
    cases items with
    | nil => exact member
    | cons second items =>
      rw [List.intersperse_cons_cons]
      rcases List.mem_cons.mp member with rfl | further
      · exact List.mem_cons_self
      · exact List.mem_cons_of_mem _ (List.mem_cons_of_mem _ (inductionHypothesis further))

/-- The parts of a text between separators stand in the text. -/
theorem infix_of_mem_splitOn (separator : Char) (text piece : List Char)
    (member : piece ∈ text.splitOn separator) : piece <:+: text := by
  have joined : [separator].intercalate (text.splitOn separator) = text :=
    List.intercalate_splitOn separator
  have inside : piece <:+: [separator].intercalate (text.splitOn separator) :=
    List.infix_of_mem_flatten (mem_intersperse [separator] piece _ member)
  rwa [joined] at inside

end CaracalDB.ByteText
