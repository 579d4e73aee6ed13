import Mathlib.Order.Basic
import Mathlib.Order.Defs.LinearOrder
import Mathlib.Data.List.Basic
import Mathlib.Order.Lattice

/-!
# Binary search in an increasing list

The loop keeps a window between items below the target and items that are not. It
ends at the first position that is not below, so in an increasing list the target
stands there or nowhere.
-/

namespace CaracalDB

variable {Item : Type} [LinearOrder Item]

/-- The loop of a binary search between two positions, for so many rounds. -/
def bisectLoop (items : List Item) (target : Item) : Nat → Nat → Nat → Nat
  | 0, low, _ => low
  | rounds + 1, low, high =>
      if low < high then
        let middle := (low + high) / 2
        match items[middle]? with
        | none => low
        | some item =>
            if item < target then bisectLoop items target rounds (middle + 1) high
            else bisectLoop items target rounds low middle
      else low

/-- The first position of an item that is not below the target. -/
def bisectLeft (items : List Item) (target : Item) : Nat :=
  bisectLoop items target items.length 0 items.length

/-- The position of the target, if it is there. -/
def indexOf (items : List Item) (target : Item) : Option Nat :=
  let index := bisectLeft items target
  if items[index]? = some target then some index else none

variable {items : List Item} {target : Item}

/-- The loop narrows the window to the position of an item that is in it. -/
theorem bisectLoop_finds (increasing : items.Pairwise (· < ·)) {index : Nat}
    (found : items[index]? = some target) (rounds low high : Nat) (above : low ≤ index)
    (below : index ≤ high) (within : high ≤ items.length) (enough : high ≤ low + rounds) :
    bisectLoop items target rounds low high = index := by
  induction rounds generalizing low high with
  | zero => exact Nat.le_antisymm above (Nat.le_trans below enough)
  | succ rounds inductionHypothesis =>
    rw [bisectLoop]
    by_cases wide : low < high
    · have inside : (low + high) / 2 < items.length := by omega
      simp only [if_pos wide, List.getElem?_eq_getElem inside]
      obtain ⟨indexInside, indexItem⟩ := List.getElem?_eq_some_iff.mp found
      have ordered := List.pairwise_iff_getElem.mp increasing
      by_cases smaller : items[(low + high) / 2] < target
      · rw [if_pos smaller]
        have right : (low + high) / 2 < index := by
          by_contra left
          rcases Nat.lt_or_eq_of_le (Nat.le_of_not_lt left) with before | same
          · have reversed := ordered index _ indexInside inside before
            rw [indexItem] at reversed
            exact lt_asymm smaller reversed
          · simp only [← same, indexItem] at smaller
            exact lt_irrefl target smaller
        exact inductionHypothesis _ _ right below within (by omega)
      · rw [if_neg smaller]
        have left : index ≤ (low + high) / 2 := by
          by_contra right
          have reversed := ordered _ index inside indexInside (Nat.lt_of_not_le right)
          rw [indexItem] at reversed
          exact smaller reversed
        exact inductionHypothesis _ _ above left (by omega) (by omega)
    · rw [if_neg wide]
      omega

/-- In an increasing list the search finds exactly the position of the target. -/
theorem indexOf_eq_some (increasing : items.Pairwise (· < ·)) (index : Nat) :
    indexOf items target = some index ↔ items[index]? = some target := by
  rw [indexOf]
  constructor
  · intro found
    by_cases stands : items[bisectLeft items target]? = some target
    · rw [if_pos stands] at found
      rwa [← Option.some.inj found]
    · rw [if_neg stands] at found
      cases found
  · intro found
    have inside := (List.getElem?_eq_some_iff.mp found).1
    have position : bisectLeft items target = index :=
      bisectLoop_finds increasing found _ _ _ (Nat.zero_le _) (Nat.le_of_lt inside) (Nat.le_refl _)
        (by omega)
    rw [position, if_pos found]

/-- The loop ends in its window. -/
theorem bisectLoop_within (items : List Item) (target : Item) (rounds low high : Nat)
    (ordered : low ≤ high) :
    low ≤ bisectLoop items target rounds low high ∧ bisectLoop items target rounds low high ≤ high := by
  induction rounds generalizing low high with
  | zero => exact ⟨Nat.le_refl _, ordered⟩
  | succ rounds inductionHypothesis =>
    rw [bisectLoop]
    by_cases wide : low < high
    · simp only [if_pos wide]
      cases items[(low + high) / 2]? with
      | none => exact ⟨Nat.le_refl _, ordered⟩
      | some item =>
        by_cases smaller : item < target
        · have right := inductionHypothesis ((low + high) / 2 + 1) high (by omega)
          simp only [if_pos smaller]
          omega
        · have left := inductionHypothesis low ((low + high) / 2) (by omega)
          simp only [if_neg smaller]
          omega
    · rw [if_neg wide]
      exact ⟨Nat.le_refl _, ordered⟩

/-- A window in which each item is found at its own position is increasing. -/
theorem bisectLoop_increasing (rounds low high : Nat) (within : high ≤ items.length)
    (enough : high ≤ low + rounds)
    (found : ∀ index item, low ≤ index → index < high → items[index]? = some item →
      bisectLoop items item rounds low high = index)
    {first second : Nat} {one other : Item} (above : low ≤ first) (before : first < second)
    (below : second < high) (firstItem : items[first]? = some one)
    (secondItem : items[second]? = some other) : one < other := by
  induction rounds generalizing low high first second one other with
  | zero => omega
  | succ rounds inductionHypothesis =>
    have wide : low < high := by omega
    obtain ⟨item, middleItem⟩ : ∃ item, items[(low + high) / 2]? = some item :=
      ⟨_, List.getElem?_eq_getElem (by omega)⟩
    -- an item above the middle one is to its right, every other item is not
    have side (index : Nat) (target : Item) (from_low : low ≤ index) (to_high : index < high)
        (stands : items[index]? = some target) :
        if item < target then (low + high) / 2 < index ∧
            bisectLoop items target rounds ((low + high) / 2 + 1) high = index
          else index ≤ (low + high) / 2 ∧
            bisectLoop items target rounds low ((low + high) / 2) = index := by
      have position := found index target from_low to_high stands
      rw [bisectLoop, if_pos wide] at position
      simp only [middleItem] at position
      split
      · next larger =>
        rw [if_pos larger] at position
        have bounds := bisectLoop_within items target rounds ((low + high) / 2 + 1) high (by omega)
        exact ⟨by omega, position⟩
      · next small =>
        rw [if_neg small] at position
        have bounds := bisectLoop_within items target rounds low ((low + high) / 2) (by omega)
        exact ⟨by omega, position⟩
    have left (index : Nat) (target : Item) (from_low : low ≤ index)
        (not_right : index ≤ (low + high) / 2) (stands : items[index]? = some target) :
        target ≤ item ∧ bisectLoop items target rounds low ((low + high) / 2) = index := by
      have placed := side index target from_low (by omega) stands
      split at placed
      · omega
      · next small => exact ⟨le_of_not_gt small, placed.2⟩
    have right (index : Nat) (target : Item) (behind : (low + high) / 2 < index)
        (to_high : index < high) (stands : items[index]? = some target) :
        item < target ∧ bisectLoop items target rounds ((low + high) / 2 + 1) high = index := by
      have placed := side index target (by omega) to_high stands
      split at placed
      · next larger => exact ⟨larger, placed.2⟩
      · omega
    by_cases secondLeft : second ≤ (low + high) / 2
    · rcases Nat.lt_or_eq_of_le secondLeft with inner | same
      · exact inductionHypothesis low ((low + high) / 2) (by omega) (by omega)
          (fun index target from_low to_middle stands =>
            (left index target from_low (by omega) stands).2)
          above before inner firstItem secondItem
      · -- the middle item itself: an equal one before it would be found in its place
        obtain ⟨small, position⟩ := left first one above (by omega) firstItem
        obtain ⟨_, middle⟩ := left second other (by omega) secondLeft secondItem
        rw [same, middleItem] at secondItem
        cases secondItem
        refine lt_of_le_of_ne small fun equal => ?_
        rw [equal, middle] at position
        omega
    · obtain ⟨larger, _⟩ := right second other (by omega) below secondItem
      by_cases firstLeft : first ≤ (low + high) / 2
      · exact lt_of_le_of_lt (left first one above firstLeft firstItem).1 larger
      · exact inductionHypothesis ((low + high) / 2 + 1) high within (by omega)
          (fun index target behind to_high stands =>
            (right index target (by omega) to_high stands).2)
          (by omega) before below firstItem secondItem

/-- The search finds every item at its own position exactly in an increasing list. -/
theorem indexOf_finds_iff :
    (∀ (index : Nat) item, items[index]? = some item → indexOf items item = some index) ↔
      items.Pairwise (· < ·) := by
  constructor
  · intro found
    have position (index : Nat) (item : Item) (stands : items[index]? = some item) :
        bisectLeft items item = index := by
      have answer := found index item stands
      rw [indexOf] at answer
      by_cases there : items[bisectLeft items item]? = some item
      · rw [if_pos there] at answer
        exact Option.some.inj answer
      · rw [if_neg there] at answer
        cases answer
    rw [List.pairwise_iff_getElem]
    intro first second firstInside secondInside before
    exact bisectLoop_increasing items.length 0 items.length (Nat.le_refl _) (by omega)
      (fun index item _ _ => position index item) (Nat.zero_le _) before secondInside
      (List.getElem?_eq_getElem firstInside) (List.getElem?_eq_getElem secondInside)
  · exact fun increasing index item stands => (indexOf_eq_some increasing index).mpr stands

end CaracalDB
