import Mathlib.Data.List.Basic

/-!
# Slices

A list is cut into slices of one size, of which only the last may be shorter. The slices are
the list, in order, and none of them is empty.
-/

namespace CaracalDB.Slices

variable {Item : Type}

/-- The slices of a list of at most so many items. -/
def slicesOf (size : Nat) : Nat → List Item → List (List Item)
  | 0, _ => []
  | fuel + 1, items =>
      match items with
      | [] => []
      | _ :: _ => items.take size :: slicesOf size fuel (items.drop size)

/-- The slices of a list. -/
def slices (size : Nat) (items : List Item) : List (List Item) := slicesOf size items.length items

theorem slicesOf_spec {size : Nat} (positive : 0 < size) {fuel : Nat} {items : List Item}
    (enough : items.length ≤ fuel) :
    (slicesOf size fuel items).flatten = items ∧
      ∀ slice ∈ slicesOf size fuel items, slice ≠ [] ∧ slice.length ≤ size := by
  induction fuel generalizing items with
  | zero =>
    rw [List.length_eq_zero_iff.mp (Nat.le_zero.mp enough)]
    exact ⟨rfl, List.forall_mem_nil _⟩
  | succ fuel inductionHypothesis =>
    cases items with
    | nil => exact ⟨rfl, List.forall_mem_nil _⟩
    | cons item items =>
      have shorter : ((item :: items).drop size).length ≤ fuel := by
        rw [List.length_cons] at enough
        rw [List.length_drop, List.length_cons]
        omega
      obtain ⟨rest, others⟩ := inductionHypothesis shorter
      rw [slicesOf, List.flatten_cons, rest]
      refine ⟨List.take_append_drop size (item :: items), ?_⟩
      refine List.forall_mem_cons.mpr ⟨⟨fun empty => ?_, List.length_take_le _ _⟩, others⟩
      rcases List.take_eq_nil_iff.mp empty with none | nothing
      · omega
      · cases nothing

/-- The slices are the list. -/
theorem flatten_slices {size : Nat} (positive : 0 < size) (items : List Item) :
    (slices size items).flatten = items := (slicesOf_spec positive (Nat.le_refl _)).1

theorem slices_filled {size : Nat} (positive : 0 < size) {items slice : List Item}
    (member : slice ∈ slices size items) : slice ≠ [] ∧ slice.length ≤ size :=
  (slicesOf_spec positive (Nat.le_refl _)).2 slice member

end CaracalDB.Slices
