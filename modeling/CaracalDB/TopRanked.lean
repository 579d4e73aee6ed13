import CaracalDB.Ranked

/-!
# The first few of a ranking

The first few of several groups ranked together can be found group by group: each group is
ranked and cut, and what is left is ranked and cut again. No cut loses one of the first few
as long as it keeps as many.
-/

namespace CaracalDB

variable {Item Key : Type} [LinearOrder Key]

section Merges

variable (le : Item → Item → Bool)

/-- The first few of a merge come from the first few on both sides. -/
theorem take_merge (count left right : Nat) (below : count ≤ left) (behind : count ≤ right)
    (first second : List Item) :
    ((first.take left).merge (second.take right) le).take count =
      (first.merge second le).take count := by
  induction count generalizing left right first second with
  | zero => rfl
  | succ count ih =>
    obtain ⟨left, rfl⟩ : ∃ less, left = less + 1 := ⟨left - 1, by omega⟩
    obtain ⟨right, rfl⟩ : ∃ less, right = less + 1 := ⟨right - 1, by omega⟩
    cases first with
    | nil =>
      rw [List.take_nil, List.nil_merge, List.nil_merge, List.take_take, Nat.min_eq_left behind]
    | cons item first =>
      cases second with
      | nil =>
        rw [List.take_nil, List.merge_right, List.merge_right, List.take_take,
          Nat.min_eq_left below]
      | cons other second =>
        rw [List.take_succ_cons, List.take_succ_cons, List.cons_merge_cons, List.cons_merge_cons]
        split
        · rw [List.take_succ_cons, List.take_succ_cons, ← List.take_succ_cons (a := other)]
          congr 1
          exact ih left (right + 1) (by omega) (by omega) first (other :: second)
        · rw [List.take_succ_cons, List.take_succ_cons, ← List.take_succ_cons (a := item)]
          congr 1
          exact ih (left + 1) right (by omega) (by omega) (item :: first) second

end Merges

variable (key : Item → Key)

/-- Whether an item comes first, at the latest with another one. -/
def keyLe (left right : Item) : Bool := key left ≤ key right

theorem merge_before {item other : Item} (before : key item ≤ key other) (first second : List Item) :
    (item :: first).merge (other :: second) (keyLe key) =
      item :: first.merge (other :: second) (keyLe key) := by
  exact List.cons_merge_cons_pos (keyLe key) first second (decide_eq_true before)

theorem merge_behind {item other : Item} (behind : ¬key item ≤ key other)
    (first second : List Item) :
    (item :: first).merge (other :: second) (keyLe key) =
      other :: (item :: first).merge second (keyLe key) := by
  exact List.cons_merge_cons_neg (keyLe key) first second
    fun before => behind (of_decide_eq_true before)

theorem orderedInsert_merge (item : Item) (first second : List Item) :
    (first.merge second (keyLe key)).orderedInsert (fun left right => key left ≤ key right) item =
      (first.orderedInsert (fun left right => key left ≤ key right) item).merge second
        (keyLe key) := by
  induction first generalizing second with
  | nil =>
    induction second with
    | nil => rw [List.merge_right, List.merge_right]
    | cons other second ih =>
      rw [List.nil_merge] at ih ⊢
      rw [List.orderedInsert_nil, List.orderedInsert_cons]
      by_cases before : key item ≤ key other
      · rw [if_pos before, merge_before key before, List.nil_merge]
      · rw [if_neg before, merge_behind key before, ih]
        rfl
  | cons head first ih =>
    induction second with
    | nil => rw [List.merge_right, List.merge_right]
    | cons other second alongSecond =>
      by_cases above : key head ≤ key other
      · rw [merge_before key above, List.orderedInsert_cons, List.orderedInsert_cons]
        by_cases before : key item ≤ key head
        · rw [if_pos before, if_pos before, merge_before key (before.trans above),
            merge_before key above]
        · rw [if_neg before, if_neg before, merge_before key above, ih]
      · rw [merge_behind key above, List.orderedInsert_cons]
        by_cases before : key item ≤ key other
        · -- the item comes before both heads
          have ahead : key item ≤ key head := before.trans (le_of_not_ge above)
          rw [if_pos before, List.orderedInsert_cons, if_pos ahead, merge_before key before,
            merge_behind key above]
        · rw [if_neg before, alongSecond, List.orderedInsert_cons]
          split
          · rw [merge_behind key before]
          · rw [merge_behind key above]

/-- Ranking two lists together merges their rankings. -/
theorem ranked_append (first second : List Item) :
    ranked key (first ++ second) = (ranked key first).merge (ranked key second) (keyLe key) := by
  induction first with
  | nil => rw [List.nil_append, ranked, ranked, List.insertionSort_nil, List.nil_merge]
  | cons item first ih =>
    rw [ranked] at ih ⊢
    rw [List.cons_append, List.insertionSort_cons, ih, orderedInsert_merge,
      ranked, ranked, ranked, List.insertionSort_cons]

/-- What is kept of each group, if it is at least the first few of it, has the first of all. -/
theorem take_ranked_flatMap {limit : Nat} {keep : List Item → List Item}
    {groups : List (List Item)}
    (most : ∀ group ∈ groups, ∃ cap, limit ≤ cap ∧ keep group = (ranked key group).take cap) :
    (ranked key (groups.flatMap keep)).take limit = (ranked key groups.flatten).take limit := by
  induction groups with
  | nil => rfl
  | cons group groups ih =>
    obtain ⟨⟨cap, enough, kept⟩, others⟩ := List.forall_mem_cons.mp most
    have sorted := (ranked_sorted key group).sublist (List.take_sublist cap (ranked key group))
    have kept_sorted : ranked key _ = _ := sorted.insertionSort_eq
    rw [List.flatMap_cons, List.flatten_cons, kept, ranked_append, ranked_append,
      kept_sorted, ← take_merge (keyLe key) limit limit limit (le_refl limit)
        (le_refl limit), List.take_take, Nat.min_eq_left enough, ih others,
      take_merge (keyLe key) limit limit limit (le_refl limit) (le_refl limit)]

end CaracalDB
