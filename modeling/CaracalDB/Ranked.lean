import Mathlib.Data.List.Sort

/-!
# Ranking by a key

Things are ranked by a key of a linear order. When no two of them have the same
key, the ranking depends only on which things there are; leaving some of them out
leaves their ranking, and leaves the first few exactly when none of these is left
out.
-/

namespace CaracalDB

variable {Item Key : Type} [LinearOrder Key]

/-- The items in the order of their keys, equal keys in the order given. -/
def ranked (key : Item → Key) (items : List Item) : List Item :=
  items.insertionSort fun left right => key left ≤ key right

theorem ranked_perm (key : Item → Key) (items : List Item) : (ranked key items).Perm items :=
  List.perm_insertionSort _ items

theorem mem_ranked {key : Item → Key} {items : List Item} {item : Item} :
    item ∈ ranked key items ↔ item ∈ items := (ranked_perm key items).mem_iff

theorem ranked_sorted (key : Item → Key) (items : List Item) :
    (ranked key items).Pairwise fun left right => key left ≤ key right := by
  have : Std.Total fun left right : Item => key left ≤ key right :=
    ⟨fun left right => le_total (key left) (key right)⟩
  have : IsTrans Item fun left right => key left ≤ key right := ⟨fun _ _ _ => le_trans⟩
  exact List.pairwise_insertionSort _ items

/-- Two rankings of the same items, no two of which have one key, are the same. -/
theorem sorted_unique {key : Item → Key} {first second : List Item}
    (distinct : (first.map key).Nodup) (same : first.Perm second)
    (firstSorted : first.Pairwise fun left right => key left ≤ key right)
    (secondSorted : second.Pairwise fun left right => key left ≤ key right) : first = second := by
  refine List.Perm.eq_of_pairwise ?_ firstSorted secondSorted same
  intro left right inFirst inSecond below above
  exact List.inj_on_of_nodup_map distinct inFirst (same.mem_iff.mpr inSecond)
    (le_antisymm below above)

theorem ranked_eq_of_perm {key : Item → Key} {first second : List Item}
    (distinct : (first.map key).Nodup) (same : first.Perm second) :
    ranked key first = ranked key second := by
  refine sorted_unique ?_ ?_ (ranked_sorted key first) (ranked_sorted key second)
  · exact ((ranked_perm key first).map key).nodup_iff.mpr distinct
  · exact (ranked_perm key first).trans (same.trans (ranked_perm key second).symm)

/-- Ranking some of the items is leaving the others out of the ranking. -/
theorem ranked_filter {key : Item → Key} {items : List Item} (distinct : (items.map key).Nodup)
    (keeps : Item → Bool) :
    ranked key (items.filter keeps) = (ranked key items).filter keeps := by
  refine sorted_unique ?_ ?_ (ranked_sorted key _) ((ranked_sorted key items).filter keeps)
  · refine ((ranked_perm key _).map key).nodup_iff.mpr ?_
    exact distinct.sublist (List.filter_sublist.map key)
  · exact (ranked_perm key _).trans ((ranked_perm key items).symm.filter keeps)

/-- Leaving items out leaves the first few exactly when none of these is left out. -/
theorem take_filter_eq_iff (keeps : Item → Bool) (count : Nat) (items : List Item) :
    (items.filter keeps).take count = items.take count ↔
      ∀ item ∈ items.take count, keeps item = true := by
  constructor
  · intro same item member
    rw [← same] at member
    exact List.of_mem_filter (List.mem_of_mem_take member)
  · intro all
    induction items generalizing count with
    | nil => simp
    | cons head rest inductionHypothesis =>
      cases count with
      | zero => simp
      | succ count =>
        rw [List.take_succ_cons] at all
        rw [List.filter_cons_of_pos (all head List.mem_cons_self), List.take_succ_cons,
          List.take_succ_cons, inductionHypothesis count fun item member =>
            all item (List.mem_cons_of_mem head member)]

end CaracalDB
