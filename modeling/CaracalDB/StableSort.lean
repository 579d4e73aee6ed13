import Mathlib.Data.List.Sort

/-!
# Stable sorts

A stable sort keeps the order of items that are alike, and this determines it: two sorted lists with
the same items of each kind, in the same order, are one list. So a list that is sorted by one key after
another, the last key first, is sorted by all keys lexicographically.
-/

namespace CaracalDB.StableSort

variable {Item Key : Type}

section Sorts

variable (le : Item → Item → Prop) [DecidableRel le]

/-- Whether an order does not tell two items apart. -/
def alike (item other : Item) : Bool := le item other ∧ le other item

/-- Sorting keeps the order of items that all are alike. -/
theorem filter_orderedInsert {kind : Item → Bool}
    (all : ∀ first second, kind first = true → kind second = true → le first second)
    (item : Item) (items : List Item) :
    (items.orderedInsert le item).filter kind = (item :: items).filter kind := by
  induction items with
  | nil => rfl
  | cons head items inductionHypothesis =>
    rw [List.orderedInsert_cons]
    split
    · rfl
    · next behind =>
      by_cases first : kind item = true
      · by_cases second : kind head = true
        · exact absurd (all item head first second) behind
        · simp [inductionHypothesis, first, second]
      · simp [List.filter_cons, inductionHypothesis, first]

theorem filter_insertionSort {kind : Item → Bool}
    (all : ∀ first second, kind first = true → kind second = true → le first second)
    (items : List Item) : (items.insertionSort le).filter kind = items.filter kind := by
  induction items with
  | nil => rfl
  | cons item items inductionHypothesis =>
    rw [List.insertionSort_cons, filter_orderedInsert le all, List.filter_cons,
      inductionHypothesis, List.filter_cons]

variable [Std.Total le]

omit [DecidableRel le] in
theorem le_refl (item : Item) : le item item := (Std.Total.total (r := le) item item).elim id id

/-- Two sorted lists with the same items of each kind, in the same order, are one list. -/
theorem eq_of_kinds {first second : List Item} (firstSorted : first.Pairwise le)
    (secondSorted : second.Pairwise le)
    (same : ∀ item, first.filter (alike le item) = second.filter (alike le item)) :
    first = second := by
  have own : ∀ item, alike le item item = true := by
    intro item
    rw [alike, decide_eq_true_eq]
    exact ⟨le_refl le item, le_refl le item⟩
  induction first generalizing second with
  | nil =>
    cases second with
    | nil => rfl
    | cons other second =>
      have none := same other
      rw [List.filter_cons_of_pos (own other)] at none
      cases none
  | cons item first inductionHypothesis =>
    cases second with
    | nil =>
      have none := same item
      rw [List.filter_cons_of_pos (own item)] at none
      cases none
    | cons other second =>
      -- each of the heads is among the items of the other list
      have inSecond : item ∈ other :: second := by
        have member : item ∈ (item :: first).filter (alike le item) :=
          List.mem_filter.mpr ⟨List.mem_cons_self, own item⟩
        rw [same item] at member
        exact List.mem_of_mem_filter member
      have inFirst : other ∈ item :: first := by
        have member : other ∈ (other :: second).filter (alike le other) :=
          List.mem_filter.mpr ⟨List.mem_cons_self, own other⟩
        rw [← same other] at member
        exact List.mem_of_mem_filter member
      have below : le item other := by
        rcases List.mem_cons.mp inFirst with rfl | later
        · exact le_refl le other
        · exact (List.pairwise_cons.mp firstSorted).1 other later
      have above : le other item := by
        rcases List.mem_cons.mp inSecond with rfl | later
        · exact le_refl le item
        · exact (List.pairwise_cons.mp secondSorted).1 item later
      have both : alike le item other = true := by
        rw [alike, decide_eq_true_eq]
        exact ⟨below, above⟩
      have heads := same item
      rw [List.filter_cons_of_pos (own item), List.filter_cons_of_pos both] at heads
      obtain ⟨isHead, _⟩ := List.cons.inj heads
      subst isHead
      rw [inductionHypothesis (List.pairwise_cons.mp firstSorted).2
        (List.pairwise_cons.mp secondSorted).2]
      intro kind
      have kinds := same kind
      rw [List.filter_cons, List.filter_cons] at kinds
      split at kinds
      · exact (List.cons.inj kinds).2
      · exact kinds

end Sorts

/-! ## Several keys -/

/-- The order by several keys, each deciding between items that those before it do not tell apart. -/
def lexLe (le : Key → Item → Item → Prop) : List Key → Item → Item → Prop
  | [], _, _ => True
  | key :: keys, item, other => le key item other ∧ (le key other item → lexLe le keys item other)

instance lexLe.decidable (le : Key → Item → Item → Prop) [∀ key, DecidableRel (le key)] :
    ∀ keys : List Key, DecidableRel (lexLe le keys)
  | [], _, _ => .isTrue trivial
  | key :: keys, item, other =>
      have := lexLe.decidable le keys item other
      inferInstanceAs (Decidable (le key item other ∧ (le key other item → lexLe le keys item other)))

section Lexicographic

variable {le : Key → Item → Item → Prop} (total : ∀ key, Std.Total (le key))
  (trans : ∀ key, IsTrans Item (le key))

include total in
theorem lexLe_total (keys : List Key) : Std.Total (lexLe le keys) := by
  induction keys with
  | nil => exact ⟨fun _ _ => .inl trivial⟩
  | cons key keys inductionHypothesis =>
    refine ⟨fun item other => ?_⟩
    by_cases below : le key item other
    · by_cases above : le key other item
      · exact (inductionHypothesis.total item other).imp (fun rest => ⟨below, fun _ => rest⟩)
          fun rest => ⟨above, fun _ => rest⟩
      · exact .inl ⟨below, fun same => absurd same above⟩
    · have above := ((total key).total item other).resolve_left below
      exact .inr ⟨above, fun same => absurd same below⟩

include trans in
theorem lexLe_trans (keys : List Key) : IsTrans Item (lexLe le keys) := by
  induction keys with
  | nil => exact ⟨fun _ _ _ _ _ => trivial⟩
  | cons key keys inductionHypothesis =>
    refine ⟨fun first second third before behind => ?_⟩
    refine ⟨(trans key).trans _ _ _ before.1 behind.1, fun back => ?_⟩
    have secondBack := (trans key).trans _ _ _ behind.1 back
    have thirdBack := (trans key).trans _ _ _ back before.1
    exact inductionHypothesis.trans _ _ _ (before.2 secondBack) (behind.2 thirdBack)

variable [∀ key, DecidableRel (le key)]

include total trans in
/-- Sorting by a key what is sorted by others is sorting by the key and then by the others. -/
theorem sort_sorted (key : Key) (keys : List Key) (items : List Item) :
    (items.insertionSort (lexLe le keys)).insertionSort (le key) =
      items.insertionSort (lexLe le (key :: keys)) := by
  have := total key
  have := trans key
  have := lexLe_total total keys
  have := lexLe_trans trans keys
  have := lexLe_total total (key :: keys)
  have := lexLe_trans trans (key :: keys)
  refine eq_of_kinds (lexLe le (key :: keys)) ?_ (List.pairwise_insertionSort _ _) ?_
  · rw [List.pairwise_iff_forall_sublist]
    intro item other both
    have sorted := List.pairwise_iff_forall_sublist.mp
      (List.pairwise_insertionSort (le key) (items.insertionSort (lexLe le keys))) both
    refine ⟨sorted, fun back => ?_⟩
    -- items that the key does not tell apart keep the order that they had
    have kept := both.filter (alike (le key) item)
    rw [filter_insertionSort] at kept
    · have isItem : alike (le key) item item = true := by
        rw [alike, decide_eq_true_eq]
        exact ⟨le_refl (le key) item, le_refl (le key) item⟩
      have isOther : alike (le key) item other = true := by
        rw [alike, decide_eq_true_eq]
        exact ⟨sorted, back⟩
      rw [List.filter_cons_of_pos isItem, List.filter_cons_of_pos isOther, List.filter_nil] at kept
      exact List.pairwise_iff_forall_sublist.mp (List.pairwise_insertionSort (lexLe le keys) items)
        (kept.trans List.filter_sublist)
    · intro first second isFirst isSecond
      rw [alike, decide_eq_true_eq] at isFirst isSecond
      exact (trans key).trans _ _ _ isFirst.2 isSecond.1
  · intro kind
    have within : ∀ first second, alike (lexLe le (key :: keys)) kind first = true →
        alike (lexLe le (key :: keys)) kind second = true →
          lexLe le (key :: keys) first second := by
      intro first second isFirst isSecond
      rw [alike, decide_eq_true_eq] at isFirst isSecond
      exact (lexLe_trans trans (key :: keys)).trans _ _ _ isFirst.2 isSecond.1
    rw [filter_insertionSort _ within, filter_insertionSort, filter_insertionSort]
    · intro first second isFirst isSecond
      have back := within second first isSecond isFirst
      exact (within first second isFirst isSecond).2 back.1
    · intro first second isFirst isSecond
      exact (within first second isFirst isSecond).1

include total trans in
/-- Sorting by one key after another, the last key first, is sorting by all of them. -/
theorem sorts_eq (keys : List Key) (items : List Item) :
    keys.foldr (fun key sorted => sorted.insertionSort (le key)) items =
      items.insertionSort (lexLe le keys) := by
  induction keys with
  | nil =>
    have sorted : items.Pairwise (lexLe le ([] : List Key)) :=
      List.pairwise_of_forall fun _ _ => trivial
    exact sorted.insertionSort_eq.symm
  | cons key keys inductionHypothesis =>
    rw [List.foldr_cons, inductionHypothesis]
    exact sort_sorted total trans key keys items

end Lexicographic

end CaracalDB.StableSort
