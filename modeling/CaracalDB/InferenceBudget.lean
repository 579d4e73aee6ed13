import CaracalDB.InferredHistory
import CaracalDB.TransitiveInference
import Mathlib.Data.Set.Card
import Mathlib.Data.Set.Finite.Basic
import Mathlib.Data.Set.Finite.List

/-!
# The budget of transitive inference

The budget is compared in the middle of a pass, and every pass before has stored what it added. So
whether an exhausted budget leaves the store as it was depends on the pass that exhausts it, and a
closure that adds as many edges as the budget has exhausts it with its last one.
-/

namespace CaracalDB.Reasoner

open Mixed Relation Walks

/-! ## What passes add -/

/-- The pairs that some passes add to edges: what walks join that are at most two to their number long,
without the edges. -/
def addedWithin (edges : List (Nat × Nat)) (passes : Nat) : Set (Nat × Nat) :=
  {pair | pair ∉ edges ∧ ∃ length, 0 < length ∧ length ≤ 2 ^ passes ∧
    Walk (Related edges) length pair.1 pair.2}

/-- The pairs that the transitive closure adds to edges. -/
def closureAdds (edges : List (Nat × Nat)) : Set (Nat × Nat) :=
  {pair | pair ∉ edges ∧ TransGen (Related edges) pair.1 pair.2}

section Added

variable {edges : List (Nat × Nat)}

theorem transGen_of_walk {length : Nat} {source target : Nat} (positive : 0 < length)
    (walk : Walk (Related edges) length source target) : TransGen (Related edges) source target := by
  obtain ⟨length, rfl⟩ := Nat.exists_eq_succ_of_ne_zero positive.ne'
  induction length generalizing target with
  | zero => exact .single (walk_one.mp walk)
  | succ length inductionHypothesis =>
    obtain ⟨middle, before, last⟩ := walk_succ.mp walk
    exact .tail (inductionHypothesis (Nat.succ_pos _) before) last

theorem addedWithin_subset (edges : List (Nat × Nat)) (passes : Nat) :
    addedWithin edges passes ⊆ closureAdds edges := by
  rintro pair ⟨fresh, length, positive, _, walk⟩
  exact ⟨fresh, transGen_of_walk positive walk⟩

theorem addedWithin_mono {passes more : Nat} (least : passes ≤ more) :
    addedWithin edges passes ⊆ addedWithin edges more := by
  rintro pair ⟨fresh, length, positive, within, walk⟩
  exact ⟨fresh, length, positive, within.trans (Nat.pow_le_pow_right Nat.two_pos least), walk⟩

/-- The closure of finitely many edges has finitely many pairs. -/
theorem closureAdds_finite (edges : List (Nat × Nat)) : (closureAdds edges).Finite := by
  refine (List.finite_toSet ((edges.map Prod.fst) ×ˢ (edges.map Prod.snd))).subset ?_
  rintro ⟨source, target⟩ ⟨_, path⟩
  obtain ⟨_, first, _⟩ := TransGen.head'_iff.mp path
  obtain ⟨_, _, last⟩ := TransGen.tail'_iff.mp path
  exact List.mem_product.mpr
    ⟨List.mem_map_of_mem (f := Prod.fst) first, List.mem_map_of_mem (f := Prod.snd) last⟩

theorem addedWithin_finite (edges : List (Nat × Nat)) (passes : Nat) :
    (addedWithin edges passes).Finite :=
  (closureAdds_finite edges).subset (addedWithin_subset edges passes)

theorem addedWithin_zero : addedWithin edges 0 = ∅ := by
  ext pair
  refine iff_of_false ?_ (Set.notMem_empty pair)
  rintro ⟨fresh, length, positive, within, walk⟩
  obtain rfl : length = 1 := by
    rw [Nat.pow_zero] at within
    omega
  exact fresh (walk_one.mp walk)

/-- Nothing is added before the first pass. -/
theorem nothing_added (edges : List (Nat × Nat)) (pair : Nat × Nat) :
    pair ∈ ([] : List (Nat × Nat)) ↔ pair ∈ addedWithin edges 0 := by
  rw [addedWithin_zero]
  simp

theorem ncard_mono {passes more : Nat} (least : passes ≤ more) :
    (addedWithin edges passes).ncard ≤ (addedWithin edges more).ncard :=
  Set.ncard_le_ncard (addedWithin_mono least) (addedWithin_finite edges more)

/-- Edges with what some passes add have the ends of all walks of the length of the passes. -/
theorem mem_passed {appended : List (Nat × Nat)} {passes : Nat}
    (members : ∀ pair, pair ∈ appended ↔ pair ∈ addedWithin edges passes) (pair : Nat × Nat) :
    pair ∈ edges ++ appended ↔ ∃ length, 0 < length ∧ length ≤ 2 ^ passes ∧
      Walk (Related edges) length pair.1 pair.2 := by
  rw [List.mem_append, members]
  constructor
  · rintro (old | ⟨_, reached⟩)
    · exact ⟨1, Nat.one_pos, Nat.one_le_two_pow, walk_one.mpr old⟩
    · exact reached
  · intro reached
    by_cases old : pair ∈ edges
    · left
      exact old
    · right
      exact ⟨old, reached⟩

/-- One more pass doubles the length of the walks. -/
theorem mem_next {appended : List (Nat × Nat)} {passes : Nat}
    (members : ∀ pair, pair ∈ appended ↔ pair ∈ addedWithin edges passes) (pair : Nat × Nat) :
    pair ∈ appended ∨ Composed (edges ++ appended) pair ∧ pair ∉ edges ++ appended ↔
      pair ∈ addedWithin edges (passes + 1) := by
  have passed := mem_passed members
  constructor
  · rintro (earlier | ⟨⟨middle, first, second⟩, fresh⟩)
    · exact addedWithin_mono (Nat.le_succ passes) ((members pair).mp earlier)
    · obtain ⟨front, positive, short, before⟩ := (passed _).mp first
      obtain ⟨back, _, shortToo, behind⟩ := (passed _).mp second
      refine ⟨fun old => fresh (List.mem_append_left _ old), front + back, by omega, ?_,
        before.join behind⟩
      rw [Nat.pow_succ]
      omega
  · rintro ⟨fresh, length, positive, within, walk⟩
    by_cases earlier : pair ∈ appended
    · left
      exact earlier
    · have absent : pair ∉ edges ++ appended := fun member =>
        (List.mem_append.mp member).elim fresh earlier
      right
      refine ⟨?_, absent⟩
      have long : 2 ^ passes < length := by
        by_contra short
        exact absent ((passed pair).mpr ⟨length, positive, Nat.le_of_not_lt short, walk⟩)
      obtain ⟨rest, rfl⟩ := Nat.exists_eq_add_of_lt long
      rw [Nat.add_assoc] at walk
      obtain ⟨middle, before, behind⟩ := walk.split
      refine ⟨middle, (passed _).mpr ⟨_, Nat.two_pow_pos passes, le_refl _, before⟩,
        (passed _).mpr ⟨_, Nat.succ_pos rest, ?_, behind⟩⟩
      rw [Nat.pow_succ] at within
      omega

/-- A list of all of them, each once, has their number. -/
theorem length_eq_ncard {appended : List (Nat × Nat)} {passes : Nat} (once : appended.Nodup)
    (members : ∀ pair, pair ∈ appended ↔ pair ∈ addedWithin edges passes) :
    appended.length = (addedWithin edges passes).ncard := by
  have same : addedWithin edges passes = (appended.toFinset : Set (Nat × Nat)) := by
    ext pair
    rw [← members, Finset.mem_coe, List.mem_toFinset]
  rw [same, Set.ncard_coe_finset, List.toFinset_card_of_nodup once]

end Added

/-! ## The loop with a budget -/

/-- A pass raises nothing but that the budget is exhausted. -/
theorem composeLoop_raises {triple_budget : Option Int} {property_iri : String} {total_new : Nat}
    {candidates edges additions : List (Nat × Nat)} {raised : Raised}
    (fails : composeLoop triple_budget property_iri total_new candidates edges additions =
      .error raised) : ∃ budget ∈ triple_budget, raised = budgetError budget property_iri := by
  induction candidates generalizing edges additions with
  | nil => cases fails
  | cons pair candidates inductionHypothesis =>
    rw [composeLoop] at fails
    split at fails
    · exact inductionHypothesis fails
    · simp only at fails
      split at fails
      · next budget exhausted =>
        cases fails
        exact ⟨budget, (Option.filter_eq_some_iff.mp exhausted).1, rfl⟩
      · exact inductionHypothesis fails

/-- What the loop does behind some passes that added some pairs. -/
inductive Outcome (edges : List (Nat × Nat)) (triple_budget : Option Int) (property_iri : String)
    (first last : Nat) (before : StoreFiles) : Except Raised (Nat × Nat) × StoreFiles → Prop
  /-- No pass that adds something comes to the budget. -/
  | answered {answer : Nat × Nat} {after : StoreFiles}
      (within : ∀ budget ∈ triple_budget,
        (addedWithin edges last).ncard = (addedWithin edges first).ncard ∨
          ((addedWithin edges last).ncard : Int) < budget) :
      Outcome edges triple_budget property_iri first last before (.ok answer, after)
  /-- A pass comes to the budget, and the store has what the passes before it added. -/
  | exhausted {budget : Int} {passes : Nat} {after : StoreFiles} {appended : List (Nat × Nat)}
      (given : budget ∈ triple_budget) (from_first : first ≤ passes) (early : passes < last)
      (grows : (addedWithin edges passes).ncard < (addedWithin edges (passes + 1)).ncard)
      (reached : budget ≤ ((addedWithin edges (passes + 1)).ncard : Int))
      (clear : first < passes → ((addedWithin edges passes).ncard : Int) < budget)
      (table : EdgeTable after pairSchema (edges ++ appended))
      (size : appended.length = (addedWithin edges passes).ncard)
      (unchanged : passes = first → after = before) :
      Outcome edges triple_budget property_iri first last before
        (.error (budgetError budget property_iri), after)

section Loop

variable {edges : List (Nat × Nat)} {order : Listing (Nat × Nat)} {targets : Listing Nat}
  {triple_budget : Option Int} {property_iri : String}

/-- A pass that adds nothing is followed by none that adds something. -/
theorem addedWithin_last {appended : List (Nat × Nat)} {passes : Nat}
    (members : ∀ pair, pair ∈ appended ↔ pair ∈ addedWithin edges passes)
    (closed : ∀ pair, Composed (edges ++ appended) pair → pair ∈ edges ++ appended) {later : Nat}
    (least : passes ≤ later) : addedWithin edges later = addedWithin edges passes := by
  refine Set.Subset.antisymm ?_ (addedWithin_mono least)
  rintro pair ⟨fresh, length, positive, _, walk⟩
  have held : pair ∈ edges ++ appended := by
    have transitive : ∀ start middle stop, Related (edges ++ appended) start middle →
        Related (edges ++ appended) middle stop → Related (edges ++ appended) start stop :=
      fun start middle stop first second => closed (start, stop) ⟨middle, first, second⟩
    have keeps (start stop : Nat) (old : Related edges start stop) :
        Related (edges ++ appended) start stop := List.mem_append_left _ old
    have reaches (start stop : Nat) (path : TransGen (Related edges) start stop) :
        Related (edges ++ appended) start stop := by
      induction path with
      | single first => exact keeps _ _ first
      | tail _ last inductionHypothesis =>
        exact transitive _ _ _ inductionHypothesis (keeps _ _ last)
    exact reaches _ _ (transGen_of_walk positive walk)
  exact (members pair).mp ((List.mem_append.mp held).resolve_left fresh)

theorem closureLoop_outcome (left first : Nat) {store : StoreFiles}
    {appended working : List (Nat × Nat)} (table : EdgeTable store pairSchema (edges ++ appended))
    (once : appended.Nodup) (members : ∀ pair, pair ∈ appended ↔ pair ∈ addedWithin edges first)
    (same : ∀ pair, pair ∈ working ↔ pair ∈ edges ++ appended) (iteration : Nat) :
    Outcome edges triple_budget property_iri first (first + left) store
      (closureLoop order targets triple_budget property_iri left working appended.length iteration
        store) := by
  induction left generalizing first store appended working iteration with
  | zero => exact .answered fun _ _ => .inl rfl
  | succ left inductionHypothesis =>
    obtain ⟨added, onceAdded, membersAdded, passes, stops⟩ := composeLoop_spec triple_budget property_iri
      appended.length (composedPairs order targets working) working []
    have composed (pair : Nat × Nat) : pair ∈ added ↔
        Composed (edges ++ appended) pair ∧ pair ∉ edges ++ appended := by
      rw [membersAdded, mem_composedPairs, Composed, Composed]
      simp only [same]
    have next (pair : Nat × Nat) : pair ∈ appended ++ added ↔ pair ∈ addedWithin edges (first + 1) := by
      rw [List.mem_append, composed, mem_next members]
    have onceNext : (appended ++ added).Nodup := by
      refine List.nodup_append.mpr ⟨once, onceAdded, ?_⟩
      rintro pair earlier _ isAdded rfl
      exact ((composed pair).mp isAdded).2 (List.mem_append_right _ earlier)
    have size := length_eq_ncard once members
    have sizeNext := length_eq_ncard onceNext next
    rw [List.length_append] at sizeNext
    simp only [List.length_nil, Nat.add_zero, sizeNext] at passes stops
    rw [closureLoop]
    by_cases nothing : added = []
    · rw [passes fun _ _ => .inl nothing]
      simp only [List.nil_append, nothing, if_true]
      refine .answered fun _ _ => .inl ?_
      rw [addedWithin_last members ?_ (Nat.le_add_right first (left + 1))]
      intro pair isComposed
      by_contra absent
      have isAdded := (composed pair).mpr ⟨isComposed, absent⟩
      rw [nothing] at isAdded
      cases isAdded
    · have positive : 0 < added.length := List.length_pos_of_ne_nil nothing
      by_cases within : ∀ budget ∈ triple_budget,
          ((addedWithin edges (first + 1)).ncard : Int) < budget
      · rw [passes fun budget given => .inr (within budget given)]
        obtain ⟨appends, tableAfter⟩ := appendEdges_ok table nothing
        rw [List.append_assoc] at tableAfter
        simp only [List.nil_append, nothing, if_false, appends]
        have sameNext (pair : Nat × Nat) :
            pair ∈ working ++ added ↔ pair ∈ edges ++ (appended ++ added) := by
          rw [← List.append_assoc, List.mem_append, same, List.mem_append (t := added)]
        have rest := inductionHypothesis (first + 1) tableAfter onceNext next sameNext (iteration + 1)
        rw [List.length_append] at rest
        have last : first + 1 + left = first + (left + 1) := by omega
        rw [last] at rest
        generalize closureLoop order targets triple_budget property_iri left (working ++ added)
          (appended.length + added.length) (iteration + 1) _ = result at rest
        cases rest with
        | answered short =>
          refine .answered fun budget given => .inr ?_
          rcases short budget given with equal | below
          · rw [equal]
            exact within budget given
          · exact below
        | exhausted given from_first early grows reached clear final number _ =>
          refine .exhausted given (by omega) early grows reached (fun _ => ?_) final number (by omega)
          rcases Nat.lt_or_ge (first + 1) _ with later | now
          · exact clear later
          · obtain rfl := Nat.le_antisymm now from_first
            exact within _ given
      · obtain ⟨budget, given, reached⟩ : ∃ budget ∈ triple_budget,
            budget ≤ ((addedWithin edges (first + 1)).ncard : Int) := by
          by_contra clear
          exact within fun budget given => Int.not_le.mp fun reached => clear ⟨budget, given, reached⟩
        obtain ⟨raised, failed⟩ := stops budget given nothing reached
        obtain ⟨exhausted, isGiven, rfl⟩ := composeLoop_raises failed
        rw [Option.mem_unique given isGiven] at reached
        rw [failed]
        exact .exhausted isGiven (le_refl first) (by omega) (by omega) reached (fun later => by omega) table
          size fun _ => rfl

end Loop

/-! ## The call -/

/-- An append that is refused has the code of the edge store. -/
theorem appendEdges_code {store : StoreFiles} {schema : Schema} {edges pairs : List (Nat × Nat)}
    (table : EdgeTable store schema edges) {raised : Raised}
    (refused : appendEdges store pairs = .error raised) : raised.code = some "CDB-7021" := by
  rw [appendEdges] at refused
  split at refused
  · cases refused
  · have decides : Decides _ (pythonAppendEdges store (pairBatch pairs) 0) _ _ :=
      pythonAppendEdges_decides (fun _ _ => pairSchema_facts.1) table.firstShaped
    by_cases accepts : Accepts .edges store (pairBatch pairs)
    · rw [decides.accepted accepts] at refused
      cases refused
    · obtain ⟨message, raises⟩ := decides.refused accepts
      rw [raises] at refused
      cases refused
      rfl

/-- Does a call raise TF-6012? -/
def Exhausted (result : Except Raised ReasonerReport) : Prop :=
  ∃ raised, result = .error raised ∧ raised.code = some "TF-6012"

/-- An exhausted budget leaves the store as it was, and a budget that the closure does not exceed is
not exhausted. -/
def Atomic (edges : List (Nat × Nat)) (triple_budget : Option Int) (before : StoreFiles)
    (outcome : Except Raised ReasonerReport × Session) : Prop :=
  (Exhausted outcome.1 → outcome.2.store = before) ∧
    ∀ budget ∈ triple_budget, ((closureAdds edges).ncard : Int) ≤ budget → ¬ Exhausted outcome.1

/-- The passes that can add something: a store with other columns than the two endpoints refuses what
the first pass adds. -/
def passesOf (schema : Schema) (max_iterations : Int) : Nat :=
  if keys schema = keys pairSchema then max_iterations.toNat else min 1 max_iterations.toNat

section Call

variable {store : StoreFiles} {schema : Schema} {edges : List (Nat × Nat)}
  {order : Listing (Nat × Nat)} {targets : Listing Nat} {property_iri : String}
  {max_iterations : Int} {triple_budget : Option Int} {wal : Option (List InferRecord)}

/-- The pairs that the first pass adds. -/
theorem length_missingPairs (edges : List (Nat × Nat)) :
    (missingPairs edges).length = (addedWithin edges 1).ncard := by
  refine length_eq_ncard (List.nodup_dedup _) fun pair => ?_
  rw [← mem_next (nothing_added edges), mem_missingPairs, List.append_nil]
  simp

/-- If some passes add something, then the first does. -/
theorem first_positive {passes : Nat} (some_added : 0 < (addedWithin edges passes).ncard) :
    0 < (addedWithin edges 1).ncard := by
  rw [← length_missingPairs]
  by_contra none
  have complete : missingPairs edges = [] := List.eq_nil_of_length_eq_zero (by omega)
  have last := addedWithin_last (nothing_added edges) (fun pair composed => ?_) (Nat.zero_le passes)
  · rw [last, addedWithin_zero, Set.ncard_empty] at some_added
    exact lt_irrefl 0 some_added
  · rw [List.append_nil] at composed ⊢
    by_contra absent
    have missing := mem_missingPairs.mpr ⟨composed, absent⟩
    rw [complete] at missing
    cases missing

/-- A table has as many edges as its store has rows. -/
theorem EdgeTable.rows_length {other : Schema} {more : List (Nat × Nat)}
    (table : EdgeTable store schema edges) (tableToo : EdgeTable store other (edges ++ more)) :
    more = [] := by
  have first := congrArg List.length table.rows
  have second := congrArg List.length tableToo.rows
  rw [List.length_map, List.length_map] at first second
  rw [List.length_append] at second
  exact List.eq_nil_of_length_eq_zero (by omega)

theorem not_exhausted_ok (report : ReasonerReport) : ¬ Exhausted (.ok report) := by
  rintro ⟨_, same, _⟩
  cases same

theorem not_exhausted_code {raised : Raised} {code : String} (coded : raised.code = some code)
    (other : code ≠ "TF-6012") : ¬ Exhausted (.error raised) := by
  rintro ⟨_, same, exhausted⟩
  cases same
  rw [coded] at exhausted
  exact other (Option.some.inj exhausted)

theorem exhausted_budget (budget : Int) (property_iri : String) :
    Exhausted (.error (budgetError budget property_iri)) := ⟨_, rfl, rfl⟩

/-- Where the budget is not exhausted, there is nothing to show. -/
theorem atomic_of_not {outcome : Except Raised ReasonerReport × Session}
    (not : ¬ Exhausted outcome.1) : Atomic edges triple_budget store outcome :=
  ⟨fun exhausted => absurd exhausted not, fun _ _ _ => not⟩

/-- The condition on what the passes add: if they come to the budget, then the first does, and the
closure exceeds it. -/
def Spared (edges : List (Nat × Nat)) (triple_budget : Option Int) (passes : Nat) : Prop :=
  ∀ budget ∈ triple_budget, 0 < (addedWithin edges passes).ncard →
    budget ≤ ((addedWithin edges passes).ncard : Int) →
      budget ≤ ((addedWithin edges 1).ncard : Int) ∧ budget < ((closureAdds edges).ncard : Int)

theorem spared_zero (edges : List (Nat × Nat)) (triple_budget : Option Int) :
    Spared edges triple_budget 0 := by
  intro budget _ some_added
  rw [addedWithin_zero, Set.ncard_empty] at some_added
  exact absurd some_added (lt_irrefl 0)

/-- On a store of pairs. -/
theorem atomic_pairs (table : EdgeTable store pairSchema edges) (positive : 0 < max_iterations) :
    Atomic edges triple_budget store (inferTransitive order targets property_iri max_iterations
      triple_budget { store, wal }) ↔ Spared edges triple_budget max_iterations.toNat := by
  have outcome : Outcome edges triple_budget property_iri 0 (0 + max_iterations.toNat) store
      (closureLoop order targets triple_budget property_iri max_iterations.toNat edges.eraseDups 0 0
        store) := by
    refine closureLoop_outcome max_iterations.toNat 0
      ((List.append_nil edges).symm ▸ table) List.nodup_nil (nothing_added edges) (fun pair => ?_) 0
    rw [List.mem_eraseDups, List.append_nil]
  have allowed : ¬ max_iterations ≤ 0 := by omega
  rw [Nat.zero_add] at outcome
  rw [inferTransitive, if_neg allowed]
  simp only [existingEdges_ok table]
  generalize closureLoop order targets triple_budget property_iri max_iterations.toNat edges.eraseDups 0 0
    store = result at outcome
  cases outcome with
  | answered within =>
    refine iff_of_true (atomic_of_not (not_exhausted_ok _)) fun budget given some_added reached => ?_
    rw [addedWithin_zero, Set.ncard_empty] at within
    rcases within budget given with none | below
    · omega
    · omega
  | @exhausted budget passes after appended given _ early grows reached clear final size unchanged =>
    have bound : (addedWithin edges (passes + 1)).ncard ≤
        (addedWithin edges max_iterations.toNat).ncard := ncard_mono early
    have spared : Spared edges triple_budget max_iterations.toNat ↔
        budget ≤ ((addedWithin edges 1).ncard : Int) ∧
          budget < ((closureAdds edges).ncard : Int) := by
      constructor
      · intro spared
        exact spared budget given (by omega) (by omega)
      · intro both other isGiven _ _
        rw [Option.mem_unique isGiven given]
        exact both
    have kept : after = store ↔ budget ≤ ((addedWithin edges 1).ncard : Int) := by
      rcases Nat.eq_zero_or_pos passes with rfl | later
      · exact iff_of_true (unchanged rfl) reached
      · have least : (addedWithin edges 1).ncard ≤ (addedWithin edges passes).ncard := ncard_mono later
        have below := clear later
        refine iff_of_false (fun same => ?_) (by omega)
        have nothing := table.rows_length (same ▸ final)
        rw [nothing, List.length_nil] at size
        have first : 0 < (addedWithin edges 1).ncard := first_positive (Nat.lt_of_le_of_lt (Nat.zero_le _) grows)
        omega
    rw [spared, ← kept]
    constructor
    · rintro ⟨same, sufficient⟩
      refine ⟨same (exhausted_budget budget property_iri), ?_⟩
      by_contra enough
      exact sufficient budget given (by omega) (exhausted_budget budget property_iri)
    · rintro ⟨same, exceeded⟩
      refine ⟨fun _ => same, fun other isGiven enough => ?_⟩
      rw [Option.mem_unique isGiven given] at enough
      omega

/-- On a store with other columns only the first pass is made. -/
theorem atomic_other (table : EdgeTable store schema edges) (positive : 0 < max_iterations)
    (other : keys schema ≠ keys pairSchema) :
    Atomic edges triple_budget store (inferTransitive order targets property_iri max_iterations
      triple_budget { store, wal }) ↔ Spared edges triple_budget 1 := by
  obtain ⟨added, empty, proceeds, stops⟩ := first_pass order targets property_iri edges triple_budget
  obtain ⟨left, passes⟩ : ∃ left, max_iterations.toNat = left + 1 :=
    Nat.exists_eq_succ_of_ne_zero (by omega)
  have allowed : ¬ max_iterations ≤ 0 := by omega
  have size := length_missingPairs edges
  rw [inferTransitive, if_neg allowed]
  simp only [existingEdges_ok table, passes, closureLoop]
  by_cases complete : missingPairs edges = []
  · rw [proceeds fun _ _ => .inl complete]
    simp only [empty.mpr complete, if_true]
    refine iff_of_true (atomic_of_not (not_exhausted_ok _)) fun budget _ some_added _ => ?_
    rw [← size, complete] at some_added
    exact absurd some_added (lt_irrefl 0)
  · by_cases within : ∀ budget ∈ triple_budget, ((missingPairs edges).length : Int) < budget
    · have some_added : added ≠ [] := fun nothing => complete (empty.mp nothing)
      have some_edges : edges ≠ [] := by
        rintro rfl
        exact complete rfl
      obtain ⟨raised, refused⟩ := appendEdges_refused table some_edges some_added other
      rw [proceeds fun budget given => .inr (within budget given)]
      simp only [some_added, if_false, refused]
      have apart : "CDB-7021" ≠ "TF-6012" := by decide
      refine iff_of_true (atomic_of_not (not_exhausted_code (appendEdges_code table refused) apart)) ?_
      intro budget given _ reached
      have below := within budget given
      omega
    · obtain ⟨budget, given, reached⟩ : ∃ budget ∈ triple_budget,
          budget ≤ ((missingPairs edges).length : Int) := by
        by_contra clear
        exact within fun budget given => Int.not_le.mp fun reached => clear ⟨budget, given, reached⟩
      obtain ⟨raised, failed⟩ := stops budget given complete reached
      obtain ⟨exhausted, isGiven, rfl⟩ := composeLoop_raises failed
      obtain rfl := Option.mem_unique given isGiven
      have some_missing := List.length_pos_of_ne_nil complete
      rw [failed]
      constructor
      · rintro ⟨_, sufficient⟩ other isOther _ _
        obtain rfl := Option.mem_unique given isOther
        refine ⟨by omega, ?_⟩
        by_contra enough
        exact sufficient budget given (by omega) (exhausted_budget budget property_iri)
      · intro spared
        refine ⟨fun _ => rfl, fun other isOther enough => ?_⟩
        obtain rfl := Option.mem_unique given isOther
        have exceeded := (spared budget given (by omega) (by omega)).2
        omega

/-- Transitive inference leaves a store as it was where its budget is exhausted, and it does not exhaust
a budget that the closure does not exceed, exactly if its passes do not come to the budget or the first
does and the closure exceeds it. -/
theorem budget_atomic (order : Listing (Nat × Nat)) (targets : Listing Nat) (property_iri : String)
    (table : EdgeTable store schema edges) (max_iterations : Int) (triple_budget : Option Int)
    (wal : Option (List InferRecord)) :
    Atomic edges triple_budget store (inferTransitive order targets property_iri max_iterations
      triple_budget { store, wal }) ↔ Spared edges triple_budget (passesOf schema max_iterations) := by
  rw [passesOf]
  rcases lt_or_ge 0 max_iterations with positive | none
  · split
    · next same => exact atomic_pairs (table.as_pairs same) positive
    · next other =>
      have one : min 1 max_iterations.toNat = 1 := by omega
      rw [one]
      exact atomic_other table positive other
  · have zero : max_iterations.toNat = 0 := by omega
    rw [inferTransitive, if_pos none, zero, Nat.min_zero, ite_self]
    have apart : "CDB-9510" ≠ "TF-6012" := by decide
    exact iff_of_true (atomic_of_not (not_exhausted_code rfl apart)) (spared_zero edges triple_budget)

end Call

/-- A budget of zero is exhausted by the first pair, before anything is stored. -/
theorem path_spared : Atomic [(0, 1), (1, 2)] (some 0) pathStore
    (inferTransitive .added .added "follows" 16 (some 0) { store := pathStore, wal := none }) := by
  refine (budget_atomic .added .added "follows" pathStore_table 16 (some 0) none).mpr ?_
  intro budget given _ _
  cases given
  have path : TransGen (Related [(0, 1), (1, 2)]) 0 2 :=
    .tail (.single List.mem_cons_self) (List.mem_cons_of_mem _ List.mem_cons_self)
  have positive := (Set.ncard_pos (closureAdds_finite [(0, 1), (1, 2)])).mpr ⟨(0, 2), by decide, path⟩
  omega

/-- A store with the edges of a longer path, written by one append. -/
def chainStore : StoreFiles :=
  StoreFiles.push { next_id := 0, chunks := [] } (pythonSchema .edges pairSchema)
    [[(0, 1), (1, 2), (2, 3)].map pairValues] 0

theorem chainStore_table : EdgeTable chainStore pairSchema [(0, 1), (1, 2), (2, 3)] :=
  (appendEdges_ok (edgeTable_new pairSchema_facts) (List.cons_ne_nil _ _)).2

/-- The closure of a path of three edges adds three pairs, and so do two passes. -/
theorem chain_adds (passes : Nat) (enough : 2 ≤ passes) :
    (closureAdds [(0, 1), (1, 2), (2, 3)]).ncard = 3 ∧
      (addedWithin [(0, 1), (1, 2), (2, 3)] passes).ncard = 3 := by
  have first : Related [(0, 1), (1, 2), (2, 3)] 0 1 := List.mem_cons_self
  have second : Related [(0, 1), (1, 2), (2, 3)] 1 2 := List.mem_cons_of_mem _ List.mem_cons_self
  have third : Related [(0, 1), (1, 2), (2, 3)] 2 3 :=
    List.mem_cons_of_mem _ (List.mem_cons_of_mem _ List.mem_cons_self)
  have reaches (source target : Nat) (path : TransGen (Related [(0, 1), (1, 2), (2, 3)]) source target) :
      source < target ∧ target ≤ 3 := by
    have step (source target : Nat) (edge : Related [(0, 1), (1, 2), (2, 3)] source target) :
        target = source + 1 ∧ target ≤ 3 := by
      simp only [Related, List.mem_cons, Prod.mk.injEq, List.not_mem_nil, or_false] at edge
      omega
    induction path with
    | single edge =>
      have next := step _ _ edge
      omega
    | tail _ edge inductionHypothesis =>
      have next := step _ _ edge
      omega
  have least : (({(0, 2), (1, 3), (0, 3)} : Finset (Nat × Nat)) : Set (Nat × Nat)) ⊆
      addedWithin [(0, 1), (1, 2), (2, 3)] passes := by
    have long : 4 ≤ 2 ^ passes := Nat.pow_le_pow_right (show 0 < 2 by decide) enough
    intro pair member
    simp only [Finset.coe_insert, Finset.coe_singleton, Set.mem_insert_iff, Set.mem_singleton_iff] at member
    rcases member with rfl | rfl | rfl
    · exact ⟨by decide, 2, by decide, by omega, .further (walk_one.mpr first) second⟩
    · exact ⟨by decide, 2, by decide, by omega, .further (walk_one.mpr second) third⟩
    · exact ⟨by decide, 3, by decide, by omega,
        .further (.further (walk_one.mpr first) second) third⟩
  have most : closureAdds [(0, 1), (1, 2), (2, 3)] ⊆
      (({(0, 2), (1, 3), (0, 3)} : Finset (Nat × Nat)) : Set (Nat × Nat)) := by
    rintro ⟨source, target⟩ ⟨fresh, path⟩
    have bounds := reaches source target path
    simp only [List.mem_cons, Prod.mk.injEq, List.not_mem_nil, or_false] at fresh
    simp only [Finset.coe_insert, Finset.coe_singleton, Set.mem_insert_iff, Set.mem_singleton_iff,
      Prod.mk.injEq]
    omega
  have closure := Set.Subset.antisymm most (least.trans (addedWithin_subset _ passes))
  have passed := Set.Subset.antisymm ((addedWithin_subset _ passes).trans most) least
  rw [closure, passed, Set.ncard_coe_finset]
  exact ⟨by decide, by decide⟩

/-- On a path of three edges the closure adds three pairs, two of them in the first pass: a budget of
three is exhausted by the second pass, behind what the first one stored. -/
theorem chain_not_atomic : (closureAdds [(0, 1), (1, 2), (2, 3)]).ncard = 3 ∧
    ¬ Atomic [(0, 1), (1, 2), (2, 3)] (some 3) chainStore
      (inferTransitive .added .added "follows" 16 (some 3) { store := chainStore, wal := none }) := by
  obtain ⟨closure, passes⟩ := chain_adds 16 (by decide)
  refine ⟨closure, fun atomic => ?_⟩
  have spared := (atomic_pairs chainStore_table (by decide)).mp atomic
  have size := length_missingPairs [(0, 1), (1, 2), (2, 3)]
  have two : (missingPairs [(0, 1), (1, 2), (2, 3)]).length = 2 := by decide
  have iterations : (16 : Int).toNat = 16 := rfl
  rw [iterations] at spared
  have first := (spared 3 rfl (by omega) (by omega)).1
  omega

end CaracalDB.Reasoner
