/-!
# Loops

A loop over a list either stops with an error or is the loop of what its steps do
when they raise nothing. What such a loop keeps is a condition on the items done
and the state.
-/

namespace CaracalDB

theorem ok_bind {Error Answer Next : Type} (value : Answer) (next : Answer → Except Error Next) :
    (Except.ok value >>= next) = next value := rfl

theorem except_bind_ok {Error Answer Next : Type} {first : Except Error Answer}
    {next : Answer → Except Error Next} {value : Next} (both : first >>= next = .ok value) :
    ∃ middle, first = .ok middle ∧ next middle = .ok value := by
  cases first with
  | error error => cases both
  | ok middle => exact ⟨middle, rfl, both⟩

/-- A loop that raises nothing is the loop of what its steps do when they raise nothing. -/
theorem foldlM_ok {Error State Item : Type} {step : State → Item → Except Error State}
    {plain : State → Item → State} {good : Item → Prop}
    (each : ∀ state item after, step state item = .ok after →
      after = plain state item ∧ good item)
    (items : List Item) (state after : State) (done : items.foldlM step state = .ok after) :
    after = items.foldl plain state ∧ ∀ item ∈ items, good item := by
  induction items generalizing state with
  | nil =>
    cases done
    exact ⟨rfl, fun item member => absurd member List.not_mem_nil⟩
  | cons item items inductionHypothesis =>
    rw [List.foldlM_cons] at done
    obtain ⟨middle, first, rest⟩ := except_bind_ok done
    obtain ⟨same, goodItem⟩ := each state item middle first
    subst same
    obtain ⟨final, goodRest⟩ := inductionHypothesis _ rest
    refine ⟨final, ?_⟩
    intro other member
    rcases List.mem_cons.mp member with here | later
    · exact here ▸ goodItem
    · exact goodRest other later

/-- A loop whose steps raise nothing raises nothing. -/
theorem foldlM_of_ok {Error State Item : Type} {step : State → Item → Except Error State}
    {plain : State → Item → State} (items : List Item)
    (each : ∀ state, ∀ item ∈ items, step state item = .ok (plain state item)) (state : State) :
    items.foldlM step state = .ok (items.foldl plain state) := by
  induction items generalizing state with
  | nil => rfl
  | cons item items inductionHypothesis =>
    rw [List.foldlM_cons, each state item List.mem_cons_self]
    exact inductionHypothesis (fun state other member =>
      each state other (List.mem_cons_of_mem item member)) _

/-- A loop that skips items is the loop over the others. -/
theorem foldlM_skip {Error State Item Made : Type} (skips : Item → Bool) (make : Item → Made)
    (step : State → Made → Except Error State) (items : List Item) (state : State) :
    items.foldlM (fun state item => if skips item then .ok state else step state (make item)) state =
      ((items.filter fun item => !skips item).map make).foldlM step state := by
  induction items generalizing state with
  | nil => rfl
  | cons item items inductionHypothesis =>
    rw [List.foldlM_cons]
    by_cases skipped : skips item = true
    · rw [if_pos skipped, List.filter_cons_of_neg (by simpa using skipped)]
      exact inductionHypothesis state
    · rw [if_neg skipped, List.filter_cons_of_pos (by simpa using skipped), List.map_cons,
        List.foldlM_cons]
      apply bind_congr
      intro middle
      exact inductionHypothesis middle

/-- A map whose steps raise nothing raises nothing. -/
theorem mapM_of_ok {Error Item Made : Type} {make : Item → Except Error Made}
    (plain : Item → Made) (items : List Item) (each : ∀ item ∈ items, make item = .ok (plain item)) :
    items.mapM make = .ok (items.map plain) := by
  induction items with
  | nil => rfl
  | cons item items inductionHypothesis =>
    rw [List.mapM_cons, each item List.mem_cons_self, inductionHypothesis fun other member =>
      each other (List.mem_cons_of_mem item member)]
    rfl

/-- Maps whose steps are the same on the items are the same. -/
theorem mapM_congr {Error Item Made : Type} {first second : Item → Except Error Made}
    {items : List Item} (same : ∀ item ∈ items, first item = second item) :
    items.mapM first = items.mapM second := by
  induction items with
  | nil => rfl
  | cons item items inductionHypothesis =>
    rw [List.mapM_cons, List.mapM_cons, same item List.mem_cons_self,
      inductionHypothesis fun later member => same later (List.mem_cons_of_mem _ member)]

/-- What a map that raises nothing makes comes from its items. -/
theorem mem_of_mapM_ok {Error Item Made : Type} {make : Item → Except Error Made}
    {items : List Item} {made : List Made} (done : items.mapM make = .ok made) (one : Made) :
    one ∈ made ↔ ∃ item ∈ items, make item = .ok one := by
  induction items generalizing made with
  | nil =>
    cases done
    simp
  | cons item items inductionHypothesis =>
    rw [List.mapM_cons] at done
    obtain ⟨first, here, rest⟩ := except_bind_ok done
    obtain ⟨others, later, same⟩ := except_bind_ok rest
    cases same
    rw [List.mem_cons, inductionHypothesis later]
    constructor
    · rintro (rfl | ⟨other, member, makes⟩)
      · exact ⟨item, List.mem_cons_self, here⟩
      · exact ⟨other, List.mem_cons_of_mem item member, makes⟩
    · rintro ⟨other, member, makes⟩
      rcases List.mem_cons.mp member with rfl | further
      · rw [here] at makes
        exact .inl (Except.ok.inj makes).symm
      · exact .inr ⟨other, further, makes⟩

/-- A map answers if it answers on every item. -/
theorem mapM_answers {Error Item Made : Type} {make : Item → Except Error Made}
    {items : List Item} (each : ∀ item ∈ items, ∃ one, make item = .ok one) :
    ∃ made, items.mapM make = .ok made := by
  induction items with
  | nil => exact ⟨[], rfl⟩
  | cons item items inductionHypothesis =>
    obtain ⟨⟨one, first⟩, others⟩ := List.forall_mem_cons.mp each
    obtain ⟨made, rest⟩ := inductionHypothesis others
    exact ⟨one :: made, by rw [List.mapM_cons, first, ok_bind, rest]; rfl⟩

/-- A map that raises nothing raises nothing on any item. -/
theorem ok_of_mapM_ok {Error Item Made : Type} {make : Item → Except Error Made}
    {items : List Item} {made : List Made} (done : items.mapM make = .ok made) :
    ∀ item ∈ items, ∃ one, make item = .ok one := by
  induction items generalizing made with
  | nil => exact fun item impossible => absurd impossible List.not_mem_nil
  | cons first items inductionHypothesis =>
    rw [List.mapM_cons] at done
    obtain ⟨one, here, rest⟩ := except_bind_ok done
    obtain ⟨others, later, _⟩ := except_bind_ok rest
    intro item member
    rcases List.mem_cons.mp member with rfl | further
    · exact ⟨one, here⟩
    · exact inductionHypothesis later item further

theorem length_of_mapM_ok {Error Item Made : Type} {make : Item → Except Error Made}
    {items : List Item} {made : List Made} (done : items.mapM make = .ok made) :
    made.length = items.length := by
  induction items generalizing made with
  | nil =>
    cases done
    rfl
  | cons item items inductionHypothesis =>
    rw [List.mapM_cons] at done
    obtain ⟨first, _, rest⟩ := except_bind_ok done
    obtain ⟨others, later, same⟩ := except_bind_ok rest
    cases same
    rw [List.length_cons, List.length_cons, inductionHypothesis later]

/-- A map of which every step has a value. -/
theorem mapM_of_some {Item Made : Type} {make : Item → Option Made} (plain : Item → Made)
    (items : List Item) (each : ∀ item ∈ items, make item = some (plain item)) :
    items.mapM make = some (items.map plain) := by
  induction items with
  | nil => rfl
  | cons item items inductionHypothesis =>
    rw [List.mapM_cons, each item List.mem_cons_self, inductionHypothesis fun other member =>
      each other (List.mem_cons_of_mem item member)]
    rfl

/-- A bound from which on something holds for every item. -/
theorem enough_for_all {Item : Type} {good : Item → Nat → Prop} (items : List Item)
    (each : ∀ item ∈ items, ∃ enough, ∀ fuel, enough ≤ fuel → good item fuel) :
    ∃ enough, ∀ fuel, enough ≤ fuel → ∀ item ∈ items, good item fuel := by
  induction items with
  | nil => exact ⟨0, fun _ _ item member => absurd member List.not_mem_nil⟩
  | cons item items inductionHypothesis =>
    obtain ⟨here, holds⟩ := each item List.mem_cons_self
    obtain ⟨later, others⟩ := inductionHypothesis fun other member =>
      each other (List.mem_cons_of_mem item member)
    refine ⟨max here later, fun fuel more other member => ?_⟩
    rcases List.mem_cons.mp member with rfl | further
    · exact holds fuel (by omega)
    · exact others fuel (by omega) other further

/-- A loop whose steps are loops is the loop over all their items. -/
theorem foldlM_flatMap {Error State Item Made : Type} (make : Item → List Made)
    (step : State → Made → Except Error State) (outer : State → Item → Except Error State)
    (items : List Item)
    (each : ∀ state, ∀ item ∈ items, outer state item = (make item).foldlM step state)
    (state : State) :
    items.foldlM outer state = (items.flatMap make).foldlM step state := by
  induction items generalizing state with
  | nil => rfl
  | cons item items inductionHypothesis =>
    rw [List.foldlM_cons, List.flatMap_cons, List.foldlM_append,
      each state item List.mem_cons_self]
    apply bind_congr
    intro middle
    exact inductionHypothesis (fun state other member =>
      each state other (List.mem_cons_of_mem item member)) middle

/-- Every step of a loop that raises nothing raises nothing. -/
theorem foldlM_steps {Error State Item : Type} {step : State → Item → Except Error State}
    (items : List Item) (state after : State) (done : items.foldlM step state = .ok after) :
    ∀ item ∈ items, ∃ before middle, step before item = .ok middle := by
  induction items generalizing state with
  | nil =>
    intro item member
    cases member
  | cons head items inductionHypothesis =>
    rw [List.foldlM_cons] at done
    obtain ⟨middle, first, rest⟩ := except_bind_ok done
    intro item member
    rcases List.mem_cons.mp member with here | later
    · exact ⟨state, middle, here ▸ first⟩
    · exact inductionHypothesis middle rest item later

/-- A condition on the items done and the state holds through a loop. -/
theorem foldl_invariant {State Item : Type} (step : State → Item → State)
    (invariant : List Item → State → Prop)
    (each : ∀ done item state, invariant done state → invariant (done ++ [item]) (step state item))
    (items : List Item) (state : State) (initially : invariant [] state) :
    invariant items (items.foldl step state) := by
  have suffix : ∀ rest done state, invariant done state →
      invariant (done ++ rest) (rest.foldl step state) := by
    intro rest
    induction rest with
    | nil =>
      intro done state holds
      rw [List.append_nil]
      exact holds
    | cons item rest inductionHypothesis =>
      intro done state holds
      have next := inductionHypothesis (done ++ [item]) _ (each done item state holds)
      rwa [List.append_assoc] at next
  exact suffix items [] state initially

end CaracalDB
