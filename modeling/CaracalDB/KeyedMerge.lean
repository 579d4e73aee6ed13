import CaracalDB.Dict
import CaracalDB.Loops

/-!
# Merging a list into a dictionary

Items are merged into a dictionary one by one under their keys. An item with a
known key is combined with the row that was known first, an item with a new key
becomes a row of its own, under the next number of a counter. What the merge leaves
under a key depends on the first and the last item with that key only.
-/

namespace CaracalDB.KeyedMerge

variable {Key Row Item : Type} [DecidableEq Key]

/-- How items are merged: the key of an item, the row it makes, how it is combined with a known
row, and how the counter moves on. -/
structure Rules (Key Row Item : Type) where
  key : Item → Key
  make : Item → Int → Row
  combine : Row → Item → Int → Row
  advance : Option Row → Int → Int

/-- The counter never moves back, and past the number of a new row. -/
structure Rules.Advances (rules : Rules Key Row Item) : Prop where
  known : ∀ row number, number ≤ rules.advance (some row) number
  new : ∀ number, number < rules.advance none number

structure State (Key Row : Type) where
  existing : Dict Key Row
  final : Dict Key Row
  next : Int
  inserted : Nat
  updated : Nat
  skipped : Nat

/-- The state before the first item. -/
def start (base : Dict Key Row) (next : Int) : State Key Row :=
  { existing := base, final := base, next, inserted := 0, updated := 0, skipped := 0 }

def step (rules : Rules Key Row Item) (update : Bool) (state : State Key Row) (item : Item) :
    State Key Row :=
  match state.existing.get? (rules.key item) with
  | some row =>
      if update then
        { state with
          final := state.final.set (rules.key item) (rules.combine row item state.next)
          next := rules.advance (some row) state.next
          updated := state.updated + 1 }
      else { state with skipped := state.skipped + 1 }
  | none =>
      { state with
        existing := state.existing.set (rules.key item) (rules.make item state.next)
        final := state.final.set (rules.key item) (rules.make item state.next)
        next := rules.advance none state.next
        inserted := state.inserted + 1 }

/-- The first item with a key. -/
def first (rules : Rules Key Row Item) (key : Key) (items : List Item) : Option Item :=
  items.find? fun item => rules.key item = key

/-- The last item with a key. -/
def last (rules : Rules Key Row Item) (key : Key) (items : List Item) : Option Item :=
  first rules key items.reverse

section Occurrences

variable (rules : Rules Key Row Item) (key : Key)

theorem first_append (done : List Item) (item : Item) :
    first rules key (done ++ [item]) =
      (first rules key done).or (if rules.key item = key then some item else none) := by
  rw [first, List.find?_append]
  by_cases same : rules.key item = key
  · simp [first, same]
  · simp [first, same]

theorem last_append (done : List Item) (item : Item) :
    last rules key (done ++ [item]) =
      if rules.key item = key then some item else last rules key done := by
  rw [last, List.reverse_append]
  by_cases same : rules.key item = key
  · simp [first, same]
  · simp [first, last, same]

theorem first_some {items : List Item} {item : Item} (found : first rules key items = some item) :
    item ∈ items ∧ rules.key item = key :=
  ⟨List.mem_of_find?_eq_some found, by simpa using List.find?_some found⟩

theorem last_some {items : List Item} {item : Item} (found : last rules key items = some item) :
    item ∈ items ∧ rules.key item = key := by
  obtain ⟨member, same⟩ := first_some rules key found
  exact ⟨List.mem_reverse.mp member, same⟩

end Occurrences

/-! ## What is left under a key -/

/-- A row that was known, after the items with its key. -/
def KnownRow (rules : Rules Key Row Item) (update : Bool) (items : List Item) (key : Key)
    (row now : Row) : Prop :=
  (now = row ∧ (update = false ∨ last rules key items = none)) ∨
    (update = true ∧ ∃ item number, last rules key items = some item ∧
      now = rules.combine row item number)

/-- A row that an item made, after the further items with its key. -/
def NewRow (rules : Rules Key Row Item) (update : Bool) (items : List Item) (key : Key)
    (item : Item) (made now : Row) : Prop :=
  (now = made ∧ (update = false ∨ last rules key items = some item)) ∨
    (update = true ∧ ∃ later number, last rules key items = some later ∧
      now = rules.combine made later number)

/-- What a merge of items into a base has left, the new rows having the numbers of a function. -/
structure Merged (rules : Rules Key Row Item) (update : Bool) (base : Dict Key Row)
    (items : List Item) (number : Key → Int) (state : State Key Row) : Prop where
  known : ∀ key row, base.get? key = some row → state.existing.get? key = some row ∧
    ∃ now, state.final.get? key = some now ∧ KnownRow rules update items key row now
  new : ∀ key item, base.get? key = none → first rules key items = some item →
    state.existing.get? key = some (rules.make item (number key)) ∧
      ∃ now, state.final.get? key = some now ∧
        NewRow rules update items key item (rules.make item (number key)) now
  absent : ∀ key, base.get? key = none → first rules key items = none →
    state.existing.get? key = none ∧ state.final.get? key = none

/-- The numbers of the new rows lie between where the counter started and where it is, and no two
keys have the same. -/
structure Numbered (rules : Rules Key Row Item) (base : Dict Key Row) (low : Int)
    (items : List Item) (number : Key → Int) (next : Int) : Prop where
  reached : low ≤ next
  between : ∀ key, base.get? key = none → first rules key items ≠ none →
    low ≤ number key ∧ number key < next
  apart : ∀ key other, base.get? key = none → base.get? other = none →
    first rules key items ≠ none → first rules other items ≠ none →
    number key = number other → key = other

/-- A row that is left was known or comes from the first item with its key. -/
theorem Merged.final_cases {rules : Rules Key Row Item} {update : Bool} {base : Dict Key Row}
    {items : List Item} {number : Key → Int} {state : State Key Row}
    (merged : Merged rules update base items number state) {key : Key} {now : Row}
    (left : state.final.get? key = some now) :
    (∃ row, base.get? key = some row ∧ KnownRow rules update items key row now) ∨
      (base.get? key = none ∧ ∃ item, first rules key items = some item ∧
        NewRow rules update items key item (rules.make item (number key)) now) := by
  cases stored : base.get? key with
  | some row =>
    obtain ⟨_, other, same, kept⟩ := merged.known key row stored
    rw [left] at same
    exact Or.inl ⟨row, rfl, Option.some.inj same ▸ kept⟩
  | none =>
    cases found : first rules key items with
    | none =>
      have nothing := (merged.absent key stored found).2
      rw [left] at nothing
      cases nothing
    | some item =>
      obtain ⟨_, other, same, kept⟩ := merged.new key item stored found
      rw [left] at same
      exact Or.inr ⟨rfl, item, rfl, Option.some.inj same ▸ kept⟩

theorem merged_start (rules : Rules Key Row Item) (update : Bool) (base : Dict Key Row)
    (next : Int) (number : Key → Int) :
    Merged rules update base [] number (start base next) := by
  constructor
  · intro key row stored
    exact ⟨stored, row, stored, Or.inl ⟨rfl, Or.inr rfl⟩⟩
  · intro key item _ found
    cases found
  · intro key absent _
    exact ⟨absent, absent⟩

theorem numbered_start (rules : Rules Key Row Item) (base : Dict Key Row) (low : Int)
    (number : Key → Int) : Numbered rules base low [] number low := by
  constructor
  · exact Int.le_refl low
  · intro key _ found
    exact absurd rfl found
  · intro key other _ _ found
    exact absurd rfl found

/-! ## One more item -/

section Step

variable {rules : Rules Key Row Item} {update : Bool} {base : Dict Key Row} {done : List Item}
  {number : Key → Int} {state : State Key Row}

/-- The numbers once a key without row got the next one. -/
def numberAfter (rules : Rules Key Row Item) (number : Key → Int) (state : State Key Row)
    (item : Item) : Key → Int := fun key =>
  if key = rules.key item ∧ state.existing.get? key = none then state.next else number key

theorem first_snoc_of_ne {key : Key} {item : Item} (different : rules.key item ≠ key) :
    first rules key (done ++ [item]) = first rules key done := by
  rw [first_append, if_neg different, Option.or_none]

theorem last_snoc_of_ne {key : Key} {item : Item} (different : rules.key item ≠ key) :
    last rules key (done ++ [item]) = last rules key done := by
  rw [last_append, if_neg different]

theorem last_snoc_self (item : Item) : last rules (rules.key item) (done ++ [item]) = some item := by
  rw [last_append, if_pos rfl]

variable (number) in
/-- Another key keeps its rows and its number. -/
theorem step_of_ne (item : Item) {key : Key} (different : rules.key item ≠ key) :
    (step rules update state item).existing.get? key = state.existing.get? key ∧
      (step rules update state item).final.get? key = state.final.get? key ∧
      numberAfter rules number state item key = number key := by
  have apart : key ≠ rules.key item := Ne.symm different
  refine ⟨?_, ?_, ?_⟩
  · rw [step]
    split
    · split <;> rfl
    · exact Dict.get_set_of_ne _ apart _
  · rw [step]
    split
    · split
      · exact Dict.get_set_of_ne _ apart _
      · rfl
    · exact Dict.get_set_of_ne _ apart _
  · rw [numberAfter, if_neg fun same => apart same.1]

theorem knownRow_snoc_of_ne {key : Key} {item : Item} {row now : Row}
    (different : rules.key item ≠ key) (kept : KnownRow rules update done key row now) :
    KnownRow rules update (done ++ [item]) key row now := by
  rw [KnownRow, last_snoc_of_ne different]
  exact kept

theorem newRow_snoc_of_ne {key : Key} {item first : Item} {made now : Row}
    (different : rules.key item ≠ key) (kept : NewRow rules update done key first made now) :
    NewRow rules update (done ++ [item]) key first made now := by
  rw [NewRow, last_snoc_of_ne different]
  exact kept

variable (update) in
/-- An item whose key has a row leaves the row as it was first known; the row that is left is the
one combined with the item, if rows are updated. -/
theorem step_known (item : Item) {row : Row}
    (known : state.existing.get? (rules.key item) = some row) :
    (step rules update state item).existing = state.existing ∧
      (step rules update state item).final =
        (if update then state.final.set (rules.key item) (rules.combine row item state.next)
          else state.final) ∧
      (step rules update state item).next =
        (if update then rules.advance (some row) state.next else state.next) := by
  rw [step, known]
  dsimp only
  split <;> exact ⟨rfl, rfl, rfl⟩

variable (update) in
theorem step_new (item : Item) (absent : state.existing.get? (rules.key item) = none) :
    (step rules update state item).existing =
        state.existing.set (rules.key item) (rules.make item state.next) ∧
      (step rules update state item).final =
        state.final.set (rules.key item) (rules.make item state.next) ∧
      (step rules update state item).next = rules.advance none state.next := by
  rw [step, absent]
  exact ⟨rfl, rfl, rfl⟩

theorem merged_step (merged : Merged rules update base done number state) (item : Item) :
    Merged rules update base (done ++ [item]) (numberAfter rules number state item)
      (step rules update state item) := by
  constructor
  · intro key row stored
    obtain ⟨known, now, left, kept⟩ := merged.known key row stored
    by_cases same : rules.key item = key
    · subst same
      obtain ⟨existing, final, _⟩ := step_known update item known
      refine ⟨existing ▸ known, ?_⟩
      rw [final]
      cases update with
      | false =>
        rcases kept with ⟨rfl, _⟩ | ⟨absurdity, _⟩
        · exact ⟨now, left, Or.inl ⟨rfl, Or.inl rfl⟩⟩
        · cases absurdity
      | true =>
        refine ⟨_, Dict.get_set_self _ _ _, Or.inr ⟨rfl, item, state.next, ?_, rfl⟩⟩
        exact last_snoc_self item
    · obtain ⟨existing, final, _⟩ := step_of_ne number item same
      rw [existing, final]
      exact ⟨known, now, left, knownRow_snoc_of_ne same kept⟩
  · intro key one unknown found
    by_cases same : rules.key item = key
    · subst same
      cases before : first rules (rules.key item) done with
      | none =>
        obtain ⟨absent, _⟩ := merged.absent _ unknown before
        obtain ⟨existing, final, _⟩ := step_new update item absent
        have isItem : item = one := by
          rw [first_append, before, if_pos rfl] at found
          exact Option.some.inj found
        subst isItem
        rw [existing, final, numberAfter, if_pos ⟨rfl, absent⟩]
        refine ⟨Dict.get_set_self _ _ _, _, Dict.get_set_self _ _ _, Or.inl ⟨rfl, Or.inr ?_⟩⟩
        exact last_snoc_self item
      | some earlier =>
        have isEarlier : earlier = one := by
          rw [first_append, before] at found
          exact Option.some.inj found
        subst isEarlier
        obtain ⟨known, now, left, kept⟩ := merged.new _ _ unknown before
        obtain ⟨existing, final, _⟩ := step_known update item known
        rw [existing, final, numberAfter, if_neg fun both => by rw [known] at both; cases both.2]
        refine ⟨known, ?_⟩
        cases update with
        | false =>
          rcases kept with ⟨rfl, _⟩ | ⟨absurdity, _⟩
          · exact ⟨_, left, Or.inl ⟨rfl, Or.inl rfl⟩⟩
          · cases absurdity
        | true =>
          refine ⟨_, Dict.get_set_self _ _ _, Or.inr ⟨rfl, item, state.next, ?_, rfl⟩⟩
          exact last_snoc_self item
    · rw [first_snoc_of_ne same] at found
      obtain ⟨known, now, left, kept⟩ := merged.new key one unknown found
      obtain ⟨existing, final, numbers⟩ := step_of_ne number item same
      rw [existing, final, numbers]
      exact ⟨known, now, left, newRow_snoc_of_ne same kept⟩
  · intro key unknown nothing
    have different : rules.key item ≠ key := by
      intro same
      rw [first_append, if_pos same, Option.or_eq_none_iff] at nothing
      cases nothing.2
    rw [first_snoc_of_ne different] at nothing
    obtain ⟨existing, final, _⟩ := step_of_ne number item different
    rw [existing, final]
    exact merged.absent key unknown nothing

/-- The numbers stay apart as long as the counter advances. -/
theorem numbered_step {low : Int} (advances : rules.Advances)
    (merged : Merged rules update base done number state)
    (numbered : Numbered rules base low done number state.next) (item : Item) :
    Numbered rules base low (done ++ [item]) (numberAfter rules number state item)
      (step rules update state item).next := by
  have forward : state.next ≤ (step rules update state item).next := by
    cases known : state.existing.get? (rules.key item) with
    | none =>
      obtain ⟨_, _, next⟩ := step_new update item known
      rw [next]
      exact Int.le_of_lt (advances.new _)
    | some row =>
      obtain ⟨_, _, next⟩ := step_known update item known
      rw [next]
      split
      · exact advances.known row _
      · exact Int.le_refl _
  have cases_of : ∀ key, base.get? key = none → first rules key (done ++ [item]) ≠ none →
      (first rules key done ≠ none ∧ numberAfter rules number state item key = number key) ∨
        (first rules key done = none ∧ key = rules.key item ∧
          numberAfter rules number state item key = state.next ∧
          state.next < (step rules update state item).next) := by
    intro key unknown occurs
    cases before : first rules key done with
    | some earlier =>
      refine Or.inl ⟨Option.some_ne_none _, ?_⟩
      rw [numberAfter, if_neg]
      intro both
      rw [(merged.new key earlier unknown before).1] at both
      cases both.2
    | none =>
      have same : rules.key item = key := by
        by_contra different
        rw [first_snoc_of_ne different] at occurs
        exact occurs before
      obtain ⟨absent, _⟩ := merged.absent key unknown before
      subst same
      obtain ⟨_, _, next⟩ := step_new update item absent
      refine Or.inr ⟨rfl, rfl, ?_, ?_⟩
      · rw [numberAfter, if_pos ⟨rfl, absent⟩]
      · rw [next]
        exact advances.new _
  constructor
  · exact Int.le_trans numbered.reached forward
  · intro key unknown occurs
    rcases cases_of key unknown occurs with ⟨before, same⟩ | ⟨_, _, same, further⟩
    · obtain ⟨lower, upper⟩ := numbered.between key unknown before
      rw [same]
      exact ⟨lower, Int.lt_of_lt_of_le upper forward⟩
    · rw [same]
      exact ⟨numbered.reached, further⟩
  · intro key other unknownKey unknownOther occursKey occursOther equal
    rcases cases_of key unknownKey occursKey with ⟨beforeKey, sameKey⟩ | ⟨_, isKey, sameKey, _⟩ <;>
      rcases cases_of other unknownOther occursOther with
        ⟨beforeOther, sameOther⟩ | ⟨_, isOther, sameOther, _⟩
    · rw [sameKey, sameOther] at equal
      exact numbered.apart key other unknownKey unknownOther beforeKey beforeOther equal
    · have below := (numbered.between key unknownKey beforeKey).2
      rw [sameKey, sameOther] at equal
      exact absurd below (by rw [equal]; exact Int.lt_irrefl _)
    · have below := (numbered.between other unknownOther beforeOther).2
      rw [sameKey, sameOther] at equal
      exact absurd below (by rw [equal]; exact Int.lt_irrefl _)
    · rw [isKey, isOther]

end Step

/-! ## All items -/

/-- The state after all items. -/
def run (rules : Rules Key Row Item) (update : Bool) (base : Dict Key Row) (low : Int)
    (items : List Item) : State Key Row :=
  items.foldl (step rules update) (start base low)

/-- What merging a list leaves, and under which numbers. -/
theorem run_merged (rules : Rules Key Row Item) (update : Bool) (base : Dict Key Row) (low : Int)
    (items : List Item) :
    ∃ number, Merged rules update base items number (run rules update base low items) ∧
      (rules.Advances →
        Numbered rules base low items number (run rules update base low items).next) := by
  refine foldl_invariant (step rules update)
    (fun done state => ∃ number, Merged rules update base done number state ∧
      (rules.Advances → Numbered rules base low done number state.next)) ?_ items _ ?_
  · rintro done item state ⟨number, merged, numbered⟩
    exact ⟨_, merged_step merged item, fun advances =>
      numbered_step advances merged (numbered advances) item⟩
  · exact ⟨fun _ => low, merged_start rules update base low _, fun _ =>
      numbered_start rules base low _⟩

end CaracalDB.KeyedMerge
