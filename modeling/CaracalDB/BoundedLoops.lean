import CaracalDB.Call

/-!
# Bounded loops

An ending says how a command may end: whether it answers or raises, and in which state.
The endings of a loop are those of finitely many turns. A bounded loop raises an error of
its own when its test holds once more than its limit allows; otherwise it ends as the loop
does, and with a high enough limit it does not raise.
-/

namespace CaracalDB

variable {State Error Item : Type}

/-- How a command may end from a state. -/
abbrev Ending (State Error : Type) : Type := State → Except Error Unit → State → Prop

namespace Ending

/-- The ending of a call. -/
def of (call : Call State Error Unit) : Ending State Error := fun state result after =>
  Call.run call state = (result, after)

/-- One command after another, which is left out if the first raises. -/
def seq (first next : Ending State Error) : Ending State Error := fun state result after =>
  (∃ middle, first state (.ok ()) middle ∧ next middle result after) ∨
    ∃ error, result = .error error ∧ first state (.error error) after

/-- A command that depends on an answer. -/
def given {Answer : Type} (call : Call State Error Answer) (next : Answer → Ending State Error) :
    Ending State Error := fun state result after =>
  (∃ value middle, Call.run call state = (.ok value, middle) ∧ next value middle result after) ∨
    ∃ error, result = .error error ∧ Call.run call state = (.error error, after)

/-- A command for each item. -/
def each (body : Item → Ending State Error) : List Item → Ending State Error
  | [] => of (pure ())
  | item :: items => seq (body item) (each body items)

/-- A command as long as a test holds. -/
inductive loop (test : Call State Error Bool) (body : Ending State Error) : Ending State Error
  | stop {state after : State} (ends : Call.run test state = (.ok false, after)) :
      loop test body state (.ok ()) after
  | untested {state after : State} {error : Error}
      (raises : Call.run test state = (.error error, after)) :
      loop test body state (.error error) after
  | broken {state middle after : State} {error : Error}
      (holds : Call.run test state = (.ok true, middle)) (raises : body middle (.error error) after) :
      loop test body state (.error error) after
  | again {state middle next after : State} {result : Except Error Unit}
      (holds : Call.run test state = (.ok true, middle)) (turn : body middle (.ok ()) next)
      (rest : loop test body next result after) : loop test body state result after

end Ending

namespace Call

/-- A command for each item. -/
def each (body : Item → Call State Error Unit) : List Item → Call State Error Unit
  | [] => pure ()
  | item :: items => do
      body item
      each body items

/-- A loop of at most some turns. -/
def loopUpTo (test : Call State Error Bool) (body : Call State Error Unit) (exceeded : Error) :
    Nat → Call State Error Unit
  | 0 => do if ← test then raise exceeded
  | left + 1 => do
      if ← test then
        body
        loopUpTo test body exceeded left

/-! ## What is bounded and what is not -/

section Cut

/-- A call ends as an ending says, unless it raises an error of some kind. -/
def EndsUnless (cut : Error → Prop) (call : Call State Error Unit) (ending : Ending State Error) :
    Prop :=
  ∀ state result after, run call state = (result, after) →
    ending state result after ∨ ∃ error, cut error ∧ result = .error error

variable {cut : Error → Prop}

theorem EndsUnless.of (call : Call State Error Unit) : EndsUnless cut call (Ending.of call) :=
  fun _ _ _ ends => .inl ends

theorem EndsUnless.seq {first next : Call State Error Unit} {early late : Ending State Error}
    (one : EndsUnless cut first early) (two : EndsUnless cut next late) :
    EndsUnless cut (do first; next) (Ending.seq early late) := by
  intro state result after ends
  rw [run_bind] at ends
  cases outcome : run first state with
  | mk answer middle =>
    rw [outcome] at ends
    cases answer with
    | error error =>
      cases ends
      exact (one state _ _ outcome).imp_left fun raised => .inr ⟨error, rfl, raised⟩
    | ok _ =>
      rcases one state _ middle outcome with began | ⟨_, _, impossible⟩
      · exact (two middle result after ends).imp_left fun ended => .inl ⟨middle, began, ended⟩
      · cases impossible

theorem EndsUnless.given {Answer : Type} {call : Call State Error Answer}
    {next : Answer → Call State Error Unit} {late : Answer → Ending State Error}
    (each : ∀ value, EndsUnless cut (next value) (late value)) :
    EndsUnless cut (call >>= next) (Ending.given call late) := by
  intro state result after ends
  rw [run_bind] at ends
  cases outcome : run call state with
  | mk answer middle =>
    rw [outcome] at ends
    cases answer with
    | error error =>
      cases ends
      exact .inl (.inr ⟨error, rfl, outcome⟩)
    | ok value =>
      exact (each value middle result after ends).imp_left fun ended =>
        .inl ⟨value, middle, outcome, ended⟩

theorem EndsUnless.each {body : Item → Call State Error Unit} {turn : Item → Ending State Error}
    (bodies : ∀ item, EndsUnless cut (body item) (turn item)) (items : List Item) :
    EndsUnless cut (Call.each body items) (Ending.each turn items) := by
  induction items with
  | nil => exact EndsUnless.of _
  | cons item items ih => exact (bodies item).seq ih

/-- A bounded loop ends as the loop does, or it or its body is cut off. -/
theorem EndsUnless.loopUpTo {test : Call State Error Bool} {body : Call State Error Unit}
    {turn : Ending State Error} (bodies : EndsUnless cut body turn) {exceeded : Error}
    (own : cut exceeded) (limit : Nat) :
    EndsUnless cut (Call.loopUpTo test body exceeded limit) (Ending.loop test turn) := by
  induction limit with
  | zero =>
    intro state result after ends
    rw [Call.loopUpTo, run_bind] at ends
    cases outcome : run test state with
    | mk answer middle =>
      rw [outcome] at ends
      cases answer with
      | error error =>
        cases ends
        exact .inl (.untested outcome)
      | ok holds =>
        cases holds with
        | false =>
          cases ends
          exact .inl (.stop outcome)
        | true =>
          cases ends
          exact .inr ⟨exceeded, own, rfl⟩
  | succ limit ih =>
    intro state result after ends
    rw [Call.loopUpTo, run_bind] at ends
    cases outcome : run test state with
    | mk answer middle =>
      rw [outcome] at ends
      cases answer with
      | error error =>
        cases ends
        exact .inl (.untested outcome)
      | ok holds =>
        cases holds with
        | false =>
          cases ends
          exact .inl (.stop outcome)
        | true =>
          refine (bodies.seq ih middle result after ends).imp_left ?_
          rintro (⟨next, turned, rest⟩ | ⟨error, rfl, raised⟩)
          · exact .again outcome turned rest
          · exact .broken outcome raised

end Cut

/-! ## High enough limits -/

/-- With every high enough limit the calls end in one way. -/
def EndsEventually (call : Nat → Call State Error Unit) (state : State) (result : Except Error Unit)
    (after : State) : Prop :=
  ∃ least, ∀ limit, least ≤ limit → run (call limit) state = (result, after)

section Eventually

variable {state after : State} {result : Except Error Unit}

theorem EndsEventually.seq {first next : Nat → Call State Error Unit} {early late : Ending State Error}
    (one : ∀ {state result after}, early state result after → EndsEventually first state result after)
    (two : ∀ {state result after}, late state result after → EndsEventually next state result after)
    (ends : Ending.seq early late state result after) :
    EndsEventually (fun limit => do first limit; next limit) state result after := by
  rcases ends with ⟨middle, began, ended⟩ | ⟨error, rfl, raised⟩
  · obtain ⟨least, begins⟩ := one began
    obtain ⟨most, finishes⟩ := two ended
    refine ⟨max least most, fun limit above => ?_⟩
    rw [run_bind_ok _ (begins limit (Nat.le_trans (Nat.le_max_left _ _) above))]
    exact finishes limit (Nat.le_trans (Nat.le_max_right _ _) above)
  · obtain ⟨least, raises⟩ := one raised
    exact ⟨least, fun limit above => run_bind_error _ (raises limit above)⟩

theorem EndsEventually.given {Answer : Type} {call : Call State Error Answer}
    {next : Nat → Answer → Call State Error Unit} {late : Answer → Ending State Error}
    (each : ∀ {value state result after}, late value state result after →
      EndsEventually (next · value) state result after)
    (ends : Ending.given call late state result after) :
    EndsEventually (fun limit => call >>= next limit) state result after := by
  rcases ends with ⟨value, middle, answers, ended⟩ | ⟨error, rfl, raised⟩
  · obtain ⟨least, finishes⟩ := each ended
    exact ⟨least, fun limit above => (run_bind_ok _ answers).trans (finishes limit above)⟩
  · exact ⟨0, fun limit _ => run_bind_error _ raised⟩

theorem EndsEventually.each {body : Nat → Item → Call State Error Unit}
    {turn : Item → Ending State Error}
    (bodies : ∀ {item state result after}, turn item state result after →
      EndsEventually (body · item) state result after) {items : List Item}
    (ends : Ending.each turn items state result after) :
    EndsEventually (fun limit => Call.each (body limit) items) state result after := by
  induction items generalizing state with
  | nil => exact ⟨0, fun _ _ => ends⟩
  | cons item items ih =>
    rcases ends with ⟨middle, began, ended⟩ | ⟨error, rfl, raised⟩
    · obtain ⟨least, begins⟩ := bodies began
      obtain ⟨most, finishes⟩ := ih ended
      refine ⟨max least most, fun limit above => ?_⟩
      exact (run_bind_ok _ (begins limit (Nat.le_trans (Nat.le_max_left _ _) above))).trans
        (finishes limit (Nat.le_trans (Nat.le_max_right _ _) above))
    · obtain ⟨least, raises⟩ := bodies raised
      exact ⟨least, fun limit above => run_bind_error _ (raises limit above)⟩

/-- A loop that ends does so with every high enough limit for its turns and within them. -/
theorem EndsEventually.loop {test : Call State Error Bool} {body : Nat → Call State Error Unit}
    {turn : Ending State Error} {exceeded : Nat → Error}
    (bodies : ∀ {state result after}, turn state result after →
      EndsEventually body state result after) (ends : Ending.loop test turn state result after) :
    EndsEventually (fun limit => loopUpTo test (body limit) (exceeded limit) limit) state result
      after := by
  -- the limit for the turns left and the limit within them
  have both : ∃ least, ∀ limit left, least ≤ limit → least ≤ left →
      run (loopUpTo test (body limit) (exceeded limit) left) state = (result, after) := by
    induction ends with
    | stop ends =>
      refine ⟨0, fun limit left _ _ => ?_⟩
      cases left <;> rw [loopUpTo, run_bind_ok _ ends] <;> rfl
    | untested raises =>
      refine ⟨0, fun limit left _ _ => ?_⟩
      cases left <;> rw [loopUpTo, run_bind_error _ raises]
    | broken holds raises =>
      obtain ⟨least, raised⟩ := bodies raises
      refine ⟨least + 1, fun limit left within turns => ?_⟩
      obtain ⟨left, rfl⟩ := Nat.exists_eq_add_of_lt (Nat.lt_of_lt_of_le (Nat.zero_lt_succ _) turns)
      rw [Nat.zero_add, loopUpTo, run_bind_ok _ holds]
      exact run_bind_error _ (raised limit (by omega))
    | again holds turned _ ih =>
      obtain ⟨least, goes⟩ := bodies turned
      obtain ⟨most, rest⟩ := ih
      refine ⟨max least most + 1, fun limit left within turns => ?_⟩
      obtain ⟨left, rfl⟩ := Nat.exists_eq_add_of_lt (Nat.lt_of_lt_of_le (Nat.zero_lt_succ _) turns)
      rw [Nat.zero_add, loopUpTo, run_bind_ok _ holds]
      exact (run_bind_ok _ (goes limit (by omega))).trans (rest limit left (by omega) (by omega))
  obtain ⟨least, runs⟩ := both
  exact ⟨least, fun limit above => runs limit limit above above⟩

end Eventually

/-! ## Conditions -/

/-- From a state the call ends in a state that meets the condition for its answer or its error. -/
def Leads {Answer : Type} (call : Call State Error Answer) (answers : Answer → State → Prop)
    (raises : Error → State → Prop) (state : State) : Prop :=
  match run call state with
  | (.ok value, after) => answers value after
  | (.error error, after) => raises error after

section Conditions

variable {Answer Next : Type} {raises : Error → State → Prop}

theorem leads_bind (call : Call State Error Answer) (next : Answer → Call State Error Next)
    (answers : Next → State → Prop) (state : State) :
    Leads (call >>= next) answers raises state ↔
      Leads call (fun value => Leads (next value) answers raises) raises state := by
  rw [Leads, Leads, run_bind]
  rcases run call state with ⟨_ | _, _⟩ <;> exact Iff.rfl

/-- Commands one after another, as conditions. -/
theorem leads_seq (call : Call State Error Answer) (next : Answer → Call State Error Next)
    (answers : Next → State → Prop) :
    Leads (call >>= next) answers raises =
      Leads call (fun value => Leads (next value) answers raises) raises :=
  funext fun state => propext (leads_bind call next answers state)

/-- A loop over items keeps a condition on the items that are left. -/
theorem Meets.each {body : Item → Call State Error Unit} {left : List Item → State → Prop}
    (turns : ∀ item items, Meets (left (item :: items)) (body item) (fun _ => left items) raises)
    (items : List Item) : Meets (left items) (Call.each body items) (fun _ => left []) raises := by
  induction items with
  | nil => exact Meets.pure () fun _ holds => holds
  | cons item items ih =>
    exact Meets.bind (turns item items) fun _ => ih

/-- A bounded loop keeps a condition on the turns that are left; when none is left its test does not
hold, and so the loop does not go over its limit. -/
theorem Meets.loopUpTo {test : Call State Error Bool} {body : Call State Error Unit}
    {exceeded : Error} {left turn : Nat → State → Prop} {ends : State → Prop}
    (tests : ∀ turns, Meets (left turns) test
      (fun holds state => if holds then ∃ fewer, turns = fewer + 1 ∧ turn fewer state else ends state)
        raises)
    (bodies : ∀ turns, Meets (turn turns) body (fun _ => left turns) raises) (limit : Nat) :
    Meets (left limit) (Call.loopUpTo test body exceeded limit) (fun _ => ends) raises := by
  induction limit with
  | zero =>
    refine Meets.bind (tests 0) fun holds => ?_
    cases holds with
    | false => exact Meets.pure () fun _ ended => ended
    | true =>
      rintro state ⟨fewer, impossible, _⟩
      cases impossible
  | succ limit ih =>
    refine Meets.bind (tests (limit + 1)) fun holds => ?_
    cases holds with
    | false => exact Meets.pure () fun _ ended => ended
    | true =>
      refine Meets.bind (fun state begins => ?_) fun _ => ih
      obtain ⟨fewer, same, ready⟩ := begins
      cases same
      exact bodies limit state ready

end Conditions

end Call

end CaracalDB
