import Mathlib.Order.Defs.Unbundled

/-!
# Calls that answer or raise

A call starts in a state and ends in one, with an answer or with an error. What
it did before an error stays done. Three kinds of statement about calls are
closed under sequencing: a relation between the first and the last state that
holds however the call ends, a pair of conditions on the two ways of ending, and
the agreement of two states that a call cannot tell apart.
-/

namespace CaracalDB

/-- A computation over a state that survives errors. -/
def Call (State Error Answer : Type) : Type := State → Except Error Answer × State

namespace Call

variable {State Error Answer Next Item : Type}

/-- How a call ends in a state. -/
def run (call : Call State Error Answer) (state : State) : Except Error Answer × State := call state

def answer (value : Answer) : Call State Error Answer := fun state => (.ok value, state)

def andThen (call : Call State Error Answer) (next : Answer → Call State Error Next) :
    Call State Error Next := fun state =>
  match call state with
  | (.ok value, after) => next value after
  | (.error error, after) => (.error error, after)

instance : Monad (Call State Error) where
  pure := answer
  bind := andThen

def raise (error : Error) : Call State Error Answer := fun state => (.error error, state)

/-- The state itself. -/
def current : Call State Error State := fun state => (.ok state, state)

/-- A question to the state. -/
def ask (question : State → Except Error Answer) : Call State Error Answer :=
  fun state => (question state, state)

/-- A change of the state that either happens as a whole or not at all. -/
def attempt (step : State → Except Error (Answer × State)) : Call State Error Answer := fun state =>
  match step state with
  | .ok (value, after) => (.ok value, after)
  | .error error => (.error error, state)

def change (update : State → State) : Call State Error Unit := fun state => (.ok (), update state)

/-- A computation that needs no state. -/
def ofExcept (result : Except Error Answer) : Call State Error Answer := fun state => (result, state)

@[simp] theorem run_pure (value : Answer) (state : State) :
    run (pure value : Call State Error Answer) state = (.ok value, state) := rfl

@[simp] theorem run_raise (error : Error) (state : State) :
    run (raise error : Call State Error Answer) state = (.error error, state) := rfl

@[simp] theorem run_current (state : State) :
    run (current : Call State Error State) state = (.ok state, state) := rfl

@[simp] theorem run_ask (question : State → Except Error Answer) (state : State) :
    run (ask question) state = (question state, state) := rfl

theorem run_attempt (step : State → Except Error (Answer × State)) (state : State) :
    run (attempt step) state = match step state with
      | .ok (value, after) => (.ok value, after)
      | .error error => (.error error, state) := rfl

@[simp] theorem run_change (update : State → State) (state : State) :
    run (change update : Call State Error Unit) state = (.ok (), update state) := rfl

@[simp] theorem run_ofExcept (result : Except Error Answer) (state : State) :
    run (ofExcept result : Call State Error Answer) state = (result, state) := rfl

theorem run_bind (call : Call State Error Answer) (next : Answer → Call State Error Next)
    (state : State) :
    run (call >>= next) state = match run call state with
      | (.ok value, after) => run (next value) after
      | (.error error, after) => (.error error, after) := rfl

theorem run_bind_ok {call : Call State Error Answer} {state after : State} {value : Answer}
    (next : Answer → Call State Error Next) (ends : run call state = (.ok value, after)) :
    run (call >>= next) state = run (next value) after := by
  rw [run_bind, ends]

theorem run_bind_error {call : Call State Error Answer} {state after : State} {error : Error}
    (next : Answer → Call State Error Next) (ends : run call state = (.error error, after)) :
    run (call >>= next) state = (.error error, after) := by
  rw [run_bind, ends]

/-- A call that answers has answered in its first part and in the rest. -/
theorem run_bind_returns {call : Call State Error Answer} {next : Answer → Call State Error Next}
    {state last : State} {value : Next} (ends : run (call >>= next) state = (.ok value, last)) :
    ∃ middle after, run call state = (.ok middle, after) ∧
      run (next middle) after = (.ok value, last) := by
  rw [run_bind] at ends
  cases first : run call state with
  | mk result after =>
    rw [first] at ends
    cases result with
    | error error => cases ends
    | ok middle => exact ⟨middle, after, rfl, ends⟩

/-! ### First and last state -/

/-- However the call ends, its first and last state are related. -/
def Relates (relation : State → State → Prop) (call : Call State Error Answer) : Prop :=
  ∀ state, relation state (run call state).2

theorem Relates.change {relation : State → State → Prop} {update : State → State}
    (related : ∀ state, relation state (update state)) :
    Relates relation (Call.change update : Call State Error Unit) := related

section Relates

variable {relation : State → State → Prop} [IsPreorder State relation]

theorem Relates.pure (value : Answer) :
    Relates relation (Pure.pure value : Call State Error Answer) := fun state => Std.Refl.refl state

theorem Relates.raise (error : Error) :
    Relates relation (Call.raise error : Call State Error Answer) := fun state => Std.Refl.refl state

theorem Relates.ask (question : State → Except Error Answer) :
    Relates relation (Call.ask question) := fun state => Std.Refl.refl state

theorem Relates.ofExcept (result : Except Error Answer) :
    Relates relation (Call.ofExcept result : Call State Error Answer) :=
  fun state => Std.Refl.refl state

theorem Relates.bind {call : Call State Error Answer}
    {next : Answer → Call State Error Next} (first : Relates relation call)
    (later : ∀ value, Relates relation (next value)) : Relates relation (call >>= next) := by
  intro state
  have early := first state
  rw [run_bind]
  cases ends : run call state with
  | mk result after =>
    rw [ends] at early
    cases result with
    | error error => exact early
    | ok value => exact IsTrans.trans _ _ _ early (later value after)

/-- A step that may be refused only has to be related where it happens. -/
theorem Relates.attempt {step : State → Except Error (Answer × State)}
    (related : ∀ state value after, step state = .ok (value, after) → relation state after) :
    Relates relation (Call.attempt step) := by
  intro state
  rw [run_attempt]
  cases happens : step state with
  | error error => exact Std.Refl.refl state
  | ok pair => exact related state pair.1 pair.2 happens

theorem Relates.foldlM
    {step : Answer → Item → Call State Error Answer} (items : List Item)
    (each : ∀ value, ∀ item ∈ items, Relates relation (step value item)) (value : Answer) :
    Relates relation (items.foldlM step value) := by
  induction items generalizing value with
  | nil => exact Relates.pure value
  | cons item items inductionHypothesis =>
    rw [List.foldlM_cons]
    refine Relates.bind (each value item List.mem_cons_self) ?_
    exact inductionHypothesis fun value later member => each value later (List.mem_cons_of_mem _ member)

end Relates

/-! ### Conditions on how a call ends -/

/-- From a state that meets a condition, the call ends in a state that meets the condition for
its answer or for its error. -/
def Meets (before : State → Prop) (call : Call State Error Answer)
    (answers : Answer → State → Prop) (raises : Error → State → Prop) : Prop :=
  ∀ state, before state → match run call state with
    | (.ok value, after) => answers value after
    | (.error error, after) => raises error after

section Meets

variable {before : State → Prop} {answers : Answer → State → Prop} {raises : Error → State → Prop}

theorem Meets.bind {middle : Answer → State → Prop} {ends : Next → State → Prop}
    {call : Call State Error Answer} {next : Answer → Call State Error Next}
    (first : Meets before call middle raises)
    (later : ∀ value, Meets (middle value) (next value) ends raises) :
    Meets before (call >>= next) ends raises := by
  intro state holds
  have early := first state holds
  rw [run_bind]
  cases outcome : run call state with
  | mk result after =>
    rw [outcome] at early
    cases result with
    | error error => exact early
    | ok value => exact later value after early

theorem Meets.pure (value : Answer) (holds : ∀ state, before state → answers value state) :
    Meets before (Pure.pure value : Call State Error Answer) answers raises := holds

theorem Meets.change {update : State → State} {finishes : Unit → State → Prop}
    (holds : ∀ state, before state → finishes () (update state)) :
    Meets before (Call.change update) finishes raises := holds

/-- A loop keeps a condition on the items done, the value so far and the state. -/
theorem Meets.foldlM {step : Answer → Item → Call State Error Answer} (items : List Item)
    (invariant : List Item → Answer → State → Prop)
    (each : ∀ done item rest value, items = done ++ item :: rest →
      Meets (invariant done value) (step value item) (invariant (done ++ [item])) raises)
    (value : Answer) :
    Meets (invariant [] value) (items.foldlM step value) (invariant items) raises := by
  have suffix : ∀ rest done value, items = done ++ rest →
      Meets (invariant done value) (rest.foldlM step value) (invariant items) raises := by
    intro rest
    induction rest with
    | nil =>
      intro done value whole
      rw [List.append_nil] at whole
      subst whole
      exact Meets.pure value fun _ holds => holds
    | cons item rest inductionHypothesis =>
      intro done value whole
      rw [List.foldlM_cons]
      refine Meets.bind (each done item rest value whole) fun next => ?_
      exact inductionHypothesis (done ++ [item]) next (by rw [whole]; simp)
  exact suffix items [] value rfl

end Meets

end Call

end CaracalDB
