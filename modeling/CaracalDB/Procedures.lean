import CaracalDB.BoundedLoops
import CaracalDB.Dict
import CaracalDB.PythonValue

/-!
# Procedures

A procedure is a tuple of steps that are executed over its variables. A loop raises an error
when its predicate holds once more than its limit allows. Without limits a procedure ends as
it does with any limits that are high enough, and a run that no limit cuts off is one of
the procedure without limits. What a procedure returns can be proved from rules for its
steps, which bound the turns of a loop by its limit.
-/

namespace CaracalDB

/-- `ProcedureContext`, and the world in which its callbacks act. -/
structure ProcedureContext (World : Type) where
  vars : Dict String Value := Dict.empty
  metadata : Dict String Value := Dict.empty
  world : World

/-- `ctx.variables[var] = value` -/
def ProcedureContext.assign {World : Type} (var : String) (value : Value)
    (ctx : ProcedureContext World) : ProcedureContext World :=
  { ctx with vars := ctx.vars.set var value }

/-- A Python function of a context, which it may change before it answers or raises. -/
abbrev Callback (World Answer : Type) : Type := Call (ProcedureContext World) Raised Answer

/-- A tuple of steps: the first of them and those behind it. -/
inductive Steps (World : Type) where
  | done
  | call (fn : Callback World Unit) (rest : Steps World)
  | assign (var : String) (expr : Callback World Value) (rest : Steps World)
  | ifStep (predicate : Callback World Bool) (then_steps else_steps rest : Steps World)
  | forStep (var : String) (iterable : Callback World (List Value)) (body rest : Steps World)
  | whileStep (predicate : Callback World Bool) (body : Steps World) (max_iterations : Int)
      (rest : Steps World)

def procedureError (message : String) : Raised := .caracal { code := "CDB-6140", message }

def exceeded (max_iterations : Int) : Raised := .caracal
  { code := "CDB-6141", message := "WHILE exceeded " ++ toString max_iterations ++ " iterations" }

namespace Steps

variable {World : Type}

/-- `_execute(steps, ctx)` -/
def execute : Steps World → Callback World Unit
  | done => pure ()
  | call fn rest => do
      fn
      rest.execute
  | assign var expr rest => do
      let value ← expr
      Call.change (ProcedureContext.assign var value)
      rest.execute
  | ifStep predicate then_steps else_steps rest => do
      let holds ← predicate
      if holds then then_steps.execute else else_steps.execute
      rest.execute
  | forStep var iterable body rest => do
      let values ← iterable
      Call.each (fun value => do
        Call.change (ProcedureContext.assign var value)
        body.execute) values
      rest.execute
  | whileStep predicate body max_iterations rest => do
      Call.loopUpTo predicate body.execute (exceeded max_iterations) max_iterations.toNat
      rest.execute

/-- How steps end whose loops have no limits. -/
def ends : Steps World → Ending (ProcedureContext World) Raised
  | done => Ending.of (pure ())
  | call fn rest => Ending.seq (Ending.of fn) rest.ends
  | assign var expr rest => Ending.given expr fun value =>
      Ending.seq (Ending.of (Call.change (ProcedureContext.assign var value))) rest.ends
  | ifStep predicate then_steps else_steps rest => Ending.given predicate fun holds =>
      Ending.seq (if holds then then_steps.ends else else_steps.ends) rest.ends
  | forStep var iterable body rest => Ending.given iterable fun values =>
      Ending.seq (Ending.each (fun value =>
        Ending.seq (Ending.of (Call.change (ProcedureContext.assign var value))) body.ends) values)
          rest.ends
  | whileStep predicate body _ rest => Ending.seq (Ending.loop predicate body.ends) rest.ends

/-- The same steps with one limit for all loops. -/
def withLimit (limit : Nat) : Steps World → Steps World
  | done => done
  | call fn rest => call fn (rest.withLimit limit)
  | assign var expr rest => assign var expr (rest.withLimit limit)
  | ifStep predicate then_steps else_steps rest =>
      ifStep predicate (then_steps.withLimit limit) (else_steps.withLimit limit)
        (rest.withLimit limit)
  | forStep var iterable body rest =>
      forStep var iterable (body.withLimit limit) (rest.withLimit limit)
  | whileStep predicate body _ rest =>
      whileStep predicate (body.withLimit limit) limit (rest.withLimit limit)

/-- The limits of all loops. -/
def limits : Steps World → List Int
  | done => []
  | call _ rest | assign _ _ rest => rest.limits
  | ifStep _ then_steps else_steps rest => then_steps.limits ++ else_steps.limits ++ rest.limits
  | forStep _ _ body rest => body.limits ++ rest.limits
  | whileStep _ body max_iterations rest => max_iterations :: body.limits ++ rest.limits

theorem limits_withLimit (steps : Steps World) (limit : Nat) :
    ∀ other ∈ (steps.withLimit limit).limits, other = limit := by
  induction steps with
  | done => simp [withLimit, limits]
  | call _ _ rest => simpa [withLimit, limits] using rest
  | assign _ _ _ rest => simpa [withLimit, limits] using rest
  | ifStep _ _ _ _ yes no rest =>
    simp only [withLimit, limits, List.mem_append]
    rintro other ((early | early) | late)
    · exact yes other early
    · exact no other early
    · exact rest other late
  | forStep _ _ _ _ body rest =>
    simp only [withLimit, limits, List.mem_append]
    rintro other (early | late)
    · exact body other early
    · exact rest other late
  | whileStep _ _ _ _ body rest =>
    simp only [withLimit, limits, List.cons_append, List.mem_cons, List.mem_append]
    rintro other (own | early | late)
    · exact own
    · exact body other early
    · exact rest other late

theorem ends_withLimit (steps : Steps World) (limit : Nat) :
    (steps.withLimit limit).ends = steps.ends := by
  induction steps <;> simp_all [withLimit, ends]

/-- The error of a loop that has gone over one of some limits. -/
def CutOff (limits : List Int) (error : Raised) : Prop := ∃ limit ∈ limits, error = exceeded limit

/-- A run is one without limits, or a loop has gone over its limit. -/
theorem execute_ends (steps : Steps World) :
    Call.EndsUnless (CutOff steps.limits) steps.execute steps.ends := by
  have wider {few many : List Int} {call : Callback World Unit}
      {ending : Ending (ProcedureContext World) Raised}
      (runs : Call.EndsUnless (CutOff few) call ending) (among : few ⊆ many) :
      Call.EndsUnless (CutOff many) call ending := by
    intro ctx result after ran
    refine (runs ctx result after ran).imp_right ?_
    rintro ⟨error, ⟨limit, member, rfl⟩, same⟩
    exact ⟨_, ⟨limit, among member, rfl⟩, same⟩
  induction steps with
  | done => exact Call.EndsUnless.of _
  | call fn rest restEnds => exact (Call.EndsUnless.of fn).seq restEnds
  | assign var expr rest restEnds =>
    exact Call.EndsUnless.given fun value => (Call.EndsUnless.of _).seq restEnds
  | ifStep predicate then_steps else_steps rest yes no restEnds =>
    have late := wider restEnds (List.subset_append_right (then_steps.limits ++ else_steps.limits) _)
    have then_limits : then_steps.limits ⊆ then_steps.limits ++ else_steps.limits ++ rest.limits :=
      fun limit member => List.mem_append_left _ (List.mem_append_left _ member)
    have else_limits : else_steps.limits ⊆ then_steps.limits ++ else_steps.limits ++ rest.limits :=
      fun limit member => List.mem_append_left _ (List.mem_append_right _ member)
    refine Call.EndsUnless.given fun holds => ?_
    cases holds
    · exact (wider no else_limits).seq late
    · exact (wider yes then_limits).seq late
  | forStep var iterable body rest bodyEnds restEnds =>
    have early := wider bodyEnds (List.subset_append_left _ rest.limits)
    have late := wider restEnds (List.subset_append_right body.limits _)
    exact Call.EndsUnless.given fun values =>
      (Call.EndsUnless.each (fun value => (Call.EndsUnless.of _).seq early) values).seq late
  | whileStep predicate body max_iterations rest bodyEnds restEnds =>
    have body_limits : body.limits ⊆ max_iterations :: body.limits ++ rest.limits :=
      fun limit member => List.mem_cons_of_mem _ (List.mem_append_left _ member)
    have rest_limits : rest.limits ⊆ max_iterations :: body.limits ++ rest.limits :=
      fun limit member => List.mem_cons_of_mem _ (List.mem_append_right _ member)
    exact (Call.EndsUnless.loopUpTo (wider bodyEnds body_limits)
      ⟨max_iterations, List.mem_cons_self, rfl⟩ _).seq (wider restEnds rest_limits)

/-- Steps that end without limits end so with every high enough limit. -/
theorem execute_eventually {steps : Steps World} {ctx after : ProcedureContext World}
    {result : Except Raised Unit} (ended : steps.ends ctx result after) :
    Call.EndsEventually (fun limit => (steps.withLimit limit).execute) ctx result after := by
  induction steps generalizing ctx after result with
  | done => exact ⟨0, fun _ _ => ended⟩
  | call fn rest restEnds =>
    exact Call.EndsEventually.seq (fun early => ⟨0, fun _ _ => early⟩) restEnds ended
  | assign var expr rest restEnds =>
    exact Call.EndsEventually.given (fun late => Call.EndsEventually.seq
      (fun early => ⟨0, fun _ _ => early⟩) restEnds late) ended
  | ifStep predicate then_steps else_steps rest yes no restEnds =>
    refine Call.EndsEventually.given (fun {holds _ _ _} late => ?_) ended
    cases holds
    · exact Call.EndsEventually.seq no restEnds late
    · exact Call.EndsEventually.seq yes restEnds late
  | forStep var iterable body rest bodyEnds restEnds =>
    have turns {value : Value} {ctx after : ProcedureContext World} {result : Except Raised Unit}
        (turn : Ending.seq (Ending.of (Call.change (ProcedureContext.assign var value))) body.ends
          ctx result after) :
        Call.EndsEventually (fun limit => do
          Call.change (ProcedureContext.assign var value)
          (body.withLimit limit).execute) ctx result after :=
      Call.EndsEventually.seq (fun early => ⟨0, fun _ _ => early⟩) bodyEnds turn
    have loops {values : List Value} {ctx after : ProcedureContext World}
        {result : Except Raised Unit} (ended : Ending.each (fun value => Ending.seq
          (Ending.of (Call.change (ProcedureContext.assign var value))) body.ends) values
            ctx result after) :
        Call.EndsEventually (fun limit => Call.each (fun value => do
          Call.change (ProcedureContext.assign var value)
          (body.withLimit limit).execute) values) ctx result after :=
      @Call.EndsEventually.each _ _ _ _ _ _ (fun limit value => do
        Call.change (ProcedureContext.assign var value)
        (body.withLimit limit).execute) _ turns _ ended
    exact Call.EndsEventually.given (fun late => Call.EndsEventually.seq loops restEnds late) ended
  | whileStep predicate body max_iterations rest bodyEnds restEnds =>
    exact Call.EndsEventually.seq (Call.EndsEventually.loop bodyEnds) restEnds ended

/-- Different limits have different errors. -/
theorem exceeded_injective {limit other : Nat} (same : exceeded limit = exceeded other) :
    limit = other := by
  have texts : "WHILE exceeded " ++ toString (limit : Int) ++ " iterations" =
      "WHILE exceeded " ++ toString (other : Int) ++ " iterations" :=
    congrArg CaracalError.message (Raised.caracal.inj same)
  have chars := congrArg String.toList texts
  simp only [String.toList_append, List.append_cancel_right_eq, List.append_cancel_left_eq] at chars
  have digits : Nat.toDigits 10 limit = Nat.toDigits 10 other := by
    have written (number : Nat) : (toString (number : Int)).toList = Nat.toDigits 10 number :=
      Nat.toList_repr
    rwa [written, written] at chars
  have read := congrArg (Nat.ofDigitChars 10 · 0) digits
  rwa [Nat.ofDigitChars_toDigits (by omega) (by omega),
    Nat.ofDigitChars_toDigits (by omega) (by omega)] at read

/-- Without limits steps end as they do with every limit that is high enough, and in no other way. A
run with the limits that they have is one without limits unless one of these limits cuts it off. -/
theorem execute_adequate (steps : Steps World) (ctx after : ProcedureContext World)
    (result : Except Raised Unit) :
    (steps.ends ctx result after ↔ ∃ least, ∀ limit, least ≤ limit →
        Call.run (steps.withLimit limit).execute ctx = (result, after)) ∧
      (Call.run steps.execute ctx = (result, after) →
        steps.ends ctx result after ∨ ∃ limit ∈ steps.limits, result = .error (exceeded limit)) := by
  have cut (steps : Steps World) (ran : Call.run steps.execute ctx = (result, after)) :
      steps.ends ctx result after ∨ ∃ limit ∈ steps.limits, result = .error (exceeded limit) := by
    refine (steps.execute_ends ctx result after ran).imp_right ?_
    rintro ⟨error, ⟨limit, member, rfl⟩, same⟩
    exact ⟨limit, member, same⟩
  refine ⟨⟨execute_eventually, ?_⟩, cut steps⟩
  rintro ⟨least, runs⟩
  rcases cut _ (runs least (Nat.le_refl _)) with ended | ⟨first, member, same⟩
  · rwa [ends_withLimit] at ended
  · rcases cut _ (runs (least + 1) (Nat.le_succ _)) with ended | ⟨second, memberToo, sameToo⟩
    · rwa [ends_withLimit] at ended
    · -- the errors of two limits are different
      rw [limits_withLimit _ _ _ member] at same
      rw [limits_withLimit _ _ _ memberToo, same] at sameToo
      have equal := exceeded_injective (Except.error.inj sameToo)
      omega

/-! ## Conditions -/

/-- Without an error. -/
def never (_ : Raised) (_ : ProcedureContext World) : Prop := False

/-- Steps that are proved to lead from one condition to another without an error. A loop is proved
with a condition on the items or on the turns that are left. -/
inductive Proves : (ProcedureContext World → Prop) → Steps World → (ProcedureContext World → Prop) →
    Prop
  | done {before after : ProcedureContext World → Prop} (holds : ∀ ctx, before ctx → after ctx) :
      Proves before done after
  | call {before middle after : ProcedureContext World → Prop} {fn : Callback World Unit}
      {rest : Steps World} (calls : Call.Meets before fn (fun _ => middle) never)
      (behind : Proves middle rest after) : Proves before (call fn rest) after
  | assign {before after : ProcedureContext World → Prop}
      {read : Value → ProcedureContext World → Prop} {var : String} {expr : Callback World Value}
      {rest : Steps World} (reads : Call.Meets before expr read never)
      (behind : Proves (fun ctx => ∃ value old, read value old ∧ ctx = old.assign var value) rest
        after) : Proves before (assign var expr rest) after
  | ifStep {before middle after : ProcedureContext World → Prop}
      {tested : Bool → ProcedureContext World → Prop} {predicate : Callback World Bool}
      {then_steps else_steps rest : Steps World} (reads : Call.Meets before predicate tested never)
      (yes : Proves (tested true) then_steps middle) (no : Proves (tested false) else_steps middle)
      (behind : Proves middle rest after) :
      Proves before (ifStep predicate then_steps else_steps rest) after
  | forStep {before after : ProcedureContext World → Prop}
      {left : List Value → ProcedureContext World → Prop} {var : String}
      {iterable : Callback World (List Value)} {body rest : Steps World}
      (reads : Call.Meets before iterable left never)
      (turns : ∀ value values, Proves (fun ctx => ∃ old, left (value :: values) old ∧
        ctx = old.assign var value) body (left values))
      (behind : Proves (left []) rest after) : Proves before (forStep var iterable body rest) after
  | whileStep {before middle after : ProcedureContext World → Prop}
      {left turn : Nat → ProcedureContext World → Prop} {predicate : Callback World Bool}
      {body rest : Steps World} {max_iterations : Int}
      (starts : ∀ ctx, before ctx → left max_iterations.toNat ctx)
      (tests : ∀ turns, Call.Meets (left turns) predicate (fun holds ctx =>
        if holds then ∃ fewer, turns = fewer + 1 ∧ turn fewer ctx else middle ctx) never)
      (turns : ∀ turns, Proves (turn turns) body (left turns)) (behind : Proves middle rest after) :
      Proves before (whileStep predicate body max_iterations rest) after

section Conditions

variable {before after : ProcedureContext World → Prop} {steps : Steps World}

/-- Steps that are proved end as they are proved to. -/
theorem Proves.sound (proves : Proves before steps after) :
    Call.Meets before steps.execute (fun _ => after) never := by
  induction proves with
  | done holds => exact Call.Meets.pure () holds
  | call calls _ behind => exact Call.Meets.bind calls fun _ => behind
  | assign reads _ behind =>
    refine Call.Meets.bind reads fun value => ?_
    exact Call.Meets.bind (Call.Meets.change fun old holds => ⟨value, old, holds, rfl⟩) fun _ => behind
  | ifStep reads _ _ _ yes no behind =>
    refine Call.Meets.bind reads fun holds => ?_
    cases holds
    · exact Call.Meets.bind no fun _ => behind
    · exact Call.Meets.bind yes fun _ => behind
  | forStep reads _ _ turns behind =>
    refine Call.Meets.bind reads fun values => Call.Meets.bind ?_ fun _ => behind
    refine Call.Meets.each (fun value values => ?_) values
    exact Call.Meets.bind (Call.Meets.change fun old holds => ⟨old, holds, rfl⟩)
      fun _ => turns value values
  | whileStep starts tests _ _ turns behind =>
    refine Call.Meets.bind (fun ctx holds => ?_) fun _ => behind
    exact Call.Meets.loopUpTo tests turns _ ctx (starts ctx holds)

theorem Proves.weaken {first : ProcedureContext World → Prop} (proves : Proves before steps after)
    (stronger : ∀ ctx, first ctx → before ctx) : Proves first steps after := by
  cases proves with
  | done holds => exact .done fun ctx holdsFirst => holds ctx (stronger ctx holdsFirst)
  | call calls behind => exact .call (fun ctx holds => calls ctx (stronger ctx holds)) behind
  | assign reads behind => exact .assign (fun ctx holds => reads ctx (stronger ctx holds)) behind
  | ifStep reads yes no behind =>
    exact .ifStep (fun ctx holds => reads ctx (stronger ctx holds)) yes no behind
  | forStep reads turns behind =>
    exact .forStep (fun ctx holds => reads ctx (stronger ctx holds)) turns behind
  | whileStep starts tests turns behind =>
    exact .whileStep (fun ctx holds => starts ctx (stronger ctx holds)) tests turns behind

/-- Steps are proved from the condition that they end as asked. -/
theorem proves_leads (steps : Steps World) (after : ProcedureContext World → Prop) :
    Proves (Call.Leads steps.execute (fun _ => after) never) steps after := by
  induction steps generalizing after with
  | done => exact .done fun _ holds => holds
  | call fn rest behind =>
    exact .call (fun ctx leads => (Call.leads_bind _ _ _ ctx).mp leads) (behind after)
  | assign var expr rest behind =>
    refine .assign (fun ctx leads => (Call.leads_bind _ _ _ ctx).mp leads)
      ((behind after).weaken ?_)
    rintro _ ⟨value, old, leads, rfl⟩
    exact leads
  | ifStep predicate then_steps else_steps rest yes no behind =>
    have reads : Call.Meets
        (Call.Leads (ifStep predicate then_steps else_steps rest).execute (fun _ => after) never)
        predicate (fun holds => Call.Leads (if holds then then_steps.execute else else_steps.execute)
          (fun _ => Call.Leads rest.execute (fun _ => after) never) never) never := by
      intro ctx leads
      have tested := (Call.leads_bind _ _ _ ctx).mp leads
      rw [Call.Leads] at tested
      revert tested
      rcases Call.run predicate ctx with ⟨_ | holds, middle⟩
      · exact id
      · cases holds
        · exact (Call.leads_bind _ _ _ middle).mp
        · exact (Call.leads_bind _ _ _ middle).mp
    exact .ifStep reads (yes _) (no _) (behind after)
  | forStep var iterable body rest turns behind =>
    have reads : Call.Meets (Call.Leads (forStep var iterable body rest).execute (fun _ => after) never)
        iterable (fun values => Call.Leads (Call.each (fun value => do
          Call.change (ProcedureContext.assign var value)
          body.execute) values) (fun _ => Call.Leads rest.execute (fun _ => after) never) never)
            never := by
      intro ctx leads
      simp only [execute, Call.leads_seq] at leads
      exact leads
    refine .forStep reads (fun value values => (turns _).weaken ?_) (behind after)
    rintro _ ⟨old, leads, rfl⟩
    simp only [Call.each, Call.leads_seq] at leads
    exact leads
  | whileStep predicate body max_iterations rest turns behind =>
    have tests (left : Nat) : Call.Meets
        (Call.Leads (Call.loopUpTo predicate body.execute (exceeded max_iterations) left)
          (fun _ => Call.Leads rest.execute (fun _ => after) never) never) predicate
        (fun holds ctx => if holds then ∃ fewer, left = fewer + 1 ∧
            Call.Leads body.execute (fun _ => Call.Leads
              (Call.loopUpTo predicate body.execute (exceeded max_iterations) fewer)
                (fun _ => Call.Leads rest.execute (fun _ => after) never) never) never ctx
          else Call.Leads rest.execute (fun _ => after) never ctx) never := by
      intro ctx leads
      cases left with
      | zero =>
        have tested := (Call.leads_bind _ _ _ ctx).mp leads
        rw [Call.Leads] at tested
        revert tested
        rcases Call.run predicate ctx with ⟨_ | holds, middle⟩
        · exact id
        · cases holds
          · exact id
          · exact fun raised => absurd raised id
      | succ left =>
        have tested := (Call.leads_bind _ _ _ ctx).mp leads
        rw [Call.Leads] at tested
        revert tested
        rcases Call.run predicate ctx with ⟨_ | holds, middle⟩
        · exact id
        · cases holds
          · exact id
          · exact fun begins => ⟨left, rfl, (Call.leads_bind _ _ _ middle).mp begins⟩
    refine .whileStep (fun ctx leads => (Call.leads_bind _ _ _ ctx).mp leads) tests
      (fun left => turns _) (behind after)

/-- A condition of steps can be proved exactly if the steps end as it says. -/
theorem proves_iff (before after : ProcedureContext World → Prop) (steps : Steps World) :
    Proves before steps after ↔
      ∀ ctx, before ctx → ∃ last, Call.run steps.execute ctx = (.ok (), last) ∧ after last := by
  constructor
  · intro proves ctx holds
    have ended := proves.sound ctx holds
    rcases outcome : Call.run steps.execute ctx with ⟨_ | _, last⟩
    · rw [outcome] at ended
      exact absurd ended id
    · rw [outcome] at ended
      exact ⟨last, rfl, ended⟩
  · intro ends
    refine (proves_leads steps after).weaken fun ctx holds => ?_
    obtain ⟨last, ran, ended⟩ := ends ctx holds
    rw [Call.Leads, ran]
    exact ended

end Conditions

end Steps

/-! ## Arguments -/

structure Procedure (World : Type) where
  name : String
  params : List String
  steps : Steps World

namespace Procedure

variable {World : Type}

/-- The arguments are named by the parameters, all of them. -/
def checkArgs (procedure : Procedure World) (args : Dict String Value) : Except Raised Unit := do
  match args.keys.find? fun name => name ∉ procedure.params with
  | some name => .error (procedureError ("unknown procedure arg: " ++ Value.quoted name))
  | none => pure ()
  match procedure.params.find? fun name => name ∉ args.keys with
  | some name => .error (procedureError ("missing procedure arg: " ++ Value.quoted name))
  | none => pure ()

/-- `Procedure.run(args)`: what its callbacks did to the world before an error stays done. -/
def run (procedure : Procedure World) (args : Dict String Value) :
    Call World Raised (ProcedureContext World) := fun world =>
  match procedure.checkArgs args with
  | .error raised => (.error raised, world)
  | .ok () =>
      match Call.run procedure.steps.execute { vars := args, world } with
      | (.ok (), ctx) => (.ok ctx, ctx.world)
      | (.error raised, ctx) => (.error raised, ctx.world)

theorem checkArgs_ok {procedure : Procedure World} {args : Dict String Value} :
    procedure.checkArgs args = .ok () ↔ ∀ name, name ∈ args.keys ↔ name ∈ procedure.params := by
  rw [checkArgs]
  cases unknown : args.keys.find? fun name => name ∉ procedure.params with
  | some name =>
    have member := List.mem_of_find?_eq_some unknown
    have outside := List.find?_some unknown
    simp only [decide_eq_true_eq] at outside
    constructor
    · intro impossible
      cases impossible
    · intro same
      exact absurd ((same name).mp member) outside
  | none =>
    cases missing : procedure.params.find? fun name => name ∉ args.keys with
    | some name =>
      have member := List.mem_of_find?_eq_some missing
      have outside := List.find?_some missing
      simp only [decide_eq_true_eq] at outside
      constructor
      · intro impossible
        cases impossible
      · intro same
        exact absurd ((same name).mpr member) outside
    | none =>
      simp only [List.find?_eq_none, decide_eq_true_eq, not_not] at unknown missing
      exact ⟨fun _ name => ⟨unknown name, missing name⟩, fun _ => rfl⟩

/-- A procedure returns a context that meets a condition exactly if its arguments are its parameters
and its steps are proved to lead there from them. -/
theorem run_iff (procedure : Procedure World) (args : Dict String Value) (world : World)
    (after : ProcedureContext World → Prop) :
    (∃ ctx, Call.run (procedure.run args) world = (.ok ctx, ctx.world) ∧ after ctx) ↔
      (∀ name, name ∈ args.keys ↔ name ∈ procedure.params) ∧
        procedure.steps.Proves (fun ctx => ctx = { vars := args, world }) after := by
  rw [Steps.proves_iff, ← checkArgs_ok]
  have opened : Call.run (procedure.run args) world = procedure.run args world := rfl
  rw [opened, run]
  cases checked : procedure.checkArgs args with
  | error raised =>
    constructor
    · rintro ⟨ctx, impossible, _⟩
      cases impossible
    · rintro ⟨impossible, _⟩
      cases impossible
  | ok _ =>
    rcases outcome : Call.run procedure.steps.execute { vars := args, world } with ⟨_ | _, last⟩
    · constructor
      · rintro ⟨ctx, impossible, _⟩
        cases impossible
      · rintro ⟨_, ends⟩
        obtain ⟨other, ran, _⟩ := ends _ rfl
        rw [outcome] at ran
        cases ran
    · constructor
      · rintro ⟨ctx, same, ended⟩
        cases same
        refine ⟨rfl, ?_⟩
        rintro _ rfl
        exact ⟨last, outcome, ended⟩
      · rintro ⟨_, ends⟩
        obtain ⟨other, ran, ended⟩ := ends _ rfl
        rw [outcome] at ran
        cases ran
        exact ⟨last, rfl, ended⟩

end Procedure

end CaracalDB
