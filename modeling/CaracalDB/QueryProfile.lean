import CaracalDB.ResultModifiers

/-!
# Profiles of queries

`Connection.sql` and `Database.profile` parse, bind and compile a query alike. A profile runs a path of
variable length and a vector search as the query does, but limits the rows of any other query by itself,
and does not skip any.
-/

namespace CaracalDB.QueryProfile

open HashJoin ResultModifiers

/-! ## Queries -/

inductive PatternElem where
  | node
  | rel (min_hops max_hops : Option Int)
deriving DecidableEq

/-- A query: the patterns of its first `MATCH` clause, its modifiers and what the compiler looks at
besides. -/
structure Query (Rest : Type) where
  patterns : Option (List (List PatternElem))
  modifiers : Modifiers
  rest : Rest

/-- What queries are parsed, compiled and run with. A statement that is no query is nothing. -/
structure Engine (Rest Plan : Type) where
  /-- `text.strip().upper().startswith("CALL VECTOR.SEARCH")` -/
  calls_vector_search : String → Bool
  vector_search : String → Except Raised (List Batch)
  parse_tuft : String → Except Raised (List (Option (Query Rest)))
  bind_program : List (Option (Query Rest)) → Except Raised Unit
  compile : Query Rest → Except Raised Plan
  run_pipeline : Plan → Except Raised (List Batch)
  variable_paths : Query Rest → Except Raised (List Batch)

section Queries

variable {Rest Plan : Type} (engine : Engine Rest Plan) (comparison : Comparison)

/-- `_is_multi_element_pattern(query)` -/
def isMultiElementPattern (query : Query Rest) : Bool :=
  (query.patterns.getD []).any fun elements => elements.length > 1

/-- `_has_variable_length_pattern(query)` -/
def hasVariableLengthPattern (query : Query Rest) : Bool :=
  (query.patterns.getD []).any fun elements => elements.any fun
    | .node => false
    | .rel min_hops max_hops => min_hops ≠ none || max_hops ≠ none

/-- `bind_program(program, catalog)`, whose errors about missing prefixes are passed over. -/
def bindBestEffort (program : List (Option (Query Rest))) : Except Raised Unit :=
  match engine.bind_program program with
  | .ok _ => .ok ()
  | .error raised =>
      if raised.code = some "TF-3001" ∨ raised.code = some "TF-3004" then .ok () else .error raised

/-- The query of a program with one statement. -/
def singleQuery (message : String) : List (Option (Query Rest)) → Except Raised (Query Rest)
  | [some query] => .ok query
  | _ => raiseCaracal "CDB-6020" message

/-- What `_compile_query` asks of the patterns of a query that has one element at most in each. -/
def checkPatterns (query : Query Rest) : Except Raised Unit :=
  if isMultiElementPattern query then .ok ()
  else match query.patterns with
    | none => raiseCaracal "CDB-6020" "MVP requires both MATCH and RETURN clauses"
    | some [[.node]] => .ok ()
    | some [[.rel _ _]] => raiseCaracal "CDB-6020" "MVP requires a node pattern"
    | some _ => raiseCaracal "CDB-6020"
        "MVP supports a single (alias:Class) pattern; multi-hop lands in M2"

/-- The limit of a plan. -/
def planLimit (modifiers : Modifiers) : Except Raised (Option Int) :=
  match modifiers.limit with
  | none => .ok none
  | some node => (evalIntLiteral node "LIMIT").map some

/-- The plan of a query that is no path of variable length, with its limit: `_compile_query` or
`_compile_pattern_query`. -/
def compileQuery (query : Query Rest) : Except Raised (Plan × Option Int) := do
  checkPatterns query
  let plan ← engine.compile query
  return (plan, ← planLimit query.modifiers)

/-- `_execute_variable_length_pattern_query(db, query)` -/
def variableLengthQuery (query : Query Rest) : Except Raised (List Batch) := do
  applyModifiers comparison (← engine.variable_paths query) query.modifiers

/-- `Connection.sql(text)` -/
def sql (text : String) : Except Raised (List Batch) :=
  if engine.calls_vector_search text then engine.vector_search text
  else do
    let program ← engine.parse_tuft text
    bindBestEffort engine program
    let query ← singleQuery "conn.sql() M1 MVP supports a single MATCH/RETURN statement" program
    if isMultiElementPattern query && hasVariableLengthPattern query then
      variableLengthQuery engine comparison query
    else
      let (plan, _) ← compileQuery engine query
      applyModifiers comparison (← engine.run_pipeline plan) query.modifiers

/-- The rows of batches, counted. -/
def numRows (batches : List Batch) : Nat := (batches.flatMap Batch.rows).length

/-- `_apply_limit(batches, limit)`, with what remains of the limit. -/
def applyLimit (remaining : Int) : List Batch → List Batch
  | [] => []
  | batch :: rest =>
      if remaining ≤ 0 then []
      else if (batch.rows.length : Int) ≤ remaining then
        batch :: applyLimit (remaining - batch.rows.length) rest
      else { batch with rows := batch.rows.take remaining.toNat } :: applyLimit 0 rest

/-- The `result_count` of `_profile_query(db, text)`. -/
def profile (text : String) : Except Raised Nat :=
  if engine.calls_vector_search text then do
    return numRows (← engine.vector_search text)
  else do
    let query ← singleQuery "profile supports one query statement" (← engine.parse_tuft text)
    if hasVariableLengthPattern query then
      return numRows (← variableLengthQuery engine comparison query)
    else
      let program ← engine.parse_tuft text
      bindBestEffort engine program
      let query ← singleQuery "profile/explain supports one query statement" program
      let (plan, limit) ← compileQuery engine query
      let batches ← engine.run_pipeline plan
      match limit with
      | none => return numRows batches
      | some limit => return numRows (applyLimit limit batches)

end Queries

/-! ## Counts -/

theorem applyLimit_rows (limit : Int) (batches : List Batch) :
    (applyLimit limit batches).flatMap Batch.rows =
      (batches.flatMap Batch.rows).take limit.toNat := by
  induction batches generalizing limit with
  | nil => exact List.take_nil.symm
  | cons batch rest inductionHypothesis =>
    rw [applyLimit, List.flatMap_cons, List.take_append]
    split
    · next none =>
      have nothing : limit.toNat = 0 := by omega
      rw [nothing, Nat.zero_sub, List.take_zero, List.take_zero]
      rfl
    · split
      · next whole =>
        have left : (limit - batch.rows.length).toNat = limit.toNat - batch.rows.length := by omega
        rw [List.flatMap_cons, inductionHypothesis, left,
          List.take_of_length_le (show batch.rows.length ≤ limit.toNat by omega)]
      · next part =>
        have nothing : limit.toNat - batch.rows.length = 0 := by omega
        rw [List.flatMap_cons, inductionHypothesis, nothing]
        rfl

/-- A profile counts the rows of a query of which some are skipped: none is, or there is none, or
the limit leaves none or ends before the last row. -/
def SameCount (modifiers : Modifiers) (total : Nat) : Prop :=
  ∀ node skip, modifiers.skip = some node → evalIntLiteral node "SKIP" = .ok skip →
    skip = 0 ∨ total = 0 ∨ ∃ bound limit, modifiers.limit = some bound ∧
      evalIntLiteral bound "LIMIT" = .ok limit ∧ (limit = 0 ∨ limit + skip ≤ total)

section Counts

variable {Rest Plan : Type} {engine : Engine Rest Plan} {comparison : Comparison}
  {batches out : List Batch} {modifiers : Modifiers}

theorem sortRows_length {key : String × Bool} {rows sorted : List Row}
    (done : sortRows comparison key rows = .ok sorted) : sorted.length = rows.length := by
  rw [sortRows] at done
  split at done
  · cases done
  · cases done
    exact List.length_insertionSort _ rows

theorem orderRows_length {order_by : List OrderItem} {names : List String}
    {rows ordered : List (List Value)} (done : orderRows comparison order_by names rows = .ok ordered) :
    ordered.length = rows.length := by
  rw [orderRows] at done
  split at done
  · cases done
    rfl
  · obtain ⟨sorted, sorts, same⟩ := except_bind_ok done
    cases same
    rw [List.length_map]
    have width : (rows.map (toDict names)).length = rows.length := List.length_map _
    rw [← width]
    clear done
    generalize rows.map (toDict names) = dicts at sorts ⊢
    generalize order_by.reverse = items at sorts
    induction items generalizing dicts with
    | nil =>
      cases sorts
      rfl
    | cons item items inductionHypothesis =>
      rw [List.foldlM_cons] at sorts
      obtain ⟨before, first, later⟩ := except_bind_ok sorts
      obtain ⟨column, _, sorted⟩ := except_bind_ok first
      rw [inductionHypothesis before later, sortRows_length sorted]

/-- The numbers that the modifiers of an answer skip and limit. -/
theorem applyModifiers_count (done : applyModifiers comparison batches modifiers = .ok out) :
    (numRows batches = 0 ∧ numRows out = 0) ∨
      (∃ skip : Nat, (modifiers.skip = none ∧ skip = 0 ∨ ∃ node, modifiers.skip = some node ∧
          evalIntLiteral node "SKIP" = .ok (skip : Int)) ∧
        ((modifiers.limit = none ∧ numRows out = numRows batches - skip) ∨
          ∃ bound limit, modifiers.limit = some bound ∧
            evalIntLiteral bound "LIMIT" = .ok (limit : Int) ∧ 0 ≤ limit ∧
              numRows out = min limit.toNat (numRows batches - skip))) := by
  cases batches with
  | nil =>
    cases done
    exact .inl ⟨rfl, rfl⟩
  | cons first rest =>
    right
    rw [applyModifiers] at done
    obtain ⟨_, _, done⟩ := except_bind_ok done
    obtain ⟨ordered, orders, done⟩ := except_bind_ok done
    obtain ⟨skipped, skips, done⟩ := except_bind_ok done
    obtain ⟨limited, limits, same⟩ := except_bind_ok done
    cases same
    have total : ordered.length = numRows (first :: rest) := orderRows_length orders
    have skipCount : ∃ skip : Nat, (modifiers.skip = none ∧ skip = 0 ∨
        ∃ node, modifiers.skip = some node ∧ evalIntLiteral node "SKIP" = .ok (skip : Int)) ∧
          skipped.length = numRows (first :: rest) - skip := by
      cases given : modifiers.skip with
      | none =>
        rw [given] at skips
        cases skips
        exact ⟨0, .inl ⟨rfl, rfl⟩, total⟩
      | some node =>
        rw [given, skipRows] at skips
        obtain ⟨skip, literal, sliced⟩ := except_bind_ok skips
        obtain ⟨_, natural, same⟩ := except_bind_ok sliced
        have positive := refuse_ok natural
        cases same
        have isNat : (skip.toNat : Int) = skip := by omega
        refine ⟨skip.toNat, .inr ⟨node, rfl, ?_⟩, ?_⟩
        · rw [isNat]
          exact literal
        · rw [List.length_drop, total]
    obtain ⟨skip, literal, left⟩ := skipCount
    refine ⟨skip, literal, ?_⟩
    rw [numRows, List.flatMap_singleton]
    cases given : modifiers.limit with
    | none =>
      rw [given] at limits
      cases limits
      exact .inl ⟨rfl, left⟩
    | some bound =>
      rw [given, limitRows] at limits
      obtain ⟨limit, isLimit, sliced⟩ := except_bind_ok limits
      obtain ⟨_, natural, same⟩ := except_bind_ok sliced
      have positive := refuse_ok natural
      cases same
      refine .inr ⟨bound, limit, rfl, isLimit, by omega, ?_⟩
      rw [List.length_take, left]

/-- What a profile of the rows of a pipeline counts. -/
def profileCount (limit : Option Int) (batches : List Batch) : Nat :=
  match limit with
  | none => numRows batches
  | some limit => numRows (applyLimit limit batches)

/-- A profile counts as many rows as the modifiers answer exactly if none of the rows that are left
is missing for those that are skipped. -/
theorem profileCount_iff (done : applyModifiers comparison batches modifiers = .ok out)
    {limit : Option Int}
    (planned : planLimit modifiers = .ok limit) :
    profileCount limit batches = numRows out ↔ SameCount modifiers (numRows batches) := by
  have limited : ∀ limit, numRows (applyLimit limit batches) = min limit.toNat (numRows batches) := by
    intro limit
    rw [numRows, applyLimit_rows, List.length_take]
    rfl
  rcases applyModifiers_count done with ⟨empty, nothing⟩ | ⟨skip, isSkip, isLimit⟩
  · rw [nothing]
    constructor
    · exact fun _ _ _ _ _ => .inr (.inl empty)
    · intro _
      cases limit with
      | none => exact empty
      | some limit => rw [profileCount, limited, empty, Nat.min_zero]
  · have same : SameCount modifiers (numRows batches) ↔ skip = 0 ∨ numRows batches = 0 ∨
        ∃ bound limit, modifiers.limit = some bound ∧
          evalIntLiteral bound "LIMIT" = .ok limit ∧ (limit = 0 ∨ limit + skip ≤ numRows batches) := by
      rcases isSkip with ⟨absent, zero⟩ | ⟨node, given, literal⟩
      · constructor
        · exact fun _ => .inl zero
        · intro _ node _ given
          rw [absent] at given
          cases given
      · constructor
        · intro all
          have one := all node skip given literal
          exact one.imp Int.natCast_eq_zero.mp id
        · intro one clause number isNode isNumber
          rw [given] at isNode
          cases isNode
          rw [literal] at isNumber
          cases isNumber
          exact one.imp Int.natCast_eq_zero.mpr id
    rw [same]
    rcases isLimit with ⟨absent, left⟩ | ⟨bound, most, given, literal, positive, left⟩
    · rw [planLimit, absent] at planned
      cases planned
      rw [profileCount, left]
      constructor
      · intro equal
        omega
      · rintro (zero | empty | ⟨_, _, impossible, _⟩)
        · omega
        · omega
        · rw [absent] at impossible
          cases impossible
    · rw [planLimit, given] at planned
      dsimp only at planned
      rw [literal] at planned
      cases planned
      rw [profileCount, limited, left]
      constructor
      · intro equal
        by_cases zero : skip = 0
        · exact .inl zero
        · by_cases empty : numRows batches = 0
          · exact .inr (.inl empty)
          · exact .inr (.inr ⟨bound, most, given, literal, by omega⟩)
      · rintro (zero | empty | ⟨clause, number, isBound, isNumber, room⟩)
        · rw [zero, Nat.sub_zero]
        · rw [empty, Nat.zero_sub]
        · rw [given] at isBound
          cases isBound
          rw [literal] at isNumber
          cases isNumber
          omega

end Counts

/-! ## Queries and their profiles -/

section Profiles

variable {Rest Plan : Type} {engine : Engine Rest Plan} {comparison : Comparison} {text : String}
  {out : List Batch}

/-- A text is a query that is no path of variable length, and its pipeline yields batches. -/
structure Yields (engine : Engine Rest Plan) (text : String) (query : Query Rest)
    (batches : List Batch) : Prop where
  parsed : engine.calls_vector_search text = false ∧ engine.parse_tuft text = .ok [some query]
  fixed : hasVariableLengthPattern query = false
  run : ∃ plan, engine.compile query = .ok plan ∧ engine.run_pipeline plan = .ok batches

/-- A pattern with a single element has no range of hops, as the compiler takes no relation alone. -/
theorem fixed_of_checked {query : Query Rest} (single : isMultiElementPattern query = false)
    (checked : checkPatterns query = .ok ()) : hasVariableLengthPattern query = false := by
  rw [checkPatterns, if_neg (by simp [single])] at checked
  split at checked
  · cases checked
  · next node =>
    rw [hasVariableLengthPattern, node]
    rfl
  · cases checked
  · cases checked

theorem singleQuery_ok {message : String} {program : List (Option (Query Rest))} {query : Query Rest}
    (single : singleQuery message program = .ok query) : program = [some query] := by
  rw [singleQuery.eq_def] at single
  split at single
  · cases single
    rfl
  · cases single

theorem compileQuery_ok {query : Query Rest} {plan : Plan} {limit : Option Int}
    (compiled : compileQuery engine query = .ok (plan, limit)) :
    checkPatterns query = .ok () ∧ engine.compile query = .ok plan ∧
      planLimit query.modifiers = .ok limit := by
  obtain ⟨_, checked, rest⟩ := except_bind_ok compiled
  obtain ⟨_, isPlan, rest⟩ := except_bind_ok rest
  obtain ⟨_, planned, same⟩ := except_bind_ok rest
  cases same
  exact ⟨checked, isPlan, planned⟩

/-- For a query that is answered, a profile counts the rows of the answer exactly if none of the rows
that are left is missing for those that are skipped. -/
theorem profile_iff (accepted : sql engine comparison text = .ok out) :
    ∃ count, profile engine comparison text = .ok count ∧
      (count = numRows out ↔ ∀ query batches, Yields engine text query batches →
        SameCount query.modifiers (numRows batches)) := by
  rw [sql] at accepted
  rw [profile]
  by_cases call : engine.calls_vector_search text = true
  · rw [if_pos call] at accepted ⊢
    refine ⟨numRows out, ?_, fun _ query batches yields => ?_, fun _ => rfl⟩
    · rw [accepted]
      rfl
    · rw [yields.parsed.1] at call
      cases call
  · rw [if_neg call] at accepted ⊢
    obtain ⟨program, parsed, rest⟩ := except_bind_ok accepted
    obtain ⟨_, bound, rest⟩ := except_bind_ok rest
    obtain ⟨query, single, answered⟩ := except_bind_ok rest
    have isProgram := singleQuery_ok single
    subst isProgram
    have named : ∀ message, singleQuery message [some query] = .ok query := fun _ => rfl
    rw [parsed, ok_bind, named, ok_bind]
    clear rest
    split at answered
    · next variable_ =>
      rw [Bool.and_eq_true] at variable_
      rw [if_pos variable_.2, answered, ok_bind]
      refine ⟨numRows out, rfl, fun _ other batches yields => ?_, fun _ => rfl⟩
      have same := yields.parsed.2
      rw [parsed] at same
      cases same
      rw [yields.fixed] at variable_
      cases variable_.2
    · next fixed =>
      obtain ⟨⟨plan, limit⟩, compiled, answered⟩ := except_bind_ok answered
      obtain ⟨batches, yielded, modified⟩ := except_bind_ok answered
      obtain ⟨checked, isPlan, planned⟩ := compileQuery_ok compiled
      have isFixed : hasVariableLengthPattern query = false := by
        cases multi : isMultiElementPattern query with
        | false => exact fixed_of_checked multi checked
        | true => simpa [multi] using fixed
      rw [isFixed, if_neg Bool.false_ne_true, ok_bind, bound, ok_bind, named, ok_bind, compiled,
        ok_bind]
      refine ⟨profileCount limit batches, ?_, (profileCount_iff modified planned).trans ?_⟩
      · dsimp only
        rw [yielded, ok_bind]
        cases limit with
        | none => rfl
        | some limit => rfl
      · constructor
        · intro same other others yields
          have isQuery := yields.parsed.2
          rw [parsed] at isQuery
          cases isQuery
          obtain ⟨plan', compiled', yielded'⟩ := yields.run
          rw [isPlan] at compiled'
          cases compiled'
          rw [yielded] at yielded'
          cases yielded'
          exact same
        · intro all
          exact all query batches ⟨⟨by simpa using call, parsed⟩, isFixed, plan, isPlan, yielded⟩

end Profiles

/-! ## The rows and their count -/

section Results

variable {Rest Plan : Type} {columns : List (String × DataType)} {batches out : List Batch}
  {order_by : List OrderItem} {keys : List (String × Bool)} {skip limit : Option Nat} {text : String}

/-- Modifiers answer what they ask for if their sorts find values to compare and columns of one name
agree, and a profile counts the rows of a query if none of the rows that are left is missing for those
that are skipped; otherwise they do not. -/
theorem results_iff (comparison : Comparison) (engine : Engine Rest Plan)
    (uniform : ∀ batch ∈ batches, batch.columns = columns)
    (named : order_by.mapM (fun item => do
      return (← orderColumnName (columnNames columns) item.expr, item.descending)) = .ok keys)
    (accepted : sql engine comparison text = .ok out) :
    ((∃ made, applyModifiers comparison batches (modifiersOf order_by skip limit) = .ok made ∧
        made.flatMap Batch.rows =
          asked comparison (columnNames columns) keys skip limit (batches.flatMap Batch.rows)) ↔
      (order_by = [] ∨ (Comparable (columnNames columns) keys (batches.flatMap Batch.rows) ∧
        ∀ row ∈ asked comparison (columnNames columns) keys skip limit (batches.flatMap Batch.rows),
          Whole (columnNames columns) row))) ∧
      ∃ count, profile engine comparison text = .ok count ∧
        (count = numRows out ↔ ∀ query batches, Yields engine text query batches →
          SameCount query.modifiers (numRows batches)) :=
  ⟨applyModifiers_iff uniform named, profile_iff accepted⟩

end Results

/-! ## A page of ages -/

/-- The number of an integer. -/
def rank : Value → Int
  | .int number => number
  | _ => 0

/-- The order of integers. -/
def byNumber : Comparison where
  less left right := rank left < rank right
  asymm := by
    intro left right less
    rw [decide_eq_true_eq] at less
    rw [decide_eq_false_iff_not]
    omega
  trans := by
    intro first second third before behind
    rw [decide_eq_false_iff_not] at before behind ⊢
    omega

/-- The ages of two persons. -/
def ages (second : Value) : List Batch :=
  [{ columns := [("age", .int64)], rows := [[.int 36], [second]] }]

/-- `MATCH (n:Person) RETURN n.age` with some modifiers. -/
def ageEngine (modifiers : Modifiers) : Engine Unit Unit where
  calls_vector_search _ := false
  vector_search _ := .error (.caracal { code := "CDB-6020", message := "no vector index" })
  parse_tuft _ := .ok [some { patterns := some [[.node]], modifiers, rest := () }]
  bind_program _ := .ok ()
  compile _ := .ok ()
  run_pipeline _ := .ok (ages (.int 41))
  variable_paths _ := .ok []

/-- `ORDER BY n.age DESC` -/
def byAge : List OrderItem := [{ expr := .path (some "n") ["age"], descending := true }]

theorem ages_listed :
    ((∃ made, applyModifiers byNumber (ages (.int 41)) (modifiersOf byAge none (some 1)) = .ok made ∧
        made.flatMap Batch.rows =
          asked byNumber ["age"] [("age", true)] none (some 1) [[.int 36], [.int 41]]) ↔
      (byAge = [] ∨ (Comparable ["age"] [("age", true)] [[.int 36], [.int 41]] ∧
        ∀ row ∈ asked byNumber ["age"] [("age", true)] none (some 1) [[.int 36], [.int 41]],
          Whole ["age"] row))) ∧
      ∃ count, profile (ageEngine {}) byNumber "MATCH (n:Person) RETURN n.age" = .ok count ∧
        (count = numRows (ages (.int 41)) ↔ ∀ query batches,
          Yields (ageEngine {}) "MATCH (n:Person) RETURN n.age" query batches →
            SameCount query.modifiers (numRows batches)) := by
  have uniform : ∀ batch ∈ ages (.int 41), batch.columns = [("age", DataType.int64)] := by
    intro batch member
    rw [List.mem_singleton.mp member]
  have named : byAge.mapM (fun item => do
      return (← orderColumnName (columnNames [("age", DataType.int64)]) item.expr, item.descending)) =
        .ok [("age", true)] := by decide +kernel
  exact results_iff byNumber (ageEngine {}) uniform named rfl

/-- An order by a column with a null fails, and a profile counts a row that is skipped. -/
theorem null_fails_skip_counted :
    (∃ raised, applyModifiers byNumber (ages .null) (modifiersOf byAge none none) = .error raised) ∧
      ∃ out, sql (ageEngine (modifiersOf [] (some 1) none)) byNumber
          "MATCH (n:Person) RETURN n.age SKIP 1" = .ok out ∧ numRows out = 1 ∧
        profile (ageEngine (modifiersOf [] (some 1) none)) byNumber
          "MATCH (n:Person) RETURN n.age SKIP 1" = .ok 2 := by
  refine ⟨⟨.typeError "'<' not supported between instances of 'NoneType'", ?_⟩, _, rfl, ?_, ?_⟩
  · decide +kernel
  · decide +kernel
  · decide +kernel

end CaracalDB.QueryProfile
