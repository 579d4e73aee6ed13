import CaracalDB.HierarchyQuery
import CaracalDB.Loops

/-!
# Answers over a class hierarchy

A demand that the class of a node descends from another is one test of the two
classes of the query. When the first descends from the other, the answer has the
rows of all classes below the first one that pass the rest of the predicate. When it
does not, the answer is empty, also where a class descends from both.
-/

namespace CaracalDB.Hierarchy

open Where Relation

/-! ## Taking the demand out of a predicate -/

/-- A demand stands in an AND tree, and what the tree is without it. -/
inductive Stands (prefixes : List (String × String)) (aliasName base : String) :
    Expr → Option Expr → Prop
  | iri : Stands prefixes aliasName base
      (.binOp "SUBCLASSOF*" (.path (some aliasName) ["class"]) (.iri base)) none
  | qname {value : String} (names : expand prefixes (.qname value) = base) :
      Stands prefixes aliasName base
        (.binOp "SUBCLASSOF*" (.path (some aliasName) ["class"]) (.qname value)) none
  | left {op : String} {left right : Expr} {rest : Option Expr} (conjunction : isAnd op = true)
      (stands : Stands prefixes aliasName base left rest) :
      Stands prefixes aliasName base (.binOp op left right)
        (some ((rest.map fun remaining => .binOp op remaining right).getD right))
  | right {op : String} {left right : Expr} {rest : Option Expr} (conjunction : isAnd op = true)
      (stands : Stands prefixes aliasName base right rest) :
      Stands prefixes aliasName base (.binOp op left right)
        (some ((rest.map fun remaining => .binOp op left remaining).getD left))

/-- Of the operators of a predicate only AND is spelled like one. -/
theorem operator_and {op : String} {operator : Operator} (found : operatorOf op = some operator)
    (conjunction : isAnd op = true) : operator = .connective .and := by
  have all : ∀ entry ∈ BIN_OP_TO_TUPLE, isAnd entry.1 = true →
      entry.2 = .connective .and := by decide
  rw [operatorOf, Option.map_eq_some_iff] at found
  obtain ⟨entry, search, rfl⟩ := found
  have key : entry.1 = op := by simpa using List.find?_some search
  exact all entry (List.mem_of_find?_eq_some search) (key ▸ conjunction)

theorem translate_and {aliasName op : String} {left right : Expr} {plan : Plan}
    (conjunction : isAnd op = true)
    (translated : translate aliasName (.binOp op left right) = .ok plan) :
    ∃ first second, translate aliasName left = .ok first ∧ translate aliasName right = .ok second ∧
      plan = .join .and first second := by
  rw [translate] at translated
  cases found : operatorOf op with
  | none =>
    rw [found] at translated
    cases translated
  | some operator =>
    rw [found, operator_and found conjunction] at translated
    obtain ⟨first, left, translated⟩ := except_bind_ok translated
    obtain ⟨second, right, translated⟩ := except_bind_ok translated
    cases translated
    exact ⟨first, second, left, right, rfl⟩

/-- A predicate that is translated holds no demand. -/
theorem extract_translated {prefixes : List (String × String)} {aliasName : String} (expr : Expr)
    {plan : Plan} (translated : translate aliasName expr = .ok plan) :
    ∃ remaining, extractSubclassof prefixes aliasName expr = .ok (none, some remaining) ∧
      translate aliasName remaining = .ok plan := by
  induction expr generalizing plan with
  | binOp op left right leftHypothesis rightHypothesis =>
    by_cases conjunction : isAnd op = true
    · obtain ⟨first, second, leftTranslated, rightTranslated, rfl⟩ :=
        translate_and conjunction translated
      obtain ⟨leftRemaining, leftExtracted, leftSame⟩ := leftHypothesis leftTranslated
      obtain ⟨rightRemaining, rightExtracted, rightSame⟩ := rightHypothesis rightTranslated
      refine ⟨.binOp "AND" leftRemaining rightRemaining, ?_, ?_⟩
      · rw [extractSubclassof, if_pos conjunction, leftExtracted, rightExtracted]
        rfl
      · have isAnd : operatorOf "AND" = some (.connective .and) := by decide
        rw [translate, isAnd]
        simp only [leftSame, rightSame]
        rfl
    · have noDemand : op ≠ "SUBCLASSOF*" := by
        rintro rfl
        have unknown : operatorOf "SUBCLASSOF*" = none := by decide
        rw [translate, unknown] at translated
        cases translated
      exact ⟨_, by rw [extractSubclassof, if_neg conjunction, if_neg noDemand], translated⟩
  | _ => exact ⟨_, rfl, translated⟩

theorem mapM_some_ok {aliasName : String} {expr : Expr} {plan : Option Plan}
    (translated : (some expr).mapM (translate aliasName) = .ok plan) :
    ∃ one, translate aliasName expr = .ok one ∧ plan = some one := by
  rw [Option.mapM_some] at translated
  cases step : translate aliasName expr with
  | error raised =>
    rw [step] at translated
    cases translated
  | ok one =>
    rw [step] at translated
    cases translated
    exact ⟨one, rfl, rfl⟩

theorem mapM_none_of_ok {aliasName : String} {expr : Option Expr}
    (translated : expr.mapM (translate aliasName) = .ok none) : expr = none := by
  cases expr with
  | none => rfl
  | some expr =>
    obtain ⟨_, _, impossible⟩ := mapM_some_ok translated
    cases impossible

theorem isAliasClassPath_self (aliasName : String) :
    isAliasClassPath aliasName (.path (some aliasName) ["class"]) = true := by
  simp [isAliasClassPath]

theorem not_and : ¬ isAnd "SUBCLASSOF*" = true := by decide

theorem some_of_mapM {aliasName : String} {expr : Option Expr} {plan : Plan}
    (translated : expr.mapM (translate aliasName) = .ok (some plan)) :
    ∃ one, expr = some one ∧ translate aliasName one = .ok plan := by
  cases expr with
  | none => cases translated
  | some one =>
    obtain ⟨other, same, equal⟩ := mapM_some_ok translated
    cases equal
    exact ⟨one, rfl, same⟩

section Join

variable {prefixes : List (String × String)} {aliasName base op : String} {left right other : Expr}

theorem extract_left (filled : base ≠ "") (conjunction : isAnd op = true) {kept : Option Expr}
    (extracted : extractSubclassof prefixes aliasName left = .ok (some base, kept))
    (otherExtracted : extractSubclassof prefixes aliasName right = .ok (none, some other)) :
    extractSubclassof prefixes aliasName (.binOp op left right) =
      .ok (some base, joinRemaining kept (some other)) := by
  have found : orText (some base) none = some base := if_neg filled
  rw [extractSubclassof, if_pos conjunction, extracted, otherExtracted]
  show Except.ok (orText (some base) none, joinRemaining kept (some other)) = _
  rw [found]

theorem extract_right (conjunction : isAnd op = true) {kept : Option Expr}
    (otherExtracted : extractSubclassof prefixes aliasName left = .ok (none, some other))
    (extracted : extractSubclassof prefixes aliasName right = .ok (some base, kept)) :
    extractSubclassof prefixes aliasName (.binOp op left right) =
      .ok (some base, joinRemaining (some other) kept) := by
  rw [extractSubclassof, if_pos conjunction, otherExtracted, extracted]
  rfl

theorem translate_joined {first second : Plan} (leftSame : translate aliasName left = .ok first)
    (rightSame : translate aliasName right = .ok second) :
    (joinRemaining (some left) (some right)).mapM (translate aliasName) =
      .ok (some (.join .and first second)) := by
  have and_known : operatorOf "AND" = some (.connective .and) := by decide
  rw [joinRemaining, Option.mapM_some, translate, and_known]
  simp only [leftSame, rightSame]
  rfl

end Join

/-- Wherever the demand stands, its class is found and what remains is translated as the tree without
it. -/
theorem extract_stands {prefixes : List (String × String)} {aliasName base : String}
    (filled : base ≠ "") {tree : Expr} {rest : Option Expr}
    (stands : Stands prefixes aliasName base tree rest) {plan : Option Plan}
    (translated : rest.mapM (translate aliasName) = .ok plan) :
    ∃ remaining, extractSubclassof prefixes aliasName tree = .ok (some base, remaining) ∧
      remaining.mapM (translate aliasName) = .ok plan := by
  induction stands generalizing plan with
  | iri =>
    refine ⟨none, ?_, translated⟩
    rw [extractSubclassof, if_neg not_and, if_pos rfl, if_pos (isAliasClassPath_self _)]
    rfl
  | qname names =>
    refine ⟨none, ?_, translated⟩
    rw [extractSubclassof, if_neg not_and, if_pos rfl, if_pos (isAliasClassPath_self _)]
    rw [demandedIri, names]
    rfl
  | @left op left right rest conjunction _ inductionHypothesis =>
    obtain ⟨whole, translatedWhole, rfl⟩ := mapM_some_ok translated
    cases rest with
    | none =>
      obtain ⟨kept, extracted, keptTranslated⟩ := inductionHypothesis rfl
      cases mapM_none_of_ok keptTranslated
      obtain ⟨other, otherExtracted, same⟩ := extract_translated right translatedWhole
      exact ⟨_, extract_left filled conjunction extracted otherExtracted,
        by rw [joinRemaining, Option.mapM_some, same]; rfl⟩
    | some expr =>
      obtain ⟨first, second, firstTranslated, secondTranslated, rfl⟩ :=
        translate_and conjunction translatedWhole
      obtain ⟨kept, extracted, keptTranslated⟩ := inductionHypothesis
        (by rw [Option.mapM_some, firstTranslated]; rfl)
      obtain ⟨other, otherExtracted, same⟩ := extract_translated right secondTranslated
      obtain ⟨keptExpr, rfl, keptSame⟩ := some_of_mapM keptTranslated
      exact ⟨_, extract_left filled conjunction extracted otherExtracted,
        translate_joined keptSame same⟩
  | @right op left right rest conjunction _ inductionHypothesis =>
    obtain ⟨whole, translatedWhole, rfl⟩ := mapM_some_ok translated
    cases rest with
    | none =>
      obtain ⟨kept, extracted, keptTranslated⟩ := inductionHypothesis rfl
      cases mapM_none_of_ok keptTranslated
      obtain ⟨other, otherExtracted, same⟩ := extract_translated left translatedWhole
      exact ⟨_, extract_right conjunction otherExtracted extracted,
        by rw [joinRemaining, Option.mapM_some, same]; rfl⟩
    | some expr =>
      obtain ⟨first, second, firstTranslated, secondTranslated, rfl⟩ :=
        translate_and conjunction translatedWhole
      obtain ⟨kept, extracted, keptTranslated⟩ := inductionHypothesis
        (by rw [Option.mapM_some, secondTranslated]; rfl)
      obtain ⟨other, otherExtracted, same⟩ := extract_translated left firstTranslated
      obtain ⟨keptExpr, rfl, keptSame⟩ := some_of_mapM keptTranslated
      exact ⟨_, extract_right conjunction otherExtracted extracted,
        translate_joined same keptSame⟩

/-! ## Batches that agree on the columns of a query -/

/-- Two batches of as many rows with the same columns under some names. -/
structure Agree (names : List String) (first second : Batch) : Prop where
  num_rows : first.num_rows = second.num_rows
  column : ∀ name ∈ names, first.column name = second.column name

section Agree

variable {services : Services} {names : List String} {first second : Batch}

theorem compileExpr_agree (agree : Agree names first second) (plan : Plan)
    (among : ∀ name ∈ collectCols plan, name ∈ names) :
    compileExpr services first plan = compileExpr services second plan := by
  induction plan with
  | col name => exact agree.column name (among name (List.mem_singleton_self name))
  | lit value => rw [compileExpr, compileExpr, agree.num_rows]
  | compare op left right leftHypothesis rightHypothesis =>
    rw [compileExpr, compileExpr,
      leftHypothesis fun name member => among name (List.mem_append_left _ member),
      rightHypothesis fun name member => among name (List.mem_append_right _ member)]
  | join op left right leftHypothesis rightHypothesis =>
    rw [compileExpr, compileExpr,
      leftHypothesis fun name member => among name (List.mem_append_left _ member),
      rightHypothesis fun name member => among name (List.mem_append_right _ member)]
  | not operand inductionHypothesis =>
    rw [compileExpr, compileExpr, inductionHypothesis among]
  | py_binary function left right leftHypothesis rightHypothesis =>
    rw [compileExpr, compileExpr,
      leftHypothesis fun name member => among name (List.mem_append_left _ member),
      rightHypothesis fun name member => among name (List.mem_append_right _ member)]

/-- A column of a filtered batch is the filtered column. -/
theorem column_filter {batch filtered : Batch} {mask : Column}
    (passed : batch.filter mask = .ok filtered) (name : String) :
    filtered.column name = (batch.column name).map fun column =>
      { type := column.type, values := keepTrue mask.values column.values } := by
  rw [Batch.filter] at passed
  split_ifs at passed
  cases passed
  rw [Batch.column, Batch.column, List.filter_map]
  have same : ((fun column : String × Column => decide (column.1 = name)) ∘
      fun entry : String × Column => (entry.1,
        ({ type := entry.2.type, values := keepTrue mask.values entry.2.values } : Column))) =
          fun column => decide (column.1 = name) := rfl
  rw [same]
  generalize (batch.columns.filter fun column => decide (column.1 = name)) = named
  rcases named with _ | ⟨found, _ | ⟨other, rest⟩⟩
  · rfl
  · rfl
  · rfl

theorem filter_agree (agree : Agree names first second) (mask : Column) :
    (∃ raised, first.filter mask = .error raised ∧ second.filter mask = .error raised) ∨
      ∃ kept keptToo, first.filter mask = .ok kept ∧ second.filter mask = .ok keptToo ∧
        Agree names kept keptToo := by
  by_cases boolean : mask.type = .bool
  · have passes : ∀ batch : Batch, ∃ kept, batch.filter mask = .ok kept ∧ kept.num_rows =
        (mask.values.filter fun value => value = .bool true).length := by
      intro batch
      rw [Batch.filter, if_pos boolean]
      exact ⟨_, rfl, rfl⟩
    obtain ⟨kept, passed, rows⟩ := passes first
    obtain ⟨keptToo, passedToo, rowsToo⟩ := passes second
    refine .inr ⟨kept, keptToo, passed, passedToo, rows.trans rowsToo.symm, fun name member => ?_⟩
    rw [column_filter passed name, column_filter passedToo name, agree.column name member]
  · exact .inl ⟨_, by rw [Batch.filter, if_neg boolean], by rw [Batch.filter, if_neg boolean]⟩

/-- A compiled query reads no other columns than it lists. -/
structure Covers (plan : CompiledQuery) : Prop where
  predicate : ∀ predicate, plan.predicate = some predicate →
    ∀ name ∈ collectCols predicate, name ∈ plan.columns
  projections : ∀ projection ∈ plan.projections,
    ∀ name ∈ collectCols projection.1, name ∈ plan.columns

theorem projectBatch_agree {plan : CompiledQuery} (covers : Covers plan)
    (agree : Agree plan.columns first second) :
    projectBatch services plan.projections first = projectBatch services plan.projections second := by
  have columns : (plan.projections.mapM fun projection => do
      return (projection.2, ← compileExpr services first projection.1)) =
        plan.projections.mapM fun projection => do
          return (projection.2, ← compileExpr services second projection.1) := by
    apply mapM_congr
    intro projection member
    rw [compileExpr_agree agree projection.1 (covers.projections projection member)]
  rw [projectBatch, projectBatch, columns, agree.num_rows]

theorem filterBatch_agree {plan : CompiledQuery} (covers : Covers plan)
    (agree : Agree plan.columns first second) :
    (∃ raised, filterBatch services first plan.predicate = .error raised ∧
      filterBatch services second plan.predicate = .error raised) ∨
    (filterBatch services first plan.predicate = .ok none ∧
      filterBatch services second plan.predicate = .ok none) ∨
    ∃ kept keptToo, filterBatch services first plan.predicate = .ok (some kept) ∧
      filterBatch services second plan.predicate = .ok (some keptToo) ∧
        Agree plan.columns kept keptToo := by
  cases filters : plan.predicate with
  | none => exact .inr (.inr ⟨first, second, rfl, rfl, agree⟩)
  | some predicate =>
    rw [filterBatch, filterBatch, compileExpr_agree agree predicate (covers.predicate _ filters)]
    cases compileExpr services second predicate with
    | error raised => exact .inl ⟨raised, rfl, rfl⟩
    | ok mask =>
      rw [ok_bind, ok_bind]
      rcases filter_agree agree mask with ⟨raised, refused, refusedToo⟩ | ⟨kept, keptToo, passed,
        passedToo, agreeKept⟩
      · rw [refused, refusedToo]
        exact .inl ⟨raised, rfl, rfl⟩
      · rw [passed, passedToo, ok_bind, ok_bind, agreeKept.num_rows]
        by_cases empty : keptToo.num_rows = 0
        · rw [if_pos empty, if_pos empty]
          exact .inr (.inl ⟨rfl, rfl⟩)
        · rw [if_neg empty, if_neg empty]
          exact .inr (.inr ⟨kept, keptToo, rfl, rfl, agreeKept⟩)

/-- The operators make the same of two batches that agree on the columns of the query. -/
theorem runBatch_agree {plan : CompiledQuery} (covers : Covers plan)
    (agree : Agree plan.columns first second) :
    runBatch services plan first = runBatch services plan second := by
  rw [runBatch, runBatch]
  rcases filterBatch_agree covers agree with ⟨raised, refused, refusedToo⟩ | ⟨empty, emptyToo⟩ |
    ⟨kept, keptToo, passed, passedToo, agreeKept⟩
  · rw [refused, refusedToo]
  · rw [empty, emptyToo]
  · rw [passed, passedToo]
    show (projectBatch services plan.projections kept >>= fun batch => return some batch) = _
    rw [projectBatch_agree covers agreeKept]
    rfl

end Agree

/-! ## Selected columns -/

/-- A batch has one column under each of some names. -/
def Batch.Has (batch : Batch) (names : List String) : Prop :=
  ∀ name ∈ names, ∃ column, batch.column name = .ok column

/-- What a selection makes of a batch that has the columns. -/
def Batch.picked (batch : Batch) (names : List String) : Batch :=
  { batch with columns := names.map fun name =>
      (name, (batch.column name).toOption.getD { type := .null, values := [] }) }

section Select

variable {batch : Batch} {names : List String}

theorem has_of_select {selected : Batch} (done : batch.select names = .ok selected) :
    batch.Has names := by
  intro name member
  obtain ⟨columns, mapped, _⟩ := except_bind_ok done
  obtain ⟨entry, found⟩ := ok_of_mapM_ok mapped name member
  obtain ⟨column, here, _⟩ := except_bind_ok found
  exact ⟨column, here⟩

theorem select_of_has (has : batch.Has names) : batch.select names = .ok (batch.picked names) := by
  have each : ∀ name ∈ names, (do return (name, ← batch.column name) :
      Except Raised (String × Column)) =
        .ok (name, (batch.column name).toOption.getD { type := .null, values := [] }) := by
    intro name member
    obtain ⟨column, found⟩ := has name member
    rw [found]
    rfl
  rw [Batch.select, mapM_of_ok _ names each]
  rfl

/-- A selected column is the column, if its name was selected once. -/
theorem column_picked {name : String} {column : Column} (found : batch.column name = .ok column)
    (once : (names.filter fun other => other = name) = [name]) (more : List (String × Column))
    (apart : ∀ entry ∈ more, entry.1 ≠ name) (num_rows : Nat) :
    Batch.column { columns := (batch.picked names).columns ++ more, num_rows } name = .ok column := by
  have none_more : (more.filter fun entry => entry.1 = name) = [] := by
    rw [List.filter_eq_nil_iff]
    intro entry member
    rw [decide_eq_true_eq]
    exact apart entry member
  have one : ((batch.picked names).columns.filter fun entry => entry.1 = name) = [(name, column)] := by
    rw [Batch.picked, List.filter_map]
    show (names.filter fun other => other = name).map _ = _
    rw [once, List.map_singleton, found]
    rfl
  simp only [Batch.column, List.filter_append, one, none_more]
  rfl

/-- A column that is found stands once among the names. -/
theorem names_once {name : String} {column : Column} (found : batch.column name = .ok column) :
    (batch.names.filter fun other => other = name) = [name] := by
  have mapped : (batch.names.filter fun other => other = name) =
      (batch.columns.filter fun entry => entry.1 = name).map Prod.fst := by
    rw [Batch.names, List.filter_map]
    rfl
  rw [mapped]
  rw [Batch.column] at found
  cases named : batch.columns.filter fun entry => entry.1 = name with
  | nil =>
    rw [named] at found
    cases found
  | cons entry rest =>
    cases rest with
    | cons other rest =>
      rw [named] at found
      cases found
    | nil =>
      have member : entry ∈ batch.columns.filter fun entry => entry.1 = name := by
        rw [named]
        exact List.mem_singleton_self entry
      have same : entry.1 = name := by simpa using List.of_mem_filter member
      rw [List.map_singleton, same]

theorem filter_foldl_filter {name : String} (rest : List (List String))
    (everywhere : ∀ names ∈ rest, name ∈ names) (first : List String) :
    ((rest.foldl (fun shared names => shared.filter fun name => name ∈ names) first).filter
      fun other => other = name) = first.filter fun other => other = name := by
  induction rest generalizing first with
  | nil => rfl
  | cons names rest inductionHypothesis =>
    rw [List.foldl_cons, inductionHypothesis fun other member =>
      everywhere other (List.mem_cons_of_mem _ member), List.filter_filter]
    apply List.filter_congr
    intro other _
    by_cases same : other = name
    · have inside := everywhere names List.mem_cons_self
      simp [same, inside]
    · simp [same]

/-- Every class has stored batches, all with the columns of the query. -/
def AllHave (columns : List String) (per_class : List (String × List Batch)) : Prop :=
  ∀ entry ∈ per_class, entry.2 ≠ [] ∧ ∀ batch ∈ entry.2, batch.Has columns

/-- The columns of the query are shared, each once. -/
theorem sharedNames_once {columns : List String} {per_class : List (String × List Batch)}
    (have_all : AllHave columns per_class) (some_class : per_class ≠ []) {name : String}
    (member : name ∈ columns) :
    ((sharedNames columns per_class).filter fun other => other = name) = [name] := by
  have firsts : ∀ entry ∈ per_class, (((entry.2.head?.map Batch.names).getD []).filter
      fun other => other = name) = [name] := by
    intro entry among
    obtain ⟨filled, has⟩ := have_all entry among
    obtain ⟨batch, rest, batches⟩ := List.exists_cons_of_ne_nil filled
    obtain ⟨column, found⟩ := has batch (by rw [batches]; exact List.mem_cons_self) name member
    rw [batches]
    exact names_once found
  obtain ⟨entry, rest, classes⟩ := List.exists_cons_of_ne_nil some_class
  have inside : ∀ names ∈ rest.map fun entry => (entry.2.head?.map Batch.names).getD [],
      name ∈ names := by
    intro names among
    obtain ⟨other, further, rfl⟩ := List.mem_map.mp among
    have once := firsts other (by rw [classes]; exact List.mem_cons_of_mem _ further)
    have kept : name ∈ ((other.2.head?.map Batch.names).getD []).filter fun other => other = name := by
      rw [once]
      exact List.mem_singleton_self name
    exact List.mem_of_mem_filter kept
  rw [sharedNames, classes, List.map_cons]
  simp only
  rw [List.filter_filter]
  have both : ∀ other : String, (decide (other = name) && decide (other ∈ columns)) =
      decide (other = name) := by
    intro other
    by_cases same : other = name
    · simp [same, member]
    · simp [same]
  simp only [both]
  rw [filter_foldl_filter _ inside]
  exact firsts entry (by rw [classes]; exact List.mem_cons_self)

theorem sharedNames_among {columns : List String} {per_class : List (String × List Batch)} :
    ∀ name ∈ sharedNames columns per_class, name ∈ columns := by
  intro name member
  rw [sharedNames] at member
  split at member
  · cases member
  · simpa using List.of_mem_filter member

end Select

/-! ## Compiling with and without the demand -/

section Compile

variable {query : NodeQuery} {cls : Definition}

theorem mem_columnsOf {predicate : Option Plan} {projections : List (Plan × String)} {name : String}
    (member : name ∈ (projections.flatMap fun projection => collectCols projection.1) ++
      (predicate.map collectCols).getD []) : name ∈ columnsOf predicate projections := by
  have inside := List.mem_dedup.mpr member
  rw [columnsOf]
  split
  · rename_i none
    rw [none] at inside
    cases inside
  · exact inside

theorem columnsOf_nodup (predicate : Option Plan) (projections : List (Plan × String)) :
    (columnsOf predicate projections).Nodup := by
  rw [columnsOf]
  split
  · exact List.nodup_singleton _
  · exact List.nodup_dedup _

/-- What compiling gives: the class, and columns that cover what is read. -/
theorem compileParts_ok {base : Option String} {rest : Option Expr} {plan : CompiledQuery}
    (compiled : compileParts query cls base rest = .ok plan) :
    plan.cls = cls ∧ plan.closure_base_iri = base ∧ plan.columns.Nodup ∧ Covers plan ∧
      rest.mapM (translate query.aliasName) = .ok plan.predicate := by
  obtain ⟨predicate, translated, compiled⟩ := except_bind_ok compiled
  obtain ⟨projections, _, compiled⟩ := except_bind_ok compiled
  cases compiled
  refine ⟨rfl, rfl, columnsOf_nodup _ _, ⟨?_, ?_⟩, translated⟩
  · intro one filters name member
    refine mem_columnsOf (List.mem_append_right _ ?_)
    show name ∈ (predicate.map collectCols).getD []
    rw [show predicate = some one from filters]
    exact member
  · intro projection among name member
    exact mem_columnsOf (List.mem_append_left _ (List.mem_flatMap.mpr ⟨projection, among, member⟩))

/-- Predicates of one translation compile to one plan, apart from the demand. -/
theorem compileParts_congr {base : Option String} {rest remaining : Option Expr}
    {plan : CompiledQuery} (compiled : compileParts query cls none rest = .ok plan)
    (same : remaining.mapM (translate query.aliasName) = rest.mapM (translate query.aliasName)) :
    compileParts query cls base remaining = .ok { plan with closure_base_iri := base } := by
  obtain ⟨predicate, translated, compiled⟩ := except_bind_ok compiled
  obtain ⟨projections, projected, compiled⟩ := except_bind_ok compiled
  cases compiled
  rw [compileParts, same, translated, ok_bind, projected]
  rfl

/-- The query compiles as the one without the demand. -/
theorem compileQuery_ok {catalog : Catalog} {base : String} (filled : base ≠ "") {tree : Expr}
    {rest : Option Expr} (resolved : resolveClass catalog (expand query.prefixes query.label) = .ok cls)
    (predicate : query.predicate = some tree)
    (stands : Stands query.prefixes query.aliasName base tree rest) {plan : CompiledQuery}
    (compiled : compileParts query cls none rest = .ok plan) :
    compileQuery catalog query = .ok { plan with closure_base_iri := some base } := by
  obtain ⟨_, _, _, _, translated⟩ := compileParts_ok compiled
  obtain ⟨remaining, extracted, same⟩ := extract_stands filled stands translated
  rw [compileQuery, resolved, ok_bind, predicate]
  show (extractSubclassof query.prefixes query.aliasName tree >>= fun parts =>
    compileParts query cls parts.1 parts.2) = _
  rw [extracted, ok_bind]
  exact compileParts_congr compiled (same.trans translated.symm)

end Compile

/-! ## Rows of classes -/

/-- The batches stored under a class. -/
def storedUnder (graph : Graph) (cls : Definition) : List Batch :=
  match graph.stores.get? cls.localName with
  | none => []
  | some store => if store.class_iri = cls.iri then store.batches else []

/-- The rows stored under a class that a query without the demand gives. -/
def rowsOf (services : Services) (graph : Graph) (plan : CompiledQuery) (cls : Definition) :
    Except Raised (List (List (Option Value))) := do
  let batches ← (storedUnder graph cls).mapM fun batch => batch.select plan.columns
  return (← runPipeline services plan batches).flatMap Batch.rows

/-- The rows that the operators make of a batch. -/
def batchRows (services : Services) (plan : CompiledQuery) (batch : Batch) :
    List (List (Option Value)) :=
  match runBatch services plan batch with
  | .ok (some answer) => answer.rows
  | _ => []

section Rows

variable {services : Services} {graph : Graph} {plan : CompiledQuery}

/-- No batch raises. -/
def Runs (services : Services) (plan : CompiledQuery) (batches : List Batch) : Prop :=
  ∀ batch ∈ batches, ∃ answer, runBatch services plan batch = .ok answer

theorem pipeline_rows {batches : List Batch} (runs : Runs services plan batches) :
    ∃ answer, runPipeline services plan batches = .ok answer ∧
      answer.flatMap Batch.rows = batches.flatMap (batchRows services plan) := by
  induction batches with
  | nil => exact ⟨[], rfl, rfl⟩
  | cons batch batches inductionHypothesis =>
    obtain ⟨first, ran⟩ := runs batch List.mem_cons_self
    obtain ⟨answer, done, rows⟩ := inductionHypothesis fun other member =>
      runs other (List.mem_cons_of_mem _ member)
    obtain ⟨answers, mapped, same⟩ := except_bind_ok done
    cases same
    have here : batchRows services plan batch = (first.map Batch.rows).getD [] := by
      rw [batchRows, ran]
      cases first <;> rfl
    refine ⟨(first :: answers).filterMap id, ?_, ?_⟩
    · rw [runPipeline, List.mapM_cons, ran, ok_bind, mapped]
      rfl
    · rw [List.flatMap_cons, here, ← rows]
      cases first with
      | none => rfl
      | some batch => rfl

theorem runs_of_pipeline {batches answer : List Batch}
    (done : runPipeline services plan batches = .ok answer) : Runs services plan batches := by
  obtain ⟨answers, mapped, _⟩ := except_bind_ok done
  exact ok_of_mapM_ok mapped

/-- What the rows of a class are, if nothing raises. -/
theorem rowsOf_ok {cls : Definition} {rows : List (List (Option Value))}
    (done : rowsOf services graph plan cls = .ok rows) :
    (∀ batch ∈ storedUnder graph cls, batch.Has plan.columns ∧
      ∃ answer, runBatch services plan (batch.picked plan.columns) = .ok answer) ∧
    rows = (storedUnder graph cls).flatMap fun batch =>
      batchRows services plan (batch.picked plan.columns) := by
  obtain ⟨batches, selected, done⟩ := except_bind_ok done
  obtain ⟨answer, ran, done⟩ := except_bind_ok done
  cases done
  have has : ∀ batch ∈ storedUnder graph cls, batch.Has plan.columns := by
    intro batch member
    obtain ⟨one, found⟩ := ok_of_mapM_ok selected batch member
    exact has_of_select found
  have picked : batches = (storedUnder graph cls).map fun batch => batch.picked plan.columns := by
    rw [mapM_of_ok (fun batch => Batch.picked batch plan.columns) _ fun batch member =>
      select_of_has (has batch member)] at selected
    exact (Except.ok.inj selected).symm
  have runs := runs_of_pipeline ran
  rw [picked] at runs ran
  obtain ⟨again, ranAgain, rows⟩ := pipeline_rows runs
  rw [ran] at ranAgain
  cases ranAgain
  refine ⟨fun batch member => ⟨has batch member, runs _ (List.mem_map_of_mem member)⟩, ?_⟩
  rw [rows, List.flatMap_map]

end Rows

/-! ## The scan -/

/-- The store that the local part of a class's IRI names is the one of the class. -/
def FoundByIri (graph : Graph) (cls : Definition) : Prop :=
  ∃ opened, openNodeStore graph cls.iri (localOf cls.iri) = .ok opened ∧
    (opened.map Stored.batches).getD [] = storedUnder graph cls

/-- The batches stored under the class with an IRI. -/
def storedAt (graph : Graph) (iri : String) : List Batch :=
  ((graph.catalog.classes.items.find? fun cls => cls.iri = iri).map (storedUnder graph)).getD []

/-- A batch as the scan gives it. -/
def closureBatch (shared : List String) (iri : String) (batch : Batch) : Batch where
  columns := (batch.picked shared).columns ++ [("class_iri", classColumn iri batch.num_rows)]
  num_rows := batch.num_rows

section Scan

variable {services : Services} {graph : Graph} {plan : CompiledQuery}

/-- The classes with stored batches. -/
def filledClasses (graph : Graph) (iris : List String) : List (String × List Batch) :=
  (iris.map fun iri => if storedAt graph iri = [] then none
    else some (iri, storedAt graph iri)).filterMap id

theorem perClassBatches_ok {iris : List String}
    (found : ∀ iri ∈ iris, ∃ opened, openNodeStore graph iri (localOf iri) = .ok opened ∧
      (opened.map Stored.batches).getD [] = storedAt graph iri) :
    perClassBatches graph iris = .ok (filledClasses graph iris) := by
  have each : ∀ iri ∈ iris, classBatches graph iri =
      .ok (if storedAt graph iri = [] then none else some (iri, storedAt graph iri)) := by
    intro iri member
    obtain ⟨opened, ok, batches⟩ := found iri member
    rw [classBatches, ok, ← batches]
    cases opened with
    | none => rfl
    | some store => rfl
  rw [perClassBatches, mapM_of_ok _ iris each]
  rfl

theorem mem_filledClasses {iris : List String} {entry : String × List Batch}
    (member : entry ∈ filledClasses graph iris) :
    entry.1 ∈ iris ∧ entry.2 = storedAt graph entry.1 ∧ entry.2 ≠ [] := by
  obtain ⟨one, mapped, same⟩ := List.mem_filterMap.mp member
  obtain ⟨iri, among, rfl⟩ := List.mem_map.mp mapped
  by_cases empty : storedAt graph iri = []
  · rw [if_pos empty] at same
    cases same
  · rw [if_neg empty] at same
    cases same
    exact ⟨among, rfl, empty⟩

/-- The batches of the classes that have some are the batches of all. -/
theorem flatMap_filledClasses (rows : String → Batch → List (List (Option Value)))
    (iris : List String) :
    ((filledClasses graph iris).flatMap fun entry => entry.2.flatMap (rows entry.1)) =
      iris.flatMap fun iri => (storedAt graph iri).flatMap (rows iri) := by
  induction iris with
  | nil => rfl
  | cons iri iris inductionHypothesis =>
    rw [List.flatMap_cons, ← inductionHypothesis, filledClasses, List.map_cons]
    by_cases empty : storedAt graph iri = []
    · rw [if_pos empty, empty]
      rfl
    · rw [if_neg empty]
      rfl

/-- A scanned batch agrees with the one that the columns are selected from. -/
theorem closureBatch_agree {shared : List String} {iri : String} {batch : Batch}
    (has : batch.Has plan.columns) (distinct : plan.columns.Nodup)
    (apart : "class_iri" ∉ plan.columns)
    (once : ∀ name ∈ plan.columns, (shared.filter fun other => other = name) = [name]) :
    Agree plan.columns (closureBatch shared iri batch) (batch.picked plan.columns) := by
  refine ⟨rfl, fun name member => ?_⟩
  obtain ⟨column, found⟩ := has name member
  have others : ∀ entry ∈ [("class_iri", classColumn iri batch.num_rows)], entry.1 ≠ name := by
    intro entry among same
    rw [List.mem_singleton.mp among] at same
    have isClass : "class_iri" = name := same
    exact apart (isClass ▸ member)
  have single : (plan.columns.filter fun other => other = name) = [name] := by
    have counted := List.filter_beq (l := plan.columns) name
    rw [List.count_eq_one_of_mem distinct member] at counted
    exact counted
  have first := column_picked found (once name member) _ others batch.num_rows
  have second := column_picked found single [] (fun _ impossible => absurd impossible
    List.not_mem_nil) batch.num_rows
  rw [List.append_nil] at second
  exact first.trans second.symm

/-- A scan below a class, and the operators on it. -/
theorem closure_rows {closure : ClassClosureIndex} {base_iri : String} {iris : List String}
    (listed : closure.descendantIris base_iri = .ok iris)
    (found : ∀ iri ∈ iris, ∃ opened, openNodeStore graph iri (localOf iri) = .ok opened ∧
      (opened.map Stored.batches).getD [] = storedAt graph iri)
    (covers : Covers plan) (distinct : plan.columns.Nodup) (apart : "class_iri" ∉ plan.columns)
    (ready : ∀ iri ∈ iris, ∀ batch ∈ storedAt graph iri, batch.Has plan.columns ∧
      ∃ answer, runBatch services plan (batch.picked plan.columns) = .ok answer) :
    ∃ answer, (closureScan graph closure base_iri plan.columns >>= runPipeline services plan) =
        .ok answer ∧
      answer.flatMap Batch.rows = iris.flatMap fun iri => (storedAt graph iri).flatMap fun batch =>
        batchRows services plan (batch.picked plan.columns) := by
  let per_class := filledClasses graph iris
  let shared := sharedNames plan.columns per_class
  let pairs := per_class.flatMap fun entry => entry.2.map fun batch => (entry.1, batch)
  have mem_pairs : ∀ pair ∈ pairs, pair.1 ∈ iris ∧ pair.2 ∈ storedAt graph pair.1 := by
    intro pair member
    obtain ⟨entry, among, inside⟩ := List.mem_flatMap.mp member
    obtain ⟨batch, stored, rfl⟩ := List.mem_map.mp inside
    obtain ⟨listedIri, same, _⟩ := mem_filledClasses among
    exact ⟨listedIri, same ▸ stored⟩
  have have_all : AllHave plan.columns per_class := by
    intro entry member
    obtain ⟨listedIri, same, filled⟩ := mem_filledClasses member
    exact ⟨filled, fun batch stored => (ready entry.1 listedIri batch (same ▸ stored)).1⟩
  have once : ∀ pair ∈ pairs, ∀ name ∈ plan.columns,
      (shared.filter fun other => other = name) = [name] := by
    intro pair member name among
    obtain ⟨entry, inside, _⟩ := List.mem_flatMap.mp member
    exact sharedNames_once have_all (List.ne_nil_of_mem inside) among
  have scanned : closureScan graph closure base_iri plan.columns =
      .ok (pairs.map fun pair => closureBatch shared pair.1 pair.2) := by
    rw [closureScan, listed, ok_bind, perClassBatches_ok found, ok_bind]
    refine mapM_of_ok (fun pair : String × Batch => closureBatch shared pair.1 pair.2) pairs ?_
    intro pair member
    obtain ⟨listedIri, stored⟩ := mem_pairs pair member
    have has : pair.2.Has shared := fun name among =>
      (ready pair.1 listedIri pair.2 stored).1 name (sharedNames_among name among)
    show (pair.2.select shared >>= fun projected => _) = _
    rw [select_of_has has]
    rfl
  have same : ∀ pair ∈ pairs, runBatch services plan (closureBatch shared pair.1 pair.2) =
      runBatch services plan (pair.2.picked plan.columns) := by
    intro pair member
    obtain ⟨listedIri, stored⟩ := mem_pairs pair member
    exact runBatch_agree covers (closureBatch_agree (ready pair.1 listedIri pair.2 stored).1 distinct
      apart (once pair member))
  have runs : Runs services plan (pairs.map fun pair => closureBatch shared pair.1 pair.2) := by
    intro batch member
    obtain ⟨pair, among, rfl⟩ := List.mem_map.mp member
    obtain ⟨listedIri, stored⟩ := mem_pairs pair among
    obtain ⟨answer, ran⟩ := (ready pair.1 listedIri pair.2 stored).2
    exact ⟨answer, (same pair among).trans ran⟩
  obtain ⟨answer, done, rows⟩ := pipeline_rows runs
  refine ⟨answer, by rw [scanned, ok_bind, done], ?_⟩
  rw [rows, List.flatMap_map, ← flatMap_filledClasses fun _ batch =>
    batchRows services plan (batch.picked plan.columns)]
  have each : ∀ pair ∈ pairs, batchRows services plan (closureBatch shared pair.1 pair.2) =
      batchRows services plan (pair.2.picked plan.columns) := by
    intro pair member
    rw [batchRows, batchRows, same pair member]
  rw [List.flatMap_congr each, List.flatMap_assoc]
  simp only [List.flatMap_map]
  rfl

end Scan

/-! ## The answer -/

/-- The classes that descend from both classes of a query. -/
structure Enumerates (items : List Definition) (cls base : Definition) (classes : List Definition) :
    Prop where
  distinct : classes.Nodup
  members : ∀ one, one ∈ classes ↔
    one ∈ items ∧ Descends items one.iri cls.iri ∧ Descends items one.iri base.iri

/-- A query for the nodes of a class that demands another class, and the rest of its predicate. -/
structure Demands (graph : Graph) (query : NodeQuery) (cls base : Definition) (rest : Option Expr) :
    Prop where
  resolved : resolveClass graph.catalog (expand query.prefixes query.label) = .ok cls
  known : base ∈ graph.catalog.classes.items
  stands : ∃ tree, query.predicate = some tree ∧
    Stands query.prefixes query.aliasName base.iri tree rest

/-- The answer has exactly the rows stored under the classes that descend from both, those that the
rest of the predicate keeps. -/
def Exact (services : Services) (graph : Graph) (query : NodeQuery) (cls base : Definition)
    (rest : Option Expr) : Prop :=
  ∀ plan, compileParts query cls none rest = .ok plan →
    ∀ classes, Enumerates graph.catalog.classes.items cls base classes →
      ∀ rows, classes.mapM (rowsOf services graph plan) = .ok rows →
        ∃ answer, sql services graph query = .ok answer ∧
          (answer.flatMap Batch.rows).Perm rows.flatten

/-- No row stored under a class that descends from both passes the rest of the predicate. -/
def NoneShared (services : Services) (graph : Graph) (query : NodeQuery) (cls base : Definition)
    (rest : Option Expr) : Prop :=
  ∀ plan, compileParts query cls none rest = .ok plan →
    ∀ classes, Enumerates graph.catalog.classes.items cls base classes →
      ∀ rows, classes.mapM (rowsOf services graph plan) = .ok rows → rows.flatten = []

/-- A catalog whose classes and properties form hierarchies without cycles. -/
structure AcyclicCatalog (catalog : Catalog) : Prop where
  classes : Ontology catalog.classes.items
  properties : Ontology catalog.properties.items

/-- The stores below a class are found under the local parts of the IRIs, the demanded IRI is not
empty, and the query does not read a column of the name that the scan adds. -/
structure Readable (graph : Graph) (query : NodeQuery) (cls base : Definition) (rest : Option Expr) :
    Prop where
  found : ∀ one ∈ graph.catalog.classes.items,
    Descends graph.catalog.classes.items one.iri cls.iri → FoundByIri graph one
  filled : base.iri ≠ ""
  apart : ∀ plan, compileParts query cls none rest = .ok plan → "class_iri" ∉ plan.columns

section Answer

variable {services : Services} {graph : Graph} {query : NodeQuery} {cls base : Definition}
  {rest : Option Expr} {plan : CompiledQuery}

theorem resolveClass_mem {catalog : Catalog} {text : String}
    (resolved : resolveClass catalog text = .ok cls) : cls ∈ catalog.classes.items := by
  rw [resolveClass] at resolved
  cases first : catalog.classes.by_iri text with
  | some found =>
    rw [first] at resolved
    cases resolved
    exact List.mem_of_find?_eq_some first
  | none =>
    rw [first, Option.none_or] at resolved
    cases second : catalog.classes.by_name text with
    | none =>
      rw [second] at resolved
      cases resolved
    | some found =>
      rw [second] at resolved
      cases resolved
      exact List.mem_of_find?_eq_some second

theorem storedAt_of_mem (distinct : (graph.catalog.classes.items.map Definition.iri).Nodup)
    (known : cls ∈ graph.catalog.classes.items) : storedAt graph cls.iri = storedUnder graph cls := by
  rw [storedAt, find_of_mem_iri distinct known]
  rfl

/-- The run of the query comes down to the test of the two classes. -/
theorem sql_eq (acyclic : AcyclicCatalog graph.catalog) (demands : Demands graph query cls base rest)
    (filled : base.iri ≠ "") (compiled : compileParts query cls none rest = .ok plan)
    {answer : Bool} (decided : (closureOf graph.catalog.classes.items).isSubclass cls.iri base.iri =
      .ok answer) :
    sql services graph query =
      if answer then closureScan graph (closureOf graph.catalog.classes.items) cls.iri plan.columns >>=
        runPipeline services plan
      else .ok [] := by
  obtain ⟨tree, predicate, stands⟩ := demands.stands
  have isClass := (compileParts_ok compiled).1
  rw [sql, compileQuery_ok filled demands.resolved predicate stands compiled, ok_bind, runQuery]
  show (fromCatalog graph.catalog >>= fun closure =>
    closure.isSubclass plan.cls.iri base.iri >>= fun answer => if answer then _ else _) = _
  rw [fromCatalog_ok acyclic.classes acyclic.properties, ok_bind, isClass, decided, ok_bind]
  rfl

/-- Without descent between the classes of the query the answer is empty. -/
theorem sql_unrelated (acyclic : AcyclicCatalog graph.catalog)
    (demands : Demands graph query cls base rest) (filled : base.iri ≠ "")
    (compiled : compileParts query cls none rest = .ok plan)
    (unrelated : ¬ Descends graph.catalog.classes.items cls.iri base.iri) :
    sql services graph query = .ok [] := by
  obtain ⟨answer, decided, iff⟩ := isSubclass_ok acyclic.classes graph.catalog.classes.numbered
    (resolveClass_mem demands.resolved) demands.known
  rw [sql_eq acyclic demands filled compiled decided, if_neg (fun holds => unrelated (iff.mp holds))]

/-- The classes below the first class are those that descend from both, if it descends from the
other. -/
theorem iris_perm (acyclic : AcyclicCatalog graph.catalog)
    (descends : Descends graph.catalog.classes.items cls.iri base.iri) {classes : List Definition}
    (enumerates : Enumerates graph.catalog.classes.items cls base classes) {iris : List String}
    (distinct : iris.Nodup) (members : ∀ iri, iri ∈ iris ↔
      iri ∈ graph.catalog.classes.items.map Definition.iri ∧
        Descends graph.catalog.classes.items iri cls.iri) :
    iris.Perm (classes.map Definition.iri) := by
  have distinctIris : (classes.map Definition.iri).Nodup := by
    refine List.Nodup.map_on ?_ enumerates.distinct
    intro one member other memberToo same
    exact List.inj_on_of_nodup_map acyclic.classes.distinct ((enumerates.members one).mp member).1
      ((enumerates.members other).mp memberToo).1 same
  rw [List.perm_ext_iff_of_nodup distinct distinctIris]
  intro iri
  rw [members]
  constructor
  · rintro ⟨defined, below⟩
    obtain ⟨one, known, rfl⟩ := List.mem_map.mp defined
    exact List.mem_map_of_mem ((enumerates.members one).mpr ⟨known, below, below.trans descends⟩)
  · intro inside
    obtain ⟨one, member, rfl⟩ := List.mem_map.mp inside
    obtain ⟨known, below, _⟩ := (enumerates.members one).mp member
    exact ⟨List.mem_map_of_mem known, below⟩

/-- With descent the answer has the rows of all classes that descend from both. -/
theorem sql_related (acyclic : AcyclicCatalog graph.catalog)
    (demands : Demands graph query cls base rest) (readable : Readable graph query cls base rest)
    (descends : Descends graph.catalog.classes.items cls.iri base.iri) :
    Exact services graph query cls base rest := by
  intro plan compiled classes enumerates rows done
  have known := resolveClass_mem demands.resolved
  obtain ⟨answer, decided, iff⟩ := isSubclass_ok acyclic.classes graph.catalog.classes.numbered known
    demands.known
  obtain ⟨iris, listed, distinct, members⟩ := descendantIris_ok acyclic.classes
    graph.catalog.classes.numbered known
  obtain ⟨_, _, columnsDistinct, covers, _⟩ := compileParts_ok compiled
  have perm := iris_perm acyclic descends enumerates distinct members
  have classOf : ∀ iri ∈ iris, ∃ one ∈ classes, one.iri = iri ∧
      storedAt graph iri = storedUnder graph one := by
    intro iri member
    obtain ⟨one, among, rfl⟩ := List.mem_map.mp (perm.mem_iff.mp member)
    exact ⟨one, among, rfl, storedAt_of_mem acyclic.classes.distinct
      ((enumerates.members one).mp among).1⟩
  have found : ∀ iri ∈ iris, ∃ opened, openNodeStore graph iri (localOf iri) = .ok opened ∧
      (opened.map Stored.batches).getD [] = storedAt graph iri := by
    intro iri member
    obtain ⟨one, among, rfl, stored⟩ := classOf iri member
    obtain ⟨inItems, below, _⟩ := (enumerates.members one).mp among
    rw [stored]
    exact readable.found one inItems below
  have each := ok_of_mapM_ok done
  have ready : ∀ iri ∈ iris, ∀ batch ∈ storedAt graph iri, batch.Has plan.columns ∧
      ∃ answer, runBatch services plan (batch.picked plan.columns) = .ok answer := by
    intro iri member batch stored
    obtain ⟨one, among, rfl, same⟩ := classOf iri member
    obtain ⟨_, ran⟩ := each one among
    exact (rowsOf_ok ran).1 batch (same ▸ stored)
  obtain ⟨result, ran, resultRows⟩ := closure_rows listed found covers columnsDistinct
    (readable.apart plan compiled) ready
  refine ⟨result, ?_, ?_⟩
  · rw [sql_eq acyclic demands readable.filled compiled decided, if_pos (iff.mpr descends)]
    exact ran
  · have rowsEq : rows = classes.map fun one => (storedAt graph one.iri).flatMap fun batch =>
        batchRows services plan (batch.picked plan.columns) := by
      have plain : ∀ one ∈ classes, rowsOf services graph plan one =
          .ok ((storedAt graph one.iri).flatMap fun batch =>
            batchRows services plan (batch.picked plan.columns)) := by
        intro one among
        obtain ⟨found, ran⟩ := each one among
        rw [ran, (rowsOf_ok ran).2, storedAt_of_mem acyclic.classes.distinct
          ((enumerates.members one).mp among).1]
      rw [mapM_of_ok _ classes plain] at done
      exact (Except.ok.inj done).symm
    rw [resultRows, rowsEq, ← List.flatMap_def]
    have moved := perm.flatMap_right fun iri => (storedAt graph iri).flatMap fun batch =>
      batchRows services plan (batch.picked plan.columns)
    rw [List.flatMap_map] at moved
    exact moved

/-- A query that demands another class answers with the rows of all classes that descend from both
exactly when its own class descends from the demanded one, or when those classes have no such row. -/
theorem hierarchy_match_exact (acyclic : AcyclicCatalog graph.catalog)
    (demands : Demands graph query cls base rest) (readable : Readable graph query cls base rest) :
    Exact services graph query cls base rest ↔
      Descends graph.catalog.classes.items cls.iri base.iri ∨
        NoneShared services graph query cls base rest := by
  constructor
  · intro exactAnswer
    by_cases descends : Descends graph.catalog.classes.items cls.iri base.iri
    · exact .inl descends
    · refine .inr fun plan compiled classes enumerates rows done => ?_
      obtain ⟨answer, ran, perm⟩ := exactAnswer plan compiled classes enumerates rows done
      rw [sql_unrelated acyclic demands readable.filled compiled descends] at ran
      cases ran
      exact perm.nil_eq.symm
  · rintro (descends | none_shared)
    · exact sql_related acyclic demands readable descends
    · by_cases descends : Descends graph.catalog.classes.items cls.iri base.iri
      · exact sql_related acyclic demands readable descends
      · intro plan compiled classes enumerates rows done
        refine ⟨[], sql_unrelated acyclic demands readable.filled compiled descends, ?_⟩
        rw [none_shared plan compiled classes enumerates rows done]
        exact List.Perm.refl _

end Answer

/-! ## Genes -/

def gene : Definition where
  id := 1
  iri := "http://example.org/Gene"
  local_name := some "Gene"

def proteinCodingGene : Definition where
  id := 2
  iri := "http://example.org/ProteinCodingGene"
  local_name := some "ProteinCodingGene"
  superclass_iris := ["http://example.org/Gene"]

def tp53 : Batch where
  columns := [("symbol", { type := .string, values := [.str "TP53"] })]
  num_rows := 1

/-- One protein coding gene is stored. -/
def genes : Graph where
  catalog := { classes := { items := [gene, proteinCodingGene], numbered := by decide } }
  stores :=
    { entries := [("ProteinCodingGene",
        { class_iri := proteinCodingGene.iri, batches := [tp53] })]
      distinct := List.nodup_singleton _ }

/-- `MATCH (g:Class) WHERE g.class SUBCLASSOF* <Base> RETURN g.symbol` -/
def geneQuery (cls base : Definition) : NodeQuery where
  prefixes := []
  label := .iri cls.iri
  alias_name := some "g"
  predicate := some (.binOp "SUBCLASSOF*" (.path (some "g") ["class"]) (.iri base.iri))
  projection := (.path (some "g") ["symbol"], none)
  more := []

def plainServices : Services where
  kernels := Kernels.plain
  vector _ _ _ := .error (unsupported "no vectors")

theorem gene_parents {iri parent : String}
    (among : parent ∈ parentsOf genes.catalog.classes.items iri) :
    iri = proteinCodingGene.iri ∧ parent = gene.iri := by
  have defined := defined_of_parent among
  have cases : iri = gene.iri ∨ iri = proteinCodingGene.iri := by
    simpa [genes] using defined
  rcases cases with rfl | rfl
  · have none : parentsOf genes.catalog.classes.items gene.iri = [] := by decide
    rw [none] at among
    cases among
  · have one : parentsOf genes.catalog.classes.items proteinCodingGene.iri = [gene.iri] := by decide
    rw [one] at among
    exact ⟨rfl, List.mem_singleton.mp among⟩

theorem genes_acyclic : AcyclicCatalog genes.catalog where
  classes :=
    { distinct := by decide
      known := by decide
      acyclic := Digraph.acyclic_of_rank (fun iri => if iri = gene.iri then 0 else 1) fun iri parent
          among => by
        obtain ⟨rfl, rfl⟩ := gene_parents among
        decide }
  properties :=
    { distinct := List.nodup_nil
      known := fun _ impossible => absurd impossible List.not_mem_nil
      acyclic := Digraph.acyclic_of_rank (fun _ => 0) fun _ _ impossible =>
        absurd impossible List.not_mem_nil }

theorem gene_demands (cls base : Definition) (isClass : cls ∈ genes.catalog.classes.items)
    (isBase : base ∈ genes.catalog.classes.items) :
    Demands genes (geneQuery cls base) cls base none where
  resolved := by
    simp only [genes, List.mem_cons, List.not_mem_nil, or_false] at isClass
    rcases isClass with rfl | rfl
    · rfl
    · rfl
  known := isBase
  stands := ⟨_, rfl, .iri⟩

/-- Protein coding genes are genes. -/
theorem genes_answered : Exact plainServices genes (geneQuery proteinCodingGene gene)
    proteinCodingGene gene none := by
  have descends : Descends genes.catalog.classes.items proteinCodingGene.iri gene.iri :=
    ReflTransGen.single (by decide)
  refine (hierarchy_match_exact genes_acyclic (gene_demands _ _ (by decide) (by decide))
    ⟨?_, by decide, ?_⟩).mpr (.inl descends)
  · intro one known _
    simp only [genes, List.mem_cons, List.not_mem_nil, or_false] at known
    rcases known with rfl | rfl
    · exact ⟨_, rfl, rfl⟩
    · exact ⟨_, rfl, rfl⟩
  · intro plan compiled
    cases compiled
    decide

/-- Genes that code proteins are asked for below the class of all genes, and none is found. -/
theorem subclass_demand_answers_nothing : ¬ ∀ (services : Services) (graph : Graph)
    (query : NodeQuery) (cls base : Definition) (rest : Option Expr), AcyclicCatalog graph.catalog →
      Demands graph query cls base rest → Exact services graph query cls base rest := by
  intro claim
  have unrelated : ¬ Descends genes.catalog.classes.items gene.iri proteinCodingGene.iri := by
    intro descends
    rcases ReflTransGen.cases_head descends with same | ⟨parent, step, _⟩
    · exact absurd same (by decide)
    · exact absurd (gene_parents step).1 (by decide)
  have below : ∀ one, one ∈ [proteinCodingGene] ↔ one ∈ genes.catalog.classes.items ∧
      Descends genes.catalog.classes.items one.iri gene.iri ∧
        Descends genes.catalog.classes.items one.iri proteinCodingGene.iri := by
    intro one
    constructor
    · intro member
      rw [List.mem_singleton.mp member]
      exact ⟨by decide, ReflTransGen.single (by decide), ReflTransGen.refl⟩
    · rintro ⟨known, _, descends⟩
      simp only [genes, List.mem_cons, List.not_mem_nil, or_false] at known
      rcases known with rfl | rfl
      · exact absurd descends unrelated
      · exact List.mem_singleton_self _
  have demands := gene_demands gene proteinCodingGene (by decide) (by decide)
  have exactAnswer := claim plainServices genes (geneQuery gene proteinCodingGene) gene
    proteinCodingGene none genes_acyclic demands
  obtain ⟨answer, ran, perm⟩ := exactAnswer _ rfl [proteinCodingGene]
    ⟨List.nodup_singleton _, below⟩ [[[some (.str "TP53")]]] rfl
  rw [sql_unrelated genes_acyclic demands (by decide) rfl unrelated] at ran
  cases ran
  exact absurd perm.nil_eq (by decide)

end CaracalDB.Hierarchy
