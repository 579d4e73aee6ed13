import CaracalDB.TuftBinder
import CaracalDB.TypeRules

/-!
# Names of the binder and the checker

The checker goes through the same node patterns as the binder, except those of paths
and of utility statements. It resolves their labels with the prefixes at the end of the
program, so it arrives at another class exactly if the prefix of a label is declared
again with another iri. The classes of variables stay from one statement to the next;
they decide the same as the statement alone if no statement reads a property of a
variable that only an earlier statement gave a class.
-/

namespace CaracalDB.Typing

open Tuft (NameRef)

/-! ## The checker, event by event -/

/-- What the checker comes to, in order. -/
inductive Event where
  | node (pattern : NodePattern)
  | expr (value : Expr)
  | condition (value : Expr)

def PatternElem.events : PatternElem → List Event
  | .node pattern => [.node pattern]
  | .rel pattern => pattern.props.elim [] fun props => props.entries.map fun entry => .expr entry.value
  | .path _ => []

def Pattern.events (pattern : Pattern) : List Event := pattern.elements.flatMap PatternElem.events

def Clause.events : Clause → List Event
  | .match_ patterns => patterns.flatMap Pattern.events
  | .where_ predicate => predicate.toList.map .condition
  | .with_ projections condition =>
      projections.map .expr ++ condition.toList.map .condition
  | .return_ projections => projections.map .expr
  | .call _ | .set _ | .other => []

def Query.events (query : Query) : List Event := query.clauses.flatMap Clause.events

def Stmt.events : Stmt → List Event
  | .query asked => asked.elim [] Query.events
  | .dml stmt => stmt.query.elim [] Query.events ++
      (stmt.pattern.toList ++ stmt.patterns).flatMap Pattern.events
  | .ddl _ | .util _ | .tx => []

section Events

variable (text : Casing) (catalog : Onto.Catalog) (prefixes : Dict String String)

/-- The classes of the variables after an event. -/
def Event.assign (classes : Dict String String) : Event → Dict String String
  | .node pattern =>
      match pattern.var, firstResolved pattern.labels prefixes with
      | some name, some class_iri => classes.set name class_iri
      | _, _ => classes
  | .expr _ | .condition _ => classes

/-- What is checked at an event. -/
def Event.check (classes : Dict String String) : Event → Except Raised Unit
  | .node pattern =>
      match firstResolved pattern.labels prefixes, pattern.props with
      | some class_iri, some props => do
          checkRequiredProps catalog class_iri props
          checkPropMap text catalog classes class_iri props
      | _, _ => return ()
  | .expr value => discard (checkExpr text catalog classes value)
  | .condition value => checkCondition text catalog classes value

def checkEvent (classes : Dict String String) (event : Event) :
    Except Raised (Dict String String) := do
  event.check text catalog prefixes (event.assign prefixes classes)
  return event.assign prefixes classes

theorem exprs_events {Item : Type} (value : Item → Expr) (items : List Item)
    (classes : Dict String String) :
    (do items.forM fun item => discard (checkExpr text catalog classes (value item))
        return classes) =
      (items.map fun item => Event.expr (value item)).foldlM (checkEvent text catalog prefixes)
        classes := by
  induction items with
  | nil => rfl
  | cons item items inductionHypothesis =>
    have unfolded : (item :: items).forM
        (fun item => discard (checkExpr text catalog classes (value item))) =
          (do discard (checkExpr text catalog classes (value item))
              items.forM fun item => discard (checkExpr text catalog classes (value item))) := rfl
    rw [unfolded, bind_assoc, List.map_cons, List.foldlM_cons, checkEvent, bind_assoc]
    apply bind_congr
    intro _
    rw [pure_bind]
    exact inductionHypothesis

theorem condition_events (condition : Option Expr) (classes : Dict String String) :
    (do condition.forM (checkCondition text catalog classes)
        return classes) =
      (condition.toList.map Event.condition).foldlM (checkEvent text catalog prefixes)
        classes := by
  cases condition with
  | none => rfl
  | some condition =>
    rw [Option.toList_some, List.map_singleton, List.foldlM_cons]
    exact (bind_pure _).symm

theorem checkElem_events (classes : Dict String String) (elem : PatternElem) :
    checkElem text catalog prefixes classes elem =
      elem.events.foldlM (checkEvent text catalog prefixes) classes := by
  cases elem with
  | node pattern =>
    rw [PatternElem.events, List.foldlM_cons]
    simp only [List.foldlM_nil, bind_pure, checkElem, checkEvent, Event.assign, Event.check]
    cases firstResolved pattern.labels prefixes with
    | none => rfl
    | some class_iri =>
      cases pattern.props with
      | none => rfl
      | some props =>
        cases pattern.var with
        | none => simp only [bind_assoc]
        | some name => simp only [bind_assoc]
  | rel rel =>
    cases rel with
    | mk types props =>
      cases props with
      | none => rfl
      | some props =>
        exact exprs_events text catalog prefixes PropEntry.value props.entries classes
  | path inner => rfl

theorem checkPattern_events (classes : Dict String String) (pattern : Pattern) :
    checkPattern text catalog prefixes classes pattern =
      pattern.events.foldlM (checkEvent text catalog prefixes) classes := by
  exact foldlM_flatMap _ _ _ _ (fun classes elem _ =>
    checkElem_events text catalog prefixes classes elem) classes

theorem checkClause_events (classes : Dict String String) (clause : Clause) :
    checkClause text catalog prefixes classes clause =
      clause.events.foldlM (checkEvent text catalog prefixes) classes := by
  cases clause with
  | match_ patterns =>
    exact foldlM_flatMap _ _ _ _ (fun classes pattern _ =>
      checkPattern_events text catalog prefixes classes pattern) classes
  | where_ predicate =>
    rw [Clause.events, ← condition_events]
    cases predicate <;> rfl
  | with_ projections condition =>
    have first := exprs_events text catalog prefixes id projections classes
    rw [Clause.events, List.foldlM_append]
    simp only [id] at first
    rw [← first, bind_assoc, checkClause]
    apply bind_congr
    intro _
    rw [pure_bind]
    exact condition_events text catalog prefixes condition classes
  | return_ projections => exact exprs_events text catalog prefixes id projections classes
  | call | set | other => rfl

theorem checkQuery_events (classes : Dict String String) (query : Query) :
    checkQuery text catalog prefixes classes query =
      query.events.foldlM (checkEvent text catalog prefixes) classes :=
  foldlM_flatMap _ _ _ _ (fun classes clause _ =>
    checkClause_events text catalog prefixes classes clause) classes

/-- A statement is checked event by event. -/
theorem checkStmt_events (classes : Dict String String) (stmt : Stmt) :
    checkStmt text catalog prefixes classes stmt =
      stmt.events.foldlM (checkEvent text catalog prefixes) classes := by
  cases stmt with
  | query asked =>
    cases asked with
    | none => rfl
    | some query => exact checkQuery_events text catalog prefixes classes query
  | dml stmt =>
    have patterns : ∀ classes, (stmt.pattern.toList ++ stmt.patterns).foldlM
        (checkPattern text catalog prefixes) classes =
          ((stmt.pattern.toList ++ stmt.patterns).flatMap Pattern.events).foldlM
            (checkEvent text catalog prefixes) classes := foldlM_flatMap _ _ _ _
      fun classes pattern _ => checkPattern_events text catalog prefixes classes pattern
    rw [Stmt.events, List.foldlM_append, checkStmt]
    cases stmt with
    | mk asked pattern rest triples =>
      have query : asked.elim (.ok classes) (checkQuery text catalog prefixes classes) =
          (asked.elim [] Query.events).foldlM (checkEvent text catalog prefixes) classes := by
        cases asked with
        | none => rfl
        | some query => exact checkQuery_events text catalog prefixes classes query
      rw [query]
      apply bind_congr
      intro classes
      rw [← patterns]
      cases pattern <;> rfl
  | ddl | util | tx => rfl

end Events

/-! ## What is promised -/

def Event.onNode {Item : Type} (read : NodePattern → Option Item) : Event → Option Item
  | .node pattern => read pattern
  | .expr _ | .condition _ => none

/-- The classes that the checker uses for the labelled node patterns of a statement, in order. -/
def Stmt.usedIris (prefixes : Dict String String) (stmt : Stmt) : List String :=
  stmt.events.filterMap (Event.onNode fun pattern => firstResolved pattern.labels prefixes)

/-- The class to which the binder binds the first label of a node pattern. -/
def boundIri (prefixes : Dict String String) (pattern : NodePattern) : Option String := do
  let label ← pattern.labels.head?
  (resolveName prefixes label).toOption

/-- The classes to which the binder binds the first labels in a statement, in order. -/
def Stmt.boundIris (prefixes : Dict String String) (stmt : Stmt) : List String :=
  stmt.nodes.filterMap fun node => boundIri prefixes node.2

section Agreement

variable (text : Casing) (catalog : Onto.Catalog) (initial : Dict String String) (program : Program)

/-- The checker uses for every labelled node pattern the class to which its label is bound. -/
def SameClasses (prefixes : Dict String String) : Prop :=
  ∀ before stmt after, program = before ++ stmt :: after →
    stmt.usedIris prefixes = stmt.boundIris (prefixesAfter initial (before ++ [stmt]))

/-- The checker accepts the program exactly if it accepts each statement alone, with the prefixes
that are in force at it. -/
def AcceptsEach (prefixes : Dict String String) : Prop :=
  checkTypes text catalog prefixes program = .ok () ↔
    ∀ before stmt after, program = before ++ stmt :: after →
      checkTypes text catalog (prefixesAfter initial (before ++ [stmt])) [stmt] = .ok ()

/-- The prefix of a name. -/
def shortOf : NameRef → Option String
  | .iri _ => none
  | .qname value => some (((splitName value).map Prod.fst).getD "")

/-- The checker sees all labels, and the prefix of each first label has at the end of the program
the iri it has at the statement. -/
structure LabelsKept : Prop where
  seen : ∀ stmt ∈ program, ∀ node ∈ stmt.nodes, node.1 = false → node.2.labels = []
  kept : ∀ before stmt after, program = before ++ stmt :: after → ∀ node ∈ stmt.nodes,
    ∀ label ∈ node.2.labels.head?, ∀ short ∈ shortOf label,
      (prefixesAfter initial program).get? short =
        (prefixesAfter initial (before ++ [stmt])).get? short

/-- The expressions that are checked at an event. -/
def Event.exprs : Event → List Expr
  | .node pattern =>
      if pattern.labels = [] then [] else
        pattern.props.elim [] fun props => props.entries.map PropEntry.value
  | .expr value | .condition value => [value]

/-- The variable that gets a class at an event. -/
def Event.labelled : Event → Option String
  | .node pattern => if pattern.labels = [] then none else pattern.var
  | .expr _ | .condition _ => none

/-- A property is read only of variables that the same statement gave a class before, or that no
earlier statement gave one. -/
def ReadsOwn : Prop :=
  ∀ before stmt after, program = before ++ stmt :: after →
    ∀ earlier event later, stmt.events = earlier ++ event :: later →
      ∀ expr ∈ event.exprs, ∀ root steps, .path (some root) steps ∈ expr.nodes → steps ≠ [] →
        root ∈ (before.flatMap Stmt.events).filterMap Event.labelled →
          root ∈ (earlier ++ [event]).filterMap Event.labelled

end Agreement

/-! ## The same node patterns -/

mutual

theorem elem_unseen (elem : PatternElem) : ∀ node ∈ elem.nodes false, node.1 = false := by
  cases elem with
  | node pattern => simp [PatternElem.nodes]
  | rel pattern => simp [PatternElem.nodes]
  | path inner =>
    rw [PatternElem.nodes]
    exact elems_unseen inner

theorem elems_unseen (elems : List PatternElem) : ∀ node ∈ elemNodes false elems, node.1 = false := by
  cases elems with
  | nil => simp [elemNodes]
  | cons elem elems =>
    rw [elemNodes, List.forall_mem_append]
    exact ⟨elem_unseen elem, elems_unseen elems⟩

end

section Seen

variable {Item : Type} (read : NodePattern → Option Item)

/-- What is read of a node pattern if the checker goes through it. -/
def ifSeen (node : Bool × NodePattern) : Option Item := if node.1 then read node.2 else none

theorem unseen_read {nodes : List (Bool × NodePattern)} (unseen : ∀ node ∈ nodes, node.1 = false) :
    nodes.filterMap (ifSeen read) = [] := by
  apply List.filterMap_eq_nil_iff.mpr
  intro node member
  simp [ifSeen, unseen node member]

theorem elems_seen (elems : List PatternElem) :
    (elems.flatMap PatternElem.events).filterMap (Event.onNode read) =
      (elemNodes true elems).filterMap (ifSeen read) := by
  induction elems with
  | nil => rfl
  | cons elem elems inductionHypothesis =>
    rw [List.flatMap_cons, List.filterMap_append, inductionHypothesis, elemNodes,
      List.filterMap_append]
    congr 1
    cases elem with
    | node pattern => rfl
    | rel pattern =>
      cases held : pattern.props with
      | none => simp [PatternElem.events, PatternElem.nodes, held]
      | some props =>
        have silent : (props.entries.map fun entry => Event.expr entry.value).filterMap
            (Event.onNode read) = [] := by
          rw [List.filterMap_map]
          exact List.filterMap_eq_nil_iff.mpr fun entry _ => rfl
        simpa [PatternElem.events, PatternElem.nodes, held] using silent
    | path inner =>
      rw [PatternElem.nodes, unseen_read read (elems_unseen inner)]
      rfl

theorem patterns_seen (patterns : List Pattern) :
    (patterns.flatMap Pattern.events).filterMap (Event.onNode read) =
      (patterns.flatMap fun pattern => elemNodes true pattern.elements).filterMap
        (ifSeen read) := by
  rw [List.filterMap_flatMap, List.filterMap_flatMap]
  congr 1
  funext pattern
  exact elems_seen read pattern.elements

theorem exprs_silent (exprs : List Expr) :
    (exprs.map Event.expr).filterMap (Event.onNode read) = [] := by
  rw [List.filterMap_map]
  exact List.filterMap_eq_nil_iff.mpr fun entry _ => rfl

theorem condition_silent (condition : Option Expr) :
    (condition.toList.map Event.condition).filterMap (Event.onNode read) = [] := by
  cases condition <;> rfl

theorem clause_seen (clause : Clause) :
    clause.events.filterMap (Event.onNode read) = (clause.nodes true).filterMap (ifSeen read) := by
  cases clause with
  | match_ patterns => exact patterns_seen read patterns
  | where_ predicate => exact condition_silent read predicate
  | with_ projections condition =>
    rw [Clause.events, List.filterMap_append, exprs_silent, condition_silent]
    rfl
  | return_ projections => exact exprs_silent read projections
  | call | set | other => rfl

theorem query_seen (query : Query) :
    query.events.filterMap (Event.onNode read) = (query.nodes true).filterMap (ifSeen read) := by
  rw [Query.events, Query.nodes, List.filterMap_flatMap, List.filterMap_flatMap]
  congr 1
  funext clause
  exact clause_seen read clause

theorem clauses_unseen (clause : Clause) : ∀ node ∈ clause.nodes false, node.1 = false := by
  cases clause with
  | match_ patterns =>
    intro node member
    obtain ⟨pattern, _, among⟩ := List.mem_flatMap.mp member
    exact elems_unseen pattern.elements node among
  | call | set | where_ | with_ | return_ | other => exact nofun

/-- The node patterns of the events are those the checker is said to see. -/
theorem stmt_seen (stmt : Stmt) :
    stmt.events.filterMap (Event.onNode read) = stmt.nodes.filterMap (ifSeen read) := by
  cases stmt with
  | query asked =>
    cases asked with
    | none => rfl
    | some query => exact query_seen read query
  | util asked =>
    cases asked with
    | none => rfl
    | some query =>
      apply Eq.symm
      apply unseen_read
      intro node member
      obtain ⟨clause, _, among⟩ := List.mem_flatMap.mp member
      exact clauses_unseen clause node among
  | dml stmt =>
    rw [Stmt.events, Stmt.nodes, List.filterMap_append, List.filterMap_append, patterns_seen]
    congr 1
    cases stmt.query with
    | none => rfl
    | some query => exact query_seen read query
  | ddl | tx => rfl

end Seen

/-! ## The same classes -/

theorem length_filterMap_le {Item Made : Type} {first second : Item → Option Made}
    {items : List Item} (within : ∀ item ∈ items, (first item).isSome → (second item).isSome) :
    (items.filterMap first).length ≤ (items.filterMap second).length := by
  induction items with
  | nil => exact Nat.le_refl _
  | cons item items inductionHypothesis =>
    have rest := inductionHypothesis fun other member =>
      within other (List.mem_cons_of_mem item member)
    have here := within item List.mem_cons_self
    cases one : first item with
    | none =>
      rw [List.filterMap_cons_none one]
      cases two : second item with
      | none => rwa [List.filterMap_cons_none two]
      | some made =>
        rw [List.filterMap_cons_some two, List.length_cons]
        exact Nat.le_succ_of_le rest
    | some made =>
      rw [one] at here
      obtain ⟨other, two⟩ := Option.isSome_iff_exists.mp (here rfl)
      rw [List.filterMap_cons_some one, List.filterMap_cons_some two, List.length_cons,
        List.length_cons]
      exact Nat.succ_le_succ rest

/-- Two readings of a list, of which one is defined where the other is, yield the same items only
if they agree on every item. -/
theorem filterMap_eq_iff {Item Made : Type} {first second : Item → Option Made}
    {items : List Item} (within : ∀ item ∈ items, (first item).isSome → (second item).isSome) :
    items.filterMap first = items.filterMap second ↔ ∀ item ∈ items, first item = second item := by
  constructor
  swap
  · exact List.filterMap_congr
  induction items with
  | nil => exact fun _ => nofun
  | cons item items inductionHypothesis =>
    intro same
    have further : ∀ other ∈ items, (first other).isSome → (second other).isSome :=
      fun other member => within other (List.mem_cons_of_mem item member)
    have here := within item List.mem_cons_self
    rw [List.forall_mem_cons]
    cases one : first item with
    | none =>
      rw [List.filterMap_cons_none one] at same
      cases two : second item with
      | none =>
        rw [List.filterMap_cons_none two] at same
        exact ⟨rfl, inductionHypothesis further same⟩
      | some made =>
        rw [List.filterMap_cons_some two] at same
        have long := congrArg List.length same
        have short := length_filterMap_le further
        rw [long, List.length_cons] at short
        exact absurd short (Nat.not_succ_le_self _)
    | some made =>
      rw [one] at here
      obtain ⟨other, two⟩ := Option.isSome_iff_exists.mp (here rfl)
      rw [List.filterMap_cons_some one, List.filterMap_cons_some two, List.cons.injEq] at same
      exact ⟨by rw [two, same.1], inductionHypothesis further same.2⟩

theorem get_declared (decls : List PrefixDecl) {prefixes : Dict String String} {short : String}
    (defined : (prefixes.get? short).isSome) :
    ((decls.foldl declare prefixes).get? short).isSome := by
  induction decls generalizing prefixes with
  | nil => exact defined
  | cons decl decls inductionHypothesis =>
    apply inductionHypothesis
    rw [declare, Dict.get_set]
    split
    · rfl
    · exact defined

theorem prefixesAfter_append (prefixes : Dict String String) (before after : List Stmt) :
    prefixesAfter prefixes (before ++ after) =
      prefixesAfter (prefixesAfter prefixes before) after := by
  rw [prefixesAfter, List.flatMap_append, List.foldl_append]
  rfl

/-- The checker finds the class of a label exactly if the prefix of the label is the same. -/
theorem firstResolved_eq_iff {final inForce : Dict String String} {label : NameRef}
    {rest : List NameRef} {iri : String} (resolved : resolveName inForce label = .ok iri)
    (defined : ∀ short, (inForce.get? short).isSome → (final.get? short).isSome) :
    firstResolved (label :: rest) final = some iri ↔
      ∀ short ∈ shortOf label, final.get? short = inForce.get? short := by
  cases label with
  | iri value =>
    cases resolved
    exact ⟨fun _ => nofun, fun _ => rfl⟩
  | qname value =>
    have compared : ∀ short name, (inForce.get? short).elim False (fun own => own ++ name = iri) →
        ((final.get? short).getD "" ++ name = iri ↔
          final.get? short = inForce.get? short) := by
      intro short name own
      cases held : inForce.get? short with
      | none =>
        rw [held] at own
        exact own.elim
      | some mine =>
        rw [held] at own
        obtain ⟨last, ends⟩ := Option.isSome_iff_exists.mp (defined short (by rw [held]; rfl))
        have joined : mine ++ name = iri := own
        rw [ends, ← joined, Option.getD_some, Option.some.injEq]
        exact String.append_left_inj name
    rw [resolveName] at resolved
    rw [firstResolved, shortOf]
    cases parts : splitName value with
    | none =>
      rw [parts] at resolved
      simp only [Option.map_none, Option.getD_none, Option.mem_def, Option.some.injEq,
        forall_eq']
      apply compared
      cases held : inForce.get? "" with
      | none =>
        rw [held] at resolved
        cases resolved
      | some mine =>
        rw [held] at resolved
        exact Except.ok.inj resolved
    | some pair =>
      rw [parts] at resolved
      simp only [Option.map_some, Option.getD_some, Option.mem_def, Option.some.injEq,
        forall_eq']
      apply compared
      dsimp only at resolved
      cases held : inForce.get? pair.1 with
      | none =>
        rw [held] at resolved
        cases resolved
      | some mine =>
        rw [held] at resolved
        exact Except.ok.inj resolved

section Classes

variable {catalog : Onto.Catalog} {initial : Dict String String}

theorem prefixesAfter_single (prefixes : Dict String String) (stmt : Stmt) :
    prefixesAfter prefixes [stmt] = stmt.declared.foldl declare prefixes := by
  rw [prefixesAfter, List.flatMap_singleton]

/-- Statements add their prefixes, and keep the classes that were bound. -/
theorem bound_run (stmts : List Stmt) {before after : Binder}
    (done : stmts.foldlM (bindStmt catalog) before = .ok after) :
    after.prefixes = prefixesAfter before.prefixes stmts ∧
      ∀ name ∈ before.classes, name ∈ after.classes := by
  induction stmts generalizing before with
  | nil =>
    cases done
    exact ⟨rfl, fun name member => member⟩
  | cons stmt stmts inductionHypothesis =>
    rw [List.foldlM_cons] at done
    obtain ⟨middle, first, rest⟩ := except_bind_ok done
    obtain ⟨prefixes, kept⟩ := inductionHypothesis rest
    have binds := bindStmt_binds stmt first
    constructor
    · have split : stmt :: stmts = [stmt] ++ stmts := rfl
      rw [prefixes, binds.prefixes, split, prefixesAfter_append, prefixesAfter_single]
    · exact fun name member => kept name (binds.kept name member)

/-- The labels of a statement of a bound program are resolved with the prefixes in force, and are
among the classes that the program is said to have. -/
theorem labels_resolved {before after : List Stmt} {stmt : Stmt} {bound : Binder}
    (done : bindProgram catalog initial (before ++ stmt :: after) = .ok bound) :
    ∀ label ∈ labelsOf stmt.nodes, ∃ iri,
      resolveName (prefixesAfter initial (before ++ [stmt])) label = .ok iri ∧
        ({ original := label, iri } : BoundName) ∈ bound.classes := by
  rw [bindProgram, List.foldlM_append] at done
  obtain ⟨early, first, done⟩ := except_bind_ok done
  rw [List.foldlM_cons] at done
  obtain ⟨middle, here, rest⟩ := except_bind_ok done
  have binds := bindStmt_binds stmt here
  have inForce : stmt.declared.foldl declare early.prefixes =
      prefixesAfter initial (before ++ [stmt]) := by
    rw [(bound_run before first).1, prefixesAfter_append, prefixesAfter_single]
  intro label member
  obtain ⟨iri, resolved, listed⟩ := binds.bound label member
  exact ⟨iri, inForce ▸ resolved, (bound_run after rest).2 _ listed⟩

/-- The classes of one statement agree exactly if the checker sees its labels and their prefixes
are the same. -/
theorem same_classes_iff {final inForce : Dict String String} {stmt : Stmt}
    (resolved : ∀ label ∈ labelsOf stmt.nodes, ∃ iri, resolveName inForce label = .ok iri)
    (defined : ∀ short, (inForce.get? short).isSome → (final.get? short).isSome) :
    stmt.usedIris final = stmt.boundIris inForce ↔
      ∀ node ∈ stmt.nodes, (node.1 = false → node.2.labels = []) ∧
        ∀ label ∈ node.2.labels.head?, ∀ short ∈ shortOf label,
          final.get? short = inForce.get? short := by
  have first : ∀ node ∈ stmt.nodes, ∀ label rest, node.2.labels = label :: rest →
      ∃ iri, resolveName inForce label = .ok iri ∧ boundIri inForce node.2 = some iri := by
    intro node member label rest labels
    obtain ⟨iri, ok⟩ := resolved label
      (List.mem_flatMap.mpr ⟨node, member, labels ▸ List.mem_cons_self⟩)
    exact ⟨iri, ok, by simp [boundIri, labels, ok, Except.toOption]⟩
  rw [Stmt.usedIris, stmt_seen, Stmt.boundIris, filterMap_eq_iff]
  · apply forall₂_congr
    intro node member
    cases labels : node.2.labels with
    | nil =>
      have unlabelled : boundIri inForce node.2 = none := by simp [boundIri, labels]
      rw [unlabelled]
      simp [ifSeen, labels, firstResolved]
    | cons label rest =>
      obtain ⟨iri, ok, bound⟩ := first node member label rest labels
      rw [bound, ifSeen]
      cases seen : node.1 with
      | false => simp
      | true =>
        rw [if_pos rfl, labels, firstResolved_eq_iff ok defined]
        simp
  · intro node member used
    cases labels : node.2.labels with
    | nil => simp [ifSeen, labels, firstResolved] at used
    | cons label rest =>
      obtain ⟨iri, ok, bound⟩ := first node member label rest labels
      rw [bound]
      rfl

/-- The checker uses the classes of the binder exactly if it sees all labels and none of their
prefixes changes later. -/
theorem classes_iff {program : Program} {bound : Binder}
    (done : bindProgram catalog initial program = .ok bound) :
    SameClasses initial program bound.prefixes ↔ LabelsKept initial program := by
  have final : bound.prefixes = prefixesAfter initial program := (bound_run program done).1
  have defined : ∀ before stmt after, program = before ++ stmt :: after → ∀ short,
      ((prefixesAfter initial (before ++ [stmt])).get? short).isSome →
        ((prefixesAfter initial program).get? short).isSome := by
    rintro before stmt after rfl short known
    have split : before ++ stmt :: after = (before ++ [stmt]) ++ after := by simp
    rw [split, prefixesAfter_append]
    exact get_declared _ known
  have each : ∀ before stmt after, (split : program = before ++ stmt :: after) →
      (stmt.usedIris (prefixesAfter initial program) =
          stmt.boundIris (prefixesAfter initial (before ++ [stmt])) ↔
        ∀ node ∈ stmt.nodes, (node.1 = false → node.2.labels = []) ∧
          ∀ label ∈ node.2.labels.head?, ∀ short ∈ shortOf label,
            (prefixesAfter initial program).get? short =
              (prefixesAfter initial (before ++ [stmt])).get? short) := by
    intro before stmt after split
    apply same_classes_iff
    · intro label member
      rw [split] at done
      obtain ⟨iri, resolved, _⟩ := labels_resolved done label member
      exact ⟨iri, resolved⟩
    · exact defined before stmt after split
  rw [final]
  constructor
  · intro same
    constructor
    · intro stmt member node among
      obtain ⟨before, after, split⟩ := List.append_of_mem member
      exact ((each before stmt after split).mp (same before stmt after split) node among).1
    · intro before stmt after split node among
      exact ((each before stmt after split).mp (same before stmt after split) node among).2
  · intro kept before stmt after split
    apply (each before stmt after split).mpr
    intro node among
    refine ⟨?_, kept.kept before stmt after split node among⟩
    exact kept.seen stmt (split ▸ List.mem_append_right _ List.mem_cons_self) node among

end Classes

/-! ## Statements one by one -/

section Reading

variable (text : Casing) (catalog : Onto.Catalog) {leaked fresh : Dict String String}

/-- Two states know the same class for every variable of which a property is read. -/
def Agree (leaked fresh : Dict String String) (nodes : List Expr) : Prop :=
  ∀ root steps, .path (some root) steps ∈ nodes → steps ≠ [] →
    leaked.get? root = fresh.get? root

theorem Agree.of_subset {leaked fresh : Dict String String} {nodes part : List Expr}
    (agree : Agree leaked fresh nodes) (within : part ⊆ nodes) : Agree leaked fresh part :=
  fun root steps member => agree root steps (within member)

theorem pathType_congr {root : Option String} {steps : List String}
    (same : ∀ name, root = some name → steps ≠ [] → leaked.get? name = fresh.get? name) :
    pathType catalog leaked root steps = pathType catalog fresh root steps := by
  rw [pathType.eq_def, pathType.eq_def]
  cases root with
  | none => rfl
  | some root =>
    cases steps with
    | nil => rfl
    | cons step steps =>
      have known := same root rfl (List.cons_ne_nil step steps)
      dsimp only
      rw [known]

mutual

/-- The type of an expression depends on the classes of the variables it reads. -/
theorem checkExpr_congr (expr : Expr) (agree : Agree leaked fresh expr.nodes) :
    checkExpr text catalog leaked expr = checkExpr text catalog fresh expr := by
  cases expr with
  | binOp op left right =>
    have first := checkOperand_congr left (agree.of_subset fun node member => by
      simp [Expr.nodes, member])
    have second := checkOperand_congr right (agree.of_subset fun node member => by
      simp [Expr.nodes, member])
    rw [checkExpr, checkExpr, first, second]
  | unaryOp op operand =>
    rw [checkExpr, checkExpr, checkOperand_congr operand (agree.of_subset fun node member => by
      simp [Expr.nodes, member])]
  | cast operand type_ref =>
    rw [checkExpr, checkExpr, checkOperand_congr operand (agree.of_subset fun node member => by
      simp [Expr.nodes, member])]
  | list items =>
    rw [checkExpr, checkExpr, checkItems_congr items (agree.of_subset fun node member => by
      simp [Expr.nodes, member])]
  | path root steps =>
    rw [checkExpr, checkExpr, pathType_congr]
    rintro name rfl filled
    exact agree name steps List.mem_cons_self filled
  | literal | var | fnCall | map | subscript | other => rfl

theorem checkOperand_congr (operand : Option Expr)
    (agree : Agree leaked fresh (operandNodes operand)) :
    checkOperand text catalog leaked operand = checkOperand text catalog fresh operand := by
  cases operand with
  | none => rfl
  | some expr => exact checkExpr_congr expr agree

theorem checkItems_congr (items : List Expr) (agree : Agree leaked fresh (itemNodes items)) :
    checkItems text catalog leaked items = checkItems text catalog fresh items := by
  cases items with
  | nil => rfl
  | cons item items =>
    have first := checkExpr_congr item (agree.of_subset fun node member => by
      simp [itemNodes, member])
    have rest := checkItems_congr items (agree.of_subset fun node member => by
      simp [itemNodes, member])
    rw [checkItems, checkItems, first, rest]

end

theorem forM_congr {Item : Type} {first second : Item → Except Raised Unit} {items : List Item}
    (same : ∀ item ∈ items, first item = second item) : items.forM first = items.forM second := by
  induction items with
  | nil => rfl
  | cons item items inductionHypothesis =>
    have here := same item List.mem_cons_self
    have rest := inductionHypothesis fun other member =>
      same other (List.mem_cons_of_mem item member)
    change (first item >>= fun _ => items.forM first) = (second item >>= fun _ => items.forM second)
    rw [here, rest]

theorem checkPropMap_congr (class_iri : String) (props : PropMap)
    (agree : ∀ entry ∈ props.entries, Agree leaked fresh entry.value.nodes) :
    checkPropMap text catalog leaked class_iri props =
      checkPropMap text catalog fresh class_iri props := by
  apply forM_congr
  intro entry member
  rw [checkExpr_congr text catalog entry.value (agree entry member)]

/-- What is checked at an event depends on the classes of the variables that its expressions
read. -/
theorem check_congr (prefixes : Dict String String) (event : Event)
    (agree : ∀ expr ∈ event.exprs, Agree leaked fresh expr.nodes) :
    event.check text catalog prefixes leaked = event.check text catalog prefixes fresh := by
  cases event with
  | node pattern =>
    obtain ⟨var, labels, props⟩ := pattern
    cases labels with
    | nil => rfl
    | cons label rest =>
      cases props with
      | none =>
        simp only [Event.check]
        cases firstResolved (label :: rest) prefixes <;> rfl
      | some props =>
        simp only [Event.check]
        cases firstResolved (label :: rest) prefixes with
        | none => rfl
        | some class_iri =>
          have same := checkPropMap_congr text catalog class_iri props fun entry member =>
            agree entry.value (List.mem_map_of_mem member)
          exact congrArg (checkRequiredProps catalog class_iri props >>= fun _ => ·) same
  | expr value =>
    have same := checkExpr_congr text catalog value (agree value List.mem_cons_self)
    exact congrArg discard same
  | condition value =>
    have same := checkExpr_congr text catalog value (agree value List.mem_cons_self)
    exact congrArg (· >>= requireBool) same

end Reading

theorem firstResolved_cons (label : NameRef) (rest : List NameRef)
    (prefixes : Dict String String) :
    ∃ class_iri, firstResolved (label :: rest) prefixes = some class_iri := by
  cases label with
  | iri value => exact ⟨value, rfl⟩
  | qname value =>
    rw [firstResolved]
    split <;> exact ⟨_, rfl⟩

section Runs

variable (text : Casing) (catalog : Onto.Catalog) (prefixes : Dict String String)

/-- The checker accepts events, from a state on. -/
def Accepts (classes : Dict String String) (events : List Event) : Prop :=
  ∃ final, events.foldlM (checkEvent text catalog prefixes) classes = .ok final

theorem accepts_nil (classes : Dict String String) : Accepts text catalog prefixes classes [] :=
  ⟨classes, rfl⟩

theorem accepts_cons (classes : Dict String String) (event : Event) (events : List Event) :
    Accepts text catalog prefixes classes (event :: events) ↔
      event.check text catalog prefixes (event.assign prefixes classes) = .ok () ∧
        Accepts text catalog prefixes (event.assign prefixes classes) events := by
  rw [Accepts, List.foldlM_cons, checkEvent]
  cases event.check text catalog prefixes (event.assign prefixes classes) with
  | error raised =>
    constructor
    · rintro ⟨final, impossible⟩
      cases impossible
    · rintro ⟨impossible, _⟩
      cases impossible
  | ok _ => exact ⟨fun accepts => ⟨rfl, accepts⟩, And.right⟩

theorem accepts_append (classes : Dict String String) (first second : List Event) :
    Accepts text catalog prefixes classes (first ++ second) ↔
      Accepts text catalog prefixes classes first ∧
        Accepts text catalog prefixes (first.foldl (Event.assign prefixes) classes) second := by
  induction first generalizing classes with
  | nil => exact ⟨fun accepts => ⟨accepts_nil text catalog prefixes classes, accepts⟩, And.right⟩
  | cons event first inductionHypothesis =>
    rw [List.cons_append, accepts_cons, accepts_cons, inductionHypothesis, List.foldl_cons,
      and_assoc]

theorem checkTypes_iff (program : Program) :
    checkTypes text catalog prefixes program = .ok () ↔
      Accepts text catalog prefixes Dict.empty (program.flatMap Stmt.events) := by
  rw [checkTypes, foldlM_flatMap Stmt.events (checkEvent text catalog prefixes) _ program
    fun classes stmt _ => checkStmt_events text catalog prefixes classes stmt, Accepts]
  cases (program.flatMap Stmt.events).foldlM (checkEvent text catalog prefixes) Dict.empty with
  | error raised =>
    constructor
    · intro impossible
      cases impossible
    · rintro ⟨final, impossible⟩
      cases impossible
  | ok final => exact ⟨fun _ => ⟨final, rfl⟩, fun _ => rfl⟩

/-- Events that resolve their labels alike are accepted alike. -/
theorem accepts_congr {prefixes other : Dict String String} {events : List Event}
    (same : ∀ pattern, .node pattern ∈ events →
      firstResolved pattern.labels prefixes = firstResolved pattern.labels other)
    (classes : Dict String String) :
    Accepts text catalog prefixes classes events ↔ Accepts text catalog other classes events := by
  induction events generalizing classes with
  | nil => exact ⟨fun _ => accepts_nil _ _ _ _, fun _ => accepts_nil _ _ _ _⟩
  | cons event events inductionHypothesis =>
    have assigned : event.assign prefixes classes = event.assign other classes := by
      cases event with
      | node pattern => simp only [Event.assign, same pattern List.mem_cons_self]
      | expr | condition => rfl
    have checked : ∀ classes, event.check text catalog prefixes classes =
        event.check text catalog other classes := by
      intro classes
      cases event with
      | node pattern => simp only [Event.check, same pattern List.mem_cons_self]
      | expr | condition => rfl
    rw [accepts_cons, accepts_cons, assigned, checked,
      inductionHypothesis fun pattern member => same pattern (List.mem_cons_of_mem event member)]

/-- A state that knows what another knows, and for other variables what was known before. -/
def Over (leaked fresh leftover : Dict String String) : Prop :=
  ∀ name, leaked.get? name = (fresh.get? name).or (leftover.get? name)

theorem Over.assign {leaked fresh leftover : Dict String String}
    (added : Over leaked fresh leftover) (event : Event) :
    Over (event.assign prefixes leaked) (event.assign prefixes fresh) leftover := by
  cases event with
  | node pattern =>
    simp only [Event.assign]
    split
    · next name class_iri _ _ =>
      intro other
      rw [Dict.get_set, Dict.get_set]
      split
      · rfl
      · exact added other
    · exact added
  | expr | condition => exact added

/-- A variable has a class behind an event if the event labels it or it had one before. -/
theorem assigned_iff (event : Event) (classes : Dict String String) (name : String) :
    ((event.assign prefixes classes).get? name).isSome ↔
      event.labelled = some name ∨ (classes.get? name).isSome := by
  cases event with
  | node pattern =>
    obtain ⟨var, labels, props⟩ := pattern
    cases labels with
    | nil => cases var <;> simp [Event.assign, Event.labelled, firstResolved]
    | cons label rest =>
      obtain ⟨class_iri, resolved⟩ := firstResolved_cons label rest prefixes
      cases var with
      | none => simp [Event.assign, Event.labelled]
      | some var =>
        simp only [Event.assign, resolved, Dict.get_set, Event.labelled]
        by_cases same : name = var
        · simp [same]
        · simp [same, Ne.symm same]
  | expr | condition => simp [Event.assign, Event.labelled]

theorem assigned_run (events : List Event) (classes : Dict String String) (name : String) :
    ((events.foldl (Event.assign prefixes) classes).get? name).isSome ↔
      name ∈ events.filterMap Event.labelled ∨ (classes.get? name).isSome := by
  induction events generalizing classes with
  | nil => simp
  | cons event events inductionHypothesis =>
    rw [List.foldl_cons, inductionHypothesis, assigned_iff, List.mem_filterMap, List.mem_filterMap]
    rw [List.exists_mem_cons_iff, or_left_comm, or_assoc]

/-- Classes that were left over do not matter where only own variables are read. -/
theorem accepts_over {leaked fresh leftover : Dict String String} {events : List Event}
    (added : Over leaked fresh leftover)
    (own : ∀ earlier event later, events = earlier ++ event :: later →
      ∀ expr ∈ event.exprs, ∀ root steps, .path (some root) steps ∈ expr.nodes → steps ≠ [] →
        (leftover.get? root).isSome →
          (((earlier ++ [event]).foldl (Event.assign prefixes) fresh).get? root).isSome) :
    Accepts text catalog prefixes leaked events ↔ Accepts text catalog prefixes fresh events := by
  induction events generalizing leaked fresh with
  | nil => exact ⟨fun _ => accepts_nil _ _ _ _, fun _ => accepts_nil _ _ _ _⟩
  | cons event events inductionHypothesis =>
    have next := added.assign prefixes event
    have agree : ∀ expr ∈ event.exprs,
        Agree (event.assign prefixes leaked) (event.assign prefixes fresh) expr.nodes := by
      intro expr member root steps reads filled
      rw [next root]
      cases held : leftover.get? root with
      | none => rw [Option.or_none]
      | some class_iri =>
        have known := own [] event events rfl expr member root steps reads filled (by rw [held]; rfl)
        obtain ⟨mine, isMine⟩ := Option.isSome_iff_exists.mp known
        have here : (event.assign prefixes fresh).get? root = some mine := isMine
        rw [here]
        rfl
    rw [accepts_cons, accepts_cons, check_congr text catalog prefixes event agree]
    rw [inductionHypothesis next]
    intro earlier later rest split
    exact own (event :: earlier) later rest (by rw [split]; rfl)

end Runs

theorem firstResolved_congr {final inForce : Dict String String} {labels : List NameRef}
    (same : ∀ label ∈ labels.head?, ∀ short ∈ shortOf label,
      final.get? short = inForce.get? short) :
    firstResolved labels final = firstResolved labels inForce := by
  cases labels with
  | nil => rfl
  | cons label rest =>
    have here := same label rfl
    cases label with
    | iri value => rfl
    | qname value =>
      rw [firstResolved, firstResolved]
      rw [shortOf] at here
      cases parts : splitName value with
      | none =>
        rw [parts] at here
        simp only [here "" rfl]
      | some pair =>
        rw [parts] at here
        simp only [here pair.1 rfl]

theorem node_of_event {stmt : Stmt} {pattern : NodePattern} (member : .node pattern ∈ stmt.events) :
    (true, pattern) ∈ stmt.nodes := by
  have among : pattern ∈ stmt.nodes.filterMap (ifSeen some) := by
    rw [← stmt_seen]
    exact List.mem_filterMap.mpr ⟨.node pattern, member, rfl⟩
  obtain ⟨⟨seen, other⟩, listed, read⟩ := List.mem_filterMap.mp among
  cases seen with
  | false => cases read
  | true =>
    cases read
    exact listed

section Programs

variable {text : Casing} {catalog : Onto.Catalog} {initial : Dict String String} {program : Program}

/-- What is left of a program is accepted exactly if each of its statements is accepted alone. -/
theorem accepts_rest (kept : LabelsKept initial program) (own : ReadsOwn program)
    (rest done : List Stmt) (split : program = done ++ rest) :
    Accepts text catalog (prefixesAfter initial program)
        ((done.flatMap Stmt.events).foldl (Event.assign (prefixesAfter initial program)) Dict.empty)
        (rest.flatMap Stmt.events) ↔
      ∀ before stmt after, rest = before ++ stmt :: after →
        checkTypes text catalog (prefixesAfter initial (done ++ before ++ [stmt])) [stmt] =
          .ok () := by
  induction rest generalizing done with
  | nil =>
    constructor
    · intro _ before stmt after impossible
      cases before <;> cases impossible
    · exact fun _ => accepts_nil _ _ _ _
  | cons stmt rest inductionHypothesis =>
    have alone : Accepts text catalog (prefixesAfter initial program)
        ((done.flatMap Stmt.events).foldl (Event.assign (prefixesAfter initial program)) Dict.empty)
        stmt.events ↔
          checkTypes text catalog (prefixesAfter initial (done ++ [stmt])) [stmt] = .ok () := by
      have added : ∀ classes : Dict String String, Over classes Dict.empty classes :=
        fun classes name => (Option.none_or).symm
      rw [checkTypes_iff, List.flatMap_singleton]
      apply Iff.trans (accepts_over text catalog _ (added _) ?_)
      · apply accepts_congr
        intro pattern member
        exact firstResolved_congr (kept.kept done stmt rest split _ (node_of_event member))
      · intro earlier event later cut expr member root steps reads filled left
        apply (assigned_run _ _ _ _).mpr
        left
        apply own done stmt rest split earlier event later cut expr member root steps reads filled
        rcases (assigned_run _ _ _ _).mp left with labelled | impossible
        · exact labelled
        · cases impossible
    have later := inductionHypothesis (done ++ [stmt]) (by rw [split]; simp)
    rw [List.flatMap_append, List.foldl_append, List.flatMap_singleton] at later
    rw [List.flatMap_cons, accepts_append, alone, later]
    constructor
    · rintro ⟨here, further⟩ before other after cut
      cases before with
      | nil =>
        cases cut
        simpa using here
      | cons first before =>
        cases cut
        have answer := further before other after rfl
        simpa using answer
    · intro all
      constructor
      · simpa using all [] stmt rest rfl
      · intro before other after cut
        have answer := all (stmt :: before) other after (by rw [cut]; rfl)
        simpa using answer

/-- A bound program keeps the classes of the binder exactly if the checker sees all its labels and
no prefix of theirs changes later; then it is accepted as its statements are, if none of them
reads a property of a variable of another. -/
theorem names_agree_iff {bound : Binder} (done : bindProgram catalog initial program = .ok bound) :
    (SameClasses initial program bound.prefixes ↔ LabelsKept initial program) ∧
      (LabelsKept initial program → ReadsOwn program →
        SameClasses initial program bound.prefixes ∧
          AcceptsEach text catalog initial program bound.prefixes) := by
  have final : bound.prefixes = prefixesAfter initial program := (bound_run program done).1
  refine ⟨classes_iff done, fun kept own => ⟨(classes_iff done).mpr kept, ?_⟩⟩
  rw [AcceptsEach, final, checkTypes_iff]
  exact accepts_rest kept own program [] rfl

end Programs

def geneCatalog : Onto.Catalog :=
  { emptyCatalog with
    classes := [{ cid := 1, iri := "a#Gene", local_name := none, superclass_iris := []
                  fields := [], doc := none }] }

/-- `PREFIX ex: <iri>` -/
def declareEx (iri : String) : Stmt := .ddl (.declare (some { short := "ex", iri }))

/-- `MATCH (g:ex:Gene) RETURN g.symbol` -/
def matchGene : Stmt :=
  .query (some
    { clauses := [
        .match_ [{ elements := [.node { var := some "g", labels := [.qname "ex:Gene"] }] }],
        .return_ [.path (some "g") ["symbol"]]] })

theorem gene_bound : ∃ bound,
    bindProgram geneCatalog Dict.empty [declareEx "a#", matchGene] = .ok bound :=
  ⟨_, rfl⟩

theorem gene_splits {before after : List Stmt} {stmt : Stmt}
    (split : [declareEx "a#", matchGene] = before ++ stmt :: after) :
    (before = [] ∧ stmt = declareEx "a#") ∨
      (before = [declareEx "a#"] ∧ stmt = matchGene ∧ after = []) := by
  rcases before with _ | ⟨first, _ | ⟨second, before⟩⟩
  · cases split
    exact .inl ⟨rfl, rfl⟩
  · cases split
    exact .inr ⟨rfl, rfl, rfl⟩
  · simp at split

theorem gene_names_agree : ∃ bound,
    bindProgram geneCatalog Dict.empty [declareEx "a#", matchGene] = .ok bound ∧
      SameClasses Dict.empty [declareEx "a#", matchGene] bound.prefixes ∧
      AcceptsEach ascii geneCatalog Dict.empty [declareEx "a#", matchGene] bound.prefixes := by
  obtain ⟨bound, done⟩ := gene_bound
  have kept : LabelsKept Dict.empty [declareEx "a#", matchGene] := by
    constructor
    · simp [declareEx, matchGene, Stmt.nodes, Query.nodes, Clause.nodes, elemNodes,
        PatternElem.nodes]
    · intro before stmt after split
      rcases gene_splits split with ⟨rfl, rfl⟩ | ⟨rfl, rfl, rfl⟩
      · rintro node ⟨⟩
      · exact fun node member label first short own => rfl
  have own : ReadsOwn [declareEx "a#", matchGene] := by
    intro before stmt after split earlier event later cut expr member root steps reads filled left
    rcases gene_splits split with ⟨rfl, rfl⟩ | ⟨rfl, rfl, rfl⟩ <;> cases left
  exact ⟨bound, done, (names_agree_iff done).2 kept own⟩

/-- A prefix that is declared again moves a label to another class. -/
theorem redeclared_prefix_moves :
    ¬ ∀ bound, bindProgram geneCatalog Dict.empty
        [declareEx "a#", matchGene, declareEx "b#"] = .ok bound →
      SameClasses Dict.empty [declareEx "a#", matchGene, declareEx "b#"] bound.prefixes ∧
        AcceptsEach ascii geneCatalog Dict.empty [declareEx "a#", matchGene, declareEx "b#"]
          bound.prefixes := by
  intro all
  have done : ∃ bound, bindProgram geneCatalog Dict.empty
      [declareEx "a#", matchGene, declareEx "b#"] = .ok bound := ⟨_, rfl⟩
  obtain ⟨bound, done⟩ := done
  have kept := (classes_iff done).mp (all bound done).1
  have same := kept.kept [declareEx "a#"] matchGene [declareEx "b#"] rfl
    (true, { var := some "g", labels := [.qname "ex:Gene"] }) (by
      simp [matchGene, Stmt.nodes, Query.nodes, Clause.nodes, elemNodes, PatternElem.nodes])
    (.qname "ex:Gene") rfl "ex" rfl
  have moved : (some "b#" : Option String) = some "a#" := same
  simp at moved

end CaracalDB.Typing
