import CaracalDB.TypeChecker

/-!
# The binder of Tuft programs

It goes through the statements in order, adds the prefixes they declare, and resolves
the names in them with the prefixes it has by then. A label must be a class of the
catalog, a type of a relationship a property. What it hands on are the prefixes at the
end of the program.
-/

namespace CaracalDB.Typing

open Tuft (NameRef)

structure BoundName where
  original : NameRef
  iri : String

/-- The state of `Binder` -/
structure Binder where
  prefixes : Dict String String
  classes : List BoundName := []
  properties : List BoundName := []

/-- `PREFIX short: <iri>` -/
def declare (prefixes : Dict String String) (decl : PrefixDecl) : Dict String String :=
  prefixes.set decl.short decl.iri

def bindError (code message hint : String) : Raised :=
  .caracal { code, message, hint := some hint }

/-- `resolve_name(name)` -/
def resolveName (prefixes : Dict String String) : NameRef → Except Raised String
  | .iri value => .ok value
  | .qname value =>
      match splitName value with
      | none =>
          match prefixes.get? "" with
          | some iri => .ok (iri ++ value)
          | none => .error (bindError "TF-3001"
              ("undefined default prefix for name `" ++ value ++ "`")
              ("declare a default prefix through binder prefixes or use an " ++
                "explicit prefixed name"))
      | some (short, name) =>
          match prefixes.get? short with
          | some iri => .ok (iri ++ name)
          | none => .error (bindError "TF-3001" ("undefined prefix `" ++ short ++ "`")
              ("declare PREFIX " ++ short ++ ": <...> before using `" ++ value ++ "`"))

section Names

variable (catalog : Onto.Catalog) (prefixes : Dict String String)

/-- `bind_class(name)` -/
def bindClass (binder : Binder) (name : NameRef) : Except Raised Binder := do
  let iri ← resolveName binder.prefixes name
  refuse ((catalog.classes.find? fun cls => cls.iri = iri).isNone)
    (bindError "TF-3004" ("unknown class `" ++ iri ++ "`")
      "create the class in the catalog before referencing it")
  return { binder with classes := binder.classes ++ [{ original := name, iri }] }

/-- `bind_property(name)` -/
def bindProperty (binder : Binder) (name : NameRef) : Except Raised Binder := do
  let iri ← resolveName binder.prefixes name
  refuse ((catalog.properties.find? fun property => property.iri = iri).isNone)
    (bindError "TF-3005" ("unknown property `" ++ iri ++ "`")
      "create the property in the catalog before referencing it")
  return { binder with properties := binder.properties ++ [{ original := name, iri }] }

/-- Resolve a name for its errors. -/
def checkName (name : NameRef) : Except Raised Unit := discard (resolveName prefixes name)

mutual

/-- `_bind_type_ref(type_ref)` -/
def bindTypeExpr : TypeExpr → Except Raised Unit
  | .mk (.text _) params => bindTypeExprs params
  | .mk (.ref name) params => do
      checkName prefixes name
      bindTypeExprs params

def bindTypeExprs : List TypeExpr → Except Raised Unit
  | [] => return ()
  | type :: types => do
      bindTypeExpr type
      bindTypeExprs types

end

mutual

/-- `_bind_expr(expr)` -/
def bindExpr : Expr → Except Raised Unit
  | .binOp _ left right => do
      bindOperand left
      bindOperand right
  | .unaryOp _ operand => bindOperand operand
  | .fnCall name args => do
      name.forM (checkName prefixes)
      bindItems args
  | .literal _ datatype => datatype.forM (checkName prefixes)
  | .list items => bindItems items
  | .map values => bindItems values
  | .subscript target index => do
      bindOperand target
      bindOperand index
  | .cast _ type_ref => type_ref.forM (bindTypeExpr prefixes)
  | .var _ | .path _ _ | .other => return ()

def bindOperand : Option Expr → Except Raised Unit
  | none => return ()
  | some expr => bindExpr expr

def bindItems : List Expr → Except Raised Unit
  | [] => return ()
  | item :: items => do
      bindExpr item
      bindItems items

end

/-- `_bind_prop_map(prop_map)`, if there is one. -/
def bindProps (props : Option PropMap) : Except Raised Unit :=
  props.forM fun props => props.entries.forM fun entry => bindExpr prefixes entry.value

/-- A subject or an object of `_bind_triple(triple)`. -/
def bindTerm : TripleTerm → Except Raised Unit
  | .expr value => bindExpr prefixes value
  | .ref name => checkName prefixes name

end Names

section Statements

variable (catalog : Onto.Catalog)

mutual

/-- One element of `_bind_pattern(pattern)`. -/
def bindElem (binder : Binder) : PatternElem → Except Raised Binder
  | .node node => do
      let binder ← node.labels.foldlM (bindClass catalog) binder
      bindProps binder.prefixes node.props
      return binder
  | .rel rel => do
      let binder ← rel.types.foldlM (bindProperty catalog) binder
      bindProps binder.prefixes rel.props
      return binder
  | .path inner => bindElems binder inner

def bindElems (binder : Binder) : List PatternElem → Except Raised Binder
  | [] => return binder
  | elem :: elems => do
      let binder ← bindElem binder elem
      bindElems binder elems

end

def bindPattern (binder : Binder) (pattern : Pattern) : Except Raised Binder :=
  bindElems catalog binder pattern.elements

/-- `_bind_triple(triple)` -/
def bindTriple (binder : Binder) (triple : TriplePattern) : Except Raised Binder := do
  let binder ← triple.predicate.elim (.ok binder) (bindProperty catalog binder)
  bindTerm binder.prefixes triple.subject
  bindTerm binder.prefixes triple.object
  return binder

/-- `_bind_clause(clause)` -/
def bindClause (binder : Binder) : Clause → Except Raised Binder
  | .match_ patterns => patterns.foldlM (bindPattern catalog) binder
  | .call function => do
      function.forM (checkName binder.prefixes)
      return binder
  | .set values => do
      values.forM (bindExpr binder.prefixes)
      return binder
  | .where_ predicate => do
      predicate.forM (bindExpr binder.prefixes)
      return binder
  | .with_ projections condition => do
      projections.forM (bindExpr binder.prefixes)
      condition.forM (bindExpr binder.prefixes)
      return binder
  | .return_ projections => do
      projections.forM (bindExpr binder.prefixes)
      return binder
  | .other => return binder

/-- `_bind_query(query)` -/
def bindQuery (binder : Binder) (query : Query) : Except Raised Binder :=
  query.clauses.foldlM (bindClause catalog)
    { binder with prefixes := query.declared.foldl declare binder.prefixes }

/-- `_bind_ddl(stmt)` -/
def bindDdl (binder : Binder) : DdlStmt → Except Raised Binder
  | .declare decl =>
      return decl.elim binder fun decl =>
        { binder with prefixes := CaracalDB.Typing.declare binder.prefixes decl }
  | .create_class target subclasses_of => do
      target.forM (checkName binder.prefixes)
      subclasses_of.foldlM (bindClass catalog) binder
  | .create_property target domain range => do
      target.forM (checkName binder.prefixes)
      let binder ← domain.foldlM (bindClass catalog) binder
      range.forM (bindTypeExpr binder.prefixes)
      return binder
  | .create_graph ontologies => do
      ontologies.forM (checkName binder.prefixes)
      return binder
  | .other => return binder

/-- `_bind_dml(stmt)` -/
def bindDml (binder : Binder) (stmt : DmlStmt) : Except Raised Binder := do
  let binder ← stmt.query.elim (.ok binder) (bindQuery catalog binder)
  let binder ← stmt.pattern.elim (.ok binder) (bindPattern catalog binder)
  let binder ← stmt.patterns.foldlM (bindPattern catalog) binder
  stmt.triples.foldlM (bindTriple catalog) binder

/-- `_bind_stmt(stmt)` -/
def bindStmt (binder : Binder) : Stmt → Except Raised Binder
  | .ddl stmt => bindDdl catalog binder stmt
  | .query query | .util query => query.elim (.ok binder) (bindQuery catalog binder)
  | .dml stmt => bindDml catalog binder stmt
  | .tx => return binder

/-- `bind_program(program, catalog, prefixes)`; the binder at the end is the bound program. -/
def bindProgram (prefixes : Dict String String) (program : Program) : Except Raised Binder :=
  program.foldlM (bindStmt catalog) { prefixes }

end Statements

/-! ## What is bound -/

mutual

/-- The node patterns in an element, as the binder goes through them; inside a path the checker
does not look. -/
def PatternElem.nodes (seen : Bool) : PatternElem → List (Bool × NodePattern)
  | .node node => [(seen, node)]
  | .rel _ => []
  | .path inner => elemNodes false inner

def elemNodes (seen : Bool) : List PatternElem → List (Bool × NodePattern)
  | [] => []
  | elem :: elems => elem.nodes seen ++ elemNodes seen elems

end

def Clause.nodes (seen : Bool) : Clause → List (Bool × NodePattern)
  | .match_ patterns => patterns.flatMap fun pattern => elemNodes seen pattern.elements
  | _ => []

def Query.nodes (seen : Bool) (query : Query) : List (Bool × NodePattern) :=
  query.clauses.flatMap (Clause.nodes seen)

/-- The node patterns that the binder goes through in a statement, and whether the checker does. -/
def Stmt.nodes : Stmt → List (Bool × NodePattern)
  | .query asked => asked.elim [] (Query.nodes true)
  | .util asked => asked.elim [] (Query.nodes false)
  | .dml stmt => stmt.query.elim [] (Query.nodes true) ++
      (stmt.pattern.toList ++ stmt.patterns).flatMap fun pattern => elemNodes true pattern.elements
  | .ddl _ | .tx => []

/-- The prefixes that a statement declares. -/
def Stmt.declared : Stmt → List PrefixDecl
  | .ddl (.declare decl) => decl.toList
  | .query asked | .util asked => asked.elim [] Query.declared
  | .dml stmt => stmt.query.elim [] Query.declared
  | .ddl _ | .tx => []

/-- The prefixes that are in force after statements. -/
def prefixesAfter (prefixes : Dict String String) (stmts : List Stmt) : Dict String String :=
  (stmts.flatMap Stmt.declared).foldl declare prefixes

/-- The labels of node patterns. -/
def labelsOf (nodes : List (Bool × NodePattern)) : List NameRef :=
  nodes.flatMap fun node => node.2.labels

@[simp] theorem labelsOf_append (first second : List (Bool × NodePattern)) :
    labelsOf (first ++ second) = labelsOf first ++ labelsOf second := List.flatMap_append

/-- What a part of a program without declarations does to the binder: the prefixes stay, and its
labels are bound with them. -/
structure Binds (before after : Binder) (labels : List NameRef) : Prop where
  prefixes : after.prefixes = before.prefixes
  kept : ∀ name ∈ before.classes, name ∈ after.classes
  bound : ∀ label ∈ labels, ∃ iri, resolveName before.prefixes label = .ok iri ∧
    ({ original := label, iri } : BoundName) ∈ after.classes

theorem Binds.refl (binder : Binder) : Binds binder binder [] where
  prefixes := rfl
  kept _ member := member
  bound := nofun

theorem Binds.trans {first second third : Binder} {early late : List NameRef}
    (begins : Binds first second early) (ends : Binds second third late) :
    Binds first third (early ++ late) where
  prefixes := ends.prefixes.trans begins.prefixes
  kept name member := ends.kept name (begins.kept name member)
  bound := by
    intro label member
    rcases List.mem_append.mp member with here | there
    · obtain ⟨iri, resolved, listed⟩ := begins.bound label here
      exact ⟨iri, resolved, ends.kept _ listed⟩
    · obtain ⟨iri, resolved, listed⟩ := ends.bound label there
      exact ⟨iri, begins.prefixes ▸ resolved, listed⟩

theorem Binds.fewer {before after : Binder} {labels : List NameRef}
    (binds : Binds before after labels) : Binds before after [] :=
  { binds with bound := nofun }

/-- A loop over parts binds the labels of the parts. -/
theorem binds_foldlM {Part : Type} {step : Binder → Part → Except Raised Binder}
    (labels : Part → List NameRef)
    (each : ∀ before part after, step before part = .ok after → Binds before after (labels part))
    (parts : List Part) {before after : Binder} (done : parts.foldlM step before = .ok after) :
    Binds before after (parts.flatMap labels) := by
  induction parts generalizing before with
  | nil =>
    cases done
    exact Binds.refl _
  | cons part parts inductionHypothesis =>
    rw [List.foldlM_cons] at done
    obtain ⟨middle, first, rest⟩ := except_bind_ok done
    exact (each _ _ _ first).trans (inductionHypothesis rest)

theorem binds_option {Part : Type} (step : Binder → Part → Except Raised Binder)
    (labels : Part → List NameRef)
    (each : ∀ before part after, step before part = .ok after → Binds before after (labels part))
    (part : Option Part) {before after : Binder}
    (done : part.elim (.ok before) (step before) = .ok after) :
    Binds before after (part.elim [] labels) := by
  cases part with
  | none =>
    cases done
    exact Binds.refl _
  | some part => exact each _ _ _ done

/-- A check that comes in front of the same binder. -/
theorem binds_check {check : Except Raised Unit} {before after : Binder}
    (done : (do check; return before) = Except.ok after) : Binds before after [] := by
  obtain ⟨_, _, same⟩ := except_bind_ok done
  cases same
  exact Binds.refl _

section Parts

variable {catalog : Onto.Catalog} {before after : Binder}

theorem bindClass_binds {label : NameRef} (done : bindClass catalog before label = .ok after) :
    Binds before after [label] := by
  obtain ⟨iri, resolved, done⟩ := except_bind_ok done
  obtain ⟨_, _, same⟩ := except_bind_ok done
  cases same
  refine ⟨rfl, fun name member => List.mem_append_left _ member, ?_⟩
  intro other member
  rw [List.mem_singleton.mp member]
  exact ⟨iri, resolved, List.mem_append_right _ List.mem_cons_self⟩

theorem bindProperty_binds {name : NameRef} (done : bindProperty catalog before name = .ok after) :
    Binds before after [] := by
  obtain ⟨iri, resolved, done⟩ := except_bind_ok done
  obtain ⟨_, _, same⟩ := except_bind_ok done
  cases same
  exact ⟨rfl, fun name member => member, nofun⟩

theorem bindLabels_binds {labels : List NameRef}
    (done : labels.foldlM (bindClass catalog) before = .ok after) : Binds before after labels := by
  have binds := binds_foldlM (fun label => [label]) (fun _ _ _ => bindClass_binds) labels done
  rwa [List.flatMap_singleton'] at binds

theorem bindTypes_binds {names : List NameRef}
    (done : names.foldlM (bindProperty catalog) before = .ok after) : Binds before after [] :=
  (binds_foldlM (fun _ => []) (fun _ _ _ => bindProperty_binds) names done).fewer

mutual

theorem bindElem_binds (seen : Bool) (elem : PatternElem) {before after : Binder}
    (done : bindElem catalog before elem = .ok after) :
    Binds before after (labelsOf (elem.nodes seen)) := by
  cases elem with
  | node node =>
    rw [bindElem] at done
    obtain ⟨middle, labelled, done⟩ := except_bind_ok done
    have binds := (bindLabels_binds labelled).trans (binds_check done)
    rw [List.append_nil] at binds
    simpa [PatternElem.nodes, labelsOf] using binds
  | rel rel =>
    rw [bindElem] at done
    obtain ⟨middle, typed, done⟩ := except_bind_ok done
    exact (bindTypes_binds typed).trans (binds_check done)
  | path inner =>
    rw [bindElem] at done
    exact bindElems_binds false inner done

theorem bindElems_binds (seen : Bool) (elems : List PatternElem) {before after : Binder}
    (done : bindElems catalog before elems = .ok after) :
    Binds before after (labelsOf (elemNodes seen elems)) := by
  cases elems with
  | nil =>
    cases done
    exact Binds.refl _
  | cons elem elems =>
    rw [bindElems] at done
    obtain ⟨middle, first, rest⟩ := except_bind_ok done
    rw [elemNodes, labelsOf_append]
    exact (bindElem_binds seen elem first).trans (bindElems_binds seen elems rest)

end

theorem labelsOf_flatMap {Part : Type} (nodes : Part → List (Bool × NodePattern))
    (parts : List Part) :
    labelsOf (parts.flatMap nodes) = parts.flatMap fun part => labelsOf (nodes part) :=
  List.flatMap_assoc

theorem bindPatterns_binds (seen : Bool) {patterns : List Pattern}
    (done : patterns.foldlM (bindPattern catalog) before = .ok after) :
    Binds before after (labelsOf (patterns.flatMap fun pattern =>
      elemNodes seen pattern.elements)) := by
  rw [labelsOf_flatMap]
  exact binds_foldlM _ (fun _ pattern _ => bindElems_binds seen pattern.elements) patterns done

theorem bindClause_binds (seen : Bool) (clause : Clause)
    (done : bindClause catalog before clause = .ok after) :
    Binds before after (labelsOf (clause.nodes seen)) := by
  cases clause with
  | match_ patterns => exact bindPatterns_binds seen done
  | call | set | where_ | return_ => exact binds_check done
  | with_ projections condition =>
    obtain ⟨_, _, done⟩ := except_bind_ok done
    exact binds_check done
  | other =>
    cases done
    exact Binds.refl _

/-- A query binds with its own prefixes. -/
theorem bindQuery_binds (seen : Bool) (query : Query)
    (done : bindQuery catalog before query = .ok after) :
    Binds { before with prefixes := query.declared.foldl declare before.prefixes } after
      (labelsOf (query.nodes seen)) := by
  rw [Query.nodes, labelsOf_flatMap]
  exact binds_foldlM _ (fun _ clause _ => bindClause_binds seen clause) query.clauses done

theorem bindTriple_binds {triple : TriplePattern}
    (done : bindTriple catalog before triple = .ok after) : Binds before after [] := by
  obtain ⟨middle, first, done⟩ := except_bind_ok done
  obtain ⟨_, _, done⟩ := except_bind_ok done
  have predicate := binds_option (bindProperty catalog) (fun _ => [])
    (fun _ _ _ => bindProperty_binds) triple.predicate first
  exact (predicate.trans (binds_check done)).fewer

theorem bindDdl_binds (stmt : DdlStmt) (done : bindDdl catalog before stmt = .ok after) :
    Binds { before with
      prefixes := (Stmt.ddl stmt).declared.foldl declare before.prefixes } after [] := by
  cases stmt with
  | declare decl =>
    cases decl <;> cases done <;> exact Binds.refl _
  | create_class target subclasses_of =>
    obtain ⟨_, _, done⟩ := except_bind_ok done
    exact (bindLabels_binds done).fewer
  | create_property target domain range =>
    obtain ⟨_, _, done⟩ := except_bind_ok done
    obtain ⟨middle, labelled, done⟩ := except_bind_ok done
    exact ((bindLabels_binds labelled).trans (binds_check done)).fewer
  | create_graph ontologies => exact binds_check done
  | other =>
    cases done
    exact Binds.refl _

/-- A statement adds the prefixes it declares and binds its labels with them. -/
theorem bindStmt_binds (stmt : Stmt) (done : bindStmt catalog before stmt = .ok after) :
    Binds { before with prefixes := stmt.declared.foldl declare before.prefixes } after
      (labelsOf stmt.nodes) := by
  cases stmt with
  | ddl stmt => exact bindDdl_binds stmt done
  | query asked =>
    cases asked with
    | none =>
      cases done
      exact Binds.refl _
    | some query => exact bindQuery_binds true query done
  | util asked =>
    cases asked with
    | none =>
      cases done
      exact Binds.refl _
    | some query => exact bindQuery_binds false query done
  | dml stmt =>
    obtain ⟨asked, first, done⟩ := except_bind_ok done
    obtain ⟨single, second, done⟩ := except_bind_ok done
    obtain ⟨listed, third, done⟩ := except_bind_ok done
    have query : Binds
        { before with prefixes := (Stmt.dml stmt).declared.foldl declare before.prefixes } asked
        (labelsOf (stmt.query.elim [] (Query.nodes true))) := by
      cases held : stmt.query with
      | none =>
        rw [held] at first
        cases first
        simp only [Stmt.declared, held]
        exact Binds.refl _
      | some query =>
        rw [held] at first
        simp only [Stmt.declared, held]
        exact bindQuery_binds true query first
    have patterns : (stmt.pattern.toList ++ stmt.patterns).foldlM (bindPattern catalog) asked =
        .ok listed := by
      cases held : stmt.pattern with
      | none =>
        rw [held] at second
        cases second
        exact third
      | some pattern =>
        rw [held] at second
        rw [Option.toList_some, List.singleton_append, List.foldlM_cons]
        exact (congrArg (· >>= _) second).trans third
    have triples := binds_foldlM (fun _ => []) (fun _ _ _ => bindTriple_binds) stmt.triples done
    rw [Stmt.nodes, labelsOf_append]
    have both := (query.trans (bindPatterns_binds true patterns)).trans triples.fewer
    rwa [List.append_nil] at both
  | tx =>
    cases done
    exact Binds.refl _

end Parts

end CaracalDB.Typing
