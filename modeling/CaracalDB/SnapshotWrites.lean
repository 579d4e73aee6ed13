import CaracalDB.Snapshots
import CaracalDB.UpsertRewrite

/-!
# Snapshots under writes

A run of writes leaves a snapshot alone as long as no upsert writes a directory
back in which rows of the snapshot lie. The groups that an upsert writes back are
known before it: they are the types of the rows that it reads and of its input.
-/

namespace CaracalDB

namespace Database

/-- Whether removing a directory of the nodes takes no row that is visible at an LSN. -/
def HidesNodes (lsn : Nat) (db : Database) (directory : String) : Prop :=
  if directory = "." then ∀ name, visibleRows lsn db.nodes name = []
  else if directory = ".." then ∀ name,
    visibleRows lsn db.nodes name = [] ∧ visibleRows lsn db.edges name = []
  else visibleRows lsn db.nodes directory = []

/-- Whether removing a directory of the edges takes no row that is visible at an LSN. -/
def HidesEdges (lsn : Nat) (db : Database) (directory : String) : Prop :=
  if directory = "." then ∀ name, visibleRows lsn db.edges name = []
  else if directory = ".." then ∀ name,
    visibleRows lsn db.nodes name = [] ∧ visibleRows lsn db.edges name = []
  else visibleRows lsn db.edges directory = []

/-- Whether writing a class back takes no row that is visible at an LSN. -/
def SparesClass (lsn : Nat) (db : Database) (name : String) : Prop :=
  ∀ iri directory, target db.catalog.classes.view name = some (iri, directory) →
    HidesNodes lsn db directory

/-- Whether writing a relation back takes no row that is visible at an LSN. -/
def SparesRelation (lsn : Nat) (db : Database) (name : String) : Prop :=
  ∀ iri directory, target db.catalog.properties.view name = some (iri, directory) →
    HidesEdges lsn db directory

section Removing

variable {lsn : Nat} {start db : Database}

theorem HidesNodes.later {directory : String} (hides : HidesNodes lsn start directory)
    (undisturbed : Undisturbed lsn start db) (reached : lsn ≤ start.clock) :
    HidesNodes lsn db directory := by
  obtain ⟨_, nodes, edges⟩ := undisturbed reached
  rw [HidesNodes, nodes, edges]
  exact hides

theorem HidesEdges.later {directory : String} (hides : HidesEdges lsn start directory)
    (undisturbed : Undisturbed lsn start db) (reached : lsn ≤ start.clock) :
    HidesEdges lsn db directory := by
  obtain ⟨_, nodes, edges⟩ := undisturbed reached
  rw [HidesEdges, nodes, edges]
  exact hides

/-- Removing a directory that shows nothing disturbs nothing. -/
theorem undisturbed_withoutNodes {directory : String} (hides : HidesNodes lsn db directory) :
    Undisturbed lsn db (db.withoutNodes directory) := by
  intro reached
  rw [withoutNodes_clock]
  refine ⟨reached, ?_⟩
  rw [HidesNodes] at hides
  rw [withoutNodes]
  split at hides
  · next here =>
    rw [if_pos here]
    exact ⟨visibleRows_empty hides, rfl⟩
  · next here =>
    rw [if_neg here]
    split at hides
    · next parent =>
      rw [if_pos parent]
      exact ⟨visibleRows_empty fun name => (hides name).1,
        visibleRows_empty fun name => (hides name).2⟩
    · next parent =>
      rw [if_neg parent]
      exact ⟨visibleRows_erase hides, rfl⟩

theorem undisturbed_withoutEdges {directory : String} (hides : HidesEdges lsn db directory) :
    Undisturbed lsn db (db.withoutEdges directory) := by
  intro reached
  rw [withoutEdges_clock]
  refine ⟨reached, ?_⟩
  rw [HidesEdges] at hides
  rw [withoutEdges]
  split at hides
  · next here =>
    rw [if_pos here]
    exact ⟨rfl, visibleRows_empty hides⟩
  · next here =>
    rw [if_neg here]
    split at hides
    · next parent =>
      rw [if_pos parent]
      exact ⟨visibleRows_empty fun name => (hides name).1,
        visibleRows_empty fun name => (hides name).2⟩
    · next parent =>
      rw [if_neg parent]
      exact ⟨rfl, visibleRows_erase hides⟩

variable (db) in
/-- A new store in place of one that shows nothing shows nothing. -/
theorem undisturbed_clearedNodes {iri directory : String} (proper : isLocalName directory = true)
    (hides : HidesNodes lsn db directory) :
    Undisturbed lsn db (db.clearedNodes iri directory) := by
  obtain ⟨here, parent⟩ := proper_of_isLocalName proper
  rw [HidesNodes, if_neg here, if_neg parent] at hides
  have absent : (db.nodes.erase directory).get? directory = none := by
    rw [Dict.get_erase, if_pos rfl]
  intro reached
  exact ⟨reached, (visibleRows_set_create absent).trans (visibleRows_erase hides), rfl⟩

variable (db) in
theorem undisturbed_clearedEdges {iri directory : String} (proper : isLocalName directory = true)
    (hides : HidesEdges lsn db directory) :
    Undisturbed lsn db (db.clearedEdges iri directory) := by
  obtain ⟨here, parent⟩ := proper_of_isLocalName proper
  rw [HidesEdges, if_neg here, if_neg parent] at hides
  have absent : (db.edges.erase directory).get? directory = none := by
    rw [Dict.get_erase, if_pos rfl]
  intro reached
  exact ⟨reached, rfl, (visibleRows_set_create absent).trans (visibleRows_erase hides)⟩

end Removing

/-! ## Refilling -/

section Refilling

variable (lsn : Nat)

/-- An append leaves what is visible, whether or not it is refused. -/
theorem undisturbed_refilledNodes (runtime : Runtime) (directory : String) (rows : List Row)
    (db : Database) : Undisturbed lsn db (refilledNodes runtime directory rows db).2 := by
  rw [refilledNodes]
  split
  · exact fun reached => ⟨reached, rfl, rfl⟩
  · split
    · exact fun reached => ⟨reached, rfl, rfl⟩
    · next table _ =>
      have appends := undisturbed_appendNodes lsn directory table db
      rw [appendNodes_run] at appends
      cases happens : db.tick.appendNodesAt directory table <;> rw [happens] at appends <;>
        exact appends

theorem undisturbed_refilledEdges (runtime : Runtime) (directory : String) (rows : List Row)
    (db : Database) : Undisturbed lsn db (refilledEdges runtime directory rows db).2 := by
  rw [refilledEdges]
  split
  · exact fun reached => ⟨reached, rfl, rfl⟩
  · split
    · exact fun reached => ⟨reached, rfl, rfl⟩
    · next table _ =>
      have appends := undisturbed_appendEdges lsn directory table [] db
      rw [appendEdges_run] at appends
      cases happens : db.tick.appendEdgesAt directory table [] <;> rw [happens] at appends <;>
        exact appends

end Refilling

/-! ## Writing groups back -/

theorem undisturbed_rewriteClass (lsn : Nat) (runtime : Runtime) {name : String}
    (rows : List Row) {db : Database} (isName : IsName name) (spares : SparesClass lsn db name) :
    Undisturbed lsn db (Call.run (rewriteClass runtime (name, rows)) db).2 := by
  cases leadsTo : target db.catalog.classes.view name with
  | none =>
    obtain ⟨raised, ends⟩ := rewriteClass_nowhere runtime rows db isName leadsTo
    rw [ends]
    exact fun reached => ⟨reached, rfl, rfl⟩
  | some entry =>
    obtain ⟨iri, directory⟩ := entry
    have hides : HidesNodes lsn (db.withClass name) directory := spares iri directory leadsTo
    cases proper : isLocalName directory with
    | false =>
      obtain ⟨raised, ends⟩ := rewriteClass_improper runtime rows db isName leadsTo proper
      rw [ends]
      exact undisturbed_withoutNodes hides
    | true =>
      rw [rewriteClass_run runtime rows db isName leadsTo proper]
      have clears : Undisturbed lsn db ((db.withClass name).clearedNodes iri directory) :=
        undisturbed_clearedNodes (db.withClass name) proper hides
      exact IsTrans.trans _ _ _ clears (undisturbed_refilledNodes lsn runtime directory rows _)

theorem undisturbed_rewriteRelation (lsn : Nat) (runtime : Runtime) {name : String}
    (rows : List Row) {db : Database} (isName : IsName name) (spares : SparesRelation lsn db name) :
    Undisturbed lsn db (Call.run (rewriteRelation runtime (name, rows)) db).2 := by
  have forgets : ∀ ends : Except Raised Unit × Database,
      Undisturbed lsn ends.2 (forgotten name ends).2 := by
    rintro ⟨result, after⟩
    cases result <;> exact fun reached => ⟨reached, rfl, rfl⟩
  cases leadsTo : target db.catalog.properties.view name with
  | none =>
    obtain ⟨raised, ends⟩ := rewriteRelation_nowhere runtime rows db isName leadsTo
    rw [ends]
    exact fun reached => ⟨reached, rfl, rfl⟩
  | some entry =>
    obtain ⟨iri, directory⟩ := entry
    have hides : HidesEdges lsn (db.withProperty name) directory := spares iri directory leadsTo
    cases proper : isLocalName directory with
    | false =>
      obtain ⟨raised, ends⟩ := rewriteRelation_improper runtime rows db isName leadsTo proper
      rw [ends]
      exact undisturbed_withoutEdges hides
    | true =>
      rw [rewriteRelation_run runtime rows db isName leadsTo proper]
      have clears : Undisturbed lsn db ((db.withProperty name).clearedEdges iri directory) :=
        undisturbed_clearedEdges (db.withProperty name) proper hides
      refine IsTrans.trans _ _ _ ?_ (forgets _)
      exact IsTrans.trans _ _ _ clears (undisturbed_refilledEdges lsn runtime directory rows _)

/-- What the groups written back so far leave: the snapshot as it was, their classes defined. -/
def ClassesDone (lsn : Nat) (start : Database) (done : List (String × List Row)) (db : Database) :
    Prop :=
  Undisturbed lsn start db ∧
    db.catalog.classes.view = (done.map Prod.fst).foldl defined start.catalog.classes.view

def RelationsDone (lsn : Nat) (start : Database) (done : List (String × List Row))
    (db : Database) : Prop :=
  Undisturbed lsn start db ∧
    db.catalog.properties.view = (done.map Prod.fst).foldl defined start.catalog.properties.view

/-- Writing classes back that spare a snapshot disturbs nothing, wherever it stops. -/
theorem undisturbed_rewriteClasses {lsn : Nat} (runtime : Runtime)
    (groups : List (String × List Row)) {start : Database} (reached : lsn ≤ start.clock)
    (distinct : (groups.map Prod.fst).Nodup) (names : ∀ group ∈ groups, IsName group.1)
    (spares : ∀ group ∈ groups, SparesClass lsn start group.1) :
    Call.Meets (fun db => ClassesDone lsn start [] db)
      (groups.foldlM (fun _ group => rewriteClass runtime group) ())
      (fun _ => ClassesDone lsn start groups) (fun _ => Undisturbed lsn start) := by
  refine Call.Meets.foldlM groups (fun done _ => ClassesDone lsn start done) ?_ ()
  rintro done ⟨name, rows⟩ rest _ whole db ⟨undisturbed, view⟩
  have among : (name, rows) ∈ groups := by
    rw [whole]
    exact List.mem_append_right _ List.mem_cons_self
  have isName := names _ among
  have new : name ∉ done.map Prod.fst := by
    rw [whole, List.map_append, List.nodup_append] at distinct
    intro member
    exact distinct.2.2 name member name (by simp) rfl
  have sparesNow : SparesClass lsn db name := by
    intro iri directory leadsTo
    rw [view, target_foldl_defined isName _ new] at leadsTo
    exact (spares _ among iri directory leadsTo).later undisturbed reached
  have step := IsTrans.trans _ _ _ undisturbed
    (undisturbed_rewriteClass lsn runtime rows isName sparesNow)
  have catalog := rewriteClass_catalog runtime rows db isName
  cases ends : Call.run (rewriteClass runtime (name, rows)) db with
  | mk result after =>
    rw [ends] at step catalog
    cases result with
    | error raised => exact step
    | ok answer =>
      refine ⟨step, ?_⟩
      rw [show after.catalog = _ from catalog, withClass]
      rw [Catalog.view_define_class _ isName, view, List.map_append, List.foldl_append]
      rfl

theorem undisturbed_rewriteRelations {lsn : Nat} (runtime : Runtime)
    (groups : List (String × List Row)) {start : Database} (reached : lsn ≤ start.clock)
    (distinct : (groups.map Prod.fst).Nodup) (names : ∀ group ∈ groups, IsName group.1)
    (spares : ∀ group ∈ groups, SparesRelation lsn start group.1) :
    Call.Meets (fun db => RelationsDone lsn start [] db)
      (groups.foldlM (fun _ group => rewriteRelation runtime group) ())
      (fun _ => RelationsDone lsn start groups) (fun _ => Undisturbed lsn start) := by
  refine Call.Meets.foldlM groups (fun done _ => RelationsDone lsn start done) ?_ ()
  rintro done ⟨name, rows⟩ rest _ whole db ⟨undisturbed, view⟩
  have among : (name, rows) ∈ groups := by
    rw [whole]
    exact List.mem_append_right _ List.mem_cons_self
  have isName := names _ among
  have new : name ∉ done.map Prod.fst := by
    rw [whole, List.map_append, List.nodup_append] at distinct
    intro member
    exact distinct.2.2 name member name (by simp) rfl
  have sparesNow : SparesRelation lsn db name := by
    intro iri directory leadsTo
    rw [view, target_foldl_defined isName _ new] at leadsTo
    exact (spares _ among iri directory leadsTo).later undisturbed reached
  have step := IsTrans.trans _ _ _ undisturbed
    (undisturbed_rewriteRelation lsn runtime rows isName sparesNow)
  have catalog := rewriteRelation_catalog runtime rows db isName
  cases ends : Call.run (rewriteRelation runtime (name, rows)) db with
  | mk result after =>
    rw [ends] at step catalog
    cases result with
    | error raised => exact step
    | ok answer =>
      refine ⟨step, ?_⟩
      rw [show after.catalog = _ from catalog, withProperty]
      rw [Catalog.view_define_property _ isName, view, List.map_append, List.foldl_append]
      rfl

/-- An upsert of nodes whose types lead to nothing visible disturbs nothing. -/
theorem undisturbed_upsertNodeTable {lsn : Nat} (runtime : Runtime) (table : Table)
    (key_col type_col : String) (update_existing : Bool) {db : Database}
    (spares : ∀ row ∈ scannedNodes key_col type_col db ++ table.rows, ∀ name,
      coerceLocalName (row.read type_col) "node type" = .ok name → SparesClass lsn db name) :
    Undisturbed lsn db
      (Call.run (upsertNodeTable runtime table key_col type_col update_existing) db).2 := by
  intro reached
  rw [upsertNodeTable_run]
  cases planned : planNodes runtime table key_col type_col update_existing db with
  | error raised => exact ⟨reached, rfl, rfl⟩
  | ok plan =>
    obtain ⟨grouped, counts⟩ := plan
    have groupOf : ∀ group ∈ sortedGroups grouped,
        IsName group.1 ∧ SparesClass lsn db group.1 := by
      intro group among
      have key := (Dict.mem_keys grouped group.1).mpr ⟨_, mem_sortedGroups.mp among⟩
      obtain ⟨row, given, coerced⟩ := mem_nodeGroups planned key
      exact ⟨coerceLocalName_isName coerced, spares row given group.1 coerced⟩
    have rewrites := undisturbed_rewriteClasses runtime (sortedGroups grouped) reached
      (sortedGroups_nodup grouped) (fun group among => (groupOf group among).1)
      (fun group among => (groupOf group among).2) db ⟨Std.Refl.refl db, rfl⟩
    dsimp only
    cases ends : Call.run ((sortedGroups grouped).foldlM
      (fun _ group => rewriteClass runtime group) ()) db with
    | mk result after =>
      rw [ends] at rewrites
      cases result with
      | error raised => exact rewrites reached
      | ok answer => exact rewrites.1 reached

/-- An upsert of edges whose types lead to nothing visible disturbs nothing. -/
theorem undisturbed_upsertEdgeTable {lsn : Nat} (runtime : Runtime) (table : Table)
    (edge_key_col : String) (columns : EdgeColumns) (update_existing : Bool) {db : Database}
    (sparesRead : ∀ row ∈ scannedEdges edge_key_col db, ∀ name,
      coerceLocalName (edgeType columns.type_col row) "edge type" = .ok name →
        SparesRelation lsn db name)
    (sparesGiven : ∀ row ∈ (withEdgeKey table edge_key_col columns).rows, ∀ name,
      coerceLocalName (row.read columns.type_col) "edge type" = .ok name →
        SparesRelation lsn db name) :
    Undisturbed lsn db
      (Call.run (upsertEdgeTable runtime table edge_key_col columns update_existing) db).2 := by
  intro reached
  rw [upsertEdgeTable_run]
  cases planned : planEdgeTable runtime table edge_key_col columns update_existing db with
  | error raised => exact ⟨reached, rfl, rfl⟩
  | ok pair =>
    obtain ⟨id_map, plan⟩ := pair
    obtain ⟨_, _, readable, _, rfl⟩ := planEdgeTable_ok planned
    cases plans : planEdges (withEdgeKey table edge_key_col columns) edge_key_col columns
      update_existing (collectedEdges edge_key_col columns.type_col db) id_map with
    | error raised => exact ⟨reached, rfl, rfl⟩
    | ok plan =>
      obtain ⟨grouped, counts⟩ := plan
      have groupOf : ∀ group ∈ sortedGroups grouped, IsName group.1 ∧
          SparesRelation lsn (db.remember columns.node_key_col id_map) group.1 := by
        intro group among
        have key := (Dict.mem_keys grouped group.1).mpr ⟨_, mem_sortedGroups.mp among⟩
        rcases mem_edgeGroups readable plans key with
          ⟨row, given, coerced⟩ | ⟨raw, given, coerced⟩
        · exact ⟨coerceLocalName_isName coerced, sparesRead row given group.1 coerced⟩
        · exact ⟨coerceLocalName_isName coerced, sparesGiven raw given group.1 coerced⟩
      have remembered : lsn ≤ (db.remember columns.node_key_col id_map).clock := reached
      have rewrites := undisturbed_rewriteRelations runtime (sortedGroups grouped) remembered
        (sortedGroups_nodup grouped) (fun group among => (groupOf group among).1)
        (fun group among => (groupOf group among).2) _ ⟨Std.Refl.refl _, rfl⟩
      dsimp only
      cases ends : Call.run ((sortedGroups grouped).foldlM
        (fun _ group => rewriteRelation runtime group) ())
          (db.remember columns.node_key_col id_map) with
      | mk result after =>
        rw [ends] at rewrites
        cases result with
        | error raised => exact rewrites reached
        | ok answer => exact rewrites.1 reached

end Database

/-! ## Runs of writes -/

namespace Write

open Database

/-- Whether no upsert among a write writes a directory back in which visible rows lie. -/
def Spares (lsn : Nat) (db : Database) : Write → Prop
  | .upsert_node_table_arrow table key_col type_col _ =>
      ∀ row ∈ scannedNodes key_col type_col db ++ table.rows, ∀ name,
        coerceLocalName (row.read type_col) "node type" = .ok name → SparesClass lsn db name
  | .upsert_edge_table_arrow table edge_key_col columns _ =>
      (∀ row ∈ scannedEdges edge_key_col db, ∀ name,
        coerceLocalName (edgeType columns.type_col row) "edge type" = .ok name →
          SparesRelation lsn db name) ∧
      ∀ row ∈ (withEdgeKey table edge_key_col columns).rows, ∀ name,
        coerceLocalName (row.read columns.type_col) "edge type" = .ok name →
          SparesRelation lsn db name
  | _ => True

/-- A run whose writes all meet a condition on the database before them. -/
def Run (runtime : Runtime) (condition : Database → Write → Prop) :
    List Write → Database → Prop
  | [], _ => True
  | write :: writes, db => condition db write ∧ Run runtime condition writes (write.after runtime db)

theorem undisturbed_insertion {lsn : Nat} (runtime : Runtime) {write : Write}
    (inserts : write.Inserts) (db : Database) : Undisturbed lsn db (write.after runtime db) :=
  relates_insertion (undisturbed_steps lsn) runtime inserts db

theorem undisturbed_after {lsn : Nat} (runtime : Runtime) {write : Write} {db : Database}
    (spares : write.Spares lsn db) : Undisturbed lsn db (write.after runtime db) := by
  cases write with
  | upsert_node_table_arrow table key_col type_col update_existing =>
    have upserts := undisturbed_upsertNodeTable runtime table key_col type_col update_existing spares
    rw [after, call, Call.run_bind]
    cases ends : Call.run
        (upsertNodeTable runtime table key_col type_col update_existing) db with
    | mk result after =>
      rw [ends] at upserts
      cases result <;> exact upserts
  | upsert_edge_table_arrow table edge_key_col columns update_existing =>
    have upserts := undisturbed_upsertEdgeTable runtime table edge_key_col columns update_existing
      spares.1 spares.2
    rw [after, call, Call.run_bind]
    cases ends : Call.run
        (upsertEdgeTable runtime table edge_key_col columns update_existing) db with
    | mk result after =>
      rw [ends] at upserts
      cases result <;> exact upserts
  | _ =>
    refine undisturbed_insertion runtime ?_ db
    trivial

theorem undisturbed_afterAll {lsn : Nat} (runtime : Runtime) (writes : List Write)
    {db : Database} (spared : Run runtime (fun db write => write.Spares lsn db) writes db) :
    Undisturbed lsn db (afterAll runtime writes db) := by
  induction writes generalizing db with
  | nil => exact Std.Refl.refl db
  | cons write writes inductionHypothesis =>
    exact IsTrans.trans _ _ _ (undisturbed_after runtime spared.1)
      (inductionHypothesis spared.2)

/-- A person that is stored before a snapshot. -/
def storedPerson : Database :=
  (insert_node_table [Dict.ofEntries [("node_id", .str "ada"), ("type", .str "Person")]]
    "node_id" "type").after Runtime.plain (Database.create "graph.crcl")

/-- The database with a snapshot of the person. -/
def snappedPerson : Database := (Call.run (createSnapshot "release") storedPerson).2

theorem snappedPerson_taken :
    Call.run (createSnapshot "release") storedPerson = (.ok 1, snappedPerson) := by
  refine Prod.ext ?_ rfl
  decide +kernel

/-- Cities, keyed by a column that persons do not have. -/
def upsertCities : Write :=
  .upsert_node_table_arrow (Table.ofTexts ["name", "kind"] (by decide) [["london", "City"]])
    "name" "kind" true

/-- Another person. -/
def insertBob : Write :=
  .insert_node_table [Dict.ofEntries [("node_id", .str "bob"), ("type", .str "Person")]]
    "node_id" "type"

/-- An upsert of cities removes no person. -/
theorem upsertCities_spares :
    upsertCities.Spares 1 (insertBob.after Runtime.plain snappedPerson) := by
  intro row among name coerced iri directory leadsTo
  have nothing : scannedNodes "name" "kind" (insertBob.after Runtime.plain snappedPerson) = [] := by
    decide +kernel
  rw [nothing, List.nil_append] at among
  have city := List.mem_singleton.mp among
  subst city
  have named : coerceLocalName (.str "City") "node type" = .ok "City" := by decide +kernel
  have same := Except.ok.inj (named.symm.trans coerced)
  subst same
  have leads : target (insertBob.after Runtime.plain snappedPerson).catalog.classes.view "City" =
      some ("caracaldb:local:City", "City") := by decide +kernel
  rw [leads] at leadsTo
  obtain ⟨rfl, rfl⟩ := Prod.mk.inj (Option.some.inj leadsTo)
  rw [HidesNodes, if_neg (by decide), if_neg (by decide)]
  decide +kernel

end Write

end CaracalDB
