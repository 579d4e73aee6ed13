import CaracalDB.WriteSteps

/-!
# Snapshots

A snapshot is the write clock under a name. Reading at a snapshot leaves out the
rows written later. Insertions write with later LSNs only; an upsert writes whole
stores anew, and so takes the rows of the stores it writes back out of every
earlier snapshot.
-/

namespace CaracalDB

namespace Database

/-- `create_snapshot(bundle, name)` -/
def createSnapshot (name : String) : Method Nat :=
  Call.attempt fun db =>
    if name = "" then raiseCaracal "CDB-8011" "snapshot name cannot be empty"
    else if name ∈ db.snapshots.keys then
      raiseCaracal "CDB-8012" ("snapshot " ++ Value.quoted name ++ " already exists")
    else .ok (db.clock, { db with snapshots := db.snapshots.set name db.clock })

/-- A snapshot has the LSN of the clock. -/
theorem createSnapshot_clock {db snapped : Database} {name : String} {lsn : Nat}
    (taken : Call.run (createSnapshot name) db = (.ok lsn, snapped)) : lsn = snapped.clock := by
  rw [createSnapshot, Call.run_attempt] at taken
  split at taken
  · next happens =>
    split at happens
    · cases happens
    · split at happens
      · cases happens
      · obtain ⟨rfl, rfl⟩ := Prod.mk.inj (Except.ok.inj happens)
        obtain ⟨same, rfl⟩ := Prod.mk.inj taken
        exact (Except.ok.inj same).symm
  · cases taken

/-- The rows of a store directory that a scan with the snapshot's LSN gives. -/
def visibleRows {id_column : String} (lsn : Nat) (stores : Dict String (Store id_column))
    (name : String) : List Row :=
  match stores.get? name with
  | none => []
  | some store => store.to_pylist (some lsn)

/-- What is visible at an LSN stays visible, and nothing else becomes visible. -/
def Undisturbed (lsn : Nat) (before after : Database) : Prop :=
  lsn ≤ before.clock → lsn ≤ after.clock ∧
    visibleRows lsn after.nodes = visibleRows lsn before.nodes ∧
    visibleRows lsn after.edges = visibleRows lsn before.edges

instance (lsn : Nat) : IsPreorder Database (Undisturbed lsn) where
  refl _ reached := ⟨reached, rfl, rfl⟩
  trans _ _ _ first second reached := by
    obtain ⟨middle, nodes, edges⟩ := first reached
    obtain ⟨last, laterNodes, laterEdges⟩ := second middle
    exact ⟨last, laterNodes.trans nodes, laterEdges.trans edges⟩

end Database

/-! ## Insertions -/

namespace Store

variable {id_column : String}

/-- A later chunk is not visible. -/
theorem to_pylist_push (store : Store id_column) (batch : Table) {lsn created_lsn : Nat}
    (accepts : store.Accepts batch) (later : lsn < created_lsn) :
    (store.push batch created_lsn accepts).to_pylist (some lsn) = store.to_pylist (some lsn) := by
  have hidden : (chunkOf store.next_id created_lsn batch).filter (visibleAt lsn) = [] := by
    rw [List.filter_eq_nil_iff]
    intro row member
    have created := chunkOf_created member
    simp [visibleAt, created, later]
  simp only [to_pylist, rows_push, List.filter_append, hidden, List.append_nil]

end Store

namespace Database

section Directories

variable {id_column : String} {lsn : Nat} {stores : Dict String (Store id_column)}

/-- Setting a store to one with the same visible rows changes nothing visible. -/
theorem visibleRows_set {name : String} {store : Store id_column}
    (same : store.to_pylist (some lsn) = visibleRows lsn stores name) :
    visibleRows lsn (stores.set name store) = visibleRows lsn stores := by
  funext other
  unfold visibleRows at same ⊢
  rw [Dict.get_set]
  by_cases here : other = name
  · subst here
    rw [if_pos rfl]
    exact same
  · rw [if_neg here]

theorem visibleRows_set_create {name iri : String} (absent : stores.get? name = none) :
    visibleRows lsn (stores.set name (Store.create iri)) = visibleRows lsn stores := by
  apply visibleRows_set
  unfold visibleRows
  rw [absent]
  rfl

theorem visibleRows_set_push {name : String} {store : Store id_column} {batch : Table}
    {created_lsn : Nat} (stored : stores.get? name = some store) (accepts : store.Accepts batch)
    (later : lsn < created_lsn) :
    visibleRows lsn (stores.set name (store.push batch created_lsn accepts)) =
      visibleRows lsn stores := by
  apply visibleRows_set
  unfold visibleRows
  rw [stored]
  exact store.to_pylist_push batch accepts later

/-- Removing a store that shows nothing changes nothing visible. -/
theorem visibleRows_erase {name : String} (nothing : visibleRows lsn stores name = []) :
    visibleRows lsn (stores.erase name) = visibleRows lsn stores := by
  funext other
  by_cases here : other = name
  · subst here
    rw [nothing]
    unfold visibleRows
    rw [Dict.get_erase, if_pos rfl]
  · unfold visibleRows
    rw [Dict.get_erase, if_neg here]

theorem visibleRows_empty (nothing : ∀ name, visibleRows lsn stores name = []) :
    visibleRows lsn (Dict.empty : Dict String (Store id_column)) = visibleRows lsn stores := by
  funext name
  rw [nothing name]
  rfl

end Directories

section Steps

open Call

variable (lsn : Nat)

theorem undisturbed_createNodes (iri name : String) :
    Relates (Undisturbed lsn) (createNodes iri name) := by
  apply Relates.attempt
  intro db _ after happens reached
  cases opened : db.nodeStoreOf iri name with
  | error raised =>
    rw [opened] at happens
    cases happens
  | ok found =>
    rw [opened] at happens
    cases found with
    | some store =>
      cases happens
      exact ⟨reached, rfl, rfl⟩
    | none =>
      cases happens
      exact ⟨reached, visibleRows_set_create (nodeStoreOf_none opened), rfl⟩

theorem undisturbed_createEdges (iri name : String) :
    Relates (Undisturbed lsn) (createEdges iri name) := by
  apply Relates.attempt
  intro db _ after happens reached
  cases opened : db.edgeStoreOf iri name with
  | error raised =>
    rw [opened] at happens
    cases happens
  | ok found =>
    rw [opened] at happens
    cases found with
    | some store =>
      cases happens
      exact ⟨reached, rfl, rfl⟩
    | none =>
      cases happens
      exact ⟨reached, rfl, visibleRows_set_create (edgeStoreOf_none opened)⟩

theorem undisturbed_appendNodes (name : String) (table : Table) :
    Relates (Undisturbed lsn) (appendNodes name table) := by
  intro db
  rw [appendNodes_run]
  intro reached
  have ticked : lsn ≤ db.tick.clock := Nat.le_succ_of_le reached
  cases happens : db.tick.appendNodesAt name table with
  | error raised => exact ⟨ticked, rfl, rfl⟩
  | ok pair =>
    obtain ⟨ref, after⟩ := pair
    obtain ⟨store, stored, _, _, accepts, rfl⟩ := appendNodesAt_ok happens
    exact ⟨ticked, visibleRows_set_push stored accepts (Nat.lt_succ_of_le reached), rfl⟩

theorem undisturbed_appendEdges (name : String) (table : Table) (repeated : List String) :
    Relates (Undisturbed lsn) (appendEdges name table repeated) := by
  intro db
  rw [appendEdges_run]
  intro reached
  have ticked : lsn ≤ db.tick.clock := Nat.le_succ_of_le reached
  cases happens : db.tick.appendEdgesAt name table repeated with
  | error raised => exact ⟨ticked, rfl, rfl⟩
  | ok pair =>
    obtain ⟨ref, after⟩ := pair
    obtain ⟨store, stored, _, _, accepts, rfl⟩ := appendEdgesAt_ok happens
    exact ⟨ticked, rfl, visibleRows_set_push stored accepts (Nat.lt_succ_of_le reached)⟩

/-- No step of an insertion disturbs a snapshot. -/
theorem undisturbed_steps : WriteSteps (Undisturbed lsn) where
  define_class _ := fun _ reached => ⟨reached, rfl, rfl⟩
  define_property _ _ := fun _ reached => ⟨reached, rfl, rfl⟩
  create_nodes := undisturbed_createNodes lsn
  create_edges := undisturbed_createEdges lsn
  append_nodes := undisturbed_appendNodes lsn
  append_edges := undisturbed_appendEdges lsn
  invalidate_all := fun _ reached => ⟨reached, rfl, rfl⟩
  invalidate_relation _ := fun _ reached => ⟨reached, rfl, rfl⟩
  remember _ _ _ := fun reached => ⟨reached, rfl, rfl⟩

end Steps

end Database

end CaracalDB
