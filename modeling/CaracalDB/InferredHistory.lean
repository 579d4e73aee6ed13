import CaracalDB.Reasoner
import CaracalDB.KeyTypes
import Mathlib.Data.List.Dedup

/-!
# Inference and snapshots

Inferred edges are appended without an LSN, so their rows have LSN zero and every
snapshot shows them, whenever it was taken and however late the edges came that they were
inferred from. A snapshot stays the same only where an inference appends nothing.
-/

namespace CaracalDB.Reasoner

open Mixed Visibility

/-- A call of the reasoner. -/
inductive Inference where
  | symmetric
  | transitive (max_iterations : Int) (triple_budget : Option Int)

def infer (order : Listing (Nat × Nat)) (targets : Listing Nat) (property_iri : String) :
    Inference → Session → Except Raised ReasonerReport × Session
  | .symmetric => inferSymmetric order property_iri
  | .transitive max_iterations triple_budget =>
      inferTransitive order targets property_iri max_iterations triple_budget

/-- The rows of `store.scan(snapshot_lsn=...)`. -/
def rowsAt (store : StoreFiles) (snapshot_lsn : Nat) : Except Raised (List (List Value)) :=
  (scan store none (some snapshot_lsn)).map fun batches => batches.flatMap Prod.snd

/-- The pairs that two edges compose to and that are no edges, each once. -/
def missingPairs (edges : List (Nat × Nat)) : List (Nat × Nat) :=
  ((edges.flatMap fun first => (edges.filter fun second => second.1 = first.2).map fun second =>
    (first.1, second.2)).filter fun pair => pair ∉ edges).dedup

/-- Does an inference append to a store of some columns and edges? The store must have the two
endpoint columns alone, some pair must be missing, and the first pass must not reach the budget. -/
def Appends (schema : Schema) (edges : List (Nat × Nat)) : Inference → Prop
  | .symmetric => keys schema = keys pairSchema ∧ ∃ s d, (s, d) ∈ edges ∧ (d, s) ∉ edges
  | .transitive max_iterations triple_budget =>
      keys schema = keys pairSchema ∧ 0 < max_iterations ∧ missingPairs edges ≠ [] ∧
        ∀ budget ∈ triple_budget, ((missingPairs edges).length : Int) < budget

theorem mem_missingPairs {edges : List (Nat × Nat)} {pair : Nat × Nat} :
    pair ∈ missingPairs edges ↔ Composed edges pair ∧ pair ∉ edges := by
  rw [missingPairs, List.mem_dedup, List.mem_filter, decide_eq_true_eq]
  refine and_congr_left fun _ => ?_
  rw [List.mem_flatMap]
  constructor
  · rintro ⟨⟨source, middle⟩, first, among⟩
    obtain ⟨⟨start, target⟩, held, rfl⟩ := List.mem_map.mp among
    obtain ⟨second, follows⟩ := List.mem_filter.mp held
    obtain rfl : start = middle := of_decide_eq_true follows
    exact ⟨start, first, second⟩
  · rintro ⟨middle, first, second⟩
    refine ⟨_, first, List.mem_map.mpr ⟨_, List.mem_filter.mpr ⟨second, ?_⟩, rfl⟩⟩
    exact decide_eq_true rfl

/-! ## Snapshots -/

/-- The number of rows that a snapshot shows. -/
def visibleCount (store : StoreFiles) (snapshot_lsn : Nat) : Nat :=
  ((storedRows store).filter fun entry => writtenBy (some snapshot_lsn) entry.2).length

section Snapshots

variable {store : StoreFiles} {schema : Schema} {edges pairs : List (Nat × Nat)} {snapshot_lsn : Nat}

/-- A snapshot of a store of edges can be read, and it has the rows that were written up to it. -/
theorem rowsAt_ok (table : EdgeTable store schema edges) (snapshot_lsn : Nat) :
    ∃ rows, rowsAt store snapshot_lsn = .ok rows ∧ rows.length = visibleCount store snapshot_lsn := by
  have shaped : Log.Shaped .edges { store, rows := [] } := fun chunk member => ⟨_, table.shaped member⟩
  obtain ⟨batches, scanned⟩ := scan_answers shaped none (some snapshot_lsn) nofun
  refine ⟨_, by rw [rowsAt, scanned]; rfl, ?_⟩
  show (batches.flatMap Prod.snd).length = _
  rw [scan_rows scanned, List.length_map, visibleCount]

/-- Rows without an LSN are in every snapshot. -/
theorem visibleCount_push (store : StoreFiles) (outer : Schema) (rows : List (List Value))
    (snapshot_lsn : Nat) :
    visibleCount (store.push outer [rows] 0) snapshot_lsn =
      visibleCount store snapshot_lsn + rows.length := by
  have stored : storedRows (store.push outer [rows] 0) = storedRows store ++
      (rows.zipIdx store.next_id).map fun pair =>
        (outer.names, ({ id := pair.2, values := pair.1, created_lsn := 0 } : ChunkRow)) := by
    rw [storedRows, StoreFiles.push, List.flatMap_append, List.flatMap_singleton,
      numberBatches_flatten, List.flatten_singleton, List.map_map]
    rfl
  have shown : ∀ entry ∈ (rows.zipIdx store.next_id).map fun pair =>
      (outer.names, ({ id := pair.2, values := pair.1, created_lsn := 0 } : ChunkRow)),
      writtenBy (some snapshot_lsn) entry.2 = true := by
    intro entry member
    obtain ⟨row, _, rfl⟩ := List.mem_map.mp member
    exact decide_eq_true (Nat.zero_le snapshot_lsn)
  rw [visibleCount, stored, List.filter_append, List.filter_eq_self.mpr shown, List.length_append,
    List.length_map, List.length_zipIdx]
  rfl

/-- A store with more edges, all of which every snapshot shows. -/
def Extended (store after : StoreFiles) (stored appended : List (Nat × Nat)) : Prop :=
  EdgeTable after pairSchema (stored ++ appended) ∧
    ∀ snapshot_lsn, visibleCount after snapshot_lsn = visibleCount store snapshot_lsn + appended.length

theorem extended_refl (table : EdgeTable store pairSchema edges) : Extended store store edges [] := by
  refine ⟨?_, fun _ => rfl⟩
  rw [List.append_nil]
  exact table

theorem extended_append (table : EdgeTable store pairSchema edges) (some_pairs : pairs ≠ []) :
    ∃ after, appendEdges store pairs = .ok after ∧ Extended store after edges pairs := by
  obtain ⟨appends, tableAfter⟩ := appendEdges_ok table some_pairs
  refine ⟨_, appends, tableAfter, fun snapshot_lsn => ?_⟩
  rw [visibleCount_push, List.length_map]

theorem Extended.trans {after final : StoreFiles} {more : List (Nat × Nat)}
    (first : Extended store after edges pairs) (second : Extended after final (edges ++ pairs) more) :
    Extended store final edges (pairs ++ more) := by
  refine ⟨?_, fun snapshot_lsn => ?_⟩
  · rw [← List.append_assoc]
    exact second.1
  · rw [second.2, first.2, List.length_append, Nat.add_assoc]

/-- A store that was extended by some edge shows other rows at every snapshot. -/
theorem Extended.differs {after : StoreFiles} (table : EdgeTable store schema edges)
    (extended : Extended store after edges pairs) (some_pairs : pairs ≠ []) (snapshot_lsn : Nat) :
    rowsAt after snapshot_lsn ≠ rowsAt store snapshot_lsn := by
  obtain ⟨before, read, count⟩ := rowsAt_ok table snapshot_lsn
  obtain ⟨rows, readAfter, countAfter⟩ := rowsAt_ok extended.1 snapshot_lsn
  rw [read, readAfter]
  intro same
  cases same
  have positive := List.length_pos_of_ne_nil some_pairs
  have grown := extended.2 snapshot_lsn
  omega

/-- Whatever the loop comes to, it extends the store. -/
theorem closureLoop_extends (order : Listing (Nat × Nat)) (targets : Listing Nat)
    (triple_budget : Option Int) (property_iri : String) (left : Nat) (working : List (Nat × Nat))
    (table : EdgeTable store pairSchema edges) (total_new iteration : Nat) :
    ∃ appended, Extended store (closureLoop order targets triple_budget property_iri left working
      total_new iteration store).2 edges appended := by
  induction left generalizing store edges working total_new iteration with
  | zero => exact ⟨[], extended_refl table⟩
  | succ left inductionHypothesis =>
    rw [closureLoop]
    match composeLoop triple_budget property_iri total_new (composedPairs order targets working)
      working [] with
    | .error raised => exact ⟨[], extended_refl table⟩
    | .ok (working, additions) =>
      by_cases nothing : additions = []
      · simp only [nothing, if_true]
        exact ⟨[], extended_refl table⟩
      · obtain ⟨after, appends, extended⟩ := extended_append table nothing
        simp only [nothing, if_false, appends]
        obtain ⟨appended, rest⟩ := inductionHypothesis working extended.1
          (total_new + additions.length) (iteration + 1)
        exact ⟨additions ++ appended, extended.trans rest⟩

end Snapshots

/-! ## Inferences -/

section Infer

variable {store : StoreFiles} {schema : Schema} {edges : List (Nat × Nat)}
  {order : Listing (Nat × Nat)} {targets : Listing Nat} {property_iri : String}
  {wal : Option (List InferRecord)}

/-- What the first pass adds to the edges of a store, and whether it reaches the budget. -/
theorem first_pass (order : Listing (Nat × Nat)) (targets : Listing Nat) (property_iri : String)
    (edges : List (Nat × Nat)) (triple_budget : Option Int) :
    ∃ added : List (Nat × Nat), (added = [] ↔ missingPairs edges = []) ∧
      ((∀ budget ∈ triple_budget, missingPairs edges = [] ∨
          ((missingPairs edges).length : Int) < budget) →
        composeLoop triple_budget property_iri 0 (composedPairs order targets edges.eraseDups)
          edges.eraseDups [] = .ok (edges.eraseDups ++ added, added)) ∧
      ∀ budget ∈ triple_budget, missingPairs edges ≠ [] →
        budget ≤ ((missingPairs edges).length : Int) →
          ∃ raised, composeLoop triple_budget property_iri 0
            (composedPairs order targets edges.eraseDups) edges.eraseDups [] = .error raised := by
  obtain ⟨added, once, members, passes, stops⟩ := composeLoop_spec triple_budget property_iri 0
    (composedPairs order targets edges.eraseDups) edges.eraseDups []
  have alike : added.Perm (missingPairs edges) := by
    refine (List.perm_ext_iff_of_nodup once (List.nodup_dedup _)).mpr fun pair => ?_
    refine Iff.trans ?_ mem_missingPairs.symm
    rw [members, mem_composedPairs, Composed, Composed]
    simp only [List.mem_eraseDups]
  have empty : added = [] ↔ missingPairs edges = [] := by
    rw [← List.length_eq_zero_iff, ← List.length_eq_zero_iff, alike.length_eq]
  have sizes : 0 + ([] : List (Nat × Nat)).length + added.length = (missingPairs edges).length := by
    rw [← alike.length_eq]
    simp
  rw [sizes, empty] at passes
  rw [sizes] at stops
  refine ⟨added, empty, passes, fun budget given some_missing reached => ?_⟩
  exact stops budget given (fun none => some_missing (empty.mp none)) reached

/-- Appending nothing, or pairs to a store with other columns, leaves the store as it was. -/
theorem symmetric_idle (table : EdgeTable store schema edges)
    (idle : ¬ Appends schema edges .symmetric) :
    (inferSymmetric order property_iri { store, wal }).2.store = store := by
  obtain ⟨added, loop, _, members⟩ := mirrorLoop_spec (order.list edges.eraseDups) edges.eraseDups [] 0
  rw [inferSymmetric]
  simp only [existingEdges_ok table, loop, List.nil_append]
  by_cases nothing : added = []
  · rw [nothing, appendEdges, if_pos rfl]
  · obtain ⟨⟨d, s⟩, member⟩ := List.exists_mem_of_ne_nil _ nothing
    obtain ⟨listed, fresh⟩ := (members s d).mp member
    have held : (s, d) ∈ edges := List.mem_eraseDups.mp ((order.perm _).mem_iff.mp listed)
    have absent : (d, s) ∉ edges := fun old => fresh (List.mem_eraseDups.mpr old)
    have other : keys schema ≠ keys pairSchema := fun same => idle ⟨same, s, d, held, absent⟩
    obtain ⟨raised, refused⟩ := appendEdges_refused table (List.ne_nil_of_mem held) nothing other
    rw [refused]

/-- A missing reverse is appended. -/
theorem symmetric_appends (table : EdgeTable store schema edges)
    (appends : Appends schema edges .symmetric) :
    ∃ appended, appended ≠ [] ∧
      Extended store (inferSymmetric order property_iri { store, wal }).2.store edges appended := by
  obtain ⟨same, s, d, held, absent⟩ := appends
  obtain ⟨added, loop, _, members⟩ := mirrorLoop_spec (order.list edges.eraseDups) edges.eraseDups [] 0
  have some_added : added ≠ [] := by
    refine List.ne_nil_of_mem ((members s d).mpr ⟨(order.perm _).mem_iff.mpr ?_, ?_⟩)
    · exact List.mem_eraseDups.mpr held
    · exact fun old => absent (List.mem_eraseDups.mp old)
  obtain ⟨after, pushed, extended⟩ := extended_append (table.as_pairs same) some_added
  refine ⟨added, some_added, ?_⟩
  rw [inferSymmetric]
  simp only [existingEdges_ok table, loop, List.nil_append, pushed]
  exact extended

variable {max_iterations : Int} {triple_budget : Option Int}

theorem transitive_idle (table : EdgeTable store schema edges)
    (idle : ¬ Appends schema edges (.transitive max_iterations triple_budget)) :
    (inferTransitive order targets property_iri max_iterations triple_budget
      { store, wal }).2.store = store := by
  rw [inferTransitive]
  by_cases none : max_iterations ≤ 0
  · rw [if_pos none]
  · obtain ⟨left, passes⟩ : ∃ left, max_iterations.toNat = left + 1 :=
      Nat.exists_eq_succ_of_ne_zero (by omega)
    obtain ⟨added, empty, proceeds, stops⟩ := first_pass order targets property_iri edges triple_budget
    rw [if_neg none]
    -- the loop does not change the store in its first pass, and there is no other one
    have kept : ∃ result, closureLoop order targets triple_budget property_iri max_iterations.toNat
        edges.eraseDups 0 0 store = (result, store) := by
      rw [passes, closureLoop]
      by_cases complete : missingPairs edges = []
      · refine ⟨.ok (0, 1), ?_⟩
        rw [proceeds fun _ _ => .inl complete]
        simp only [empty.mpr complete, if_true]
      · by_cases within : ∀ budget ∈ triple_budget, ((missingPairs edges).length : Int) < budget
        · have other : keys schema ≠ keys pairSchema := fun same =>
            idle ⟨same, by omega, complete, within⟩
          have some_edges : edges ≠ [] := by
            rintro rfl
            exact complete rfl
          have some_added : added ≠ [] := fun nothing => complete (empty.mp nothing)
          obtain ⟨raised, refused⟩ := appendEdges_refused table some_edges some_added other
          refine ⟨.error raised, ?_⟩
          rw [proceeds fun budget given => .inr (within budget given)]
          simp only [some_added, if_false, refused]
        · obtain ⟨budget, given, reached⟩ : ∃ budget ∈ triple_budget,
              budget ≤ ((missingPairs edges).length : Int) := by
            by_contra clear
            exact within fun budget given => Int.not_le.mp fun reached => clear ⟨budget, given, reached⟩
          obtain ⟨raised, failed⟩ := stops budget given complete reached
          refine ⟨.error raised, ?_⟩
          rw [failed]
    obtain ⟨result, loop⟩ := kept
    simp only [existingEdges_ok table, loop]
    cases result <;> rfl

theorem transitive_appends (table : EdgeTable store schema edges)
    (appends : Appends schema edges (.transitive max_iterations triple_budget)) :
    ∃ appended, appended ≠ [] ∧ Extended store (inferTransitive order targets property_iri
      max_iterations triple_budget { store, wal }).2.store edges appended := by
  obtain ⟨same, positive, incomplete, within⟩ := appends
  obtain ⟨left, passes⟩ : ∃ left, max_iterations.toNat = left + 1 :=
    Nat.exists_eq_succ_of_ne_zero (by omega)
  obtain ⟨added, empty, proceeds, _⟩ := first_pass order targets property_iri edges triple_budget
  have some_added : added ≠ [] := fun nothing => incomplete (empty.mp nothing)
  obtain ⟨after, pushed, extended⟩ := extended_append (table.as_pairs same) some_added
  obtain ⟨appended, rest⟩ := closureLoop_extends order targets triple_budget property_iri left
    (edges.eraseDups ++ added) extended.1 (0 + added.length) (0 + 1)
  have loop : (closureLoop order targets triple_budget property_iri max_iterations.toNat
      edges.eraseDups 0 0 store) = closureLoop order targets triple_budget property_iri left
        (edges.eraseDups ++ added) (0 + added.length) (0 + 1) after := by
    rw [passes, closureLoop, proceeds fun budget given => .inr (within budget given)]
    simp only [some_added, if_false, pushed]
  have allowed : ¬ max_iterations ≤ 0 := by omega
  refine ⟨added ++ appended, fun none => some_added (List.append_eq_nil_iff.mp none).1, ?_⟩
  rw [inferTransitive, if_neg allowed]
  simp only [existingEdges_ok table, loop]
  have joined := extended.trans rest
  generalize closureLoop order targets triple_budget property_iri left
    (edges.eraseDups ++ added) (0 + added.length) (0 + 1) after = final at joined
  obtain ⟨result, last⟩ := final
  cases result <;> exact joined

/-- A snapshot of a store of edges shows the same rows before and after an inference exactly if the
inference appends nothing. -/
theorem history_kept (order : Listing (Nat × Nat)) (targets : Listing Nat) (property_iri : String)
    (table : EdgeTable store schema edges) (wal : Option (List InferRecord)) (inference : Inference)
    (snapshot_lsn : Nat) :
    rowsAt (infer order targets property_iri inference { store, wal }).2.store snapshot_lsn =
      rowsAt store snapshot_lsn ↔ ¬ Appends schema edges inference := by
  constructor
  · rintro same appends
    have grown : ∃ appended, appended ≠ [] ∧
        Extended store (infer order targets property_iri inference { store, wal }).2.store edges
          appended := by
      cases inference with
      | symmetric => exact symmetric_appends table appends
      | transitive max_iterations triple_budget => exact transitive_appends table appends
    obtain ⟨appended, some_edge, extended⟩ := grown
    exact extended.differs table some_edge snapshot_lsn same
  · intro idle
    have kept : (infer order targets property_iri inference { store, wal }).2.store = store := by
      cases inference with
      | symmetric => exact symmetric_idle table idle
      | transitive max_iterations triple_budget => exact transitive_idle table idle
    rw [kept]

end Infer

/-- A store with one edge, which was created at LSN seven. -/
def lateEdge : StoreFiles :=
  (Log.run .edges [{ engine := .python, input := pairBatch [(0, 1)], created_lsn := 7 }]).store

/-- Transitive inference on one edge appends nothing. -/
theorem lateEdge_kept :
    rowsAt (infer .added .added "follows" (.transitive 16 none) { store := lateEdge, wal := none }).2.store
      3 = rowsAt lateEdge 3 := by
  have table : EdgeTable lateEdge pairSchema [(0, 1)] := by
    obtain ⟨distinct, unreserved, endpoints⟩ := pairSchema_facts
    refine ⟨fun chunk member => ?_, distinct, unreserved, endpoints, rfl⟩
    rw [List.mem_singleton.mp member]
    rfl
  refine (history_kept .added .added "follows" table none (.transitive 16 none) 3).mpr ?_
  rintro ⟨_, _, some_missing, _⟩
  exact some_missing (by decide)

/-- Symmetric inference on it shows a snapshot an edge that had none before. -/
theorem lateEdge_mirrored : rowsAt lateEdge 3 = .ok [] ∧
    rowsAt (infer .added .added "follows" .symmetric { store := lateEdge, wal := none }).2.store 3 =
      .ok [[.int 1, .int 1, .int 0]] := by
  decide

/-! ## Reachable stores -/

/-- Every row of a batch has the ids of two nodes. -/
def Ended (input : Input) : Prop :=
  ∃ edges : List (Nat × Nat), input.rows.map (ends input.schema) =
    edges.map fun edge => (Value.int edge.1, Value.int edge.2)

/-- An append of the Python engine keeps a table of edges, with the columns of the first batch. -/
theorem edgeTable_append {store after : StoreFiles} {schema : Schema} {edges : List (Nat × Nat)}
    (table : EdgeTable store schema edges) {input : Input} {created_lsn : Nat}
    (appended : pythonAppendEdges store input created_lsn = .ok after)
    (distinct : Distinct .edges input) (ended : Ended input) :
    ∃ schema edges, EdgeTable after schema edges := by
  have decides : Decides _ (pythonAppendEdges store input created_lsn) _ _ :=
    pythonAppendEdges_decides distinct table.firstShaped
  have accepts : Accepts .edges store input := by
    by_contra refuses
    obtain ⟨message, raised⟩ := decides.refused refuses
    rw [raised] at appended
    cases appended
  rw [decides.accepted accepts] at appended
  cases appended
  obtain ⟨rows, unreserved, endpoints, alike⟩ := accepts
  obtain ⟨more, ended⟩ := ended
  have named := distinct rows unreserved
  have same : ∀ chunk ∈ store.chunks, chunk.schema = pythonSchema .edges input.schema ∧
      schema.names = input.schema.names := by
    intro chunk member
    obtain ⟨first, rest, stored⟩ := List.exists_cons_of_ne_nil (List.ne_nil_of_mem member)
    have isFirst : first ∈ store.chunks.head? := by rw [stored]; rfl
    have keyed := alike first isFirst
    rw [table.columns first (List.mem_of_mem_head? isFirst),
      keys_pythonSchema table.distinct table.unreserved named unreserved] at keyed
    exact ⟨(table.columns chunk member).trans (pythonSchema_congr keyed), names_of_keys keyed⟩
  have earlier : (storedValues store).map (ends input.schema) =
      (storedValues store).map (ends schema) := by
    refine List.map_congr_left fun values held => ?_
    obtain ⟨chunk, member, _⟩ := List.mem_flatMap.mp held
    rw [ends, ends, (same chunk member).2]
  refine ⟨input.schema, edges ++ more, fun chunk member => ?_, named, unreserved,
    (endpoints_iff _).mp endpoints, ?_⟩
  · rcases List.mem_append.mp member with old | new
    · exact (same chunk old).1
    · rw [List.mem_singleton.mp new]
  · rw [storedValues_push, List.map_append, earlier, table.rows, ended, List.map_append]

/-- Whatever users append through the Python engine, the store is a table of edges. -/
theorem edgeTable_run {operations : List Operation}
    (python : ∀ operation ∈ operations, operation.engine = .python)
    (distinct : ∀ operation ∈ operations, Distinct .edges operation.input)
    (ended : ∀ operation ∈ operations, Ended operation.input) :
    ∃ schema edges, EdgeTable (Log.run .edges operations).store schema edges := by
  have all (log : Log) (table : ∃ schema edges, EdgeTable log.store schema edges) :
      ∃ schema edges, EdgeTable (operations.foldl (Log.step .edges) log).store schema edges := by
    induction operations generalizing log with
    | nil => exact table
    | cons operation operations inductionHypothesis =>
      obtain ⟨isPython, others⟩ := List.forall_mem_cons.mp python
      obtain ⟨named, othersNamed⟩ := List.forall_mem_cons.mp distinct
      obtain ⟨given, othersGiven⟩ := List.forall_mem_cons.mp ended
      refine inductionHypothesis others othersNamed othersGiven _ ?_
      rw [Log.step]
      cases appended : operation.engine.append .edges log.store operation.input operation.created_lsn with
      | error raised => exact table
      | ok store =>
        obtain ⟨schema, edges, held⟩ := table
        rw [isPython] at appended
        exact edgeTable_append held appended named given
  exact all _ ⟨pairSchema, [], edgeTable_new pairSchema_facts⟩

end CaracalDB.Reasoner
