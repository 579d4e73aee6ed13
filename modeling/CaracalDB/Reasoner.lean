import CaracalDB.Dict
import CaracalDB.Visibility
import CaracalDB.KeyTypes

/-!
# Inference of edges

The reasoner reads all pairs of an edge store into a set, works on the set, and appends
the pairs that it adds as a batch of the two endpoint columns, so a store with any other
column refuses them. It reads the store once: what later passes compose is in the set.
-/

namespace CaracalDB.Reasoner

open Mixed

/-! ## The reasoner -/

inductive InferRule where
  | symmetric
  | transitive
deriving DecidableEq

structure ReasonerReport where
  rule : InferRule
  property_iri : String
  added_edges : Nat
  iterations : Nat
  skipped_existing : Nat
deriving DecidableEq

/-- The payload of an `INFER_CLOSURE` record. -/
structure InferRecord where
  rule : InferRule
  property_iri : String
  added : Nat
  iterations : Nat
deriving DecidableEq

/-- An edge store with the log that the reasoner writes to, if there is one. -/
structure Session where
  store : StoreFiles
  wal : Option (List InferRecord)

/-- The order in which a set lists its members, which hashes decide. -/
structure Listing (Item : Type) where
  list : List Item → List Item
  perm : ∀ items, (list items).Perm items

/-- A set that lists its members in the order in which they were added. -/
def Listing.added {Item : Type} : Listing Item := { list := id, perm := .refl }

/-- `int(value)` -/
def asInt : Value → Except Raised Nat
  | .int number => .ok number.toNat
  | _ => .error (.typeError
      "int() argument must be a string, a bytes-like object or a real number, not 'NoneType'")

/-- `table[name].to_pylist()` -/
def tableColumn (fields : Schema) (table : List (Nat × List Value)) (name : String) :
    Except Raised (List Value) := do
  let _ ← fields.field name
  return table.map fun row => (Value.int row.1 :: row.2).getD (fields.names.idxOf name) .null

/-- The columns of `store.to_table()`, those of its first chunk. -/
def tableSchema (store : StoreFiles) : Schema :=
  store.chunks.head?.elim [] fun chunk => publicFields chunk.schema

/-- `_existing_edges(store)`; a set is the list of its members. -/
def existingEdges (store : StoreFiles) : Except Raised (List (Nat × Nat)) := do
  let table ← pythonToTable store
  if table = [] then return []
  let src ← tableColumn (tableSchema store) table SRC_COLUMN
  let dst ← tableColumn (tableSchema store) table DST_COLUMN
  let pairs ← (src.zip dst).mapM fun (s, d) => do return (← asInt s, ← asInt d)
  return pairs.eraseDups

def pairSchema : Schema :=
  [{ name := SRC_COLUMN, type := .uint64, nullable := true },
    { name := DST_COLUMN, type := .uint64, nullable := true }]

def pairValues (pair : Nat × Nat) : List Value := [.int pair.1, .int pair.2]

def pairBatch (pairs : List (Nat × Nat)) : Input :=
  { schema := pairSchema, batches := [pairs.map pairValues] }

/-- `_append_edges(store, pairs)`: the append has no LSN, so it takes the default one. -/
def appendEdges (store : StoreFiles) (pairs : List (Nat × Nat)) : Except Raised StoreFiles :=
  if pairs = [] then .ok store else pythonAppendEdges store (pairBatch pairs) 0

/-- `_wal_log(wal, rule, property_iri, added, iterations)` -/
def walLog (wal : Option (List InferRecord)) (record : InferRecord) : Option (List InferRecord) :=
  wal.map (· ++ [record])

/-- The loop of `infer_symmetric`: the additions and the number of pairs that it skips. -/
def mirrorLoop : List (Nat × Nat) → List (Nat × Nat) → List (Nat × Nat) → Nat →
    List (Nat × Nat) × Nat
  | [], _, additions, skipped => (additions, skipped)
  | (s, d) :: rest, existing, additions, skipped =>
      if (d, s) ∈ existing then mirrorLoop rest existing additions (skipped + 1)
      else mirrorLoop rest (existing ++ [(d, s)]) (additions ++ [(d, s)]) skipped

/-- `infer_symmetric(store, property_iri=..., wal=...)` -/
def inferSymmetric (order : Listing (Nat × Nat)) (property_iri : String) (session : Session) :
    Except Raised ReasonerReport × Session :=
  match existingEdges session.store with
  | .error raised => (.error raised, session)
  | .ok existing =>
    let (additions, skipped_existing) := mirrorLoop (order.list existing) existing [] 0
    match appendEdges session.store additions with
    | .error raised => (.error raised, session)
    | .ok store =>
      (.ok { rule := .symmetric, property_iri, added_edges := additions.length, iterations := 1
             skipped_existing },
        { store
          wal := walLog session.wal
            { rule := .symmetric, property_iri, added := additions.length, iterations := 1 } })

/-- `out_adj`, built from the listed edges. -/
def outAdjacency (listed : List (Nat × Nat)) : Dict Nat (List Nat) :=
  listed.foldl (fun out_adj (s, d) => out_adj.set s (((out_adj.get? s).getD []).insert d)) Dict.empty

/-- The pairs that the loops of a pass come to. -/
def composedPairs (order : Listing (Nat × Nat)) (targets : Listing Nat) (edges : List (Nat × Nat)) :
    List (Nat × Nat) :=
  let out_adj := outAdjacency (order.list edges)
  (order.list edges).flatMap fun (s, d) =>
    (targets.list ((out_adj.get? d).getD [])).map fun d2 => (s, d2)

def budgetError (triple_budget : Int) (property_iri : String) : Raised :=
  .caracal
    { code := "TF-6012"
      message := "transitive closure budget exhausted at " ++ toString triple_budget ++
        " new edges for " ++ Value.quoted property_iri }

/-- The loops of a pass: the edges with the additions, and the additions. -/
def composeLoop (triple_budget : Option Int) (property_iri : String) (total_new : Nat) :
    List (Nat × Nat) → List (Nat × Nat) → List (Nat × Nat) →
      Except Raised (List (Nat × Nat) × List (Nat × Nat))
  | [], edges, additions => .ok (edges, additions)
  | pair :: rest, edges, additions =>
      if pair ∈ edges then composeLoop triple_budget property_iri total_new rest edges additions
      else
        let additions := additions ++ [pair]
        match triple_budget.filter fun budget => budget ≤ ((total_new + additions.length : Nat) : Int) with
        | some budget => .error (budgetError budget property_iri)
        | none => composeLoop triple_budget property_iri total_new rest (edges ++ [pair]) additions

/-- `while iteration < max_iterations`, with the number of iterations that are left: what was added
in how many iterations, and the store. -/
def closureLoop (order : Listing (Nat × Nat)) (targets : Listing Nat) (triple_budget : Option Int)
    (property_iri : String) :
    Nat → List (Nat × Nat) → Nat → Nat → StoreFiles → Except Raised (Nat × Nat) × StoreFiles
  | 0, _, total_new, iteration, store => (.ok (total_new, iteration), store)
  | left + 1, edges, total_new, iteration, store =>
      match composeLoop triple_budget property_iri total_new (composedPairs order targets edges)
        edges [] with
      | .error raised => (.error raised, store)
      | .ok (edges, additions) =>
        if additions = [] then (.ok (total_new, iteration + 1), store)
        else
          match appendEdges store additions with
          | .error raised => (.error raised, store)
          | .ok store =>
            closureLoop order targets triple_budget property_iri left edges
              (total_new + additions.length) (iteration + 1) store

/-- `infer_transitive(store, property_iri=..., max_iterations=..., triple_budget=..., wal=...)` -/
def inferTransitive (order : Listing (Nat × Nat)) (targets : Listing Nat) (property_iri : String)
    (max_iterations : Int) (triple_budget : Option Int) (session : Session) :
    Except Raised ReasonerReport × Session :=
  if max_iterations ≤ 0 then
    (raiseCaracal "CDB-9510" "max_iterations must be positive", session)
  else
    match existingEdges session.store with
    | .error raised => (.error raised, session)
    | .ok edges =>
      match closureLoop order targets triple_budget property_iri max_iterations.toNat edges 0 0
        session.store with
      | (.error raised, store) => (.error raised, { session with store })
      | (.ok (total_new, iteration), store) =>
        (.ok { rule := .transitive, property_iri, added_edges := total_new, iterations := iteration
               skipped_existing := 0 },
          { store
            wal := walLog session.wal
              { rule := .transitive, property_iri, added := total_new, iterations := iteration } })

/-! ## Stores of edges -/

/-- The values of a row in the endpoint columns. -/
def ends (schema : Schema) (values : List Value) : Value × Value :=
  (values.getD (schema.names.idxOf SRC_COLUMN) .null, values.getD (schema.names.idxOf DST_COLUMN) .null)

/-- The rows of a store, without what the store adds to them. -/
def storedValues (store : StoreFiles) : List (List Value) :=
  store.chunks.flatMap fun chunk => chunk.batches.flatten.map ChunkRow.values

/-- A store that the Python engine wrote, with some columns and edges. -/
structure EdgeTable (store : StoreFiles) (schema : Schema) (edges : List (Nat × Nat)) : Prop where
  columns : ∀ chunk ∈ store.chunks, chunk.schema = pythonSchema .edges schema
  distinct : schema.names.Nodup
  unreserved : ¬ Reserved .edges schema.names
  endpoints : HasEndpoints schema
  rows : (storedValues store).map (ends schema) =
    edges.map fun edge => (Value.int edge.1, Value.int edge.2)

section Table

variable {store : StoreFiles} {schema : Schema} {edges pairs : List (Nat × Nat)}

theorem EdgeTable.shaped (table : EdgeTable store schema edges) {chunk : Chunk}
    (member : chunk ∈ store.chunks) :
    Shaped .edges chunk.schema (Engine.python.inner schema) := by
  rw [table.columns chunk member]
  exact Engine.python.shaped table.distinct table.unreserved

theorem EdgeTable.firstShaped (table : EdgeTable store schema edges) : FirstShaped .edges store :=
  fun _ isFirst => ⟨_, table.shaped (List.mem_of_mem_head? isFirst)⟩

/-- The columns of the table that is read: the id and the columns of the batches. -/
theorem public_pythonSchema (unreserved : ¬ Reserved .edges schema.names) :
    publicFields (pythonSchema .edges schema) =
      { name := EID_COLUMN, type := .uint64, nullable := true } :: Engine.python.inner schema := by
  have names := names_of_keys (Engine.python.keys_inner schema)
  have middle : publicFields (Engine.python.inner schema) = Engine.python.inner schema :=
    publicFields_of_unreserved (show ¬ Reserved .edges _ from names ▸ unreserved)
  have lsns : ([{ name := CREATED_LSN_COLUMN, type := .uint64, nullable := true },
      { name := DELETED_LSN_COLUMN, type := .uint64, nullable := true }] : Schema).filter (fun field =>
        decide (field.name ≠ CREATED_LSN_COLUMN ∧ field.name ≠ DELETED_LSN_COLUMN)) = [] := by decide
  rw [publicFields] at middle
  rw [publicFields, pythonSchema, List.cons_append, List.filter_cons, List.filter_append, lsns,
    List.append_nil]
  exact congrArg (List.cons _) middle

/-- A column of the table under a name of the batches. -/
theorem tableColumn_ok (distinct : schema.names.Nodup) (unreserved : ¬ Reserved .edges schema.names)
    {name : String} (among : name ∈ schema.names) (table : List (Nat × List Value)) :
    tableColumn (publicFields (pythonSchema .edges schema)) table name =
      .ok (table.map fun row => row.2.getD (schema.names.idxOf name) .null) := by
  have names := names_of_keys (Engine.python.keys_inner schema)
  have shown : Schema.names (publicFields (pythonSchema .edges schema)) = EID_COLUMN :: schema.names := by
    rw [public_pythonSchema unreserved, Schema.names, List.map_cons, ← names]
    rfl
  have noId : EID_COLUMN ≠ name := by
    rintro rfl
    exact unreserved (.inl among)
  have apart : Schema.names (publicFields (pythonSchema .edges schema)) |>.Nodup := by
    rw [shown]
    exact List.nodup_cons.mpr ⟨fun member => unreserved (.inl member), distinct⟩
  have listed : name ∈ Schema.names (publicFields (pythonSchema .edges schema)) := by
    rw [shown]
    exact List.mem_cons_of_mem _ among
  obtain ⟨field, member, rfl⟩ := List.mem_map.mp listed
  rw [tableColumn, field_of_mem apart member, ok_bind, shown, List.idxOf_cons_ne _ noId]
  rfl

theorem toTable_ok (table : EdgeTable store schema edges) :
    pythonToTable store = .ok (store.chunks.flatMap fun chunk =>
      chunk.batches.flatten.map ChunkRow.public) := by
  have scanned := pythonScan_ok fun chunk member => ⟨_, table.shaped member⟩
  rw [← scanned_rows]
  refine toTable_of_scan scanned (publicFields (pythonSchema .edges schema)) fun batch member => ?_
  obtain ⟨chunk, among, inside⟩ := List.mem_flatMap.mp member
  obtain ⟨_, _, rfl⟩ := List.mem_map.mp inside
  rw [table.columns chunk among]

/-- The reasoner reads the edges of a store, each once. -/
theorem existingEdges_ok (table : EdgeTable store schema edges) :
    existingEdges store = .ok edges.eraseDups := by
  have rows : ((store.chunks.flatMap fun chunk => chunk.batches.flatten.map ChunkRow.public).map
      Prod.snd).map (ends schema) = edges.map fun edge => (Value.int edge.1, Value.int edge.2) := by
    rw [← table.rows, storedValues, List.map_flatMap]
    simp only [List.map_map]
    rfl
  have first : (store.chunks.flatMap fun chunk => chunk.batches.flatten.map ChunkRow.public) ≠ [] →
      tableSchema store = publicFields (pythonSchema .edges schema) := by
    intro some_row
    obtain ⟨row, held⟩ := List.exists_mem_of_ne_nil _ some_row
    obtain ⟨chunk, member, _⟩ := List.mem_flatMap.mp held
    obtain ⟨chunk, chunks, stored⟩ := List.exists_cons_of_ne_nil (List.ne_nil_of_mem member)
    have schema := table.columns chunk (stored ▸ List.mem_cons_self)
    rw [tableSchema, stored, ← schema]
    rfl
  rw [existingEdges, toTable_ok table, ok_bind]
  generalize (store.chunks.flatMap fun chunk => chunk.batches.flatten.map ChunkRow.public) = read
    at rows first
  by_cases none : read = []
  · subst none
    rw [List.map_nil, List.map_nil] at rows
    rw [if_pos rfl, List.map_eq_nil_iff.mp rows.symm]
    rfl
  · have pairs : (read.map fun row => row.2.getD (schema.names.idxOf SRC_COLUMN) .null).zip
        (read.map fun row => row.2.getD (schema.names.idxOf DST_COLUMN) .null) =
          edges.map fun edge => (Value.int edge.1, Value.int edge.2) := by
      rw [← rows, List.zip_map', List.map_map]
      rfl
    have ints : (edges.map fun edge => (Value.int edge.1, Value.int edge.2)).mapM
        (fun (s, d) => do return (← asInt s, ← asInt d)) = .ok edges := by
      rw [List.mapM_map]
      exact (mapM_of_ok id edges fun _ _ => rfl).trans (congrArg Except.ok (List.map_id _))
    rw [if_neg none, first none,
      tableColumn_ok table.distinct table.unreserved (name_of_key table.endpoints.1), ok_bind,
      tableColumn_ok table.distinct table.unreserved (name_of_key table.endpoints.2), ok_bind, pairs,
      ints]
    rfl

/-! ## Appends -/

/-- The rows of a store with one more chunk of the Python engine. -/
theorem storedValues_push (store : StoreFiles) (outer : Schema) (rows : List (List Value))
    (created_lsn : Nat) :
    storedValues (store.push outer [rows] created_lsn) = storedValues store ++ rows := by
  rw [storedValues, StoreFiles.push, List.flatMap_append, List.flatMap_singleton,
    Visibility.numberBatches_flatten, List.map_map]
  refine congrArg (storedValues store ++ ·) ?_
  have values : (([rows] : List (List (List Value))).flatten.zipIdx store.next_id).map Prod.fst = rows := by
    rw [List.zipIdx_map_fst]
    exact List.append_nil rows
  exact values

/-- The names, types and order of the columns of pairs. -/
theorem pairSchema_facts : pairSchema.names.Nodup ∧ ¬ Reserved .edges pairSchema.names ∧
    HasEndpoints pairSchema :=
  ⟨by decide, by decide, List.mem_cons_self, List.mem_cons_of_mem _ List.mem_cons_self⟩

/-- A store without chunks has no edges, whatever its columns will be. -/
theorem edgeTable_new (facts : schema.names.Nodup ∧ ¬ Reserved .edges schema.names ∧
    HasEndpoints schema) : EdgeTable { next_id := 0, chunks := [] } schema [] :=
  ⟨nofun, facts.1, facts.2.1, facts.2.2, rfl⟩

/-- A batch of the two endpoint columns has the edges that it was made of. -/
theorem ends_pairValues (pairs : List (Nat × Nat)) : (pairs.map pairValues).map (ends pairSchema) =
    pairs.map fun pair => (Value.int pair.1, Value.int pair.2) := by
  rw [List.map_map]
  rfl

/-- The reasoner appends to a store of pairs, and the rows have no LSN. -/
theorem appendEdges_ok (table : EdgeTable store pairSchema edges) (some_pairs : pairs ≠ []) :
    appendEdges store pairs =
      .ok (store.push (pythonSchema .edges pairSchema) [pairs.map pairValues] 0) ∧
    EdgeTable (store.push (pythonSchema .edges pairSchema) [pairs.map pairValues] 0) pairSchema
      (edges ++ pairs) := by
  have rows : (pairBatch pairs).rows = pairs.map pairValues := List.append_nil _
  have decides : Decides _ (pythonAppendEdges store (pairBatch pairs) 0) _ _ :=
    pythonAppendEdges_decides (fun _ _ => table.distinct) table.firstShaped
  have accepts : Accepts .edges store (pairBatch pairs) := by
    refine ⟨?_, table.unreserved, (endpoints_iff _).mpr table.endpoints, fun chunk isFirst => ?_⟩
    · rw [rows]
      exact fun none => some_pairs (List.map_eq_nil_iff.mp none)
    · rw [table.columns chunk (List.mem_of_mem_head? isFirst)]
      rfl
  refine ⟨?_, ?_, table.distinct, table.unreserved, table.endpoints, ?_⟩
  · rw [appendEdges, if_neg some_pairs, decides.accepted accepts, rows]
    rfl
  · intro chunk member
    rcases List.mem_append.mp member with old | new
    · exact table.columns chunk old
    · rw [List.mem_singleton.mp new]
  · rw [storedValues_push, List.map_append, table.rows, ends_pairValues, List.map_append]

/-- Chunks of the Python engine have columns of the same names and types if their batches have. -/
theorem keys_pythonSchema {left right : Schema} (distinct : left.names.Nodup)
    (unreserved : ¬ Reserved .edges left.names) (distinctToo : right.names.Nodup)
    (unreservedToo : ¬ Reserved .edges right.names) :
    keys (pythonSchema .edges left) = keys (pythonSchema .edges right) ↔ keys left = keys right := by
  have keyed := (Engine.python.shaped distinct unreserved).keys_iff
    (Engine.python.shaped distinctToo unreservedToo)
  rwa [Engine.keys_inner, Engine.keys_inner] at keyed

/-- A store with another column, or with the endpoints in another order, refuses the pairs. -/
theorem appendEdges_refused (table : EdgeTable store schema edges) (some_edges : edges ≠ [])
    (some_pairs : pairs ≠ []) (other : keys schema ≠ keys pairSchema) :
    ∃ raised, appendEdges store pairs = .error raised := by
  have decides : Decides _ (pythonAppendEdges store (pairBatch pairs) 0) _ _ :=
    pythonAppendEdges_decides (fun _ _ => pairSchema_facts.1) table.firstShaped
  have refuses : ¬ Accepts .edges store (pairBatch pairs) := by
    rintro ⟨_, _, _, alike⟩
    have some_values : (storedValues store).map (ends schema) ≠ [] := by
      rw [table.rows]
      exact fun none => some_edges (List.map_eq_nil_iff.mp none)
    obtain ⟨row, held⟩ := List.exists_mem_of_ne_nil _ fun none =>
      some_values (List.map_eq_nil_iff.mpr none)
    obtain ⟨chunk, member, _⟩ := List.mem_flatMap.mp held
    obtain ⟨chunk, chunks, stored⟩ := List.exists_cons_of_ne_nil (List.ne_nil_of_mem member)
    have isFirst : chunk ∈ store.chunks.head? := by rw [stored]; rfl
    have same := alike chunk isFirst
    rw [table.columns chunk (List.mem_of_mem_head? isFirst)] at same
    exact other ((keys_pythonSchema table.distinct table.unreserved pairSchema_facts.1
      pairSchema_facts.2.1).mp same)
  obtain ⟨message, raised⟩ := decides.refused refuses
  exact ⟨_, by rw [appendEdges, if_neg some_pairs, raised]⟩

/-- Columns of the names and types of pairs make a store of pairs. -/
theorem EdgeTable.as_pairs (table : EdgeTable store schema edges)
    (same : keys schema = keys pairSchema) : EdgeTable store pairSchema edges := by
  obtain ⟨distinct, unreserved, endpoints⟩ := pairSchema_facts
  have names := names_of_keys same
  refine ⟨fun chunk member => ?_, distinct, unreserved, endpoints, ?_⟩
  · rw [table.columns chunk member]
    exact pythonSchema_congr same
  · rw [← table.rows]
    refine List.map_congr_left fun values _ => ?_
    rw [ends, ends, names]

end Table

/-! ## Loops -/

/-- Two edges compose to a pair. -/
def Composed (edges : List (Nat × Nat)) (pair : Nat × Nat) : Prop :=
  ∃ middle, (pair.1, middle) ∈ edges ∧ (middle, pair.2) ∈ edges

theorem mem_outAdjacency (listed : List (Nat × Nat)) (source target : Nat) :
    target ∈ ((outAdjacency listed).get? source).getD [] ↔ (source, target) ∈ listed := by
  have all (out_adj : Dict Nat (List Nat)) : target ∈ ((listed.foldl (fun out_adj (s, d) =>
      out_adj.set s (((out_adj.get? s).getD []).insert d)) out_adj).get? source).getD [] ↔
        target ∈ (out_adj.get? source).getD [] ∨ (source, target) ∈ listed := by
    induction listed generalizing out_adj with
    | nil => simp
    | cons edge listed inductionHypothesis =>
      rw [List.foldl_cons, inductionHypothesis, List.mem_cons, ← or_assoc]
      refine or_congr_left ?_
      by_cases same : source = edge.1
      · subst same
        rw [Dict.get_set_self, Option.getD_some, List.mem_insert_iff, or_comm, Prod.ext_iff]
        exact or_congr_right (and_iff_right rfl).symm
      · rw [Dict.get_set_of_ne _ same]
        refine (or_iff_left ?_).symm
        exact fun equal => same (congrArg Prod.fst equal)
  rw [outAdjacency, all]
  exact or_iff_right List.not_mem_nil

/-- A pass comes to what two edges compose to, in whatever order the sets list their members. -/
theorem mem_composedPairs (order : Listing (Nat × Nat)) (targets : Listing Nat)
    (edges : List (Nat × Nat)) (pair : Nat × Nat) :
    pair ∈ composedPairs order targets edges ↔ Composed edges pair := by
  rw [composedPairs, List.mem_flatMap]
  constructor
  · rintro ⟨⟨source, middle⟩, listed, among⟩
    obtain ⟨target, held, rfl⟩ := List.mem_map.mp among
    have next := (mem_outAdjacency _ _ _).mp ((targets.perm _).mem_iff.mp held)
    exact ⟨middle, (order.perm _).mem_iff.mp listed, (order.perm _).mem_iff.mp next⟩
  · rintro ⟨middle, first, second⟩
    refine ⟨(pair.1, middle), (order.perm _).mem_iff.mpr first, List.mem_map.mpr ⟨pair.2, ?_, rfl⟩⟩
    exact (targets.perm _).mem_iff.mpr
      ((mem_outAdjacency _ _ _).mpr ((order.perm _).mem_iff.mpr second))

/-- A pass adds the pairs it comes to that are no edges, each once, unless the budget is reached. -/
theorem composeLoop_spec (triple_budget : Option Int) (property_iri : String) (total_new : Nat)
    (candidates edges additions : List (Nat × Nat)) :
    ∃ added : List (Nat × Nat), added.Nodup ∧
      (∀ pair, pair ∈ added ↔ pair ∈ candidates ∧ pair ∉ edges) ∧
      ((∀ budget ∈ triple_budget, added = [] ∨
          ((total_new + additions.length + added.length : Nat) : Int) < budget) →
        composeLoop triple_budget property_iri total_new candidates edges additions =
          .ok (edges ++ added, additions ++ added)) ∧
      ∀ budget ∈ triple_budget, added ≠ [] →
        budget ≤ ((total_new + additions.length + added.length : Nat) : Int) →
          ∃ raised, composeLoop triple_budget property_iri total_new candidates edges additions =
            .error raised := by
  induction candidates generalizing edges additions with
  | nil =>
    refine ⟨[], List.nodup_nil, fun pair => by simp, fun _ => ?_, fun _ _ impossible => absurd rfl impossible⟩
    rw [composeLoop, List.append_nil, List.append_nil]
  | cons first candidates inductionHypothesis =>
    by_cases old : first ∈ edges
    · obtain ⟨added, once, members, passes, stops⟩ := inductionHypothesis edges additions
      refine ⟨added, once, fun pair => ?_, ?_, ?_⟩
      · rw [members, List.mem_cons]
        refine and_congr_left fun fresh => (or_iff_right ?_).symm
        rintro rfl
        exact fresh old
      · rw [composeLoop, if_pos old]
        exact passes
      · rw [composeLoop, if_pos old]
        exact stops
    · obtain ⟨added, once, members, passes, stops⟩ :=
        inductionHypothesis (edges ++ [first]) (additions ++ [first])
      have absent : first ∉ added := fun member =>
        ((members first).mp member).2 (List.mem_append_right _ List.mem_cons_self)
      refine ⟨first :: added, List.nodup_cons.mpr ⟨absent, once⟩, fun pair => ?_, fun within => ?_,
        fun budget given _ reached => ?_⟩
      · rw [List.mem_cons, members, List.mem_cons, List.mem_append, List.mem_singleton]
        by_cases same : pair = first
        · subst same
          simp [old]
        · simp [same]
      · have clear : triple_budget.filter (fun budget =>
            budget ≤ ((total_new + (additions ++ [first]).length : Nat) : Int)) = none := by
          cases triple_budget with
          | none => rfl
          | some budget =>
            rcases within budget rfl with none | below
            · cases none
            · have above : ¬ budget ≤ ((total_new + (additions ++ [first]).length : Nat) : Int) := by
                rw [List.length_append, List.length_singleton]
                rw [List.length_cons] at below
                omega
              simp only [Option.filter, above, decide_false]
              rfl
        rw [composeLoop, if_neg old]
        simp only [clear]
        rw [passes, List.append_assoc, List.append_assoc]
        · rfl
        · intro budget given
          rcases within budget given with none | below
          · cases none
          · right
            rw [List.length_append, List.length_singleton]
            rw [List.length_cons] at below
            omega
      · cases given
        rw [composeLoop, if_neg old]
        by_cases now : budget ≤ ((total_new + (additions ++ [first]).length : Nat) : Int)
        · refine ⟨budgetError budget property_iri, ?_⟩
          simp only [Option.filter, now, decide_true]
          rfl
        · have later : ∃ raised, composeLoop (some budget) property_iri total_new candidates
              (edges ++ [first]) (additions ++ [first]) = .error raised := by
            rw [List.length_append, List.length_singleton] at now
            rw [List.length_cons] at reached
            refine stops budget rfl ?_ ?_
            · rintro rfl
              rw [List.length_nil] at reached
              omega
            · rw [List.length_append, List.length_singleton]
              omega
          obtain ⟨raised, failed⟩ := later
          refine ⟨raised, ?_⟩
          simp only [Option.filter, now, decide_false]
          exact failed

/-- The loop over the pairs adds the reverses that are no edges, each once. -/
theorem mirrorLoop_spec (listed existing additions : List (Nat × Nat)) (skipped : Nat) :
    ∃ added : List (Nat × Nat), (mirrorLoop listed existing additions skipped).1 = additions ++ added ∧
      added.Nodup ∧ ∀ s d, (d, s) ∈ added ↔ (s, d) ∈ listed ∧ (d, s) ∉ existing := by
  induction listed generalizing existing additions skipped with
  | nil => exact ⟨[], (List.append_nil _).symm, List.nodup_nil, fun s d => by simp⟩
  | cons first listed inductionHypothesis =>
    obtain ⟨source, target⟩ := first
    rw [mirrorLoop]
    by_cases old : (target, source) ∈ existing
    · obtain ⟨added, loop, once, members⟩ := inductionHypothesis existing additions (skipped + 1)
      rw [if_pos old]
      refine ⟨added, loop, once, fun s d => ?_⟩
      rw [members, List.mem_cons]
      refine and_congr_left fun fresh => (or_iff_right ?_).symm
      intro same
      cases same
      exact fresh old
    · obtain ⟨added, loop, once, members⟩ :=
        inductionHypothesis (existing ++ [(target, source)]) (additions ++ [(target, source)]) skipped
      rw [if_neg old]
      have absent : (target, source) ∉ added := fun member =>
        ((members source target).mp member).2 (List.mem_append_right _ List.mem_cons_self)
      refine ⟨(target, source) :: added, ?_, List.nodup_cons.mpr ⟨absent, once⟩, fun s d => ?_⟩
      · rw [loop, List.append_assoc]
        rfl
      · rw [List.mem_cons, members, List.mem_cons, List.mem_append, List.mem_singleton]
        by_cases same : s = source ∧ d = target
        · obtain ⟨rfl, rfl⟩ := same
          simp [old]
        · have apart : (s, d) ≠ (source, target) := fun equal => same (Prod.mk.inj equal)
          have apartToo : (d, s) ≠ (target, source) := fun equal =>
            same ⟨(Prod.mk.inj equal).2, (Prod.mk.inj equal).1⟩
          simp [apart, apartToo]

end CaracalDB.Reasoner
