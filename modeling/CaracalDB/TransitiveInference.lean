import CaracalDB.Reasoner
import CaracalDB.Walks

/-!
# Transitive inference

A pass composes the edges that it starts with, so it halves what is left of every walk.
What it adds are ends of walks of the edges of the store, none of them twice. After some
passes every walk that is no longer than two to their number is an edge, and a pass that
adds nothing shows that the edges are closed.
-/

namespace CaracalDB.Reasoner

open Mixed Relation Walks

/-- The relation of some edges. -/
def Related (edges : List (Nat × Nat)) (source target : Nat) : Prop := (source, target) ∈ edges

/-- Edges that compose to edges only. -/
def Closed (edges : List (Nat × Nat)) : Prop :=
  ∀ source middle target, Related edges source middle → Related edges middle target →
    Related edges source target

/-- What the passes of a loop do to the edges of a store. -/
structure Inferred (stored appended : List (Nat × Nat)) (passes : Nat) : Prop where
  once : appended.Nodup
  new : ∀ pair ∈ appended, pair ∉ stored
  sound : ∀ pair ∈ appended, TransGen (Related stored) pair.1 pair.2
  complete : ∀ length source target, 0 < length → length ≤ 2 ^ passes →
    Walk (Related stored) length source target → (source, target) ∈ stored ++ appended

/-- A pass that adds nothing shows that the edges are closed. -/
theorem inferred_nothing {stored : List (Nat × Nat)} (closed : Closed stored) (passes : Nat) :
    Inferred stored [] passes := by
  refine ⟨List.nodup_nil, nofun, nofun, fun length source target positive _ walk => ?_⟩
  obtain ⟨length, rfl⟩ := Nat.exists_eq_succ_of_ne_zero positive.ne'
  exact List.mem_append_left _ (walk.closed closed)

/-- A pass, and what further passes do. -/
theorem Inferred.pass {stored added appended : List (Nat × Nat)} {passes : Nat}
    (once : added.Nodup) (members : ∀ pair, pair ∈ added ↔ Composed stored pair ∧ pair ∉ stored)
    (rest : Inferred (stored ++ added) appended passes) :
    Inferred stored (added ++ appended) (passes + 1) := by
  have reaches (source target : Nat) (related : Related (stored ++ added) source target) :
      TransGen (Related stored) source target := by
    rcases List.mem_append.mp related with old | new
    · exact .single old
    · obtain ⟨⟨middle, first, second⟩, _⟩ := (members _).mp new
      exact .tail (.single first) second
  refine ⟨?_, ?_, ?_, ?_⟩
  · refine List.nodup_append.mpr ⟨once, rest.once, ?_⟩
    rintro pair isAdded _ isAppended rfl
    exact rest.new pair isAppended (List.mem_append_right _ isAdded)
  · intro pair member
    rcases List.mem_append.mp member with isAdded | isAppended
    · exact ((members pair).mp isAdded).2
    · exact fun old => rest.new pair isAppended (List.mem_append_left _ old)
  · intro pair member
    rcases List.mem_append.mp member with isAdded | isAppended
    · exact reaches _ _ (List.mem_append_right _ isAdded)
    · exact TransGen.closed reaches _ _ (rest.sound pair isAppended)
  · intro length source target positive within walk
    rw [← List.append_assoc]
    refine rest.complete ((length + 1) / 2) source target (by omega) ?_ ?_
    · rw [Nat.pow_succ] at within
      omega
    · refine walk.halved (fun _ _ old => List.mem_append_left _ old) fun start middle stop first second => ?_
      by_cases old : (start, stop) ∈ stored
      · exact List.mem_append_left _ old
      · exact List.mem_append_right _ ((members _).mpr ⟨⟨middle, first, second⟩, old⟩)

/-- The loop appends what its passes infer, and it counts what it appends. -/
theorem closureLoop_ok (order : Listing (Nat × Nat)) (targets : Listing Nat) (property_iri : String)
    (left : Nat) {store : StoreFiles} {stored edges : List (Nat × Nat)}
    (table : EdgeTable store pairSchema stored) (same : ∀ pair, pair ∈ edges ↔ pair ∈ stored)
    (total_new iteration : Nat) :
    ∃ appended passes after, closureLoop order targets none property_iri left edges total_new
        iteration store = (.ok (total_new + appended.length, iteration + passes), after) ∧
      EdgeTable after pairSchema (stored ++ appended) ∧ Inferred stored appended left ∧
        (passes < left → Closed (stored ++ appended)) := by
  induction left generalizing store stored edges total_new iteration with
  | zero =>
    refine ⟨[], 0, store, rfl, ?_, ⟨List.nodup_nil, nofun, nofun, ?_⟩, nofun⟩
    · rw [List.append_nil]
      exact table
    · intro length source target positive within walk
      obtain rfl : length = 1 := by
        rw [Nat.pow_zero] at within
        omega
      exact List.mem_append_left _ (walk_one.mp walk)
  | succ left inductionHypothesis =>
    obtain ⟨added, once, members, passes, _⟩ := composeLoop_spec none property_iri total_new
      (composedPairs order targets edges) edges []
    have composed (pair : Nat × Nat) : pair ∈ added ↔ Composed stored pair ∧ pair ∉ stored := by
      rw [members, mem_composedPairs, Composed, Composed]
      simp only [same]
    rw [closureLoop, passes nofun]
    by_cases nothing : added = []
    · have closed : Closed stored := by
        intro source middle target first second
        by_contra absent
        have member := (composed (source, target)).mpr ⟨⟨middle, first, second⟩, absent⟩
        rw [nothing] at member
        cases member
      refine ⟨[], 1, store, ?_, ?_, inferred_nothing closed _, fun _ => ?_⟩
      · rw [nothing]
        rfl
      · rw [List.append_nil]
        exact table
      · rw [List.append_nil]
        exact closed
    · obtain ⟨appends, tableAfter⟩ := appendEdges_ok table nothing
      have sameAfter (pair : Nat × Nat) : pair ∈ edges ++ added ↔ pair ∈ stored ++ added := by
        rw [List.mem_append, List.mem_append, same]
      obtain ⟨appended, count, after, loop, final, inferred, closed⟩ :=
        inductionHypothesis tableAfter sameAfter (total_new + added.length) (iteration + 1)
      refine ⟨added ++ appended, count + 1, after, ?_, ?_, inferred.pass once composed, fun early => ?_⟩
      · simp only [List.nil_append, nothing, if_false, appends]
        rw [loop, List.length_append]
        simp only [Nat.add_assoc, Nat.add_comm, Nat.add_left_comm]
      · rw [← List.append_assoc]
        exact final
      · rw [← List.append_assoc]
        exact closed (Nat.lt_of_succ_lt_succ early)

/-- No simple route between two vertices is longer than some number of edges. -/
def RoutesWithin (edges : List (Nat × Nat)) (longest : Nat) : Prop :=
  ∀ source vertices target, SimpleRoute (Related edges) source vertices target →
    vertices.length ≤ longest

/-- Edges that have what short walks join are closed if no simple route is longer. -/
theorem Inferred.closed {stored appended : List (Nat × Nat)} {passes : Nat}
    (inferred : Inferred stored appended passes) (within : RoutesWithin stored (2 ^ passes)) :
    Closed (stored ++ appended) := by
  have reaches (source target : Nat) (related : Related (stored ++ appended) source target) :
      TransGen (Related stored) source target := by
    rcases List.mem_append.mp related with old | new
    · exact .single old
    · exact inferred.sound _ new
  intro source middle target first second
  obtain ⟨vertices, some_vertex, simple⟩ :=
    simple_of_transGen ((reaches _ _ first).trans (reaches _ _ second))
  exact inferred.complete vertices.length source target (List.length_pos_of_ne_nil some_vertex)
    (within _ _ _ simple) simple.route.walk

/-- On a store of pairs, transitive inference without a budget appends pairs that are not there, each
once and all in the transitive closure, and counts them. Behind some passes the store has the ends
of all walks of up to two to their number of edges, and it is closed if the inference stopped
earlier or no simple route is longer. -/
theorem transitive_inference (order : Listing (Nat × Nat)) (targets : Listing Nat)
    (property_iri : String) {store : StoreFiles} {edges : List (Nat × Nat)}
    (table : EdgeTable store pairSchema edges) {max_iterations : Nat} (positive : 1 ≤ max_iterations)
    (wal : Option (List InferRecord)) :
    ∃ report after appended, inferTransitive order targets property_iri max_iterations none
        { store, wal } = (.ok report, after) ∧
      EdgeTable after.store pairSchema (edges ++ appended) ∧ appended.Nodup ∧
      (∀ pair ∈ appended, pair ∉ edges ∧ TransGen (Related edges) pair.1 pair.2) ∧
      report.added_edges = appended.length ∧
      (∀ length source target, 0 < length → length ≤ 2 ^ max_iterations →
        Walk (Related edges) length source target → (source, target) ∈ edges ++ appended) ∧
      (report.iterations < max_iterations ∨ RoutesWithin edges (2 ^ max_iterations) →
        Closed (edges ++ appended)) := by
  have same (pair : Nat × Nat) : pair ∈ edges.eraseDups ↔ pair ∈ edges := List.mem_eraseDups
  obtain ⟨appended, passes, after, loop, final, inferred, early⟩ :=
    closureLoop_ok order targets property_iri max_iterations table same 0 0
  have allowed : ¬ (max_iterations : Int) ≤ 0 := by omega
  obtain ⟨report, session, run, rfl, added, iterations⟩ : ∃ report session,
      inferTransitive order targets property_iri max_iterations none { store, wal } =
        (.ok report, session) ∧ session.store = after ∧ report.added_edges = appended.length ∧
          report.iterations = passes := by
    rw [inferTransitive, if_neg allowed]
    simp only [existingEdges_ok table, Int.toNat_natCast, loop]
    exact ⟨_, _, rfl, rfl, Nat.zero_add _, Nat.zero_add _⟩
  refine ⟨report, session, appended, run, final, inferred.once, fun pair member =>
    ⟨inferred.new pair member, inferred.sound pair member⟩, added, inferred.complete, ?_⟩
  rintro (stopped | within)
  · exact early (iterations ▸ stopped)
  · exact inferred.closed within

/-- A store with the edges of a path, written by one append. -/
def pathStore : StoreFiles :=
  StoreFiles.push { next_id := 0, chunks := [] } (pythonSchema .edges pairSchema)
    [[(0, 1), (1, 2)].map pairValues] 0

theorem pathStore_table : EdgeTable pathStore pairSchema [(0, 1), (1, 2)] :=
  (appendEdges_ok (edgeTable_new pairSchema_facts) (List.cons_ne_nil _ _)).2

/-- On a path of two edges one pass adds the pair of its ends. -/
theorem path_inferred : ∃ report after appended,
    inferTransitive .added .added "follows" 1 none { store := pathStore, wal := none } =
      (.ok report, after) ∧ EdgeTable after.store pairSchema ([(0, 1), (1, 2)] ++ appended) ∧
        (0, 2) ∈ [(0, 1), (1, 2)] ++ appended := by
  obtain ⟨report, after, appended, run, table, _, _, _, complete, _⟩ :=
    transitive_inference .added .added "follows" pathStore_table (le_refl 1) none
  refine ⟨report, after, appended, run, table, complete 2 0 2 Nat.zero_lt_two (le_refl 2) ?_⟩
  exact .further (walk_one.mpr List.mem_cons_self) (List.mem_cons_of_mem _ List.mem_cons_self)

end CaracalDB.Reasoner
