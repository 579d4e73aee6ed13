import CaracalDB.CsrSearch
import CaracalDB.VarPath

/-!
# Walks of the Rust engine

The queue loop of the Rust engine knows a vertex together with its depth, so it comes to
every vertex once for each length of a walk that leads there. On a graph it ends after
as many turns as there are vertices and depths, and its rows are the walks whose lengths
are in the range.
-/

namespace CaracalDB.KHop

open Graph Walks VarPath

/-- The adjacency that the Rust engine has of a graph. -/
def ofArcs (with_eids : Bool) (arcs : List Arc) (vertices : Nat) : Graph.CsrFile where
  num_vertices := vertices
  num_edges := arcs.length
  flags := if with_eids then CSR_FLAG_HAS_EIDS else 0
  offsets := (CsrFile.build with_eids arcs vertices).offsets
  neighbors := (CsrFile.build with_eids arcs vertices).neighbors
  eids := (CsrFile.build with_eids arcs vertices).eids

section Graph

variable {arcs : List Arc} {vertices : Nat} {with_eids : Bool}

theorem ofArcs_size (with_eids : Bool) (arcs : List Arc) (vertices : Nat) :
    (ofArcs with_eids arcs vertices).offsets.length = vertices + 1 := by
  simp [ofArcs, CsrFile.build, CsrFile.counts]

/-- The offset of a vertex is the number of edges from the vertices before it. -/
theorem ofArcs_offset (with_eids : Bool) (arcs : List Arc) {place : Nat} (bound : place ≤ vertices) :
    (ofArcs with_eids arcs vertices).offsets[place]? =
      some (arcs.filter fun arc => arc.src < place).length := by
  have size := ofArcs_size with_eids arcs vertices
  have within : place < (ofArcs with_eids arcs vertices).offsets.length := by omega
  have offset := CsrFile.offset_build with_eids arcs bound
  rw [List.getD_eq_getElem?_getD] at offset
  change ((ofArcs with_eids arcs vertices).offsets[place]?).getD 0 = _ at offset
  rw [List.getElem?_eq_getElem within] at offset ⊢
  exact congrArg some offset

variable (with_eids) in
theorem ofArcs_shaped (inside : ∀ arc ∈ arcs, arc.src < vertices ∧ arc.dst < vertices) :
    (ofArcs with_eids arcs vertices).Shaped := by
  have size := ofArcs_size with_eids arcs vertices
  have all : (arcs.filter fun arc => arc.src < vertices) = arcs :=
    List.filter_eq_self.mpr fun arc member => decide_eq_true (inside arc member).1
  have neighbors : (ofArcs with_eids arcs vertices).neighbors.length = arcs.length :=
    CsrFile.num_edges_build with_eids arcs vertices
  refine ⟨size, neighbors, ?_, fun eids given => ?_⟩
  · rw [List.getLast?_eq_getElem?, size, Nat.add_sub_cancel, ofArcs_offset with_eids arcs (Nat.le_refl vertices),
      all]
    rfl
  · cases with_eids with
    | false => cases given
    | true =>
      cases given
      simp [ofArcs, CsrFile.build]

variable (with_eids) in
theorem ofArcs_sound (inside : ∀ arc ∈ arcs, arc.src < vertices ∧ arc.dst < vertices) :
    (ofArcs with_eids arcs vertices).Sound := by
  have size := ofArcs_size with_eids arcs vertices
  constructor
  · rw [List.pairwise_iff_getElem]
    intro low high lowWithin highWithin before
    have first := ofArcs_offset with_eids arcs (show low ≤ vertices by omega)
    have second := ofArcs_offset with_eids arcs (show high ≤ vertices by omega)
    rw [List.getElem?_eq_getElem lowWithin] at first
    rw [List.getElem?_eq_getElem highWithin] at second
    rw [Option.some.inj first, Option.some.inj second]
    refine (List.monotone_filter_right arcs fun arc below => ?_).length_le
    simp only [decide_eq_true_eq] at below ⊢
    omega
  · intro index node _ held
    obtain ⟨arc, stored, rfl⟩ := List.mem_map.mp (List.mem_of_getElem? held)
    exact (inside arc ((ranked_perm Arc.src arcs).mem_iff.mp stored)).2

variable (with_eids) in
/-- The edges of the adjacency are the edges of the graph. -/
theorem ofArcs_linked (inside : ∀ arc ∈ arcs, arc.src < vertices ∧ arc.dst < vertices)
    (source target : Nat) :
    Linked (ofArcs with_eids arcs vertices) source target ↔ Edge arcs source target := by
  by_cases known : source < vertices
  · have fits : (CsrFile.build with_eids arcs vertices).offsets.getD source 0 +
        (targets arcs source).length ≤ _ := slice_within with_eids known
    have degree : (CsrFile.build with_eids arcs vertices).offsets.getD (source + 1) 0 - _ =
        (targets arcs source).length := degree_targets with_eids known
    have slice := map_range'_getD (CsrFile.build with_eids arcs vertices).neighbors _ _ fits
    have held : _ = targets arcs source := slice_targets with_eids known
    rw [degree] at held
    have reads : target ∈ targets arcs source ↔ target ∈ (List.range' _ _).map _ :=
      iff_of_eq (congrArg (target ∈ ·) (slice.trans held).symm)
    rw [← mem_targets, reads, List.mem_map, Linked]
    refine exists_congr fun index => ?_
    rw [EdgeAt, ← and_assoc]
    show ((CsrFile.build with_eids arcs vertices).offsets.getD source 0 ≤ index ∧
      index < (CsrFile.build with_eids arcs vertices).offsets.getD (source + 1) 0) ∧
        (CsrFile.build with_eids arcs vertices).neighbors[index]? = some target ↔ _
    have range : ((CsrFile.build with_eids arcs vertices).offsets.getD source 0 ≤ index ∧
        index < (CsrFile.build with_eids arcs vertices).offsets.getD (source + 1) 0) ↔
          index ∈ List.range' ((CsrFile.build with_eids arcs vertices).offsets.getD source 0)
            (targets arcs source).length := by
      rw [List.mem_range'_1]
      omega
    rw [range]
    refine and_congr_right fun member => ?_
    have bounds := List.mem_range'_1.mp member
    have within : index < (CsrFile.build with_eids arcs vertices).neighbors.length := by omega
    rw [List.getD_eq_getElem?_getD, List.getElem?_eq_getElem within]
    simp
  · constructor
    · rintro ⟨index, _, below, _⟩
      have size := ofArcs_size with_eids arcs vertices
      rw [List.getD_eq_getElem?_getD, List.getElem?_eq_none (by omega)] at below
      cases below
    · rintro ⟨arc, stored, rfl, _⟩
      exact absurd (inside arc stored).1 known

/-- What tells the rows of the loop apart. -/
def rowId (row : KHopRow) : Nat × Nat × Nat := (row.seed, row.node, row.depth)

variable (with_eids) in
/-- The rows of the engine are the walks from the seeds whose lengths are in the range. -/
theorem csrKHop_rows (inside : ∀ arc ∈ arcs, arc.src < vertices ∧ arc.dst < vertices)
    {seeds : List Nat} (vertex_seeds : ∀ seed ∈ seeds, seed < vertices) {min_depth max_depth : Nat}
    (range : min_depth ≤ max_depth) {fuel : Nat} (enough : vertices * (max_depth + 1) < fuel) :
    ∃ rows, csrKHop (ofArcs with_eids arcs vertices) seeds min_depth max_depth fuel = .ok rows ∧
      ∀ origin node depth, (origin, node, depth) ∈ rows.map rowId ↔ origin ∈ seeds ∧
        min_depth ≤ depth ∧ depth ≤ max_depth ∧ Walk (Edge arcs) depth origin node := by
  have shaped := ofArcs_shaped with_eids inside
  have sound := ofArcs_sound with_eids inside
  have edges : Linked (ofArcs with_eids arcs vertices) = Edge arcs :=
    funext₂ fun source target => propext (ofArcs_linked with_eids inside source target)
  obtain ⟨rowsOf, spec⟩ := exists_rowsOf shaped sound min_depth max_depth
  refine ⟨seeds.flatMap rowsOf, ?_, fun origin node depth => ?_⟩
  · exact csrKHop_seeds range rowsOf fun rows seed member =>
      (spec seed (vertex_seeds seed member)).2 fuel enough rows
  · rw [← edges, List.mem_map]
    constructor
    · rintro ⟨row, member, same⟩
      obtain ⟨seed, isSeed, own⟩ := List.mem_flatMap.mp member
      have hops := (spec seed (vertex_seeds seed isSeed)).1
      cases same
      rw [hops.origin row own]
      exact ⟨isSeed, (hops.exact row.node row.depth).mp (List.mem_map_of_mem own)⟩
    · rintro ⟨isSeed, walked⟩
      have hops := (spec origin (vertex_seeds origin isSeed)).1
      obtain ⟨row, own, key⟩ := List.mem_map.mp ((hops.exact node depth).mpr walked)
      cases key
      exact ⟨row, List.mem_flatMap.mpr ⟨origin, isSeed, own⟩, by rw [rowId, hops.origin row own]⟩

end Graph

/-! ## The two operators -/

/-- Some walk in the range has the ends of a walk that is shorter than the range, but not empty. -/
def Shadowed (arcs : List Arc) (seeds : List Nat) (hop_min hop_max : Nat) : Prop :=
  ∃ seed ∈ seeds, ∃ stop length, hop_min ≤ length ∧ length ≤ hop_max ∧
    Walk (Edge arcs) length seed stop ∧
      ∃ shorter, 0 < shorter ∧ shorter < hop_min ∧ Walk (Edge arcs) shorter seed stop

/-- A seed and a vertex are joined by a walk in the range. -/
def Joined (arcs : List Arc) (seeds : List Nat) (hop_min hop_max seed stop : Nat) : Prop :=
  seed ∈ seeds ∧ ∃ length, hop_min ≤ length ∧ length ≤ hop_max ∧ Walk (Edge arcs) length seed stop

/-- Without a shadow the shortest walk in the range is fresh. -/
theorem fresh_of_walk {arcs : List Arc} {hop_min hop_max seed stop length : Nat}
    (atLeast : hop_min ≤ length) (within : length ≤ hop_max)
    (walk : Walk (Edge arcs) length seed stop)
    (clear : ∀ shorter, 0 < shorter → shorter < hop_min → ¬ Walk (Edge arcs) shorter seed stop) :
    ∃ least, hop_min ≤ least ∧ least ≤ hop_max ∧ Fresh arcs (min hop_min 1) least seed stop := by
  induction length using Nat.strong_induction_on with
  | h length inductionHypothesis =>
    by_cases fresh : Fresh arcs (min hop_min 1) length seed stop
    · exact ⟨length, atLeast, within, fresh⟩
    · obtain ⟨shorter, above, below, again⟩ : ∃ shorter, min hop_min 1 ≤ shorter ∧
          shorter < length ∧ Walk (Edge arcs) shorter seed stop := by
        by_contra none
        exact fresh ⟨walk, fun shorter above below again => none ⟨shorter, above, below, again⟩⟩
      by_cases inside : hop_min ≤ shorter
      · exact inductionHypothesis shorter below inside (by omega) again
      · exact absurd again (clear shorter (by omega) (Nat.not_le.mp inside))

/-- What is emitted are the pairs that are joined exactly if no walk is shadowed. -/
theorem emitted_joined {arcs : List Arc} {seeds : List Nat} {hop_min hop_max : Nat}
    {out : List (Nat × Nat)} (emitted : Emitted arcs seeds hop_min (min hop_min 1) hop_max out) :
    (∀ seed stop, (seed, stop) ∈ out ↔ Joined arcs seeds hop_min hop_max seed stop) ↔
      ¬ Shadowed arcs seeds hop_min hop_max := by
  constructor
  · rintro all ⟨seed, isSeed, stop, length, atLeast, within, walk, shorter, positive, below, again⟩
    have given := (all seed stop).mpr ⟨isSeed, length, atLeast, within, walk⟩
    obtain ⟨_, least, above, _, _, none⟩ := (emitted.2 seed stop).mp given
    exact none shorter (by omega) (by omega) again
  · intro clear seed stop
    rw [emitted.2]
    refine and_congr_right fun isSeed => ?_
    constructor
    · rintro ⟨length, atLeast, within, walk, _⟩
      exact ⟨length, atLeast, within, walk⟩
    · rintro ⟨length, atLeast, within, walk⟩
      refine fresh_of_walk atLeast within walk fun shorter positive below again => clear ?_
      exact ⟨seed, isSeed, stop, length, atLeast, within, walk, shorter, positive, below, again⟩

/-- The Python operator gives every pair once, and it gives the pairs that are joined by a walk in
the range, which are the pairs of the Rust engine, exactly if no walk is shadowed. -/
theorem paths_of_operators (with_eids : Bool) {arcs : List Arc} {vertices : Nat}
    (inside : ∀ arc ∈ arcs, arc.src < vertices ∧ arc.dst < vertices) {batches : List (List Nat)}
    (vertex_seeds : ∀ seed ∈ batches.flatten, seed < vertices) {hop_min hop_max : Nat}
    (range : hop_min ≤ hop_max) :
    ∃ pairs, varPath (CsrFile.build with_eids arcs vertices) hop_min hop_max batches = .ok pairs ∧
      pairs.Nodup ∧
      ((∀ seed stop, (seed, stop) ∈ pairs ↔ Joined arcs batches.flatten hop_min hop_max seed stop) ↔
        ¬ Shadowed arcs batches.flatten hop_min hop_max) ∧
      ∀ fuel, vertices * (hop_max + 1) < fuel → ∃ rows,
        csrKHop (ofArcs with_eids arcs vertices) batches.flatten hop_min hop_max fuel = .ok rows ∧
          ((∀ seed stop, (seed, stop) ∈ pairs ↔ ∃ row ∈ rows, row.seed = seed ∧ row.node = stop) ↔
            ¬ Shadowed arcs batches.flatten hop_min hop_max) := by
  obtain ⟨pairs, python, emitted⟩ := varPath_emits with_eids inside vertex_seeds range
  refine ⟨pairs, python, emitted.1, emitted_joined emitted, fun fuel enough => ?_⟩
  obtain ⟨rows, rust, spec⟩ := csrKHop_rows with_eids inside vertex_seeds range enough
  refine ⟨rows, rust, ?_⟩
  have same (seed stop : Nat) : (∃ row ∈ rows, row.seed = seed ∧ row.node = stop) ↔
      Joined arcs batches.flatten hop_min hop_max seed stop := by
    constructor
    · rintro ⟨row, member, rfl, rfl⟩
      obtain ⟨isSeed, atLeast, within, walk⟩ := (spec _ _ _).mp (List.mem_map_of_mem member)
      exact ⟨isSeed, _, atLeast, within, walk⟩
    · rintro ⟨isSeed, length, atLeast, within, walk⟩
      obtain ⟨row, member, equal⟩ := List.mem_map.mp
        ((spec seed stop length).mpr ⟨isSeed, atLeast, within, walk⟩)
      cases equal
      exact ⟨row, member, rfl, rfl⟩
  simp only [same]
  exact emitted_joined emitted

/-- Two hops on a path of two edges. -/
theorem paths_of_path : ∃ pairs,
    varPath (CsrFile.build false [⟨0, 1, 0⟩, ⟨1, 2, 1⟩] 3) 2 2 [[0]] = .ok pairs ∧ pairs.Nodup := by
  obtain ⟨pairs, python, once, _⟩ := paths_of_operators false
    (by decide : ∀ arc ∈ ([⟨0, 1, 0⟩, ⟨1, 2, 1⟩] : List Arc), arc.src < 3 ∧ arc.dst < 3)
    (by decide : ∀ seed ∈ [[0]].flatten, seed < 3) (le_refl 2)
  exact ⟨pairs, python, once⟩

/-- A vertex that is reached in one hop as well as in two is lost when two are asked for. -/
theorem second_walk_lost :
    let arcs : List Arc := [⟨0, 1, 0⟩, ⟨0, 2, 1⟩, ⟨2, 1, 2⟩]
    varPath (CsrFile.build false arcs 3) 2 2 [[0]] = .ok [] ∧ Joined arcs [0] 2 2 0 1 ∧
      csrKHop (ofArcs false arcs 3) [0] 2 2 10 =
        .ok [{ seed := 0, node := 1, depth := 2, path := { nodes := [0, 2, 1], eids := [] } }] := by
  refine ⟨by decide, ⟨by decide, 2, le_refl 2, le_refl 2, ?_⟩, by decide⟩
  refine .further (walk_one.mpr ?_ : Walk _ 1 0 2) ?_
  · exact ⟨⟨0, 2, 1⟩, by decide, rfl, rfl⟩
  · exact ⟨⟨2, 1, 2⟩, by decide, rfl, rfl⟩

end CaracalDB.KHop
