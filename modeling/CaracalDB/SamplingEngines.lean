import CaracalDB.CsrSafety
import CaracalDB.NeighborSamples

/-!
# The samplers of the two engines

The Rust sampler goes through the vertices and takes the first neighbors of each, again and again if
they are put back. The Python sampler does the same with the runs of equal sources. A fanout of zero
is no sample in Rust and no limit in Python.
-/

namespace CaracalDB.CsrReader

open Runs

/-- An adjacency of the Rust engine as the Python reader sees it. -/
def pythonFile (csr : Graph.CsrFile) : CsrFile :=
  { offsets := csr.offsets, neighbors := csr.neighbors, eids := csr.eids }

/-- The rows of columns. -/
def sampleRows (columns : Fanout) : List Graph.SampleRow :=
  match columns.eid_flat with
  | none => (columns.src_rep.zip columns.dst_flat).map fun (src, dst) => { src, dst, eid := none }
  | some eids => (columns.src_rep.zip (columns.dst_flat.zip eids)).map fun (src, dst, eid) =>
      { src, dst, eid := some eid }

/-- The row of an edge of a vertex. -/
def edgeRow (csr : Graph.CsrFile) (vertex place : Nat) : Graph.SampleRow :=
  { src := vertex, dst := csr.neighbors.getD place 0, eid := csr.eids.map (·.getD place 0) }

/-- The edges that the first strategy keeps of a vertex. -/
def firstShare (file : CsrFile) (fanout : Nat) (replace : Bool) (vertex : Nat) : List Nat :=
  if degree file vertex = 0 then []
  else (chosen .first fanout replace (fun _ => []) 0 (degree file vertex)).map
    (file.offsets.getD vertex 0 + ·)

section Engines

variable {csr : Graph.CsrFile} {seeds : List Nat} {fanout : Nat} {replace : Bool}

/-- A place that counts on is the same place of the places around. -/
theorem again_getD {size index : Nat} (filled : 0 < size) :
    (List.range' 0 size).getD (index % size) 0 = index % size := by
  have inside := Nat.mod_lt index filled
  simp [List.getD_eq_getElem?_getD, inside]

/-- With replacement the places are counted around. -/
theorem chosen_again {size : Nat} (filled : 0 < size) :
    chosen .first fanout true (fun _ => []) 0 size = (List.range fanout).map (· % size) := by
  simp only [chosen, Nat.sub_zero, not_true_eq_false, and_false, if_false, if_true, true_and]
  split
  · next more =>
      have parts : List.range fanout =
          List.range size ++ (List.range (fanout - size)).map (size + ·) := by
        rw [← List.range_add, Nat.add_sub_of_le (Nat.le_of_lt more)]
      have front : (List.range size).map (· % size) = List.range' 0 size := by
        rw [← List.range_eq_range']
        conv_rhs => rw [← List.map_id (List.range size)]
        apply List.map_congr_left
        intro place member
        exact Nat.mod_eq_of_lt (List.mem_range.mp member)
      have back : ((List.range (fanout - size)).map (size + ·)).map (· % size) =
          resize (List.range' 0 size) (fanout - size) := by
        rw [List.map_map, resize]
        apply List.map_congr_left
        intro index _
        simp only [Function.comp_apply, Nat.add_mod_left, List.length_range', again_getD filled]
      rw [parts, List.map_append, front, back]
  · next few =>
      rw [← List.range_eq_range']
      conv_lhs => rw [← List.map_id (List.range fanout)]
      apply List.map_congr_left
      intro place member
      have inside := List.mem_range.mp member
      have small : place < size := by omega
      exact (Nat.mod_eq_of_lt small).symm

/-- Without replacement the places are counted up to the end. -/
theorem chosen_once (size : Nat) :
    chosen .first fanout false (fun _ => []) 0 size = List.range (min fanout size) := by
  simp only [chosen, Nat.sub_zero, Bool.false_eq_true, not_false_eq_true, and_true, if_true,
    false_and, if_false]
  split
  · next fits => rw [Nat.min_eq_right fits, List.range_eq_range']
  · next more => rw [Nat.min_eq_left (by omega), List.range_eq_range']

/-- A fanout of zero keeps nothing. -/
theorem firstShare_zero (file : CsrFile) (vertex : Nat) : firstShare file 0 replace vertex = [] := by
  rw [firstShare]
  split
  · rfl
  · next some_edge =>
      cases replace with
      | true => rw [chosen_again (Nat.pos_of_ne_zero some_edge)]; rfl
      | false => rw [chosen_once, Nat.zero_min]; rfl

/-! ## Rust -/

theorem pythonFile_wellFormed (shaped : csr.Shaped) (rising : csr.offsets.Pairwise (· ≤ ·))
    (few : csr.num_vertices < 2 ^ 63) :
    WellFormed (pythonFile csr) ∧ (pythonFile csr).num_vertices = csr.num_vertices := by
  have size := shaped.offsets
  refine ⟨⟨rising, ?_, shaped.eids, ?_⟩, ?_⟩
  · show csr.offsets.getLast? = some csr.neighbors.length
    rw [shaped.last, shaped.neighbors]
  · show csr.offsets.length ≤ 2 ^ 63
    omega
  · show csr.offsets.length - 1 = csr.num_vertices
    omega

/-- What the engine lists of a vertex: the neighbors and the ids of its segment. -/
def listed (csr : Graph.CsrFile) (vertex : Nat) : Graph.CsrNeighbors :=
  let places := List.range' (csr.offsets.getD vertex 0) (degree (pythonFile csr) vertex)
  { vertex
    neighbors := column csr.neighbors places
    eids := csr.eids.map (column · places) }

theorem csrNeighborsOf_listed (wellFormed : WellFormed (pythonFile csr)) (shaped : csr.Shaped)
    {vertex : Nat} (inside : vertex < csr.num_vertices) :
    Graph.csrNeighborsOf csr vertex = .ok (listed csr vertex) := by
  have size := shaped.offsets
  have known : vertex < (pythonFile csr).num_vertices := by
    show vertex < csr.offsets.length - 1
    omega
  obtain ⟨low, high⟩ := shaped.edges inside
  have ordered : csr.offsets.getD vertex 0 ≤ csr.offsets.getD (vertex + 1) 0 :=
    (offsets_rise wellFormed (Nat.le_succ vertex) known).1
  have within : csr.offsets.getD (vertex + 1) 0 ≤ csr.neighbors.length :=
    (offsets_rise wellFormed (Nat.le_succ vertex) known).2
  have slice_listed {items : List Nat} (all : items.length = csr.neighbors.length) :
      Graph.sliced items (csr.offsets.getD vertex 0) (csr.offsets.getD (vertex + 1) 0) =
        .ok (column items
          (List.range' (csr.offsets.getD vertex 0) (degree (pythonFile csr) vertex))) := by
    have held := segment_within wellFormed known
    rw [Graph.sliced_within ordered (all ▸ within), slice_column (by rw [all]; exact held)]
    rfl
  rw [Graph.csrNeighborsOf, Graph.rejectIf_pass _ _ (Nat.not_le_of_lt inside), ok_bind,
    Graph.indexed_some low, ok_bind, Graph.indexed_some high, ok_bind, slice_listed rfl, ok_bind,
    listed]
  cases given : csr.eids with
  | none => rfl
  | some eids =>
    simp only [Graph.slicedIn, slice_listed (shaped.eids eids given)]
    rfl

/-- The row of a place among the neighbors of a vertex. -/
def placeRow (neighbors : Graph.CsrNeighbors) (place : Nat) : Graph.SampleRow :=
  { src := neighbors.vertex
    dst := neighbors.neighbors.getD place 0
    eid := neighbors.eids.map (·.getD place 0) }

/-- One turn of the loop over the places. -/
theorem sampleLoop_turn {neighbors : Graph.CsrNeighbors}
    (size : ∀ eids ∈ neighbors.eids, eids.length = neighbors.neighbors.length) {place index : Nat}
    (at_place : (if replace then place % neighbors.neighbors.length else place) = index)
    (inside : index < neighbors.neighbors.length) {places : List Nat} {rows : List Graph.SampleRow}
    (rest : Graph.sampleLoop neighbors replace places = .ok rows) :
    Graph.sampleLoop neighbors replace (place :: places) = .ok (placeRow neighbors index :: rows) := by
  have found {items : List Nat} (all : items.length = neighbors.neighbors.length) :
      Graph.indexed items index = .ok (items.getD index 0) := by
    apply Graph.indexed_some
    simp [all, inside]
  have eid : Graph.indexedIn neighbors.eids index = .ok (neighbors.eids.map (·.getD index 0)) := by
    cases given : neighbors.eids with
    | none => rfl
    | some eids => rw [Graph.indexedIn, found (size eids given)]; rfl
  simp only [Graph.sampleLoop, at_place, if_neg (Nat.not_le_of_lt inside), found rfl, eid, rest,
    ok_bind]
  rfl

theorem sampleLoop_again {neighbors : Graph.CsrNeighbors}
    (size : ∀ eids ∈ neighbors.eids, eids.length = neighbors.neighbors.length)
    (filled : 0 < neighbors.neighbors.length) (places : List Nat) :
    Graph.sampleLoop neighbors true places =
      .ok (places.map fun place => placeRow neighbors (place % neighbors.neighbors.length)) := by
  induction places with
  | nil => rfl
  | cons place places inductionHypothesis =>
    exact sampleLoop_turn size (if_pos rfl) (Nat.mod_lt place filled) inductionHypothesis

theorem sampleLoop_once {neighbors : Graph.CsrNeighbors}
    (size : ∀ eids ∈ neighbors.eids, eids.length = neighbors.neighbors.length) (start count : Nat) :
    Graph.sampleLoop neighbors false (List.range' start count) =
      .ok ((List.range' start (min count (neighbors.neighbors.length - start))).map
        (placeRow neighbors)) := by
  induction count generalizing start with
  | zero => simp [Graph.sampleLoop]
  | succ count inductionHypothesis =>
    rw [List.range'_succ]
    rcases Nat.lt_or_ge start neighbors.neighbors.length with inside | beyond
    · have more : min (count + 1) (neighbors.neighbors.length - start) =
          min count (neighbors.neighbors.length - (start + 1)) + 1 := by omega
      rw [more, List.range'_succ, List.map_cons]
      exact sampleLoop_turn size (if_neg Bool.false_ne_true) inside (inductionHypothesis (start + 1))
    · have none : min (count + 1) (neighbors.neighbors.length - start) = 0 := by omega
      simp only [Graph.sampleLoop, Bool.false_eq_true, if_false, if_pos beyond, none, List.range'_zero,
        List.map_nil]

/-- A place of the list of a vertex is an edge. -/
theorem placeRow_edge {vertex place : Nat} (inside : place < degree (pythonFile csr) vertex) :
    placeRow (listed csr vertex) place = edgeRow csr vertex (csr.offsets.getD vertex 0 + place) := by
  have found (items : List Nat) : (column items (List.range' (csr.offsets.getD vertex 0)
      (degree (pythonFile csr) vertex))).getD place 0 =
        items.getD (csr.offsets.getD vertex 0 + place) 0 := by
    simp [column, List.getD_eq_getElem?_getD, inside]
  simp only [placeRow, listed, edgeRow, found, Option.map_map, Function.comp_def]

/-- The loop of a seed gives the edges that the first strategy keeps. -/
theorem sampleLoop_listed {vertex : Nat} (edges : 0 < degree (pythonFile csr) vertex) :
    Graph.sampleLoop (listed csr vertex) replace (List.range fanout) =
      .ok ((firstShare (pythonFile csr) fanout replace vertex).map (edgeRow csr vertex)) := by
  have count : (listed csr vertex).neighbors.length = degree (pythonFile csr) vertex := by
    simp [listed, column]
  have size : ∀ eids ∈ (listed csr vertex).eids,
      eids.length = (listed csr vertex).neighbors.length := by
    intro eids given
    obtain ⟨all, _, rfl⟩ := Option.mem_map.mp given
    rw [count]
    simp [column]
  rw [firstShare, if_neg (Nat.ne_of_gt edges), List.map_map]
  cases replace with
  | true =>
    rw [sampleLoop_again size (count ▸ edges), chosen_again edges, List.map_map, count]
    refine congrArg Except.ok (List.map_congr_left fun place _ => ?_)
    exact placeRow_edge (Nat.mod_lt place edges)
  | false =>
    rw [List.range_eq_range', sampleLoop_once size, chosen_once, count, Nat.sub_zero,
      List.range_eq_range']
    refine congrArg Except.ok (List.map_congr_left fun place member => ?_)
    have bound : place < min fanout (degree (pythonFile csr) vertex) := by simpa using member
    exact placeRow_edge (by omega)

/-- The engine gives the edges that the first strategy keeps of each seed. -/
theorem sample_shares (wellFormed : WellFormed (pythonFile csr)) (shaped : csr.Shaped)
    (inside : ∀ seed ∈ seeds, seed < csr.num_vertices) :
    Graph.csrNeighborSample csr seeds (some fanout) replace = .ok (seeds.flatMap fun seed =>
      (firstShare (pythonFile csr) fanout replace seed).map (edgeRow csr seed)) := by
  have each : ∀ rows, ∀ seed ∈ seeds, Graph.sampleFrom csr (some fanout) replace rows seed =
      .ok (rows ++ (firstShare (pythonFile csr) fanout replace seed).map (edgeRow csr seed)) := by
    intro rows seed member
    have count : (listed csr seed).neighbors.length = degree (pythonFile csr) seed := by
      simp [listed, column]
    rw [Graph.sampleFrom, csrNeighborsOf_listed wellFormed shaped (inside seed member), ok_bind]
    by_cases nothing : fanout = 0 ∨ degree (pythonFile csr) seed = 0
    · have empty : firstShare (pythonFile csr) fanout replace seed = [] := by
        rcases nothing with zero | no_edge
        · rw [zero, firstShare_zero]
        · rw [firstShare, if_pos no_edge]
      have skipped : fanout = 0 ∨ (listed csr seed).neighbors = [] := by
        rwa [← List.length_eq_zero_iff, count]
      simp only [Option.getD_some, if_pos skipped, empty, List.map_nil, List.append_nil]
      rfl
    · obtain ⟨some_fanout, some_edge⟩ := not_or.mp nothing
      have taken : ¬ (fanout = 0 ∨ (listed csr seed).neighbors = []) := by
        rwa [← List.length_eq_zero_iff, count]
      simp only [Option.getD_some, if_neg taken,
        sampleLoop_listed (Nat.pos_of_ne_zero some_edge), ok_bind]
      rfl
  rw [Graph.csrNeighborSample, foldlM_of_ok seeds each, ← List.flatMap_eq_foldl]

/-! ## Python -/

/-- The rows of the columns of kept edges. -/
theorem sampleRows_columns (held : csr.eids.isSome = true) (kept : List (Nat × List Nat)) :
    sampleRows (columnsOf (pythonFile csr) true kept) =
      (keptRows kept).map fun row => edgeRow csr row.1 row.2 := by
  obtain ⟨eids, given⟩ := Option.isSome_iff_exists.mp held
  have ids : (pythonFile csr).eids = some eids := given
  simp only [columnsOf_rows, sampleRows, if_true, ids, Option.map_some, column, List.map_map,
    List.zip_map', edgeRow, given]
  rfl

/-- A draw for the strategy that does not draw. -/
def rounds (fanout : Nat) : Nat → Nat → List Nat := fun _ size => (List.range fanout).map (· % size)

theorem rounds_draws : Draws fanout replace (rounds fanout) := by
  intro number size filled enough
  refine ⟨by simp [rounds], fun place member => ?_, fun drawn => ?_⟩
  · obtain ⟨index, _, rfl⟩ := List.mem_map.mp member
    exact Nat.mod_lt index filled
  · have fits : fanout ≤ size := enough.resolve_left (by simp [drawn])
    refine List.Nodup.map_on (fun first before second after same => ?_) List.nodup_range
    have low := List.mem_range.mp before
    have high := List.mem_range.mp after
    rwa [Nat.mod_eq_of_lt (by omega), Nat.mod_eq_of_lt (by omega)] at same

/-- The first places are kept whatever is drawn. -/
theorem sampleSegments_first (columns : Fanout) (draw other : Nat → Nat → List Nat) :
    sampleSegments columns fanout replace .first draw =
      sampleSegments columns fanout replace .first other := by
  have same (segment start stop : Nat) : chosen .first fanout replace (draw segment) start stop =
      chosen .first fanout replace (other segment) start stop := chosen_first _ _
  simp only [sampleSegments, same]

/-- The rows of the edges that the first strategy keeps of each vertex. -/
def shareRows (file : CsrFile) (vertices : List Nat) (fanout : Nat) (replace : Bool) :
    List (Nat × Nat) :=
  vertices.flatMap fun vertex => (firstShare file fanout replace vertex).map fun place => (vertex, place)

/-- Vertices with few edges keep them all. -/
theorem whole_shares {file : CsrFile} {vertices : List Nat}
    (few : ∀ vertex ∈ vertices, degree file vertex ≤ fanout) :
    keptRows (wholeKept file vertices) = shareRows file vertices fanout false := by
  rw [keptRows, wholeKept, List.flatMap_map, shareRows]
  refine List.flatMap_congr fun vertex member => ?_
  have share : firstShare file fanout false vertex =
      List.range' (file.offsets.getD vertex 0) (degree file vertex) := by
    rw [firstShare]
    split
    · next none => rw [none]; rfl
    · rw [chosen_once, Nat.min_eq_right (few vertex member), List.range_eq_range',
        ← range'_shift]
  rw [share]

/-- Runs of one vertex, or runs kept as a whole, are given what the vertices are given. -/
theorem runs_share {file : CsrFile} {vertices : List Nat} {draw : Nat → Nat → List Nat}
    (draws : Draws fanout replace draw)
    (good : ∀ run ∈ vertexRuns file vertices,
      run.2 = 1 ∨ replace = false ∧ run.2 * degree file run.1 ≤ fanout) :
    keptRows (sampledRuns file vertices .first fanout replace draw) =
      shareRows file vertices fanout replace := by
  have empty (vertex : Nat) (none : degree file vertex = 0) :
      ((firstShare file fanout replace vertex).map fun place => (vertex, place)) = [] := by
    rw [firstShare, if_pos none]
    rfl
  have numbered : (vertexRuns file vertices).flatMap (fun run => (List.replicate run.2
      ((firstShare file fanout replace run.1).map fun place => (run.1, place))).flatten) =
        (vertexRuns file vertices).zipIdx.flatMap fun entry => (List.replicate entry.1.2
          ((firstShare file fanout replace entry.1.1).map fun place => (entry.1.1, place))).flatten := by
    conv_lhs => rw [← List.zipIdx_map_fst 0 (vertexRuns file vertices)]
    rw [List.flatMap_map]
  rw [shareRows, flatMap_vertices _ empty, numbered, keptRows, sampledRuns, List.flatMap_map]
  refine List.flatMap_congr fun entry member => ?_
  have among := List.fst_mem_of_mem_zipIdx member
  obtain ⟨share, _, joined, first⟩ := run_shares .first draws member (good entry.1 among)
  have edges := ((runs_parts file vertices).2 _ among).2
  have own : firstShare file fanout replace entry.1.1 = share := by
    rw [firstShare, if_neg (Nat.ne_of_gt edges), first rfl]
  rw [own]
  simp only [← joined, List.map_flatten, List.map_replicate]

/-- A sample of unmerged vertices gives the first edges of each. -/
theorem first_shares {file : CsrFile} {vertices : List Nat} (positive : 0 < fanout)
    (unmerged : Unmerged file vertices fanout replace) (draw : Nat → Nat → List Nat) :
    ∃ kept, keepFanout (wholeColumns file true vertices) (vertices.map (degree file))
        (some (fanout : Int)) replace .first draw = columnsOf file true kept ∧
      keptRows kept = shareRows file vertices fanout replace := by
  have sampled : SamplingStrategy.first ≠ .all := by decide
  rw [keepFanout_limit sampled positive]
  simp only [List.forall_mem_map]
  by_cases whole : ¬ replace = true ∧ ∀ vertex ∈ vertices, degree file vertex ≤ fanout
  · obtain ⟨drawn, few⟩ := whole
    have kept : replace = false := by simpa using drawn
    subst kept
    rw [if_pos ⟨drawn, few⟩]
    exact ⟨wholeKept file vertices, wholeColumns_kept file true vertices, whole_shares few⟩
  · rw [if_neg whole, sampleSegments_first _ draw (rounds fanout),
      sampleSegments_runs rounds_draws]
    exact ⟨_, rfl, runs_share rounds_draws ((unmerged_iff whole).mp unmerged)⟩

end Engines

/-- A fanout of zero gives no rows in Rust and all edges of each seed in Python. With another fanout
the two engines give the same rows, as long as no run of equal seeds is sampled as one. -/
theorem sampling_engines {csr : Graph.CsrFile} (shaped : csr.Shaped)
    (rising : csr.offsets.Pairwise (· ≤ ·)) (few : csr.num_vertices < 2 ^ 63)
    (held : csr.eids.isSome = true) {seeds : List Nat}
    (inside : ∀ seed ∈ seeds, seed < csr.num_vertices) (replace : Bool)
    (draw : Nat → Nat → List Nat) :
    (Graph.csrNeighborSample csr seeds (some 0) replace = .ok [] ∧
      ∃ columns, batchNeighbors (pythonFile csr) (seeds.map Int.ofNat) true (some 0) replace "first"
          draw = .ok columns ∧
        sampleRows columns = seeds.flatMap fun seed => (List.range' (csr.offsets.getD seed 0)
          (csr.offsets.getD (seed + 1) 0 - csr.offsets.getD seed 0)).map (edgeRow csr seed)) ∧
    ∀ fanout : Nat, 0 < fanout → Unmerged (pythonFile csr) seeds fanout replace →
      ∃ columns, batchNeighbors (pythonFile csr) (seeds.map Int.ofNat) true (some (fanout : Int))
          replace "first" draw = .ok columns ∧
        Graph.csrNeighborSample csr seeds (some fanout) replace = .ok (sampleRows columns) := by
  obtain ⟨wellFormed, count⟩ := pythonFile_wellFormed shaped rising few
  have known : ∀ seed ∈ seeds, seed < (pythonFile csr).num_vertices := by
    rw [count]
    exact inside
  have named : readStrategy "first" = .ok .first := by decide
  have expanded (fanout : Nat) : batchNeighbors (pythonFile csr) (seeds.map Int.ofNat) true
      (some (fanout : Int)) replace "first" draw = .ok (keepFanout
        (wholeColumns (pythonFile csr) true seeds) (seeds.map (degree (pythonFile csr)))
        (some (fanout : Int)) replace .first draw) := by
    apply batch_expands wellFormed known (fun _ => held) named
    intro limit given
    rw [← Option.mem_some.mp given]
    exact Int.natCast_nonneg fanout
  refine ⟨⟨?_, ?_⟩, fun fanout positive unmerged => ?_⟩
  · rw [sample_shares wellFormed shaped inside]
    simp [firstShare_zero]
  · refine ⟨_, expanded 0, ?_⟩
    rw [keepFanout]
    simp only [Nat.cast_zero, true_or, if_true]
    rw [wholeColumns_kept, sampleRows_columns held, keptRows, wholeKept, List.flatMap_map,
      List.map_flatMap]
    simp only [List.map_map]
    rfl
  · obtain ⟨kept, columns, rows⟩ := first_shares positive unmerged draw
    refine ⟨_, expanded fanout, ?_⟩
    rw [sample_shares wellFormed shaped inside, columns, sampleRows_columns held, rows, shareRows,
      List.map_flatMap]
    simp only [List.map_map]
    rfl

/-- Three vertices: the first has two edges, the second none, the third one. -/
def smallAdjacency : Graph.CsrFile :=
  { num_vertices := 3, num_edges := 3, flags := 1, offsets := [0, 2, 2, 3], neighbors := [1, 2, 0]
    eids := some [10, 11, 12] }

theorem smallAdjacency_shaped : smallAdjacency.Shaped :=
  ⟨rfl, rfl, rfl, fun eids given => by rw [← Option.mem_some.mp given]; rfl⟩

/-- With replacement both engines go around the edges of a vertex. -/
theorem small_engines : ∃ columns,
    batchNeighbors (pythonFile smallAdjacency) ([2, 1, 0].map Int.ofNat) true (some (3 : Nat)) true
      "first" (fun _ _ => []) = .ok columns ∧
    Graph.csrNeighborSample smallAdjacency [2, 1, 0] (some 3) true = .ok (sampleRows columns) := by
  have known : ∀ seed ∈ [2, 1, 0], seed < smallAdjacency.num_vertices := by decide
  have unmerged : Unmerged (pythonFile smallAdjacency) [2, 1, 0] 3 true := by
    rw [Unmerged]
    decide
  exact (sampling_engines smallAdjacency_shaped (by decide) (by decide) rfl known true
    fun _ _ => []).2 3 (by decide) unmerged

/-- A fanout of zero is no sample in Rust and no limit in Python. -/
theorem zero_fanout_differs :
    (smallAdjacency.Shaped ∧ smallAdjacency.offsets.Pairwise (· ≤ ·) ∧ 0 < smallAdjacency.num_vertices) ∧
    Graph.csrNeighborSample smallAdjacency [0] (some 0) false = .ok [] ∧
    ∃ columns, batchNeighbors (pythonFile smallAdjacency) ([0].map Int.ofNat) true (some 0) false
        "first" (fun _ _ => []) = .ok columns ∧
      sampleRows columns =
        [{ src := 0, dst := 1, eid := some 10 }, { src := 0, dst := 2, eid := some 11 }] :=
  ⟨⟨smallAdjacency_shaped, by decide, by decide⟩, by decide,
    { src_rep := [0, 0], dst_flat := [1, 2], eid_flat := some [10, 11] }, by decide, by decide⟩

end CaracalDB.CsrReader
