import CaracalDB.BatchNeighbors

/-!
# Samples of neighbors

A fanout is meant for each vertex of a batch. The sampler takes one sample from each run of equal
sources, so a vertex that is asked for twice in a row gets one sample for both, which is as many edges
only if all of them are kept.
-/

namespace CaracalDB.CsrReader

open Runs

/-! ## What is sampled -/

/-- What `rng.choice(size, size=fanout, replace=replace)` gives: so many places, without repetition
if they are not put back. -/
def Draws (fanout : Nat) (replace : Bool) (draw : Nat → Nat → List Nat) : Prop :=
  ∀ number size, 0 < size → replace = true ∨ fanout ≤ size →
    (draw number size).length = fanout ∧ (∀ place ∈ draw number size, place < size) ∧
      (replace = false → (draw number size).Nodup)

/-- The number of edges that a vertex gets. -/
def quota (fanout : Nat) (replace : Bool) (degree : Nat) : Nat :=
  if replace then if degree = 0 then 0 else fanout else min fanout degree

/-- What a vertex is given: as many of its edges as its quota says, none twice unless they are put back. -/
def FairShare (file : CsrFile) (fanout : Nat) (replace : Bool) (vertex : Nat) (places : List Nat) :
    Prop :=
  places.length = quota fanout replace (degree file vertex) ∧
    (∀ place ∈ places, file.offsets.getD vertex 0 ≤ place ∧
      place < file.offsets.getD vertex 0 + degree file vertex) ∧
    (replace = false → places.Nodup)

/-- Entries of vertices and the edges that they are given, each a fair share. -/
def Shared (file : CsrFile) (fanout : Nat) (replace : Bool) (kept : List (Nat × List Nat)) : Prop :=
  ∀ entry ∈ kept, FairShare file fanout replace entry.1 entry.2

/-- The columns of some edges of each vertex. -/
def columnsOf (file : CsrFile) (return_eids : Bool) (kept : List (Nat × List Nat)) : Fanout :=
  let places := kept.flatMap Prod.snd
  { src_rep := kept.flatMap fun entry => List.replicate entry.2.length entry.1
    dst_flat := column file.neighbors places
    eid_flat := if return_eids then file.eids.map (column · places) else none }

/-- Each vertex gets a fair share, in the order of the batch. -/
def PerVertex (file : CsrFile) (vertices : List Nat) (return_eids : Bool) (fanout : Nat)
    (replace : Bool) (columns : Fanout) : Prop :=
  ∃ kept : List (Nat × List Nat), kept.map Prod.fst = vertices ∧
    Shared file fanout replace kept ∧ columns = columnsOf file return_eids kept

/-- The runs of equal vertices, vertices without edges left out. -/
def vertexRuns (file : CsrFile) (vertices : List Nat) : List (Nat × Nat) :=
  runs (vertices.filter fun vertex => 0 < degree file vertex)

/-- No run of a vertex is sampled as if it were one vertex, or it makes no difference. -/
def Unmerged (file : CsrFile) (vertices : List Nat) (fanout : Nat) (replace : Bool) : Prop :=
  if replace then ∀ run ∈ vertexRuns file vertices, run.2 = 1
  else (∀ vertex ∈ vertices, degree file vertex ≤ fanout) ∨
    ∀ run ∈ vertexRuns file vertices, run.2 = 1 ∨ run.2 * degree file run.1 ≤ fanout

/-- The edges of a run. -/
def runItems (file : CsrFile) (run : Nat × Nat) : List Nat :=
  (List.replicate run.2 (List.range' (file.offsets.getD run.1 0) (degree file run.1))).flatten

/-! ## Parts of a column -/

section Columns

theorem column_length (items places : List Nat) : (column items places).length = places.length := by
  simp [column]

theorem column_all (items : List Nat) : column items (List.range' 0 items.length) = items := by
  have whole : 0 + items.length ≤ items.length := by omega
  rw [← slice_column whole, List.drop_zero, List.take_length]

theorem column_append (items first second : List Nat) :
    column items (first ++ second) = column items first ++ column items second := by
  simp [column]

/-- A column of a column. -/
theorem column_column (items flat : List Nat) {places : List Nat}
    (within : ∀ place ∈ places, place < flat.length) :
    column (column items flat) places = column items (column flat places) := by
  rw [column, column, column, column, List.map_map]
  apply List.map_congr_left
  intro place member
  have bound := within place member
  simp [List.getD_eq_getElem?_getD, bound]

theorem column_replicate (vertex count : Nat) {places : List Nat}
    (within : ∀ place ∈ places, place < count) :
    column (List.replicate count vertex) places = List.replicate places.length vertex := by
  rw [column, List.eq_replicate_iff]
  refine ⟨by simp, fun item member => ?_⟩
  obtain ⟨place, among, rfl⟩ := List.mem_map.mp member
  simp [within place among]

/-- Places behind a leading part. -/
theorem column_behind (front items : List Nat) (places : List Nat) :
    column (front ++ items) (places.map (front.length + ·)) = column items places := by
  rw [column, column, List.map_map]
  apply List.map_congr_left
  intro place _
  simp [List.getD_eq_getElem?_getD, List.getElem?_append_right]

theorem column_front (items behind : List Nat) {places : List Nat}
    (within : ∀ place ∈ places, place < items.length) :
    column (items ++ behind) places = column items places := by
  apply List.map_congr_left
  intro place member
  have bound := within place member
  simp [List.getD_eq_getElem?_getD, List.getElem?_append_left bound]

/-- Picking from each part of a column is picking from the parts. -/
theorem column_parts (picks : Nat → Nat → List Nat) (blocks : List (List Nat))
    (within : ∀ number, ∀ block ∈ blocks, ∀ place ∈ picks number block.length, place < block.length)
    (front : List Nat) (number : Nat) :
    column (front ++ blocks.flatten)
        (((boundsFrom front.length (blocks.map List.length)).zipIdx number).flatMap
          fun (bounds, number) => (picks number (bounds.2 - bounds.1)).map (bounds.1 + ·)) =
      (blocks.zipIdx number).flatMap fun (block, number) => column block (picks number block.length) := by
  induction blocks generalizing front number with
  | nil => simp [boundsFrom, column]
  | cons block blocks inductionHypothesis =>
    obtain ⟨here, others⟩ : (∀ number, ∀ place ∈ picks number block.length, place < block.length) ∧
        ∀ number, ∀ other ∈ blocks, ∀ place ∈ picks number other.length, place < other.length :=
      ⟨fun number => within number block List.mem_cons_self,
        fun number other member => within number other (List.mem_cons_of_mem _ member)⟩
    have rest := inductionHypothesis others (front ++ block) (number + 1)
    rw [List.length_append] at rest
    simp only [List.map_cons, boundsFrom, List.zipIdx_cons, List.flatMap_cons, List.flatten_cons,
      column_append, Nat.add_sub_cancel_left]
    rw [column_behind, column_front _ _ (here number), ← List.append_assoc, rest]

end Columns

/-! ## One segment -/

section Chosen

variable {strategy : SamplingStrategy} {fanout : Nat} {replace : Bool} {draw : Nat → Nat → List Nat}

theorem resize_length (items : List Nat) (length : Nat) : (resize items length).length = length := by
  simp [resize]

/-- An array is filled with its own items. -/
theorem mem_resize {items : List Nat} {length item : Nat} (filled : items ≠ [])
    (member : item ∈ resize items length) : item ∈ items := by
  obtain ⟨index, _, rfl⟩ := List.mem_map.mp member
  have inside := Nat.mod_lt index (List.length_pos_of_ne_nil filled)
  simp [List.getD_eq_getElem?_getD, inside]

theorem resize_map (make : Nat → Nat) {items : List Nat} (length : Nat) (filled : items ≠ []) :
    resize (items.map make) length = (resize items length).map make := by
  rw [resize, resize, List.map_map, List.length_map]
  apply List.map_congr_left
  intro index _
  have inside := Nat.mod_lt index (List.length_pos_of_ne_nil filled)
  simp [List.getD_eq_getElem?_getD, inside]

theorem range'_shift (start count : Nat) :
    List.range' start count = (List.range' 0 count).map (start + ·) := by
  simp [List.map_add_range']

theorem range'_filled {size : Nat} (filled : 0 < size) : List.range' 0 size ≠ [] := by
  intro empty
  have length := congrArg List.length empty
  rw [List.length_range', List.length_nil] at length
  omega

/-- A segment is sampled in the same way wherever it begins. -/
theorem chosen_shift {start stop : Nat} (draw : Nat → List Nat) (filled : start < stop) :
    chosen strategy fanout replace draw start stop =
      (chosen strategy fanout replace draw 0 (stop - start)).map (start + ·) := by
  have some_item := range'_filled (Nat.sub_pos_of_lt filled)
  simp only [chosen, Nat.sub_zero]
  split
  · exact range'_shift start _
  · split
    · split
      · rw [range'_shift start, resize_map _ _ some_item, List.map_append]
      · exact range'_shift start _
    · simp

theorem quota_enough {size : Nat} (filled : 0 < size) (enough : replace = true ∨ fanout ≤ size) :
    quota fanout replace size = fanout := by
  rw [quota]
  rcases enough with put_back | fits
  · rw [if_pos put_back, if_neg (Nat.ne_of_gt filled)]
  · split
    · rw [if_neg (Nat.ne_of_gt filled)]
    · exact Nat.min_eq_left fits

/-- The first places are kept without a draw. -/
theorem chosen_first {start stop : Nat} (draw other : Nat → List Nat) :
    chosen .first fanout replace draw start stop = chosen .first fanout replace other start stop := by
  simp [chosen]

/-- What is kept of a segment: so many of its places. -/
theorem chosen_spec (strategy : SamplingStrategy) (draws : Draws fanout replace draw) (number : Nat) {size : Nat}
    (filled : 0 < size) :
    (chosen strategy fanout replace (draw number) 0 size).length = quota fanout replace size ∧
      (∀ place ∈ chosen strategy fanout replace (draw number) 0 size, place < size) ∧
      (replace = false → (chosen strategy fanout replace (draw number) 0 size).Nodup) := by
  have some_item := range'_filled filled
  simp only [chosen, Nat.sub_zero]
  by_cases whole : size ≤ fanout ∧ ¬ replace = true
  · rw [if_pos whole]
    obtain ⟨fits, drawn⟩ := whole
    refine ⟨?_, fun place member => ?_, fun _ => List.nodup_range'⟩
    · simp [quota, drawn, fits]
    · simpa using member
  · rw [if_neg whole]
    have enough : replace = true ∨ fanout ≤ size := by
      cases replace with
      | true => exact .inl rfl
      | false =>
        right
        by_contra short
        exact whole ⟨by omega, Bool.false_ne_true⟩
    by_cases first : strategy = .first
    · rw [if_pos first]
      by_cases again : replace = true ∧ size < fanout
      · obtain ⟨put_back, short⟩ := again
        rw [if_pos ⟨put_back, short⟩]
        refine ⟨?_, fun place member => ?_, fun drawn => ?_⟩
        · rw [List.length_append, resize_length, List.length_range', quota_enough filled enough]
          omega
        · have among : place ∈ List.range' 0 size := by
            rcases List.mem_append.mp member with front | back
            · exact front
            · exact mem_resize some_item back
          simpa using among
        · rw [drawn] at put_back
          cases put_back
      · rw [if_neg again]
        have fits : fanout ≤ size := by
          rcases enough with put_back | fits
          · by_contra short
            exact again ⟨put_back, by omega⟩
          · exact fits
        refine ⟨?_, fun place member => ?_, fun _ => List.nodup_range'⟩
        · rw [List.length_range', quota_enough filled enough]
        · have bound : place < fanout := by simpa using member
          omega
    · rw [if_neg first]
      obtain ⟨length, inside, distinct⟩ := draws number size filled enough
      have same : (draw number size).map (0 + ·) = draw number size := by simp
      rw [same, quota_enough filled enough]
      exact ⟨length, inside, distinct⟩

end Chosen

/-! ## The segments of a batch -/

section Batch

variable {file : CsrFile} {vertices : List Nat}

/-- The runs of a batch, each with the number of its edges. -/
theorem runs_parts (file : CsrFile) (vertices : List Nat) :
    Separate ((vertexRuns file vertices).map fun run => (run.1, run.2 * degree file run.1)) ∧
      ∀ run ∈ vertexRuns file vertices, 0 < run.2 ∧ 0 < degree file run.1 := by
  obtain ⟨filled, apart⟩ := runs_separate (vertices.filter fun vertex => 0 < degree file vertex)
  have positive : ∀ run ∈ vertexRuns file vertices, 0 < run.2 ∧ 0 < degree file run.1 := by
    intro run member
    have edges := (List.mem_filter.mp (mem_of_mem_runs member)).2
    exact ⟨filled run member, by simpa using edges⟩
  refine ⟨⟨?_, ?_⟩, positive⟩
  · intro part member
    obtain ⟨run, among, rfl⟩ := List.mem_map.mp member
    exact Nat.mul_pos (positive run among).1 (positive run among).2
  · rw [List.isChain_map]
    exact apart

/-- Vertices without edges add nothing. -/
theorem flatMap_vertices {Item : Type} (make : Nat → List Item)
    (nothing : ∀ vertex, degree file vertex = 0 → make vertex = []) (vertices : List Nat) :
    vertices.flatMap make =
      (vertexRuns file vertices).flatMap fun run => (List.replicate run.2 (make run.1)).flatten := by
  have kept : vertices.flatMap make =
      (vertices.filter fun vertex => 0 < degree file vertex).flatMap make := by
    induction vertices with
    | nil => rfl
    | cons vertex vertices inductionHypothesis =>
      rw [List.flatMap_cons, inductionHypothesis]
      by_cases edges : 0 < degree file vertex
      · rw [List.filter_cons_of_pos (by simpa using edges), List.flatMap_cons]
      · rw [List.filter_cons_of_neg (by simpa using edges), nothing vertex (by omega),
          List.nil_append]
  rw [kept, ← expand_runs (vertices.filter fun vertex => 0 < degree file vertex), expand,
    List.flatMap_assoc]
  refine List.flatMap_congr fun run _ => ?_
  rw [List.flatMap_replicate]

theorem runItems_length (file : CsrFile) (run : Nat × Nat) :
    (runItems file run).length = run.2 * degree file run.1 := by
  simp [runItems]

/-- The sources of a batch, by runs. -/
theorem sources_runs (file : CsrFile) (vertices : List Nat) :
    (vertices.flatMap fun vertex => List.replicate (degree file vertex) vertex) =
      expand ((vertexRuns file vertices).map fun run => (run.1, run.2 * degree file run.1)) := by
  have empty (vertex : Nat) (none : degree file vertex = 0) :
      List.replicate (degree file vertex) vertex = [] := by
    rw [none]
    rfl
  rw [flatMap_vertices _ empty, expand, List.flatMap_map]
  exact List.flatMap_congr fun run _ => List.flatten_replicate_replicate

/-- The edges of a batch, by runs. -/
theorem places_runs (file : CsrFile) (vertices : List Nat) :
    segmentItems (vertices.map (segment file)) =
      ((vertexRuns file vertices).map (runItems file)).flatten := by
  have empty (vertex : Nat) (none : degree file vertex = 0) :
      List.range' (file.offsets.getD vertex 0) (degree file vertex) = [] := by
    rw [none]
    rfl
  rw [segmentItems, List.flatMap_map, ← List.flatMap_def]
  exact flatMap_vertices _ empty vertices

variable {strategy : SamplingStrategy} {fanout : Nat} {replace : Bool} {draw : Nat → Nat → List Nat}

/-- The places that are kept of a run, by its number. -/
def runPlaces (file : CsrFile) (strategy : SamplingStrategy) (fanout : Nat) (replace : Bool)
    (draw : Nat → Nat → List Nat) (run : Nat × Nat) (number : Nat) : List Nat :=
  chosen strategy fanout replace (draw number) 0 (run.2 * degree file run.1)

/-- A sampled column, by runs. -/
theorem sampled_column (draws : Draws fanout replace draw) (make : Nat × Nat → List Nat)
    (lengths : ∀ run, (make run).length = run.2 * degree file run.1) :
    column ((vertexRuns file vertices).map make).flatten
        ((boundsFrom 0 ((vertexRuns file vertices).map fun run => run.2 * degree file run.1)).zipIdx.flatMap
          fun (bounds, number) => chosen strategy fanout replace (draw number) bounds.1 bounds.2) =
      (vertexRuns file vertices).zipIdx.flatMap fun (run, number) =>
        column (make run) (runPlaces file strategy fanout replace draw run number) := by
  obtain ⟨_, positive⟩ := runs_parts file vertices
  have counts : ((vertexRuns file vertices).map make).map List.length =
      (vertexRuns file vertices).map fun run => run.2 * degree file run.1 := by
    rw [List.map_map]
    exact List.map_congr_left fun run _ => lengths run
  have filled : ∀ count ∈ (vertexRuns file vertices).map fun run => run.2 * degree file run.1,
      0 < count := by
    intro count member
    obtain ⟨run, among, rfl⟩ := List.mem_map.mp member
    exact Nat.mul_pos (positive run among).1 (positive run among).2
  have shifted : ((boundsFrom 0 ((vertexRuns file vertices).map fun run =>
      run.2 * degree file run.1)).zipIdx.flatMap fun (bounds, number) =>
        chosen strategy fanout replace (draw number) bounds.1 bounds.2) =
      (boundsFrom 0 ((vertexRuns file vertices).map fun run =>
        run.2 * degree file run.1)).zipIdx.flatMap fun (bounds, number) =>
          (chosen strategy fanout replace (draw number) 0 (bounds.2 - bounds.1)).map (bounds.1 + ·) := by
    refine List.flatMap_congr fun entry member => ?_
    obtain ⟨bounds, number⟩ := entry
    have among : bounds ∈ boundsFrom 0 _ := List.fst_mem_of_mem_zipIdx member
    exact chosen_shift (draw number) (boundsFrom_filled filled bounds among)
  have within : ∀ number, ∀ block ∈ (vertexRuns file vertices).map make,
      ∀ place ∈ chosen strategy fanout replace (draw number) 0 block.length, place < block.length := by
    intro number block member
    obtain ⟨run, among, rfl⟩ := List.mem_map.mp member
    rw [lengths]
    exact (chosen_spec _ draws number (Nat.mul_pos (positive run among).1 (positive run among).2)).2.1
  have parts := column_parts (fun number size => chosen strategy fanout replace (draw number) 0 size)
    ((vertexRuns file vertices).map make) within [] 0
  rw [counts, List.nil_append, List.length_nil] at parts
  rw [shifted, parts, List.zipIdx_map, List.flatMap_map]
  refine List.flatMap_congr fun entry _ => ?_
  simp only [Prod.map, id, runPlaces, lengths]

/-- What is kept of each run. -/
def sampledRuns (file : CsrFile) (vertices : List Nat) (strategy : SamplingStrategy) (fanout : Nat)
    (replace : Bool) (draw : Nat → Nat → List Nat) : List (Nat × List Nat) :=
  (vertexRuns file vertices).zipIdx.map fun (run, number) =>
    (run.1, column (runItems file run) (runPlaces file strategy fanout replace draw run number))

/-- The places of a run are among its edges. -/
theorem runPlaces_within (strategy : SamplingStrategy) (draws : Draws fanout replace draw) {entry : (Nat × Nat) × Nat}
    (member : entry ∈ (vertexRuns file vertices).zipIdx) :
    ∀ place ∈ runPlaces file strategy fanout replace draw entry.1 entry.2,
      place < entry.1.2 * degree file entry.1.1 := by
  have positive := (runs_parts file vertices).2 entry.1 (List.fst_mem_of_mem_zipIdx member)
  exact (chosen_spec _ draws entry.2 (Nat.mul_pos positive.1 positive.2)).2.1

/-- A sampled column of the edges. -/
theorem sampled_items (draws : Draws fanout replace draw) (items : List Nat) :
    column (column items (segmentItems (vertices.map (segment file))))
        ((boundsFrom 0 ((vertexRuns file vertices).map fun run => run.2 * degree file run.1)).zipIdx.flatMap
          fun (bounds, number) => chosen strategy fanout replace (draw number) bounds.1 bounds.2) =
      column items
        ((sampledRuns file vertices strategy fanout replace draw).flatMap Prod.snd) := by
  have flat : column items (segmentItems (vertices.map (segment file))) =
      ((vertexRuns file vertices).map fun run => column items (runItems file run)).flatten := by
    rw [places_runs, column, List.map_flatten, List.map_map]
    rfl
  have lengths (run : Nat × Nat) :
      (column items (runItems file run)).length = run.2 * degree file run.1 := by
    rw [column_length, runItems_length]
  have joined : column items
      ((sampledRuns file vertices strategy fanout replace draw).flatMap Prod.snd) =
        (vertexRuns file vertices).zipIdx.flatMap fun (run, number) => column items
          (column (runItems file run) (runPlaces file strategy fanout replace draw run number)) := by
    rw [column, List.map_flatMap, sampledRuns, List.flatMap_map]
    rfl
  rw [flat, sampled_column draws _ lengths, joined]
  refine List.flatMap_congr fun entry member => ?_
  apply column_column
  intro place among
  rw [runItems_length]
  exact runPlaces_within _ draws member place among

/-- The sampler gives the columns of what is kept of each run. -/
theorem sampleSegments_runs (draws : Draws fanout replace draw) (return_eids : Bool) :
    sampleSegments (wholeColumns file return_eids vertices) fanout replace strategy draw =
      columnsOf file return_eids (sampledRuns file vertices strategy fanout replace draw) := by
  obtain ⟨separate, positive⟩ := runs_parts file vertices
  have sources : (wholeColumns file return_eids vertices).src_rep =
      expand ((vertexRuns file vertices).map fun run => (run.1, run.2 * degree file run.1)) :=
    sources_runs file vertices
  rw [sampleSegments]
  by_cases nothing : vertexRuns file vertices = []
  · have places : segmentItems (vertices.map (segment file)) = [] := by
      rw [places_runs, nothing]
      rfl
    have none : (wholeColumns file return_eids vertices).src_rep = [] := by
      rw [sources, nothing]
      rfl
    rw [if_pos none, columnsOf, sampledRuns, nothing]
    rw [wholeColumns] at none ⊢
    simp only [places]
    simpa using none
  · have some_source : (wholeColumns file return_eids vertices).src_rep ≠ [] := by
      obtain ⟨run, rest, runsAre⟩ := List.exists_cons_of_ne_nil nothing
      have filled := positive run (by rw [runsAre]; exact List.mem_cons_self)
      rw [sources, runsAre, List.map_cons, expand_cons, ne_eq, List.append_eq_nil_iff,
        List.replicate_eq_nil_iff]
      exact fun empty => absurd empty.1 (Nat.ne_of_gt (Nat.mul_pos filled.1 filled.2))
    have bounds := bounds_of_changes separate (by simpa using nothing)
    rw [← sources, List.map_map] at bounds
    rw [if_neg some_source]
    simp only [bounds]
    have repeated : column (wholeColumns file return_eids vertices).src_rep
        ((boundsFrom 0 ((vertexRuns file vertices).map fun run =>
          run.2 * degree file run.1)).zipIdx.flatMap fun (bounds, number) =>
            chosen strategy fanout replace (draw number) bounds.1 bounds.2) =
        (sampledRuns file vertices strategy fanout replace draw).flatMap fun entry =>
          List.replicate entry.2.length entry.1 := by
      rw [sources, expand, List.flatMap_map, List.flatMap_def,
        sampled_column draws (fun run => List.replicate (run.2 * degree file run.1) run.1)
          fun _ => List.length_replicate, sampledRuns, List.flatMap_map]
      refine List.flatMap_congr fun entry member => ?_
      simp only [column_replicate _ _ (runPlaces_within _ draws member), column_length]
    have ids : (wholeColumns file return_eids vertices).eid_flat.map (column ·
        ((boundsFrom 0 ((vertexRuns file vertices).map fun run =>
          run.2 * degree file run.1)).zipIdx.flatMap fun (bounds, number) =>
            chosen strategy fanout replace (draw number) bounds.1 bounds.2)) =
        if return_eids then file.eids.map (column ·
          ((sampledRuns file vertices strategy fanout replace draw).flatMap Prod.snd)) else none := by
      cases return_eids with
      | false => rfl
      | true =>
        rw [wholeColumns, if_pos rfl, if_pos rfl, Option.map_map]
        exact Option.map_congr fun eids _ => sampled_items draws eids
    rw [columnsOf, Fanout.mk.injEq]
    exact ⟨repeated, sampled_items draws file.neighbors, ids⟩

/-! ## Quotas -/

/-- The edges of a batch that every vertex gets. -/
def wholeKept (file : CsrFile) (vertices : List Nat) : List (Nat × List Nat) :=
  vertices.map fun vertex =>
    (vertex, List.range' (file.offsets.getD vertex 0) (degree file vertex))

theorem wholeColumns_kept (file : CsrFile) (return_eids : Bool) (vertices : List Nat) :
    wholeColumns file return_eids vertices = columnsOf file return_eids (wholeKept file vertices) := by
  have places : (wholeKept file vertices).flatMap Prod.snd =
      segmentItems (vertices.map (segment file)) := by
    rw [wholeKept, segmentItems, List.flatMap_map, List.flatMap_map]
    rfl
  have sources : (wholeKept file vertices).flatMap (fun entry =>
      List.replicate entry.2.length entry.1) =
        vertices.flatMap fun vertex => List.replicate (degree file vertex) vertex := by
    rw [wholeKept, List.flatMap_map]
    exact List.flatMap_congr fun vertex _ => by rw [List.length_range']
  rw [columnsOf, places, sources]
  rfl

/-- The share of a vertex of its own segment. -/
theorem own_share (strategy : SamplingStrategy) (draws : Draws fanout replace draw) (number : Nat) {vertex : Nat}
    (edges : 0 < degree file vertex) :
    FairShare file fanout replace vertex
      ((chosen strategy fanout replace (draw number) 0 (degree file vertex)).map
        (file.offsets.getD vertex 0 + ·)) := by
  obtain ⟨length, inside, distinct⟩ := chosen_spec strategy draws number edges
  refine ⟨by rw [List.length_map, length], fun place member => ?_, fun drawn => ?_⟩
  · obtain ⟨index, among, rfl⟩ := List.mem_map.mp member
    have bound := inside index among
    omega
  · exact (distinct drawn).map fun first second same => Nat.add_left_cancel same

/-- All edges are a fair share if they are not more than the fanout. -/
theorem whole_share {vertex : Nat} (few : degree file vertex ≤ fanout) :
    FairShare file fanout false vertex
      (List.range' (file.offsets.getD vertex 0) (degree file vertex)) := by
  refine ⟨?_, fun place member => ?_, fun _ => List.nodup_range'⟩
  · simp [quota, few]
  · simpa using member

/-- A run that is one vertex, or is kept as a whole, is shared fairly. -/
theorem run_shares (strategy : SamplingStrategy) (draws : Draws fanout replace draw) {entry : (Nat × Nat) × Nat}
    (member : entry ∈ (vertexRuns file vertices).zipIdx)
    (good : entry.1.2 = 1 ∨ replace = false ∧ entry.1.2 * degree file entry.1.1 ≤ fanout) :
    ∃ share, FairShare file fanout replace entry.1.1 share ∧
      (List.replicate entry.1.2 share).flatten = column (runItems file entry.1)
        (runPlaces file strategy fanout replace draw entry.1 entry.2) ∧
      (strategy = .first → share = (chosen .first fanout replace (fun _ => []) 0
        (degree file entry.1.1)).map (file.offsets.getD entry.1.1 0 + ·)) := by
  obtain ⟨⟨vertex, times⟩, number⟩ := entry
  obtain ⟨some_time, edges⟩ := (runs_parts file vertices).2 _ (List.fst_mem_of_mem_zipIdx member)
  have inside := runPlaces_within strategy draws member
  simp only at good some_time edges inside ⊢
  rcases good with once | ⟨drawn, few⟩
  · subst once
    refine ⟨_, own_share strategy draws number edges, ?_, ?_⟩
    · rw [runPlaces, Nat.one_mul] at inside ⊢
      simp only [runItems, List.replicate_one, List.flatten_singleton, column]
      apply List.map_congr_left
      intro place among
      simp [List.getD_eq_getElem?_getD, inside place among]
    · rintro rfl
      rw [chosen_first (draw number) fun _ => []]
  · subst drawn
    have fits : degree file vertex ≤ fanout := Nat.le_trans (Nat.le_mul_of_pos_left _ some_time) few
    refine ⟨_, whole_share fits, ?_, fun _ => ?_⟩
    · rw [runPlaces, chosen]
      simp only [Nat.sub_zero, few, true_and, Bool.false_eq_true, not_false_eq_true, if_true]
      rw [← runItems_length file (vertex, times), column_all]
      rfl
    · rw [chosen]
      simp only [Nat.sub_zero, fits, true_and, Bool.false_eq_true, not_false_eq_true, if_true]
      exact range'_shift _ _

/-- The edges that are kept, each with its vertex. -/
def keptRows (kept : List (Nat × List Nat)) : List (Nat × Nat) :=
  kept.flatMap fun entry => entry.2.map fun place => (entry.1, place)

theorem keptRows_cons (entry : Nat × List Nat) (kept : List (Nat × List Nat)) :
    keptRows (entry :: kept) = (entry.2.map fun place => (entry.1, place)) ++ keptRows kept :=
  List.flatMap_cons

theorem keptRows_append (first second : List (Nat × List Nat)) :
    keptRows (first ++ second) = keptRows first ++ keptRows second := List.flatMap_append

theorem keptRows_replicate (times vertex : Nat) (share : List Nat) :
    keptRows (List.replicate times (vertex, share)) =
      (List.replicate times share).flatten.map fun place => (vertex, place) := by
  induction times with
  | zero => rfl
  | succ times inductionHypothesis =>
    rw [List.replicate_succ, keptRows_cons, inductionHypothesis, List.replicate_succ,
      List.flatten_cons, List.map_append]

/-- The columns depend on the rows only. -/
theorem columnsOf_rows (file : CsrFile) (return_eids : Bool) (kept : List (Nat × List Nat)) :
    columnsOf file return_eids kept =
      { src_rep := (keptRows kept).map Prod.fst
        dst_flat := column file.neighbors ((keptRows kept).map Prod.snd)
        eid_flat := if return_eids then file.eids.map (column · ((keptRows kept).map Prod.snd))
          else none } := by
  have places : kept.flatMap Prod.snd = (keptRows kept).map Prod.snd := by
    rw [keptRows, List.map_flatMap]
    refine List.flatMap_congr fun entry _ => ?_
    simp
  have sources : (kept.flatMap fun entry => List.replicate entry.2.length entry.1) =
      (keptRows kept).map Prod.fst := by
    rw [keptRows, List.map_flatMap]
    refine List.flatMap_congr fun entry _ => ?_
    simp [Function.comp_def]
  rw [columnsOf, places, sources]

/-- Runs that are shared fairly are shared among the vertices with edges. -/
theorem shared_runs (strategy : SamplingStrategy) (draws : Draws fanout replace draw) {entries : List ((Nat × Nat) × Nat)}
    (among : ∀ entry ∈ entries, entry ∈ (vertexRuns file vertices).zipIdx)
    (good : ∀ entry ∈ entries,
      entry.1.2 = 1 ∨ replace = false ∧ entry.1.2 * degree file entry.1.1 ≤ fanout) :
    ∃ kept, kept.map Prod.fst = expand (entries.map Prod.fst) ∧ Shared file fanout replace kept ∧
      keptRows kept = keptRows (entries.map fun (run, number) => (run.1, column (runItems file run)
        (runPlaces file strategy fanout replace draw run number))) := by
  induction entries with
  | nil => exact ⟨[], rfl, List.forall_mem_nil _, rfl⟩
  | cons entry entries inductionHypothesis =>
    obtain ⟨here, others⟩ := List.forall_mem_cons.mp among
    obtain ⟨goodHere, goodOthers⟩ := List.forall_mem_cons.mp good
    obtain ⟨kept, listed, shared, rows⟩ := inductionHypothesis others goodOthers
    obtain ⟨share, fair, joined, _⟩ := run_shares strategy draws here goodHere
    refine ⟨List.replicate entry.1.2 (entry.1.1, share) ++ kept, ?_, ?_, ?_⟩
    · rw [List.map_append, listed, List.map_replicate, List.map_cons, expand_cons]
    · intro given member
      rcases List.mem_append.mp member with front | back
      · rw [(List.mem_replicate.mp front).2]
        exact fair
      · exact shared given back
    · rw [keptRows_append, rows, keptRows_replicate, joined, List.map_cons, keptRows_cons]

/-- Vertices without edges get nothing. -/
theorem shared_vertices {kept : List (Nat × List Nat)}
    (listed : kept.map Prod.fst = vertices.filter fun vertex => 0 < degree file vertex)
    (shared : Shared file fanout replace kept) :
    ∃ all, all.map Prod.fst = vertices ∧ Shared file fanout replace all ∧
      keptRows all = keptRows kept := by
  induction vertices generalizing kept with
  | nil =>
    have none : kept = [] := by simpa using listed
    exact ⟨[], rfl, List.forall_mem_nil _, by rw [none]⟩
  | cons vertex vertices inductionHypothesis =>
    by_cases edges : 0 < degree file vertex
    · rw [List.filter_cons_of_pos (by simpa using edges)] at listed
      obtain ⟨entry, rest, rfl, first, behind⟩ := List.map_eq_cons_iff.mp listed
      obtain ⟨here, others⟩ := List.forall_mem_cons.mp shared
      obtain ⟨all, named, fair, rows⟩ := inductionHypothesis behind others
      refine ⟨entry :: all, by rw [List.map_cons, named, first], ?_, ?_⟩
      · exact List.forall_mem_cons.mpr ⟨here, fair⟩
      · rw [keptRows_cons, keptRows_cons, rows]
    · rw [List.filter_cons_of_neg (by simpa using edges)] at listed
      obtain ⟨all, named, fair, rows⟩ := inductionHypothesis listed shared
      refine ⟨(vertex, []) :: all, by rw [List.map_cons, named], ?_, ?_⟩
      · refine List.forall_mem_cons.mpr ⟨⟨?_, List.forall_mem_nil _, fun _ => List.nodup_nil⟩, fair⟩
        have none : degree file vertex = 0 := by omega
        rw [quota, none]
        split <;> simp
      · rw [keptRows_cons, rows]
        rfl

/-! ## The whole call -/

theorem keepFanout_limit {columns : Fanout} {lens : List Nat} (sampled : strategy ≠ .all)
    (positive : 0 < fanout) :
    keepFanout columns lens (some (fanout : Int)) replace strategy draw =
      if ¬ replace = true ∧ ∀ length ∈ lens, length ≤ fanout then columns
      else sampleSegments columns fanout replace strategy draw := by
  have limited : ¬ (some (fanout : Int) = some 0 ∨ strategy = .all) := by
    rintro (none | all)
    · have zero := Option.some.inj none
      omega
    · exact sampled all
  have longest : ((lens.max?.getD 0 : Nat) : Int) ≤ fanout ↔ ∀ length ∈ lens, length ≤ fanout := by
    rw [Int.ofNat_le]
    cases found : lens.max? with
    | none => simp [List.max?_eq_none_iff.mp found]
    | some longest => exact List.max?_le_iff found
  simp only [keepFanout, if_neg limited, longest, Int.toNat_natCast]

/-- Unless all edges of every vertex are kept, only runs that are fairly shared remain. -/
theorem unmerged_iff
    (sampled : ¬ (¬ replace = true ∧ ∀ vertex ∈ vertices, degree file vertex ≤ fanout)) :
    Unmerged file vertices fanout replace ↔ ∀ run ∈ vertexRuns file vertices,
      run.2 = 1 ∨ replace = false ∧ run.2 * degree file run.1 ≤ fanout := by
  rw [Unmerged]
  cases replace with
  | true => simp
  | false =>
    have many : ¬ ∀ vertex ∈ vertices, degree file vertex ≤ fanout := fun few =>
      sampled ⟨Bool.false_ne_true, few⟩
    simp only [Bool.false_eq_true, if_false, many, false_or, true_and]

/-- The number of rows that fair shares have. -/
theorem shares_length {kept : List (Nat × List Nat)} (listed : kept.map Prod.fst = vertices)
    (shared : Shared file fanout replace kept) (return_eids : Bool) :
    (columnsOf file return_eids kept).src_rep.length = ((vertexRuns file vertices).map fun run =>
      run.2 * quota fanout replace (degree file run.1)).sum := by
  have sources : (columnsOf file return_eids kept).src_rep = vertices.flatMap fun vertex =>
      List.replicate (quota fanout replace (degree file vertex)) vertex := by
    rw [← listed, List.flatMap_map, columnsOf]
    exact List.flatMap_congr fun entry member => by rw [(shared entry member).1]
  have empty (vertex : Nat) (none : degree file vertex = 0) :
      List.replicate (quota fanout replace (degree file vertex)) vertex = [] := by
    rw [none, quota]
    split <;> simp
  rw [sources, flatMap_vertices _ empty, List.length_flatMap]
  refine congrArg List.sum (List.map_congr_left fun run _ => ?_)
  simp

/-- The number of rows that the sampler gives. -/
theorem sampled_length (draws : Draws fanout replace draw) (return_eids : Bool) :
    (columnsOf file return_eids
      (sampledRuns file vertices strategy fanout replace draw)).src_rep.length =
        ((vertexRuns file vertices).map fun run =>
          quota fanout replace (run.2 * degree file run.1)).sum := by
  have each : ((vertexRuns file vertices).zipIdx.map fun entry =>
      (runPlaces file strategy fanout replace draw entry.1 entry.2).length) =
        (vertexRuns file vertices).zipIdx.map fun entry =>
          quota fanout replace (entry.1.2 * degree file entry.1.1) := by
    refine List.map_congr_left fun entry member => ?_
    have filled := (runs_parts file vertices).2 _ (List.fst_mem_of_mem_zipIdx member)
    exact (chosen_spec _ draws entry.2 (Nat.mul_pos filled.1 filled.2)).1
  have numbered : ((vertexRuns file vertices).zipIdx.map fun entry =>
      quota fanout replace (entry.1.2 * degree file entry.1.1)) =
        (vertexRuns file vertices).map fun run => quota fanout replace (run.2 * degree file run.1) := by
    have firsts := congrArg (List.map fun run => quota fanout replace (run.2 * degree file run.1))
      (List.zipIdx_map_fst 0 (vertexRuns file vertices))
    rwa [List.map_map] at firsts
  rw [columnsOf, sampledRuns, List.flatMap_map, List.length_flatMap, ← numbered, ← each]
  refine congrArg List.sum (List.map_congr_left fun entry _ => ?_)
  simp [column_length]

/-- Numbers that are nowhere greater have no greater sum, and the same sum only if they are the same. -/
theorem equal_of_sums {Item : Type} {first second : Item → Nat} {items : List Item}
    (below : ∀ item ∈ items, first item ≤ second item) :
    (items.map first).sum ≤ (items.map second).sum ∧
      ((items.map first).sum = (items.map second).sum → ∀ item ∈ items, first item = second item) := by
  induction items with
  | nil => exact ⟨Nat.le_refl _, fun _ => List.forall_mem_nil _⟩
  | cons item items inductionHypothesis =>
    obtain ⟨here, others⟩ := List.forall_mem_cons.mp below
    obtain ⟨rest, same⟩ := inductionHypothesis others
    simp only [List.map_cons, List.sum_cons]
    exact ⟨by omega, fun sums => List.forall_mem_cons.mpr ⟨by omega, same (by omega)⟩⟩

theorem times_one {times amount : Nat} (positive : 0 < amount) (some_time : 0 < times)
    (same : amount = times * amount) : times = 1 := by
  by_contra several
  have twice : 2 * amount ≤ times * amount := Nat.mul_le_mul_right amount (by omega)
  omega

/-- A run gets no more than its vertices are due, and as much only if it is one vertex or kept as a
whole. -/
theorem run_quota {times edges : Nat} (positive : 0 < fanout) (some_time : 0 < times)
    (some_edge : 0 < edges) :
    quota fanout replace (times * edges) ≤ times * quota fanout replace edges ∧
      (quota fanout replace (times * edges) = times * quota fanout replace edges →
        times = 1 ∨ replace = false ∧ times * edges ≤ fanout) := by
  have product : 0 < times * edges := Nat.mul_pos some_time some_edge
  have least (amount : Nat) : amount ≤ times * amount := Nat.le_mul_of_pos_left amount some_time
  cases replace with
  | true =>
    rw [quota_enough product (.inl rfl), quota_enough some_edge (.inl rfl)]
    exact ⟨least fanout, fun same => .inl (times_one positive some_time same)⟩
  | false =>
    rcases Nat.lt_or_ge fanout edges with more | few
    · have moreToo : fanout ≤ times * edges := Nat.le_trans (Nat.le_of_lt more) (least edges)
      rw [quota_enough product (.inr moreToo), quota_enough some_edge (.inr (Nat.le_of_lt more))]
      exact ⟨least fanout, fun same => .inl (times_one positive some_time same)⟩
    · have due : quota fanout false edges = edges := by simp [quota, few]
      rw [due]
      simp only [quota, Bool.false_eq_true, if_false]
      exact ⟨Nat.min_le_right _ _, fun same => .inr ⟨trivial, by omega⟩⟩

end Batch

/-- A call with a fanout gives each vertex a fair share exactly if no run of equal vertices is sampled
as one, or this makes no difference. -/
theorem fanout_per_vertex {file : CsrFile} (wellFormed : WellFormed file) {vertices : List Nat}
    (inside : ∀ vertex ∈ vertices, vertex < file.num_vertices) {return_eids : Bool}
    (held : return_eids = true → file.eids.isSome = true) {name : String}
    {strategy : SamplingStrategy} (named : readStrategy name = .ok strategy)
    (sampled : strategy ≠ .all) {fanout : Nat} (positive : 0 < fanout) {replace : Bool}
    {draw : Nat → Nat → List Nat} (draws : Draws fanout replace draw) :
    (∃ columns, batchNeighbors file (vertices.map Int.ofNat) return_eids (some (fanout : Int)) replace
        name draw = .ok columns ∧ PerVertex file vertices return_eids fanout replace columns) ↔
      Unmerged file vertices fanout replace := by
  have allowed : ∀ limit ∈ some (fanout : Int), 0 ≤ limit := by
    intro limit given
    rw [← Option.mem_some.mp given]
    exact Int.natCast_nonneg fanout
  rw [batch_expands wellFormed inside held named allowed, keepFanout_limit sampled positive]
  simp only [List.forall_mem_map]
  by_cases whole : ¬ replace = true ∧ ∀ vertex ∈ vertices, degree file vertex ≤ fanout
  · obtain ⟨drawn, few⟩ := whole
    have kept : replace = false := by simpa using drawn
    subst kept
    rw [if_pos ⟨drawn, few⟩]
    constructor
    · intro _
      rw [Unmerged, if_neg drawn]
      exact .inl few
    · intro _
      refine ⟨_, rfl, wholeKept file vertices, ?_, ?_, wholeColumns_kept file return_eids vertices⟩
      · rw [wholeKept, List.map_map]
        exact List.map_id _
      · intro entry member
        obtain ⟨vertex, among, rfl⟩ := List.mem_map.mp member
        exact whole_share (few vertex among)
  · rw [if_neg whole, sampleSegments_runs draws return_eids]
    rw [unmerged_iff whole]
    constructor
    · rintro ⟨columns, made, kept, listed, shared, columnsAre⟩
      cases made
      have lengths := congrArg (fun columns => columns.src_rep.length) columnsAre
      simp only [sampled_length draws, shares_length listed shared] at lengths
      have filled := (runs_parts file vertices).2
      have below : ∀ run ∈ vertexRuns file vertices, quota fanout replace (run.2 * degree file run.1) ≤
          run.2 * quota fanout replace (degree file run.1) := fun run member =>
        (run_quota positive (filled run member).1 (filled run member).2).1
      intro run member
      exact (run_quota positive (filled run member).1 (filled run member).2).2
        ((equal_of_sums below).2 lengths run member)
    · intro good
      obtain ⟨some_kept, listed, shared, rows⟩ := shared_runs strategy draws
        (fun entry (member : entry ∈ (vertexRuns file vertices).zipIdx) => member)
        fun entry member => good entry.1 (List.fst_mem_of_mem_zipIdx member)
      rw [List.zipIdx_map_fst, vertexRuns, expand_runs] at listed
      obtain ⟨kept, all, fair, same⟩ := shared_vertices listed shared
      refine ⟨_, rfl, kept, all, fair, ?_⟩
      rw [columnsOf_rows, columnsOf_rows, same, rows]
      rfl

/-- Each vertex of a batch has its one edge drawn. -/
theorem small_batch_fair : ∃ columns,
    batchNeighbors smallFile ([2, 1, 0].map Int.ofNat) true (some (1 : Nat)) false "uniform"
      (fun _ _ => [0]) = .ok columns ∧ PerVertex smallFile [2, 1, 0] true 1 false columns := by
  have known : ∀ vertex ∈ [2, 1, 0], vertex < smallFile.num_vertices := by decide
  have named : readStrategy "uniform" = .ok .uniform := rfl
  have draws : Draws 1 false fun _ _ => [0] := fun _ _ some_place _ =>
    ⟨rfl, List.forall_mem_singleton.mpr some_place, fun _ => List.nodup_singleton 0⟩
  apply (fanout_per_vertex smallFile_wellFormed known (fun _ => rfl) named nofun Nat.one_pos draws).mpr
  rw [Unmerged]
  decide

/-- A vertex that is asked for twice, with one without edges between, gets one edge and not two. -/
theorem repeated_vertex_merged :
    batchNeighbors smallFile ([0, 1, 0].map Int.ofNat) true (some (1 : Nat)) false "first"
      (fun _ _ => []) = .ok { src_rep := [0], dst_flat := [1], eid_flat := some [10] } ∧
    ¬ PerVertex smallFile [0, 1, 0] true 1 false
      { src_rep := [0], dst_flat := [1], eid_flat := some [10] } := by
  refine ⟨by decide, ?_⟩
  rintro ⟨kept, listed, shared, columnsAre⟩
  have lengths := shares_length listed shared true
  rw [← columnsAre] at lengths
  exact absurd lengths (by decide)

end CaracalDB.CsrReader
