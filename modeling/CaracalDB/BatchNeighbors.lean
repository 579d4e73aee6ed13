import CaracalDB.Csr
import CaracalDB.Loops
import CaracalDB.PythonValue
import CaracalDB.Runs
import CaracalDB.VarPath

/-!
# Expanding a batch of vertices

A call expands all vertices of a batch at once: the indices of their edges are computed from the
offsets without a loop. A fanout keeps some edges of each segment; the segments are found again at the
places where the repeated source changes.
-/

namespace CaracalDB.CsrReader

open Runs

/-! ## The reader -/

inductive SamplingStrategy where
  | uniform
  | first
  | all
deriving DecidableEq

def csrError (message : String) : Raised := .caracal { code := "CDB-7083", message }

/-- The strategy of a name. -/
def readStrategy (strategy : String) : Except Raised SamplingStrategy :=
  if strategy = "uniform" then .ok .uniform
  else if strategy = "first" then .ok .first
  else if strategy = "all" then .ok .all
  else .error (csrError ("unsupported CSR sampling strategy: " ++ Value.quoted strategy))

/-- `astype(np.int64)` of an integer of at most 64 bits. -/
def toInt64 (number : Int) : Int := number.bmod (2 ^ 64)

/-- `astype(np.uint64)` -/
def toUint64 (number : Int) : Nat := (number % 2 ^ 64).toNat

/-- The items at some places. -/
def column (items : List Nat) (places : List Nat) : List Nat := places.map (items.getD · 0)

/-- The columns that a call returns. -/
structure Fanout where
  src_rep : List Nat
  dst_flat : List Nat
  eid_flat : Option (List Nat)
deriving DecidableEq

/-- The places that are kept of a segment; `draw` is what `rng.choice` gives for its size. -/
def chosen (strategy : SamplingStrategy) (fanout : Nat) (replace : Bool) (draw : Nat → List Nat)
    (start stop : Nat) : List Nat :=
  let size := stop - start
  if size ≤ fanout ∧ ¬ replace then List.range' start size
  else if strategy = .first then
    if replace ∧ size < fanout then
      List.range' start size ++ resize (List.range' start size) (fanout - size)
    else List.range' start fanout
  else (draw size).map (start + ·)

/-- `_sample_segments(...)`; the segments are numbered in the order of their draws. -/
def sampleSegments (columns : Fanout) (fanout : Nat) (replace : Bool) (strategy : SamplingStrategy)
    (draw : Nat → Nat → List Nat) : Fanout :=
  if columns.src_rep = [] then columns
  else
    let seg_start := flatNonzero (changes columns.src_rep)
    let seg_end := seg_start.tail ++ [columns.src_rep.length]
    let idx := (seg_start.zip seg_end).zipIdx.flatMap fun (bounds, segment) =>
      chosen strategy fanout replace (draw segment) bounds.1 bounds.2
    { src_rep := column columns.src_rep idx
      dst_flat := column columns.dst_flat idx
      eid_flat := columns.eid_flat.map (column · idx) }

/-- What a call keeps of the columns of segments of some lengths. -/
def keepFanout (columns : Fanout) (lens : List Nat) (fanout : Option Int) (replace : Bool)
    (strategy : SamplingStrategy) (draw : Nat → Nat → List Nat) : Fanout :=
  let effective_fanout := if fanout = some 0 ∨ strategy = .all then none else fanout
  match effective_fanout with
  | none => columns
  | some limit =>
      if ¬ replace ∧ (lens.max?.getD 0 : Int) ≤ limit then columns
      else sampleSegments columns limit.toNat replace strategy draw

/-- The ids of edges, if they are asked for. -/
def takeEids (file : CsrFile) (return_eids : Bool) (idx : List Nat) :
    Except Raised (Option (List Nat)) :=
  match return_eids, file.eids with
  | false, _ => .ok none
  | true, some eids => .ok (some (column eids idx))
  | true, none => .error (csrError "this CSR was written without eids; cannot return them")

/-- `batch_neighbors(vids, return_eids, fanout, replace, seed, strategy)` on a file whose offsets do
not fall. -/
def batchNeighbors (file : CsrFile) (vids : List Int) (return_eids : Bool) (fanout : Option Int)
    (replace : Bool) (strategy : String) (draw : Nat → Nat → List Nat) : Except Raised Fanout := do
  let strategy ← readStrategy strategy
  refuse (∃ limit ∈ fanout, limit < 0) (csrError "fanout must be >= 0")
  let no_eids := if return_eids then some [] else none
  if vids = [] then return { src_rep := [], dst_flat := [], eid_flat := no_eids }
  let v := vids.map toInt64
  refuse (∃ vid ∈ v, vid < 0 ∨ (file.num_vertices : Int) ≤ vid)
    (csrError ("vertex id range [" ++ toString (v.min?.getD 0) ++ ", " ++ toString (v.max?.getD 0) ++
      "] outside CSR vertex space [0, " ++ toString file.num_vertices ++ ")"))
  let starts := v.map fun vid => file.offsets.getD vid.toNat 0
  let ends := v.map fun vid => file.offsets.getD (vid + 1).toNat 0
  let lens := List.zipWith (· - ·) ends starts
  let total := lens.sum
  let src_rep := repeatEach (vids.map toUint64) lens
  if total = 0 then return { src_rep, dst_flat := [], eid_flat := no_eids }
  let cum_minus := repeatEach (0 :: cumsum (lens.dropLast.map Int.ofNat)) lens
  let idx := (List.zipWith (· + ·) (repeatEach (starts.map Int.ofNat) lens)
    (List.zipWith (· - ·) (arange total) cum_minus)).map Int.toNat
  let eid_flat ← takeEids file return_eids idx
  return keepFanout { src_rep, dst_flat := column file.neighbors idx, eid_flat } lens fanout replace
    strategy draw

/-! ## Segments -/

/-- Rising offsets up to the number of edges, whose ids are all there; the vertices are counted in 63
bits. -/
structure WellFormed (file : CsrFile) : Prop where
  rising : file.offsets.Pairwise (· ≤ ·)
  last : file.offsets.getLast? = some file.neighbors.length
  eids : ∀ eids ∈ file.eids, eids.length = file.neighbors.length
  addressable : file.offsets.length ≤ 2 ^ 63

def degree (file : CsrFile) (vertex : Nat) : Nat :=
  file.offsets.getD (vertex + 1) 0 - file.offsets.getD vertex 0

/-- The places of the edges of a vertex: the first, and how many there are. -/
def segment (file : CsrFile) (vertex : Nat) : Nat × Nat :=
  (file.offsets.getD vertex 0, degree file vertex)

/-- The ids of the edges of a vertex, in the order of `neighbors_of`. -/
def eidsOf (file : CsrFile) (vertex : Nat) : Option (List Nat) :=
  file.eids.map fun eids => (eids.drop (file.offsets.getD vertex 0)).take (degree file vertex)

/-- All edges of some vertices. -/
def wholeColumns (file : CsrFile) (return_eids : Bool) (vertices : List Nat) : Fanout :=
  let places := segmentItems (vertices.map (segment file))
  { src_rep := vertices.flatMap fun vertex => List.replicate (degree file vertex) vertex
    dst_flat := column file.neighbors places
    eid_flat := if return_eids then file.eids.map (column · places) else none }

section Expand

variable {file : CsrFile} {vertices : List Nat}

/-- Offsets rise to the number of edges. -/
theorem offsets_rise (wellFormed : WellFormed file) {low high : Nat} (ordered : low ≤ high)
    (inside : high ≤ file.num_vertices) :
    file.offsets.getD low 0 ≤ file.offsets.getD high 0 ∧
      file.offsets.getD high 0 ≤ file.neighbors.length := by
  obtain ⟨rising, last, _, _⟩ := wellFormed
  have filled : file.offsets ≠ [] := by
    intro empty
    rw [empty] at last
    cases last
  have long := List.length_pos_of_ne_nil filled
  have count : file.num_vertices = file.offsets.length - 1 := rfl
  have highInside : high < file.offsets.length := by omega
  have lowInside : low < file.offsets.length := by omega
  have ends : file.offsets[file.offsets.length - 1] = file.neighbors.length := by
    rw [List.getLast?_eq_some_getLast filled, List.getLast_eq_getElem filled] at last
    exact Option.some.inj last
  have steps := List.pairwise_iff_getElem.mp rising
  rw [List.getD_eq_getElem?_getD, List.getD_eq_getElem?_getD, List.getElem?_eq_getElem lowInside,
    List.getElem?_eq_getElem highInside, Option.getD_some, Option.getD_some]
  constructor
  · rcases Nat.lt_or_eq_of_le ordered with before | same
    · exact steps low high lowInside highInside before
    · simp only [same, le_refl]
  · rw [← ends]
    rcases Nat.lt_or_eq_of_le (Nat.le_sub_one_of_lt highInside) with before | same
    · exact steps high _ highInside (by omega) before
    · simp only [same, le_refl]

/-- The edges of a vertex are among the edges of the file. -/
theorem segment_within (wellFormed : WellFormed file) {vertex : Nat}
    (inside : vertex < file.num_vertices) :
    file.offsets.getD vertex 0 + degree file vertex ≤ file.neighbors.length := by
  obtain ⟨rise, within⟩ := offsets_rise wellFormed (Nat.le_add_right vertex 1) inside
  rw [degree]
  omega

/-- A slice is a column. -/
theorem slice_column {items : List Nat} {start count : Nat} (within : start + count ≤ items.length) :
    (items.drop start).take count = column items (List.range' start count) := by
  apply List.ext_getElem
  · simp only [column, List.length_take, List.length_drop, List.length_map, List.length_range']
    omega
  · intro index _ among
    have bound : index < count := by simpa [column] using among
    have held : start + index < items.length := by omega
    simp [column, held]

theorem neighbors_of_column (wellFormed : WellFormed file) {vertex : Nat}
    (inside : vertex < file.num_vertices) :
    file.neighbors_of vertex =
      column file.neighbors (List.range' (file.offsets.getD vertex 0) (degree file vertex)) :=
  slice_column (segment_within wellFormed inside)

theorem column_segments {items : List Nat} {segments : List (Nat × Nat)} :
    column items (segmentItems segments) =
      segments.flatMap fun segment => column items (List.range' segment.1 segment.2) := by
  rw [column, segmentItems, List.map_flatMap]
  rfl

theorem toInt64_vertex (wellFormed : WellFormed file) {vertex : Nat}
    (inside : vertex < file.num_vertices) : toInt64 (Int.ofNat vertex) = Int.ofNat vertex := by
  have count : file.num_vertices = file.offsets.length - 1 := rfl
  have few := wellFormed.addressable
  rw [toInt64, Int.ofNat_eq_natCast, Int.bmod_eq_of_le]
  · omega
  · omega

theorem toUint64_vertex (wellFormed : WellFormed file) {vertex : Nat}
    (inside : vertex < file.num_vertices) : toUint64 (Int.ofNat vertex) = vertex := by
  have count : file.num_vertices = file.offsets.length - 1 := rfl
  have few := wellFormed.addressable
  have small : (vertex : Int) % 2 ^ 64 = vertex := Int.emod_eq_of_lt (by omega) (by omega)
  rw [toUint64, Int.ofNat_eq_natCast, small, Int.toNat_natCast]

theorem keepFanout_nothing {columns : Fanout} {lens : List Nat} {fanout : Option Int}
    {replace : Bool} {strategy : SamplingStrategy} {draw : Nat → Nat → List Nat}
    (nothing : columns.src_rep = []) :
    keepFanout columns lens fanout replace strategy draw = columns := by
  simp only [keepFanout]
  split
  · rfl
  · split
    · rfl
    · rw [sampleSegments, if_pos nothing]

theorem sources_nil (file : CsrFile) (return_eids : Bool) {vertices : List Nat}
    (nothing : (vertices.map (degree file)).sum = 0) :
    (wholeColumns file return_eids vertices).src_rep = [] ∧
      segmentItems (vertices.map (segment file)) = [] := by
  have each : ∀ vertex ∈ vertices, degree file vertex = 0 := fun vertex member =>
    List.sum_eq_zero_iff_forall_eq_nat.mp nothing _ (List.mem_map.mpr ⟨vertex, member, rfl⟩)
  constructor
  · rw [wholeColumns, List.flatMap_eq_nil_iff]
    intro vertex member
    rw [each vertex member]
    rfl
  · rw [segmentItems, List.flatMap_eq_nil_iff]
    intro places member
    obtain ⟨vertex, among, rfl⟩ := List.mem_map.mp member
    rw [segment, each vertex among]
    rfl

theorem takeEids_held {return_eids : Bool}
    (held : return_eids = true → file.eids.isSome = true) (idx : List Nat) :
    takeEids file return_eids idx =
      .ok (if return_eids then file.eids.map (column · idx) else none) := by
  cases return_eids with
  | false => rfl
  | true =>
    obtain ⟨eids, there⟩ := Option.isSome_iff_exists.mp (held rfl)
    simp [takeEids, there]

/-- A call on vertices of the file expands them all and keeps what the fanout says. -/
theorem batch_expands (wellFormed : WellFormed file)
    (inside : ∀ vertex ∈ vertices, vertex < file.num_vertices) {return_eids : Bool}
    (held : return_eids = true → file.eids.isSome = true) {name : String}
    {strategy : SamplingStrategy} (named : readStrategy name = .ok strategy) {fanout : Option Int}
    (allowed : ∀ limit ∈ fanout, 0 ≤ limit) (replace : Bool) (draw : Nat → Nat → List Nat) :
    batchNeighbors file (vertices.map Int.ofNat) return_eids fanout replace name draw =
      .ok (keepFanout (wholeColumns file return_eids vertices) (vertices.map (degree file)) fanout
        replace strategy draw) := by
  have passed : ¬ ∃ limit ∈ fanout, limit < 0 := by
    rintro ⟨limit, given, negative⟩
    exact absurd (allowed limit given) (Int.not_le.mpr negative)
  -- without edges the columns are empty, that of the ids as well if they are asked for
  have blank (nothing : (vertices.map (degree file)).sum = 0) :
      keepFanout (wholeColumns file return_eids vertices) (vertices.map (degree file)) fanout replace
        strategy draw =
        { src_rep := [], dst_flat := [], eid_flat := if return_eids then some [] else none } := by
    obtain ⟨sources, places⟩ := sources_nil file return_eids nothing
    have none : vertices.flatMap (fun vertex => List.replicate (degree file vertex) vertex) = [] := sources
    rw [keepFanout_nothing sources]
    simp only [wholeColumns, none, places, column, List.map_nil]
    cases return_eids with
    | false => rfl
    | true =>
      obtain ⟨eids, there⟩ := Option.isSome_iff_exists.mp (held rfl)
      simp [there]
  rw [batchNeighbors, named, ok_bind, refuse, if_neg passed, ok_bind]
  by_cases empty : vertices = []
  · subst empty
    rw [blank rfl]
    rfl
  · have vids : vertices.map Int.ofNat ≠ [] := by simpa using empty
    have cast : (vertices.map Int.ofNat).map toInt64 = vertices.map Int.ofNat := by
      rw [List.map_map]
      apply List.map_congr_left
      intro vertex member
      rw [Function.comp_apply, toInt64_vertex wellFormed (inside vertex member)]
    have sources : (vertices.map Int.ofNat).map toUint64 = vertices.map id := by
      rw [List.map_map]
      apply List.map_congr_left
      intro vertex member
      rw [Function.comp_apply, toUint64_vertex wellFormed (inside vertex member), id]
    have known : ¬ ∃ vid ∈ vertices.map Int.ofNat, vid < 0 ∨ (file.num_vertices : Int) ≤ vid := by
      rintro ⟨vid, member, outside⟩
      obtain ⟨vertex, among, rfl⟩ := List.mem_map.mp member
      have bound := inside vertex among
      simp only [Int.ofNat_eq_natCast] at outside
      omega
    have starts : ((vertices.map Int.ofNat).map fun vid => file.offsets.getD vid.toNat 0) =
        vertices.map fun vertex => file.offsets.getD vertex 0 := by
      rw [List.map_map]
      rfl
    have ends : ((vertices.map Int.ofNat).map fun vid => file.offsets.getD (vid + 1).toNat 0) =
        vertices.map fun vertex => file.offsets.getD (vertex + 1) 0 := by
      rw [List.map_map]
      rfl
    have lens : List.zipWith (· - ·) (vertices.map fun vertex => file.offsets.getD (vertex + 1) 0)
        (vertices.map fun vertex => file.offsets.getD vertex 0) = vertices.map (degree file) := by
      rw [List.zipWith_map, List.zipWith_self]
      rfl
    have places := segment_indices (vertices.map (segment file)) (by simpa using empty)
    have counts : (vertices.map (segment file)).map Prod.snd = vertices.map (degree file) := by
      rw [List.map_map]
      rfl
    have firsts : ((vertices.map (segment file)).map fun segment => (segment.1 : Int)) =
        (vertices.map fun vertex => file.offsets.getD vertex 0).map Int.ofNat := by
      rw [List.map_map, List.map_map]
      rfl
    rw [counts, firsts] at places
    rw [if_neg vids]
    simp only [cast, starts, ends, lens, sources, repeatEach_map, places]
    rw [refuse, if_neg known, ok_bind]
    by_cases nothing : (vertices.map (degree file)).sum = 0
    · have none : vertices.flatMap (fun vertex => List.replicate (degree file vertex) vertex) = [] :=
        (sources_nil file return_eids nothing).1
      rw [if_pos nothing, blank nothing]
      simp only [id, none]
      rfl
    · have counted : ((segmentItems (vertices.map (segment file))).map Int.ofNat).map Int.toNat =
          segmentItems (vertices.map (segment file)) := by
        rw [List.map_map]
        exact List.map_id _
      rw [if_neg nothing, counted, takeEids_held held, ok_bind]
      rfl

/-- The columns of all edges, vertex by vertex. -/
theorem wholeColumns_loop (wellFormed : WellFormed file)
    (inside : ∀ vertex ∈ vertices, vertex < file.num_vertices) (return_eids : Bool) :
    wholeColumns file return_eids vertices =
      { src_rep := vertices.flatMap fun vertex =>
          List.replicate (file.neighbors_of vertex).length vertex
        dst_flat := vertices.flatMap file.neighbors_of
        eid_flat := if return_eids then
          file.eids.map fun _ => vertices.flatMap fun vertex => (eidsOf file vertex).getD []
          else none } := by
  have lengths : ∀ vertex ∈ vertices, (file.neighbors_of vertex).length = degree file vertex := by
    intro vertex member
    rw [neighbors_of_column wellFormed (inside vertex member)]
    simp [column]
  have sources : (vertices.flatMap fun vertex => List.replicate (degree file vertex) vertex) =
      vertices.flatMap fun vertex => List.replicate (file.neighbors_of vertex).length vertex :=
    List.flatMap_congr fun vertex member => by rw [lengths vertex member]
  have targets : column file.neighbors (segmentItems (vertices.map (segment file))) =
      vertices.flatMap file.neighbors_of := by
    rw [column_segments, List.flatMap_map]
    exact List.flatMap_congr fun vertex member =>
      (neighbors_of_column wellFormed (inside vertex member)).symm
  simp only [wholeColumns, sources, targets]
  cases held : file.eids with
  | none => rfl
  | some eids =>
    have ids : column eids (segmentItems (vertices.map (segment file))) =
        vertices.flatMap fun vertex => (eidsOf file vertex).getD [] := by
      rw [column_segments, List.flatMap_map]
      refine List.flatMap_congr fun vertex member => ?_
      have within := segment_within wellFormed (inside vertex member)
      rw [← wellFormed.eids eids held] at within
      rw [eidsOf, held, Option.map_some, Option.getD_some, slice_column within]
      rfl
    rw [Option.map_some, Option.map_some, ids]

end Expand

/-- Without a fanout a call keeps all edges. -/
theorem batch_all {file : CsrFile} (wellFormed : WellFormed file) {vertices : List Nat}
    (inside : ∀ vertex ∈ vertices, vertex < file.num_vertices) {return_eids : Bool}
    (held : return_eids = true → file.eids.isSome = true) {name : String}
    {strategy : SamplingStrategy} (named : readStrategy name = .ok strategy) (replace : Bool)
    (draw : Nat → Nat → List Nat) :
    batchNeighbors file (vertices.map Int.ofNat) return_eids none replace name draw =
      .ok (wholeColumns file return_eids vertices) := by
  rw [batch_expands wellFormed inside held named (by simp) replace draw]
  simp [keepFanout]

/-- Without a fanout a call gives what a loop over the vertices gives, with the ids of the edges if
they are asked for and there. -/
theorem batch_is_loop {file : CsrFile} (wellFormed : WellFormed file) {vertices : List Nat}
    (inside : ∀ vertex ∈ vertices, vertex < file.num_vertices) {name : String}
    {strategy : SamplingStrategy} (named : readStrategy name = .ok strategy) (replace : Bool)
    (draw : Nat → Nat → List Nat) :
    batchNeighbors file (vertices.map Int.ofNat) false none replace name draw =
      .ok
        { src_rep := vertices.flatMap fun vertex =>
            List.replicate (file.neighbors_of vertex).length vertex
          dst_flat := vertices.flatMap file.neighbors_of
          eid_flat := none } ∧
    (file.eids.isSome = true →
      batchNeighbors file (vertices.map Int.ofNat) true none replace name draw =
        .ok
          { src_rep := vertices.flatMap fun vertex =>
              List.replicate (file.neighbors_of vertex).length vertex
            dst_flat := vertices.flatMap file.neighbors_of
            eid_flat := some (vertices.flatMap fun vertex => (eidsOf file vertex).getD []) }) := by
  have unasked : false = true → file.eids.isSome = true := fun asked => absurd asked Bool.false_ne_true
  refine ⟨?_, fun there => ?_⟩
  · rw [batch_all wellFormed inside unasked named, wholeColumns_loop wellFormed inside]
    rfl
  · obtain ⟨eids, held⟩ := Option.isSome_iff_exists.mp there
    rw [batch_all wellFormed inside (fun _ => there) named, wholeColumns_loop wellFormed inside, held]
    rfl

/-- Three vertices: the first has two edges, the second none, the third one. -/
def smallFile : CsrFile :=
  { offsets := [0, 2, 2, 3], neighbors := [1, 2, 0], eids := some [10, 11, 12] }

theorem smallFile_wellFormed : WellFormed smallFile :=
  ⟨by decide, rfl, fun _ held => Option.some.inj held ▸ rfl, by decide⟩

/-- A batch with a repeated vertex and one without edges. -/
theorem small_batch_expanded :
    batchNeighbors smallFile ([2, 1, 0, 0].map Int.ofNat) true none false "uniform" (fun _ _ => []) =
      .ok { src_rep := [2, 0, 0, 0, 0], dst_flat := [0, 1, 2, 1, 2],
            eid_flat := some [12, 10, 11, 10, 11] } := by
  have known : ∀ vertex ∈ [2, 1, 0, 0], vertex < smallFile.num_vertices := by decide
  have named : readStrategy "uniform" = .ok .uniform := rfl
  exact (batch_is_loop smallFile_wellFormed known named false fun _ _ => []).2 rfl

end CaracalDB.CsrReader
