import CaracalDB.CsrArrays
import CaracalDB.WalSegment
import CaracalDB.Words

/-!
# Traversing adjacency files

The Rust engine accepts a file by its checksum, the lengths of its arrays and its last
offset, and then indexes by every offset and every neighbor. So an accepted adjacency
is traversed without a panic exactly if no offset falls and every neighbor behind the
first offset is a vertex. The Python builder bounds the sources of edges only, so its
files can have a neighbor that is no vertex.
-/

namespace CaracalDB.Graph

open Bytes Crc32 Log

/-! ## The engine -/

/-- How a function of the Rust engine ends without an answer; a loop may also not have ended. -/
inductive Halt where
  | error (raised : Raised)
  | panic
  | unfinished
deriving DecidableEq

/-- Return an error if a check fails. -/
def rejectIf (condition : Prop) [Decidable condition] (code message : String) :
    Except Halt Unit :=
  if condition then .error (.error (.caracal { code, message })) else .ok ()

/-- `values[index]` -/
def indexed (values : List Nat) (index : Nat) : Except Halt Nat :=
  match values[index]? with
  | some value => .ok value
  | none => .error .panic

/-- `values[start..end]` -/
def sliced (values : List Nat) (start stop : Nat) : Except Halt (List Nat) :=
  if start ≤ stop ∧ stop ≤ values.length then .ok ((values.drop start).take (stop - start))
  else .error .panic

/-- Index an array that may not be there. -/
def indexedIn (values : Option (List Nat)) (index : Nat) : Except Halt (Option Nat) :=
  match values with
  | none => .ok none
  | some values => some <$> indexed values index

/-- Slice an array that may not be there. -/
def slicedIn (values : Option (List Nat)) (start stop : Nat) : Except Halt (Option (List Nat)) :=
  match values with
  | none => .ok none
  | some values => some <$> sliced values start stop

def validateCsr (csr : CsrFile) : Except Halt Unit := do
  rejectIf (csr.offsets.length ≠ (csr.num_vertices + 1) % 2 ^ 64)
    "CDB-7080" "CSR offsets length must equal num_vertices + 1"
  rejectIf (csr.neighbors.length ≠ csr.num_edges)
    "CDB-7080" "CSR neighbors length must equal num_edges"
  rejectIf (csr.offsets.getLast? ≠ some csr.num_edges)
    "CDB-7080" "CSR offsets[-1] must equal num_edges"
  rejectIf (csr.eids.any fun eids => eids.length ≠ csr.neighbors.length)
    "CDB-7080" "CSR eids must be the same length as neighbors"

def CSR_HEAD_SIZE : Nat := 24

def CSR_FOOTER_SIZE : Nat := 4

/-- The file of an adjacency, as both languages lay it out. -/
def csrBytes (csr : CsrFile) : List UInt8 :=
  let body := word 8 csr.num_vertices ++ word 8 csr.num_edges ++ word 4 csr.flags ++ word 4 0 ++
    wordBytes 8 csr.offsets ++ wordBytes 8 csr.neighbors ++ wordBytes 8 (csr.eids.getD [])
  packHeader ++ body ++ word 4 (crc32 body)

def writeCsr (csr : CsrFile) : Except Halt (List UInt8) := do
  validateCsr csr
  return csrBytes csr

/-- `read_u64_vec(data, cursor, count, path)`: the array and the cursor behind it. -/
def readU64Vec (path : String) (data : List UInt8) (cursor count : Nat) :
    Except Halt (List Nat × Nat) := do
  let byte_count := count * 8
  rejectIf (2 ^ 64 ≤ byte_count) "CDB-7081" "CSR array is too large"
  if 2 ^ 64 ≤ cursor + byte_count then throw .panic
  rejectIf (data.length - CSR_FOOTER_SIZE < cursor + byte_count)
    "CDB-7081" ("CSR file truncated: " ++ path)
  return (words 8 count (data.drop cursor), cursor + byte_count)

/-- The ids of edges, if the flags announce them. -/
def readEids (path : String) (data : List UInt8) (cursor count flags : Nat) :
    Except Halt (Option (List Nat)) :=
  if flags &&& CSR_FLAG_HAS_EIDS ≠ 0 then
    (fun read => some read.1) <$> readU64Vec path data cursor count
  else .ok none

/-- `read_csr(path)` on the bytes of the file. -/
def readCsr (path : String) (data : List UInt8) : Except Halt CsrFile := do
  rejectIf (data.length < HEADER_SIZE + CSR_HEAD_SIZE + CSR_FOOTER_SIZE)
    "CDB-7081" ("CSR file too small: " ++ path)
  rejectIf (data.take MAGIC.length ≠ MAGIC) "CDB-7081" ("invalid CSR magic: " ++ path)
  let body_end := data.length - CSR_FOOTER_SIZE
  let body := slice data HEADER_SIZE body_end
  rejectIf (crc32 body ≠ value (data.drop body_end))
    "CDB-7081" ("CSR checksum mismatch: " ++ path)
  let num_vertices := value (slice data HEADER_SIZE (HEADER_SIZE + 8))
  let num_edges := value (slice data (HEADER_SIZE + 8) (HEADER_SIZE + 16))
  let flags := value (slice data (HEADER_SIZE + 16) (HEADER_SIZE + 20))
  let offsets ← readU64Vec path data (HEADER_SIZE + CSR_HEAD_SIZE) ((num_vertices + 1) % 2 ^ 64)
  let neighbors ← readU64Vec path data offsets.2 num_edges
  let eids ← readEids path data neighbors.2 num_edges flags
  let csr : CsrFile :=
    { num_vertices, num_edges, flags, offsets := offsets.1, neighbors := neighbors.1, eids }
  validateCsr csr
  return csr

/-- `write_csr(path, offsets, neighbors, eids)` in Python, on arrays of one dimension. -/
def pythonWriteCsr (offsets neighbors : List Nat) (eids : Option (List Nat)) :
    Except Raised (List UInt8) := do
  refuse (eids.any fun values => values.length ≠ neighbors.length) (.caracal
    { code := "CDB-7080", message := "CSR eids must be UInt64 and same length as neighbors" })
  refuse (offsets = [])
    (.caracal { code := "CDB-7080", message := "CSR offsets must have >= 1 element" })
  refuse (offsets.getLastD 0 ≠ neighbors.length) (.caracal
    { code := "CDB-7080"
      message := "CSR offsets[-1]=" ++ toString (offsets.getLastD 0) ++ " != num_edges=" ++
        toString neighbors.length })
  return csrBytes
    { num_vertices := offsets.length - 1
      num_edges := neighbors.length
      flags := if eids.isSome then CSR_FLAG_HAS_EIDS else 0
      offsets, neighbors, eids }

structure CsrNeighbors where
  vertex : Nat
  neighbors : List Nat
  eids : Option (List Nat)
deriving DecidableEq

structure GraphPath where
  nodes : List Nat
  eids : List Nat
deriving DecidableEq

structure KHopRow where
  seed : Nat
  node : Nat
  depth : Nat
  path : GraphPath
deriving DecidableEq

structure SampleRow where
  src : Nat
  dst : Nat
  eid : Option Nat
deriving DecidableEq

def vertexError (csr : CsrFile) (vertex : Nat) : String :=
  "vertex id out of range: " ++ toString vertex ++ " (n=" ++ toString csr.num_vertices ++ ")"

def csrNeighborsOf (csr : CsrFile) (vertex : Nat) : Except Halt CsrNeighbors := do
  rejectIf (csr.num_vertices ≤ vertex) "CDB-7083" (vertexError csr vertex)
  let start ← indexed csr.offsets vertex
  let stop ← indexed csr.offsets (vertex + 1)
  let neighbors ← sliced csr.neighbors start stop
  let eids ← slicedIn csr.eids start stop
  return { vertex, neighbors, eids }

/-- The loop over the edges of a node: what was seen, and the nodes that were not, with the
path to each. The search knows a node by its `key`. -/
def expand {Key : Type} [DecidableEq Key] (csr : CsrFile) (key : Nat → Key) (path : GraphPath) :
    List Nat → List Key → List (Nat × GraphPath) →
      Except Halt (List Key × List (Nat × GraphPath))
  | [], seen, found => .ok (seen, found)
  | index :: indices, seen, found => do
      let next ← indexed csr.neighbors index
      if key next ∈ seen then expand csr key path indices seen found
      else
        let eid ← indexedIn csr.eids index
        expand csr key path indices (key next :: seen)
          (found ++ [(next, { nodes := path.nodes ++ [next], eids := path.eids ++ eid.toList })])

/-- The indices of the edges of a node; there are none where the offsets fall. -/
def edgeIndices (csr : CsrFile) (node : Nat) : Except Halt (List Nat) := do
  let start ← indexed csr.offsets node
  let stop ← indexed csr.offsets (node + 1)
  return List.range' start (stop - start)

/-- The queue loop of `csr_k_hop`. -/
def kHopLoop (csr : CsrFile) (seed min_depth max_depth : Nat) :
    Nat → List (Nat × Nat × GraphPath) → List (Nat × Nat) → List KHopRow →
      Except Halt (List KHopRow)
  | 0, _, _, _ => .error .unfinished
  | _ + 1, [], _, rows => .ok rows
  | fuel + 1, (node, depth, path) :: queue, seen, rows =>
      let rows := if min_depth ≤ depth ∧ depth ≤ max_depth then
        rows ++ [{ seed, node, depth, path }] else rows
      if depth = max_depth then kHopLoop csr seed min_depth max_depth fuel queue seen rows
      else do
        let indices ← edgeIndices csr node
        let (seen, found) ← expand csr (fun next => (next, depth + 1)) path indices seen []
        kHopLoop csr seed min_depth max_depth fuel
          (queue ++ found.map fun next => (next.1, depth + 1, next.2)) seen rows

/-- The loop of `csr_k_hop` over its seeds. -/
def kHopFrom (csr : CsrFile) (min_depth max_depth fuel : Nat) (rows : List KHopRow) (seed : Nat) :
    Except Halt (List KHopRow) := do
  rejectIf (csr.num_vertices ≤ seed) "CDB-7083" (vertexError csr seed)
  kHopLoop csr seed min_depth max_depth fuel [(seed, 0, { nodes := [seed], eids := [] })]
    [(seed, 0)] rows

def csrKHop (csr : CsrFile) (seeds : List Nat) (min_depth max_depth fuel : Nat) :
    Except Halt (List KHopRow) := do
  rejectIf (max_depth < min_depth) "CDB-7083" "min_depth must be <= max_depth"
  seeds.foldlM (kHopFrom csr min_depth max_depth fuel) []

/-- The queue loop of `csr_shortest_path`. -/
def shortestLoop (csr : CsrFile) (target max_depth : Nat) :
    Nat → List (Nat × GraphPath) → List Nat → Except Halt (Option GraphPath)
  | 0, _, _ => .error .unfinished
  | _ + 1, [], _ => .ok none
  | fuel + 1, (node, path) :: queue, seen =>
      if node = target then .ok (some path)
      else if max_depth ≤ path.nodes.length - 1 then
        shortestLoop csr target max_depth fuel queue seen
      else do
        let indices ← edgeIndices csr node
        let (seen, found) ← expand csr id path indices seen []
        shortestLoop csr target max_depth fuel (queue ++ found) seen

def csrShortestPath (csr : CsrFile) (source target max_depth fuel : Nat) :
    Except Halt (Option GraphPath) := do
  rejectIf (csr.num_vertices ≤ source ∨ csr.num_vertices ≤ target)
    "CDB-7083" "vertex id out of range"
  shortestLoop csr target max_depth fuel [(source, { nodes := [source], eids := [] })] [source]

/-- The loop of `csr_neighbor_sample` over the places of a sample. -/
def sampleLoop (neighbors : CsrNeighbors) (with_replacement : Bool) :
    List Nat → Except Halt (List SampleRow)
  | [] => .ok []
  | place :: places =>
      let index := if with_replacement then place % neighbors.neighbors.length else place
      if neighbors.neighbors.length ≤ index then .ok []
      else do
        let dst ← indexed neighbors.neighbors index
        let eid ← indexedIn neighbors.eids index
        return { src := neighbors.vertex, dst, eid } :: (← sampleLoop neighbors with_replacement places)

/-- The loop of `csr_neighbor_sample` over its seeds. -/
def sampleFrom (csr : CsrFile) (fanout : Option Nat) (with_replacement : Bool)
    (rows : List SampleRow) (seed : Nat) : Except Halt (List SampleRow) := do
  let neighbors ← csrNeighborsOf csr seed
  let take := fanout.getD neighbors.neighbors.length
  if take = 0 ∨ neighbors.neighbors = [] then return rows
  return rows ++ (← sampleLoop neighbors with_replacement (List.range take))

def csrNeighborSample (csr : CsrFile) (seeds : List Nat) (fanout : Option Nat)
    (with_replacement : Bool) : Except Halt (List SampleRow) :=
  seeds.foldlM (sampleFrom csr fanout with_replacement) []

/-! ## Panics -/

/-- No vertex, seed list, depth or fanout makes a traversal panic, however long it goes on. -/
structure CsrFile.Safe (csr : CsrFile) : Prop where
  neighbors_of : ∀ vertex < 2 ^ 64, csrNeighborsOf csr vertex ≠ .error .panic
  k_hop : ∀ seeds : List Nat, (∀ seed ∈ seeds, seed < 2 ^ 64) → ∀ min_depth < 2 ^ 32,
    ∀ max_depth < 2 ^ 32, ∀ fuel, csrKHop csr seeds min_depth max_depth fuel ≠ .error .panic
  shortest_path : ∀ source < 2 ^ 64, ∀ target < 2 ^ 64, ∀ max_depth < 2 ^ 32, ∀ fuel,
    csrShortestPath csr source target max_depth fuel ≠ .error .panic
  neighbor_sample : ∀ seeds : List Nat, (∀ seed ∈ seeds, seed < 2 ^ 64) → ∀ fanout,
    (∀ take ∈ fanout, take < 2 ^ 64) → ∀ with_replacement,
      csrNeighborSample csr seeds fanout with_replacement ≠ .error .panic

/-- No offset falls, and every neighbor behind the first offset is a vertex. -/
structure CsrFile.Sound (csr : CsrFile) : Prop where
  rising : csr.offsets.Pairwise (· ≤ ·)
  inside : ∀ index node, csr.offsets.headD 0 ≤ index → csr.neighbors[index]? = some node →
    node < csr.num_vertices

/-- What the checks of the engine establish. -/
structure CsrFile.Shaped (csr : CsrFile) : Prop where
  offsets : csr.offsets.length = csr.num_vertices + 1
  neighbors : csr.neighbors.length = csr.num_edges
  last : csr.offsets.getLast? = some csr.num_edges
  eids : ∀ eids ∈ csr.eids, eids.length = csr.neighbors.length

theorem rejectIf_ok {condition : Prop} [Decidable condition] {code message : String} {answer : Unit}
    (passed : rejectIf condition code message = .ok answer) : ¬ condition := by
  intro failed
  rw [rejectIf, if_pos failed] at passed
  cases passed

theorem rejectIf_pass {condition : Prop} [Decidable condition] (code message : String)
    (holds : ¬ condition) : rejectIf condition code message = .ok () := if_neg holds

theorem rejectIf_calm (condition : Prop) [Decidable condition] (code message : String) :
    rejectIf condition code message ≠ .error .panic := by
  rw [rejectIf]
  split <;> exact nofun

/-- What does not panic, followed by what does not panic. -/
theorem bind_calm {Answer Next : Type} {first : Except Halt Answer}
    {next : Answer → Except Halt Next} (calm : first ≠ .error .panic)
    (then_calm : ∀ answer, first = .ok answer → next answer ≠ .error .panic) :
    first >>= next ≠ .error .panic := by
  cases first with
  | error halt => exact fun stopped => calm (congrArg Except.error (Except.error.inj stopped))
  | ok answer => exact then_calm answer rfl

/-- A loop of steps that do not panic does not panic. -/
theorem foldlM_calm {State Item : Type} {step : State → Item → Except Halt State}
    {items : List Item} (calm : ∀ item ∈ items, ∀ state, step state item ≠ .error .panic)
    (state : State) : items.foldlM step state ≠ .error .panic := by
  induction items generalizing state with
  | nil => exact nofun
  | cons item items inductionHypothesis =>
    obtain ⟨first, others⟩ := List.forall_mem_cons.mp calm
    rw [List.foldlM_cons]
    exact bind_calm (first state) fun after _ => inductionHypothesis others after

theorem validate_ok {csr : CsrFile} {answer : Unit} (range : csr.num_vertices < 2 ^ 64)
    (valid : validateCsr csr = .ok answer) : csr.Shaped := by
  obtain ⟨_, offsets, rest⟩ := except_bind_ok valid
  obtain ⟨_, neighbors, rest⟩ := except_bind_ok rest
  obtain ⟨_, last, eids⟩ := except_bind_ok rest
  have offsets := not_not.mp (rejectIf_ok offsets)
  have last := not_not.mp (rejectIf_ok last)
  -- With `2 ^ 64 - 1` vertices the length wraps to zero, and there is no last offset.
  have room : csr.num_vertices + 1 < 2 ^ 64 := by
    by_contra full
    have wraps : csr.num_vertices + 1 = 2 ^ 64 := by omega
    rw [wraps, Nat.mod_self] at offsets
    rw [List.eq_nil_of_length_eq_zero offsets] at last
    cases last
  refine ⟨?_, not_not.mp (rejectIf_ok neighbors), last, fun values held => ?_⟩
  · rwa [Nat.mod_eq_of_lt room] at offsets
  · have equal := rejectIf_ok eids
    rw [Option.mem_def.mp held] at equal
    simpa using equal

theorem indexed_some {values : List Nat} {index value : Nat} (held : values[index]? = some value) :
    indexed values index = .ok value := by
  rw [indexed, held]

theorem indexed_beyond {values : List Nat} {index : Nat} (beyond : values.length ≤ index) :
    indexed values index = .error .panic := by
  rw [indexed, List.getElem?_eq_none beyond]

/-- An access answers or panics. -/
theorem indexed_ends (values : List Nat) (index : Nat) :
    (∃ value, indexed values index = .ok value) ∨ indexed values index = .error .panic := by
  rw [indexed]
  cases values[index]? with
  | some value => exact .inl ⟨value, rfl⟩
  | none => exact .inr rfl

theorem indexedIn_ends (values : Option (List Nat)) (index : Nat) :
    (∃ value, indexedIn values index = .ok value) ∨ indexedIn values index = .error .panic := by
  cases values with
  | none => exact .inl ⟨none, rfl⟩
  | some values =>
    rcases indexed_ends values index with ⟨value, held⟩ | beyond
    · exact .inl ⟨some value, by rw [indexedIn, held]; rfl⟩
    · exact .inr (by rw [indexedIn, beyond]; rfl)

theorem sliced_within {values : List Nat} {start stop : Nat} (ordered : start ≤ stop)
    (within : stop ≤ values.length) :
    sliced values start stop = .ok ((values.drop start).take (stop - start)) :=
  if_pos ⟨ordered, within⟩

namespace CsrFile

variable {csr : CsrFile}

/-- The offsets of a vertex. -/
theorem Shaped.edges (shaped : csr.Shaped) {vertex : Nat} (inside : vertex < csr.num_vertices) :
    csr.offsets[vertex]? = some (csr.offsets.getD vertex 0) ∧
      csr.offsets[vertex + 1]? = some (csr.offsets.getD (vertex + 1) 0) := by
  have size := shaped.offsets
  have low : vertex < csr.offsets.length := by omega
  have high : vertex + 1 < csr.offsets.length := by omega
  simp [low, high]

/-- The last offset is the number of neighbors. -/
theorem Shaped.last_offset (shaped : csr.Shaped) :
    csr.offsets.getD csr.num_vertices 0 = csr.neighbors.length := by
  have final := shaped.last
  rw [List.getLast?_eq_getElem?, shaped.offsets, Nat.add_sub_cancel] at final
  rw [List.getD_eq_getElem?_getD, final, shaped.neighbors]
  rfl

theorem first_offset (csr : CsrFile) : csr.offsets.headD 0 = csr.offsets.getD 0 0 := by
  cases csr.offsets <;> rfl

/-- The slice of a vertex lies in the neighbors, behind the first offset. -/
theorem Sound.slice (shaped : csr.Shaped) (sound : csr.Sound) {vertex : Nat}
    (inside : vertex < csr.num_vertices) :
    csr.offsets.headD 0 ≤ csr.offsets.getD vertex 0 ∧
      csr.offsets.getD vertex 0 ≤ csr.offsets.getD (vertex + 1) 0 ∧
      csr.offsets.getD (vertex + 1) 0 ≤ csr.neighbors.length := by
  have size := shaped.offsets
  have ordered {low high : Nat} (before : low ≤ high) (within : high < csr.offsets.length) :
      csr.offsets.getD low 0 ≤ csr.offsets.getD high 0 := by
    have below : low < csr.offsets.length := by omega
    rw [List.getD_eq_getElem?_getD, List.getElem?_eq_getElem below, List.getD_eq_getElem?_getD,
      List.getElem?_eq_getElem within]
    rcases Nat.lt_or_eq_of_le before with less | rfl
    · exact List.pairwise_iff_getElem.mp sound.rising low high below within less
    · exact Nat.le_refl _
  exact ⟨first_offset csr ▸ ordered (Nat.zero_le _) (by omega), ordered (Nat.le_succ _) (by omega),
    shaped.last_offset ▸ ordered inside (by omega)⟩

theorem Sound.neighbors_of (shaped : csr.Shaped) (sound : csr.Sound) (vertex : Nat) :
    csrNeighborsOf csr vertex ≠ .error .panic := by
  refine bind_calm (rejectIf_calm _ _ _) fun _ passed => ?_
  have inside := Nat.lt_of_not_le (rejectIf_ok passed)
  obtain ⟨low, high⟩ := shaped.edges inside
  obtain ⟨_, ordered, within⟩ := sound.slice shaped inside
  rw [indexed_some low, ok_bind, indexed_some high, ok_bind, sliced_within ordered within, ok_bind]
  cases given : csr.eids with
  | none => exact nofun
  | some eids =>
    have size := shaped.eids eids given
    rw [slicedIn, sliced_within ordered (size ▸ within)]
    exact nofun

/-- Indices in range lead to vertices. -/
theorem Sound.expand {Key : Type} [DecidableEq Key] (shaped : csr.Shaped) (sound : csr.Sound)
    (key : Nat → Key) (path : GraphPath) {indices : List Nat}
    (within : ∀ index ∈ indices, csr.offsets.headD 0 ≤ index ∧ index < csr.neighbors.length)
    (seen : List Key) {found : List (Nat × GraphPath)}
    (vertices : ∀ next ∈ found, next.1 < csr.num_vertices) :
    ∃ after, expand csr key path indices seen found = .ok after ∧
      ∀ next ∈ after.2, next.1 < csr.num_vertices := by
  induction indices generalizing seen found with
  | nil => exact ⟨_, rfl, vertices⟩
  | cons index indices inductionHypothesis =>
    obtain ⟨⟨behind, below⟩, others⟩ := List.forall_mem_cons.mp within
    have held := List.getElem?_eq_getElem below
    rw [Graph.expand, indexed_some held, ok_bind]
    by_cases again : key csr.neighbors[index] ∈ seen
    · rw [if_pos again]
      exact inductionHypothesis others seen vertices
    · rw [if_neg again]
      obtain ⟨eid, read⟩ : ∃ eid, indexedIn csr.eids index = .ok eid := by
        cases given : csr.eids with
        | none => exact ⟨none, rfl⟩
        | some eids =>
          have size := shaped.eids eids given
          have place := List.getElem?_eq_getElem (l := eids) (i := index) (by omega)
          exact ⟨some eids[index], by rw [indexedIn, indexed_some place]; rfl⟩
      rw [read, ok_bind]
      refine inductionHypothesis others _ fun next member => ?_
      rcases List.mem_append.mp member with old | new
      · exact vertices next old
      · rw [List.mem_singleton.mp new]
        exact sound.inside index _ behind held

/-- The edges of a vertex are in range. -/
theorem Sound.edgeIndices (shaped : csr.Shaped) (sound : csr.Sound) {node : Nat}
    (inside : node < csr.num_vertices) :
    ∃ indices, edgeIndices csr node = .ok indices ∧
      ∀ index ∈ indices, csr.offsets.headD 0 ≤ index ∧ index < csr.neighbors.length := by
  obtain ⟨low, high⟩ := shaped.edges inside
  obtain ⟨behind, ordered, within⟩ := sound.slice shaped inside
  refine ⟨_, by rw [Graph.edgeIndices, indexed_some low, ok_bind, indexed_some high, ok_bind]; rfl, ?_⟩
  intro index member
  have bounds := List.mem_range'_1.mp member
  omega

/-- A queue of vertices is worked off without a panic. -/
theorem Sound.kHopLoop (shaped : csr.Shaped) (sound : csr.Sound) (seed min_depth max_depth : Nat)
    {fuel : Nat} {queue : List (Nat × Nat × GraphPath)}
    (vertices : ∀ item ∈ queue, item.1 < csr.num_vertices) (seen : List (Nat × Nat))
    (rows : List KHopRow) :
    kHopLoop csr seed min_depth max_depth fuel queue seen rows ≠ .error .panic := by
  induction fuel generalizing queue seen rows with
  | zero => exact nofun
  | succ fuel inductionHypothesis =>
    match queue, vertices with
    | [], _ => exact nofun
    | (node, depth, path) :: queue, vertices =>
      obtain ⟨inside, others⟩ := List.forall_mem_cons.mp vertices
      rw [Graph.kHopLoop]
      by_cases deepest : depth = max_depth
      · rw [if_pos deepest]
        exact inductionHypothesis others _ _
      · obtain ⟨indices, listed, within⟩ := sound.edgeIndices shaped inside
        obtain ⟨⟨after, found⟩, expanded, next⟩ := sound.expand shaped (fun next => (next, depth + 1))
          path within seen (List.forall_mem_nil _)
        rw [if_neg deepest, listed, ok_bind, expanded, ok_bind]
        refine inductionHypothesis (fun item member => ?_) _ _
        rcases List.mem_append.mp member with old | new
        · exact others item old
        · obtain ⟨made, held, rfl⟩ := List.mem_map.mp new
          exact next made held

theorem Sound.shortestLoop (shaped : csr.Shaped) (sound : csr.Sound) (target max_depth : Nat)
    {fuel : Nat} {queue : List (Nat × GraphPath)}
    (vertices : ∀ item ∈ queue, item.1 < csr.num_vertices) (seen : List Nat) :
    shortestLoop csr target max_depth fuel queue seen ≠ .error .panic := by
  induction fuel generalizing queue seen with
  | zero => exact nofun
  | succ fuel inductionHypothesis =>
    match queue, vertices with
    | [], _ => exact nofun
    | (node, path) :: queue, vertices =>
      obtain ⟨inside, others⟩ := List.forall_mem_cons.mp vertices
      rw [Graph.shortestLoop]
      by_cases arrived : node = target
      · rw [if_pos arrived]
        exact nofun
      · rw [if_neg arrived]
        by_cases deepest : max_depth ≤ path.nodes.length - 1
        · rw [if_pos deepest]
          exact inductionHypothesis others _
        · obtain ⟨indices, listed, within⟩ := sound.edgeIndices shaped inside
          obtain ⟨⟨after, found⟩, expanded, next⟩ := sound.expand shaped id path within seen
            (List.forall_mem_nil _)
          rw [if_neg deepest, listed, ok_bind, expanded, ok_bind]
          refine inductionHypothesis (fun item member => ?_) _
          exact (List.mem_append.mp member).elim (others item) (next item)

/-- Places of a sample are in both slices. -/
theorem sampleLoop_calm {neighbors : CsrNeighbors}
    (size : ∀ eids ∈ neighbors.eids, eids.length = neighbors.neighbors.length)
    (with_replacement : Bool) (places : List Nat) :
    sampleLoop neighbors with_replacement places ≠ .error .panic := by
  induction places with
  | nil => exact nofun
  | cons place places inductionHypothesis =>
    rw [sampleLoop]
    generalize (if with_replacement then place % neighbors.neighbors.length else place) = index
    by_cases beyond : neighbors.neighbors.length ≤ index
    · rw [if_pos beyond]
      exact nofun
    · have below := Nat.lt_of_not_le beyond
      rw [if_neg beyond, indexed_some (List.getElem?_eq_getElem below), ok_bind]
      obtain ⟨eid, read⟩ : ∃ eid, indexedIn neighbors.eids index = .ok eid := by
        cases given : neighbors.eids with
        | none => exact ⟨none, rfl⟩
        | some eids =>
          have equal := size eids given
          have held := List.getElem?_eq_getElem (l := eids) (i := index) (by omega)
          exact ⟨some eids[index], by rw [indexedIn, indexed_some held]; rfl⟩
      rw [read, ok_bind]
      exact bind_calm inductionHypothesis fun _ _ => nofun

/-- A vertex has as many ids as neighbors. -/
theorem Shaped.neighbors_eids (shaped : csr.Shaped) {vertex : Nat} {neighbors : CsrNeighbors}
    (answered : csrNeighborsOf csr vertex = .ok neighbors) :
    ∀ eids ∈ neighbors.eids, eids.length = neighbors.neighbors.length := by
  obtain ⟨_, _, rest⟩ := except_bind_ok answered
  obtain ⟨start, _, rest⟩ := except_bind_ok rest
  obtain ⟨stop, _, rest⟩ := except_bind_ok rest
  obtain ⟨targets, cut, rest⟩ := except_bind_ok rest
  obtain ⟨eids, cutEids, rest⟩ := except_bind_ok rest
  cases rest
  have inside {entries part : List Nat} (cut : sliced entries start stop = .ok part) :
      part = (entries.drop start).take (stop - start) := by
    rw [sliced] at cut
    split at cut
    · exact (Except.ok.inj cut).symm
    · cases cut
  intro values held
  obtain rfl : eids = some values := held
  cases given : csr.eids with
  | none =>
    rw [given] at cutEids
    cases cutEids
  | some entries =>
    rw [given, slicedIn] at cutEids
    cases cutHere : sliced entries start stop with
    | error halt =>
      rw [cutHere] at cutEids
      cases cutEids
    | ok part =>
      rw [cutHere] at cutEids
      cases cutEids
      rw [inside cut, inside cutHere, List.length_take, List.length_take, List.length_drop,
        List.length_drop, shaped.eids entries given]

/-- Sound arrays are traversed without a panic. -/
theorem Sound.safe (shaped : csr.Shaped) (sound : csr.Sound) : csr.Safe := by
  refine ⟨fun vertex _ => sound.neighbors_of shaped vertex, ?_, ?_, ?_⟩
  · intro seeds _ min_depth _ max_depth _ fuel
    refine bind_calm (rejectIf_calm _ _ _) fun _ _ => foldlM_calm (fun seed _ rows => ?_) []
    refine bind_calm (rejectIf_calm _ _ _) fun _ passed => ?_
    exact sound.kHopLoop shaped seed min_depth max_depth
      (List.forall_mem_singleton.mpr (Nat.lt_of_not_le (rejectIf_ok passed))) _ rows
  · intro source _ target _ max_depth _ fuel
    refine bind_calm (rejectIf_calm _ _ _) fun _ passed => ?_
    have ends := not_or.mp (rejectIf_ok passed)
    exact sound.shortestLoop shaped target max_depth
      (List.forall_mem_singleton.mpr (Nat.lt_of_not_le ends.1)) _
  · intro seeds _ fanout _ with_replacement
    refine foldlM_calm (fun seed _ rows => ?_) []
    refine bind_calm (sound.neighbors_of shaped seed) fun neighbors answered => ?_
    simp only
    split
    · exact nofun
    · exact bind_calm (sampleLoop_calm (shaped.neighbors_eids answered) with_replacement _)
        fun _ _ => nofun

/-! ## What makes a traversal panic -/

/-- A vertex whose neighbors are listed has offsets in order. -/
theorem rising_of_listed (shaped : csr.Shaped) {vertex : Nat} (inside : vertex < csr.num_vertices)
    (calm : csrNeighborsOf csr vertex ≠ .error .panic) :
    csr.offsets.getD vertex 0 ≤ csr.offsets.getD (vertex + 1) 0 := by
  obtain ⟨low, high⟩ := shaped.edges inside
  by_contra falls
  apply calm
  rw [csrNeighborsOf, rejectIf_pass _ _ (Nat.not_le_of_lt inside), ok_bind, indexed_some low,
    ok_bind, indexed_some high, ok_bind, sliced, if_neg (fun fits => falls fits.1)]
  rfl

/-- Some interval of a sequence holds every number from its first value to its last. -/
theorem exists_interval (values : Nat → Nat) {number : Nat} (above : values 0 ≤ number)
    {count : Nat} (below : number < values count) :
    ∃ place < count, values place ≤ number ∧ number < values (place + 1) := by
  induction count with
  | zero => omega
  | succ count inductionHypothesis =>
    by_cases earlier : number < values count
    · obtain ⟨place, less, holds⟩ := inductionHypothesis earlier
      exact ⟨place, Nat.lt_succ_of_lt less, holds⟩
    · exact ⟨count, Nat.lt_succ_self _, Nat.le_of_not_lt earlier, below⟩

/-- A loop over edges answers or panics. -/
theorem expand_ends {Key : Type} [DecidableEq Key] (csr : CsrFile) (key : Nat → Key)
    (path : GraphPath) (indices : List Nat) (seen : List Key) (found : List (Nat × GraphPath)) :
    (∃ after, Graph.expand csr key path indices seen found = .ok after) ∨
      Graph.expand csr key path indices seen found = .error .panic := by
  induction indices generalizing seen found with
  | nil => exact .inl ⟨_, rfl⟩
  | cons index indices inductionHypothesis =>
    rw [Graph.expand]
    rcases indexed_ends csr.neighbors index with ⟨next, held⟩ | beyond
    · rw [held, ok_bind]
      split
      · exact inductionHypothesis _ _
      · rcases indexedIn_ends csr.eids index with ⟨eid, read⟩ | beyond
        · rw [read, ok_bind]
          exact inductionHypothesis _ _
        · rw [beyond]
          exact .inr rfl
    · rw [beyond]
      exact .inr rfl

theorem edgeIndices_ends (csr : CsrFile) (node : Nat) :
    (∃ indices, Graph.edgeIndices csr node = .ok indices) ∨
      Graph.edgeIndices csr node = .error .panic := by
  rw [Graph.edgeIndices]
  rcases indexed_ends csr.offsets node with ⟨low, held⟩ | beyond
  · rw [held, ok_bind]
    rcases indexed_ends csr.offsets (node + 1) with ⟨high, held⟩ | beyond
    · rw [held, ok_bind]
      exact .inl ⟨_, rfl⟩
    · rw [beyond]
      exact .inr rfl
  · rw [beyond]
    exact .inr rfl

/-- The edges of what is no vertex cannot be read. -/
theorem edgeIndices_outside (shaped : csr.Shaped) {node : Nat} (outside : csr.num_vertices ≤ node) :
    Graph.edgeIndices csr node = .error .panic := by
  have size := shaped.offsets
  rw [Graph.edgeIndices]
  rcases indexed_ends csr.offsets node with ⟨low, held⟩ | beyond
  · rw [held, ok_bind, indexed_beyond (by omega)]
    rfl
  · rw [beyond]
    rfl

/-- Every neighbor that was not seen is found, and what was found stays found. -/
theorem expand_finds {Key : Type} [DecidableEq Key] {key : Nat → Key}
    (injective : Function.Injective key) {path : GraphPath} {indices : List Nat} {seen : List Key}
    {found : List (Nat × GraphPath)} {after : List Key × List (Nat × GraphPath)}
    (expanded : Graph.expand csr key path indices seen found = .ok after) {node : Nat}
    (listed : (∃ index ∈ indices, csr.neighbors[index]? = some node ∧ key node ∉ seen) ∨
      node ∈ found.map Prod.fst) : node ∈ after.2.map Prod.fst := by
  induction indices generalizing seen found with
  | nil =>
    cases expanded
    exact listed.resolve_left nofun
  | cons index indices inductionHypothesis =>
    rw [Graph.expand] at expanded
    obtain ⟨next, held, expanded⟩ := except_bind_ok expanded
    have held : csr.neighbors[index]? = some next := by
      rw [indexed] at held
      cases read : csr.neighbors[index]? with
      | none =>
        rw [read] at held
        cases held
      | some value =>
        rw [read] at held
        rw [Except.ok.inj held]
    by_cases again : key next ∈ seen
    · rw [if_pos again] at expanded
      refine inductionHypothesis expanded (listed.imp_left ?_)
      rintro ⟨place, member, is_node, fresh⟩
      rcases List.mem_cons.mp member with rfl | later
      · obtain rfl : next = node := Option.some.inj (held.symm.trans is_node)
        exact absurd again fresh
      · exact ⟨place, later, is_node, fresh⟩
    · rw [if_neg again] at expanded
      obtain ⟨eid, _, expanded⟩ := except_bind_ok expanded
      apply inductionHypothesis expanded
      by_cases same : next = node
      · right
        rw [List.map_append]
        exact List.mem_append_right _ (List.mem_singleton.mpr same.symm)
      · rcases listed with ⟨place, member, is_node, fresh⟩ | old
        · left
          rcases List.mem_cons.mp member with rfl | later
          · exact absurd (Option.some.inj (held.symm.trans is_node)) same
          · refine ⟨place, later, is_node, fun either => ?_⟩
            rcases List.mem_cons.mp either with equal | old
            · exact same (injective equal).symm
            · exact fresh old
        · right
          rw [List.map_append]
          exact List.mem_append_left _ old

/-- A turn of the queue loop that reads the edges of a node. -/
theorem kHopLoop_turn {seed min_depth max_depth node depth : Nat} {path : GraphPath}
    {queue : List (Nat × Nat × GraphPath)} {seen after : List (Nat × Nat)} {rows : List KHopRow}
    {indices : List Nat} {found : List (Nat × GraphPath)} (shallow : depth ≠ max_depth)
    (listed : Graph.edgeIndices csr node = .ok indices)
    (expanded : Graph.expand csr (fun next => (next, depth + 1)) path indices seen [] =
      .ok (after, found)) (fuel : Nat) :
    Graph.kHopLoop csr seed min_depth max_depth (fuel + 1) ((node, depth, path) :: queue) seen rows =
      Graph.kHopLoop csr seed min_depth max_depth fuel
        (queue ++ found.map fun next => (next.1, depth + 1, next.2)) after
        (if min_depth ≤ depth ∧ depth ≤ max_depth then rows ++ [⟨seed, node, depth, path⟩] else rows) := by
  rw [Graph.kHopLoop, if_neg shallow, listed, ok_bind, expanded, ok_bind]

/-- A queue with a node that is no vertex, above the last depth, leads to a panic. -/
theorem kHopLoop_panics (shaped : csr.Shaped) (seed min_depth max_depth : Nat) {node depth : Nat}
    (path : GraphPath) (outside : csr.num_vertices ≤ node) (shallow : depth ≠ max_depth)
    (front back : List (Nat × Nat × GraphPath)) (seen : List (Nat × Nat)) (rows : List KHopRow) :
    ∃ fuel, Graph.kHopLoop csr seed min_depth max_depth fuel
      (front ++ (node, depth, path) :: back) seen rows = .error .panic := by
  induction front generalizing back seen rows with
  | nil =>
    refine ⟨1, ?_⟩
    rw [List.nil_append, Graph.kHopLoop, if_neg shallow, edgeIndices_outside shaped outside]
    rfl
  | cons item front inductionHypothesis =>
    obtain ⟨first, deep, way⟩ := item
    by_cases deepest : deep = max_depth
    · obtain ⟨fuel, panics⟩ := inductionHypothesis back seen _
      refine ⟨fuel + 1, ?_⟩
      rw [List.cons_append, Graph.kHopLoop, if_pos deepest]
      exact panics
    · rcases edgeIndices_ends csr first with ⟨indices, listed⟩ | stops
      · rcases expand_ends csr (fun next => (next, deep + 1)) way indices seen [] with
          ⟨⟨after, found⟩, expanded⟩ | stops
        · obtain ⟨fuel, panics⟩ := inductionHypothesis
            (back ++ found.map fun next => (next.1, deep + 1, next.2)) after _
          refine ⟨fuel + 1, ?_⟩
          rw [List.cons_append, kHopLoop_turn deepest listed expanded, List.append_assoc,
            List.cons_append]
          exact panics
        · refine ⟨1, ?_⟩
          rw [List.cons_append, Graph.kHopLoop, if_neg deepest, listed, ok_bind, stops]
          rfl
      · refine ⟨1, ?_⟩
        rw [List.cons_append, Graph.kHopLoop, if_neg deepest, stops]
        rfl

/-- A neighbor of a vertex that is no vertex makes a search of two steps panic. -/
theorem kHop_panics (shaped : csr.Shaped) {vertex index node : Nat}
    (inside : vertex < csr.num_vertices) (behind : csr.offsets.getD vertex 0 ≤ index)
    (below : index < csr.offsets.getD (vertex + 1) 0) (held : csr.neighbors[index]? = some node)
    (outside : csr.num_vertices ≤ node) :
    ∃ fuel, csrKHop csr [vertex] 0 2 fuel = .error .panic := by
  obtain ⟨low, high⟩ := shaped.edges inside
  have listed : Graph.edgeIndices csr vertex = .ok (List.range' (csr.offsets.getD vertex 0)
      (csr.offsets.getD (vertex + 1) 0 - csr.offsets.getD vertex 0)) := by
    rw [Graph.edgeIndices, indexed_some low, ok_bind, indexed_some high, ok_bind]
    rfl
  have member : index ∈ List.range' (csr.offsets.getD vertex 0)
      (csr.offsets.getD (vertex + 1) 0 - csr.offsets.getD vertex 0) := by
    rw [List.mem_range'_1]
    omega
  have started (fuel : Nat) : csrKHop csr [vertex] 0 2 fuel =
      Graph.kHopLoop csr vertex 0 2 fuel [(vertex, 0, { nodes := [vertex], eids := [] })]
        [(vertex, 0)] [] := by
    rw [csrKHop, rejectIf_pass _ _ (by decide), ok_bind, List.foldlM_cons, kHopFrom,
      rejectIf_pass _ _ (Nat.not_le_of_lt inside), ok_bind]
    cases Graph.kHopLoop csr vertex 0 2 fuel [(vertex, 0, { nodes := [vertex], eids := [] })]
      [(vertex, 0)] [] <;> rfl
  simp only [started]
  rcases expand_ends csr (fun next => (next, 0 + 1)) { nodes := [vertex], eids := [] }
    (List.range' (csr.offsets.getD vertex 0)
      (csr.offsets.getD (vertex + 1) 0 - csr.offsets.getD vertex 0)) [(vertex, 0)] [] with
    ⟨⟨after, found⟩, expanded⟩ | stops
  · have reached : node ∈ found.map Prod.fst :=
      expand_finds (fun first second equal => (Prod.mk.inj equal).1) expanded
        (.inl ⟨index, member, held, by simp⟩)
    obtain ⟨⟨_, way⟩, queued, rfl⟩ := List.mem_map.mp reached
    obtain ⟨front, back, split⟩ := List.append_of_mem
      (List.mem_map_of_mem (f := fun next : Nat × GraphPath => (next.1, 0 + 1, next.2)) queued)
    obtain ⟨fuel, panics⟩ := kHopLoop_panics shaped vertex 0 2 way outside
      (by decide : 0 + 1 ≠ 2) front back after
      [{ seed := vertex, node := vertex, depth := 0, path := { nodes := [vertex], eids := [] } }]
    refine ⟨fuel + 1, ?_⟩
    rw [kHopLoop_turn (by decide) listed expanded, List.nil_append, split]
    exact panics
  · refine ⟨1, ?_⟩
    rw [Graph.kHopLoop, if_neg (by decide), listed, ok_bind, stops]
    rfl

/-- What is traversed without a panic is sound. -/
theorem Safe.sound (shaped : csr.Shaped) (range : csr.num_vertices < 2 ^ 64) (safe : csr.Safe) :
    csr.Sound := by
  refine ⟨?_, fun index node behind held => ?_⟩
  · rw [← List.isChain_iff_pairwise, List.isChain_iff_getElem]
    intro place within
    have size := shaped.offsets
    have ordered := rising_of_listed shaped (by omega) (safe.neighbors_of place (by omega))
    rwa [List.getD_eq_getElem?_getD, List.getElem?_eq_getElem (by omega),
      List.getD_eq_getElem?_getD, List.getElem?_eq_getElem (by omega)] at ordered
  · by_contra outside
    obtain ⟨vertex, inside, low, high⟩ := exists_interval (csr.offsets.getD · 0)
      (first_offset csr ▸ behind) (shaped.last_offset ▸ (List.getElem?_eq_some_iff.mp held).1)
    obtain ⟨fuel, panics⟩ := kHop_panics shaped inside low high held (Nat.le_of_not_lt outside)
    refine safe.k_hop [vertex] ?_ 0 (by decide) 2 (by decide) fuel panics
    exact List.forall_mem_singleton.mpr (Nat.lt_trans inside range)

end CsrFile

/-! ## Files -/

/-- An adjacency that was read passed the checks, with a number of vertices of eight bytes. -/
theorem readCsr_ok {path : String} {data : List UInt8} {csr : CsrFile}
    (accepted : readCsr path data = .ok csr) :
    csr.num_vertices < 2 ^ 64 ∧ validateCsr csr = .ok () := by
  obtain ⟨_, _, rest⟩ := except_bind_ok accepted
  obtain ⟨_, _, rest⟩ := except_bind_ok rest
  obtain ⟨_, _, rest⟩ := except_bind_ok rest
  obtain ⟨offsets, _, rest⟩ := except_bind_ok rest
  obtain ⟨neighbors, _, rest⟩ := except_bind_ok rest
  obtain ⟨eids, _, rest⟩ := except_bind_ok rest
  obtain ⟨_, valid, rest⟩ := except_bind_ok rest
  cases rest
  refine ⟨?_, valid⟩
  show value (slice data HEADER_SIZE (HEADER_SIZE + 8)) < 256 ^ 8
  refine Nat.lt_of_lt_of_le (value_bound _) (Nat.pow_le_pow_right (by decide) ?_)
  rw [slice_length]
  omega

/-- An array is read back, with the cursor behind it. -/
theorem readU64Vec_wordBytes (path : String) (leading rest : List UInt8) (numbers : List Nat)
    (fits : ∀ number ∈ numbers, number < 2 ^ 64)
    (footer : CSR_FOOTER_SIZE ≤ rest.length)
    (room : (leading ++ wordBytes 8 numbers ++ rest).length < 2 ^ 64) :
    readU64Vec path (leading ++ wordBytes 8 numbers ++ rest) leading.length numbers.length =
      .ok (numbers, (leading ++ wordBytes 8 numbers).length) := by
  have size : (leading ++ wordBytes 8 numbers ++ rest).length =
      leading.length + numbers.length * 8 + rest.length := by
    rw [List.length_append, List.length_append, wordBytes_length, Nat.mul_comm]
  have read : words 8 numbers.length ((leading ++ wordBytes 8 numbers ++ rest).drop leading.length) =
      numbers := by
    rw [List.append_assoc, List.drop_left, words_wordBytes 8 numbers fits]
  rw [size] at room
  rw [readU64Vec, rejectIf_pass _ _ (by omega), ok_bind, if_neg (by omega), size]
  show rejectIf _ _ _ >>= _ = _
  rw [rejectIf_pass _ _ (by omega), ok_bind, read, List.length_append, wordBytes_length,
    Nat.mul_comm 8]
  rfl

/-- The adjacency an accepted file of words has: the flags announce the ids of edges. -/
structure CsrFile.Fits (csr : CsrFile) : Prop where
  num_vertices : csr.num_vertices < 2 ^ 64
  num_edges : csr.num_edges < 2 ^ 64
  flags : csr.flags < 2 ^ 32
  announced : csr.flags &&& CSR_FLAG_HAS_EIDS ≠ 0 ↔ csr.eids.isSome
  offsets : ∀ offset ∈ csr.offsets, offset < 2 ^ 64
  neighbors : ∀ neighbor ∈ csr.neighbors, neighbor < 2 ^ 64
  eids : ∀ eids ∈ csr.eids, ∀ eid ∈ eids, eid < 2 ^ 64
  room : (csrBytes csr).length < 2 ^ 64

/-- A written adjacency is read back. -/
theorem readCsr_csrBytes {csr : CsrFile} (path : String) (fits : csr.Fits)
    (valid : validateCsr csr = .ok ()) : readCsr path (csrBytes csr) = .ok csr := by
  have shaped := validate_ok fits.num_vertices valid
  obtain ⟨num_vertices, num_edges, flags, offsets, neighbors, eids⟩ := csr
  have room := fits.room
  simp only [csrBytes] at room ⊢
  generalize headIs : word 8 num_vertices ++ word 8 num_edges ++ word 4 flags ++ word 4 0 = head at room ⊢
  generalize bodyIs : head ++ wordBytes 8 offsets ++ wordBytes 8 neighbors ++
    wordBytes 8 (eids.getD []) = body at room ⊢
  have headLength : head.length = 24 := by
    rw [← headIs]
    simp only [List.length_append, word_length]
  have bodyLength : 24 ≤ body.length := by
    rw [← bodyIs, List.length_append, List.length_append, List.length_append, headLength]
    omega
  have whole : (packHeader ++ body ++ word 4 (crc32 body)).length = 24 + body.length + 4 := by
    rw [List.length_append, List.length_append, pack_header_length, word_length]
    rfl
  have longEnough : ¬ (packHeader ++ body ++ word 4 (crc32 body)).length <
      HEADER_SIZE + CSR_HEAD_SIZE + CSR_FOOTER_SIZE := by
    rw [whole]
    show ¬ _ < 24 + 24 + 4
    omega
  have magic : (packHeader ++ body ++ word 4 (crc32 body)).take MAGIC.length = MAGIC := by
    simp only [packHeader, List.append_assoc]
    exact List.take_left
  have stop : (packHeader ++ body ++ word 4 (crc32 body)).length - CSR_FOOTER_SIZE =
      packHeader.length + body.length := by
    rw [whole, pack_header_length]
    rfl
  have middle : slice (packHeader ++ body ++ word 4 (crc32 body)) HEADER_SIZE
      (packHeader.length + body.length) = body := by
    have shifted := slice_append_shift packHeader (body ++ word 4 (crc32 body)) 0 body.length
    rw [Nat.add_zero, pack_header_length, ← List.append_assoc] at shifted
    rw [pack_header_length, shifted, slice_append_self]
  have footer : value ((packHeader ++ body ++ word 4 (crc32 body)).drop
      (packHeader.length + body.length)) = crc32 body := by
    rw [← List.length_append, List.drop_left, value_word 4 _ (crc32_bound body)]
  -- A field of the head stands behind the header, whatever follows it.
  have field (before : List UInt8) (width number : Nat) (after : List UInt8)
      (small : number < 256 ^ width) (parts : head = before ++ word width number ++ after) :
      value (slice (packHeader ++ body ++ word 4 (crc32 body)) (HEADER_SIZE + before.length)
        (HEADER_SIZE + before.length + width)) = number := by
    have arranged : packHeader ++ body ++ word 4 (crc32 body) = (packHeader ++ before) ++
        (word width number ++ (after ++ wordBytes 8 offsets ++ wordBytes 8 neighbors ++
          wordBytes 8 (eids.getD []) ++ word 4 (crc32 body))) := by
      rw [← bodyIs, parts]
      simp only [List.append_assoc]
    have cut := slice_append_shift (packHeader ++ before) (word width number ++ (after ++
      wordBytes 8 offsets ++ wordBytes 8 neighbors ++ wordBytes 8 (eids.getD []) ++
        word 4 (crc32 body))) 0 width
    rw [Nat.add_zero, List.length_append, pack_header_length] at cut
    have own := slice_append_self (word width number) (after ++ wordBytes 8 offsets ++
      wordBytes 8 neighbors ++ wordBytes 8 (eids.getD []) ++ word 4 (crc32 body))
    rw [word_length] at own
    rw [arranged, cut, own, value_word width number small]
  have first : value (slice (packHeader ++ body ++ word 4 (crc32 body)) HEADER_SIZE
      (HEADER_SIZE + 8)) = num_vertices :=
    field [] 8 num_vertices (word 8 num_edges ++ word 4 flags ++ word 4 0) fits.num_vertices
      (by rw [← headIs]; simp only [List.append_assoc, List.nil_append])
  have second : value (slice (packHeader ++ body ++ word 4 (crc32 body)) (HEADER_SIZE + 8)
      (HEADER_SIZE + 16)) = num_edges := by
    have read := field (word 8 num_vertices) 8 num_edges (word 4 flags ++ word 4 0)
      fits.num_edges (by rw [← headIs]; simp only [List.append_assoc])
    rwa [word_length] at read
  have third : value (slice (packHeader ++ body ++ word 4 (crc32 body)) (HEADER_SIZE + 16)
      (HEADER_SIZE + 20)) = flags := by
    have read := field (word 8 num_vertices ++ word 8 num_edges) 4 flags (word 4 0)
      fits.flags (by rw [← headIs])
    rwa [List.length_append, word_length, word_length] at read
  -- Each array stands behind what comes before it.
  have array (before : List UInt8) (numbers : List Nat) (after : List UInt8)
      (small : ∀ number ∈ numbers, number < 2 ^ 64)
      (parts : body = before ++ wordBytes 8 numbers ++ after) :
      readU64Vec path (packHeader ++ body ++ word 4 (crc32 body)) (packHeader ++ before).length
        numbers.length = .ok (numbers, (packHeader ++ (before ++ wordBytes 8 numbers)).length) := by
    have arranged : packHeader ++ body ++ word 4 (crc32 body) =
        (packHeader ++ before) ++ wordBytes 8 numbers ++ (after ++ word 4 (crc32 body)) := by
      rw [parts]
      simp only [List.append_assoc]
    have footer : CSR_FOOTER_SIZE ≤ (after ++ word 4 (crc32 body)).length := by
      rw [List.length_append, word_length]
      exact Nat.le_add_left _ _
    rw [arranged] at room ⊢
    rw [readU64Vec_wordBytes path _ _ numbers small footer room, List.append_assoc]
  have readOffsets := array head offsets (wordBytes 8 neighbors ++ wordBytes 8 (eids.getD []))
    fits.offsets (by rw [← bodyIs]; simp only [List.append_assoc])
  have readNeighbors := array (head ++ wordBytes 8 offsets) neighbors (wordBytes 8 (eids.getD []))
    fits.neighbors (by rw [← bodyIs])
  have start : (packHeader ++ head).length = HEADER_SIZE + CSR_HEAD_SIZE := by
    rw [List.length_append, pack_header_length, headLength]
    rfl
  have readIds : readEids path (packHeader ++ body ++ word 4 (crc32 body))
      (packHeader ++ (head ++ wordBytes 8 offsets ++ wordBytes 8 neighbors)).length
      neighbors.length flags = .ok eids := by
    rw [readEids]
    cases eids with
    | none => exact if_neg fun announced => by cases fits.announced.mp announced
    | some eids =>
      have read := array (head ++ wordBytes 8 offsets ++ wordBytes 8 neighbors) eids []
        (fits.eids eids rfl) (by rw [← bodyIs, List.append_nil]; rfl)
      rw [if_pos (fits.announced.mpr rfl), ← shaped.eids eids rfl, read]
      rfl
  have wraps : (num_vertices + 1) % 2 ^ 64 = offsets.length := by
    obtain ⟨_, passed, _⟩ := except_bind_ok valid
    exact (not_not.mp (rejectIf_ok passed)).symm
  have edges : num_edges = neighbors.length := shaped.neighbors.symm
  rw [start] at readOffsets
  rw [readCsr, rejectIf_pass _ _ longEnough, ok_bind, rejectIf_pass _ _ (not_not.mpr magic), ok_bind]
  simp only [stop, middle, footer, first, second, third, wraps]
  rw [rejectIf_pass _ _ (not_not.mpr rfl), ok_bind, readOffsets, ok_bind]
  simp only [edges]
  rw [readNeighbors, ok_bind]
  simp only
  rw [readIds, ok_bind]
  rw [edges] at valid
  rw [valid]
  rfl

/-- An adjacency that the Rust engine reads or writes is traversed without a panic exactly if no
offset falls and every neighbor behind the first offset is a vertex. -/
theorem accepted_safe (csr : CsrFile) :
    (∀ (path : String) (data : List UInt8), readCsr path data = .ok csr →
      (csr.Safe ↔ csr.Sound)) ∧
    ∀ data : List UInt8, csr.num_vertices < 2 ^ 64 → writeCsr csr = .ok data →
      (csr.Safe ↔ csr.Sound) := by
  have checked (range : csr.num_vertices < 2 ^ 64)
      (valid : validateCsr csr = .ok ()) : csr.Safe ↔ csr.Sound :=
    ⟨CsrFile.Safe.sound (validate_ok range valid) range, CsrFile.Sound.safe (validate_ok range valid)⟩
  constructor
  · intro path data accepted
    obtain ⟨range, valid⟩ := readCsr_ok accepted
    exact checked range valid
  · intro data range written
    obtain ⟨_, valid, _⟩ := except_bind_ok written
    exact checked range valid

/-- The adjacency of one vertex with an edge to vertex five. -/
def strayEdge : CsrFile :=
  { num_vertices := 1, num_edges := 1, flags := 0, offsets := [0, 1], neighbors := [5], eids := none }

/-- An edge to a vertex is traversed without a panic, and an edge to what is none is not. -/
theorem one_edge_safe : CsrFile.Safe { strayEdge with neighbors := [0] } ∧ ¬ strayEdge.Safe := by
  constructor
  · refine ((accepted_safe { strayEdge with neighbors := [0] }).2 _ (by decide) rfl).mpr
      ⟨by decide, fun index node _ held => ?_⟩
    obtain ⟨below, rfl⟩ := List.getElem?_eq_some_iff.mp held
    obtain rfl : index = 0 := Nat.lt_one_iff.mp below
    show 0 < 1
    decide
  · intro safe
    have sound := ((accepted_safe strayEdge).2 _ (by decide) rfl).mp safe
    exact absurd (sound.inside 0 5 (by decide) rfl) (by decide)

/-- Python builds and writes an edge to what is no vertex, the engine reads it, and a search of
two steps indexes beyond the offsets. -/
theorem stray_edge_panics :
    ∃ data, pythonBuildCsrArrays [0] [5] none 1 = .ok ([0, 1], [5], none) ∧
      pythonWriteCsr [0, 1] [5] none = .ok data ∧ readCsr "knows.csr" data = .ok strayEdge ∧
      csrKHop strayEdge [0] 0 2 2 = .error .panic := by
  have fits : strayEdge.Fits := by
    refine ⟨by decide, by decide, by decide, by decide, by decide, by decide, by decide, ?_⟩
    simp only [csrBytes, List.length_append, word_length, wordBytes_length, pack_header_length]
    decide
  exact ⟨csrBytes strayEdge, by decide, rfl, readCsr_csrBytes _ fits rfl, rfl⟩

end CaracalDB.Graph
