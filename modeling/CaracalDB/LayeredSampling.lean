import CaracalDB.MixedStores
import CaracalDB.NeighborSamples
import CaracalDB.Ranked
import CaracalDB.Slices
import Mathlib.Data.List.Dedup

/-!
# Sampling in layers

`NeighborSampleOperator` samples the edges of a frontier, type by type, and goes on from
the vertices that they lead to. A frontier holds no vertex twice, so the sampler gives each
of its vertices its share. The loader of batches runs the operator for slices of the stored
ids and splits the rows by their types.
-/

namespace CaracalDB.Layers

open CsrReader Runs

/-- A row of a batch. -/
structure SampledEdge where
  src : Nat
  dst : Nat
  etype : Nat
  layer : Nat
deriving DecidableEq

/-- What the operator samples with besides the CSRs and the fan-outs; `draw` is what `rng.choice`
gives for a layer, a type and a segment. -/
structure Sampler where
  strategy : String := "uniform"
  replace : Bool := false
  draw : Nat → Nat → Nat → Nat → List Nat

/-- `np.unique(...)` -/
def unique (items : List Nat) : List Nat := ranked id items.dedup

variable (sampler : Sampler)

/-- What one reader gives for a frontier. -/
def sampleReader (layer fanout : Nat) (frontier : List Nat) (reader : CsrFile × Nat) :
    Except Raised (List SampledEdge) := do
  let (csr, etype) := reader
  let columns ← batchNeighbors csr (frontier.map Int.ofNat) false (some (fanout : Int))
    sampler.replace sampler.strategy (sampler.draw layer etype)
  return (columns.src_rep.zip columns.dst_flat).map fun (src, dst) => { src, dst, etype, layer }

/-- One layer: the readers in their order. -/
def sampleLayer (readers : List CsrFile) (layer fanout : Nat) (frontier : List Nat) :
    Except Raised (List SampledEdge) := do
  return (← readers.zipIdx.mapM (sampleReader sampler layer fanout frontier)).flatten

/-- The loop of `_sample_all`. -/
def sampleLayers (readers : List CsrFile) (layer : Nat) (frontier : List Nat) :
    List Nat → Except Raised (List (List SampledEdge))
  | [] => .ok []
  | fanout :: layers =>
      if frontier = [] then .ok []
      else do
        let rows ← sampleLayer sampler readers layer fanout frontier
        if rows = [] then return []
        return rows :: (← sampleLayers readers (layer + 1) (unique (rows.map SampledEdge.dst)) layers)

def samplingError (message : String) : Raised := .caracal { code := "CDB-6100", message }

/-- `NeighborSampleOperator(child, edge_readers=..., layers=..., ...)`, opened over the batches of
seeds of its child. -/
def neighborSample (readers : List CsrFile) (layers : List Int) (seeds : List (List Nat)) :
    Except Raised (List (List SampledEdge)) := do
  refuse (readers = []) (samplingError "NeighborSample needs at least one CSR")
  refuse (layers = []) (samplingError "layers must be non-empty")
  refuse (∃ fanout ∈ layers, fanout < 0) (samplingError "fan-out values must be >= 0")
  refuse (sampler.strategy ∉ ["uniform", "first", "all"])
    (samplingError ("unsupported neighbor sampling strategy: " ++ Value.quoted sampler.strategy))
  sampleLayers sampler readers 0 (unique seeds.flatten) (layers.map Int.toNat)

/-! ## Layers -/

/-- The rows of some edges of vertices. -/
def edgeRows (csr : CsrFile) (etype layer : Nat) (kept : List (Nat × List Nat)) : List SampledEdge :=
  kept.flatMap fun entry => entry.2.map fun place =>
    { src := entry.1, dst := csr.neighbors.getD place 0, etype, layer }

/-- What a vertex is due: all its edges, or a fair share of them. -/
def Due (csr : CsrFile) (strategy : String) (fanout : Nat) (replace : Bool) (vertex : Nat)
    (places : List Nat) : Prop :=
  if fanout = 0 ∨ strategy = "all" then
    places = List.range' (csr.offsets.getD vertex 0) (degree csr vertex)
  else FairShare csr fanout replace vertex places

/-- A layer holds, type by type and vertex by vertex, what is due, and nothing else. -/
def IsLayer (readers : List CsrFile) (layer fanout : Nat) (frontier : List Nat)
    (rows : List SampledEdge) : Prop :=
  ∃ kept : CsrFile × Nat → List (Nat × List Nat),
    rows = readers.zipIdx.flatMap (fun reader => edgeRows reader.1 reader.2 layer (kept reader)) ∧
      ∀ reader ∈ readers.zipIdx, (kept reader).map Prod.fst = frontier ∧
        ∀ entry ∈ kept reader, Due reader.1 sampler.strategy fanout sampler.replace entry.1 entry.2

/-- The frontier of a layer: first the given one, then where the layer before leads. -/
def frontierOf (frontier : List Nat) (out : List (List SampledEdge)) : Nat → List Nat
  | 0 => frontier
  | layer + 1 => unique ((out.getD layer []).map SampledEdge.dst)

/-- CSRs over one space of vertices, to which their edges lead. -/
structure OneSpace (readers : List CsrFile) (vertices : Nat) : Prop where
  wellFormed : ∀ csr ∈ readers, WellFormed csr
  size : ∀ csr ∈ readers, csr.num_vertices = vertices
  inside : ∀ csr ∈ readers, ∀ neighbor ∈ csr.neighbors, neighbor < vertices

/-- What the generator of random numbers gives for the samples of the layers. -/
def AllDraws (layers : List Nat) : Prop :=
  ∀ layer fanout, layers[layer]? = some fanout → ∀ etype,
    Draws fanout sampler.replace (sampler.draw layer etype)

/-! ## One layer -/

theorem mem_unique {items : List Nat} {item : Nat} : item ∈ unique items ↔ item ∈ items := by
  rw [unique, mem_ranked, List.mem_dedup]

theorem unique_nodup (items : List Nat) : (unique items).Nodup :=
  (ranked_perm id items.dedup).nodup_iff.mpr items.nodup_dedup

/-- The runs of distinct vertices are of one vertex each. -/
theorem runs_single {items : List Nat} (distinct : items.Nodup) {run : Nat × Nat}
    (member : run ∈ runs items) : run.2 = 1 := by
  have filled := (runs_separate items).filled run member
  have part : (List.replicate run.2 run.1).Sublist (expand (runs items)) := by
    rw [expand, List.flatMap_def]
    exact List.sublist_flatten_of_mem (List.mem_map.mpr ⟨run, member, rfl⟩)
  rw [expand_runs] at part
  have once := List.nodup_replicate.mp (distinct.sublist part)
  omega

theorem unmerged_of_nodup {csr : CsrFile} {vertices : List Nat} (distinct : vertices.Nodup)
    (fanout : Nat) (replace : Bool) : Unmerged csr vertices fanout replace := by
  have single (run : Nat × Nat) (member : run ∈ vertexRuns csr vertices) : run.2 = 1 :=
    runs_single (distinct.filter _) member
  rw [Unmerged]
  split
  · exact single
  · exact .inr fun run member => .inl (single run member)

theorem zip_share {Item Made : Type} (vertex : Item) (make : Nat → Made) (places : List Nat) :
    (List.replicate places.length vertex).zip (places.map make) =
      places.map fun place => (vertex, make place) := by
  induction places with
  | nil => rfl
  | cons place places inductionHypothesis =>
    rw [List.length_cons, List.replicate_succ, List.map_cons, List.zip_cons_cons, inductionHypothesis]
    rfl

/-- The two columns, row by row. -/
theorem zip_columns (csr : CsrFile) (kept : List (Nat × List Nat)) :
    (columnsOf csr false kept).src_rep.zip (columnsOf csr false kept).dst_flat =
      kept.flatMap fun entry => entry.2.map fun place => (entry.1, csr.neighbors.getD place 0) := by
  simp only [columnsOf]
  induction kept with
  | nil => rfl
  | cons entry kept inductionHypothesis =>
    have size : (List.replicate entry.2.length entry.1).length =
        (column csr.neighbors entry.2).length := by
      rw [List.length_replicate, column_length]
    rw [List.flatMap_cons, List.flatMap_cons, List.flatMap_cons, column_append,
      List.zip_append size, inductionHypothesis, column, zip_share]

theorem readStrategy_known {name : String} (known : name ∈ ["uniform", "first", "all"]) :
    ∃ strategy, readStrategy name = .ok strategy ∧ (strategy = .all ↔ name = "all") := by
  simp only [List.mem_cons, List.not_mem_nil, or_false] at known
  rcases known with rfl | rfl | rfl
  · exact ⟨.uniform, rfl, by decide⟩
  · exact ⟨.first, rfl, by decide⟩
  · exact ⟨.all, rfl, by decide⟩

variable {sampler}

/-- A call gives each vertex of a frontier what is due. -/
theorem batch_due {name : String} (known : name ∈ ["uniform", "first", "all"]) {csr : CsrFile}
    (wellFormed : WellFormed csr) {frontier : List Nat} (distinct : frontier.Nodup)
    (inside : ∀ vertex ∈ frontier, vertex < csr.num_vertices) {fanout : Nat} {replace : Bool}
    {draw : Nat → Nat → List Nat} (draws : Draws fanout replace draw) :
    ∃ kept, batchNeighbors csr (frontier.map Int.ofNat) false (some (fanout : Int)) replace name draw =
        .ok (columnsOf csr false kept) ∧
      kept.map Prod.fst = frontier ∧ ∀ entry ∈ kept, Due csr name fanout replace entry.1 entry.2 := by
  obtain ⟨strategy, named, isAll⟩ := readStrategy_known known
  have unasked : false = true → csr.eids.isSome = true := fun asked => absurd asked Bool.false_ne_true
  by_cases whole : fanout = 0 ∨ name = "all"
  · have all : keepFanout (wholeColumns csr false frontier) (frontier.map (degree csr))
        (some (fanout : Int)) replace strategy draw = wholeColumns csr false frontier := by
      have unlimited : some (fanout : Int) = some 0 ∨ strategy = .all := by
        rcases whole with zero | all
        · exact .inl (by rw [zero]; rfl)
        · exact .inr (isAll.mpr all)
      simp only [keepFanout, if_pos unlimited]
    have allowed : ∀ limit ∈ some (fanout : Int), 0 ≤ limit := by simp
    refine ⟨wholeKept csr frontier, ?_, ?_, ?_⟩
    · rw [batch_expands wellFormed inside unasked named allowed, all, wholeColumns_kept]
    · rw [wholeKept, List.map_map]
      exact List.map_id _
    · intro entry member
      obtain ⟨vertex, _, rfl⟩ := List.mem_map.mp member
      rw [Due, if_pos whole]
  · have positive : 0 < fanout := Nat.pos_of_ne_zero fun zero => whole (.inl zero)
    have sampled : strategy ≠ .all := fun all => whole (.inr (isAll.mp all))
    obtain ⟨columns, made, kept, listed, shared, rfl⟩ :=
      (fanout_per_vertex wellFormed inside unasked named sampled positive draws).mpr
        (unmerged_of_nodup distinct fanout replace)
    refine ⟨kept, made, listed, fun entry member => ?_⟩
    rw [Due, if_neg whole]
    exact shared entry member

/-- A reader gives each vertex of a frontier what is due. -/
theorem sampleReader_due (known : sampler.strategy ∈ ["uniform", "first", "all"]) {csr : CsrFile}
    (wellFormed : WellFormed csr) {frontier : List Nat} (distinct : frontier.Nodup)
    (inside : ∀ vertex ∈ frontier, vertex < csr.num_vertices) (layer fanout etype : Nat)
    (draws : Draws fanout sampler.replace (sampler.draw layer etype)) :
    ∃ kept, sampleReader sampler layer fanout frontier (csr, etype) =
        .ok (edgeRows csr etype layer kept) ∧
      kept.map Prod.fst = frontier ∧
        ∀ entry ∈ kept, Due csr sampler.strategy fanout sampler.replace entry.1 entry.2 := by
  obtain ⟨kept, made, listed, due⟩ := batch_due known wellFormed distinct inside draws
  refine ⟨kept, ?_, listed, due⟩
  have rows : ((columnsOf csr false kept).src_rep.zip (columnsOf csr false kept).dst_flat).map
      (fun (src, dst) => ({ src, dst, etype, layer } : SampledEdge)) =
        edgeRows csr etype layer kept := by
    rw [zip_columns, List.map_flatMap]
    simp only [List.map_map]
    rfl
  rw [sampleReader, made, ok_bind, ← rows]
  rfl

variable {readers : List CsrFile} {vertices : Nat}

/-- What is due to a vertex is among its edges. -/
theorem Due.among {csr : CsrFile} {strategy : String} {fanout : Nat} {replace : Bool} {vertex : Nat}
    {places : List Nat} (due : Due csr strategy fanout replace vertex places) {place : Nat}
    (member : place ∈ places) : csr.offsets.getD vertex 0 ≤ place ∧
      place < csr.offsets.getD vertex 0 + degree csr vertex := by
  rw [Due] at due
  split at due
  · rw [due, List.mem_range'_1] at member
    exact member
  · exact due.2.1 place member

/-- A layer is sampled as it ought to be, and leads to vertices. -/
theorem sampleLayer_ok (known : sampler.strategy ∈ ["uniform", "first", "all"])
    (space : OneSpace readers vertices) {frontier : List Nat} (distinct : frontier.Nodup)
    (inside : ∀ vertex ∈ frontier, vertex < vertices) (layer fanout : Nat)
    (draws : ∀ etype, Draws fanout sampler.replace (sampler.draw layer etype)) :
    ∃ rows, sampleLayer sampler readers layer fanout frontier = .ok rows ∧
      IsLayer sampler readers layer fanout frontier rows ∧ ∀ row ∈ rows, row.dst < vertices := by
  have each (reader : CsrFile × Nat) (member : reader ∈ readers.zipIdx) :
      ∃ kept, sampleReader sampler layer fanout frontier reader =
          .ok (edgeRows reader.1 reader.2 layer kept) ∧ kept.map Prod.fst = frontier ∧
        ∀ entry ∈ kept, Due reader.1 sampler.strategy fanout sampler.replace entry.1 entry.2 := by
    have among := List.fst_mem_of_mem_zipIdx member
    have vertices_of (vertex : Nat) (held : vertex ∈ frontier) : vertex < reader.1.num_vertices := by
      rw [space.size reader.1 among]
      exact inside vertex held
    exact sampleReader_due known (space.wellFormed reader.1 among) distinct vertices_of layer fanout
      reader.2 (draws reader.2)
  choose! kept sampled listed due using each
  refine ⟨readers.zipIdx.flatMap fun reader => edgeRows reader.1 reader.2 layer (kept reader), ?_,
    ⟨kept, rfl, fun reader member => ⟨listed reader member, due reader member⟩⟩, ?_⟩
  · rw [sampleLayer, mapM_of_ok (fun reader : CsrFile × Nat =>
      edgeRows reader.1 reader.2 layer (kept reader)) _ sampled, ok_bind, List.flatMap_def]
    rfl
  · intro row member
    obtain ⟨reader, isReader, inReader⟩ := List.mem_flatMap.mp member
    obtain ⟨entry, isEntry, inEntry⟩ := List.mem_flatMap.mp inReader
    obtain ⟨place, isPlace, rfl⟩ := List.mem_map.mp inEntry
    have among := List.fst_mem_of_mem_zipIdx isReader
    have vertex : entry.1 < reader.1.num_vertices := by
      rw [space.size reader.1 among]
      apply inside
      rw [← listed reader isReader]
      exact List.mem_map_of_mem isEntry
    have within := segment_within (space.wellFormed reader.1 among) vertex
    have below := ((due reader isReader entry isEntry).among isPlace).2
    have held : place < reader.1.neighbors.length := by omega
    dsimp only
    rw [List.getD_eq_getElem?_getD, List.getElem?_eq_getElem held, Option.getD_some]
    exact space.inside reader.1 among _ (List.getElem_mem held)

/-! ## All layers -/

/-- Nothing is due where there is no frontier. -/
theorem isLayer_nothing (readers : List CsrFile) (layer fanout : Nat) :
    IsLayer sampler readers layer fanout [] [] := by
  refine ⟨fun _ => [], ?_, fun reader _ => ⟨rfl, fun entry member => by cases member⟩⟩
  symm
  rw [List.flatMap_eq_nil_iff]
  intro reader _
  rfl

theorem frontierOf_nil (layer : Nat) : frontierOf [] [] layer = [] := by
  cases layer <;> rfl

/-- From a frontier on, every layer is as it ought to be. -/
theorem sampleLayers_ok (known : sampler.strategy ∈ ["uniform", "first", "all"])
    (space : OneSpace readers vertices) {layers : List Nat} {frontier : List Nat}
    (distinct : frontier.Nodup) (inside : ∀ vertex ∈ frontier, vertex < vertices) (first : Nat)
    (draws : ∀ layer fanout, layers[layer]? = some fanout → ∀ etype,
      Draws fanout sampler.replace (sampler.draw (first + layer) etype)) :
    ∃ out, sampleLayers sampler readers first frontier layers = .ok out ∧
      out.length ≤ layers.length ∧ ∀ layer fanout, layers[layer]? = some fanout →
        IsLayer sampler readers (first + layer) fanout (frontierOf frontier out layer)
          (out.getD layer []) := by
  induction layers generalizing frontier first with
  | nil => exact ⟨[], rfl, Nat.le_refl 0, fun layer fanout given => by cases given⟩
  | cons fanout layers inductionHypothesis =>
    rw [sampleLayers]
    by_cases empty : frontier = []
    · rw [if_pos empty, empty]
      refine ⟨[], rfl, Nat.zero_le _, fun layer fanout _ => ?_⟩
      rw [frontierOf_nil]
      exact isLayer_nothing readers (first + layer) fanout
    · obtain ⟨rows, sampled, isLayer, leads⟩ := sampleLayer_ok known space distinct inside first fanout
        (draws 0 fanout rfl)
      rw [if_neg empty, sampled, ok_bind]
      by_cases nothing : rows = []
      · rw [if_pos nothing]
        refine ⟨[], rfl, Nat.zero_le _, fun layer given isGiven => ?_⟩
        cases layer with
        | zero =>
          cases isGiven
          rw [nothing] at isLayer
          exact isLayer
        | succ layer => exact isLayer_nothing readers _ given
      · rw [if_neg nothing]
        obtain ⟨out, goes, short, spec⟩ := inductionHypothesis (unique_nodup (rows.map SampledEdge.dst))
          (fun vertex member => by
            obtain ⟨row, isRow, rfl⟩ := List.mem_map.mp (mem_unique.mp member)
            exact leads row isRow) (first + 1)
          (fun layer given isGiven => by
            rw [Nat.add_right_comm]
            exact draws (layer + 1) given isGiven)
        rw [goes, ok_bind]
        refine ⟨rows :: out, rfl, Nat.succ_le_succ short, fun layer given isGiven => ?_⟩
        cases layer with
        | zero =>
          cases isGiven
          exact isLayer
        | succ layer =>
          have behind := spec layer given isGiven
          rw [Nat.add_right_comm] at behind
          cases layer <;> exact behind

/-- The types of a layer are places of readers. -/
theorem IsLayer.etype {layer fanout : Nat} {frontier : List Nat} {rows : List SampledEdge}
    (isLayer : IsLayer sampler readers layer fanout frontier rows) {row : SampledEdge}
    (member : row ∈ rows) : row.etype < readers.length := by
  obtain ⟨kept, rfl, _⟩ := isLayer
  obtain ⟨reader, isReader, inReader⟩ := List.mem_flatMap.mp member
  obtain ⟨entry, _, inEntry⟩ := List.mem_flatMap.mp inReader
  obtain ⟨place, _, rfl⟩ := List.mem_map.mp inEntry
  exact List.snd_lt_of_mem_zipIdx isReader

/-- What the operator and the loader are made with. -/
structure Fits (readers : List CsrFile) (layers : List Int) (vertices : Nat) : Prop where
  space : OneSpace readers vertices
  some_reader : readers ≠ []
  some_layer : layers ≠ []
  fanouts : ∀ fanout ∈ layers, 0 ≤ fanout

/-- The batches of a run are its layers. -/
structure AreLayers (sampler : Sampler) (readers : List CsrFile) (layers : List Int)
    (seeds : List (List Nat)) (out : List (List SampledEdge)) : Prop where
  few : out.length ≤ layers.length
  each : ∀ layer fanout, layers[layer]? = some fanout → IsLayer sampler readers layer fanout.toNat
    (frontierOf (unique seeds.flatten) out layer) (out.getD layer [])

/-- A run of the operator gives every layer as it ought to be. -/
theorem neighborSample_ok (known : sampler.strategy ∈ ["uniform", "first", "all"])
    {layers : List Int} (fits : Fits readers layers vertices)
    (draws : AllDraws sampler (layers.map Int.toNat)) {seeds : List (List Nat)}
    (inside : ∀ seed ∈ seeds.flatten, seed < vertices) :
    ∃ out, neighborSample sampler readers layers seeds = .ok out ∧
      AreLayers sampler readers layers seeds out := by
  have positive : ¬ ∃ fanout ∈ layers, fanout < 0 := by
    rintro ⟨fanout, given, negative⟩
    exact absurd (fits.fanouts fanout given) (Int.not_le.mpr negative)
  obtain ⟨out, runs, short, spec⟩ := sampleLayers_ok known fits.space
    (unique_nodup seeds.flatten) (fun vertex member => inside vertex (mem_unique.mp member)) 0
    (fun layer fanout given etype => by
      rw [Nat.zero_add]
      exact draws layer fanout given etype)
  refine ⟨out, ?_, ?_, fun layer fanout given => ?_⟩
  · rw [neighborSample, refuse, if_neg fits.some_reader, ok_bind, refuse, if_neg fits.some_layer,
      ok_bind, refuse, if_neg positive, ok_bind, refuse, if_neg (not_not_intro known), ok_bind]
    exact runs
  · rw [List.length_map] at short
    exact short
  · have isLayer := spec layer fanout.toNat (by rw [List.getElem?_map, given]; rfl)
    rw [Nat.zero_add] at isLayer
    exact isLayer

/-! ## The loader -/

structure LoaderConfig where
  layers : List Int
  edge_readers : Dict String CsrFile
  batch_size : Int := 2048

/-- A chunk of seeds with the tables of edges of its `Subgraph`. -/
structure SeedBatch where
  seeds : List Nat
  edges : Dict String (List (Nat × Nat))

/-- `NeighborLoader._materialise_seeds()` -/
def materialiseSeeds (store : Mixed.StoreFiles) : List Nat :=
  store.chunks.flatMap fun chunk => chunk.batches.flatMap fun rows => rows.map Mixed.ChunkRow.id

/-- The sources and destinations of the rows of a type. -/
def tableOf (rows : List SampledEdge) (etype : Nat) : List (Nat × Nat) :=
  (rows.filter fun row => row.etype = etype).map fun row => (row.src, row.dst)

/-- The tables of the types that occur. -/
def splitTypes (etype_names : List String) (rows : List SampledEdge) :
    Dict String (List (Nat × Nat)) :=
  Dict.ofEntries ((unique (rows.map SampledEdge.etype)).map fun etype =>
    (etype_names.getD etype "", tableOf rows etype))

/-- `NeighborLoader._build_subgraph(seed_chunk)`, its edges. -/
def buildSubgraph (config : LoaderConfig) (draw : Nat → Nat → Nat → Nat → List Nat)
    (seed_chunk : List Nat) : Except Raised SeedBatch := do
  let batches ← neighborSample { draw } config.edge_readers.values config.layers [seed_chunk]
  return { seeds := seed_chunk, edges := splitTypes config.edge_readers.keys batches.flatten }

/-- The batches that a `NeighborLoader` yields. -/
def neighborLoader (config : LoaderConfig) (draw : Nat → Nat → Nat → Nat → List Nat)
    (store : Mixed.StoreFiles) : Except Raised (List SeedBatch) := do
  refuse (config.batch_size ≤ 0)
    (.caracal { code := "CDB-6120", message := "batch_size must be positive" })
  (Slices.slices config.batch_size.toNat (materialiseSeeds store)).mapM (buildSubgraph config draw)

/-- Each table holds exactly the rows of its type. -/
structure ByType (etype_names : List String) (rows : List SampledEdge)
    (edges : Dict String (List (Nat × Nat))) : Prop where
  tables : ∀ etype name, etype_names[etype]? = some name →
    (edges.get? name).getD [] = tableOf rows etype
  named : ∀ name ∈ edges.keys, name ∈ etype_names

theorem splitTypes_spec {etype_names : List String} (distinct : etype_names.Nodup)
    {rows : List SampledEdge} (typed : ∀ row ∈ rows, row.etype < etype_names.length) :
    ByType etype_names rows (splitTypes etype_names rows) := by
  have below (etype : Nat) (member : etype ∈ unique (rows.map SampledEdge.etype)) :
      etype < etype_names.length := by
    obtain ⟨row, isRow, rfl⟩ := List.mem_map.mp (mem_unique.mp member)
    exact typed row isRow
  have name_of {etype : Nat} (held : etype < etype_names.length) :
      etype_names.getD etype "" = etype_names[etype] := by
    rw [List.getD_eq_getElem?_getD, List.getElem?_eq_getElem held, Option.getD_some]
  have keys : (((unique (rows.map SampledEdge.etype)).map fun etype =>
      (etype_names.getD etype "", tableOf rows etype)).map Prod.fst).Nodup := by
    rw [List.map_map]
    refine List.Nodup.map_on (fun first isFirst second isSecond same => ?_) (unique_nodup _)
    simp only [Function.comp_apply] at same
    rw [name_of (below first isFirst), name_of (below second isSecond)] at same
    exact (List.Nodup.getElem_inj_iff distinct).mp same
  have entries : (splitTypes etype_names rows).entries =
      (unique (rows.map SampledEdge.etype)).map fun etype =>
        (etype_names.getD etype "", tableOf rows etype) :=
    Dict.entries_foldl_set _ keys Dict.empty fun _ _ => List.not_mem_nil
  constructor
  · intro etype name isName
    obtain ⟨held, rfl⟩ := List.getElem?_eq_some_iff.mp isName
    by_cases occurs : etype ∈ unique (rows.map SampledEdge.etype)
    · have stored : (splitTypes etype_names rows).get? etype_names[etype] =
          some (tableOf rows etype) := by
        rw [Dict.get_eq_some, entries]
        exact List.mem_map.mpr ⟨etype, occurs, by rw [name_of held]⟩
      rw [stored, Option.getD_some]
    · have missing : (splitTypes etype_names rows).get? etype_names[etype] = none := by
        rw [Option.eq_none_iff_forall_not_mem]
        intro table found
        rw [Option.mem_def, Dict.get_eq_some, entries] at found
        obtain ⟨other, isOther, same⟩ := List.mem_map.mp found
        have equal := congrArg Prod.fst same
        rw [name_of (below other isOther)] at equal
        rw [(List.Nodup.getElem_inj_iff distinct).mp equal] at isOther
        exact occurs isOther
      have nothing : tableOf rows etype = [] := by
        rw [tableOf, List.map_eq_nil_iff, List.filter_eq_nil_iff]
        intro row isRow same
        apply occurs
        rw [mem_unique, ← of_decide_eq_true same]
        exact List.mem_map_of_mem isRow
      rw [missing, nothing]
      rfl
  · intro name member
    rw [Dict.keys, entries, List.map_map] at member
    obtain ⟨etype, occurs, rfl⟩ := List.mem_map.mp member
    simp only [Function.comp_apply]
    rw [name_of (below etype occurs)]
    exact List.getElem_mem _

/-- The layers of a run are what is due to the distinct vertices of their frontiers, whatever is
drawn, and the loader runs the operator for the stored ids, slice by slice, and files each row under
its type. -/
theorem sampling_in_layers (sampler : Sampler)
    (known : sampler.strategy ∈ ["uniform", "first", "all"]) (config : LoaderConfig) (vertices : Nat)
    (fits : Fits config.edge_readers.values config.layers vertices)
    (draws : AllDraws sampler (config.layers.map Int.toNat)) (seeds : List (List Nat))
    (inside : ∀ seed ∈ seeds.flatten, seed < vertices) (draw : Nat → Nat → Nat → Nat → List Nat)
    (loader_draws : AllDraws { draw } (config.layers.map Int.toNat)) (store : Mixed.StoreFiles)
    (stored : ∀ nid ∈ materialiseSeeds store, nid < vertices) (positive : 0 < config.batch_size) :
    (∃ out, neighborSample sampler config.edge_readers.values config.layers seeds = .ok out ∧
      AreLayers sampler config.edge_readers.values config.layers seeds out) ∧
    ∃ batches, neighborLoader config draw store = .ok batches ∧
      (batches.map SeedBatch.seeds).flatten = materialiseSeeds store ∧
      ∀ batch ∈ batches, batch.seeds ≠ [] ∧ batch.seeds.length ≤ config.batch_size ∧
        ∃ out, neighborSample { draw } config.edge_readers.values config.layers [batch.seeds] =
            .ok out ∧
          AreLayers { draw } config.edge_readers.values config.layers [batch.seeds] out ∧
            ByType config.edge_readers.keys out.flatten batch.edges := by
  refine ⟨neighborSample_ok known fits draws inside, ?_⟩
  have size : 0 < config.batch_size.toNat := by omega
  have joined := Slices.flatten_slices size (materialiseSeeds store)
  have each (chunk : List Nat)
      (member : chunk ∈ Slices.slices config.batch_size.toNat (materialiseSeeds store)) :
      ∃ batch, buildSubgraph config draw chunk = .ok batch ∧ batch.seeds = chunk ∧
        ∃ out, neighborSample { draw } config.edge_readers.values config.layers [chunk] = .ok out ∧
          AreLayers { draw } config.edge_readers.values config.layers [chunk] out ∧
            ByType config.edge_readers.keys out.flatten batch.edges := by
    have within : ∀ seed ∈ [chunk].flatten, seed < vertices := by
      intro seed isSeed
      rw [List.flatten_singleton] at isSeed
      apply stored
      rw [← joined]
      exact List.mem_flatten_of_mem member isSeed
    have uniform : ({ draw } : Sampler).strategy ∈ ["uniform", "first", "all"] := List.mem_cons_self
    obtain ⟨out, sampled, areLayers⟩ := neighborSample_ok uniform fits loader_draws within
    refine ⟨{ seeds := chunk, edges := splitTypes config.edge_readers.keys out.flatten }, ?_, rfl, out,
      sampled, areLayers, splitTypes_spec config.edge_readers.distinct ?_⟩
    · rw [buildSubgraph, sampled, ok_bind]
      rfl
    · intro row isRow
      obtain ⟨rows, isRows, inRows⟩ := List.mem_flatten.mp isRow
      obtain ⟨layer, held, rfl⟩ := List.mem_iff_getElem.mp isRows
      have fanout := List.getElem?_eq_getElem (Nat.lt_of_lt_of_le held areLayers.few)
      have isLayer := areLayers.each layer _ fanout
      rw [List.getD_eq_getElem?_getD, List.getElem?_eq_getElem held, Option.getD_some] at isLayer
      have typed := isLayer.etype inRows
      rw [List.length_map]
      rw [Dict.values, List.length_map] at typed
      exact typed
  have : Inhabited SeedBatch := ⟨{ seeds := [], edges := Dict.empty }⟩
  choose! make built own spec using each
  refine ⟨(Slices.slices config.batch_size.toNat (materialiseSeeds store)).map make, ?_, ?_, ?_⟩
  · rw [neighborLoader, refuse, if_neg (by omega), ok_bind]
    exact mapM_of_ok make _ built
  · have seeds_of : (Slices.slices config.batch_size.toNat (materialiseSeeds store)).map
        (SeedBatch.seeds ∘ make) =
          (Slices.slices config.batch_size.toNat (materialiseSeeds store)).map id :=
      List.map_congr_left own
    rw [List.map_map, seeds_of, List.map_id, joined]
  · intro batch member
    obtain ⟨chunk, isChunk, rfl⟩ := List.mem_map.mp member
    obtain ⟨filled, short⟩ := Slices.slices_filled size isChunk
    rw [own chunk isChunk]
    exact ⟨filled, by omega, spec chunk isChunk⟩

/-- One edge in the first layer and all in the second. -/
def smallConfig : LoaderConfig where
  layers := [1, 0]
  edge_readers := Dict.ofEntries [("knows", smallFile)]
  batch_size := 2

/-- The first edge of each segment. -/
def firstDraw (layer _etype _segment _size : Nat) : List Nat := if layer = 0 then [0] else []

theorem firstDraw_draws (replace : Bool) :
    AllDraws { replace, draw := firstDraw } (smallConfig.layers.map Int.toNat) := by
  intro layer fanout given etype number size some_place _
  match layer, given with
  | 0, rfl => exact ⟨rfl, List.forall_mem_singleton.mpr some_place, fun _ => List.nodup_singleton 0⟩
  | 1, rfl => exact ⟨rfl, List.forall_mem_nil _, fun _ => List.nodup_nil⟩

def smallNodes : Mixed.StoreFiles where
  next_id := 3
  chunks := [{ schema := [], batches := [[0, 1, 2].map fun id => { id, values := [], created_lsn := 0 }] }]

theorem small_layers :
    (∃ out, neighborSample { replace := true, draw := firstDraw } smallConfig.edge_readers.values
        smallConfig.layers [[2, 0], [2]] = .ok out ∧
      AreLayers { replace := true, draw := firstDraw } smallConfig.edge_readers.values
        smallConfig.layers [[2, 0], [2]] out) ∧
    ∃ batches, neighborLoader smallConfig firstDraw smallNodes = .ok batches ∧
      (batches.map SeedBatch.seeds).flatten = materialiseSeeds smallNodes ∧
      ∀ batch ∈ batches, batch.seeds ≠ [] ∧ batch.seeds.length ≤ smallConfig.batch_size ∧
        ∃ out, neighborSample { draw := firstDraw } smallConfig.edge_readers.values
            smallConfig.layers [batch.seeds] = .ok out ∧
          AreLayers { draw := firstDraw } smallConfig.edge_readers.values smallConfig.layers
            [batch.seeds] out ∧
            ByType smallConfig.edge_readers.keys out.flatten batch.edges := by
  have readers : smallConfig.edge_readers.values = [smallFile] := rfl
  have space : OneSpace smallConfig.edge_readers.values 3 := by
    rw [readers]
    exact ⟨List.forall_mem_singleton.mpr smallFile_wellFormed, by decide, by decide⟩
  exact sampling_in_layers { replace := true, draw := firstDraw } List.mem_cons_self smallConfig 3
    ⟨space, by rw [readers]; exact List.cons_ne_nil _ _, by decide, by decide⟩ (firstDraw_draws true)
    [[2, 0], [2]] (by decide) firstDraw (firstDraw_draws false) smallNodes (by decide) (by decide)

end CaracalDB.Layers
