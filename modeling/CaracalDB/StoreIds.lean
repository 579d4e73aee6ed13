import CaracalDB.Visibility

/-!
# Ids of stored rows

The manifest of a store lists its chunks with the ids of their rows, and the next id.
An append takes ids from the manifest in memory, writes the chunk under the number of
chunks and the manifest then. What the manifest lists, read from its files, is the store
of the appends alone; so ids go on without gaps over appends, refused ones and reopening,
as long as no write of a manifest fails behind its chunk.
-/

namespace CaracalDB.StoreIds

open Mixed Visibility

/-- `NodeChunkRef` and `EdgeChunkRef` -/
structure ChunkRef where
  path : String
  row_count : Nat
  start_id : Nat
  end_id : Nat
deriving DecidableEq

structure StoreManifest where
  next_id : Nat
  chunks : List ChunkRef
deriving DecidableEq

/-- The directory of a store. -/
structure Directory where
  manifest : StoreManifest
  files : Dict String Chunk

/-- An open store holds its manifest in memory. -/
structure Store where
  manifest : StoreManifest
  directory : Directory

/-- `f"{CHUNKS_DIRNAME}/{chunk_index:08d}.col"` -/
def chunkPath (chunk_index : Nat) : String :=
  String.ofList ("chunks/".toList ++ ((Nat.toDigits 10 chunk_index).leftpad 8 '0' ++ ".col".toList))

/-- A file of an append that cannot be written, with the text of the system. -/
inductive Fault where
  | chunk (message : String)
  | manifest (message : String)

/-- The error of a file that cannot be written. -/
def writeError (engine : Engine) (path message : String) : Raised :=
  match engine with
  | .python => .osError path
  | .rust => rustError "CDB-9000" message

namespace Store

/-- The chunks that the manifest lists, with the next id. -/
def files (store : Store) : StoreFiles :=
  { next_id := store.manifest.next_id
    chunks := store.manifest.chunks.filterMap fun ref => store.directory.files.get? ref.path }

/-- `open_node_store(bundle, ...)` and its sibling for edges, on a store that is there. -/
def reopen (store : Store) : Store :=
  { manifest := store.directory.manifest, directory := store.directory }

/-- The chunk of an append. -/
def chunkOf (store : Store) (engine : Engine) (kind : Kind) (input : Input) (created_lsn : Nat) :
    Chunk :=
  { schema := engine.schema kind input.schema
    batches := numberBatches created_lsn store.manifest.next_id (engine.batches input) }

/-- The manifest with the chunk of an append. -/
def manifestWith (store : Store) (input : Input) (path : String) (row_count : Nat) :
    StoreManifest :=
  let end_id := store.manifest.next_id + input.rows.length
  { next_id := end_id
    chunks := store.manifest.chunks ++
      [{ path, row_count, start_id := store.manifest.next_id, end_id }] }

/-- `append(batch, created_lsn=...)` in Python, and `append_node_batch_ipc_stream` and its sibling
in Rust. The number of rows is counted by the footer of the chunk. -/
def append (store : Store) (engine : Engine) (kind : Kind) (input : Input) (created_lsn : Nat)
    (fault : Option Fault) : Except Raised Unit × Store :=
  match engine.append kind store.files input created_lsn with
  | .error raised => (.error raised, store)
  | .ok _ =>
    let path := chunkPath store.manifest.chunks.length
    let chunk := store.chunkOf engine kind input created_lsn
    let manifest := store.manifestWith input path chunk.batches.flatten.length
    match fault with
    | some (.chunk message) => (.error (writeError engine path message), store)
    | some (.manifest message) =>
      (.error (writeError engine "_manifest.json" message),
        { manifest, directory := { store.directory with files := store.directory.files.set path chunk } })
    | none =>
      (.ok (), { manifest, directory := { manifest, files := store.directory.files.set path chunk } })

end Store

/-! ## Runs -/

/-- A step of a run. -/
inductive Step where
  | append (operation : Operation) (fault : Option Fault)
  | reopen

/-- A store with the rows of the appends that were accepted. -/
structure History where
  store : Store
  rows : List (Schema × ChunkRow)

namespace History

def new : History :=
  { store := { manifest := { next_id := 0, chunks := [] }
               directory := { manifest := { next_id := 0, chunks := [] }, files := Dict.empty } }
    rows := [] }

def step (kind : Kind) (history : History) : Step → History
  | .reopen => { history with store := history.store.reopen }
  | .append operation fault =>
    match history.store.append operation.engine kind operation.input operation.created_lsn fault with
    | (.error _, after) => { history with store := after }
    | (.ok (), after) =>
      { store := after
        rows := history.rows ++
          (operation.input.rows.zipIdx history.rows.length).map fun (values, id) =>
            (operation.input.schema, { id, values, created_lsn := operation.created_lsn }) }

def run (kind : Kind) (steps : List Step) : History := steps.foldl (step kind) new

end History

/-- The names of a batch are distinct, and its manifest can be written. -/
def Step.Proper (kind : Kind) : Step → Prop
  | .append operation fault => Distinct kind operation.input ∧ ∀ message, fault ≠ some (.manifest message)
  | .reopen => True

/-- Ranges follow one another from a first id to the next one, each with as many rows as ids. -/
def Contiguous : Nat → List ChunkRef → Nat → Prop
  | start, [], next_id => start = next_id
  | start, ref :: refs, next_id =>
      ref.start_id = start ∧ ref.start_id + ref.row_count = ref.end_id ∧
        Contiguous ref.end_id refs next_id

/-- The ids and rows of a store are those of its history. -/
structure History.Identified (kind : Kind) (history : History) : Prop where
  contiguous : Contiguous 0 history.store.manifest.chunks history.store.manifest.next_id
  chunks : ∀ ref ∈ history.store.manifest.chunks, ∃ chunk,
    history.store.directory.files.get? ref.path = some chunk ∧
      chunk.batches.flatten.map ChunkRow.id = List.range' ref.start_id ref.row_count
  saved : history.store.reopen = history.store
  scanned : ∃ batches, scan history.store.files none none = .ok batches ∧
    batches.flatMap Prod.snd = history.rows.map (shown kind none)
  ids : (history.rows.map (shown kind none)).map List.head? =
    (List.range history.rows.length).map fun id => some (.int id)
  refused : ∀ engine input created_lsn fault raised, (∀ message, fault ≠ some (.manifest message)) →
    (history.store.append engine kind input created_lsn fault).1 = .error raised →
      (history.store.append engine kind input created_lsn fault).2 = history.store

/-! ## Paths -/

/-- Chunks of different numbers have different paths. -/
theorem chunkPath_injective : Function.Injective chunkPath := by
  intro first second same
  have lists := String.ofList_injective same
  have middle := List.append_cancel_right (List.append_cancel_left lists)
  have read (number : Nat) :
      Nat.ofDigitChars 10 ((Nat.toDigits 10 number).leftpad 8 '0') 0 = number := by
    rw [List.leftpad, Nat.ofDigitChars_append, Nat.ofDigitChars_replicate_zero, Nat.mul_zero,
      Nat.ofDigitChars_ten_toDigits]
  rw [← read first, middle, read]

/-! ## Appends -/

/-- The manifest lists chunks under their numbers, and the store it describes is the store of the
appends. -/
structure History.Sound (kind : Kind) (history : History) : Prop where
  paths : history.store.manifest.chunks.map ChunkRef.path =
    (List.range history.store.manifest.chunks.length).map chunkPath
  chunks : ∀ ref ∈ history.store.manifest.chunks, ∃ chunk,
    history.store.directory.files.get? ref.path = some chunk ∧
      chunk.batches.flatten.map ChunkRow.id = List.range' ref.start_id ref.row_count
  contiguous : Contiguous 0 history.store.manifest.chunks history.store.manifest.next_id
  saved : history.store.directory.manifest = history.store.manifest
  kept : Log.Kept kind { store := history.store.files, rows := history.rows }
  shaped : Log.Shaped kind { store := history.store.files, rows := history.rows }
  ids : history.rows.map (fun entry => entry.2.id) = List.range history.rows.length

theorem contiguous_append {start stop : Nat} {refs : List ChunkRef} (ref : ChunkRef)
    (contiguous : Contiguous start refs stop) (begins : ref.start_id = stop)
    (counts : ref.start_id + ref.row_count = ref.end_id) :
    Contiguous start (refs ++ [ref]) ref.end_id := by
  induction refs generalizing start with
  | nil => exact ⟨begins.trans contiguous.symm, counts, rfl⟩
  | cons first refs inductionHypothesis =>
    obtain ⟨here, size, rest⟩ := contiguous
    exact ⟨here, size, inductionHypothesis rest⟩

/-- An append that is refused leaves the store as it was. -/
theorem refused_unchanged {store : Store} {engine : Engine} {kind : Kind} {input : Input}
    {created_lsn : Nat} {fault : Option Fault} {raised : Raised}
    (writable : ∀ message, fault ≠ some (.manifest message))
    (failed : (store.append engine kind input created_lsn fault).1 = .error raised) :
    (store.append engine kind input created_lsn fault).2 = store := by
  rw [Store.append] at failed ⊢
  cases appended : engine.append kind store.files input created_lsn with
  | error other => rfl
  | ok pushed =>
    rw [appended] at failed
    match fault, writable with
    | some (.chunk message), _ => rfl
    | some (.manifest message), writable => exact absurd rfl (writable message)
    | none, _ => cases failed

/-- What an append that is accepted does. -/
theorem append_accepted {store after : Store} {engine : Engine} {kind : Kind} {input : Input}
    {created_lsn : Nat} {fault : Option Fault}
    (accepted : store.append engine kind input created_lsn fault = (.ok (), after)) :
    (∃ pushed, engine.append kind store.files input created_lsn = .ok pushed) ∧
      after.manifest = store.manifestWith input (chunkPath store.manifest.chunks.length)
        (store.chunkOf engine kind input created_lsn).batches.flatten.length ∧
      after.directory.manifest = after.manifest ∧
      after.directory.files = store.directory.files.set (chunkPath store.manifest.chunks.length)
        (store.chunkOf engine kind input created_lsn) := by
  rw [Store.append] at accepted
  cases appended : engine.append kind store.files input created_lsn with
  | error other =>
    rw [appended] at accepted
    cases accepted
  | ok pushed =>
    rw [appended] at accepted
    match fault with
    | some (.chunk message) => cases accepted
    | some (.manifest message) => cases accepted
    | none =>
      cases accepted
      exact ⟨⟨pushed, rfl⟩, rfl, rfl, rfl⟩

section Append

variable {kind : Kind} {history : History}

/-- The path of a new chunk is none of the listed ones. -/
theorem History.Sound.fresh (sound : history.Sound kind) {ref : ChunkRef}
    (listed : ref ∈ history.store.manifest.chunks) :
    ref.path ≠ chunkPath history.store.manifest.chunks.length := by
  intro same
  have member : chunkPath history.store.manifest.chunks.length ∈
      history.store.manifest.chunks.map ChunkRef.path := List.mem_map.mpr ⟨ref, listed, same⟩
  rw [sound.paths] at member
  obtain ⟨index, inside, equal⟩ := List.mem_map.mp member
  rw [chunkPath_injective equal] at inside
  exact absurd (List.mem_range.mp inside) (Nat.lt_irrefl _)

/-- The ids in the chunk of an append. -/
theorem chunkOf_ids (store : Store) (engine : Engine) (kind : Kind) (input : Input)
    (created_lsn : Nat) :
    (store.chunkOf engine kind input created_lsn).batches.flatten.length = input.rows.length ∧
      (store.chunkOf engine kind input created_lsn).batches.flatten.map ChunkRow.id =
        List.range' store.manifest.next_id input.rows.length := by
  rw [Store.chunkOf, numberBatches_flatten, Engine.batches_flatten]
  refine ⟨by rw [List.length_map, List.length_zipIdx], ?_⟩
  rw [List.map_map]
  exact List.zipIdx_map_snd _ _

/-- The store that is described after an append has one more chunk. -/
theorem History.Sound.files_append (sound : history.Sound kind) {after : Store} {engine : Engine}
    {input : Input} {created_lsn : Nat} {fault : Option Fault}
    (accepted : history.store.append engine kind input created_lsn fault = (.ok (), after)) :
    after.files = history.store.files.push (engine.schema kind input.schema) (engine.batches input)
      created_lsn := by
  obtain ⟨_, manifest, _, files⟩ := append_accepted accepted
  have old : (history.store.manifest.chunks.filterMap fun ref => after.directory.files.get? ref.path) =
      history.store.manifest.chunks.filterMap fun ref =>
        history.store.directory.files.get? ref.path := by
    apply List.filterMap_congr
    intro ref listed
    rw [files, Dict.get_set_of_ne _ (sound.fresh listed)]
  rw [Store.files, StoreFiles.push, manifest, Store.manifestWith, Engine.batches_flatten]
  simp only
  rw [List.filterMap_append, old, files]
  congr 2
  rw [List.filterMap_cons, Dict.get_set_self]
  rfl

theorem accepted_step {operation : Operation} {fault : Option Fault} {after : Store}
    (accepted : history.store.append operation.engine kind operation.input operation.created_lsn
      fault = (.ok (), after)) :
    history.step kind (.append operation fault) =
      { store := after
        rows := history.rows ++
          (operation.input.rows.zipIdx history.rows.length).map fun (values, id) =>
            (operation.input.schema, { id, values, created_lsn := operation.created_lsn }) } := by
  rw [History.step, accepted]

/-- An append that is accepted is the append to the store that the manifest describes. -/
theorem described_step {operation : Operation} {fault : Option Fault} {after : Store}
    (sound : history.Sound kind)
    (accepted : history.store.append operation.engine kind operation.input operation.created_lsn
      fault = (.ok (), after)) :
    Log.step kind { store := history.store.files, rows := history.rows } operation =
      { store := after.files, rows := (history.step kind (.append operation fault)).rows } := by
  obtain ⟨⟨pushed, appended⟩, _⟩ := append_accepted accepted
  rw [accepted_step accepted, Log.step]
  simp only
  rw [appended, sound.files_append accepted, (append_ok appended).2]

theorem History.Sound.step (sound : history.Sound kind) {step : Step} (proper : step.Proper kind) :
    (history.step kind step).Sound kind := by
  cases step with
  | reopen =>
    have same : history.store.reopen = history.store := by
      rw [Store.reopen, sound.saved]
    rw [History.step, same]
    exact sound
  | append operation fault =>
    obtain ⟨distinct, writable⟩ := proper
    cases result : history.store.append operation.engine kind operation.input operation.created_lsn
        fault with
    | mk answer after =>
      cases answer with
      | error raised =>
        have unchanged := refused_unchanged writable (congrArg Prod.fst result)
        rw [result] at unchanged
        rw [History.step, result]
        simp only [show after = history.store from unchanged]
        exact sound
      | ok returned =>
        have described := described_step sound result
        have logged := accepted_step result
        obtain ⟨_, manifest, saved, files⟩ := append_accepted result
        obtain ⟨size, ids⟩ := chunkOf_ids history.store operation.engine kind operation.input
          operation.created_lsn
        have kept := sound.kept.step operation
        have shaped := sound.shaped.step distinct
        rw [described] at kept shaped
        have count : history.store.manifest.next_id = history.rows.length := sound.kept.next_id
        have store : (history.step kind (.append operation fault)).store = after := by rw [logged]
        refine ⟨?_, ?_, ?_, ?_, store ▸ kept, store ▸ shaped, ?_⟩
        · rw [store, manifest, Store.manifestWith]
          simp only
          rw [List.map_append, List.length_append, sound.paths, List.map_singleton,
            List.length_singleton, List.range_succ, List.map_append, List.map_singleton]
        · rw [store, manifest, Store.manifestWith]
          intro ref listed
          rcases List.mem_append.mp listed with old | new
          · obtain ⟨chunk, found, rows⟩ := sound.chunks ref old
            exact ⟨chunk, by rw [files, Dict.get_set_of_ne _ (sound.fresh old), found], rows⟩
          · rw [List.mem_singleton.mp new]
            exact ⟨_, by rw [files, Dict.get_set_self], by rw [ids, size]⟩
        · rw [store, manifest, Store.manifestWith]
          refine contiguous_append _ sound.contiguous rfl ?_
          simp only [size]
        · rw [store, saved]
        · rw [logged]
          simp only
          rw [List.map_append, sound.ids, List.length_append, List.length_map, List.length_zipIdx,
            List.map_map, List.range_add]
          congr 1
          exact (List.zipIdx_map_snd _ _).trans List.range'_eq_map_range

end Append

theorem sound_run {kind : Kind} {steps : List Step} (proper : ∀ step ∈ steps, step.Proper kind) :
    (History.run kind steps).Sound kind := by
  have all (history : History) (sound : history.Sound kind) :
      (steps.foldl (History.step kind) history).Sound kind := by
    induction steps generalizing history with
    | nil => exact sound
    | cons step steps inductionHypothesis =>
      obtain ⟨first, others⟩ := List.forall_mem_cons.mp proper
      exact inductionHypothesis others _ (sound.step first)
  exact all _ ⟨rfl, nofun, rfl, rfl, ⟨rfl, rfl⟩, nofun, rfl⟩

/-- A row that is scanned begins with its id. -/
theorem shown_head (kind : Kind) (entry : Schema × ChunkRow) :
    (shown kind none entry).head? = some (.int entry.2.id) := by
  obtain ⟨apart, apartToo⟩ := id_column_public kind
  simp [shown, selected, columnNames, cells, apart, apartToo]

/-- In every run of appends and reopenings whose batches have distinct names and whose manifests
can be written, the ranges of the chunks follow one another from zero to the next id, each chunk
has the rows of its range, a scan gives every accepted row under its id in order, and an append
that is refused changes neither manifest nor files. -/
theorem ids_kept (kind : Kind) (steps : List Step) (proper : ∀ step ∈ steps, step.Proper kind) :
    (History.run kind steps).Identified kind := by
  have sound := sound_run proper
  obtain ⟨batches, scanned⟩ := scan_answers sound.shaped none none nofun
  have numbered : ((History.run kind steps).rows.map (shown kind none)).map List.head? =
      (List.range (History.run kind steps).rows.length).map fun id => some (.int id) := by
    rw [← sound.ids, List.map_map, List.map_map]
    exact List.map_congr_left fun entry _ => shown_head kind entry
  refine ⟨sound.contiguous, sound.chunks, by rw [Store.reopen, sound.saved], ⟨batches, scanned, ?_⟩,
    numbered, fun engine input created_lsn fault raised writable => refused_unchanged writable⟩
  have rows := scan_rows scanned
  have kept : storedRows (History.run kind steps).store.files =
      (History.run kind steps).rows.map fun entry => (columnNames kind entry.1, entry.2) :=
    sound.kept.rows
  have all (entries : List (List String × ChunkRow)) :
      (entries.filter fun entry => writtenBy none entry.2) = entries :=
    List.filter_eq_self.mpr fun _ _ => rfl
  rw [rows, kept, all, List.map_map]
  rfl

/-- Two batches of one stream, with three rows. -/
def threeNames : Input where
  schema := [{ name := "name", type := .string, nullable := true }]
  batches := [[[.str "Alice"], [.str "Bob"]], [[.str "Carol"]]]

/-- A stream of two batches, a reopening, and a batch from Python. -/
def fourNames : List Step :=
  [.append { engine := .rust, input := threeNames, created_lsn := 1 } none, .reopen,
    .append { engine := .python, input := nameBatch "Dora", created_lsn := 2 } none]

/-- The rows of both appends have the ids from zero to three. -/
theorem four_names_numbered : ∃ batches,
    scan (History.run .nodes fourNames).store.files none none = .ok batches ∧
      batches.flatMap Prod.snd = [[.int 0, .str "Alice"], [.int 1, .str "Bob"],
        [.int 2, .str "Carol"], [.int 3, .str "Dora"]] := by
  have identified := ids_kept .nodes fourNames (by
    intro step member
    simp only [fourNames, List.mem_cons, List.not_mem_nil, or_false] at member
    rcases member with rfl | rfl | rfl
    · exact ⟨fun _ _ => List.nodup_singleton _, by rintro _ ⟨⟩⟩
    · trivial
    · exact ⟨fun _ _ => List.nodup_singleton _, by rintro _ ⟨⟩⟩)
  exact identified.scanned

/-- A batch with two columns of one name is appended and cannot be scanned. An append of the Rust
engine whose manifest cannot be written raises an error of the engine and has taken its ids. -/
theorem ids_taken_by_refused :
    ¬ (History.run .nodes [.append { engine := .python, input := doubledBatch, created_lsn := 1 }
      none]).Identified .nodes ∧
    (History.new.store.append .rust .nodes threeNames 1 (some (.manifest "disk full"))).1 =
        .error (rustError "CDB-9000" "disk full") ∧
      (History.new.store.append .rust .nodes threeNames 1
        (some (.manifest "disk full"))).2.manifest.next_id = 3 := by
  refine ⟨fun identified => ?_, rfl, rfl⟩
  obtain ⟨batches, scanned, _⟩ := identified.scanned
  have raised : scan (History.run .nodes [.append
      { engine := .python, input := doubledBatch, created_lsn := 1 } none]).store.files none none =
        .error (.keyError "Column name does not exist in schema") := rfl
  rw [raised] at scanned
  cases scanned

end CaracalDB.StoreIds
