import Mathlib.Logic.Relation
import CaracalDB.WriteSteps

/-!
# File operations of writes

A write changes the bundle by one file operation after another, and the caches of its
handle in between. Where a process stops within a write, the bundle is what some of
these operations have made of it. What the operations make of a directory they are
given does not depend on which write they belong to.
-/

namespace CaracalDB

open Database Call

/-- One operation on the files of a bundle or on the caches of its handle. -/
inductive FileStep : Database → Database → Prop where
  /-- `save_catalog(bundle, catalog)` -/
  | catalog (db : Database) (catalog : Catalog) : FileStep db { db with catalog }
  /-- `db._next_lsn()` -/
  | manifest (db : Database) : FileStep db db.tick
  | create_nodes {db : Database} {class_iri local_name : String}
      (absent : db.nodeStoreOf class_iri local_name = .ok none) :
      FileStep db { db with nodes := db.nodes.set local_name (Store.create class_iri) }
  | create_edges {db : Database} {property_iri local_name : String}
      (absent : db.edgeStoreOf property_iri local_name = .ok none) :
      FileStep db { db with edges := db.edges.set local_name (Store.create property_iri) }
  | append_nodes {db after : Database} {local_name : String} {table : Table} {ref : ChunkRef}
      (appended : db.appendNodesAt local_name table = .ok (ref, after)) : FileStep db after
  | append_edges {db after : Database} {local_name : String} {table : Table}
      {repeated : List String} {ref : ChunkRef}
      (appended : db.appendEdgesAt local_name table repeated = .ok (ref, after)) :
      FileStep db after
  /-- `shutil.rmtree` of some directories under `nodes`. -/
  | remove_nodes (db : Database) (keeps : String → Bool) :
      FileStep db { db with nodes := db.nodes.keep keeps }
  | remove_edges (db : Database) (keeps : String → Bool) :
      FileStep db { db with edges := db.edges.keep keeps }
  | remove_snapshots (db : Database) : FileStep db { db with snapshots := Dict.empty }
  /-- `target.unlink(missing_ok=True)` of some CSR files. -/
  | unlink (db : Database) (keeps : CsrName → Bool) :
      FileStep db { db with graph := db.graph.keep keeps }
  /-- A change of the caches that adds neither a reader nor an adjacency. -/
  | forget (db : Database) (keepsReader : CsrKey → Bool) (keepsAdjacency : AdjacencyKey → Bool)
      (ids : Dict String IdMap) :
      FileStep db { db with
        csr_cache := db.csr_cache.keep keepsReader
        external_id_map_cache := ids
        typed_adjacency_cache := db.typed_adjacency_cache.keep keepsAdjacency }

/-- Some operations, one after another. -/
abbrev FileSteps : Database → Database → Prop := Relation.ReflTransGen FileStep

namespace FileSteps

theorem keep_all {Key Value : Type} [DecidableEq Key] (dict : Dict Key Value) :
    dict.keep (fun _ => true) = dict := by
  cases dict
  simp [Dict.keep]

theorem keep_none {Key Value : Type} [DecidableEq Key] (dict : Dict Key Value) :
    dict.keep (fun _ => false) = Dict.empty := by
  cases dict
  simp [Dict.keep, Dict.empty]

/-! ## Writes are made of file operations -/

theorem createNodes (iri name : String) : Relates FileSteps (Database.createNodes iri name) := by
  apply Relates.attempt
  intro db _ after happens
  cases opened : db.nodeStoreOf iri name with
  | error raised =>
    rw [opened] at happens
    cases happens
  | ok found =>
    rw [opened] at happens
    cases found with
    | some store =>
      cases happens
      exact .refl
    | none =>
      cases happens
      exact .single (.create_nodes opened)

theorem createEdges (iri name : String) : Relates FileSteps (Database.createEdges iri name) := by
  apply Relates.attempt
  intro db _ after happens
  cases opened : db.edgeStoreOf iri name with
  | error raised =>
    rw [opened] at happens
    cases happens
  | ok found =>
    rw [opened] at happens
    cases found with
    | some store =>
      cases happens
      exact .refl
    | none =>
      cases happens
      exact .single (.create_edges opened)

theorem appendNodes (name : String) (table : Table) :
    Relates FileSteps (Database.appendNodes name table) := by
  refine Relates.bind (Relates.change fun db => .single (.manifest db)) fun _ => ?_
  exact Relates.attempt fun db _ after happens => .single (.append_nodes happens)

theorem appendEdges (name : String) (table : Table) (repeated : List String) :
    Relates FileSteps (Database.appendEdges name table repeated) := by
  refine Relates.bind (Relates.change fun db => .single (.manifest db)) fun _ => ?_
  exact Relates.attempt fun db _ after happens => .single (.append_edges happens)

/-- The caches change first, then the files are removed. -/
theorem forgetThenUnlink (db : Database) (keepsReader : CsrKey → Bool)
    (keepsAdjacency : AdjacencyKey → Bool) (ids : Dict String IdMap) (keepsName : CsrName → Bool) :
    FileSteps db { db with
      graph := db.graph.keep keepsName
      csr_cache := db.csr_cache.keep keepsReader
      external_id_map_cache := ids
      typed_adjacency_cache := db.typed_adjacency_cache.keep keepsAdjacency } :=
  .tail (.single (.forget db keepsReader keepsAdjacency ids)) (.unlink _ keepsName)

theorem invalidateAll : Relates FileSteps Database.invalidateAll := by
  intro db
  have steps := forgetThenUnlink db (fun _ => false) (fun _ => false) Dict.empty fun _ => false
  rw [keep_none, keep_none, keep_none] at steps
  exact steps

theorem remember (key_col : String) (ids : IdMap) (db : Database) :
    FileSteps db (Database.remember key_col ids db) := by
  have step := FileStep.forget db (fun _ => true) (fun _ => true)
    (db.external_id_map_cache.set key_col ids)
  rw [keep_all, keep_all] at step
  exact .single step

theorem insertion : WriteSteps FileSteps where
  define_class _ := fun db => .single (.catalog db _)
  define_property _ _ := fun db => .single (.catalog db _)
  create_nodes := createNodes
  create_edges := createEdges
  append_nodes := appendNodes
  append_edges := appendEdges
  invalidate_all := invalidateAll
  invalidate_relation _ := fun db => forgetThenUnlink db _ _ _ _
  remember := remember

/-- Removing everything in the bundle but its manifest and its catalog. -/
theorem removeBundle (db : Database) : FileSteps db { db with
    nodes := Dict.empty, edges := Dict.empty, snapshots := Dict.empty, graph := Dict.empty } := by
  have nodes := FileStep.remove_nodes db fun _ => false
  have edges := FileStep.remove_edges { db with nodes := Dict.empty } fun _ => false
  have files := FileStep.unlink
    { db with nodes := Dict.empty, edges := Dict.empty, snapshots := Dict.empty } fun _ => false
  rw [keep_none] at nodes edges files
  exact .tail (.tail (.tail (.single nodes) edges) (.remove_snapshots _)) files

theorem removeNodes (name : String) : Relates FileSteps (Database.removeNodes name) := by
  rw [Database.removeNodes]
  split
  · refine Relates.change fun db => ?_
    have step := FileStep.remove_nodes db fun _ => false
    rw [keep_none] at step
    exact .single step
  · split
    · exact Relates.bind (Relates.change removeBundle) fun _ => Relates.raise _
    · exact Relates.change fun db => .single (.remove_nodes db _)

theorem removeEdges (name : String) : Relates FileSteps (Database.removeEdges name) := by
  rw [Database.removeEdges]
  split
  · refine Relates.change fun db => ?_
    have step := FileStep.remove_edges db fun _ => false
    rw [keep_none] at step
    exact .single step
  · split
    · exact Relates.bind (Relates.change removeBundle) fun _ => Relates.raise _
    · exact Relates.change fun db => .single (.remove_edges db _)

end FileSteps

/-- A write makes of a database what some file operations make of it. -/
theorem Write.file_steps (runtime : Runtime) (write : Write) (db : Database) :
    FileSteps db (write.after runtime db) :=
  Write.relates_write FileSteps.insertion FileSteps.removeNodes FileSteps.removeEdges runtime
    write db

/-! ## What is kept -/

/-- The CSR files, the readers and the adjacencies are some of those that there were. -/
structure Sheds (before after : Database) : Prop where
  files : ∀ name file, after.graph.get? name = some file → before.graph.get? name = some file
  readers : ∀ key entry, after.csr_cache.get? key = some entry →
    before.csr_cache.get? key = some entry
  adjacencies : ∀ key adjacency, after.typed_adjacency_cache.get? key = some adjacency →
    before.typed_adjacency_cache.get? key = some adjacency

theorem Sheds.refl (db : Database) : Sheds db db :=
  ⟨fun _ _ kept => kept, fun _ _ kept => kept, fun _ _ kept => kept⟩

theorem get_of_keep {Key Value : Type} [DecidableEq Key] {dict : Dict Key Value}
    {keeps : Key → Bool} {key : Key} {value : Value}
    (kept : (dict.keep keeps).get? key = some value) : dict.get? key = some value := by
  rw [Dict.get_keep] at kept
  split at kept
  · exact kept
  · cases kept

/-- No file operation of a write makes a CSR file, a reader or an adjacency. -/
theorem FileStep.sheds {before after : Database} (step : FileStep before after) :
    Sheds before after := by
  cases step with
  | append_nodes appended =>
    obtain ⟨_, _, _, _, _, rfl⟩ := appendNodesAt_ok appended
    exact ⟨fun _ _ kept => kept, fun _ _ kept => kept, fun _ _ kept => kept⟩
  | append_edges appended =>
    obtain ⟨_, _, _, _, _, rfl⟩ := appendEdgesAt_ok appended
    exact ⟨fun _ _ kept => kept, fun _ _ kept => kept, fun _ _ kept => kept⟩
  | unlink keeps =>
    exact ⟨fun _ _ kept => get_of_keep kept, fun _ _ kept => kept, fun _ _ kept => kept⟩
  | forget keepsReader keepsAdjacency ids =>
    exact ⟨fun _ _ kept => kept, fun _ _ kept => get_of_keep kept,
      fun _ _ kept => get_of_keep kept⟩
  | _ => exact ⟨fun _ _ kept => kept, fun _ _ kept => kept, fun _ _ kept => kept⟩

theorem FileSteps.sheds {before after : Database} (steps : FileSteps before after) :
    Sheds before after := by
  induction steps with
  | refl => exact Sheds.refl before
  | tail _ step inductionHypothesis =>
    exact
      { files := fun name file kept =>
          inductionHypothesis.files name file (step.sheds.files name file kept)
        readers := fun key entry kept =>
          inductionHypothesis.readers key entry (step.sheds.readers key entry kept)
        adjacencies := fun key adjacency kept =>
          inductionHypothesis.adjacencies key adjacency (step.sheds.adjacencies key adjacency kept) }

end CaracalDB
