import CaracalDB.ResourceRuns

/-!
# The ids of nodes

A node table hands out ids through a map of the keys that are stored. As long as no node table
raises behind that, the map has exactly the ids that are stored, so that a key keeps its id, no
two keys share one, and the ends of every edge are ids of stored nodes.
-/

namespace CaracalDB.Database

/-- A row of some class has the key and the id. -/
def Holds (db : Database) (key : Value) (gid : Int) : Prop :=
  ∃ directory, ∃ row ∈ valuesIn db.nodes directory,
    nodeKey row = .ok key ∧ row.read INTERNAL_GID_COLUMN = .int gid

/-- A map of ids has the ids that are stored and no others. -/
def Exactly (db : Database) (ids : IdMap) : Prop :=
  ∀ key gid, ids.get? key = some gid ↔ Holds db key gid

/-- Both ends of an edge are ids of keys. -/
def Ends (holds : Value → Int → Prop) (edge : Row) : Prop :=
  ∀ column ∈ [SRC_COLUMN, DST_COLUMN], ∃ key gid, edge.read column = .int gid ∧ holds key gid

/-- Nodes have keys, a key has one id and an id one key; the ends of edges are ids of nodes, and a
map that the handle caches is exact. -/
structure Intact (db : Database) : Prop where
  shelved : Shelved db
  keyed : ∀ directory, ∀ row ∈ valuesIn db.nodes directory, ∃ key, nodeKey row = .ok key
  one_id : ∀ key gid other, Holds db key gid → Holds db key other → gid = other
  one_key : ∀ gid key other, Holds db key gid → Holds db other gid → key = other
  cached : ∀ ids, db.external_id_map_cache.get? "node_id" = some ids → Exactly db ids
  ends : ∀ relation, ∀ edge ∈ valuesIn db.edges relation, Ends (Holds db) edge

/-- What a step leaves is in order, and what was stored has its ids. -/
structure Keeps (db after : Database) : Prop where
  intact : Intact after
  grown : ∀ key gid, Holds db key gid → Holds after key gid

theorem Intact.keeps {db : Database} (intact : Intact db) : Keeps db db :=
  ⟨intact, fun _ _ held => held⟩

theorem Keeps.trans {db middle after : Database} (early : Keeps db middle)
    (late : Keeps middle after) : Keeps db after :=
  ⟨late.intact, fun key gid held => late.grown key gid (early.grown key gid held)⟩

theorem Ends.imp {holds further : Value → Int → Prop} (grows : ∀ key gid, holds key gid →
    further key gid) {edge : Row} (ends : Ends holds edge) : Ends further edge := by
  intro column among
  obtain ⟨key, gid, reads, held⟩ := ends column among
  exact ⟨key, gid, reads, grows key gid held⟩

/-! ## The map of ids -/

/-- Every stored row has an id. -/
theorem Shelved.id {db : Database} (shelved : Shelved db) {directory : String} {row : Row}
    (member : row ∈ valuesIn db.nodes directory) :
    ∃ gid, row.read INTERNAL_GID_COLUMN = .int gid := by
  rw [valuesIn, rowsIn] at member
  cases stored : db.nodes.get? directory with
  | none =>
    rw [stored] at member
    cases member
  | some store =>
    rw [stored] at member
    exact (shelved.shelf directory store stored).findable.ids row member

theorem Exactly.complete {db : Database} (shelved : Shelved db) {ids : IdMap}
    (exactly : Exactly db ids) : Complete db ids := by
  intro key
  rw [Dict.contains, Option.isSome_iff_exists]
  constructor
  · rintro ⟨gid, found⟩
    obtain ⟨directory, row, member, isKey, _⟩ := (exactly key gid).mp found
    exact stored_of_mem (List.mem_map.mpr ⟨row, member, isKey⟩)
  · rintro ⟨directory, _, inside⟩
    obtain ⟨row, member, isKey⟩ := List.mem_map.mp inside
    obtain ⟨gid, isId⟩ := shelved.id member
    exact ⟨gid, (exactly key gid).mpr ⟨directory, row, member, isKey, isId⟩⟩

theorem Intact.inOrder {db : Database} (intact : Intact db) : InOrder db :=
  ⟨intact.shelved, fun ids cached => (intact.cached ids cached).complete intact.shelved⟩

/-- What is filed under a key is the id of a row with the key. -/
theorem fileIds_gets {runtime : Runtime} (rows : List StoredRow) {ids last : IdMap}
    (numbered : ∀ row ∈ rows.map StoredRow.values, ∃ gid,
      row.read INTERNAL_GID_COLUMN = .int gid)
    (done : rows.foldlM (fileIds runtime "node_id") ids = .ok last) {key : Value} {gid : Int}
    (found : last.get? key = some gid) :
    ids.get? key = some gid ∨ ∃ row ∈ rows.map StoredRow.values,
      nodeKey row = .ok key ∧ row.read INTERNAL_GID_COLUMN = .int gid := by
  induction rows generalizing ids with
  | nil =>
    cases done
    exact .inl found
  | cons row rows ih =>
    rw [List.foldlM_cons] at done
    obtain ⟨next, first, done⟩ := except_bind_ok done
    obtain ⟨id, converts, first⟩ := except_bind_ok first
    obtain ⟨filed, hashes, first⟩ := except_bind_ok first
    rw [read_publicRow row (by decide)] at hashes
    obtain ⟨⟨own, isOwn⟩, others⟩ := List.forall_mem_cons.mp numbered
    rw [isOwn] at converts
    obtain rfl : own = id := Except.ok.inj converts
    rcases ih others done with before | ⟨other, member, both⟩
    · rw [← Except.ok.inj first, Dict.get_set] at before
      split at before
      · next same =>
        refine .inr ⟨row.values, List.mem_cons_self, same ▸ hashes, ?_⟩
        rw [isOwn, Option.some.inj before]
      · exact .inl before
    · exact .inr ⟨other, List.mem_cons_of_mem _ member, both⟩

theorem fileStore_gets {runtime : Runtime} {db : Database} (shelved : Shelved db)
    {ids last : IdMap} {name : String} (listed : name ∈ db.nodes.keys)
    (done : fileStore runtime "node_id" db ids name = .ok last) {key : Value} {gid : Int}
    (found : last.get? key = some gid) : ids.get? key = some gid ∨ Holds db key gid := by
  obtain ⟨store, stored⟩ := (Dict.mem_keys _ _).mp listed
  obtain ⟨cls, isClass, _, opened, columns⟩ := shelved.find stored
  obtain ⟨_, sameClass, done⟩ := except_bind_ok done
  cases Except.ok.inj (isClass.symm.trans sameClass)
  obtain ⟨_, isStore, done⟩ := except_bind_ok done
  cases Except.ok.inj (opened.symm.trans isStore)
  rw [if_pos columns] at done
  refine (fileIds_gets store.rows (shelved.shelf name store stored).findable.ids done found).imp_right
    fun ⟨row, member, both⟩ => ⟨name, row, ?_, both⟩
  rw [valuesIn, rowsIn, stored]
  exact member

theorem fileStores_gets {runtime : Runtime} {db : Database} (shelved : Shelved db)
    (names : List String) (listed : ∀ name ∈ names, name ∈ db.nodes.keys) {ids last : IdMap}
    (done : names.foldlM (fileStore runtime "node_id" db) ids = .ok last) {key : Value} {gid : Int}
    (found : last.get? key = some gid) : ids.get? key = some gid ∨ Holds db key gid := by
  induction names generalizing ids with
  | nil =>
    cases done
    exact .inl found
  | cons name names ih =>
    rw [List.foldlM_cons] at done
    obtain ⟨next, first, done⟩ := except_bind_ok done
    rcases ih (List.forall_mem_cons.mp listed).2 done with before | held
    · exact fileStore_gets shelved (List.forall_mem_cons.mp listed).1 first before
    · exact .inr held

/-- The map that the handle answers has exactly the ids that are stored. -/
theorem Intact.idMap {runtime : Runtime} {db : Database} (intact : Intact db) {ids : IdMap}
    (found : idMap runtime "node_id" db = .ok ids) : Exactly db ids := by
  have complete := intact.inOrder.idMap found
  rw [Database.idMap] at found
  cases cached : db.external_id_map_cache.get? "node_id" with
  | some known =>
    rw [cached] at found
    rw [← Except.ok.inj found]
    exact intact.cached known cached
  | none =>
    rw [cached] at found
    have only {key : Value} {gid : Int} (filed : ids.get? key = some gid) : Holds db key gid := by
      rcases fileStores_gets intact.shelved _ (fun name member => (mem_sortedNames _ _).mp member)
        found filed with absurdity | held
      · cases absurdity
      · exact held
    intro key gid
    refine ⟨only, fun held => ?_⟩
    -- the key is in the map, and it has no other id
    obtain ⟨directory, row, member, isKey, isId⟩ := held
    have stored : Stored db (.ok key) := stored_of_mem (List.mem_map.mpr ⟨row, member, isKey⟩)
    obtain ⟨other, filed⟩ := Option.isSome_iff_exists.mp ((complete key).mpr stored)
    rw [filed, intact.one_id key other gid (only filed) ⟨directory, row, member, isKey, isId⟩]

/-- Asking for the map of ids keeps everything. -/
theorem Intact.externalIdMap {runtime : Runtime} {db after : Database} (intact : Intact db)
    {ids : IdMap} (done : Call.run (externalIdMap runtime "node_id") db = (.ok ids, after)) :
    after = db.remember "node_id" ids ∧ Intact after ∧ Exactly db ids := by
  rw [Database.externalIdMap, Call.run_attempt] at done
  cases found : Database.idMap runtime "node_id" db with
  | error raised =>
    rw [found] at done
    cases done
  | ok known =>
    rw [found] at done
    cases done
    have exactly := intact.idMap found
    refine ⟨rfl, ?_, exactly⟩
    refine
      { shelved := ⟨intact.shelved.named, intact.shelved.shelf⟩
        keyed := intact.keyed
        one_id := intact.one_id
        one_key := intact.one_key
        cached := fun other cached => ?_
        ends := intact.ends }
    rw [remember] at cached
    rw [Dict.get_set_self] at cached
    rw [← Option.some.inj cached]
    exact exactly

/-! ## Handing out ids -/

/-- Every id is below the next one, and no two keys share one. -/
structure Numbering.Fresh (numbering : Numbering) : Prop where
  below : ∀ key gid, numbering.ids.get? key = some gid → gid < numbering.next_gid
  one_key : ∀ gid key other, numbering.ids.get? key = some gid →
    numbering.ids.get? other = some gid → key = other

theorem lt_nextGid {ids : IdMap} {key : Value} {gid : Int} (found : ids.get? key = some gid) :
    gid < nextGid ids := by
  have member : gid ∈ ids.values := (Dict.mem_values _ _).mpr ⟨key, found⟩
  rw [nextGid]
  cases values : ids.values with
  | nil =>
    rw [values] at member
    cases member
  | cons first rest =>
    rw [values] at member
    exact Int.lt_add_one_of_le (List.le_max_of_mem member)

theorem Numbering.fresh_of {db : Database} (intact : Intact db) {ids : IdMap}
    (exactly : Exactly db ids) : (Numbering.of ids).Fresh where
  below _ _ found := lt_nextGid found
  one_key gid key other first second :=
    intact.one_key gid key other ((exactly key gid).mp first) ((exactly other gid).mp second)

/-- A numbering goes on from another one with ids for some more keys. -/
structure Numbering.Continues (first later : Numbering) (keys : Value → Prop) : Prop where
  fresh : later.Fresh
  kept : ∀ key gid, first.ids.get? key = some gid → later.ids.get? key = some gid
  only : ∀ key gid, later.ids.get? key = some gid → first.ids.get? key = some gid ∨ keys key

theorem Numbering.Fresh.assign {numbering : Numbering} (fresh : numbering.Fresh) (key : Value) :
    (numbering.assign key).1.ids.get? key = some (numbering.assign key).2 ∧
      numbering.Continues (numbering.assign key).1 (· = key) := by
  rw [Numbering.assign]
  cases known : numbering.ids.get? key with
  | some gid => exact ⟨known, fresh, fun _ _ found => found, fun _ _ found => .inl found⟩
  | none =>
    have reads (other : Value) (gid : Int) :
        (numbering.ids.set key numbering.next_gid).get? other = some gid ↔
          (other = key ∧ gid = numbering.next_gid) ∨ numbering.ids.get? other = some gid := by
      rw [Dict.get_set]
      split
      · next same =>
        subst same
        simp [known, eq_comm]
      · next different => simp [different]
    refine ⟨Dict.get_set_self _ _ _, ⟨fun other gid found => ?_, fun gid first second => ?_⟩,
      fun other gid found => (reads other gid).mpr (.inr found), fun other gid found => ?_⟩
    · rcases (reads other gid).mp found with ⟨_, rfl⟩ | before
      · exact Int.lt_add_one_of_le (le_refl _)
      · exact (fresh.below other gid before).trans (Int.lt_add_one_of_le (le_refl _))
    · intro isFirst isSecond
      rcases (reads first gid).mp isFirst with ⟨rfl, rfl⟩ | early
      · rcases (reads second _).mp isSecond with ⟨rfl, _⟩ | before
        · rfl
        · exact absurd (fresh.below second _ before) (lt_irrefl _)
      · rcases (reads second gid).mp isSecond with ⟨rfl, rfl⟩ | before
        · exact absurd (fresh.below first _ early) (lt_irrefl _)
        · exact fresh.one_key gid first second early before
    · exact ((reads other gid).mp found).symm.imp_right And.left

theorem Numbering.Continues.trans {first middle last : Numbering} {early late : Value → Prop}
    (begins : first.Continues middle early) (ends : middle.Continues last late) :
    first.Continues last fun key => early key ∨ late key where
  fresh := ends.fresh
  kept key gid found := ends.kept key gid (begins.kept key gid found)
  only key gid found := by
    rcases ends.only key gid found with before | isLate
    · exact (begins.only key gid before).imp_right .inl
    · exact .inr (.inr isLate)

/-! ## Node tables -/

/-- A row with the id that a map has for its key, under the class that it names. -/
def Assigned (ids : IdMap) (type_col : String) (out : String × Row) (row : Row) : Prop :=
  out.1 = classOf type_col row ∧ ∃ key gid, (row.read "node_id").hashed = .ok key ∧
    ids.get? key = some gid ∧ out.2 = row.set INTERNAL_GID_COLUMN (.int gid)

theorem assignRow_continues {type_col : String} {row : Row} {state next : Numbering × Groups}
    {db after : Database} (fresh : state.1.Fresh)
    (done : Call.run (assignRow "node_id" type_col state row) db = (.ok next, after)) :
    state.1.Continues next.1 (fun key => nodeKey row = .ok key) ∧
      ∃ out, Assigned next.1.ids type_col out row ∧ next.2 = Dict.file state.2 out := by
  obtain ⟨⟨numbering, gid⟩, assigned, assigns, done⟩ := Call.run_bind_returns done
  obtain ⟨key, _, hashes, assigns⟩ := Call.run_bind_returns assigns
  rw [Call.run_ofExcept] at hashes
  obtain ⟨hashed, rfl⟩ := Prod.mk.inj hashes
  obtain ⟨_, _, remembers, assigns⟩ := Call.run_bind_returns assigns
  cases remembers
  obtain ⟨isAssigned, rfl⟩ := Prod.mk.inj assigns
  obtain ⟨name, _, coerces, done⟩ := Call.run_bind_returns done
  rw [Call.run_ofExcept] at coerces
  obtain ⟨coerced, rfl⟩ := Prod.mk.inj coerces
  obtain ⟨same, rfl⟩ := Prod.mk.inj done
  obtain ⟨filed, continues⟩ := fresh.assign key
  rw [Except.ok.inj isAssigned] at filed continues
  rw [← Except.ok.inj same]
  refine ⟨⟨continues.fresh, continues.kept, fun other id found => ?_⟩,
    (name, row.set INTERNAL_GID_COLUMN (.int gid)), ⟨?_, key, gid, hashed, filed, rfl⟩, rfl⟩
  · refine (continues.only other id found).imp_right ?_
    rintro rfl
    exact hashed
  · rw [classOf, coerced]

theorem assignRows_continues {type_col : String} (payload : List Row)
    {state last : Numbering × Groups} {db after : Database} (fresh : state.1.Fresh)
    (done : Call.run (payload.foldlM (assignRow "node_id" type_col) state) db =
      (.ok last, after)) :
    (after.catalog = db.catalog ∧ after.nodes = db.nodes ∧ after.edges = db.edges) ∧
      state.1.Continues last.1 (fun key => ∃ row ∈ payload, nodeKey row = .ok key) ∧
      ∃ outs, (∀ out ∈ outs, IsName out.1) ∧
        List.Forall₂ (Assigned last.1.ids type_col) outs payload ∧
        last.2 = outs.foldl Dict.file state.2 := by
  induction payload generalizing state db with
  | nil =>
    cases done
    exact ⟨⟨rfl, rfl, rfl⟩, ⟨fresh, fun _ _ found => found, fun _ _ found => .inl found⟩, [],
      fun _ absurdity => absurd absurdity List.not_mem_nil, .nil, rfl⟩
  | cons row payload ih =>
    rw [List.foldlM_cons] at done
    obtain ⟨next, middle, first, done⟩ := Call.run_bind_returns done
    obtain ⟨⟨catalog, nodes, edges⟩, isName, _⟩ := assignRow_ok first
    obtain ⟨begins, out, assigned, filed⟩ := assignRow_continues fresh first
    obtain ⟨⟨laterCatalog, laterNodes, laterEdges⟩, ends, outs, names, alike, grouped⟩ :=
      ih begins.fresh done
    have whole := begins.trans ends
    refine ⟨⟨laterCatalog.trans catalog, laterNodes.trans nodes, laterEdges.trans edges⟩,
      ⟨whole.fresh, whole.kept, fun key gid found => ?_⟩, out :: outs,
      List.forall_mem_cons.mpr ⟨assigned.1 ▸ isName, names⟩, .cons ?_ alike, ?_⟩
    · refine (whole.only key gid found).imp_right ?_
      rintro (own | ⟨other, member, isKey⟩)
      · exact ⟨row, List.mem_cons_self, own⟩
      · exact ⟨other, List.mem_cons_of_mem row member, isKey⟩
    · obtain ⟨isClass, key, gid, hashes, found, isOut⟩ := assigned
      exact ⟨isClass, key, gid, hashes, ends.kept key gid found, isOut⟩
    · rw [grouped, filed]
      rfl

/-- The key and the id of a row. -/
def entryOf (row : Row) : Except Raised Value × Value :=
  (nodeKey row, row.read INTERNAL_GID_COLUMN)

/-- A table made of rows with plain keys and ids has their keys and ids. -/
theorem from_pylist_entries {runtime : Runtime} (lawful : runtime.Lawful) {rows : List Row}
    {table : Table} (made : runtime.from_pylist rows = .ok table) (nonempty : rows ≠ [])
    (ready : ∀ row ∈ rows, Ready row) : table.rows.map entryOf = rows.map entryOf := by
  have keys := (from_pylist_findable lawful made nonempty ready).2
  obtain ⟨first, rest, rfl⟩ := List.exists_cons_of_ne_nil nonempty
  obtain ⟨type, back, inferred, reads⟩ := Runtime.from_pylist_column made
    (ready first List.mem_cons_self).numbered
  have integers := lawful.integers _ type back (fun value inside => by
    obtain ⟨given, isGiven, rfl⟩ := List.mem_map.mp inside
    exact .inr (ready given isGiven).id) inferred
  have ids := reads (by rw [integers, List.length_map])
  rw [integers] at ids
  have pairs (rows : List Row) : rows.map entryOf =
      (rows.map nodeKey).zip (rows.map (Row.read · INTERNAL_GID_COLUMN)) := List.zip_map'.symm
  rw [pairs, pairs, keys, ids]

/-- What is filed is in the group of its name. -/
theorem group_of_mem {Item : Type} {outs : List (String × Item)} {out : String × Item}
    (member : out ∈ outs) : ∃ group ∈ (outs.foldl Dict.file Dict.empty).entries,
      group.1 = out.1 ∧ out.2 ∈ group.2 := by
  have inside : out.2 ∈ ((outs.foldl Dict.file Dict.empty).get? out.1).getD [] := by
    rw [Dict.filed_under]
    exact List.mem_map_of_mem (List.mem_filter.mpr ⟨member, decide_eq_true rfl⟩)
  cases found : (outs.foldl Dict.file Dict.empty).get? out.1 with
  | none =>
    rw [found] at inside
    cases inside
  | some items =>
    rw [found] at inside
    exact ⟨(out.1, items), (Dict.get_eq_some _ _ _).mp found, rfl, inside⟩

/-- Storing groups adds the keys and ids of their rows, and leaves no map of ids. -/
theorem storeGroups_entries {runtime : Runtime} (lawful : runtime.Lawful)
    {outs : List (String × Row)} (nonempty : outs ≠ []) (names : ∀ out ∈ outs, IsName out.1)
    (ready : ∀ out ∈ outs, Ready out.2) {refs : Dict String ChunkRef} {db after : Database}
    (shelved : Shelved db)
    (done : Call.run ((outs.foldl Dict.file Dict.empty).entries.foldlM (storeGroup runtime)
      Dict.empty) db = (.ok refs, after)) :
    (Shelved after ∧ after.external_id_map_cache = Dict.empty ∧ after.edges = db.edges) ∧
      ∀ entry, (∃ directory, entry ∈ (valuesIn after.nodes directory).map entryOf) ↔
        (∃ directory, entry ∈ (valuesIn db.nodes directory).map entryOf) ∨
          entry ∈ outs.map fun out => entryOf out.2 := by
  have groupNames : ∀ group ∈ (outs.foldl Dict.file Dict.empty).entries, IsName group.1 := by
    intro group member
    obtain ⟨out, inside, same⟩ := Dict.mem_keys_file (List.mem_map_of_mem (f := Prod.fst) member)
    exact same ▸ names out inside
  have groupRows : ∀ group ∈ (outs.foldl Dict.file Dict.empty).entries,
      group.2 ≠ [] ∧ (∀ row ∈ group.2, Ready row) ∧ ∀ row ∈ group.2, ∃ out ∈ outs, out.2 = row := by
    intro group member
    obtain ⟨whole, filled⟩ := file_group member
    have isOut : ∀ row ∈ group.2, ∃ out ∈ outs, out.2 = row := by
      intro row inside
      rw [whole] at inside
      obtain ⟨out, isOut, same⟩ := List.mem_map.mp inside
      exact ⟨out, List.mem_of_mem_filter isOut, same⟩
    refine ⟨filled, fun row inside => ?_, isOut⟩
    obtain ⟨out, among, rfl⟩ := isOut row inside
    exact ready out among
  have filled : (outs.foldl Dict.file Dict.empty).entries ≠ [] := by
    obtain ⟨out, rest, rfl⟩ := List.exists_cons_of_ne_nil nonempty
    obtain ⟨group, member, _⟩ := group_of_mem (List.mem_cons_self (a := out) (l := rest))
    exact List.ne_nil_of_mem member
  obtain ⟨still, emptied⟩ := storeGroups_shelved lawful _ groupNames
    (fun group member => ⟨(groupRows group member).1, (groupRows group member).2.1⟩) shelved done
  obtain ⟨_, edges, made, values⟩ := storeGroups_ok runtime _ groupNames
    (outs.foldl Dict.file Dict.empty).distinct done
  refine ⟨⟨still, emptied filled, edges⟩, fun entry => ?_⟩
  have stored : ∀ group ∈ (outs.foldl Dict.file Dict.empty).entries,
      (rowsOf (runtime.from_pylist group.2)).map entryOf = group.2.map entryOf := by
    intro group member
    obtain ⟨table, isTable⟩ := made group member
    obtain ⟨filled, rows, _⟩ := groupRows group member
    rw [isTable]
    exact from_pylist_entries lawful isTable filled rows
  constructor
  · rintro ⟨directory, inside⟩
    rw [values, List.map_append, List.mem_append] at inside
    refine inside.imp (fun old => ⟨directory, old⟩) fun new => ?_
    rw [List.map_flatMap, List.mem_flatMap] at new
    obtain ⟨group, isGroup, isEntry⟩ := new
    have member := List.mem_of_mem_filter isGroup
    rw [stored group member] at isEntry
    obtain ⟨row, inGroup, rfl⟩ := List.mem_map.mp isEntry
    obtain ⟨out, among, rfl⟩ := (groupRows group member).2.2 row inGroup
    exact List.mem_map_of_mem (f := fun out : String × Row => entryOf out.2) among
  · rintro (⟨directory, old⟩ | new)
    · refine ⟨directory, ?_⟩
      rw [values, List.map_append]
      exact List.mem_append_left _ old
    · obtain ⟨out, among, rfl⟩ := List.mem_map.mp new
      obtain ⟨group, member, _, inGroup⟩ := group_of_mem among
      refine ⟨directoryOf db.catalog.classes.view group.1, ?_⟩
      rw [values, List.map_append]
      refine List.mem_append_right _ ?_
      rw [List.map_flatMap, List.mem_flatMap]
      refine ⟨group, List.mem_filter.mpr ⟨member, decide_eq_true rfl⟩, ?_⟩
      rw [stored group member]
      exact List.mem_map_of_mem inGroup

theorem holds_iff {db : Database} {key : Value} {gid : Int} : Holds db key gid ↔
    ∃ directory, ((.ok key, .int gid) : Except Raised Value × Value) ∈
      (valuesIn db.nodes directory).map entryOf := by
  constructor
  · rintro ⟨directory, row, member, isKey, isId⟩
    exact ⟨directory, List.mem_map.mpr ⟨row, member, Prod.ext isKey isId⟩⟩
  · rintro ⟨directory, inside⟩
    obtain ⟨row, member, same⟩ := List.mem_map.mp inside
    obtain ⟨isKey, isId⟩ := Prod.mk.inj same
    exact ⟨directory, row, member, isKey, isId⟩

theorem Assigned.ready {ids : IdMap} {type_col : String} {out : String × Row} {row : Row}
    (assigned : Assigned ids type_col out row) (keyed : "node_id" ∈ row.keys)
    (plain : (row.read "node_id").Plain) : Ready out.2 := by
  obtain ⟨_, key, gid, _, _, isOut⟩ := assigned
  exact WithId.ready ⟨gid, isOut⟩ keyed plain

theorem Assigned.entry {ids : IdMap} {type_col : String} {out : String × Row} {row : Row}
    (assigned : Assigned ids type_col out row) :
    ∃ key gid, nodeKey row = .ok key ∧ ids.get? key = some gid ∧
      entryOf out.2 = (.ok key, .int gid) := by
  obtain ⟨_, key, gid, hashes, found, isOut⟩ := assigned
  have isKey := WithId.nodeKey ⟨gid, isOut⟩
  refine ⟨key, gid, hashes, found, Prod.ext (isKey.trans hashes) ?_⟩
  rw [entryOf, isOut]
  exact (Row.read_set _ _ _ _).trans (if_pos rfl)

/-- A node table that is inserted keeps everything, and every id that was stored. -/
theorem Intact.insertNodeTable {runtime : Runtime} (lawful : runtime.Lawful) {payload : List Row}
    {type_col : String} {refs : Dict String ChunkRef} {db after : Database} (intact : Intact db)
    (plain : ∀ row ∈ payload, (row.read "node_id").Plain)
    (done : Call.run (insertNodeTable runtime payload "node_id" type_col) db = (.ok refs, after)) :
    Keeps db after := by
  obtain ⟨_, _, first, done⟩ := Call.run_bind_returns done
  rw [Call.run_ofExcept] at first
  obtain ⟨refused, rfl⟩ := Prod.mk.inj first
  have nonempty : payload ≠ [] := refuse_ok refused
  obtain ⟨_, _, checks, done⟩ := Call.run_bind_returns done
  rw [Call.run_ofExcept] at checks
  obtain ⟨checked, rfl⟩ := Prod.mk.inj checks
  obtain ⟨ids, cached, caches, done⟩ := Call.run_bind_returns done
  obtain ⟨rfl, still, exactly⟩ := intact.externalIdMap caches
  obtain ⟨⟨numbering, grouped⟩, numbered, assigns, done⟩ := Call.run_bind_returns done
  obtain ⟨⟨catalog, nodes, edges⟩, continues, outs, names, alike, rfl⟩ :=
    assignRows_continues payload (Numbering.fresh_of intact exactly) assigns
  have isOut : ∀ out ∈ outs, ∃ row ∈ payload, Assigned numbering.ids type_col out row := by
    intro out member
    obtain ⟨index, inside, rfl⟩ := List.mem_iff_getElem.mp member
    exact ⟨_, List.get_mem payload _, alike.get inside (alike.length_eq ▸ inside)⟩
  have ready : ∀ out ∈ outs, Ready out.2 := by
    intro out member
    obtain ⟨row, isRow, assigned⟩ := isOut out member
    obtain ⟨_, required, _⟩ := except_bind_ok (forM_ok checked row isRow)
    have present := refuse_ok required
    simp only [ne_eq, not_not, List.filter_eq_nil_iff] at present
    exact assigned.ready (by simpa using present "node_id" List.mem_cons_self) (plain row isRow)
  have filled : outs ≠ [] := by
    rintro rfl
    exact nonempty (List.length_eq_zero_iff.mp alike.length_eq.symm)
  have before : Shelved numbered := ⟨catalog ▸ intact.shelved.named, catalog ▸ nodes ▸ intact.shelved.shelf⟩
  obtain ⟨⟨shelved, emptied, sameEdges⟩, entries⟩ :=
    storeGroups_entries lawful filled names ready before done
  rw [nodes] at entries
  -- every stored id is the one that the numbering has for the key
  have filed : ∀ key gid, Holds after key gid → numbering.ids.get? key = some gid := by
    intro key gid held
    rcases (entries _).mp (holds_iff.mp held) with old | new
    · exact continues.kept key gid ((exactly key gid).mpr (holds_iff.mpr old))
    · obtain ⟨out, among, same⟩ := List.mem_map.mp new
      obtain ⟨row, _, assigned⟩ := isOut out among
      obtain ⟨own, id, _, found, isEntry⟩ := assigned.entry
      obtain ⟨sameKey, sameId⟩ := Prod.mk.inj (isEntry.symm.trans same)
      rw [← Except.ok.inj sameKey, ← Value.int.inj sameId]
      exact found
  have grows : ∀ key gid, Holds db key gid → Holds after key gid := fun key gid held =>
    holds_iff.mpr ((entries _).mpr (.inl (holds_iff.mp held)))
  refine ⟨?_, grows⟩
  exact
    { shelved := shelved
      keyed := by
        intro directory row member
        rcases (entries _).mp ⟨directory, List.mem_map_of_mem member⟩ with ⟨before, old⟩ | new
        · obtain ⟨other, isOther, same⟩ := List.mem_map.mp old
          obtain ⟨key, isKey⟩ := intact.keyed before other isOther
          exact ⟨key, (Prod.mk.inj same).1.symm.trans isKey⟩
        · obtain ⟨out, among, same⟩ := List.mem_map.mp new
          obtain ⟨given, _, assigned⟩ := isOut out among
          obtain ⟨key, _, _, _, isEntry⟩ := assigned.entry
          exact ⟨key, (Prod.mk.inj (same.symm.trans isEntry)).1⟩
      one_id := fun key gid other first second =>
        Option.some.inj ((filed key gid first).symm.trans (filed key other second))
      one_key := fun gid key other first second =>
        continues.fresh.one_key gid key other (filed key gid first) (filed other gid second)
      cached := by
        intro ids cached
        rw [emptied] at cached
        cases cached
      ends := by
        intro relation edge member
        rw [sameEdges, edges] at member
        exact (intact.ends relation edge member).imp grows }

/-! ## Edge tables -/

/-- Casting a column of integers leaves every column as it is. -/
theorem castColumn_same {runtime : Runtime} (lawful : runtime.Lawful) {name : String}
    {table cast : Table} (named : name ∈ table.names)
    (integers : ∀ value ∈ table.column name, ∃ number, value = .int number)
    (casts : castColumn runtime name table = .ok cast) :
    cast.names = table.names ∧ ∀ key, cast.column key = table.column key := by
  obtain ⟨values, converted, length, names, rows, others⟩ := castColumn_ok casts
  have same := lawful.cast _ _ _ (fun value member => .inr (integers value member)) converted
  refine ⟨names, fun key => ?_⟩
  by_cases here : key = name
  · subst here
    apply List.ext_getElem?
    intro index
    rw [← same, Table.column, List.getElem?_map]
    cases found : cast.rows[index]? with
    | none =>
      have short : values.length ≤ index := by
        rw [same, Table.column, List.length_map, ← length]
        exact List.getElem?_eq_none_iff.mp found
      rw [List.getElem?_eq_none short]
      rfl
    | some row =>
      obtain ⟨old, there, reads, _⟩ := rows index row found
      have inside : index < values.length := by
        rw [same, Table.column, List.length_map]
        exact (List.getElem?_eq_some_iff.mp there).1
      rw [Option.map_some, reads named, List.getD_eq_getElem?_getD,
        List.getElem?_eq_getElem inside]
      rfl
  · exact (others key here).2

/-- A row of an edge table as it is stored: its ends are ids that a map has. -/
structure Resolved (ids : IdMap) (out : Row) : Prop where
  src : SRC_COLUMN ∈ out.keys
  dst : DST_COLUMN ∈ out.keys
  ends : Ends (fun key gid => ids.get? key = some gid) out

/-- A table that is made of edges has their ends. -/
theorem edgeTable_ends {runtime : Runtime} (lawful : runtime.Lawful) {ids : IdMap}
    {rows : List Row} {table : Table} (resolved : ∀ row ∈ rows, Resolved ids row)
    (made : edgeTable runtime rows = .ok table) :
    ∀ edge ∈ table.rows, Ends (fun key gid => ids.get? key = some gid) edge := by
  obtain ⟨plain, built, made⟩ := except_bind_ok made
  obtain ⟨withSrc, castSrc, castDst⟩ := except_bind_ok made
  cases rows with
  | nil =>
    have length : table.rows.length = 0 := by
      obtain ⟨_, _, srcLength, _⟩ := castColumn_ok castSrc
      obtain ⟨_, _, dstLength, _⟩ := castColumn_ok castDst
      exact dstLength.trans (srcLength.trans (Runtime.from_pylist_length built))
    rw [List.length_eq_zero_iff.mp length]
    exact fun _ absurdity => absurd absurdity List.not_mem_nil
  | cons first rest =>
    have own := resolved first List.mem_cons_self
    have names : plain.names = first.keys := Runtime.from_pylist_names built
    have among : ∀ column ∈ [SRC_COLUMN, DST_COLUMN], column ∈ first.keys := by
      intro column member
      rcases List.mem_cons.mp member with rfl | last
      · exact own.src
      · rw [List.mem_singleton.mp last]
        exact own.dst
    have column : ∀ name ∈ [SRC_COLUMN, DST_COLUMN],
        plain.column name = (first :: rest).map (Row.read · name) := by
      intro name member
      obtain ⟨type, back, inferred, reads⟩ := Runtime.from_pylist_column built (among name member)
      have integers := lawful.integers _ type back (fun value inside => by
        obtain ⟨row, isRow, rfl⟩ := List.mem_map.mp inside
        obtain ⟨_, gid, isId, _⟩ := (resolved row isRow).ends name member
        exact .inr ⟨gid, isId⟩) inferred
      rw [Table.column, reads (by rw [integers, List.length_map]), integers]
    have integers : ∀ name ∈ [SRC_COLUMN, DST_COLUMN], ∀ value ∈ plain.column name,
        ∃ number, value = .int number := by
      intro name member value inside
      rw [column name member] at inside
      obtain ⟨row, isRow, rfl⟩ := List.mem_map.mp inside
      obtain ⟨_, gid, isId, _⟩ := (resolved row isRow).ends name member
      exact ⟨gid, isId⟩
    have isSrc : SRC_COLUMN ∈ [SRC_COLUMN, DST_COLUMN] := List.mem_cons_self
    have isDst : DST_COLUMN ∈ [SRC_COLUMN, DST_COLUMN] := by simp
    obtain ⟨srcNames, srcColumns⟩ := castColumn_same lawful (names ▸ own.src)
      (integers SRC_COLUMN isSrc) castSrc
    obtain ⟨_, dstColumns⟩ := castColumn_same lawful (srcNames ▸ names ▸ own.dst)
      (by rw [srcColumns]; exact integers DST_COLUMN isDst) castDst
    intro edge member name isEnd
    have inside : edge.read name ∈ table.column name := List.mem_map_of_mem member
    rw [dstColumns, srcColumns, column name isEnd] at inside
    obtain ⟨row, isRow, same⟩ := List.mem_map.mp inside
    obtain ⟨key, gid, isId, found⟩ := (resolved row isRow).ends name isEnd
    exact ⟨key, gid, same ▸ isId, found⟩

/-- The columns of an edge table whose ends are read as they are stored. -/
structure EdgeColumns.Apart (columns : EdgeColumns) : Prop where
  key : columns.node_key_col = "node_id"
  src : columns.type_col ≠ SRC_COLUMN
  dst : columns.type_col ≠ DST_COLUMN

theorem apart_default : EdgeColumns.Apart {} := ⟨rfl, by decide, by decide⟩

theorem resolveNodeId_ok {ids : IdMap} {value : Value} {column : String} {gid : Int}
    (found : resolveNodeId ids value column = .ok gid) : ∃ key, ids.get? key = some gid := by
  obtain ⟨key, _, found⟩ := except_bind_ok found
  refine ⟨key, ?_⟩
  cases known : ids.get? key with
  | none =>
    rw [known] at found
    cases found
  | some id =>
    rw [known] at found
    rw [Except.ok.inj found]

/-- A row of an edge table is grouped with the ids of its ends. -/
theorem groupEdge_resolves {ids : IdMap} {columns : EdgeColumns} (apart : columns.Apart) {row : Row}
    {grouped next : Groups} (done : groupEdge ids columns grouped row = .ok next) :
    ∃ relation out, Resolved ids out ∧ next = Dict.file grouped (relation, out) := by
  obtain ⟨⟨relation, out⟩, resolved, same⟩ := except_bind_ok done
  obtain ⟨_, _, steps⟩ := except_bind_ok resolved
  obtain ⟨_, _, steps⟩ := except_bind_ok steps
  obtain ⟨name, _, steps⟩ := except_bind_ok steps
  obtain ⟨src, isSrc, steps⟩ := except_bind_ok steps
  obtain ⟨dst, isDst, steps⟩ := except_bind_ok steps
  obtain ⟨_, isOut⟩ := Prod.mk.inj (Except.ok.inj steps)
  refine ⟨relation, out, ?_, (Except.ok.inj same).symm⟩
  rw [← isOut]
  refine ⟨?_, ?_, ?_⟩
  · simp [Dict.mem_keys_set]
  · simp [Dict.mem_keys_set]
  · have different : SRC_COLUMN ≠ DST_COLUMN := by decide
    intro column member
    rcases List.mem_cons.mp member with rfl | last
    · obtain ⟨key, found⟩ := resolveNodeId_ok isSrc
      refine ⟨key, src, ?_, found⟩
      rw [Row.read_set, if_neg (Ne.symm apart.src), Row.read_set, if_neg different, Row.read_set,
        if_pos rfl]
    · obtain rfl := List.mem_singleton.mp last
      obtain ⟨key, found⟩ := resolveNodeId_ok isDst
      refine ⟨key, dst, ?_, found⟩
      rw [Row.read_set, if_neg (Ne.symm apart.dst), Row.read_set, if_pos rfl]

theorem groupEdges_resolved {ids : IdMap} {columns : EdgeColumns} (apart : columns.Apart)
    (rows : List Row) {grouped last : Groups}
    (done : rows.foldlM (groupEdge ids columns) grouped = .ok last) :
    ∃ outs : List (String × Row), (∀ out ∈ outs, Resolved ids out.2) ∧
      last = outs.foldl Dict.file grouped := by
  induction rows generalizing grouped with
  | nil =>
    cases done
    exact ⟨[], fun _ absurdity => absurd absurdity List.not_mem_nil, rfl⟩
  | cons row rows ih =>
    rw [List.foldlM_cons] at done
    obtain ⟨next, first, done⟩ := except_bind_ok done
    obtain ⟨relation, out, resolved, rfl⟩ := groupEdge_resolves apart first
    obtain ⟨outs, others, same⟩ := ih done
    exact ⟨(relation, out) :: outs, List.forall_mem_cons.mpr ⟨resolved, others⟩, same⟩

/-- Nothing but edges changed, and those that are new have ids of keys as their ends. -/
def AddsEdges (holds : Value → Int → Prop) (db after : Database) : Prop :=
  EdgesOnly db after ∧ ∀ relation, ∀ edge ∈ valuesIn after.edges relation,
    edge ∈ valuesIn db.edges relation ∨ Ends holds edge

instance AddsEdges.preorder (holds : Value → Int → Prop) :
    IsPreorder Database (AddsEdges holds) where
  refl _ := ⟨Std.Refl.refl _, fun _ _ member => .inl member⟩
  trans _ _ _ early late := by
    refine ⟨IsTrans.trans _ _ _ early.1 late.1, fun relation edge member => ?_⟩
    rcases late.2 relation edge member with before | new
    · exact early.2 relation edge before
    · exact .inr new

/-- What changes no edge adds none. -/
theorem AddsEdges.of_edges {holds : Value → Int → Prop} {db after : Database}
    (only : EdgesOnly db after) (edges : ∀ relation, valuesIn after.edges relation =
      valuesIn db.edges relation) : AddsEdges holds db after :=
  ⟨only, fun relation _ member => .inl (edges relation ▸ member)⟩

theorem defineProperty_adds (holds : Value → Int → Prop) (name : String) (iri : Option String) :
    Call.Relates (AddsEdges holds) (defineProperty name iri) :=
  fun db => .of_edges (defineProperty_edgesOnly name iri db) fun _ => rfl

/-- However storing a relation ends, the edges that it stored have the ends of its table. -/
theorem storeRelation_adds {holds : Value → Int → Prop} (name : String)
    {table : Except Raised Table} (ends : ∀ made, table = .ok made →
      ∀ edge ∈ made.rows, Ends holds edge)
    (repeated : List String) (refs : Dict String ChunkRef) :
    Call.Relates (AddsEdges holds) (storeRelation name table repeated refs) := by
  refine Call.Relates.bind (defineProperty_adds holds _ _) fun prop => ?_
  refine Call.Relates.bind (Call.Relates.attempt ?_) fun _ => ?_
  · intro db value after happens
    have runs : Call.run (createEdges prop.iri prop.localName) db = (.ok value, after) := by
      rw [createEdges, Call.run_attempt, happens]
    obtain ⟨_, _, sameValues⟩ := createEdges_ok runs
    refine .of_edges ?_ sameValues
    split at happens
    · cases happens
    · cases happens
      exact ⟨rfl, rfl, rfl⟩
    · cases happens
      exact ⟨rfl, rfl, rfl⟩
  cases table with
  | error raised => exact fun db => Std.Refl.refl db
  | ok made =>
    have appends : Call.Relates (AddsEdges holds) (appendEdges prop.localName made repeated) := by
      refine Call.Relates.bind (Call.Relates.change fun db => ?_) fun _ => Call.Relates.attempt ?_
      · exact .of_edges ⟨rfl, rfl, rfl⟩ fun _ => rfl
      · intro db _ after happens
        obtain ⟨store, stored, _, _, accepts, same⟩ := appendEdgesAt_ok happens
        rw [same]
        refine ⟨⟨rfl, rfl, rfl⟩, fun relation edge member => ?_⟩
        rw [valuesIn_push stored accepts relation, List.mem_append] at member
        refine member.imp_right fun new => ?_
        split at new
        · exact ends made rfl edge new
        · cases new
    show Call.Relates (AddsEdges holds) (appendEdges prop.localName made repeated >>= fun ref =>
      invalidateRelation name >>= fun _ => Pure.pure (refs.set name ref))
    refine Call.Relates.bind appends fun ref => ?_
    refine Call.Relates.bind (Call.Relates.change fun db => ?_) fun _ => Call.Relates.pure _
    exact .of_edges ⟨rfl, rfl, rfl⟩ fun _ => rfl

/-- Edges whose ends are ids of stored nodes keep everything. -/
theorem Intact.addsEdges {db after : Database} (intact : Intact db)
    (adds : AddsEdges (Holds db) db after) :
    Keeps db after := by
  obtain ⟨⟨nodes, classes, cache⟩, edges⟩ := adds
  have same : ∀ key gid, Holds after key gid ↔ Holds db key gid := by
    intro key gid
    rw [Holds, Holds, nodes]
  refine ⟨?_, fun key gid => (same key gid).mpr⟩
  exact
    { shelved := ⟨classes ▸ intact.shelved.named, classes ▸ nodes ▸ intact.shelved.shelf⟩
      keyed := nodes ▸ intact.keyed
      one_id := fun key gid other first second =>
        intact.one_id key gid other ((same key gid).mp first) ((same key other).mp second)
      one_key := fun gid key other first second =>
        intact.one_key gid key other ((same key gid).mp first) ((same other gid).mp second)
      cached := fun ids cached key gid =>
        (intact.cached ids (cache ▸ cached) key gid).trans (same key gid).symm
      ends := by
        intro relation edge member
        rcases edges relation edge member with before | new
        · exact (intact.ends relation edge before).imp fun key gid => (same key gid).mpr
        · exact new.imp fun key gid => (same key gid).mpr }

/-- However the insertion of an edge table ends, it keeps everything. -/
theorem Intact.insertEdgeTable {runtime : Runtime} (lawful : runtime.Lawful) (payload : List Row)
    {columns : EdgeColumns} (apart : columns.Apart) {db : Database} (intact : Intact db) :
    Keeps db (Call.run (insertEdgeTable runtime payload columns) db).2 := by
  rw [Database.insertEdgeTable, Call.run_bind, Call.run_ofExcept, apart.key]
  cases refuse (payload = []) (edgeTableError "cannot insert an empty edge table") with
  | error raised => exact intact.keeps
  | ok _ =>
    dsimp only
    rw [Call.run_bind]
    cases caches : Call.run (Database.externalIdMap runtime "node_id") db with
    | mk answer cached =>
      cases answer with
      | error raised =>
        -- a map that cannot be made is not cached
        have kept : cached = db := by
          rw [Database.externalIdMap, Call.run_attempt] at caches
          split at caches
          · cases caches
          · exact (Prod.mk.inj caches).2.symm
        rw [kept]
        exact intact.keeps
      | ok ids =>
        obtain ⟨isCached, still, exactly⟩ := intact.externalIdMap caches
        dsimp only
        rw [Call.run_bind, Call.run_ofExcept]
        have sameIds : ∀ key gid, ids.get? key = some gid → Holds cached key gid := by
          intro key gid found
          rw [isCached]
          exact (exactly key gid).mp found
        have grown : ∀ key gid, Holds db key gid → Holds cached key gid := by
          rw [isCached]
          exact fun _ _ held => held
        cases groups : payload.foldlM (groupEdge ids columns) Dict.empty with
        | error raised => exact ⟨still, grown⟩
        | ok grouped =>
          obtain ⟨outs, resolved, rfl⟩ := groupEdges_resolved apart payload groups
          have relates : Call.Relates (AddsEdges (Holds cached))
              ((outs.foldl Dict.file Dict.empty).entries.foldlM (storeEdges runtime)
                Dict.empty) := by
            refine Call.Relates.foldlM _ (fun refs group member => ?_) _
            refine storeRelation_adds group.1 (fun table made edge inside => ?_) [] refs
            refine (edgeTable_ends lawful (fun row isRow => ?_) made edge inside).imp sameIds
            rw [(file_group member).1] at isRow
            obtain ⟨out, isOut, rfl⟩ := List.mem_map.mp isRow
            exact resolved out (List.mem_of_mem_filter isOut)
          exact Keeps.trans ⟨still, grown⟩ (still.addsEdges (relates cached))

/-! ## Graphs -/

theorem defineProperties_adds (holds : Value → Int → Prop) (property_iris : Dict String String) :
    Call.Relates (AddsEdges holds) (defineProperties property_iris) :=
  Call.Relates.foldlM _ (fun _ _ _ =>
    Call.Relates.bind (defineProperty_adds holds _ _) fun _ => Call.Relates.pure _) _

/-- A graph that is stored keeps everything. -/
theorem Intact.storeGraph {runtime : Runtime} (lawful : runtime.Lawful) {nodes edges : List Row}
    {property_iris : Dict String String} {refs : GraphRefs} {db after : Database}
    (intact : Intact db) (plain : ∀ row ∈ nodes, (row.read "node_id").Plain)
    (done : Call.run (storeGraph runtime nodes edges property_iris) db = (.ok refs, after)) :
    Keeps db after := by
  obtain ⟨nodeRefs, noded, inserts, done⟩ := Call.run_bind_returns done
  have first := intact.insertNodeTable lawful plain inserts
  obtain ⟨_, defined, defines, done⟩ := Call.run_bind_returns done
  have adds := defineProperties_adds (Holds noded) property_iris noded
  rw [defines] at adds
  have second := first.trans (first.intact.addsEdges adds)
  by_cases none : edges = []
  · rw [if_pos none] at done
    cases done
    exact second
  · rw [if_neg none] at done
    obtain ⟨edgeRefs, last, insertsEdges, ends⟩ := Call.run_bind_returns done
    cases ends
    have third := second.intact.insertEdgeTable lawful edges apart_default
    rw [insertsEdges] at third
    exact second.trans third

/-- The ids that an import names are plain, and nothing replaces one of them. -/
structure PlainIds (call : Import) : Prop where
  mentions : ∀ id ∈ call.mentions, id.Plain
  renames : ∀ pair ∈ call.renames, pair.2.Plain ∧ pair.2.hashed = pair.1.hashed

theorem Intact.insertTriples {runtime : Runtime} (lawful : runtime.Lawful) {payload : List Row}
    {columns : TripleColumns} {policy : String} {refs : GraphRefs} {db after : Database}
    (intact : Intact db) (plain : PlainIds (.triples payload columns policy))
    (done : Call.run (insertTriples runtime payload columns policy) db = (.ok refs, after)) :
    Keeps db after := by
  obtain ⟨tables, _, makes, done⟩ := Call.run_bind_returns done
  rw [Call.run_ofExcept] at makes
  obtain ⟨made, rfl⟩ := Prod.mk.inj makes
  obtain ⟨_, _, made⟩ := except_bind_ok made
  obtain ⟨_, _, made⟩ := except_bind_ok made
  have initially : Kept (payload.flatMap (tripleIds columns)) ({} : TripleTables).nodes :=
    fun _ _ absurdity => by cases absurdity
  obtain ⟨kept, _⟩ := initially.foldlM payload
    (fun id member => ⟨member, plain.mentions id member⟩) plain.renames made
  refine intact.storeGraph lawful (fun row member => ?_) done
  obtain ⟨key, stored⟩ := (Dict.mem_values _ _).mp member
  exact (kept key row stored).2.1

theorem Intact.importNeo4j {runtime : Runtime} (lawful : runtime.Lawful) {obj : Row}
    {policy : String} {refs : GraphRefs} {db after : Database} (intact : Intact db)
    (shape : resourceShape obj = .neo4j) (plain : PlainIds (.resource obj policy))
    (done : Call.run (importNeo4jResource runtime obj) db = (.ok refs, after)) :
    Keeps db after := by
  obtain ⟨mentions, renames⟩ := plain
  rw [Import.mentions, shape] at mentions
  rw [Import.renames, shape] at renames
  obtain ⟨⟨node, relationships⟩, _, parts, done⟩ := Call.run_bind_returns done
  rw [Call.run_ofExcept] at parts
  obtain ⟨isParts, rfl⟩ := Prod.mk.inj parts
  obtain ⟨ids, cached, caches, done⟩ := Call.run_bind_returns done
  obtain ⟨rfl, still, exactly⟩ := intact.externalIdMap caches
  obtain ⟨placeholders, _, makes, done⟩ := Call.run_bind_returns done
  rw [Call.run_ofExcept] at makes
  obtain ⟨made, rfl⟩ := Prod.mk.inj makes
  obtain ⟨_, placeholderIds⟩ :=
    placeholderNodes_reads (exactly.complete intact.shelved) made
  have targets : relationTargets obj = relationships.map Prod.snd := by
    rw [relationTargets, isParts]
  refine Keeps.trans ⟨still, fun _ _ held => held⟩ (still.storeGraph lawful ?_ done)
  rw [List.forall_mem_cons]
  constructor
  · rw [(neo4jParts_reads isParts).1]
    cases last : (propertyValues obj "node_id").getLast? with
    | none => exact mentions _ List.mem_cons_self
    | some value =>
      exact (renames (obj.read "id", value)
        (List.mem_map_of_mem (List.mem_of_getLast? last))).1
  · intro row member
    have among : row.read "node_id" ∈ placeholders.map (Row.read · "node_id") :=
      List.mem_map_of_mem member
    rw [placeholderIds, ← targets] at among
    exact mentions _ (List.mem_cons_of_mem _ (List.mem_of_mem_filter among))

theorem Intact.importResource {runtime : Runtime} (lawful : runtime.Lawful) {obj : Row}
    {policy : String} {refs : GraphRefs} {db after : Database} (intact : Intact db)
    (plain : PlainIds (.resource obj policy))
    (done : Call.run (importResource runtime obj policy) db = (.ok refs, after)) :
    Keeps db after := by
  obtain ⟨_, _, first, done⟩ := Call.run_bind_returns done
  rw [Call.run_ofExcept] at first
  obtain ⟨_, rfl⟩ := Prod.mk.inj first
  cases shape : resourceShape obj with
  | neo4j =>
    rw [shape] at done
    exact intact.importNeo4j lawful shape plain done
  | iri =>
    rw [shape] at done
    obtain ⟨node, _, makes, done⟩ := Call.run_bind_returns done
    rw [Call.run_ofExcept] at makes
    obtain ⟨made, rfl⟩ := Prod.mk.inj makes
    have mentions := plain.mentions
    rw [Import.mentions, shape] at mentions
    refine intact.storeGraph lawful (fun row member => ?_) done
    rw [List.mem_singleton.mp member, (iriNode_reads made).1]
    exact mentions _ (List.mem_singleton_self _)
  | triple =>
    rw [shape] at done
    refine intact.insertTriples lawful ⟨?_, ?_⟩ done
    · have mentions := plain.mentions
      rw [Import.mentions, shape] at mentions
      simpa [Import.mentions] using mentions
    · have renames := plain.renames
      rw [Import.renames, shape] at renames
      exact renames
  | typed_node =>
    rw [shape] at done
    have mentions := plain.mentions
    rw [Import.mentions, shape] at mentions
    refine intact.storeGraph lawful (fun row member => ?_) done
    rw [List.mem_singleton.mp member]
    exact mentions _ (List.mem_singleton_self _)
  | typed_edge =>
    rw [shape] at done
    obtain ⟨edgeRefs, last, inserts, ends⟩ := Call.run_bind_returns done
    cases ends
    have kept := intact.insertEdgeTable lawful [obj] apart_default
    rw [inserts] at kept
    exact kept
  | unknown =>
    rw [shape] at done
    cases done

/-! ## Runs -/

/-- A write that inserts nodes or edges under the column `node_id`. One that stores nodes returns;
an edge table may be refused at any point. -/
def Accepted (runtime : Runtime) (db : Database) (write : Write) : Prop :=
  match write with
  | .insert_node_table rows key_col _ => key_col = "node_id" ∧
      (∀ row ∈ rows, (row.read "node_id").Plain) ∧ ∃ answer, write.result runtime db = .ok answer
  | .insert_edge_table _ columns => columns.Apart
  | .insert_triples triples columns policy => PlainIds (.triples triples columns policy) ∧
      ∃ answer, write.result runtime db = .ok answer
  | .import_resource obj policy => PlainIds (.resource obj policy) ∧
      ∃ answer, write.result runtime db = .ok answer
  | _ => False

/-- A database that is reached from another one by such writes. -/
inductive Inserted (runtime : Runtime) (db : Database) : Database → Prop
  | none : Inserted runtime db db
  | more {middle : Database} {write : Write} (earlier : Inserted runtime db middle)
      (accepted : Accepted runtime middle write) : Inserted runtime db (write.after runtime middle)

/-- A call that makes its answer of another call's returns and ends as that does. -/
theorem run_answer {Given Made : Type} {method : Method Given} {make : Given → Made}
    {db : Database} {answer : Made}
    (returned : (Call.run (method >>= fun given => Pure.pure (make given)) db).1 = .ok answer) :
    ∃ given, Call.run method db =
      (.ok given, (Call.run (method >>= fun given => Pure.pure (make given)) db).2) := by
  rw [Call.run_bind] at returned ⊢
  cases runs : Call.run method db with
  | mk result after =>
    rw [runs] at returned
    cases result with
    | error raised => cases returned
    | ok given => exact ⟨given, rfl⟩

/-- A write keeps everything, and every id that was stored. -/
theorem Intact.write {runtime : Runtime} (lawful : runtime.Lawful) {db : Database} (intact : Intact db)
    {write : Write} (accepted : Accepted runtime db write) :
    Keeps db (write.after runtime db) := by
  cases write with
  | insert_node_table rows key_col type_col =>
    obtain ⟨rfl, plain, answer, returned⟩ := accepted
    obtain ⟨refs, done⟩ := run_answer returned
    exact intact.insertNodeTable lawful plain done
  | insert_edge_table rows columns =>
    have apart : columns.Apart := accepted
    have kept := intact.insertEdgeTable lawful rows apart
    have ends : (Write.insert_edge_table rows columns).after runtime db =
        (Call.run (Database.insertEdgeTable runtime rows columns) db).2 := by
      rw [Write.after, Write.call, Call.run_bind]
      cases Call.run (Database.insertEdgeTable runtime rows columns) db with
      | mk result after => cases result <;> rfl
    rw [ends]
    exact kept
  | insert_triples triples columns policy =>
    obtain ⟨plain, answer, returned⟩ := accepted
    obtain ⟨refs, done⟩ := run_answer returned
    exact intact.insertTriples lawful plain done
  | import_resource obj policy =>
    obtain ⟨plain, answer, returned⟩ := accepted
    obtain ⟨refs, done⟩ := run_answer returned
    exact intact.importResource lawful plain done
  | _ => exact accepted.elim

theorem Intact.inserted {runtime : Runtime} (lawful : runtime.Lawful) {db later : Database}
    (intact : Intact db) (inserted : Inserted runtime db later) :
    Keeps db later := by
  induction inserted with
  | none => exact intact.keeps
  | more _ accepted ih =>
    exact ih.trans (ih.intact.write lawful accepted)

theorem intact_create (path : String) : Intact (Database.create path) where
  shelved := (inOrder_create path).shelved
  keyed _ _ absurdity := absurd absurdity List.not_mem_nil
  one_id := by
    rintro _ _ _ ⟨_, _, absurdity, _⟩
    exact absurd absurdity List.not_mem_nil
  one_key := by
    rintro _ _ _ ⟨_, _, absurdity, _⟩
    exact absurd absurdity List.not_mem_nil
  cached _ absurdity := by cases absurdity
  ends _ _ absurdity := absurd absurdity List.not_mem_nil

/-- In every database that such writes reach, two rows have one id exactly if they have one key, an
edge ends at ids of stored rows, and a key has the id that it had in every database before. -/
theorem insertions_keep_ids {runtime : Runtime} (lawful : runtime.Lawful) {path : String}
    {db later : Database} (first : Inserted runtime (Database.create path) db)
    (further : Inserted runtime db later) :
    (∀ directory row, row ∈ valuesIn later.nodes directory →
      ∀ beside other, other ∈ valuesIn later.nodes beside →
        (row.read INTERNAL_GID_COLUMN = other.read INTERNAL_GID_COLUMN ↔
          nodeKey row = nodeKey other)) ∧
      (∀ relation edge, edge ∈ valuesIn later.edges relation →
        ∀ column ∈ [SRC_COLUMN, DST_COLUMN], ∃ directory, ∃ row ∈ valuesIn later.nodes directory,
          row.read INTERNAL_GID_COLUMN = edge.read column) ∧
      ∀ key gid, Holds db key gid → ∀ other, Holds later key other ↔ other = gid := by
  obtain ⟨before, _⟩ := (intact_create path).inserted lawful first
  obtain ⟨intact, grown⟩ := before.inserted lawful further
  refine ⟨?_, ?_, ?_⟩
  · intro directory row member beside other isOther
    obtain ⟨key, isKey⟩ := intact.keyed directory row member
    obtain ⟨gid, isId⟩ := intact.shelved.id member
    obtain ⟨otherKey, isOtherKey⟩ := intact.keyed beside other isOther
    obtain ⟨otherGid, isOtherId⟩ := intact.shelved.id isOther
    have held : Holds later key gid := ⟨directory, row, member, isKey, isId⟩
    have otherHeld : Holds later otherKey otherGid := ⟨beside, other, isOther, isOtherKey, isOtherId⟩
    rw [isKey, isId, isOtherKey, isOtherId]
    constructor
    · intro same
      obtain rfl := Value.int.inj same
      rw [intact.one_key gid key otherKey held otherHeld]
    · intro same
      obtain rfl := Except.ok.inj same
      rw [intact.one_id key gid otherGid held otherHeld]
  · intro relation edge member column among
    obtain ⟨key, gid, reads, directory, row, isRow, _, isId⟩ :=
      intact.ends relation edge member column among
    exact ⟨directory, row, isRow, isId.trans reads.symm⟩
  · intro key gid held other
    constructor
    · exact fun otherHeld => intact.one_id key other gid otherHeld (grown key gid held)
    · rintro rfl
      exact grown key other held

/-! ## Two friends -/

def twoNodes : Write :=
  .insert_node_table [Dict.ofEntries [("node_id", .str "ada"), ("type", .str "Person")],
    Dict.ofEntries [("node_id", .str "bob"), ("type", .str "Person")]] "node_id" "type"

def acquaintances : Write :=
  .insert_edge_table [Dict.ofEntries [("src", .str "ada"), ("dst", .str "bob"),
    ("type", .str "knows")]] {}

/-- The database with the two nodes. -/
def peopled : Database := twoNodes.after Runtime.plain (Database.create "graph.crcl")

theorem twoNodes_accepted :
    Accepted Runtime.plain (Database.create "graph.crcl") twoNodes := by
  have returned : (twoNodes.result Runtime.plain (Database.create "graph.crcl")).toOption.isSome =
      true := by decide +kernel
  refine ⟨rfl, by decide, ?_⟩
  cases answered : twoNodes.result Runtime.plain (Database.create "graph.crcl") with
  | error raised =>
    rw [answered] at returned
    cases returned
  | ok answer => exact ⟨answer, rfl⟩

/-- The friends keep their ids when their acquaintance is stored, and it ends at them. -/
theorem friends_keep_ids :
    (∀ directory row, row ∈ valuesIn (acquaintances.after Runtime.plain peopled).nodes directory →
      ∀ beside other, other ∈ valuesIn (acquaintances.after Runtime.plain peopled).nodes beside →
        (row.read INTERNAL_GID_COLUMN = other.read INTERNAL_GID_COLUMN ↔
          nodeKey row = nodeKey other)) ∧
      (∀ relation edge,
        edge ∈ valuesIn (acquaintances.after Runtime.plain peopled).edges relation →
          ∀ column ∈ [SRC_COLUMN, DST_COLUMN], ∃ directory,
            ∃ row ∈ valuesIn (acquaintances.after Runtime.plain peopled).nodes directory,
              row.read INTERNAL_GID_COLUMN = edge.read column) ∧
      ∀ key gid, Holds peopled key gid →
        ∀ other, Holds (acquaintances.after Runtime.plain peopled) key other ↔ other = gid :=
  insertions_keep_ids Runtime.plain_lawful (.more .none twoNodes_accepted) (.more .none apart_default)

end CaracalDB.Database
