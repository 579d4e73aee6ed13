import CaracalDB.Filing
import CaracalDB.InsertedRows
import CaracalDB.Writes

/-!
# What insertions keep of the values given

Rows of one class or relation make one table, whose columns are the keys of the
first of them. A value is kept where the first row has its key and Arrow gives the
value back; everything under another key is lost.
-/

namespace CaracalDB.Dict

variable {Key Item Other : Type} [DecidableEq Key]

/-- Two dictionaries of lists with the same keys in order and related items. -/
def Alike (related : Item → Other → Prop) (first : Dict Key (List Item))
    (second : Dict Key (List Other)) : Prop :=
  List.Forall₂ (fun left right => left.1 = right.1 ∧ List.Forall₂ related left.2 right.2)
    first.entries second.entries

omit [DecidableEq Key] in
theorem Alike.keys {related : Item → Other → Prop} {first : Dict Key (List Item)}
    {second : Dict Key (List Other)} (alike : Alike related first second) :
    first.keys = second.keys := by
  rw [Dict.keys, Dict.keys, ← List.forall₂_eq_eq_eq, List.forall₂_map_left_iff,
    List.forall₂_map_right_iff]
  exact alike.imp fun _ _ both => both.1

theorem Alike.get {related : Item → Other → Prop} {first : Dict Key (List Item)}
    {second : Dict Key (List Other)} (alike : Alike related first second) (key : Key) :
    List.Forall₂ related ((first.get? key).getD []) ((second.get? key).getD []) := by
  rw [Dict.get?, Dict.get?]
  rw [Alike] at alike
  generalize first.entries = lefts at alike ⊢
  generalize second.entries = rights at alike ⊢
  induction alike with
  | nil => exact .nil
  | @cons left right lefts rights both _ inductionHypothesis =>
    rw [List.find?_cons, List.find?_cons, both.1]
    by_cases here : right.1 = key
    · simpa [here] using both.2
    · simpa [here] using inductionHypothesis

theorem Alike.set {related : Item → Other → Prop} {first : Dict Key (List Item)}
    {second : Dict Key (List Other)} (alike : Alike related first second) (key : Key)
    {items : List Item} {others : List Other} (same : List.Forall₂ related items others) :
    Alike related (first.set key items) (second.set key others) := by
  have keys := alike.keys
  rw [Dict.keys, Dict.keys] at keys
  rw [Alike, Dict.set, Dict.set]
  dsimp only
  rw [Dict.setEntries, Dict.setEntries, keys]
  split
  · rw [List.forall₂_map_left_iff, List.forall₂_map_right_iff]
    refine List.Forall₂.imp (fun left right both => ?_) alike
    rw [both.1]
    by_cases here : right.1 = key
    · rw [if_pos here, if_pos here]
      exact ⟨rfl, same⟩
    · rw [if_neg here, if_neg here]
      exact both
  · exact List.rel_append alike (.cons ⟨rfl, same⟩ .nil)

/-- Filing related items under the same keys leaves related dictionaries. -/
theorem Alike.file {related : Item → Other → Prop} {pairs : List (Key × Item)}
    {others : List (Key × Other)}
    (same : List.Forall₂ (fun left right => left.1 = right.1 ∧ related left.2 right.2) pairs others)
    {first : Dict Key (List Item)} {second : Dict Key (List Other)}
    (alike : Alike related first second) :
    Alike related (pairs.foldl Dict.file first) (others.foldl Dict.file second) := by
  induction same generalizing first second with
  | nil => exact alike
  | @cons left right lefts rights both _ inductionHypothesis =>
    rw [List.foldl_cons, List.foldl_cons]
    refine inductionHypothesis ?_
    rw [Dict.file, Dict.file, both.1]
    exact alike.set right.1 (List.rel_append (alike.get right.1) (.cons both.2 .nil))

/-- Only the keys of what is filed are added. -/
theorem mem_keys_file {pairs : List (Key × Item)} {key : Key}
    (filed : key ∈ (pairs.foldl Dict.file Dict.empty).keys) : ∃ pair ∈ pairs, pair.1 = key := by
  obtain ⟨items, found⟩ := (mem_keys _ _).mp filed
  rw [get_file] at found
  split at found
  · next present =>
    obtain ⟨pair, member, same⟩ := List.any_eq_true.mp present
    exact ⟨pair, member, of_decide_eq_true same⟩
  · cases found

end CaracalDB.Dict

namespace CaracalDB.Database

/-! ## Rows and the values given with them -/

/-- A row that is stored, and the values that were given for it. -/
structure Given where
  row : Row
  values : List (String × Value)

/-- A row of which all values are given. -/
def Given.ofRow (row : Row) : Given := { row, values := row.entries }

/-- A stored row has the values given. -/
def Reads (stored : Row) (given : Given) : Prop :=
  ∀ entry ∈ given.values, stored.read entry.1 = entry.2

/-- The stores hold what they held and then, in each directory, a row for each row given that has
the values given. -/
def Adds {id_column : String} (before after : Dict String (Store id_column))
    (batches : List (String × List Given)) : Prop :=
  ∀ directory, ∃ new, valuesIn after directory = valuesIn before directory ++ new ∧
    List.Forall₂ Reads new ((groupsAt id directory batches).flatMap Prod.snd)

/-- Every value given is what the cell of its row under its key holds. -/
def Held (cell : List Row → String → Nat → Value) (batch : List Given) : Prop :=
  ∀ indexed ∈ batch.zipIdx, ∀ entry ∈ indexed.1.values,
    cell (batch.map Given.row) entry.1 indexed.2 = entry.2

instance (cell : List Row → String → Nat → Value) (batch : List Given) :
    Decidable (Held cell batch) :=
  inferInstanceAs (Decidable (∀ indexed ∈ batch.zipIdx, ∀ entry ∈ indexed.1.values, _))

theorem forall₂_append_iff {Left Right : Type} {related : Left → Right → Prop}
    {first more : List Left} {second others : List Right} (same : first.length = second.length) :
    List.Forall₂ related (first ++ more) (second ++ others) ↔
      List.Forall₂ related first second ∧ List.Forall₂ related more others := by
  induction first generalizing second with
  | nil =>
    rw [List.length_nil, eq_comm, List.length_eq_zero_iff] at same
    subst same
    exact ⟨fun rest => ⟨.nil, rest⟩, fun both => both.2⟩
  | cons left first inductionHypothesis =>
    cases second with
    | nil => cases same
    | cons right second =>
      rw [List.cons_append, List.cons_append, List.forall₂_cons, List.forall₂_cons,
        inductionHypothesis (Nat.succ.inj same), and_assoc]

/-- Rows whose cells are known have the values given exactly when the cells hold them. -/
theorem reads_iff_held {cell : List Row → String → Nat → Value} {stored : List Row}
    {batch : List Given} (length : stored.length = batch.length)
    (cells : ∀ index row given, stored[index]? = some row → batch[index]? = some given →
      ∀ entry ∈ given.values, row.read entry.1 = cell (batch.map Given.row) entry.1 index) :
    List.Forall₂ Reads stored batch ↔ Held cell batch := by
  rw [List.forall₂_iff_get]
  constructor
  · rintro ⟨_, reads⟩ ⟨given, index⟩ indexed entry member
    have found : batch[index]? = some given := List.mem_zipIdx_iff_getElem?.mp indexed
    obtain ⟨inside, rfl⟩ := List.getElem?_eq_some_iff.mp found
    have here : stored[index]? = some stored[index] :=
      List.getElem?_eq_getElem (length ▸ inside)
    rw [← cells index _ _ here found entry member]
    exact reads index (length ▸ inside) inside entry member
  · intro held
    refine ⟨length, fun index inStored inBatch entry member => ?_⟩
    have found : batch[index]? = some batch[index] := List.getElem?_eq_getElem inBatch
    rw [List.get_eq_getElem, cells index _ _ (List.getElem?_eq_getElem inStored) found entry member]
    exact held (batch[index], index) (List.mem_zipIdx_iff_getElem?.mpr found) entry member

/-- Groups that are stored add the values given exactly when their cells hold them. -/
theorem adds_iff {id_column : String} {before after : Dict String (Store id_column)}
    {cell : List Row → String → Nat → Value} {make : List Row → Except Raised Table}
    {directory : String → String} {groups : List (String × List Row)}
    {batches : List (String × List Given)}
    (alike : List.Forall₂ (fun group batch => group.1 = batch.1 ∧
      (rowsOf (make group.2)).length = batch.2.length ∧
      (List.Forall₂ Reads (rowsOf (make group.2)) batch.2 ↔ Held cell batch.2)) groups batches)
    (values : ∀ other, valuesIn after other = valuesIn before other ++
      (groupsAt directory other groups).flatMap fun group => rowsOf (make group.2)) :
    Adds before after (batches.map fun batch => (directory batch.1, batch.2)) ↔
      ∀ batch ∈ batches, Held cell batch.2 := by
  have each : ∀ other, List.Forall₂ Reads
      ((groupsAt directory other groups).flatMap fun group => rowsOf (make group.2))
      ((groupsAt id other (batches.map fun batch => (directory batch.1, batch.2))).flatMap
        Prod.snd) ↔ ∀ batch ∈ batches, directory batch.1 = other → Held cell batch.2 := by
    intro other
    clear values
    induction alike with
    | nil => exact ⟨fun _ _ absurdity => absurd absurdity List.not_mem_nil, fun _ => .nil⟩
    | @cons group batch groups batches both _ inductionHypothesis =>
      rw [groupsAt, groupsAt, List.map_cons, List.filter_cons, List.filter_cons, both.1,
        ← groupsAt, ← groupsAt, List.forall_mem_cons]
      by_cases here : directory batch.1 = other
      · rw [if_pos (decide_eq_true here), if_pos (by simpa using here), List.flatMap_cons,
          List.flatMap_cons, forall₂_append_iff both.2.1, both.2.2, inductionHypothesis]
        exact and_congr_left' ⟨fun held _ => held, fun held => held here⟩
      · rw [if_neg (by simpa using here), if_neg (by simpa using here), inductionHypothesis]
        exact ⟨fun held => ⟨fun absurdity => absurd absurdity here, held⟩, And.right⟩
  constructor
  · intro adds batch member
    obtain ⟨new, whole, reads⟩ := adds (directory batch.1)
    rw [values, List.append_cancel_left_eq] at whole
    subst whole
    exact (each _).mp reads batch member rfl
  · intro held other
    exact ⟨_, values other, (each other).mpr fun batch member _ => held batch member⟩

/-! ## Node tables -/

/-- The class that the type of a row names. -/
def classOf (type_col : String) (row : Row) : String :=
  match coerceLocalName (row.read type_col) "node type" with
  | .error _ => ""
  | .ok name => name

/-- The rows of a node table, class by class. -/
def nodeBatches (type_col : String) (rows : List Given) : List (String × List Given) :=
  ((rows.map fun given => (classOf type_col given.row, given)).foldl Dict.file Dict.empty).entries

/-- A row as it is stored: with the id of its node, which is no value given. -/
def Numbered (out : Row) (given : Given) : Prop :=
  (∃ gid, out = given.row.set INTERNAL_GID_COLUMN gid) ∧
    ∀ entry ∈ given.values, entry.1 ≠ INTERNAL_GID_COLUMN

theorem assignRow_ok {key_col type_col : String} {row : Row} {state next : Numbering × Groups}
    {db after : Database}
    (done : Call.run (assignRow key_col type_col state row) db = (.ok next, after)) :
    (after.catalog = db.catalog ∧ after.nodes = db.nodes ∧ after.edges = db.edges) ∧
      IsName (classOf type_col row) ∧ ∃ gid,
        next.2 = Dict.file state.2 (classOf type_col row, row.set INTERNAL_GID_COLUMN gid) := by
  obtain ⟨⟨numbering, gid⟩, assigned, assigns, done⟩ := Call.run_bind_returns done
  obtain ⟨key, _, hashes, assigns⟩ := Call.run_bind_returns assigns
  rw [Call.run_ofExcept] at hashes
  obtain ⟨_, rfl⟩ := Prod.mk.inj hashes
  obtain ⟨_, _, remembers, assigns⟩ := Call.run_bind_returns assigns
  cases remembers
  obtain ⟨_, rfl⟩ := Prod.mk.inj assigns
  obtain ⟨name, _, coerces, done⟩ := Call.run_bind_returns done
  rw [Call.run_ofExcept] at coerces
  obtain ⟨coerced, rfl⟩ := Prod.mk.inj coerces
  obtain ⟨same, rfl⟩ := Prod.mk.inj done
  have isClass : classOf type_col row = name := by rw [classOf, coerced]
  rw [← Except.ok.inj same, isClass]
  exact ⟨⟨rfl, rfl, rfl⟩, coerceLocalName_isName coerced, .int gid, rfl⟩

/-- Numbering rows files them by class, each with an id. -/
theorem assignRows_ok {key_col type_col : String} (rows : List Given)
    (plain : ∀ given ∈ rows, ∀ entry ∈ given.values, entry.1 ≠ INTERNAL_GID_COLUMN)
    {state last : Numbering × Groups} {db after : Database}
    (done : Call.run ((rows.map Given.row).foldlM (assignRow key_col type_col) state) db =
      (.ok last, after)) :
    (after.catalog = db.catalog ∧ after.nodes = db.nodes ∧ after.edges = db.edges) ∧
      ∃ outs : List (String × Row), (∀ out ∈ outs, IsName out.1) ∧
        List.Forall₂ (fun out pair => out.1 = pair.1 ∧ Numbered out.2 pair.2) outs
          (rows.map fun given => (classOf type_col given.row, given)) ∧
        last.2 = outs.foldl Dict.file state.2 := by
  induction rows generalizing state db with
  | nil =>
    cases done
    exact ⟨⟨rfl, rfl, rfl⟩, [], fun _ absurdity => absurd absurdity List.not_mem_nil, .nil, rfl⟩
  | cons given rows inductionHypothesis =>
    rw [List.map_cons, List.foldlM_cons] at done
    obtain ⟨next, middle, first, done⟩ := Call.run_bind_returns done
    obtain ⟨⟨catalog, nodes, edges⟩, isName, gid, filed⟩ := assignRow_ok first
    obtain ⟨⟨laterCatalog, laterNodes, laterEdges⟩, outs, names, alike, grouped⟩ :=
      inductionHypothesis (List.forall_mem_cons.mp plain).2 done
    refine ⟨⟨laterCatalog.trans catalog, laterNodes.trans nodes, laterEdges.trans edges⟩,
      (classOf type_col given.row, given.row.set INTERNAL_GID_COLUMN gid) :: outs,
      List.forall_mem_cons.mpr ⟨isName, names⟩, ?_, ?_⟩
    · exact .cons ⟨rfl, ⟨gid, rfl⟩, (List.forall_mem_cons.mp plain).1⟩ alike
    · rw [grouped, filed]
      rfl

theorem forM_ok {Error Item : Type} {check : Item → Except Error Unit} {items : List Item}
    {answer : Unit} (done : items.forM check = .ok answer) : ∀ item ∈ items, check item = .ok () := by
  induction items with
  | nil => exact fun _ absurdity => absurd absurdity List.not_mem_nil
  | cons item items inductionHypothesis =>
    have steps : (check item >>= fun _ => items.forM check) = .ok answer := done
    obtain ⟨_, first, rest⟩ := except_bind_ok steps
    exact List.forall_mem_cons.mpr ⟨first, inductionHypothesis rest⟩

/-- Where the rows of a node table go. -/
def tableGiven (db : Database) (type_col : String) (rows : List Given) :
    List (String × List Given) :=
  (nodeBatches type_col rows).map fun batch =>
    (directoryOf db.catalog.classes.view batch.1, batch.2)

/-- An insertion of a node table that returns has checked the rows, numbered them without touching
a store, and stored them class by class. -/
theorem insertNodeTable_parts {runtime : Runtime} {key_col type_col : String} {payload : List Row}
    {refs : Dict String ChunkRef} {db after : Database}
    (done : Call.run (insertNodeTable runtime payload key_col type_col) db = (.ok refs, after)) :
    payload ≠ [] ∧ (∀ row ∈ payload, checkNodeRow key_col type_col row = .ok ()) ∧
      ∃ cached numbered ids, ∃ last : Numbering × Groups,
        (cached.catalog = db.catalog ∧ cached.nodes = db.nodes ∧ cached.edges = db.edges) ∧
        Call.run (payload.foldlM (assignRow key_col type_col) (Numbering.of ids, Dict.empty))
          cached = (.ok last, numbered) ∧
        Call.run (last.2.entries.foldlM (storeGroup runtime) Dict.empty) numbered =
          (.ok refs, after) := by
  obtain ⟨_, _, nonempty, done⟩ := Call.run_bind_returns done
  rw [Call.run_ofExcept] at nonempty
  obtain ⟨filled, rfl⟩ := Prod.mk.inj nonempty
  obtain ⟨_, _, checks, done⟩ := Call.run_bind_returns done
  rw [Call.run_ofExcept] at checks
  obtain ⟨checked, rfl⟩ := Prod.mk.inj checks
  obtain ⟨ids, cached, caches, done⟩ := Call.run_bind_returns done
  rw [externalIdMap, Call.run_attempt] at caches
  have kept : cached.catalog = db.catalog ∧ cached.nodes = db.nodes ∧ cached.edges = db.edges := by
    cases found : idMap runtime key_col db with
    | error raised =>
      rw [found] at caches
      cases caches
    | ok known =>
      rw [found] at caches
      cases caches
      exact ⟨rfl, rfl, rfl⟩
  obtain ⟨last, numbered, assigns, done⟩ := Call.run_bind_returns done
  exact ⟨refuse_ok filled, forM_ok checked, cached, numbered, ids, last, kept, assigns, done⟩

/-- An insertion of a node table adds the values given exactly where the cells hold them. -/
theorem insertNodeTable_adds {runtime : Runtime} {key_col type_col : String} {payload : List Row}
    {rows : List Given} (whole : rows.map Given.row = payload)
    (own : ∀ given ∈ rows, ∀ entry ∈ given.values, entry.1 ∈ given.row.keys)
    {refs : Dict String ChunkRef} {db after : Database}
    (done : Call.run (insertNodeTable runtime payload key_col type_col) db = (.ok refs, after)) :
    after.edges = db.edges ∧ (Adds db.nodes after.nodes (tableGiven db type_col rows) ↔
      ∀ batch ∈ tableGiven db type_col rows, Held (cellOf runtime) batch.2) := by
  subst whole
  obtain ⟨_, checked, cached, numbered, _, ⟨_, grouped⟩, kept, assigns, done⟩ :=
    insertNodeTable_parts done
  have plain : ∀ given ∈ rows, ∀ entry ∈ given.values, entry.1 ≠ INTERNAL_GID_COLUMN := by
    intro given member entry isGiven same
    obtain ⟨_, _, passed⟩ := except_bind_ok (checked given.row (List.mem_map_of_mem member))
    exact refuse_ok passed (same ▸ own given member entry isGiven)
  obtain ⟨⟨catalog, nodes, edges⟩, outs, names, alike, rfl⟩ := assignRows_ok rows plain assigns
  rw [kept.1] at catalog
  rw [kept.2.1] at nodes
  rw [kept.2.2] at edges
  have groupNames : ∀ group ∈ (outs.foldl Dict.file Dict.empty).entries, IsName group.1 := by
    intro group member
    obtain ⟨out, isOut, same⟩ := Dict.mem_keys_file (List.mem_map_of_mem (f := Prod.fst) member)
    exact same ▸ names out isOut
  obtain ⟨_, sameEdges, made, values⟩ := storeGroups_ok runtime _ groupNames
    (outs.foldl Dict.file Dict.empty).distinct done
  refine ⟨sameEdges.trans edges, ?_⟩
  rw [catalog, nodes] at values
  have groups : Dict.Alike Numbered (outs.foldl Dict.file Dict.empty)
      ((rows.map fun given => (classOf type_col given.row, given)).foldl Dict.file Dict.empty) :=
    Dict.Alike.file alike .nil
  rw [tableGiven, List.forall_mem_map]
  refine adds_iff ((List.forall₂_and_left _ _).mpr ⟨made, groups⟩ |>.imp ?_) values
  rintro ⟨_, group⟩ ⟨_, batch⟩ ⟨⟨table, isTable⟩, same, numbers⟩
  dsimp only at same isTable numbers ⊢
  obtain ⟨length, cells, _⟩ := from_pylist_cells isTable
  rw [isTable, rowsOf]
  refine ⟨same, length.trans numbers.length_eq,
    reads_iff_held (length.trans numbers.length_eq) fun index row given found isGiven entry member => ?_⟩
  obtain ⟨inside, rfl⟩ := List.getElem?_eq_some_iff.mp isGiven
  have apart := (numbers.get (numbers.length_eq ▸ inside) inside).2 entry member
  rw [cells index row found]
  refine cellOf_congr runtime ?_ index
  rw [List.forall₂_map_right_iff]
  refine numbers.imp fun out given numbered => ?_
  obtain ⟨⟨gid, rfl⟩, _⟩ := numbered
  rw [Row.read_set, if_neg apart, Dict.mem_keys_set]
  exact ⟨rfl, or_iff_right apart⟩

/-! ## Edge tables -/

/-- The relation of a row, the row as it is stored and the values given for it: all but the two
ends, which are stored as ids. -/
def edgeGiven (id_map : IdMap) (columns : EdgeColumns) (row : Row) : String × Given :=
  match resolveEdge id_map columns row with
  | .error _ => ("", { row, values := [] })
  | .ok (relation, out) => (relation,
      { row := out
        values := row.entries.filter fun entry =>
          entry.1 ≠ columns.src_col && entry.1 ≠ columns.dst_col })

/-- The rows of an edge table, relation by relation. -/
def edgeBatches (id_map : IdMap) (columns : EdgeColumns) (rows : List Row) :
    List (String × List Given) :=
  ((rows.map (edgeGiven id_map columns)).foldl Dict.file Dict.empty).entries

/-- Where the rows of an edge table go. -/
def edgesGiven (runtime : Runtime) (db : Database) (columns : EdgeColumns) (rows : List Row) :
    List (String × List Given) :=
  match idMap runtime columns.node_key_col db with
  | .error _ => []
  | .ok id_map => (edgeBatches id_map columns rows).map fun batch =>
      (relationDirectory db.catalog.properties.view batch.1, batch.2)

/-- A row of an edge table as it is stored: it has both ends. -/
def Ended (out : Row) (given : Given) : Prop :=
  out = given.row ∧ SRC_COLUMN ∈ out.keys ∧ DST_COLUMN ∈ out.keys

theorem groupEdge_ok {id_map : IdMap} {columns : EdgeColumns} {row : Row} {grouped next : Groups}
    (done : groupEdge id_map columns grouped row = .ok next) :
    IsName (edgeGiven id_map columns row).1 ∧
      Ended (edgeGiven id_map columns row).2.row (edgeGiven id_map columns row).2 ∧
      next = Dict.file grouped
        ((edgeGiven id_map columns row).1, (edgeGiven id_map columns row).2.row) := by
  obtain ⟨⟨relation, out⟩, resolved, same⟩ := except_bind_ok done
  rw [edgeGiven, resolved]
  obtain ⟨_, _, steps⟩ := except_bind_ok resolved
  obtain ⟨_, _, steps⟩ := except_bind_ok steps
  obtain ⟨name, coerced, steps⟩ := except_bind_ok steps
  obtain ⟨src, _, steps⟩ := except_bind_ok steps
  obtain ⟨dst, _, steps⟩ := except_bind_ok steps
  obtain ⟨rfl, rfl⟩ := Prod.mk.inj (Except.ok.inj steps)
  refine ⟨coerceLocalName_isName coerced, ⟨rfl, ?_, ?_⟩, (Except.ok.inj same).symm⟩
  · simp [Dict.mem_keys_set]
  · simp [Dict.mem_keys_set]

theorem groupEdges_ok {id_map : IdMap} {columns : EdgeColumns} (rows : List Row)
    {grouped last : Groups} (done : rows.foldlM (groupEdge id_map columns) grouped = .ok last) :
    ∃ outs : List (String × Row), (∀ out ∈ outs, IsName out.1) ∧
      List.Forall₂ (fun out pair => out.1 = pair.1 ∧ Ended out.2 pair.2) outs
        (rows.map (edgeGiven id_map columns)) ∧ last = outs.foldl Dict.file grouped := by
  induction rows generalizing grouped with
  | nil =>
    cases done
    exact ⟨[], fun _ absurdity => absurd absurdity List.not_mem_nil, .nil, rfl⟩
  | cons row rows inductionHypothesis =>
    rw [List.foldlM_cons] at done
    obtain ⟨next, first, done⟩ := except_bind_ok done
    obtain ⟨isName, ended, rfl⟩ := groupEdge_ok first
    obtain ⟨outs, names, alike, same⟩ := inductionHypothesis done
    exact ⟨_ :: outs, List.forall_mem_cons.mpr ⟨isName, names⟩, .cons ⟨rfl, ended⟩ alike, same⟩

/-- An insertion of an edge table adds the values given exactly where the cells hold them. -/
theorem insertEdgeTable_adds {runtime : Runtime} {columns : EdgeColumns} (rows : List Row)
    {refs : Dict String ChunkRef} {db after : Database}
    (done : Call.run (insertEdgeTable runtime rows columns) db = (.ok refs, after)) :
    after.nodes = db.nodes ∧
      (Adds db.edges after.edges (edgesGiven runtime db columns rows) ↔
        ∀ batch ∈ edgesGiven runtime db columns rows, Held (edgeCellOf runtime) batch.2) := by
  obtain ⟨_, _, nonempty, done⟩ := Call.run_bind_returns done
  rw [Call.run_ofExcept] at nonempty
  obtain ⟨_, rfl⟩ := Prod.mk.inj nonempty
  obtain ⟨id_map, cached, caches, done⟩ := Call.run_bind_returns done
  obtain ⟨grouped, _, groups, done⟩ := Call.run_bind_returns done
  rw [Call.run_ofExcept] at groups
  obtain ⟨files, rfl⟩ := Prod.mk.inj groups
  rw [externalIdMap, Call.run_attempt] at caches
  cases found : idMap runtime columns.node_key_col db with
  | error raised =>
    rw [found] at caches
    cases caches
  | ok known =>
    rw [found] at caches
    cases caches
    obtain ⟨outs, names, alike, rfl⟩ := groupEdges_ok rows files
    have groupNames : ∀ group ∈ (outs.foldl Dict.file Dict.empty).entries, IsName group.1 := by
      intro group member
      obtain ⟨out, isOut, same⟩ := Dict.mem_keys_file (List.mem_map_of_mem (f := Prod.fst) member)
      exact same ▸ names out isOut
    obtain ⟨nodes, made, values⟩ := storeRelations_ok runtime _ groupNames
      (outs.foldl Dict.file Dict.empty).distinct done
    refine ⟨nodes, ?_⟩
    have batches : Dict.Alike Ended (outs.foldl Dict.file Dict.empty)
        ((rows.map (edgeGiven id_map columns)).foldl Dict.file Dict.empty) :=
      Dict.Alike.file alike .nil
    rw [edgesGiven, found, List.forall_mem_map]
    refine adds_iff ((List.forall₂_and_left _ _).mpr ⟨made, batches⟩ |>.imp ?_) values
    rintro ⟨_, group⟩ ⟨_, batch⟩ ⟨⟨table, isTable⟩, same, ended⟩
    dsimp only at same isTable ended ⊢
    have sameRows : group = batch.map Given.row := by
      rw [← List.forall₂_eq_eq_eq, List.forall₂_map_right_iff]
      exact ended.imp fun _ _ both => both.1
    have ends : ∀ row ∈ group, SRC_COLUMN ∈ row.keys ∧ DST_COLUMN ∈ row.keys := by
      intro row member
      obtain ⟨index, inside, rfl⟩ := List.getElem_of_mem member
      exact (ended.get inside (ended.length_eq ▸ inside)).2
    obtain ⟨length, cells⟩ := edgeTable_cells isTable ends
    rw [isTable, rowsOf]
    refine ⟨same, length.trans ended.length_eq,
      reads_iff_held (length.trans ended.length_eq) fun index row given found _ entry _ => ?_⟩
    rw [cells index row found, sameRows]

/-! ## Triples -/

/-- The key of the node that a triple is about. -/
def subjectKey (columns : TripleColumns) (triple : Row) : Except Raised Value :=
  (resourceId (triple.read columns.subject_col)).hashed

/-- The value that a triple gives its subject: a class, or a literal. -/
def tripleWrite (columns : TripleColumns) (triple : Row) : Option (String × Value) :=
  match predicateName (triple.read columns.predicate_col) with
  | .error _ => none
  | .ok predicate =>
      if isRdfType (textOr (predicateIri (triple.read columns.predicate_col)) predicate) then
        match resourceType (triple.read columns.object_col) with
        | .error _ => none
        | .ok class_name => some ("type", .str class_name)
      else if isLiteralObject (triple.read columns.object_col) then
        some (predicate, literalValue (triple.read columns.object_col))
      else none

/-- The values that triples give the node of a key, in their order. -/
def writesTo (columns : TripleColumns) (triples : List Row) (key : Value) :
    List (String × Value) :=
  triples.filterMap fun triple =>
    if subjectKey columns triple = .ok key then tripleWrite columns triple else none

/-- The nodes of triples as rows of a node table, each with the values that the triples give it. -/
def nodesGiven (columns : TripleColumns) (triples : List Row) (tables : TripleTables) :
    List Given :=
  tables.nodes.entries.map fun entry =>
    { row := entry.2, values := writesTo columns triples entry.1 }

theorem writesTo_snoc (columns : TripleColumns) (triples : List Row) (triple : Row) (key : Value) :
    writesTo columns (triples ++ [triple]) key = writesTo columns triples key ++
      if subjectKey columns triple = .ok key then (tripleWrite columns triple).toList else [] := by
  rw [writesTo, List.filterMap_append, ← writesTo]
  congr 1
  by_cases here : subjectKey columns triple = .ok key
  · rw [if_pos here]
    cases written : tripleWrite columns triple <;> simp [here, written]
  · simp [here]

/-- The node of a key is there once a triple is about it, and has what the triples have written. -/
structure Written (columns : TripleColumns) (triples : List Row) (nodes : Dict Value Row) :
    Prop where
  present : ∀ triple ∈ triples, ∀ key, subjectKey columns triple = .ok key →
    nodes.get? key ≠ none
  written : ∀ key node, nodes.get? key = some node → ∃ base, node =
    (writesTo columns triples key).foldl (fun row entry => row.set entry.1 entry.2) base

theorem Written.unwritten {columns : TripleColumns} {triples : List Row} {nodes : Dict Value Row}
    (holds : Written columns triples nodes) {key : Value} (absent : nodes.get? key = none) :
    writesTo columns triples key = [] := by
  rw [writesTo, List.filterMap_eq_nil_iff]
  intro triple member
  rw [if_neg fun about => holds.present triple member key about absent]

/-- A node that is added with nothing written to it. -/
theorem Written.node {runtime : Runtime} {columns : TripleColumns} {triples : List Row}
    {tables next : TripleTables} (holds : Written columns triples tables.nodes)
    {external_id key : Value} {node : Row}
    (found : tables.node runtime external_id = .ok (key, node, next)) :
    Written columns triples next.nodes ∧ external_id.hashed = .ok key ∧
      next.nodes.get? key = some node ∧
      ∀ other, tables.nodes.get? other ≠ none → next.nodes.get? other ≠ none := by
  obtain ⟨placeholder, _, found⟩ := except_bind_ok found
  obtain ⟨filed, hashes, found⟩ := except_bind_ok found
  cases there : tables.nodes.get? filed with
  | some row =>
    rw [there] at found
    obtain ⟨rfl, same⟩ := Prod.mk.inj (Except.ok.inj found)
    obtain ⟨rfl, rfl⟩ := Prod.mk.inj same
    exact ⟨holds, hashes, there, fun _ known => known⟩
  | none =>
    rw [there] at found
    obtain ⟨rfl, same⟩ := Prod.mk.inj (Except.ok.inj found)
    obtain ⟨rfl, rfl⟩ := Prod.mk.inj same
    refine ⟨⟨?_, ?_⟩, hashes, Dict.get_set_self _ _ _, ?_⟩
    · intro triple member other about
      rw [Dict.get_set]
      split
      · exact Option.some_ne_none _
      · exact holds.present triple member other about
    · intro other row stored
      rw [Dict.get_set] at stored
      split at stored
      · next same =>
        rw [same, holds.unwritten there]
        exact ⟨row, rfl⟩
      · exact holds.written other row stored
    · intro other known
      rw [Dict.get_set]
      split
      · exact Option.some_ne_none _
      · exact known

/-- A triple writes its value to the node it is about. -/
theorem Written.addTriple {runtime : Runtime} {columns : TripleColumns} {triples : List Row}
    {tables next : TripleTables} {triple : Row} (holds : Written columns triples tables.nodes)
    (added : addTriple runtime columns tables triple = .ok next) :
    Written columns (triples ++ [triple]) next.nodes := by
  obtain ⟨_, _, added⟩ := except_bind_ok added
  obtain ⟨predicate, named, added⟩ := except_bind_ok added
  obtain ⟨⟨key, node, withNode⟩, found, added⟩ := except_bind_ok added
  obtain ⟨later, hashes, there, _⟩ := holds.node found
  have about : subjectKey columns triple = .ok key := hashes
  -- a value written to the node of the triple
  have writes : ∀ entry, tripleWrite columns triple = some entry →
      Written columns (triples ++ [triple]) (withNode.nodes.set key (node.set entry.1 entry.2)) := by
    intro entry written
    refine ⟨?_, ?_⟩
    · intro other member otherKey otherAbout
      rw [Dict.get_set]
      split
      · exact Option.some_ne_none _
      · next different =>
        rcases List.mem_append.mp member with before | last
        · exact later.present other before otherKey otherAbout
        · rw [List.mem_singleton.mp last, about] at otherAbout
          exact absurd (Except.ok.inj otherAbout).symm different
    · intro otherKey row stored
      rw [Dict.get_set] at stored
      split at stored
      · next same =>
        obtain ⟨base, isNode⟩ := later.written key node there
        refine ⟨base, ?_⟩
        rw [same, writesTo_snoc, if_pos about, written, List.foldl_append, ← isNode,
          ← Option.some.inj stored]
        rfl
      · next different =>
        rw [writesTo_snoc, if_neg fun same => different
          (Except.ok.inj (same.symm.trans about)), List.append_nil]
        exact later.written otherKey row stored
  -- nothing is written, and another node may be added
  have keeps : tripleWrite columns triple = none → ∀ {nodes : Dict Value Row},
      Written columns triples nodes → nodes.get? key ≠ none →
        Written columns (triples ++ [triple]) nodes := by
    intro nothing nodes known isThere
    refine ⟨?_, ?_⟩
    · intro other member otherKey otherAbout
      rcases List.mem_append.mp member with before | last
      · exact known.present other before otherKey otherAbout
      · rw [List.mem_singleton.mp last, about] at otherAbout
        exact Except.ok.inj otherAbout ▸ isThere
    · intro otherKey row stored
      rw [writesTo_snoc, nothing, Option.toList_none, ite_self, List.append_nil]
      exact known.written otherKey row stored
  dsimp only at added
  rw [tripleWrite, named] at writes keeps
  dsimp only at writes keeps
  split at added
  · next isType =>
    rw [if_pos isType] at writes
    obtain ⟨class_name, isClass, same⟩ := except_bind_ok added
    rw [isClass] at writes
    rw [← Except.ok.inj same]
    exact writes _ rfl
  · next notType =>
    rw [if_neg notType] at writes keeps
    split at added
    · next isLiteral =>
      rw [if_pos isLiteral] at writes
      rw [← Except.ok.inj added]
      exact writes _ rfl
    · next notLiteral =>
      rw [if_neg notLiteral] at keeps
      obtain ⟨⟨target, other, withTarget⟩, targetFound, same⟩ := except_bind_ok added
      rw [← Except.ok.inj same]
      obtain ⟨known, _, _, remains⟩ := later.node targetFound
      exact keeps rfl known (remains key (there ▸ Option.some_ne_none node))

theorem Written.foldlM {runtime : Runtime} {columns : TripleColumns} {triples rest : List Row}
    {tables last : TripleTables} (holds : Written columns triples tables.nodes)
    (added : rest.foldlM (Database.addTriple runtime columns) tables = .ok last) :
    Written columns (triples ++ rest) last.nodes := by
  induction rest generalizing triples tables with
  | nil =>
    cases added
    exact (List.append_nil triples).symm ▸ holds
  | cons triple rest inductionHypothesis =>
    rw [List.foldlM_cons] at added
    obtain ⟨next, first, added⟩ := except_bind_ok added
    have later := inductionHypothesis (holds.addTriple first) added
    rwa [List.append_assoc] at later

theorem mem_keys_writes {entries : List (String × Value)} {base : Row} {key : String}
    (among : key ∈ base.keys ∨ ∃ entry ∈ entries, entry.1 = key) :
    key ∈ (entries.foldl (fun row entry => row.set entry.1 entry.2) base).keys := by
  induction entries generalizing base with
  | nil =>
    rcases among with known | ⟨_, absurdity, _⟩
    · exact known
    · cases absurdity
  | cons entry entries inductionHypothesis =>
    refine inductionHypothesis ?_
    rw [Dict.mem_keys_set]
    rcases among with known | ⟨other, member, rfl⟩
    · exact .inl (.inr known)
    · rcases List.mem_cons.mp member with rfl | later
      · exact .inl (.inl rfl)
      · exact .inr ⟨other, later, rfl⟩

/-- The nodes that triples are turned into have what the triples write. -/
theorem written_of_tables {runtime : Runtime} {columns : TripleColumns} {policy : String}
    {triples : List Row} {tables : TripleTables}
    (made : tripleTables runtime columns policy triples = .ok tables) :
    Written columns triples tables.nodes := by
  obtain ⟨_, _, made⟩ := except_bind_ok made
  obtain ⟨_, _, made⟩ := except_bind_ok made
  have initially : Written columns [] ({} : TripleTables).nodes :=
    ⟨fun _ absurdity => absurd absurdity List.not_mem_nil, fun _ _ absurdity => by cases absurdity⟩
  have written := initially.foldlM made
  rwa [List.nil_append] at written

/-- The rows that triples are turned into have a key for each value that the triples give. -/
theorem nodesGiven_own {runtime : Runtime} {columns : TripleColumns} {policy : String}
    {triples : List Row} {tables : TripleTables}
    (made : tripleTables runtime columns policy triples = .ok tables) :
    ∀ given ∈ nodesGiven columns triples tables, ∀ entry ∈ given.values,
      entry.1 ∈ given.row.keys := by
  have written := written_of_tables made
  intro given member entry isGiven
  obtain ⟨⟨key, row⟩, stored, rfl⟩ := List.mem_map.mp member
  obtain ⟨base, isRow⟩ := written.written key row ((Dict.get_eq_some _ _ _).mpr stored)
  dsimp only at isGiven ⊢
  rw [isRow]
  exact mem_keys_writes (.inr ⟨entry, isGiven, rfl⟩)

/-- Defining properties changes the catalog only. -/
theorem defineProperties_ok {property_iris : Dict String String} {db after : Database}
    (done : Call.run (defineProperties property_iris) db = (.ok (), after)) :
    after.nodes = db.nodes ∧ after.edges = db.edges := by
  rw [defineProperties] at done
  generalize property_iris.entries = entries at done
  induction entries generalizing db with
  | nil =>
    cases done
    exact ⟨rfl, rfl⟩
  | cons entry entries inductionHypothesis =>
    rw [List.foldlM_cons] at done
    obtain ⟨_, middle, first, done⟩ := Call.run_bind_returns done
    obtain ⟨_, _, defines, same⟩ := Call.run_bind_returns first
    cases defines
    cases same
    obtain ⟨nodes, edges⟩ := inductionHypothesis done
    exact ⟨nodes, edges⟩

end CaracalDB.Database

namespace CaracalDB.Write

open Database

/-! ## Insertions of rows -/

/-- The insertions of row dictionaries. -/
def OfRows : Write → Prop
  | .insert_nodes _ _ | .insert_node_table _ _ _ | .insert_edge_table _ _ | .insert_triples _ _ _ =>
      True
  | _ => False

/-- The directory that a name leads to without being defined. -/
def foundDirectory (view : List (String × String)) (name : String) : String :=
  ((leads view name).map Prod.snd).getD ""

/-- The rows of nodes that an insertion is given, by the directory they go to. -/
def nodesGiven (runtime : Runtime) (db : Database) : Write → List (String × List Given)
  | .insert_nodes class_name rows =>
      [(foundDirectory db.catalog.classes.view class_name, rows.map Given.ofRow)]
  | .insert_node_table rows _ type_col =>
      tableGiven db type_col (rows.map Given.ofRow)
  | .insert_triples triples columns policy =>
      match tripleTables runtime columns policy triples with
      | .error _ => []
      | .ok tables => tableGiven db "type" (Database.nodesGiven columns triples tables)
  | _ => []

/-- The database in which the edges of triples are stored: their nodes are there. -/
def withNodes (runtime : Runtime) (db : Database) (tables : TripleTables) : Database :=
  (Call.run (do
    let _ ← insertNodeTable runtime tables.nodes.values "node_id" "type"
    defineProperties tables.property_iris) db).2

/-- The rows of edges that an insertion is given, by the directory they go to. -/
def edgesGiven (runtime : Runtime) (db : Database) : Write → List (String × List Given)
  | .insert_edge_table rows columns => Database.edgesGiven runtime db columns rows
  | .insert_triples triples columns policy =>
      match tripleTables runtime columns policy triples with
      | .error _ => []
      | .ok tables => Database.edgesGiven runtime (withNodes runtime db tables) {} tables.edges
  | _ => []

/-- No value that an insertion is given is lost. -/
def KeepsValues (runtime : Runtime) (db : Database) (write : Write) : Prop :=
  Adds db.nodes (write.after runtime db).nodes (write.nodesGiven runtime db) ∧
    Adds db.edges (write.after runtime db).edges (write.edgesGiven runtime db)

/-- Every value given has a cell that holds it. -/
def HeldByCells (runtime : Runtime) (db : Database) (write : Write) : Prop :=
  (∀ batch ∈ write.nodesGiven runtime db, Held (cellOf runtime) batch.2) ∧
    ∀ batch ∈ write.edgesGiven runtime db, Held (edgeCellOf runtime) batch.2

instance (runtime : Runtime) (db : Database) (write : Write) :
    Decidable (write.HeldByCells runtime db) :=
  inferInstanceAs (Decidable (_ ∧ _))

theorem adds_nothing {id_column : String} (stores : Dict String (Store id_column)) :
    Adds stores stores [] := fun _ => ⟨[], (List.append_nil _).symm, .nil⟩

theorem edgesGiven_nil (runtime : Runtime) (db : Database) (columns : EdgeColumns) :
    Database.edgesGiven runtime db columns [] = [] := by
  rw [Database.edgesGiven]
  cases idMap runtime columns.node_key_col db <;> rfl

theorem rows_ofRow (rows : List Row) : (rows.map Given.ofRow).map Given.row = rows := by
  rw [List.map_map]
  exact List.map_id rows

theorem insert_nodes_adds {runtime : Runtime} {class_name : String} {rows : List Row}
    {table : Table} {ref : ChunkRef} {db after : Database}
    (made : runtime.from_pylist rows = .ok table)
    (done : Call.run (insertNodes class_name table) db = (.ok ref, after)) :
    after.edges = db.edges ∧
      (Adds db.nodes after.nodes
          [(foundDirectory db.catalog.classes.view class_name, rows.map Given.ofRow)] ↔
        ∀ batch ∈ [(foundDirectory db.catalog.classes.view class_name, rows.map Given.ofRow)],
          Held (cellOf runtime) batch.2) := by
  obtain ⟨cls, found, _, edges, values⟩ := insertNodes_ok done
  have leads := Registry.find_ok found
  refine ⟨edges, ?_⟩
  obtain ⟨length, cells, _⟩ := from_pylist_cells made
  have lengths : (rowsOf (runtime.from_pylist rows)).length = (rows.map Given.ofRow).length := by
    rw [made, rowsOf, length, List.length_map]
  have alike : List.Forall₂ (fun group batch => group.1 = batch.1 ∧
      (rowsOf (runtime.from_pylist group.2)).length = batch.2.length ∧
      (List.Forall₂ Reads (rowsOf (runtime.from_pylist group.2)) batch.2 ↔
        Held (cellOf runtime) batch.2)) [(class_name, rows)]
          [(class_name, rows.map Given.ofRow)] := by
    refine .cons ⟨rfl, lengths, reads_iff_held lengths fun index row _ found _ entry _ => ?_⟩ .nil
    rw [made] at found
    rw [cells index row found, rows_ofRow]
  have appended : ∀ other, valuesIn after.nodes other = valuesIn db.nodes other ++
      (groupsAt (fun _ => cls.localName) other [(class_name, rows)]).flatMap
        fun group => rowsOf (runtime.from_pylist group.2) := by
    intro other
    rw [values, groupsAt, List.filter_cons]
    by_cases here : other = cls.localName
    · rw [if_pos here, if_pos (decide_eq_true here.symm)]
      simp [made, rowsOf]
    · rw [if_neg here, if_neg (by simpa using Ne.symm here)]
      simp
  have adds := adds_iff alike appended
  rw [foundDirectory, leads]
  simpa using adds

/-- An insertion of rows that returns keeps the values given exactly where the cells hold them. -/
theorem values_kept_iff (runtime : Runtime) (db : Database) (write : Write) (ofRows : write.OfRows)
    (returns : ∃ answer, write.result runtime db = .ok answer) :
    write.KeepsValues runtime db ↔ write.HeldByCells runtime db := by
  obtain ⟨answer, returns⟩ := returns
  have done : Call.run (write.call runtime) db = (.ok answer, write.after runtime db) :=
    Prod.ext returns rfl
  have nothing : ∀ {id_column : String} {stores : Dict String (Store id_column)}
      {cell : List Row → String → Nat → Value},
      Adds stores stores [] ↔ ∀ batch ∈ ([] : List (String × List Given)), Held cell batch.2 :=
    ⟨fun _ _ absurdity => absurd absurdity List.not_mem_nil, fun _ => adds_nothing _⟩
  cases write with
  | insert_nodes class_name rows =>
    obtain ⟨table, _, makes, done⟩ := Call.run_bind_returns done
    rw [Call.run_ofExcept] at makes
    obtain ⟨made, rfl⟩ := Prod.mk.inj makes
    obtain ⟨ref, _, inserts, ends⟩ := Call.run_bind_returns done
    obtain ⟨_, rfl⟩ := Prod.mk.inj ends
    obtain ⟨edges, adds⟩ := insert_nodes_adds made inserts
    exact and_congr adds (edges ▸ nothing)
  | insert_node_table rows key_col type_col =>
    obtain ⟨refs, _, inserts, ends⟩ := Call.run_bind_returns done
    obtain ⟨_, rfl⟩ := Prod.mk.inj ends
    obtain ⟨edges, adds⟩ := insertNodeTable_adds (rows_ofRow rows) (fun given member => by
      obtain ⟨row, _, rfl⟩ := List.mem_map.mp member
      exact fun entry isGiven => List.mem_map_of_mem isGiven) inserts
    exact and_congr adds (edges ▸ nothing)
  | insert_edge_table rows columns =>
    obtain ⟨refs, _, inserts, ends⟩ := Call.run_bind_returns done
    obtain ⟨_, rfl⟩ := Prod.mk.inj ends
    obtain ⟨nodes, adds⟩ := insertEdgeTable_adds rows inserts
    exact and_congr (nodes ▸ nothing) adds
  | insert_triples triples columns policy =>
    obtain ⟨refs, _, inserts, ends⟩ := Call.run_bind_returns done
    obtain ⟨_, rfl⟩ := Prod.mk.inj ends
    obtain ⟨tables, _, makes, stores⟩ := Call.run_bind_returns inserts
    rw [Call.run_ofExcept] at makes
    obtain ⟨made, rfl⟩ := Prod.mk.inj makes
    obtain ⟨nodeRefs, noded, insertsNodes, stores⟩ := Call.run_bind_returns stores
    obtain ⟨_, defined, defines, stores⟩ := Call.run_bind_returns stores
    obtain ⟨sameNodes, sameEdges⟩ := defineProperties_ok defines
    have isMiddle : withNodes runtime db tables = defined := by
      rw [withNodes, Call.run_bind_ok _ insertsNodes, defines]
    have whole : (Database.nodesGiven columns triples tables).map Given.row =
        tables.nodes.values := by
      rw [Database.nodesGiven, List.map_map]
      rfl
    obtain ⟨nodedEdges, nodeAdds⟩ := insertNodeTable_adds whole (nodesGiven_own made) insertsNodes
    rw [KeepsValues, HeldByCells]
    simp only [Write.nodesGiven, Write.edgesGiven, made, isMiddle]
    rw [← sameNodes] at nodeAdds
    rw [← nodedEdges, ← sameEdges]
    by_cases none : tables.edges = []
    · rw [if_pos none] at stores
      obtain ⟨_, same⟩ := Prod.mk.inj stores
      rw [← same, none, edgesGiven_nil]
      exact and_congr nodeAdds nothing
    · rw [if_neg none] at stores
      obtain ⟨edgeRefs, _, insertsEdges, ends⟩ := Call.run_bind_returns stores
      obtain ⟨_, rfl⟩ := Prod.mk.inj ends
      obtain ⟨nodes, edgeAdds⟩ := insertEdgeTable_adds tables.edges insertsEdges
      rw [nodes]
      exact and_congr nodeAdds edgeAdds
  | _ => exact absurd ofRows id

/-! ### Two persons -/

/-- A person with further values. -/
def personWith (key : String) (values : List (String × Value)) : Row :=
  Dict.ofEntries ([("node_id", .str key), ("type", .str "Person")] ++ values)

/-- Triples that give a person a name, an age and a friend. -/
def personTriples : Write :=
  .insert_triples
    [Dict.ofEntries [("subject", .str "ada"), ("predicate", .str "type"), ("object", .str "Person")],
      Dict.ofEntries [("subject", .str "ada"), ("predicate", .str "age"), ("object", .int 36)],
      Dict.ofEntries [("subject", .str "ada"), ("predicate", .str "knows"),
        ("object", .str "urn:bob")]] {} "warn"

/-- Nothing of the triples is lost. -/
theorem personTriples_kept :
    personTriples.KeepsValues Runtime.plain (Database.create "graph.crcl") := by
  have returns : ∃ answer, personTriples.result Runtime.plain (Database.create "graph.crcl") =
      .ok answer := by
    have answers : (personTriples.result Runtime.plain (Database.create "graph.crcl")).isOk =
        true := by decide +kernel
    cases outcome : personTriples.result Runtime.plain (Database.create "graph.crcl") with
    | error raised =>
      rw [outcome] at answers
      cases answers
    | ok answer => exact ⟨answer, rfl⟩
  exact (values_kept_iff Runtime.plain (Database.create "graph.crcl") personTriples trivial
    returns).mpr (by decide +kernel)

/-- Of two persons the second has an age, which the first does not have. -/
def agedLast : Write :=
  .insert_node_table [personWith "ada" [], personWith "bob" [("age", .int 36)]] "node_id" "type"

/-- The age of the second person is not stored. -/
theorem age_lost :
    (agedLast.result Runtime.plain (Database.create "graph.crcl")).isOk = true ∧
      (valuesIn (agedLast.after Runtime.plain (Database.create "graph.crcl")).nodes "Person").map
        (Row.read · "age") = [.null, .null] ∧
      ¬ agedLast.KeepsValues Runtime.plain (Database.create "graph.crcl") := by
  have stored : (valuesIn (agedLast.after Runtime.plain (Database.create "graph.crcl")).nodes
      "Person").map (Row.read · "age") = [.null, .null] := by decide +kernel
  refine ⟨by decide +kernel, stored, ?_⟩
  rintro ⟨nodes, _⟩
  obtain ⟨new, whole, reads⟩ := nodes "Person"
  have none : valuesIn (Database.create "graph.crcl").nodes "Person" = [] := rfl
  rw [none, List.nil_append] at whole
  rw [whole] at stored
  have given : (groupsAt id "Person" (agedLast.nodesGiven Runtime.plain
      (Database.create "graph.crcl"))).flatMap Prod.snd =
        [Given.ofRow (personWith "ada" []), Given.ofRow (personWith "bob" [("age", .int 36)])] := by
    rfl
  rw [given] at reads
  cases reads with
  | cons _ reads =>
    cases reads with
    | cons second _ =>
      have age := second ("age", .int 36) (by decide +kernel)
      rw [List.map_cons, List.map_cons, age] at stored
      cases (List.cons.inj (List.cons.inj stored).2).1

end CaracalDB.Write
