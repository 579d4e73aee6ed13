import Mathlib.Data.List.Dedup
import CaracalDB.Filing
import CaracalDB.SubgraphExchange

/-!
# Graph frames of a subgraph

The columns of all node tables are put behind one another, name by name, beside a
column of labels by which the rows are taken apart again; a column that one table
lacks ends early. Of an edge only the texts of its endpoints are kept, in columns that
the way back drops.
-/

namespace CaracalDB.Exchange

/-- The columns of a frame. -/
abbrev Columns : Type := Dict String (List Value)

/-- `cols.setdefault(name, []).extend(values)` -/
def extend (cols : Columns) (name : String) (values : List Value) : Columns :=
  cols.set name ((cols.get? name).getD [] ++ values)

/-- Some columns of a table, put behind those of the tables before. -/
def extendAll (table : Table) (names : List String) (cols : Columns) : Columns :=
  names.foldl (fun cols name => extend cols name (table.column name)) cols

/-- `NodeFrame.from_dict(data)` or `EdgeFrame.from_dict(data)`: columns of one length. -/
def fromDict (data : Columns) : Except Raised Columns := do
  refuse (¬ ∀ left ∈ data.values, ∀ right ∈ data.values, left.length = right.length)
    (.arrowError "columns have different lengths")
  return data

/-- The columns of the tables other than those that the frame has itself. -/
def extraCols (kept : String × Table → List String) (tables : List (String × Table)) : Columns :=
  tables.foldl (fun cols entry => extendAll entry.2 (kept entry) cols) Dict.empty

def nodeExtra (entry : String × Table) : List String :=
  entry.2.names.filter fun name => name ∉ ["_id", "_label"]

def numRows (tables : List (String × Table)) : Nat :=
  (tables.map fun entry => entry.2.rows.length).sum

/-- The labels of the rows, table by table. -/
def labels (tables : List (String × Table)) : List Value :=
  tables.flatMap fun (cls, table) => List.replicate table.rows.length (.list [.str cls])

/-- `_build_node_frame(lynxes, nodes)` -/
def buildNodeFrame (nodes : Dict String Table) : Except Raised Columns :=
  let rows : Columns := Dict.ofEntries
    [("_id", (List.range (numRows nodes.entries)).map fun counter => .str (toString counter)),
      ("_label", labels nodes.entries)]
  fromDict (rows.update (extraCols nodeExtra nodes.entries))

/-- The name of an endpoint column. -/
def endpointName (table : Table) (plain hidden : String) : String :=
  if plain ∈ table.names then plain else hidden

def edgeExtra (entry : String × Table) : List String :=
  entry.2.names.filter fun name =>
    name ∉ [endpointName entry.2 "src" "_src", endpointName entry.2 "dst" "_dst", "_type",
      "_direction"]

/-- The texts of the endpoints of a table's rows. -/
def endpointTexts (plain hidden : String) (entry : String × Table) : Except Raised (List Value) :=
  match entry.2.column? (endpointName entry.2 plain hidden) with
  | some values => .ok (values.map fun value => .str value.toText)
  | none => .error (.keyError (endpointName entry.2 plain hidden))

/-- `_build_edge_frame(lynxes, edges)` -/
def buildEdgeFrame (edges : Dict String Table) : Except Raised Columns := do
  let sources ← edges.entries.mapM (endpointTexts "src" "_src")
  let targets ← edges.entries.mapM (endpointTexts "dst" "_dst")
  let rows : Columns := Dict.ofEntries
    [("_src", sources.flatten), ("_dst", targets.flatten),
      ("_type", edges.entries.flatMap fun (prop, table) =>
        List.replicate table.rows.length (.str prop)),
      ("_direction", edges.entries.flatMap fun (_, table) =>
        List.replicate table.rows.length (.int 0))]
  fromDict (rows.update (extraCols edgeExtra edges.entries))

/-- `_resolve(mapping, value)` -/
def resolve (mapping : Option (Dict String String)) (value : String) : String :=
  match mapping with
  | none => value
  | some mapping => (mapping.get? value).getD value

/-- The texts of a label, or of a type. -/
def textsOf : Value → List String
  | .list items => items.flatMap fun
      | .str text => [text]
      | _ => []
  | .str text => [text]
  | _ => []

/-- The values of the rows that a mask selects. -/
def select (mask : List Bool) (values : List Value) : List Value :=
  ((values.zip mask).filter Prod.snd).map Prod.fst

/-- The rows of a frame whose label or type is a text, without the frame's own columns. -/
def part (frame : Columns) (marks : List Value) (own : List String) (text : String) : Columns :=
  (frame.mapValues (select (marks.map fun mark => decide (text ∈ textsOf mark)))).keep
    fun name => name ∉ own

/-- A frame taken apart by its labels or types. -/
def takeApart (frame : Columns) (key : String) (own : List String)
    (mapping : Option (Dict String String)) : Dict String Columns :=
  match frame.get? key with
  | none => Dict.empty
  | some marks =>
      ((marks.flatMap textsOf).dedup.insertionSort (· ≤ ·)).foldl
        (fun tables text => tables.set (resolve mapping text) (part frame marks own text)) Dict.empty

/-- What comes back from a graph frame. -/
structure Frames where
  nodes : Dict String Columns
  edges : Dict String Columns

/-- `from_graphframe(gf, class_map=..., prop_map=...)` -/
def fromGraphframe (vertices edges : Columns) (class_map prop_map : Option (Dict String String)) :
    Frames where
  nodes := takeApart vertices "_label" ["_id", "_label"] class_map
  edges := takeApart edges "_type" ["_src", "_dst", "_type", "_direction"] prop_map

/-- `from_graphframe(to_graphframe(subgraph))` -/
def throughGraphframe (subgraph : Subgraph) : Except Raised Frames := do
  let vertices ← buildNodeFrame subgraph.nodes
  let edges ← buildEdgeFrame subgraph.edges
  return fromGraphframe vertices edges none none

/-- The same rows with the same columns under each name. -/
def Restores (back : Dict String Columns) (tables : Dict String Table) : Prop :=
  ∀ name, (back.get? name).map Dict.get? = (tables.get? name).map Table.column?

/-- A subgraph without edge tables whose node tables all have rows and the same columns, none of them
a frame's own. -/
structure Exchangeable (subgraph : Subgraph) : Prop where
  edges : subgraph.edges.entries = []
  rows : ∀ table ∈ subgraph.nodes.values, table.rows ≠ []
  free : ∀ table ∈ subgraph.nodes.values, "_id" ∉ table.names ∧ "_label" ∉ table.names
  alike : ∀ table ∈ subgraph.nodes.values, ∀ other ∈ subgraph.nodes.values,
    ∀ name ∈ table.names, name ∈ other.names

/-! ## Columns behind one another -/

theorem get_extendAll (table : Table) (names : List String) (distinct : names.Nodup)
    (cols : Columns) (other : String) : (extendAll table names cols).get? other =
      if other ∈ names then some ((cols.get? other).getD [] ++ table.column other)
      else cols.get? other := by
  induction names generalizing cols with
  | nil => rfl
  | cons name names inductionHypothesis =>
    obtain ⟨absent, rest⟩ := List.nodup_cons.mp distinct
    have step := inductionHypothesis rest (extend cols name (table.column name))
    rw [extendAll, List.foldl_cons]
    rw [extendAll] at step
    rw [step, extend, Dict.get_set]
    by_cases same : other = name
    · rw [same, if_neg absent, if_pos rfl, if_pos List.mem_cons_self]
    · simp [same]

/-- The column of a name: those of the tables that keep it, one behind the other. -/
theorem get_extraCols {kept : String × Table → List String} (distinct : ∀ entry, (kept entry).Nodup)
    (tables : List (String × Table)) (name : String) : (extraCols kept tables).get? name =
      if ∃ entry ∈ tables, name ∈ kept entry then
        some (tables.flatMap fun entry => if name ∈ kept entry then entry.2.column name else [])
      else none := by
  apply foldl_invariant (fun cols entry => extendAll entry.2 (kept entry) cols)
    (fun done cols => cols.get? name = if ∃ entry ∈ done, name ∈ kept entry then
      some (done.flatMap fun entry => if name ∈ kept entry then entry.2.column name else [])
      else none)
  · intro done entry cols holds
    rw [get_extendAll entry.2 (kept entry) (distinct entry), holds, List.flatMap_append]
    by_cases here : name ∈ kept entry
    · have found : ∃ other ∈ done ++ [entry], name ∈ kept other := ⟨entry, by simp, here⟩
      rw [if_pos here, if_pos found]
      by_cases before : ∃ other ∈ done, name ∈ kept other
      · simp [before, here]
      · have nothing : (done.flatMap fun other =>
            if name ∈ kept other then other.2.column name else []) = [] := by
          rw [List.flatMap_eq_nil_iff]
          intro other member
          rw [if_neg fun held => before ⟨other, member, held⟩]
        simp [before, here, nothing]
    · rw [if_neg here]
      by_cases before : ∃ other ∈ done, name ∈ kept other
      · have found : ∃ other ∈ done ++ [entry], name ∈ kept other := by
          obtain ⟨other, member, held⟩ := before
          exact ⟨other, List.mem_append_left _ member, held⟩
        rw [if_pos before, if_pos found]
        simp [here]
      · have none : ¬ ∃ other ∈ done ++ [entry], name ∈ kept other := by
          rintro ⟨other, member, held⟩
          rcases List.mem_append.mp member with early | last
          · exact before ⟨other, early, held⟩
          · rw [List.mem_singleton.mp last] at held
            exact here held
        rw [if_neg before, if_neg none]
  · simp

/-! ## Taking a frame apart -/

theorem get_foldl_keys {Made : Type} (make : String → Made) (texts : List String)
    (tables : Dict String Made) (name : String) :
    (texts.foldl (fun tables text => tables.set text (make text)) tables).get? name =
      if name ∈ texts then some (make name) else tables.get? name := by
  induction texts generalizing tables with
  | nil => rfl
  | cons text texts inductionHypothesis =>
    rw [List.foldl_cons, inductionHypothesis, Dict.get_set]
    by_cases later : name ∈ texts
    · simp [later]
    · by_cases same : name = text <;> simp [later, same]

theorem get_takeApart {frame : Columns} {key : String} {marks : List Value}
    (found : frame.get? key = some marks) (own : List String) (name : String) :
    (takeApart frame key own none).get? name =
      if name ∈ marks.flatMap textsOf then some (part frame marks own name) else none := by
  have read := get_foldl_keys (part frame marks own)
    ((marks.flatMap textsOf).dedup.insertionSort (· ≤ ·)) Dict.empty name
  rw [takeApart, found]
  simp only [List.mem_insertionSort, List.mem_dedup] at read
  exact read

theorem get_part (frame : Columns) (marks : List Value) (own : List String) (text name : String) :
    (part frame marks own text).get? name = if name ∈ own then none else
      (frame.get? name).map (select (marks.map fun mark => decide (text ∈ textsOf mark))) := by
  rw [part, Dict.get_keep, Dict.get_mapValues]
  by_cases isOwn : name ∈ own <;> simp [isOwn]

theorem mem_labels (tables : List (String × Table)) (name : String) :
    name ∈ (labels tables).flatMap textsOf ↔ ∃ entry ∈ tables, entry.1 = name ∧ entry.2.rows ≠ [] := by
  simp only [labels, List.mem_flatMap, List.mem_replicate]
  constructor
  · rintro ⟨mark, ⟨entry, member, filled, rfl⟩, held⟩
    refine ⟨entry, member, ?_, fun empty => filled (by simp [empty])⟩
    simpa [textsOf, eq_comm] using held
  · rintro ⟨entry, member, rfl, filled⟩
    exact ⟨.list [.str entry.1], ⟨entry, member, by simpa using filled, rfl⟩, by simp [textsOf]⟩

theorem select_append {first : List Bool} {values : List Value} (aligned : first.length = values.length)
    (second : List Bool) (others : List Value) :
    select (first ++ second) (values ++ others) = select first values ++ select second others := by
  rw [select, List.zip_append aligned.symm, List.filter_append, List.map_append]
  rfl

theorem select_same (flag : Bool) (values : List Value) :
    select (List.replicate values.length flag) values = if flag then values else [] := by
  induction values with
  | nil => cases flag <;> rfl
  | cons value values inductionHypothesis =>
    rw [select] at inductionHypothesis ⊢
    cases flag
    · simpa [List.replicate_succ] using inductionHypothesis
    · simpa [List.replicate_succ] using inductionHypothesis

/-- The rows of a label are those of its table. -/
theorem select_labels {tables : List (String × Table)} (distinct : (tables.map Prod.fst).Nodup)
    {entry : String × Table} (member : entry ∈ tables) (name : String) :
    select ((labels tables).map fun mark => decide (entry.1 ∈ textsOf mark))
      (tables.flatMap fun other => other.2.column name) = entry.2.column name := by
  have block (other : String × Table) (rest : List (String × Table)) :
      select ((labels (other :: rest)).map fun mark => decide (entry.1 ∈ textsOf mark))
        ((other :: rest).flatMap fun one => one.2.column name) =
          (if entry.1 = other.1 then other.2.column name else []) ++
            select ((labels rest).map fun mark => decide (entry.1 ∈ textsOf mark))
              (rest.flatMap fun one => one.2.column name) := by
    have marks : (labels (other :: rest)).map (fun mark => decide (entry.1 ∈ textsOf mark)) =
        List.replicate (other.2.column name).length (decide (entry.1 = other.1)) ++
          (labels rest).map fun mark => decide (entry.1 ∈ textsOf mark) := by
      simp [labels, textsOf]
    rw [marks, List.flatMap_cons, select_append (List.length_replicate ..), select_same]
    simp
  have outside (rest : List (String × Table)) (absent : ∀ one ∈ rest, entry.1 ≠ one.1) :
      select ((labels rest).map fun mark => decide (entry.1 ∈ textsOf mark))
        (rest.flatMap fun one => one.2.column name) = [] := by
    induction rest with
    | nil => rfl
    | cons other rest inductionHypothesis =>
      rw [block, if_neg (absent other List.mem_cons_self), List.nil_append,
        inductionHypothesis fun one further => absent one (List.mem_cons_of_mem other further)]
  induction tables with
  | nil => exact absurd member List.not_mem_nil
  | cons first rest inductionHypothesis =>
    obtain ⟨fresh, later⟩ := List.nodup_cons.mp distinct
    rw [block]
    rcases List.mem_cons.mp member with rfl | further
    · rw [if_pos rfl, outside rest, List.append_nil]
      intro one inside same
      exact fresh (same ▸ List.mem_map_of_mem inside)
    · have other : entry.1 ≠ first.1 := by
        intro same
        exact fresh (same ▸ List.mem_map_of_mem further)
      rw [if_neg other, List.nil_append, inductionHypothesis later further]

/-! ## Node frames -/

theorem nodeExtra_distinct (entry : String × Table) : (nodeExtra entry).Nodup :=
  entry.2.distinct.filter _

theorem mem_nodeExtra (entry : String × Table) (name : String) :
    name ∈ nodeExtra entry ↔ name ∈ entry.2.names ∧ name ≠ "_id" ∧ name ≠ "_label" := by
  simp [nodeExtra]

/-- The columns of the node frame before their lengths are compared. -/
def nodeData (nodes : Dict String Table) : Columns :=
  (Dict.ofEntries
    [("_id", (List.range (numRows nodes.entries)).map fun counter => .str (toString counter)),
      ("_label", labels nodes.entries)] : Columns).update (extraCols nodeExtra nodes.entries)

theorem extra_own (tables : List (String × Table)) {name : String} (own : name = "_id" ∨ name = "_label") :
    (extraCols nodeExtra tables).get? name = none := by
  rw [get_extraCols nodeExtra_distinct, if_neg]
  rintro ⟨entry, _, held⟩
  have others := ((mem_nodeExtra entry name).mp held).2
  rcases own with same | same
  · exact others.1 same
  · exact others.2 same

theorem nodeData_label (nodes : Dict String Table) :
    (nodeData nodes).get? "_label" = some (labels nodes.entries) := by
  rw [nodeData, Dict.get_update, extra_own _ (.inr rfl)]
  rfl

theorem nodeData_id (nodes : Dict String Table) : (nodeData nodes).get? "_id" =
    some ((List.range (numRows nodes.entries)).map fun counter => .str (toString counter)) := by
  rw [nodeData, Dict.get_update, extra_own _ (.inl rfl)]
  rfl

theorem nodeData_other (nodes : Dict String Table) {name : String} (notId : name ≠ "_id")
    (notLabel : name ≠ "_label") :
    (nodeData nodes).get? name = (extraCols nodeExtra nodes.entries).get? name := by
  have rows : (Dict.ofEntries
      [("_id", (List.range (numRows nodes.entries)).map fun counter => Value.str (toString counter)),
        ("_label", labels nodes.entries)] : Columns).get? name = none := by
    simp [Dict.ofEntries, Dict.get_set, notId, notLabel]
  rw [nodeData, Dict.get_update, rows, Option.or_none]

theorem length_labels (tables : List (String × Table)) :
    (labels tables).length = numRows tables := by
  simp [labels, numRows, List.length_flatMap]

/-- The node tables come back exactly when all have rows and the same columns, none of them the
frame's own. -/
theorem nodes_restored_iff (nodes : Dict String Table) :
    (∃ vertices, buildNodeFrame nodes = .ok vertices ∧
      Restores (takeApart vertices "_label" ["_id", "_label"] none) nodes) ↔
        (∀ table ∈ nodes.values, table.rows ≠ []) ∧
        (∀ table ∈ nodes.values, "_id" ∉ table.names ∧ "_label" ∉ table.names) ∧
        ∀ table ∈ nodes.values, ∀ other ∈ nodes.values, ∀ name ∈ table.names, name ∈ other.names := by
  have built : buildNodeFrame nodes = fromDict (nodeData nodes) := rfl
  have parts := get_takeApart (nodeData_label nodes) ["_id", "_label"]
  rw [built]
  constructor
  · rintro ⟨vertices, found, restored⟩
    obtain ⟨_, _, same⟩ := except_bind_ok found
    cases same
    -- What comes back under the name of a table.
    have each : ∀ entry ∈ nodes.entries, entry.2.rows ≠ [] ∧ ∀ name,
        entry.2.column? name = if name ∈ ["_id", "_label"] then none else
          ((nodeData nodes).get? name).map (select ((labels nodes.entries).map fun mark =>
            decide (entry.1 ∈ textsOf mark))) := by
      intro entry member
      have stored : nodes.get? entry.1 = some entry.2 := (Dict.get_eq_some _ _ _).mpr member
      have back := restored entry.1
      rw [parts, stored] at back
      split at back
      · next seen =>
        obtain ⟨other, inside, name, filled⟩ := (mem_labels _ _).mp seen
        have twin : nodes.get? entry.1 = some other.2 := by
          rw [← name]
          exact (Dict.get_eq_some _ _ _).mpr inside
        have same : entry.2 = other.2 := Option.some.inj (stored.symm.trans twin)
        refine ⟨same ▸ filled, fun name => ?_⟩
        rw [← get_part]
        exact (congrFun (Option.some.inj back) name).symm
      · cases back
    have values : ∀ table ∈ nodes.values, ∃ entry ∈ nodes.entries, entry.2 = table :=
      fun table member => List.mem_map.mp member
    refine ⟨?_, ?_, ?_⟩
    · intro table member
      obtain ⟨entry, inside, rfl⟩ := values table member
      exact (each entry inside).1
    · intro table member
      obtain ⟨entry, inside, rfl⟩ := values table member
      have absent : ∀ name ∈ ["_id", "_label"], name ∉ entry.2.names := by
        intro name own held
        have read := (each entry inside).2 name
        rw [if_pos own, Table.column?, if_pos held] at read
        cases read
      exact ⟨absent "_id" (by simp), absent "_label" (by simp)⟩
    · intro table member other otherMember name held
      obtain ⟨entry, inside, rfl⟩ := values table member
      obtain ⟨twin, twinInside, rfl⟩ := values other otherMember
      have read := (each entry inside).2 name
      have twinRead := (each twin twinInside).2 name
      rw [Table.column?, if_pos held] at read
      by_contra absent
      rw [Table.column?, if_neg absent] at twinRead
      split at read
      · cases read
      · next notOwn =>
        rw [if_neg notOwn] at twinRead
        rw [Option.map_eq_none_iff.mp twinRead.symm] at read
        cases read
  · rintro ⟨filled, free, alike⟩
    have known : ∀ entry ∈ nodes.entries, entry.2 ∈ nodes.values :=
      fun entry member => List.mem_map_of_mem member
    have joined : ∀ name, name ≠ "_id" → name ≠ "_label" →
        (nodeData nodes).get? name = if ∃ entry ∈ nodes.entries, name ∈ entry.2.names then
          some (nodes.entries.flatMap fun entry => entry.2.column name) else none := by
      intro name notId notLabel
      rw [nodeData_other nodes notId notLabel, get_extraCols nodeExtra_distinct]
      by_cases held : ∃ entry ∈ nodes.entries, name ∈ entry.2.names
      · obtain ⟨entry, member, inside⟩ := held
        have all : ∀ other ∈ nodes.entries, name ∈ nodeExtra other := fun other otherMember =>
          (mem_nodeExtra other name).mpr ⟨alike entry.2 (known entry member) other.2
            (known other otherMember) name inside, notId, notLabel⟩
        rw [if_pos ⟨entry, member, all entry member⟩, if_pos ⟨entry, member, inside⟩]
        exact congrArg some (List.flatMap_congr fun other otherMember =>
          if_pos (all other otherMember))
      · have nowhere : ¬ ∃ entry ∈ nodes.entries, name ∈ nodeExtra entry := by
          rintro ⟨entry, member, inside⟩
          exact held ⟨entry, member, ((mem_nodeExtra entry name).mp inside).1⟩
        rw [if_neg held, if_neg nowhere]
    have lengths : ∀ values ∈ (nodeData nodes).values, values.length = numRows nodes.entries := by
      intro values member
      obtain ⟨name, found⟩ := (Dict.mem_values _ _).mp member
      by_cases isId : name = "_id"
      · rw [isId, nodeData_id] at found
        rw [← Option.some.inj found]
        simp
      · by_cases isLabel : name = "_label"
        · rw [isLabel, nodeData_label] at found
          rw [← Option.some.inj found, length_labels]
        · rw [joined name isId isLabel] at found
          split at found
          · rw [← Option.some.inj found]
            simp [numRows, List.length_flatMap]
          · cases found
    have fits : fromDict (nodeData nodes) = .ok (nodeData nodes) := by
      have even : ¬ ¬ ∀ left ∈ (nodeData nodes).values, ∀ right ∈ (nodeData nodes).values,
          left.length = right.length := by
        rw [not_not]
        intro left leftMember right rightMember
        rw [lengths left leftMember, lengths right rightMember]
      rw [fromDict, refuse, if_neg even]
      rfl
    refine ⟨nodeData nodes, fits, ?_⟩
    intro cls
    rw [parts]
    cases stored : nodes.get? cls with
    | none =>
      have unseen : cls ∉ (labels nodes.entries).flatMap textsOf := by
        intro seen
        obtain ⟨entry, member, name, _⟩ := (mem_labels _ _).mp seen
        have found : nodes.get? cls = some entry.2 := by
          rw [← name]
          exact (Dict.get_eq_some _ _ _).mpr member
        rw [found] at stored
        cases stored
      rw [if_neg unseen]
      rfl
    | some table =>
      have member : (cls, table) ∈ nodes.entries := (Dict.get_eq_some _ _ _).mp stored
      have isTable := known _ member
      have seen : cls ∈ (labels nodes.entries).flatMap textsOf :=
        (mem_labels _ _).mpr ⟨(cls, table), member, rfl, filled table isTable⟩
      rw [if_pos seen]
      refine congrArg some (funext fun name => ?_)
      rw [get_part, Table.column?]
      by_cases own : name ∈ ["_id", "_label"]
      · have absent : name ∉ table.names := by
          rcases (by simpa using own : name = "_id" ∨ name = "_label") with rfl | rfl
          · exact (free table isTable).1
          · exact (free table isTable).2
        rw [if_pos own, if_neg absent]
      · have apart : name ≠ "_id" ∧ name ≠ "_label" := by simpa using own
        rw [if_neg own, joined name apart.1 apart.2]
        by_cases held : name ∈ table.names
        · rw [if_pos ⟨_, member, held⟩, if_pos held, Option.map_some]
          exact congrArg some (select_labels nodes.distinct member name)
        · have nowhere : ¬ ∃ entry ∈ nodes.entries, name ∈ entry.2.names := by
            rintro ⟨entry, inside, other⟩
            exact held (alike entry.2 (known entry inside) table isTable name other)
          rw [if_neg nowhere, if_neg held]
          rfl

/-! ## Edge frames -/

theorem edgeExtra_distinct (entry : String × Table) : (edgeExtra entry).Nodup :=
  entry.2.distinct.filter _

/-- No table puts an endpoint under its plain name into the frame. -/
theorem edgeExtra_plain (tables : List (String × Table)) :
    (extraCols edgeExtra tables).get? "src" = none ∧
      (extraCols edgeExtra tables).get? "dst" = none := by
  rw [get_extraCols edgeExtra_distinct, get_extraCols edgeExtra_distinct]
  constructor
  · rw [if_neg]
    rintro ⟨entry, _, held⟩
    simp only [edgeExtra, List.mem_filter, decide_eq_true_eq] at held
    apply held.2
    simp [endpointName, held.1]
  · rw [if_neg]
    rintro ⟨entry, _, held⟩
    simp only [edgeExtra, List.mem_filter, decide_eq_true_eq] at held
    apply held.2
    simp [endpointName, held.1]

/-- Edge tables never come back: their endpoints are dropped. -/
theorem edges_restored_iff (edges : Dict String Table) :
    (∃ frame, buildEdgeFrame edges = .ok frame ∧
      Restores (takeApart frame "_type" ["_src", "_dst", "_type", "_direction"] none) edges) ↔
        edges.entries = [] := by
  constructor
  · rintro ⟨frame, found, restored⟩
    obtain ⟨sources, first, rest⟩ := except_bind_ok found
    obtain ⟨targets, _, last⟩ := except_bind_ok rest
    obtain ⟨_, _, same⟩ := except_bind_ok last
    have plain : frame.get? "src" = none := by
      cases same
      rw [Dict.get_update, (edgeExtra_plain edges.entries).1]
      rfl
    by_contra filled
    obtain ⟨entry, member⟩ := List.exists_mem_of_ne_nil _ filled
    have stored : edges.get? entry.1 = some entry.2 := (Dict.get_eq_some _ _ _).mpr member
    -- The source column of the table, under either of its names.
    obtain ⟨texts, read⟩ := ok_of_mapM_ok first entry member
    have held : (entry.2.column? (endpointName entry.2 "src" "_src")).isSome := by
      rw [endpointTexts] at read
      split at read
      · next values column => rw [column]; rfl
      · cases read
    have back := restored entry.1
    rw [stored] at back
    cases marks : frame.get? "_type" with
    | none =>
      have nothing : takeApart frame "_type" ["_src", "_dst", "_type", "_direction"] none =
          Dict.empty := by rw [takeApart, marks]
      rw [nothing] at back
      cases back
    | some values =>
      rw [get_takeApart marks] at back
      split at back
      · have column := congrFun (Option.some.inj back) (endpointName entry.2 "src" "_src")
        rw [← column, get_part, endpointName] at held
        split at held
        · simp [plain] at held
        · simp at held
      · cases back
  · intro empty
    have none : edges = Dict.empty := Dict.ext empty
    rw [none]
    refine ⟨_, rfl, ?_⟩
    intro name
    rfl

/-- A subgraph comes back from a graph frame exactly when it is exchangeable. -/
theorem throughGraphframe_iff (subgraph : Subgraph) :
    (∃ back, throughGraphframe subgraph = .ok back ∧ Restores back.nodes subgraph.nodes ∧
      Restores back.edges subgraph.edges) ↔ Exchangeable subgraph := by
  have nodes := nodes_restored_iff subgraph.nodes
  have edges := edges_restored_iff subgraph.edges
  constructor
  · rintro ⟨back, found, backNodes, backEdges⟩
    obtain ⟨vertices, builtNodes, rest⟩ := except_bind_ok found
    obtain ⟨frame, builtEdges, same⟩ := except_bind_ok rest
    cases same
    obtain ⟨rows, free, alike⟩ := nodes.mp ⟨vertices, builtNodes, backNodes⟩
    exact { edges := edges.mp ⟨frame, builtEdges, backEdges⟩, rows, free, alike }
  · intro exchangeable
    obtain ⟨vertices, builtNodes, backNodes⟩ :=
      nodes.mpr ⟨exchangeable.rows, exchangeable.free, exchangeable.alike⟩
    obtain ⟨frame, builtEdges, backEdges⟩ := edges.mpr exchangeable.edges
    refine ⟨fromGraphframe vertices frame none none, ?_, backNodes, backEdges⟩
    rw [throughGraphframe, builtNodes, ok_bind, builtEdges]
    rfl

/-- A non-empty subgraph comes back from an Arrow container exactly when each table has a record
batch, and from a graph frame exactly when it is exchangeable. -/
theorem exchanges_iff {Bytes : Type} (ipc : Ipc Bytes) (subgraph : Subgraph)
    (filled : ¬ (subgraph.nodes.entries = [] ∧ subgraph.edges.entries = [])) :
    ((∃ entries, exportSubgraphToArrow ipc subgraph = .ok entries ∧
      importSubgraphFromArrow ipc entries = .ok subgraph) ↔
        ∀ table ∈ subgraph.nodes.values ++ subgraph.edges.values, table.batches ≠ []) ∧
    ((∃ back, throughGraphframe subgraph = .ok back ∧ Restores back.nodes subgraph.nodes ∧
      Restores back.edges subgraph.edges) ↔ Exchangeable subgraph) :=
  ⟨arrow_round_trip_iff ipc filled, throughGraphframe_iff subgraph⟩

/-- Streams kept as the tables that were written. -/
def plainIpc : Ipc Table where
  write table := table
  read table := table
  read_write _ := rfl

/-- One person. -/
def people : Subgraph where
  nodes := Dict.ofEntries [("Person",
    { fields := [{ name := "nid", type := .uint64 }], batches := [[[.int 0]]], distinct := by simp })]

theorem people_exchanged :
    (∃ entries, exportSubgraphToArrow plainIpc people = .ok entries ∧
      importSubgraphFromArrow plainIpc entries = .ok people) ∧
    ∃ back, throughGraphframe people = .ok back ∧ Restores back.nodes people.nodes ∧
      Restores back.edges people.edges := by
  have both := exchanges_iff plainIpc people (by simp [people, Dict.ofEntries, Dict.set,
    Dict.setEntries, Dict.empty])
  have only : ∀ table ∈ people.nodes.values, table =
      { fields := [{ name := "nid", type := .uint64 }], batches := [[[.int 0]]]
        distinct := by simp } := fun table member => List.mem_singleton.mp member
  constructor
  · apply both.1.mpr
    intro table member
    rw [only table (by simpa [people, Dict.values, Dict.empty] using member)]
    exact List.cons_ne_nil _ _
  · apply both.2.mpr
    constructor
    · rfl
    · intro table member
      rw [only table member]
      exact List.cons_ne_nil _ _
    · intro table member
      rw [only table member]
      simp [Table.names]
    · intro table member other otherMember name held
      rw [only table member] at held
      rwa [only other otherMember]

/-- One person who knows herself. -/
def acquainted : Subgraph := { people with
  edges := Dict.ofEntries [("KNOWS",
    { fields := [{ name := "src", type := .uint64 }, { name := "dst", type := .uint64 }]
      batches := [[[.int 0, .int 0]]], distinct := by simp })] }

/-- The endpoints of the edge do not come back from a graph frame. -/
theorem acquainted_lost : ¬ ∀ subgraph : Subgraph,
    ¬ (subgraph.nodes.entries = [] ∧ subgraph.edges.entries = []) →
      (∃ entries, exportSubgraphToArrow plainIpc subgraph = .ok entries ∧
        importSubgraphFromArrow plainIpc entries = .ok subgraph) ∧
      ∃ back, throughGraphframe subgraph = .ok back ∧ Restores back.nodes subgraph.nodes ∧
        Restores back.edges subgraph.edges := by
  intro always
  have some : acquainted.edges.entries ≠ [] := List.cons_ne_nil _ _
  have restored := (always acquainted fun empty => some empty.2).2
  exact some ((throughGraphframe_iff acquainted).mp restored).edges

end CaracalDB.Exchange
