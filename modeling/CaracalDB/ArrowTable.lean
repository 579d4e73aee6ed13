import CaracalDB.Loops
import CaracalDB.PythonValue
import Mathlib.Data.Rat.Defs

/-!
# Arrow tables

A table has typed columns with distinct names and rows with a value for each of
them. Arrow itself is not part of the engine: how it infers the type of a column
from values, how it casts and what its kernels accept are parameters.
-/

namespace CaracalDB

inductive DataType where
  | null
  | bool
  | int64
  | uint64
  | double
  | string
  | other (name : String)
deriving DecidableEq, Repr

/-- `str(type)` -/
def DataType.toText : DataType → String
  | .null => "null"
  | .bool => "bool"
  | .int64 => "int64"
  | .uint64 => "uint64"
  | .double => "double"
  | .string => "string"
  | .other name => name

structure Field where
  name : String
  type : DataType
deriving DecidableEq, Repr

/-- The row with a given value for each name. -/
def Row.ofFunction (names : List String) (distinct : names.Nodup) (value : String → Value) : Row :=
  { entries := names.map fun name => (name, value name)
    distinct := by
      rw [List.map_map]
      exact (List.map_id names).symm ▸ distinct }

@[simp] theorem Row.keys_ofFunction (names : List String) (distinct : names.Nodup)
    (value : String → Value) : (Row.ofFunction names distinct value).keys = names := by
  unfold Row.ofFunction Dict.keys
  rw [List.map_map]
  exact List.map_id names

theorem Row.get_ofFunction (names : List String) (distinct : names.Nodup)
    (value : String → Value) (name : String) :
    (Row.ofFunction names distinct value).get? name =
      if name ∈ names then some (value name) else none := by
  apply Option.ext
  intro found
  rw [Dict.get_eq_some]
  unfold Row.ofFunction
  by_cases present : name ∈ names
  · rw [if_pos present, Option.some.injEq]
    simp [present, eq_comm]
  · simp [present]

theorem Row.read_ofFunction (names : List String) (distinct : names.Nodup)
    (value : String → Value) (name : String) :
    (Row.ofFunction names distinct value).read name =
      if name ∈ names then value name else .null := by
  unfold Row.read
  rw [Row.get_ofFunction]
  split <;> rfl

theorem Row.read_of_absent {row : Row} {name : String} (absent : name ∉ row.keys) :
    row.read name = .null := by
  unfold Row.read
  rw [(Dict.get_eq_none row name).mpr absent]
  rfl

/-- A table whose rows have a value for each column. -/
structure Table where
  fields : List Field
  rows : List Row
  distinct : (fields.map Field.name).Nodup
  aligned : ∀ row ∈ rows, row.keys = fields.map Field.name

namespace Table

/-- `table.column_names` -/
def names (table : Table) : List String := table.fields.map Field.name

/-- `table[name].to_pylist()` -/
def column (table : Table) (name : String) : List Value := table.rows.map (Row.read · name)

/-- The type of a column. -/
def typeOf (table : Table) (name : String) : DataType :=
  ((table.fields.find? fun field => field.name = name).map Field.type).getD .null

/-- The table with the given columns whose rows read from functions. -/
def build (fields : List Field) (distinct : (fields.map Field.name).Nodup)
    (rows : List (String → Value)) : Table :=
  { fields
    rows := rows.map (Row.ofFunction (fields.map Field.name) distinct)
    distinct
    aligned := by
      intro row member
      obtain ⟨value, _, rfl⟩ := List.mem_map.mp member
      exact Row.keys_ofFunction _ _ _ }

/-- `table.filter(mask)`, the mask being computed from the row. -/
def filter (table : Table) (accepts : Row → Bool) : Table :=
  { table with
    rows := table.rows.filter accepts
    aligned := fun row member => table.aligned row (List.mem_of_mem_filter member) }

/-- `table.append_column(name, values)`, the value being computed from the row. -/
def appendColumn (table : Table) (field : Field) (new : field.name ∉ table.names)
    (value : Row → Value) : Table :=
  build (table.fields ++ [field])
    (by
      rw [List.map_append, List.nodup_append]
      refine ⟨table.distinct, List.nodup_singleton _, ?_⟩
      intro known member name isNew same
      rw [List.mem_singleton.mp isNew] at same
      exact new (same ▸ member))
    (table.rows.map fun row name => if name = field.name then value row else row.read name)

def empty : Table :=
  { fields := []
    rows := []
    distinct := List.nodup_nil
    aligned := fun _ member => absurd member List.not_mem_nil }

end Table

/-- What the engine calls outside its own source: Arrow makes a column of values, casts it and
applies kernels to it; the language's library raises a letter and reads a number. -/
structure Runtime where
  /-- `pa.array(values)`: the inferred type, and the values it gives back. -/
  array : List Value → Except Raised (DataType × List Value)
  /-- `column.cast(pa.uint64())` -/
  castUInt64 : DataType → List Value → Except Raised (List Value)
  /-- Whether `unique` and `equal` exist for a type. -/
  unique : DataType → Except Raised Unit
  /-- Whether `index_in` finds values of the first type in a set of the second. -/
  index_in : DataType → DataType → Except Raised Unit
  /-- `getattr(pc, op)(column, value)`: the mask of the column. -/
  compare : String → DataType → List Value → Value → Except Raised (List (Option Bool))
  /-- `letter.upper()` -/
  upper : Char → String
  /-- `float(value)` -/
  float : Value → Except Raised ℚ
  /-- `int(value)` of a value that is no integer. -/
  int : Value → Except Raised Int

/-- `int(value)` -/
def Runtime.toInt (runtime : Runtime) : Value → Except Raised Int
  | .int number => .ok number
  | value => runtime.int value

/-- The columns of the named values of rows. -/
def Runtime.columns (runtime : Runtime) (payload : List Row) :
    List String → Except Raised (List (Field × List Value))
  | [] => .ok []
  | name :: names => do
      let (type, values) ← runtime.array (payload.map (Row.read · name))
      let columns ← runtime.columns payload names
      return ({ name, type }, values) :: columns

theorem Runtime.columns_names (runtime : Runtime) (payload : List Row) (names : List String)
    (columns : List (Field × List Value)) (made : runtime.columns payload names = .ok columns) :
    columns.map (fun column => column.1.name) = names := by
  induction names generalizing columns with
  | nil =>
    cases made
    rfl
  | cons name names inductionHypothesis =>
    rw [Runtime.columns] at made
    cases first : runtime.array (payload.map (Row.read · name)) with
    | error raised =>
      rw [first] at made
      cases made
    | ok inferred =>
      obtain ⟨type, values⟩ := inferred
      rw [first] at made
      cases later : runtime.columns payload names with
      | error raised =>
        rw [later] at made
        cases made
      | ok rest =>
        rw [later] at made
        cases made
        simp [inductionHypothesis rest later]

/-- The value of a named column in a row. -/
def columnValue (columns : List (Field × List Value)) (index : Nat) (name : String) : Value :=
  match columns.find? fun column => column.1.name = name with
  | none => .null
  | some column => column.2.getD index .null

/-- `pa.Table.from_pylist(payload)`: the first row decides which columns there are. -/
def Runtime.from_pylist (runtime : Runtime) : List Row → Except Raised Table
  | [] => .ok Table.empty
  | first :: rest =>
      match made : runtime.columns (first :: rest) first.keys with
      | .error raised => .error raised
      | .ok columns => .ok (Table.build (columns.map Prod.fst)
          (by
            rw [List.map_map]
            exact (runtime.columns_names _ _ _ made).symm ▸ first.distinct)
          ((List.range (rest.length + 1)).map (columnValue columns)))

/-! ### What a made table holds -/

/-- Each named column holds what Arrow gives back of the values of the rows. -/
theorem Runtime.columns_find {runtime : Runtime} {payload : List Row} {names : List String}
    {columns : List (Field × List Value)} (made : runtime.columns payload names = .ok columns)
    {name : String} (named : name ∈ names) :
    ∃ type back, runtime.array (payload.map (Row.read · name)) = .ok (type, back) ∧
      (columns.find? fun column => column.1.name = name) = some ({ name, type }, back) := by
  induction names generalizing columns with
  | nil => cases named
  | cons head names inductionHypothesis =>
    obtain ⟨⟨type, back⟩, inferred, made⟩ := except_bind_ok made
    obtain ⟨rest, later, made⟩ := except_bind_ok made
    rw [← Except.ok.inj made]
    by_cases here : head = name
    · subst here
      exact ⟨type, back, inferred, List.find?_cons_of_pos (by simp)⟩
    · have among := (List.mem_cons.mp named).resolve_left (Ne.symm here)
      obtain ⟨type, back, inferred, found⟩ := inductionHypothesis later among
      exact ⟨type, back, inferred, by rw [List.find?_cons_of_neg (by simpa using here)]; exact found⟩

theorem Runtime.from_pylist_names {runtime : Runtime} {first : Row} {rest : List Row}
    {table : Table} (made : runtime.from_pylist (first :: rest) = .ok table) :
    table.names = first.keys := by
  rw [Runtime.from_pylist] at made
  split at made
  · cases made
  · next columns inferred =>
    rw [← Except.ok.inj made]
    show (columns.map Prod.fst).map Field.name = first.keys
    rw [List.map_map]
    exact runtime.columns_names _ _ _ inferred

theorem Runtime.from_pylist_length {runtime : Runtime} {payload : List Row} {table : Table}
    (made : runtime.from_pylist payload = .ok table) : table.rows.length = payload.length := by
  cases payload with
  | nil =>
    rw [← Except.ok.inj made]
    rfl
  | cons first rest =>
    rw [Runtime.from_pylist] at made
    split at made
    · cases made
    · rw [← Except.ok.inj made]
      simp [Table.build]

/-- The values of a column, as Arrow gives them back. -/
theorem Runtime.from_pylist_column {runtime : Runtime} {first : Row} {rest : List Row}
    {table : Table} (made : runtime.from_pylist (first :: rest) = .ok table) {name : String}
    (named : name ∈ first.keys) :
    ∃ type back, runtime.array ((first :: rest).map (Row.read · name)) = .ok (type, back) ∧
      (back.length = (first :: rest).length → table.rows.map (Row.read · name) = back) := by
  rw [Runtime.from_pylist] at made
  split at made
  · cases made
  · next columns inferred =>
    obtain ⟨type, back, given, found⟩ := Runtime.columns_find inferred named
    refine ⟨type, back, given, ?_⟩
    intro length
    rw [← Except.ok.inj made]
    have present : name ∈ (columns.map Prod.fst).map Field.name := by
      rw [List.map_map]
      exact (runtime.columns_names _ _ _ inferred).symm ▸ named
    have reads : (Table.build (columns.map Prod.fst) (by
        rw [List.map_map]
        exact (runtime.columns_names _ _ _ inferred).symm ▸ first.distinct)
        ((List.range (rest.length + 1)).map (columnValue columns))).rows.map (Row.read · name) =
          (List.range (rest.length + 1)).map fun index => back.getD index .null := by
      simp only [Table.build, List.map_map]
      apply List.map_congr_left
      intro index _
      simp only [Function.comp_apply]
      rw [Row.read_ofFunction, if_pos present, columnValue, found]
    rw [reads]
    apply List.ext_getElem
    · simp [length]
    · intro index below inBack
      rw [List.getElem_map, List.getElem_range, List.getD_eq_getElem?_getD,
        List.getElem?_eq_getElem inBack]
      rfl

/-! ### Plain values -/

/-- The type that Arrow infers for a boolean, a number or a text. -/
def Value.plainType : Value → Option DataType
  | .bool _ => some .bool
  | .int number => if -2 ^ 63 ≤ number ∧ number < 2 ^ 63 then some .int64 else none
  | .float _ => some .double
  | .str _ => some .string
  | _ => none

/-- Values of one type, among them nulls. -/
def PlainColumn (values : List Value) : Prop :=
  ∃ type, ∀ value ∈ values, value = .null ∨ value.plainType = some type

/-- A null, boolean, number or text; `nan` is left out, since it does not equal itself. -/
def Value.Plain : Value → Prop
  | .null | .bool _ | .int _ | .str _ => True
  | .float text => text ≠ "nan"
  | _ => False

/-- The type that Arrow infers for values of one type, among them nulls. -/
def plainColumn (values : List Value) : Except Raised DataType :=
  match values.filter (· ≠ .null) with
  | [] => .ok .null
  | first :: rest =>
      match first.plainType with
      | none => .error (.arrowError "nested value")
      | some type =>
          if rest.all fun value => value.plainType = some type then .ok type
          else .error (.arrowError "mixed values")

/-- Arrow and the library on columns of one plain type and on integers. -/
def Runtime.plain : Runtime where
  array values := (plainColumn values).map fun type => (type, values)
  castUInt64 _ values :=
    if values.all fun value => match value with
      | .null => true
      | .int number => 0 ≤ number && number < 2 ^ 64
      | _ => false
    then .ok values else .error (.arrowError "cannot cast to uint64")
  unique _ := .ok ()
  index_in left right :=
    if left = right then .ok () else .error (.typeError "Array type doesn't match type of values set")
  compare op type values value :=
    if op ≠ "equal" then .error (.attributeError op)
    else if value.plainType ≠ some type then .error (.arrowError "no kernel")
    else .ok (values.map fun stored => if stored = .null then none else some (stored = value))
  upper letter := String.ofList [letter.toUpper]
  float
    | .int number => .ok number
    | _ => .error (.typeError "could not convert to float")
  int
    | .bool flag => .ok (if flag then 1 else 0)
    | _ => .error (.typeError "int() argument must be a number")

/-- What the engine relies on Arrow for: a column of one plain type gives its values back, integers
come back as they are, plain values come back equal, and casting changes no integer. -/
structure Runtime.Lawful (runtime : Runtime) : Prop where
  plain : ∀ values, PlainColumn values → ∃ type, runtime.array values = .ok (type, values)
  integers : ∀ values type back, (∀ value ∈ values, value = .null ∨ ∃ number, value = .int number) →
    runtime.array values = .ok (type, back) → back = values
  equal : ∀ values type back, (∀ value ∈ values, value.Plain) →
    runtime.array values = .ok (type, back) → back.map Value.hashed = values.map Value.hashed
  cast : ∀ type values back, (∀ value ∈ values, value = .null ∨ ∃ number, value = .int number) →
    runtime.castUInt64 type values = .ok back → back = values

theorem plainColumn_of {values : List Value} (plain : PlainColumn values) :
    ∃ type, plainColumn values = .ok type := by
  obtain ⟨type, same⟩ := plain
  rw [plainColumn]
  cases present : values.filter (· ≠ .null) with
  | nil => exact ⟨_, rfl⟩
  | cons first rest =>
    have typed : ∀ value ∈ first :: rest, value.plainType = some type := by
      intro value member
      rw [← present] at member
      have filled : value ≠ .null := by simpa using List.of_mem_filter member
      exact (same value (List.mem_of_mem_filter member)).resolve_left filled
    dsimp only
    rw [typed first List.mem_cons_self]
    dsimp only
    rw [if_pos]
    · exact ⟨type, rfl⟩
    · rw [List.all_eq_true]
      intro value member
      simpa using typed value (List.mem_cons_of_mem first member)

theorem Runtime.plain_array {values back : List Value} {type : DataType}
    (made : Runtime.plain.array values = .ok (type, back)) : back = values := by
  simp only [Runtime.plain] at made
  cases inferred : plainColumn values with
  | error raised =>
    rw [inferred] at made
    cases made
  | ok found =>
    rw [inferred] at made
    exact (Prod.mk.inj (Except.ok.inj made)).2.symm

theorem Runtime.plain_lawful : Runtime.plain.Lawful where
  plain values plain := by
    obtain ⟨type, inferred⟩ := plainColumn_of plain
    refine ⟨type, ?_⟩
    show (plainColumn values).map _ = _
    rw [inferred]
    rfl
  integers values type back _ made := Runtime.plain_array made
  equal values type back _ made := by rw [Runtime.plain_array made]
  cast type values back _ made := by
    simp only [Runtime.plain] at made
    split at made
    · exact (Except.ok.inj made).symm
    · cases made

/-- A table of texts, written out row by row. -/
def Table.ofTexts (names : List String) (distinct : names.Nodup) (rows : List (List String)) :
    Table :=
  build (names.map fun name => { name, type := .string })
    (by
      rw [List.map_map]
      exact (List.map_id names).symm ▸ distinct)
    (rows.map fun texts name => .str (texts.getD (names.idxOf name) ""))

end CaracalDB
