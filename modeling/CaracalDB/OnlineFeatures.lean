import Mathlib.Data.Nat.Log
import Mathlib.Tactic.Ring
import CaracalDB.Dict
import CaracalDB.Loops
import CaracalDB.PythonValue

/-!
# Online feature lookups

A view keeps the feature columns of a node store as NumPy arrays. Arrow turns an
integer column with a null into doubles, and a null of integers or doubles into NaN;
what a lookup then reads is the stored value only where no null of numbers is asked
for and each integer asked for in a column with nulls is a double.
-/

namespace CaracalDB.Online

/-! ### Doubles -/

/-- The distance of the doubles around a whole number. -/
def spacing (magnitude : Nat) : Nat := 2 ^ (Nat.log2 magnitude + 1 - 53)

/-- The double nearest to a whole number of at most 64 bits, the even one of two. -/
def roundMagnitude (magnitude : Nat) : Nat :=
  let unit := spacing magnitude
  let below := magnitude / unit
  let rest := magnitude % unit
  if 2 * rest < unit ∨ 2 * rest = unit ∧ below % 2 = 0 then below * unit else (below + 1) * unit

/-- `float64(value)` of an integer, which is whole. -/
def toDouble (value : Int) : Int :=
  if value < 0 then -(roundMagnitude value.natAbs : Int) else roundMagnitude value.natAbs

/-- An integer that is a double. -/
def IsDouble (value : Int) : Prop := spacing value.natAbs ∣ value.natAbs

instance (value : Int) : Decidable (IsDouble value) := inferInstanceAs (Decidable (_ ∣ _))

theorem spacing_pos (magnitude : Nat) : 0 < spacing magnitude := Nat.two_pow_pos _

theorem roundMagnitude_iff (magnitude : Nat) :
    roundMagnitude magnitude = magnitude ↔ spacing magnitude ∣ magnitude := by
  have positive := spacing_pos magnitude
  have split := Nat.div_add_mod magnitude (spacing magnitude)
  have small := Nat.mod_lt magnitude positive
  rw [Nat.dvd_iff_mod_eq_zero, roundMagnitude]
  constructor
  · intro same
    split at same
    · rw [Nat.mul_comm] at same
      omega
    · have next : (magnitude / spacing magnitude + 1) * spacing magnitude =
          spacing magnitude * (magnitude / spacing magnitude) + spacing magnitude := by ring
      omega
  · intro whole
    rw [if_pos (Or.inl (by omega)), Nat.mul_comm]
    omega

theorem toDouble_iff (value : Int) : toDouble value = value ↔ IsDouble value := by
  rw [IsDouble, ← roundMagnitude_iff, toDouble]
  split <;> omega

/-- Up to `2^53` every integer is a double. -/
theorem isDouble_of_small {value : Int} (small : value.natAbs ≤ 2 ^ 53) : IsDouble value := by
  rcases Nat.lt_or_ge value.natAbs (2 ^ 53) with less | exact
  · have short : Nat.log2 value.natAbs + 1 - 53 = 0 := by
      rcases Nat.eq_zero_or_pos value.natAbs with zero | positive
      · rw [zero]
        decide
      · have bound := (Nat.log2_lt (by omega)).mpr less
        omega
    rw [IsDouble, spacing, short]
    exact Nat.one_dvd _
  · rw [IsDouble, Nat.le_antisymm small exact]
    decide

/-! ### Columns -/

variable {Number Item : Type}

/-- A column of the store: integers, floating-point numbers, or values that NumPy keeps as objects,
each possibly null. -/
inductive Column (Number Item : Type) where
  | ints (values : List (Option Int))
  | numbers (values : List (Option Number))
  | items (values : List (Option Item))

/-- What is read from a column or an array. -/
inductive Cell (Number Item : Type) where
  | null
  | int (value : Int)
  | double (value : Int)
  | nan
  | number (value : Number)
  | item (value : Item)
deriving DecidableEq

/-- What the store holds. -/
def Column.cells : Column Number Item → List (Cell Number Item)
  | .ints values => values.map fun value => value.elim .null .int
  | .numbers values => values.map fun value => value.elim .null .number
  | .items values => values.map fun value => value.elim .null .item

/-- The cells of `column.to_numpy(zero_copy_only=False)`, as `pa.array` reads them back. -/
def Column.toNumpy : Column Number Item → List (Cell Number Item)
  | .ints values =>
      if none ∈ values then values.map fun value => value.elim .nan fun value => .double (toDouble value)
      else values.map fun value => value.elim .null .int
  | .numbers values => values.map fun value => value.elim .nan .number
  | .items values => values.map fun value => value.elim .null .item

/-- Equal values; a number may be of another type. -/
def Cell.Equals : Cell Number Item → Cell Number Item → Prop
  | .int stored, .double read => stored = read
  | stored, read => stored = read

/-- Whether the value of a row survives NumPy: no null of a number, and in a column of integers with
nulls an integer that is a double. -/
def Column.Survives (column : Column Number Item) (row : Nat) : Prop :=
  match column with
  | .ints values => none ∈ values → ∀ value ∈ values[row]?, ∃ read ∈ value, IsDouble read
  | .numbers values => ∀ value ∈ values[row]?, value ≠ none
  | .items _ => True

theorem Column.length_toNumpy (column : Column Number Item) :
    column.toNumpy.length = column.cells.length := by
  cases column with
  | ints values =>
    rw [toNumpy, cells]
    split <;> simp
  | numbers values => simp [toNumpy, cells]
  | items values => simp [toNumpy, cells]

/-- Row by row, what NumPy gives back equals what the store holds where it survives. -/
theorem Column.equals_iff (column : Column Number Item) (row : Nat) :
    (∀ stored ∈ column.cells[row]?, ∀ read ∈ column.toNumpy[row]?, stored.Equals read) ↔
      column.Survives row := by
  cases column with
  | ints values =>
    cases found : values[row]? with
    | none => simp [cells, toNumpy, Survives, found]
    | some value =>
      by_cases nullable : none ∈ values
      · cases value with
        | none => simp [cells, toNumpy, Survives, found, nullable, Cell.Equals]
        | some integer =>
          simp [cells, toNumpy, Survives, found, nullable, Cell.Equals, ← toDouble_iff, eq_comm]
      · cases value with
        | none => simp [cells, toNumpy, Survives, found, nullable, Cell.Equals]
        | some integer => simp [cells, toNumpy, Survives, found, nullable, Cell.Equals]
  | numbers values =>
    cases found : values[row]? with
    | none => simp [cells, toNumpy, Survives, found]
    | some value => cases value <;> simp [cells, toNumpy, Survives, found, Cell.Equals]
  | items values =>
    cases found : values[row]? with
    | none => simp [cells, toNumpy, Survives, found]
    | some value => cases value <;> simp [cells, toNumpy, Survives, found, Cell.Equals]

/-! ### Views -/

/-- A node store with rows, as far as a view reads it. -/
structure FeatureStore (Number Item : Type) where
  nids : List Nat
  columns : Dict String (Column Number Item)
  filled : nids ≠ []
  distinct : nids.Nodup
  aligned : ∀ column ∈ columns.values, column.cells.length = nids.length

/-- `OnlineFeatureView` -/
structure View (Number Item : Type) where
  features : List (String × List (Cell Number Item))
  nid_to_idx : Dict Nat Nat
deriving DecidableEq

/-- The array of a feature column. -/
def featureArray (store : FeatureStore Number Item) (name : String) :
    Except Raised (String × List (Cell Number Item)) :=
  match store.columns.get? name with
  | some column => .ok (name, column.toNumpy)
  | none => .error (.keyError name)

/-- `OnlineFeatureView(bundle, feature_columns=...)`; a name that occurs twice is ambiguous. -/
def openView (store : FeatureStore Number Item) (feature_columns : List String) :
    Except Raised (View Number Item) := do
  refuse (feature_columns = [])
    (.caracal { code := "CDB-6150", message := "feature_columns is empty" })
  refuse (¬ ("nid" :: feature_columns).Nodup) (.keyError "Field exists 2 times in schema")
  let features ← feature_columns.mapM (featureArray store)
  return {
    features
    nid_to_idx := store.nids.zipIdx.foldl (fun index entry => index.set entry.1 entry.2) Dict.empty }

/-- `view.lookup(nid)` -/
def View.lookup (view : View Number Item) (nid : Nat) : List (String × Cell Number Item) :=
  match view.nid_to_idx.get? nid with
  | none => []
  | some idx => view.features.map fun (name, arr) => (name, arr[idx]?.getD .null)

/-- The feature columns of `view.lookup_many(nids)` -/
def View.lookupMany (view : View Number Item) (nids : List Nat) :
    List (String × List (Cell Number Item)) :=
  let idx_arr := nids.map view.nid_to_idx.get?
  let idx_safe := idx_arr.map (·.getD 0)
  view.features.map fun (name, arr) =>
    let gathered := idx_safe.map fun idx => arr[idx]?.getD .null
    (name, (idx_arr.zip gathered).map fun (idx, cell) => if idx.isSome then cell else .null)

/-- What the store holds under an id: null when there is no such row. -/
def FeatureStore.stored (store : FeatureStore Number Item) (column : Column Number Item)
    (nid : Nat) : Cell Number Item :=
  if nid ∈ store.nids then column.cells[store.nids.idxOf nid]?.getD .null else .null

/-- Both lookups answer what the store holds. -/
structure View.Answers (view : View Number Item) (store : FeatureStore Number Item)
    (feature_columns : List String) (nids : List Nat) : Prop where
  columns : (view.lookupMany nids).map Prod.fst = feature_columns
  many : ∀ name answered, (name, answered) ∈ view.lookupMany nids →
    ∀ column, store.columns.get? name = some column → answered.length = nids.length ∧
      ∀ (row nid : Nat), nids[row]? = some nid → ∀ read ∈ answered[row]?,
        (store.stored column nid).Equals read
  unknown : ∀ nid ∈ nids, nid ∉ store.nids → view.lookup nid = []
  names : ∀ nid ∈ nids, nid ∈ store.nids → (view.lookup nid).map Prod.fst = feature_columns
  one : ∀ nid ∈ nids, nid ∈ store.nids → ∀ name read, (name, read) ∈ view.lookup nid →
    ∀ column, store.columns.get? name = some column → (store.stored column nid).Equals read

/-- Every value that is asked for survives NumPy. -/
def AskedSurvive (store : FeatureStore Number Item) (feature_columns : List String)
    (nids : List Nat) : Prop :=
  ∀ name ∈ feature_columns, ∀ column, store.columns.get? name = some column →
    ∀ nid ∈ nids, nid ∈ store.nids → column.Survives (store.nids.idxOf nid)

/-! ### What the lookups read -/

/-- What every step keeps of its item, the map keeps of all. -/
theorem map_of_mapM_ok {Error Entry Made Kept : Type} {make : Entry → Except Error Made}
    (keep : Made → Kept) (read : Entry → Kept)
    (each : ∀ item one, make item = .ok one → keep one = read item) {items : List Entry}
    {made : List Made} (done : items.mapM make = .ok made) : made.map keep = items.map read := by
  induction items generalizing made with
  | nil =>
    cases done
    rfl
  | cons item items inductionHypothesis =>
    rw [List.mapM_cons] at done
    obtain ⟨one, here, rest⟩ := except_bind_ok done
    obtain ⟨others, later, same⟩ := except_bind_ok rest
    cases same
    rw [List.map_cons, List.map_cons, each item one here, inductionHypothesis later]

/-- What is read of a known id equals what is stored where it survives. -/
theorem known_iff {store : FeatureStore Number Item} {column : Column Number Item} {name : String}
    (found : store.columns.get? name = some column) {nid : Nat} (known : nid ∈ store.nids) :
    (store.stored column nid).Equals (column.toNumpy[store.nids.idxOf nid]?.getD .null) ↔
      column.Survives (store.nids.idxOf nid) := by
  have length := store.aligned column ((Dict.mem_values _ _).mpr ⟨name, found⟩)
  have inside : store.nids.idxOf nid < column.cells.length := by
    rw [length]
    exact List.idxOf_lt_length_of_mem known
  have read : store.nids.idxOf nid < column.toNumpy.length := by rwa [column.length_toNumpy]
  rw [← column.equals_iff, FeatureStore.stored, if_pos known, List.getElem?_eq_getElem inside,
    List.getElem?_eq_getElem read]
  simp

section Opened

variable {store : FeatureStore Number Item} {feature_columns : List String}
  {view : View Number Item} (made : openView store feature_columns = .ok view)
include made

theorem openView_parts : feature_columns.mapM (featureArray store) = .ok view.features ∧
    view.nid_to_idx.entries = store.nids.zipIdx := by
  obtain ⟨_, _, next⟩ := except_bind_ok made
  obtain ⟨_, _, rest⟩ := except_bind_ok next
  obtain ⟨features, mapped, same⟩ := except_bind_ok rest
  cases same
  refine ⟨mapped, ?_⟩
  have keys : (store.nids.zipIdx.map Prod.fst).Nodup := by
    rw [List.zipIdx_map_fst]
    exact store.distinct
  exact Dict.entries_foldl_set store.nids.zipIdx keys Dict.empty fun _ _ => List.not_mem_nil

theorem get_idx (nid : Nat) : view.nid_to_idx.get? nid =
    if nid ∈ store.nids then some (store.nids.idxOf nid) else none := by
  have entries := (openView_parts made).2
  split
  · next known =>
    have inside := List.idxOf_lt_length_of_mem known
    rw [Dict.get_eq_some, entries, List.mem_zipIdx_iff_getElem?, List.getElem?_eq_getElem inside,
      List.getElem_idxOf inside]
  · next unknown =>
    rw [Dict.get_eq_none, Dict.keys, entries, List.zipIdx_map_fst]
    exact unknown

theorem features_names : view.features.map Prod.fst = feature_columns := by
  have kept := map_of_mapM_ok Prod.fst id (fun name feature found => by
    rw [featureArray] at found
    split at found
    · cases found
      rfl
    · cases found) (openView_parts made).1
  rwa [List.map_id] at kept

theorem mem_features (name : String) (arr : List (Cell Number Item)) :
    (name, arr) ∈ view.features ↔ name ∈ feature_columns ∧
      ∃ column, store.columns.get? name = some column ∧ arr = column.toNumpy := by
  rw [mem_of_mapM_ok (openView_parts made).1]
  constructor
  · rintro ⟨other, member, found⟩
    rw [featureArray] at found
    split at found
    · next column known =>
      cases found
      exact ⟨member, column, known, rfl⟩
    · cases found
  · rintro ⟨member, column, known, rfl⟩
    exact ⟨name, member, by rw [featureArray, known]⟩

theorem lookup_eq (nid : Nat) : view.lookup nid =
    if nid ∈ store.nids then
      view.features.map fun (name, arr) => (name, arr[store.nids.idxOf nid]?.getD .null)
    else [] := by
  rw [View.lookup, get_idx made]
  by_cases known : nid ∈ store.nids
  · simp [known]
  · simp [known]

/-- The placeholder that is gathered for an unknown id is masked again. -/
theorem lookupMany_eq (nids : List Nat) : view.lookupMany nids =
    view.features.map fun (name, arr) => (name, nids.map fun nid =>
      if nid ∈ store.nids then arr[store.nids.idxOf nid]?.getD .null else .null) := by
  rw [View.lookupMany]
  apply List.map_congr_left
  intro (name, arr) _
  rw [Prod.mk.injEq]
  refine ⟨rfl, ?_⟩
  rw [List.map_map, List.map_map, List.zip_map', List.map_map]
  apply List.map_congr_left
  intro nid _
  simp only [Function.comp_apply, get_idx made]
  by_cases known : nid ∈ store.nids
  · simp [known]
  · simp [known]

/-- The lookups answer what the store holds exactly when every value asked for survives NumPy. -/
theorem answers_iff (nids : List Nat) :
    view.Answers store feature_columns nids ↔ AskedSurvive store feature_columns nids := by
  constructor
  · intro right name member column found nid asked known
    rw [← known_iff found known]
    apply right.one nid asked known name _ _ column found
    rw [lookup_eq made, if_pos known]
    exact List.mem_map.mpr ⟨(name, column.toNumpy),
      (mem_features made name _).mpr ⟨member, column, found, rfl⟩, rfl⟩
  · intro survive
    refine { columns := ?_, many := ?_, unknown := ?_, names := ?_, one := ?_ }
    · rw [lookupMany_eq made, List.map_map]
      exact features_names made
    · intro name answered member column found
      rw [lookupMany_eq made] at member
      obtain ⟨⟨other, arr⟩, inside, same⟩ := List.mem_map.mp member
      obtain ⟨rfl, rfl⟩ := Prod.mk.inj same
      obtain ⟨listed, kept, foundKept, rfl⟩ := (mem_features made other arr).mp inside
      cases found.symm.trans foundKept
      refine ⟨List.length_map _, ?_⟩
      intro row nid asked read isRead
      rw [List.getElem?_map, asked] at isRead
      obtain rfl := Option.some.inj isRead
      by_cases known : nid ∈ store.nids
      · simp only [if_pos known]
        exact (known_iff found known).mpr (survive other listed column found nid
          (List.mem_of_getElem? asked) known)
      · simp only [if_neg known, FeatureStore.stored]
        rfl
    · intro nid _ unknown
      rw [lookup_eq made, if_neg unknown]
    · intro nid _ known
      rw [lookup_eq made, if_pos known, List.map_map]
      exact features_names made
    · intro nid asked known name read member column found
      rw [lookup_eq made, if_pos known] at member
      obtain ⟨⟨other, arr⟩, inside, same⟩ := List.mem_map.mp member
      obtain ⟨rfl, rfl⟩ := Prod.mk.inj same
      obtain ⟨listed, kept, foundKept, rfl⟩ := (mem_features made other arr).mp inside
      cases found.symm.trans foundKept
      exact (known_iff found known).mpr (survive other listed column found nid asked known)

end Opened

/-- Two people, one of whose ages is not known. -/
def ages : FeatureStore Unit Unit where
  nids := [0, 1]
  columns := Dict.ofEntries [("age", .ints [some 41, none])]
  filled := List.cons_ne_nil _ _
  distinct := by decide
  aligned := by
    intro column member
    rw [List.mem_singleton.mp member]
    rfl

def agesView : View Unit Unit where
  features := [("age", [.double 41, .nan])]
  nid_to_idx := Dict.ofEntries [(0, 0), (1, 1)]

theorem ages_opened : openView ages ["age"] = .ok agesView := by decide

theorem first_age : agesView.Answers ages ["age"] [0, 5] := by
  apply (answers_iff ages_opened [0, 5]).mpr
  intro name member column found nid asked known
  obtain rfl := List.mem_singleton.mp member
  cases found
  have first : nid = 0 := by
    simp only [ages, List.mem_cons, List.not_mem_nil, or_false] at asked known
    omega
  rw [first]
  intro _ value read
  cases read
  exact ⟨41, rfl, isDouble_of_small (by decide)⟩

/-- The age that is not known is answered as NaN. -/
theorem age_nan : ¬ ∀ (store : FeatureStore Unit Unit) (feature_columns : List String)
    (view : View Unit Unit), openView store feature_columns = .ok view →
      ∀ nids, view.Answers store feature_columns nids := by
  intro always
  have right := always ages ["age"] agesView ages_opened [1]
  have same := right.one 1 (by simp) (by simp [ages]) "age" .nan (by decide)
    (.ints [some 41, none]) rfl
  cases same

end CaracalDB.Online
