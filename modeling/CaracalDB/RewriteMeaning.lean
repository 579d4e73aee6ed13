import CaracalDB.LogicalRules
import CaracalDB.Loops

/-!
# What rewritten plans mean

A plan is evaluated over the tables of its classes: a scan gives the rows of a table with
the columns that it reads, and every operator makes rows of the rows below it. A literal is
not evaluated, whatever it is made of. The rules walk it as any other tuple, and take what
looks like a reference inside it for a column.
-/

namespace CaracalDB.Logical

/-! ## Columns that an expression refers to -/

mutual

/-- The columns that the value of an expression depends on. -/
def refersTo : Obj → Finset String
  | .tuple (.str head :: rest) =>
      match columnRef head rest with
      | some name => {name}
      | none => if head = "lit" then ∅ else refersToIn rest
  | .tuple items => refersToIn items
  | _ => ∅

def refersToIn : List Obj → Finset String
  | [] => ∅
  | item :: items => refersTo item ∪ refersToIn items

end

abbrev Row (Val : Type) := String → Option Val

/-- Rows, and the columns that they have. -/
structure Relation (Val : Type) where
  columns : Finset String
  rows : List (Row Val)

/-- The same rows with some of the columns. -/
def Relation.onto {Val : Type} (relation : Relation Val) (columns : Finset String) : Relation Val where
  columns
  rows := relation.rows.map fun row name => if name ∈ columns then row name else none

/-- What operators mean that the rules do not look into. -/
structure Meaning (Val : Type) where
  null : Val
  /-- The value of a literal, and of an object that is no expression. -/
  literal : List Obj → Val
  apply : String → List Val → Val
  holds : Val → Bool
  /-- The places of rows in their new order, by the values of their keys. -/
  arrange : List (List (Val × Bool)) → List Nat
  keyName : Obj → String
  /-- The rows of groups, by the values of the keys and of the arguments in each row. -/
  aggregate : List Obj → List (String × Obj × String) → List (List Val × List Val) → List (Row Val)
  expandColumns : Expand → Finset String → Finset String
  expand : Expand → Relation Val → Except Raised (Relation Val)
  joinColumns : Join → Finset String → Finset String → Finset String
  join : Join → Relation Val → Relation Val → Except Raised (Relation Val)

section Meaning

variable {Val : Type} (m : Meaning Val)

mutual

/-- The value of an expression in a row. -/
def Meaning.value (row : Row Val) : Obj → Val
  | .tuple (.str head :: rest) =>
      match columnRef head rest with
      | some name => (row name).getD m.null
      | none => if head = "lit" then m.literal rest else m.apply head (Meaning.values row rest)
  | .tuple items => m.apply "" (Meaning.values row items)
  | .str text => m.literal [.str text]
  | .other value => m.literal [.other value]

def Meaning.values (row : Row Val) : List Obj → List Val
  | [] => []
  | item :: items => Meaning.value row item :: Meaning.values row items

end

/-! ## Operators -/

namespace Meaning

def select (predicate : Obj) (relation : Relation Val) : Relation Val :=
  { relation with rows := relation.rows.filter fun row => m.holds (m.value row predicate) }

def project (projections : List (Obj × String)) (relation : Relation Val) : Relation Val where
  columns := (projections.map Prod.snd).toFinset
  rows := relation.rows.map fun row name =>
    (projections.find? fun projection => projection.2 = name).map fun projection =>
      m.value row projection.1

def aggregateColumns (group_keys : List Obj) (aggregates : List (String × Obj × String)) :
    Finset String :=
  (group_keys.map m.keyName ++ aggregates.map fun one => one.2.2).toFinset

def group (group_keys : List Obj) (aggregates : List (String × Obj × String))
    (relation : Relation Val) : Relation Val where
  columns := m.aggregateColumns group_keys aggregates
  rows := m.aggregate group_keys aggregates (relation.rows.map fun row =>
    (group_keys.map (m.value row), aggregates.map fun one => m.value row one.2.1))

def sort (keys : List (Obj × Bool)) (relation : Relation Val) : Relation Val :=
  { relation with
    rows := (m.arrange (relation.rows.map fun row =>
      keys.map fun key => (m.value row key.1, key.2))).filterMap (relation.rows[·]?) }

end Meaning

def Relation.window (relation : Relation Val) (limit offset : Int) : Relation Val :=
  { relation with rows := (relation.rows.drop offset.toNat).take limit.toNat }

/-- A scan raises for a column that the table of its class lacks. -/
def scanTable (tables : String → Relation Val) (scan : NodeScan) : Except Raised (Relation Val) :=
  match scan.columns with
  | none => .ok (tables scan.class_iri)
  | some columns =>
      match columns.find? fun name => name ∉ (tables scan.class_iri).columns with
      | some name => .error (.keyError name)
      | none => .ok ((tables scan.class_iri).onto columns.toFinset)

/-- The rows of a plan. -/
def evaluate (tables : String → Relation Val) : LogicalOp → Except Raised (Relation Val)
  | .nodeScan scan => scanTable tables scan
  | .selection child predicate => do
      return m.select predicate (← evaluate tables child)
  | .project child projections => do
      return m.project projections (← evaluate tables child)
  | .aggregate child group_keys aggregates => do
      return m.group group_keys aggregates (← evaluate tables child)
  | .orderBy child keys => do
      return m.sort keys (← evaluate tables child)
  | .limit child limit offset => do
      return (← evaluate tables child).window limit offset
  | .expand child params => do
      m.expand params (← evaluate tables child)
  | .join left right params => do
      m.join params (← evaluate tables left) (← evaluate tables right)

/-! ## Plans that refer to columns -/

variable (schema : String → Finset String)

/-- The columns that a scan reads. -/
def reads (scan : NodeScan) : Finset String :=
  match scan.columns with
  | none => schema scan.class_iri
  | some columns => columns.toFinset

/-- The columns that a plan produces. -/
def produces : LogicalOp → Finset String
  | .nodeScan scan => reads schema scan
  | .selection child _ => produces child
  | .project _ projections => (projections.map Prod.snd).toFinset
  | .aggregate _ group_keys aggregates => m.aggregateColumns group_keys aggregates
  | .orderBy child _ => produces child
  | .limit child _ _ => produces child
  | .expand child params => m.expandColumns params (produces child)
  | .join left right params => m.joinColumns params (produces left) (produces right)

def Obj.IsTuple : Obj → Prop
  | .tuple _ => True
  | _ => False

/-- Every expression is a tuple that refers only to columns that the child produces, and every scan
reads columns that the table of its class has. -/
def Formed : LogicalOp → Prop
  | .nodeScan scan => reads schema scan ⊆ schema scan.class_iri
  | .selection child predicate => Formed child ∧ refersTo predicate ⊆ produces m schema child
  | .project child projections => Formed child ∧
      ∀ projection ∈ projections, projection.1.IsTuple ∧
        refersTo projection.1 ⊆ produces m schema child
  | .aggregate child group_keys aggregates => Formed child ∧
      (∀ key ∈ group_keys, refersTo key ⊆ produces m schema child) ∧
      ∀ one ∈ aggregates, refersTo one.2.1 ⊆ produces m schema child
  | .orderBy child keys => Formed child ∧ ∀ key ∈ keys, refersTo key.1 ⊆ produces m schema child
  | .limit child _ _ => Formed child
  | .expand child _ => Formed child
  | .join left right _ => Formed left ∧ Formed right

/-- The columns that the rules find where they rewrite a scan are columns of its class; under a
selection that is not below a projection or an aggregation, a scan of some columns reads them. -/
def Harmless (hidden : Bool) : LogicalOp → Prop
  | .project (.nodeScan scan) projections => projectionColumns projections ⊆ schema scan.class_iri
  | .project (.selection (.nodeScan scan) predicate) projections =>
      projectionColumns projections ∪ columnsUsed predicate ⊆ schema scan.class_iri
  | .selection (.nodeScan scan) predicate =>
      scan.columns = none ∨
        columnsUsed predicate ⊆ if hidden then schema scan.class_iri else reads schema scan
  | .selection child _ => Harmless hidden child
  | .project child _ => Harmless true child
  | .aggregate child _ _ => Harmless true child
  | .orderBy child _ => Harmless hidden child
  | .limit child _ _ => Harmless hidden child
  | _ => True

end Meaning

/-! ## Rows that agree -/

/-- Two rows with the same values in some columns. -/
def SameOn {Val : Type} (columns : Finset String) (left right : Row Val) : Prop :=
  ∀ name ∈ columns, left name = right name

/-- The rows of two relations have the same values in some columns. -/
def Agree {Val : Type} (columns : Finset String) (left right : Relation Val) : Prop :=
  List.Forall₂ (SameOn columns) left.rows right.rows

section Values

variable {Val : Type} (m : Meaning Val)

mutual

/-- The walk over an expression finds what the expression refers to. -/
theorem refersTo_subset : (expr : Obj) → refersTo expr ⊆ columnsUsed expr
  | .tuple (.str head :: rest) => by
      rw [refersTo, columnsUsed]
      cases columnRef head rest with
      | some name => exact Finset.Subset.refl _
      | none =>
        dsimp only
        split
        · exact Finset.empty_subset _
        · exact refersToIn_subset rest
  | .tuple [] => by simp [refersTo, refersToIn]
  | .tuple (.tuple items :: rest) => by
      simpa only [refersTo, columnsUsed] using refersToIn_subset (.tuple items :: rest)
  | .tuple (.other value :: rest) => by
      simpa only [refersTo, columnsUsed] using refersToIn_subset (.other value :: rest)
  | .str _ => by simp [refersTo]
  | .other _ => by simp [refersTo]

theorem refersToIn_subset : (items : List Obj) → refersToIn items ⊆ columnsUsedIn items
  | [] => by simp [refersToIn]
  | item :: items => by
      rw [refersToIn, columnsUsedIn]
      exact Finset.union_subset_union (refersTo_subset item) (refersToIn_subset items)

end

mutual

/-- The value of an expression is the same in rows that agree on what it refers to. -/
theorem value_congr {left right : Row Val} : (expr : Obj) → SameOn (refersTo expr) left right →
    m.value left expr = m.value right expr
  | .tuple (.str head :: rest), same => by
      rw [refersTo] at same
      rw [Meaning.value, Meaning.value]
      cases named : columnRef head rest with
      | some name =>
        rw [named] at same
        exact congrArg (·.getD m.null) (same name (Finset.mem_singleton_self name))
      | none =>
        rw [named] at same
        dsimp only at same ⊢
        split
        · rfl
        · rename_i operator
          rw [if_neg operator] at same
          rw [values_congr rest same]
  | .tuple [], _ => by simp [Meaning.value, Meaning.values]
  | .tuple (.tuple items :: rest), same => by
      simp only [refersTo] at same
      simp only [Meaning.value]
      rw [values_congr (.tuple items :: rest) same]
  | .tuple (.other value :: rest), same => by
      simp only [refersTo] at same
      simp only [Meaning.value]
      rw [values_congr (.other value :: rest) same]
  | .str _, _ => by simp [Meaning.value]
  | .other _, _ => by simp [Meaning.value]

theorem values_congr {left right : Row Val} : (items : List Obj) →
    SameOn (refersToIn items) left right → m.values left items = m.values right items
  | [], _ => by simp [Meaning.values]
  | item :: items, same => by
      rw [refersToIn] at same
      rw [Meaning.values, Meaning.values,
        value_congr item fun name member => same name (Finset.mem_union_left _ member),
        values_congr items fun name member => same name (Finset.mem_union_right _ member)]

end

/-- The walk over tuples finds what is found in each. -/
theorem mem_columnsUsedIn {items : List Obj} {name : String} :
    name ∈ columnsUsedIn items ↔ ∃ item ∈ items, name ∈ columnsUsed item := by
  induction items with
  | nil => simp [columnsUsedIn]
  | cons item items inductionHypothesis =>
    rw [columnsUsedIn, Finset.mem_union, inductionHypothesis]
    simp

/-- The expressions of a projection are walked one by one. -/
theorem projectionColumns_eq {projections : List (Obj × String)}
    (tuples : ∀ projection ∈ projections, projection.1.IsTuple) :
    projectionColumns projections = columnsUsedIn (projections.map Prod.fst) := by
  rw [projectionColumns, columnsUsed]
  intro head rest starts
  have first : Obj.str head ∈ projections.map Prod.fst := starts ▸ List.mem_cons_self
  obtain ⟨projection, member, same⟩ := List.mem_map.mp first
  have tuple := tuples projection member
  rw [same] at tuple
  exact tuple

/-- A projection refers to columns that the walk finds. -/
theorem refersTo_projection {projections : List (Obj × String)}
    (tuples : ∀ projection ∈ projections, projection.1.IsTuple) {projection : Obj × String}
    (member : projection ∈ projections) :
    refersTo projection.1 ⊆ projectionColumns projections := by
  intro name among
  rw [projectionColumns_eq tuples, mem_columnsUsedIn]
  exact ⟨projection.1, List.mem_map_of_mem member, refersTo_subset projection.1 among⟩

end Values

section Agreement

variable {Val : Type} {columns more : Finset String} {left middle right : Relation Val}

theorem SameOn.mono {first second : Row Val} (among : columns ⊆ more)
    (same : SameOn more first second) : SameOn columns first second :=
  fun name member => same name (among member)

theorem Agree.refl (columns : Finset String) (relation : Relation Val) :
    Agree columns relation relation :=
  List.forall₂_same.mpr fun _ _ _ _ => rfl

theorem Agree.symm (agree : Agree columns left right) : Agree columns right left :=
  agree.flip.imp fun _ _ same name member => (same name member).symm

theorem Agree.trans (first : Agree columns left middle) (second : Agree columns middle right) :
    Agree columns left right := by
  rw [Agree] at first second ⊢
  generalize left.rows = starts at first ⊢
  generalize middle.rows = centers at first second
  generalize right.rows = last at second ⊢
  induction first generalizing last with
  | nil =>
    cases second
    exact List.Forall₂.nil
  | cons same _ inductionHypothesis =>
    cases second with
    | cons further rest =>
      exact .cons (fun name member => (same name member).trans (further name member))
        (inductionHypothesis _ rest)

theorem Agree.mono (among : columns ⊆ more) (agree : Agree more left right) :
    Agree columns left right :=
  agree.imp fun _ _ same => same.mono among

/-- What is read off rows that agree is the same. -/
theorem map_of_agree {Made : Type} {make : Row Val → Made}
    (reads : ∀ first second, SameOn columns first second → make first = make second)
    (agree : Agree columns left right) : left.rows.map make = right.rows.map make := by
  rw [Agree] at agree
  generalize left.rows = firsts at agree ⊢
  generalize right.rows = seconds at agree ⊢
  induction agree with
  | nil => rfl
  | cons same _ inductionHypothesis =>
    rw [List.map_cons, List.map_cons, reads _ _ same, inductionHypothesis]

/-- Rows at one place agree. -/
theorem getElem_agree (agree : Agree columns left right) (place : Nat) :
    Option.Rel (SameOn columns) left.rows[place]? right.rows[place]? := by
  rw [Agree] at agree
  generalize left.rows = firsts at agree ⊢
  generalize right.rows = seconds at agree ⊢
  induction agree generalizing place with
  | nil => exact .none
  | cons same _ inductionHypothesis =>
    cases place with
    | zero => exact .some same
    | succ place => exact inductionHypothesis place

theorem agree_onto (among : columns ⊆ more) (relation : Relation Val) :
    Agree columns relation (relation.onto more) := by
  rw [Agree, Relation.onto, List.forall₂_map_right_iff]
  apply List.forall₂_same.mpr
  intro row _ name member
  exact (if_pos (among member)).symm

variable (m : Meaning Val)

theorem select_agree {predicate : Obj} (refers : refersTo predicate ⊆ columns)
    (agree : Agree columns left right) :
    Agree columns (m.select predicate left) (m.select predicate right) := by
  refine List.rel_filter (fun first second same => ?_) agree
  have values := value_congr m predicate (same.mono refers)
  dsimp only
  rw [values]

theorem window_agree (limit offset : Int) (agree : Agree columns left right) :
    Agree columns (left.window limit offset) (right.window limit offset) :=
  List.forall₂_take _ (List.forall₂_drop _ agree)

theorem sort_agree {keys : List (Obj × Bool)} (refers : ∀ key ∈ keys, refersTo key.1 ⊆ columns)
    (agree : Agree columns left right) : Agree columns (m.sort keys left) (m.sort keys right) := by
  have values : ∀ first second : Row Val, SameOn columns first second →
      keys.map (fun key => (m.value first key.1, key.2)) =
        keys.map fun key => (m.value second key.1, key.2) := by
    intro first second same
    apply List.map_congr_left
    intro key member
    rw [value_congr m key.1 (same.mono (refers key member))]
  rw [Agree, Meaning.sort, Meaning.sort, map_of_agree values agree]
  refine List.rel_filterMap (R := Eq) ?_ (List.forall₂_same.mpr fun _ _ => rfl)
  rintro place _ rfl
  exact getElem_agree agree place

theorem project_agree {projections : List (Obj × String)}
    (refers : ∀ projection ∈ projections, refersTo projection.1 ⊆ columns)
    (agree : Agree columns left right) :
    m.project projections left = m.project projections right := by
  rw [Meaning.project, Meaning.project]
  congr 1
  refine map_of_agree (fun first second same => ?_) agree
  funext name
  cases found : projections.find? fun projection => projection.2 = name with
  | none => rfl
  | some projection =>
    have member := List.mem_of_find?_eq_some found
    exact congrArg some (value_congr m projection.1 (same.mono (refers projection member)))

theorem group_agree {group_keys : List Obj} {aggregates : List (String × Obj × String)}
    (keys : ∀ key ∈ group_keys, refersTo key ⊆ columns)
    (arguments : ∀ one ∈ aggregates, refersTo one.2.1 ⊆ columns)
    (agree : Agree columns left right) :
    m.group group_keys aggregates left = m.group group_keys aggregates right := by
  rw [Meaning.group, Meaning.group]
  congr 2
  refine map_of_agree (fun first second same => Prod.ext ?_ ?_) agree
  · exact List.map_congr_left fun key member => value_congr m key (same.mono (keys key member))
  · exact List.map_congr_left fun one member =>
      value_congr m one.2.1 (same.mono (arguments one member))

end Agreement

/-! ## Scans -/

section Scans

variable {Val : Type} (tables : String → Relation Val) (scan : NodeScan)

/-- The columns of the tables. -/
def columnsOf (class_iri : String) : Finset String := (tables class_iri).columns

/-- A scan of columns that the table has. -/
theorem scanTable_ok {columns : List String} (listed : scan.columns = some columns)
    (known : columns.toFinset ⊆ columnsOf tables scan.class_iri) :
    scanTable tables scan = .ok ((tables scan.class_iri).onto columns.toFinset) := by
  have none_missing : columns.find? (fun name => name ∉ (tables scan.class_iri).columns) = none := by
    rw [List.find?_eq_none]
    intro name member
    have inside : name ∈ (tables scan.class_iri).columns := known (List.mem_toFinset.mpr member)
    simpa using inside
  rw [scanTable, listed]
  simp only [none_missing]

/-- A scan of a column that the table lacks. -/
theorem scanTable_error {columns : List String} (listed : scan.columns = some columns)
    (unknown : ¬ columns.toFinset ⊆ columnsOf tables scan.class_iri) :
    ∃ raised, scanTable tables scan = .error raised := by
  rw [scanTable, listed]
  simp only
  cases missing : columns.find? fun name => name ∉ (tables scan.class_iri).columns with
  | some name => exact ⟨_, rfl⟩
  | none =>
    refine (unknown fun name member => ?_).elim
    have found := List.find?_eq_none.mp missing name (List.mem_toFinset.mp member)
    have inside : name ∈ (tables scan.class_iri).columns := by simpa using found
    exact inside

/-- A scan that is well formed gives the rows of its table. -/
theorem scanTable_formed
    (known : reads (columnsOf tables) scan ⊆ columnsOf tables scan.class_iri) :
    ∃ relation, scanTable tables scan = .ok relation ∧
      relation.columns = reads (columnsOf tables) scan ∧
      Agree (reads (columnsOf tables) scan) (tables scan.class_iri) relation := by
  cases listed : scan.columns with
  | none =>
    have all : reads (columnsOf tables) scan = columnsOf tables scan.class_iri := by
      rw [reads, listed]
    rw [all, scanTable, listed]
    exact ⟨_, rfl, rfl, Agree.refl _ _⟩
  | some columns =>
    have some_columns : reads (columnsOf tables) scan = columns.toFinset := by rw [reads, listed]
    rw [some_columns] at known ⊢
    exact ⟨_, scanTable_ok tables scan listed known, rfl, agree_onto (Finset.Subset.refl _) _⟩

/-- A restricted scan gives the rows of its table if the table has the columns. -/
theorem scanTable_restrict {wanted : Finset String} (some_wanted : wanted ≠ ∅) :
    (wanted ⊆ columnsOf tables scan.class_iri →
      scanTable tables (restrict scan wanted) = .ok ((tables scan.class_iri).onto wanted)) ∧
    (¬ wanted ⊆ columnsOf tables scan.class_iri →
      ∃ raised, scanTable tables (restrict scan wanted) = .error raised) := by
  rw [restrict_of_ne scan some_wanted]
  constructor
  · intro known
    have read := scanTable_ok tables { scan with columns := some (wanted.sort (· ≤ ·)) } rfl
      (by rwa [Finset.sort_toFinset])
    rwa [Finset.sort_toFinset] at read
  · intro unknown
    exact scanTable_error tables { scan with columns := some (wanted.sort (· ≤ ·)) } rfl
      (by rwa [Finset.sort_toFinset])

end Scans

/-! ## Evaluating rewritten plans -/

section Rewriting

variable {Val : Type} (m : Meaning Val) (tables : String → Relation Val)

/-- Rewriting keeps the columns of a plan, and all its columns if nothing hides them. -/
def Kept (hidden : Bool) (plan : LogicalOp) : Prop :=
  rewritten plan = plan ∨ ∃ before after, evaluate m tables plan = .ok before ∧
    evaluate m tables (rewritten plan) = .ok after ∧
    Agree (produces m (columnsOf tables) plan) before after ∧ (hidden = false → after = before)

/-- The rewritten plan raises, or has other columns that nothing hides. -/
def Lost (hidden : Bool) (plan : LogicalOp) : Prop :=
  ∃ before, evaluate m tables plan = .ok before ∧
    ((∃ raised, evaluate m tables (rewritten plan) = .error raised) ∨
      hidden = false ∧ ∃ after, evaluate m tables (rewritten plan) = .ok after ∧
        after.columns ≠ before.columns)

variable {m tables}

theorem Kept.of_eq {hidden : Bool} {plan : LogicalOp} {relation : Relation Val}
    (before : evaluate m tables plan = .ok relation)
    (after : evaluate m tables (rewritten plan) = .ok relation) : Kept m tables hidden plan :=
  .inr ⟨relation, relation, before, after, Agree.refl _ _, fun _ => rfl⟩

/-- A scan of other columns gives the same values in the columns that both read. -/
theorem agree_read {reading more columns : Finset String} {table before : Relation Val}
    (agree : Agree reading table before) (among : columns ⊆ reading) (further : columns ⊆ more) :
    Agree columns before (table.onto more) :=
  (agree.mono among).symm.trans (agree_onto further table)

/-- A projection over a scan that is restricted to what the walk finds. -/
theorem dichotomy_project_scan (hidden : Bool) {scan : NodeScan}
    {projections : List (Obj × String)}
    (formed : Formed m (columnsOf tables) (.project (.nodeScan scan) projections)) :
    (projectionColumns projections ⊆ columnsOf tables scan.class_iri →
      Kept m tables hidden (.project (.nodeScan scan) projections)) ∧
    (¬ projectionColumns projections ⊆ columnsOf tables scan.class_iri →
      Lost m tables hidden (.project (.nodeScan scan) projections)) := by
  obtain ⟨known, refers⟩ := formed
  obtain ⟨before, scanned, _, agree⟩ := scanTable_formed tables scan known
  have original : evaluate m tables (.project (.nodeScan scan) projections) =
      .ok (m.project projections before) := by
    rw [evaluate, evaluate, scanned]
    rfl
  have result : rewritten (.project (.nodeScan scan) projections) =
      .project (.nodeScan (restrict scan (projectionColumns projections))) projections := by
    rw [rewritten]
  by_cases empty : projectionColumns projections = ∅
  · refine ⟨fun _ => .inl (by rw [result, empty, restrict_empty]), fun unknown => ?_⟩
    exact (unknown (empty ▸ Finset.empty_subset _)).elim
  · obtain ⟨reads_ok, reads_error⟩ := scanTable_restrict tables scan empty
    constructor
    · intro inside
      have same : m.project projections before =
          m.project projections ((tables scan.class_iri).onto (projectionColumns projections)) := by
        refine project_agree m (fun projection member => ?_)
          (agree_read agree Finset.inter_subset_left Finset.inter_subset_right)
        exact Finset.subset_inter (refers projection member).2
          (refersTo_projection (fun projection member => (refers projection member).1) member)
      apply Kept.of_eq original
      rw [result, evaluate, evaluate, reads_ok inside, same]
      rfl
    · intro unknown
      obtain ⟨raised, fails⟩ := reads_error unknown
      refine ⟨_, original, .inl ⟨raised, ?_⟩⟩
      rw [result, evaluate, evaluate, fails]
      rfl

/-- A widened scan gives the rows of its table if the table has the columns. -/
theorem scanTable_widen (tables : String → Relation Val) {scan : NodeScan} {columns : List String}
    (listed : scan.columns = some columns) (predicate : Obj) :
    (columns.toFinset ∪ columnsUsed predicate ⊆ columnsOf tables scan.class_iri →
      scanTable tables (widen scan predicate) =
        .ok ((tables scan.class_iri).onto (columns.toFinset ∪ columnsUsed predicate))) ∧
    (¬ columns.toFinset ∪ columnsUsed predicate ⊆ columnsOf tables scan.class_iri →
      ∃ raised, scanTable tables (widen scan predicate) = .error raised) := by
  have shown : (widen scan predicate).columns =
      some ((columns.toFinset ∪ columnsUsed predicate).sort (· ≤ ·)) := by
    rw [widen, listed]
    rfl
  constructor
  · intro known
    have read := scanTable_ok tables _ shown (by rwa [Finset.sort_toFinset])
    rwa [Finset.sort_toFinset] at read
  · intro unknown
    exact scanTable_error tables _ shown (by rwa [Finset.sort_toFinset])

/-- A scan that is widened by columns it reads anyway. -/
theorem scanTable_widen_same {scan : NodeScan} {predicate : Obj}
    (known : reads (columnsOf tables) scan ⊆ columnsOf tables scan.class_iri)
    (found : scan.columns = none ∨ columnsUsed predicate ⊆ reads (columnsOf tables) scan) :
    scanTable tables (widen scan predicate) = scanTable tables scan := by
  cases listed : scan.columns with
  | none =>
    have same : widen scan predicate = scan := by
      obtain ⟨class_iri, local_name, alias_name, columns⟩ := scan
      cases listed
      rfl
    rw [same]
  | some columns =>
    have reading : reads (columnsOf tables) scan = columns.toFinset := by rw [reads, listed]
    rw [reading] at known found
    have inside := found.resolve_left (by simp [listed])
    have same := Finset.union_eq_left.mpr inside
    rw [scanTable_ok tables scan listed known,
      (scanTable_widen tables listed predicate).1 (by rwa [same]), same]

/-- A projection over a selection of a scan, with what the walk finds in both. -/
theorem dichotomy_project_selection (hidden : Bool) {scan : NodeScan} {predicate : Obj}
    {projections : List (Obj × String)}
    (formed : Formed m (columnsOf tables)
      (.project (.selection (.nodeScan scan) predicate) projections)) :
    (projectionColumns projections ∪ columnsUsed predicate ⊆ columnsOf tables scan.class_iri →
      Kept m tables hidden (.project (.selection (.nodeScan scan) predicate) projections)) ∧
    (¬ projectionColumns projections ∪ columnsUsed predicate ⊆ columnsOf tables scan.class_iri →
      Lost m tables hidden (.project (.selection (.nodeScan scan) predicate) projections)) := by
  obtain ⟨⟨known, selects⟩, refers⟩ := formed
  obtain ⟨before, scanned, _, agree⟩ := scanTable_formed tables scan known
  have original : evaluate m tables (.project (.selection (.nodeScan scan) predicate) projections) =
      .ok (m.project projections (m.select predicate before)) := by
    rw [evaluate, evaluate, evaluate, scanned]
    rfl
  let wanted := projectionColumns projections ∪ columnsUsed predicate
  have result : rewritten (.project (.selection (.nodeScan scan) predicate) projections) =
      .project (.selection (.nodeScan (restrict (widen scan predicate) wanted)) predicate)
        projections := by
    rw [rewritten]
  by_cases empty : wanted = ∅
  · have nothing : columnsUsed predicate = ∅ := (Finset.union_eq_empty.mp empty).2
    refine ⟨fun _ => .of_eq original ?_, fun unknown => ?_⟩
    · rw [result, empty, restrict_empty, evaluate, evaluate, evaluate,
        scanTable_widen_same known (.inr (nothing ▸ Finset.empty_subset _)), scanned]
      rfl
    · exact (unknown (show wanted ⊆ _ from empty ▸ Finset.empty_subset _)).elim
  · obtain ⟨reads_ok, reads_error⟩ := scanTable_restrict tables (widen scan predicate)
      empty
    constructor
    · intro inside
      have both : reads (columnsOf tables) scan ∩ wanted ⊆ wanted := Finset.inter_subset_right
      have rows := select_agree m (Finset.subset_inter selects
        ((refersTo_subset predicate).trans Finset.subset_union_right))
        (agree_read agree Finset.inter_subset_left both)
      have same := project_agree m (fun projection member => Finset.subset_inter
        (refers projection member).2 ((refersTo_projection
          (fun projection member => (refers projection member).1) member).trans
            Finset.subset_union_left)) rows
      apply Kept.of_eq original
      rw [result, evaluate, evaluate, evaluate, reads_ok inside, same]
      rfl
    · intro unknown
      obtain ⟨raised, fails⟩ := reads_error unknown
      refine ⟨_, original, .inl ⟨raised, ?_⟩⟩
      rw [result, evaluate, evaluate, evaluate, fails]
      rfl

/-- A selection of a scan with its columns and those that the walk finds. -/
theorem dichotomy_selection (hidden : Bool) {scan : NodeScan} {predicate : Obj}
    (formed : Formed m (columnsOf tables) (.selection (.nodeScan scan) predicate)) :
    (Harmless (columnsOf tables) hidden (.selection (.nodeScan scan) predicate) →
      Kept m tables hidden (.selection (.nodeScan scan) predicate)) ∧
    (¬ Harmless (columnsOf tables) hidden (.selection (.nodeScan scan) predicate) →
      Lost m tables hidden (.selection (.nodeScan scan) predicate)) := by
  obtain ⟨known, selects⟩ := formed
  obtain ⟨before, scanned, names, agree⟩ := scanTable_formed tables scan known
  have original : evaluate m tables (.selection (.nodeScan scan) predicate) =
      .ok (m.select predicate before) := by
    rw [evaluate, evaluate, scanned]
    rfl
  have result : rewritten (.selection (.nodeScan scan) predicate) =
      .selection (.nodeScan (widen scan predicate)) predicate := by
    rw [rewritten]
  rw [Harmless]
  by_cases inside : scan.columns = none ∨ columnsUsed predicate ⊆ reads (columnsOf tables) scan
  · have kept : Kept m tables hidden (.selection (.nodeScan scan) predicate) := by
      apply Kept.of_eq original
      rw [result, evaluate, evaluate, scanTable_widen_same known inside, scanned]
      rfl
    refine ⟨fun _ => kept, fun harmful => (harmful (inside.imp_right fun among => ?_)).elim⟩
    cases hidden with
    | false => exact among
    | true => exact among.trans known
  · obtain ⟨listed, unread⟩ := not_or.mp inside
    obtain ⟨columns, listed⟩ := Option.ne_none_iff_exists'.mp listed
    have reading : reads (columnsOf tables) scan = columns.toFinset := by rw [reads, listed]
    obtain ⟨reads_ok, reads_error⟩ := scanTable_widen tables listed predicate
    by_cases stored : columns.toFinset ∪ columnsUsed predicate ⊆ columnsOf tables scan.class_iri
    · have widened : evaluate m tables (rewritten (.selection (.nodeScan scan) predicate)) = .ok
          (m.select predicate ((tables scan.class_iri).onto
            (columns.toFinset ∪ columnsUsed predicate))) := by
        rw [result, evaluate, evaluate, reads_ok stored]
        rfl
      constructor
      · intro harmless
        cases hidden with
        | false => exact (inside harmless).elim
        | true =>
          refine .inr ⟨_, _, original, widened, ?_, fun clash => by cases clash⟩
          exact select_agree m selects (agree_read agree (Finset.Subset.refl _)
            (reading ▸ Finset.subset_union_left))
      · intro harmful
        cases hidden with
        | true => exact (harmful (.inr (Finset.subset_union_right.trans stored))).elim
        | false =>
          refine ⟨_, original, .inr ⟨rfl, _, widened, fun same => unread ?_⟩⟩
          have all : columns.toFinset ∪ columnsUsed predicate = reads (columnsOf tables) scan :=
            same.trans names
          exact all ▸ Finset.subset_union_right
    · obtain ⟨raised, fails⟩ := reads_error stored
      constructor
      · intro harmless
        refine (stored (Finset.union_subset (reading ▸ known) ?_)).elim
        have among := harmless.resolve_left (by simp [listed])
        cases hidden with
        | false => exact among.trans known
        | true => exact among
      · intro _
        refine ⟨_, original, .inl ⟨raised, ?_⟩⟩
        rw [result, evaluate, evaluate, fails]
        rfl

/-- An operator that keeps the columns of its child. -/
theorem step_open {child : LogicalOp} (hidden : Bool) (op : LogicalOp → LogicalOp)
    (make : Relation Val → Relation Val)
    (evaluates : ∀ plan, evaluate m tables (op plan) =
      evaluate m tables plan >>= fun relation => .ok (make relation))
    (result : rewritten (op child) = op (rewritten child))
    (keeps : ∀ relation, (make relation).columns = relation.columns)
    (produced : produces m (columnsOf tables) (op child) = produces m (columnsOf tables) child)
    (agrees : ∀ before after, Agree (produces m (columnsOf tables) child) before after →
      Agree (produces m (columnsOf tables) child) (make before) (make after)) :
    (Kept m tables hidden child → Kept m tables hidden (op child)) ∧
      (Lost m tables hidden child → Lost m tables hidden (op child)) := by
  constructor
  · rintro (same | ⟨before, after, original, changed, agree, equal⟩)
    · exact .inl (by rw [result, same])
    · refine .inr ⟨make before, make after, by rw [evaluates, original]; rfl,
        by rw [result, evaluates, changed]; rfl, ?_, fun seen => congrArg make (equal seen)⟩
      rw [produced]
      exact agrees before after agree
  · rintro ⟨before, original, ⟨raised, fails⟩ | ⟨seen, after, changed, differ⟩⟩
    · exact ⟨make before, by rw [evaluates, original]; rfl,
        .inl ⟨raised, by rw [result, evaluates, fails]; rfl⟩⟩
    · refine ⟨make before, by rw [evaluates, original]; rfl,
        .inr ⟨seen, make after, by rw [result, evaluates, changed]; rfl, ?_⟩⟩
      rwa [keeps, keeps]

/-- An operator that gives columns of its own. -/
theorem step_close {child : LogicalOp} (hidden : Bool) (op : LogicalOp → LogicalOp)
    (make : Relation Val → Relation Val)
    (evaluates : ∀ plan, evaluate m tables (op plan) =
      evaluate m tables plan >>= fun relation => .ok (make relation))
    (result : rewritten (op child) = op (rewritten child))
    (agrees : ∀ before after, Agree (produces m (columnsOf tables) child) before after →
      make before = make after) :
    (Kept m tables true child → Kept m tables hidden (op child)) ∧
      (Lost m tables true child → Lost m tables hidden (op child)) := by
  constructor
  · rintro (same | ⟨before, after, original, changed, agree, _⟩)
    · exact .inl (by rw [result, same])
    · have made : evaluate m tables (op child) = .ok (make before) := by
        rw [evaluates, original]
        rfl
      apply Kept.of_eq made
      rw [result, evaluates, changed, agrees before after agree]
      rfl
  · rintro ⟨before, original, ⟨raised, fails⟩ | ⟨seen, _⟩⟩
    · exact ⟨make before, by rw [evaluates, original]; rfl,
        .inl ⟨raised, by rw [result, evaluates, fails]; rfl⟩⟩
    · cases seen

/-- Rewriting keeps a plan exactly if it is harmless. -/
theorem dichotomy {plan : LogicalOp} (formed : Formed m (columnsOf tables) plan) (hidden : Bool) :
    (Harmless (columnsOf tables) hidden plan → Kept m tables hidden plan) ∧
      (¬ Harmless (columnsOf tables) hidden plan → Lost m tables hidden plan) := by
  induction plan using rewritten.induct generalizing hidden with
  | case1 scan projections =>
    rw [Harmless]
    exact dichotomy_project_scan hidden formed
  | case2 scan predicate projections =>
    rw [Harmless]
    exact dichotomy_project_selection hidden formed
  | case3 scan predicate => exact dichotomy_selection hidden formed
  | case4 child predicate none inductionHypothesis =>
    obtain ⟨inner, selects⟩ := formed
    obtain ⟨kept, lost⟩ := inductionHypothesis inner hidden
    obtain ⟨keeps, loses⟩ := step_open hidden (.selection · predicate) (m.select predicate)
      (fun _ => rfl) (rewritten.eq_4 child predicate none) (fun _ => rfl) rfl
      (fun _ _ => select_agree m selects)
    rw [Harmless]
    · exact ⟨keeps ∘ kept, loses ∘ lost⟩
    · exact none
  | case5 child projections none no_selection inductionHypothesis =>
    obtain ⟨inner, refers⟩ := formed
    obtain ⟨kept, lost⟩ := inductionHypothesis inner true
    obtain ⟨keeps, loses⟩ := step_close hidden (.project · projections)
      (m.project projections) (fun _ => rfl) (rewritten.eq_5 child projections none no_selection)
      (fun _ _ => project_agree m fun projection member => (refers projection member).2)
    rw [Harmless]
    · exact ⟨keeps ∘ kept, loses ∘ lost⟩
    · exact none
    · exact no_selection
  | case6 child group_keys aggregates inductionHypothesis =>
    obtain ⟨inner, keys, arguments⟩ := formed
    obtain ⟨kept, lost⟩ := inductionHypothesis inner true
    obtain ⟨keeps, loses⟩ := step_close hidden (.aggregate · group_keys aggregates)
      (m.group group_keys aggregates) (fun _ => rfl) (rewritten.eq_6 child group_keys aggregates)
      (fun _ _ => group_agree m keys arguments)
    rw [Harmless]
    exact ⟨keeps ∘ kept, loses ∘ lost⟩
  | case7 child keys inductionHypothesis =>
    obtain ⟨inner, refers⟩ := formed
    obtain ⟨kept, lost⟩ := inductionHypothesis inner hidden
    obtain ⟨keeps, loses⟩ := step_open hidden (.orderBy · keys) (m.sort keys)
      (fun _ => rfl) (rewritten.eq_7 child keys) (fun _ => rfl) rfl (fun _ _ => sort_agree m refers)
    rw [Harmless]
    exact ⟨keeps ∘ kept, loses ∘ lost⟩
  | case8 child limit offset inductionHypothesis =>
    obtain ⟨kept, lost⟩ := inductionHypothesis formed hidden
    obtain ⟨keeps, loses⟩ := step_open hidden (.limit · limit offset)
      (·.window limit offset) (fun _ => rfl) (rewritten.eq_8 child limit offset) (fun _ => rfl) rfl
      (fun _ _ => window_agree limit offset)
    rw [Harmless]
    exact ⟨keeps ∘ kept, loses ∘ lost⟩
  | case9 plan _ _ _ selection project aggregate order limit =>
    rcases leaf_of_none selection project aggregate order limit with
      ⟨scan, rfl⟩ | ⟨child, params, rfl⟩ | ⟨left, right, params, rfl⟩
    · exact ⟨fun _ => .inl (by simp [rewritten]), fun harmful => (harmful (by simp [Harmless])).elim⟩
    · exact ⟨fun _ => .inl (by simp [rewritten]), fun harmful => (harmful (by simp [Harmless])).elim⟩
    · exact ⟨fun _ => .inl (by simp [rewritten]), fun harmful => (harmful (by simp [Harmless])).elim⟩

/-! ## Rewritten plans are well formed -/

section Formed

variable {schema : String → Finset String} {scan : NodeScan}

theorem reads_restrict {wanted : Finset String} (some_wanted : wanted ≠ ∅) :
    reads schema (restrict scan wanted) = wanted := by
  rw [restrict_of_ne scan some_wanted, reads]
  exact Finset.sort_toFinset wanted _

theorem reads_widen_none {predicate : Obj} (all : scan.columns = none) :
    reads schema (widen scan predicate) = reads schema scan := by
  rw [reads, reads, widen, all]
  rfl

theorem reads_widen_some {predicate : Obj} {columns : List String} (listed : scan.columns = some columns) :
    reads schema (widen scan predicate) = reads schema scan ∪ columnsUsed predicate := by
  rw [reads, reads, widen, listed]
  exact Finset.sort_toFinset _ _

/-- A widened scan reads what it read, and nothing that the table lacks if the predicate does not. -/
theorem reads_widen {predicate : Obj} (known : reads schema scan ⊆ schema scan.class_iri)
    (found : scan.columns = none ∨ columnsUsed predicate ⊆ schema scan.class_iri) :
    reads schema scan ⊆ reads schema (widen scan predicate) ∧
      reads schema (widen scan predicate) ⊆ schema (widen scan predicate).class_iri := by
  cases listed : scan.columns with
  | none => rw [reads_widen_none listed]; exact ⟨Finset.Subset.refl _, known⟩
  | some columns =>
    rw [reads_widen_some listed]
    exact ⟨Finset.subset_union_left,
      Finset.union_subset known (found.resolve_left (by simp [listed]))⟩

/-- Expressions of a harmless plan refer to columns that are still produced. -/
theorem formed_rewritten {plan : LogicalOp} (formed : Formed m schema plan) {hidden : Bool}
    (harmless : Harmless schema hidden plan) :
    Formed m schema (rewritten plan) ∧
      produces m schema plan ⊆ produces m schema (rewritten plan) := by
  induction plan using rewritten.induct generalizing hidden with
  | case1 scan projections =>
    obtain ⟨known, refers⟩ := formed
    rw [Harmless] at harmless
    rw [rewritten]
    refine ⟨?_, Finset.Subset.refl _⟩
    by_cases empty : projectionColumns projections = ∅
    · rw [empty, restrict_empty]
      exact ⟨known, refers⟩
    · refine ⟨?_, fun projection member => ⟨(refers projection member).1, ?_⟩⟩
      · rw [Formed, reads_restrict empty, restrict_of_ne scan empty]
        exact harmless
      · rw [produces, reads_restrict empty]
        exact refersTo_projection (fun projection member => (refers projection member).1) member
  | case2 scan predicate projections =>
    obtain ⟨⟨known, selects⟩, refers⟩ := formed
    rw [Harmless] at harmless
    rw [rewritten]
    refine ⟨?_, Finset.Subset.refl _⟩
    by_cases empty : projectionColumns projections ∪ columnsUsed predicate = ∅
    · have nothing : columnsUsed predicate = ∅ := (Finset.union_eq_empty.mp empty).2
      obtain ⟨more, stored⟩ := reads_widen known (.inr (nothing ▸ Finset.empty_subset _))
      rw [empty, restrict_empty]
      refine ⟨⟨stored, selects.trans more⟩, fun projection member => ?_⟩
      exact (refers projection member).imp_right fun among => among.trans more
    · have tuples := fun projection member => (refers projection member).1
      refine ⟨⟨?_, ?_⟩, fun projection member => ⟨tuples projection member, ?_⟩⟩
      · rw [Formed, reads_restrict empty, restrict_of_ne _ empty]
        exact harmless
      · rw [produces, reads_restrict empty]
        exact (refersTo_subset predicate).trans Finset.subset_union_right
      · rw [produces, produces, reads_restrict empty]
        exact (refersTo_projection tuples member).trans Finset.subset_union_left
  | case3 scan predicate =>
    obtain ⟨known, selects⟩ := formed
    rw [Harmless] at harmless
    have found : scan.columns = none ∨ columnsUsed predicate ⊆ schema scan.class_iri := by
      apply harmless.imp_right
      intro among
      cases hidden with
      | false => exact among.trans known
      | true => exact among
    obtain ⟨more, stored⟩ := reads_widen known found
    rw [rewritten]
    exact ⟨⟨stored, selects.trans more⟩, more⟩
  | case4 child predicate none inductionHypothesis =>
    rw [Harmless] at harmless
    · obtain ⟨inner, more⟩ := inductionHypothesis formed.1 harmless
      rw [rewritten]
      · exact ⟨⟨inner, formed.2.trans more⟩, more⟩
      · exact none
    · exact none
  | case5 child projections none no_selection inductionHypothesis =>
    rw [Harmless] at harmless
    · obtain ⟨inner, more⟩ := inductionHypothesis formed.1 harmless
      rw [rewritten]
      · refine ⟨⟨inner, fun projection member => ?_⟩, Finset.Subset.refl _⟩
        exact (formed.2 projection member).imp_right fun among => among.trans more
      · exact none
      · exact no_selection
    · exact none
    · exact no_selection
  | case6 child group_keys aggregates inductionHypothesis =>
    obtain ⟨inner, keys, arguments⟩ := formed
    rw [Harmless] at harmless
    obtain ⟨inner, more⟩ := inductionHypothesis inner harmless
    rw [rewritten]
    exact ⟨⟨inner, fun key member => (keys key member).trans more,
      fun one member => (arguments one member).trans more⟩, Finset.Subset.refl _⟩
  | case7 child keys inductionHypothesis =>
    rw [Harmless] at harmless
    obtain ⟨inner, more⟩ := inductionHypothesis formed.1 harmless
    rw [rewritten]
    exact ⟨⟨inner, fun key member => (formed.2 key member).trans more⟩, more⟩
  | case8 child limit offset inductionHypothesis =>
    rw [Harmless] at harmless
    obtain ⟨inner, more⟩ := inductionHypothesis formed harmless
    rw [rewritten]
    exact ⟨inner, more⟩
  | case9 plan _ _ _ selection project aggregate order limit =>
    have same : rewritten plan = plan := by
      rcases leaf_of_none selection project aggregate order limit with
        ⟨scan, rfl⟩ | ⟨child, params, rfl⟩ | ⟨left, right, params, rfl⟩
      · simp [rewritten]
      · simp [rewritten]
      · simp [rewritten]
    rw [same]
    exact ⟨formed, Finset.Subset.refl _⟩

end Formed

/-- The rewritten plan gives the same rows, refers to columns that its scans read, and is not
rewritten again, if and only if the columns that the rules find are those of the tables. -/
theorem rewrites_preserve {plan : LogicalOp} (formed : Formed m (columnsOf tables) plan) :
    (evaluate m tables (runRules plan).plan = evaluate m tables plan ∧
      Formed m (columnsOf tables) (runRules plan).plan ∧
      predicatePushdown (runRules plan).plan = (runRules plan).plan ∧
      projectionPruning (runRules plan).plan = (runRules plan).plan) ↔
    Harmless (columnsOf tables) false plan := by
  rw [runRules_plan]
  obtain ⟨kept, lost⟩ := dichotomy formed false
  constructor
  · rintro ⟨same, _⟩
    by_contra harmful
    obtain ⟨before, original, ⟨raised, fails⟩ | ⟨_, after, changed, differ⟩⟩ := lost harmful
    · rw [original, fails] at same
      cases same
    · rw [original, changed] at same
      exact differ (congrArg Relation.columns (Except.ok.inj same))
  · intro harmless
    refine ⟨?_, (formed_rewritten formed harmless).1, pushdown_rewritten plan, pruning_rewritten plan⟩
    rcases kept harmless with same | ⟨before, after, original, changed, _, equal⟩
    · rw [same]
    · rw [original, changed, equal rfl]

end Rewriting

/-! ## Kinds of genes -/

/-- Objects as values, with `in` for membership. -/
def plainMeaning : Meaning Obj where
  null := .other .null
  literal
    | [value] => value
    | values => .tuple values
  apply
    | "in", [value, .tuple values] => .other (.bool (value ∈ values))
    | head, arguments => .tuple (.str head :: arguments)
  holds value := value = .other (.bool true)
  arrange keys := List.range keys.length
  keyName _ := "key"
  aggregate _ _ _ := []
  expandColumns _ columns := columns
  expand _ relation := .ok relation
  joinColumns _ left right := left ∪ right
  join _ left _ := .ok left

/-- One gene with its kind. -/
def geneTable (_ : String) : Relation Obj where
  columns := {"kind"}
  rows := [fun name => if name = "kind" then some (.str "ghost") else none]

/-- `kind IN (first, "ghost")`, projected to the kind. -/
def kindPlan (first : String) : LogicalOp :=
  .project
    (.selection
      (.nodeScan { class_iri := "http://example.org/Gene", local_name := "Gene", alias_name := "g" })
      (.tuple [.str "in", .tuple [.str "col", .str "kind"],
        .tuple [.str "lit", .tuple [.str first, .str "ghost"]]]))
    [(.tuple [.str "col", .str "kind"], "kind")]

theorem kindPlan_formed (first : String) :
    Formed plainMeaning (columnsOf geneTable) (kindPlan first) := by
  refine ⟨⟨Finset.Subset.refl _, ?_⟩, ?_⟩
  · simp [refersTo, refersToIn, columnRef, produces, reads, columnsOf, geneTable]
  · simp [refersTo, columnRef, Obj.IsTuple, produces, reads, columnsOf, geneTable]

/-- A list that looks like no column is harmless. -/
theorem kinds_preserved :
    evaluate plainMeaning geneTable (runRules (kindPlan "gene")).plan =
        evaluate plainMeaning geneTable (kindPlan "gene") ∧
      Formed plainMeaning (columnsOf geneTable) (runRules (kindPlan "gene")).plan ∧
      predicatePushdown (runRules (kindPlan "gene")).plan = (runRules (kindPlan "gene")).plan ∧
      projectionPruning (runRules (kindPlan "gene")).plan = (runRules (kindPlan "gene")).plan := by
  apply (rewrites_preserve (kindPlan_formed "gene")).mpr
  rw [kindPlan, Harmless]
  simp [projectionColumns, columnsUsed, columnsUsedIn, columnRef, columnsOf, geneTable]

/-- A list that looks like a column is read as one, and the rewritten plan raises. -/
theorem literal_read_as_column :
    (∃ rows, evaluate plainMeaning geneTable (kindPlan "col") = .ok rows) ∧
      (∃ raised, evaluate plainMeaning geneTable (runRules (kindPlan "col")).plan = .error raised) ∧
    ¬ ∀ {Val : Type} (m : Meaning Val) (tables : String → Relation Val) (plan : LogicalOp),
      Formed m (columnsOf tables) plan →
        evaluate m tables (runRules plan).plan = evaluate m tables plan := by
  have harmful : ¬ projectionColumns [(.tuple [.str "col", .str "kind"], "kind")] ∪ columnsUsed
      (.tuple [.str "in", .tuple [.str "col", .str "kind"],
        .tuple [.str "lit", .tuple [.str "col", .str "ghost"]]]) ⊆ columnsOf geneTable
          "http://example.org/Gene" := by
    intro inside
    have ghost := @inside "ghost" (by simp [columnsUsed, columnsUsedIn, columnRef])
    simp [columnsOf, geneTable] at ghost
  obtain ⟨rows, original, ⟨raised, fails⟩ | ⟨seen, _⟩⟩ :=
    (dichotomy_project_selection true (kindPlan_formed "col")).2 harmful
  · rw [← runRules_plan] at fails
    refine ⟨⟨rows, original⟩, ⟨raised, fails⟩, fun claim => ?_⟩
    have same := claim plainMeaning geneTable (kindPlan "col") (kindPlan_formed "col")
    have differ := fails.symm.trans (same.trans original)
    cases differ
  · cases seen

end CaracalDB.Logical
