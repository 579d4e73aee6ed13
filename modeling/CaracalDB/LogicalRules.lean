import CaracalDB.PythonValue
import CaracalDB.KeyTypes
import Mathlib.Data.Finset.Sort
import Mathlib.Data.String.Basic

/-!
# Rewriting logical plans

Two rules rewrite a plan over the nodes of a class. One sees to it that a scan under a
selection reads the columns of the predicate, the other that a scan under a projection
reads no others than the expressions over it. Both find columns by walking the nested
tuples of an expression, and both are applied in turn until nothing changes.
-/

namespace CaracalDB.Logical

/-- A placeholder of an expression: a Python object that is a text, a tuple or anything else. -/
inductive Obj where
  | str (text : String)
  | tuple (items : List Obj)
  | other (value : Value)

mutual

def Obj.decEq : (left right : Obj) → Decidable (left = right)
  | .str left, .str right => decidable_of_iff (left = right) (by simp)
  | .tuple left, .tuple right =>
      match Obj.decEqItems left right with
      | isTrue same => isTrue (congrArg Obj.tuple same)
      | isFalse apart => isFalse fun same => apart (Obj.tuple.inj same)
  | .other left, .other right => decidable_of_iff (left = right) (by simp)
  | .str _, .tuple _ => isFalse nofun
  | .str _, .other _ => isFalse nofun
  | .tuple _, .str _ => isFalse nofun
  | .tuple _, .other _ => isFalse nofun
  | .other _, .str _ => isFalse nofun
  | .other _, .tuple _ => isFalse nofun

def Obj.decEqItems : (left right : List Obj) → Decidable (left = right)
  | [], [] => isTrue rfl
  | [], _ :: _ => isFalse nofun
  | _ :: _, [] => isFalse nofun
  | left :: lefts, right :: rights =>
      match Obj.decEq left right, Obj.decEqItems lefts rights with
      | isTrue same, isTrue others => isTrue (by rw [same, others])
      | isFalse apart, _ => isFalse fun same => apart (List.cons.inj same).1
      | _, isFalse apart => isFalse fun same => apart (List.cons.inj same).2

end

instance : DecidableEq Obj := Obj.decEq

/-- `LNodeScan` -/
structure NodeScan where
  class_iri : String
  local_name : String
  alias_name : String := "n"
  /-- All columns if there are none. -/
  columns : Option (List String) := none
deriving DecidableEq

/-- `Literal["out", "in", "both"]` -/
inductive ExpandDirection where
  | outgoing
  | incoming
  | both
deriving DecidableEq

/-- What `LExpand` has besides its child. -/
structure Expand where
  property_iri : String
  direction : ExpandDirection
  src_alias : String
  dst_alias : String
  edge_alias : Option String
  hop_min : Int := 1
  hop_max : Int := 1
deriving DecidableEq

/-- `Literal["inner", "left"]` -/
inductive JoinKind where
  | inner
  | left
deriving DecidableEq

/-- What `LJoin` has besides its children. -/
structure Join where
  left_key : String
  right_key : String
  kind : JoinKind := .inner
  left_prefix : Option String := none
  right_prefix : Option String := none
deriving DecidableEq

inductive LogicalOp where
  | nodeScan (scan : NodeScan)
  | selection (child : LogicalOp) (predicate : Obj)
  | project (child : LogicalOp) (projections : List (Obj × String))
  | aggregate (child : LogicalOp) (group_keys : List Obj) (aggregates : List (String × Obj × String))
  | orderBy (child : LogicalOp) (keys : List (Obj × Bool))
  | limit (child : LogicalOp) (limit offset : Int)
  | expand (child : LogicalOp) (params : Expand)
  | join (left right : LogicalOp) (params : Join)
deriving DecidableEq

namespace LogicalOp

/-- `plan.children()` -/
def children : LogicalOp → List LogicalOp
  | .nodeScan _ => []
  | .selection child _ => [child]
  | .project child _ => [child]
  | .aggregate child _ _ => [child]
  | .orderBy child _ => [child]
  | .limit child _ _ => [child]
  | .expand child _ => [child]
  | .join left right _ => [left, right]

end LogicalOp

/-! ## Columns of an expression -/

/-- `head == "col" and len(node) >= 2 and isinstance(node[1], str)`, with the name of the column. -/
def columnRef (head : String) : List Obj → Option String
  | .str name :: _ => if head = "col" then some name else none
  | _ => none

mutual

/-- `_columns_used(node)` -/
def columnsUsed : Obj → Finset String
  | .tuple (.str head :: rest) =>
      match columnRef head rest with
      | some name => {name}
      | none => columnsUsedIn rest
  | .tuple items => columnsUsedIn items
  | _ => ∅

/-- The loop over the items of a tuple. -/
def columnsUsedIn : List Obj → Finset String
  | [] => ∅
  | item :: items => columnsUsed item ∪ columnsUsedIn items

end

/-! ## The rules -/

/-- `_recurse(plan, rule)` with what the rule made of the children. -/
def recurse (plan : LogicalOp) (new_children : List LogicalOp) : LogicalOp :=
  if new_children = plan.children then plan
  else match plan, new_children with
    | .selection _ predicate, child :: _ => .selection child predicate
    | .project _ projections, child :: _ => .project child projections
    | .aggregate _ group_keys aggregates, child :: _ => .aggregate child group_keys aggregates
    | .orderBy _ keys, child :: _ => .orderBy child keys
    | .limit _ limit offset, child :: _ => .limit child limit offset
    | plan, _ => plan

/-- `predicate_pushdown(plan)` -/
def predicatePushdown : LogicalOp → LogicalOp
  | .selection (.nodeScan scan) predicate =>
      match scan.columns with
      | none => .selection (.nodeScan scan) predicate
      | some columns =>
          let keep := (columns.toFinset ∪ columnsUsed predicate).sort (· ≤ ·)
          if keep = columns then .selection (.nodeScan scan) predicate
          else .selection (.nodeScan { scan with columns := some keep }) predicate
  | .nodeScan scan => .nodeScan scan
  | .selection child predicate => recurse (.selection child predicate) [predicatePushdown child]
  | .project child projections => recurse (.project child projections) [predicatePushdown child]
  | .aggregate child group_keys aggregates =>
      recurse (.aggregate child group_keys aggregates) [predicatePushdown child]
  | .orderBy child keys => recurse (.orderBy child keys) [predicatePushdown child]
  | .limit child limit offset => recurse (.limit child limit offset) [predicatePushdown child]
  | .expand child params => recurse (.expand child params) [predicatePushdown child]
  | .join left right params =>
      recurse (.join left right params) [predicatePushdown left, predicatePushdown right]

/-- `_columns_used(tuple(p[0] for p in projs))` -/
def projectionColumns (projections : List (Obj × String)) : Finset String :=
  columnsUsed (.tuple (projections.map Prod.fst))

/-- `dc_replace(scan, columns=tuple(sorted(wanted)) or scan.columns)` -/
def restrict (scan : NodeScan) (wanted : Finset String) : NodeScan :=
  match wanted.sort (· ≤ ·) with
  | [] => scan
  | columns => { scan with columns := some columns }

/-- `projection_pruning(plan)` -/
def projectionPruning : LogicalOp → LogicalOp
  | .project (.nodeScan scan) projections =>
      .project (.nodeScan (restrict scan (projectionColumns projections))) projections
  | .project (.selection (.nodeScan scan) predicate) projections =>
      .project
        (.selection (.nodeScan (restrict scan (projectionColumns projections ∪ columnsUsed predicate)))
          predicate)
        projections
  | .nodeScan scan => .nodeScan scan
  | .selection child predicate => recurse (.selection child predicate) [projectionPruning child]
  | .project child projections => recurse (.project child projections) [projectionPruning child]
  | .aggregate child group_keys aggregates =>
      recurse (.aggregate child group_keys aggregates) [projectionPruning child]
  | .orderBy child keys => recurse (.orderBy child keys) [projectionPruning child]
  | .limit child limit offset => recurse (.limit child limit offset) [projectionPruning child]
  | .expand child params => recurse (.expand child params) [projectionPruning child]
  | .join left right params =>
      recurse (.join left right params) [projectionPruning left, projectionPruning right]

/-! ## The runner -/

/-- A rule under its `__name__`. -/
structure Rule where
  name : String
  apply : LogicalOp → LogicalOp

/-- `[predicate_pushdown, projection_pruning]` -/
def defaultRules : List Rule :=
  [{ name := "predicate_pushdown", apply := predicatePushdown },
   { name := "projection_pruning", apply := projectionPruning }]

structure RewriteResult where
  plan : LogicalOp
  iterations : Nat
  applied : List String

/-- One pass over the rules: the plan, the names of the rules that changed it, and whether one did. -/
def pass (rules : List Rule) (start : LogicalOp × List String) : LogicalOp × List String × Bool :=
  rules.foldl (fun (current, applied, changed) rule =>
    let new := rule.apply current
    if new ≠ current then (new, applied ++ [rule.name], true) else (current, applied, changed))
    (start.1, start.2, false)

/-- `for i in range(max_iterations)`, from the iteration after `done` ones. -/
def iterate (rules : List Rule) : (left done : Nat) → LogicalOp → List String → RewriteResult
  | 0, done, current, applied => { plan := current, iterations := done, applied }
  | left + 1, done, current, applied =>
      let (current, applied, changed) := pass rules (current, applied)
      if changed then iterate rules left (done + 1) current applied
      else { plan := current, iterations := done + 1, applied }

/-- `run_rules(plan)` -/
def runRules (plan : LogicalOp) : RewriteResult := iterate defaultRules 8 0 plan []

/-! ## What one rule does -/

section Recurse

variable (child made : LogicalOp)

@[simp] theorem recurse_selection (predicate : Obj) :
    recurse (.selection child predicate) [made] = .selection made predicate := by
  by_cases same : made = child
  · simp [recurse, LogicalOp.children, same]
  · simp [recurse, LogicalOp.children, same]

@[simp] theorem recurse_project (projections : List (Obj × String)) :
    recurse (.project child projections) [made] = .project made projections := by
  by_cases same : made = child
  · simp [recurse, LogicalOp.children, same]
  · simp [recurse, LogicalOp.children, same]

@[simp] theorem recurse_aggregate (group_keys : List Obj) (aggregates : List (String × Obj × String)) :
    recurse (.aggregate child group_keys aggregates) [made] =
      .aggregate made group_keys aggregates := by
  by_cases same : made = child
  · simp [recurse, LogicalOp.children, same]
  · simp [recurse, LogicalOp.children, same]

@[simp] theorem recurse_orderBy (keys : List (Obj × Bool)) :
    recurse (.orderBy child keys) [made] = .orderBy made keys := by
  by_cases same : made = child
  · simp [recurse, LogicalOp.children, same]
  · simp [recurse, LogicalOp.children, same]

@[simp] theorem recurse_limit (limit offset : Int) :
    recurse (.limit child limit offset) [made] = .limit made limit offset := by
  by_cases same : made = child
  · simp [recurse, LogicalOp.children, same]
  · simp [recurse, LogicalOp.children, same]

/-- An expansion is not rebuilt. -/
@[simp] theorem recurse_expand (params : Expand) (children : List LogicalOp) :
    recurse (.expand child params) children = .expand child params := by
  cases children with
  | nil => simp [recurse]
  | cons made children => simp [recurse]

/-- A join is not rebuilt. -/
@[simp] theorem recurse_join (right : LogicalOp) (params : Join) (children : List LogicalOp) :
    recurse (.join child right params) children = .join child right params := by
  cases children with
  | nil => simp [recurse]
  | cons made children => simp [recurse]

end Recurse

/-- A scan that reads the columns of a predicate besides its own. -/
def widen (scan : NodeScan) (predicate : Obj) : NodeScan :=
  { scan with columns := scan.columns.map fun columns =>
      (columns.toFinset ∪ columnsUsed predicate).sort (· ≤ ·) }

/-- What the rules look at: a scan, a selection of a scan, or neither. -/
inductive Shape where
  | scan
  | selected
  | other

def LogicalOp.shape : LogicalOp → Shape
  | .nodeScan _ => .scan
  | .selection (.nodeScan _) _ => .selected
  | _ => .other

theorem pushdown_selection_scan (scan : NodeScan) (predicate : Obj) :
    predicatePushdown (.selection (.nodeScan scan) predicate) =
      .selection (.nodeScan (widen scan predicate)) predicate := by
  obtain ⟨class_iri, local_name, alias_name, columns⟩ := scan
  cases columns with
  | none => rfl
  | some columns =>
    rw [predicatePushdown]
    simp only
    split
    · rename_i same
      simp [widen, same]
    · rfl

theorem pushdown_selection {child : LogicalOp} (shape : child.shape ≠ .scan) (predicate : Obj) :
    predicatePushdown (.selection child predicate) = .selection (predicatePushdown child) predicate := by
  cases child with
  | nodeScan scan => exact absurd rfl shape
  | _ => simp only [predicatePushdown, recurse_selection]

theorem pruning_project_scan (scan : NodeScan) (projections : List (Obj × String)) :
    projectionPruning (.project (.nodeScan scan) projections) =
      .project (.nodeScan (restrict scan (projectionColumns projections))) projections := by
  rw [projectionPruning]

theorem pruning_project {child : LogicalOp} (shape : child.shape = .other)
    (projections : List (Obj × String)) :
    projectionPruning (.project child projections) =
      .project (projectionPruning child) projections := by
  cases child with
  | nodeScan scan => cases shape
  | selection inner predicate =>
    cases inner with
    | nodeScan scan => cases shape
    | _ => simp only [projectionPruning, recurse_project]
  | _ => simp only [projectionPruning, recurse_project]

theorem pruning_selection (child : LogicalOp) (predicate : Obj) :
    projectionPruning (.selection child predicate) =
      .selection (projectionPruning child) predicate := by
  rw [projectionPruning, recurse_selection]

/-! ## Both rules -/

/-- What the two rules make of a plan, one after the other. -/
def rewritten : LogicalOp → LogicalOp
  | .project (.nodeScan scan) projections =>
      .project (.nodeScan (restrict scan (projectionColumns projections))) projections
  | .project (.selection (.nodeScan scan) predicate) projections =>
      .project
        (.selection (.nodeScan (restrict (widen scan predicate)
          (projectionColumns projections ∪ columnsUsed predicate))) predicate)
        projections
  | .selection (.nodeScan scan) predicate => .selection (.nodeScan (widen scan predicate)) predicate
  | .selection child predicate => .selection (rewritten child) predicate
  | .project child projections => .project (rewritten child) projections
  | .aggregate child group_keys aggregates => .aggregate (rewritten child) group_keys aggregates
  | .orderBy child keys => .orderBy (rewritten child) keys
  | .limit child limit offset => .limit (rewritten child) limit offset
  | plan => plan

theorem shape_selection (child : LogicalOp) (predicate : Obj) :
    (LogicalOp.selection child predicate).shape =
      match child.shape with
      | .scan => .selected
      | _ => .other := by
  cases child with
  | selection inner predicate =>
    cases inner with
    | _ => rfl
  | _ => rfl

theorem shape_pushdown (plan : LogicalOp) : (predicatePushdown plan).shape = plan.shape := by
  induction plan with
  | nodeScan scan => rfl
  | selection child predicate inductionHypothesis =>
    cases shape : child.shape with
    | scan =>
      cases child with
      | nodeScan scan =>
        rw [pushdown_selection_scan]
        rfl
      | selection inner predicate =>
        rw [shape_selection] at shape
        split at shape
        · cases shape
        · cases shape
      | _ => cases shape
    | selected =>
      rw [pushdown_selection (by simp [shape]), shape_selection, shape_selection, inductionHypothesis]
    | other =>
      rw [pushdown_selection (by simp [shape]), shape_selection, shape_selection, inductionHypothesis]
  | _ => simp [predicatePushdown, LogicalOp.shape]

theorem shape_of_no_scan {child : LogicalOp} (none : ∀ scan, child = .nodeScan scan → False) :
    child.shape ≠ .scan := by
  cases child with
  | nodeScan scan => exact fun _ => none scan rfl
  | selection inner predicate =>
    rw [shape_selection]
    split
    · exact nofun
    · exact nofun
  | _ => exact nofun

theorem shape_of_neither {child : LogicalOp} (none : ∀ scan, child = .nodeScan scan → False)
    (no_selection : ∀ scan predicate, child = .selection (.nodeScan scan) predicate → False) :
    child.shape = .other := by
  cases child with
  | nodeScan scan => exact (none scan rfl).elim
  | selection inner predicate =>
    cases inner with
    | nodeScan scan => exact (no_selection scan predicate rfl).elim
    | _ => rfl
  | _ => rfl

/-- A plan that is not rebuilt is a scan, an expansion or a join. -/
theorem leaf_of_none {plan : LogicalOp}
    (selection : ∀ child predicate, plan = .selection child predicate → False)
    (project : ∀ child projections, plan = .project child projections → False)
    (aggregate : ∀ child group_keys aggregates,
      plan = .aggregate child group_keys aggregates → False)
    (order : ∀ child keys, plan = .orderBy child keys → False)
    (limit : ∀ child limit offset, plan = .limit child limit offset → False) :
    (∃ scan, plan = .nodeScan scan) ∨ (∃ child params, plan = .expand child params) ∨
      ∃ left right params, plan = .join left right params := by
  cases plan with
  | nodeScan scan => exact .inl ⟨scan, rfl⟩
  | selection child predicate => exact (selection child predicate rfl).elim
  | project child projections => exact (project child projections rfl).elim
  | aggregate child group_keys aggregates => exact (aggregate child group_keys aggregates rfl).elim
  | orderBy child keys => exact (order child keys rfl).elim
  | limit child number offset => exact (limit child number offset rfl).elim
  | expand child params => exact .inr (.inl ⟨child, params, rfl⟩)
  | join left right params => exact .inr (.inr ⟨left, right, params, rfl⟩)

/-- The second rule after the first is both at once. -/
theorem pruned_pushed (plan : LogicalOp) :
    projectionPruning (predicatePushdown plan) = rewritten plan := by
  induction plan using rewritten.induct with
  | case1 scan projections =>
    rw [predicatePushdown, recurse_project, predicatePushdown, pruning_project_scan, rewritten]
  | case2 scan predicate projections =>
    rw [predicatePushdown, recurse_project, pushdown_selection_scan, projectionPruning, rewritten]
  | case3 scan predicate =>
    rw [pushdown_selection_scan, pruning_selection, projectionPruning, rewritten]
  | case4 child predicate none inductionHypothesis =>
    rw [pushdown_selection (shape_of_no_scan none), pruning_selection, inductionHypothesis, rewritten]
    exact none
  | case5 child projections none no_selection inductionHypothesis =>
    have shape := shape_of_neither none no_selection
    rw [predicatePushdown, recurse_project, pruning_project ((shape_pushdown child).trans shape),
      inductionHypothesis, rewritten]
    · exact none
    · exact no_selection
  | case6 child group_keys aggregates inductionHypothesis =>
    rw [predicatePushdown, recurse_aggregate, projectionPruning, recurse_aggregate,
      inductionHypothesis, rewritten]
  | case7 child keys inductionHypothesis =>
    rw [predicatePushdown, recurse_orderBy, projectionPruning, recurse_orderBy, inductionHypothesis,
      rewritten]
  | case8 child limit offset inductionHypothesis =>
    rw [predicatePushdown, recurse_limit, projectionPruning, recurse_limit, inductionHypothesis,
      rewritten]
  | case9 plan _ _ _ selection project aggregate order limit =>
    rcases leaf_of_none selection project aggregate order limit with
      ⟨scan, rfl⟩ | ⟨child, params, rfl⟩ | ⟨left, right, params, rfl⟩
    · simp [predicatePushdown, projectionPruning, rewritten]
    · simp [predicatePushdown, projectionPruning, rewritten]
    · simp [predicatePushdown, projectionPruning, rewritten]

/-! ## Nothing is left to rewrite -/

theorem sort_eq_nil {wanted : Finset String} (empty : wanted.sort (· ≤ ·) = []) : wanted = ∅ := by
  rw [← wanted.sort_toFinset (· ≤ ·), empty]
  rfl

theorem restrict_of_ne {wanted : Finset String} (scan : NodeScan) (some_wanted : wanted ≠ ∅) :
    restrict scan wanted = { scan with columns := some (wanted.sort (· ≤ ·)) } := by
  rw [restrict]
  split
  · rename_i empty
    exact absurd (sort_eq_nil empty) some_wanted
  · rfl

theorem restrict_empty (scan : NodeScan) : restrict scan ∅ = scan := by
  rw [restrict, Finset.sort_empty]

@[simp] theorem restrict_restrict (scan : NodeScan) (wanted : Finset String) :
    restrict (restrict scan wanted) wanted = restrict scan wanted := by
  by_cases empty : wanted = ∅
  · rw [empty, restrict_empty, restrict_empty]
  · rw [restrict_of_ne _ empty, restrict_of_ne _ empty]

@[simp] theorem widen_widen (scan : NodeScan) (predicate : Obj) :
    widen (widen scan predicate) predicate = widen scan predicate := by
  obtain ⟨class_iri, local_name, alias_name, columns⟩ := scan
  cases columns with
  | none => rfl
  | some columns =>
    simp only [widen, Option.map_some, Finset.sort_toFinset, Finset.union_assoc, Finset.union_self]

theorem widen_restrict (scan : NodeScan) (predicate : Obj) {wanted : Finset String}
    (among : columnsUsed predicate ⊆ wanted) :
    widen (restrict (widen scan predicate) wanted) predicate =
      restrict (widen scan predicate) wanted := by
  by_cases empty : wanted = ∅
  · rw [empty, restrict_empty, widen_widen]
  · rw [restrict_of_ne _ empty]
    simp only [widen, Option.map_some, Finset.sort_toFinset, Finset.union_eq_left.mpr among]

theorem shape_pruning (plan : LogicalOp) : (projectionPruning plan).shape = plan.shape := by
  induction plan with
  | nodeScan scan => rw [projectionPruning]
  | selection child predicate inductionHypothesis =>
    rw [pruning_selection, shape_selection, shape_selection, inductionHypothesis]
  | project child projections _ =>
    cases child with
    | nodeScan scan => rw [pruning_project_scan]; rfl
    | selection inner predicate =>
      cases inner with
      | _ => simp only [projectionPruning, recurse_project, LogicalOp.shape]
    | _ => simp only [projectionPruning, recurse_project, LogicalOp.shape]
  | _ => simp [projectionPruning, LogicalOp.shape]

theorem shape_rewritten (plan : LogicalOp) : (rewritten plan).shape = plan.shape := by
  rw [← pruned_pushed, shape_pruning, shape_pushdown]

theorem pushdown_rewritten (plan : LogicalOp) :
    predicatePushdown (rewritten plan) = rewritten plan := by
  induction plan using rewritten.induct with
  | case1 scan projections => simp [rewritten, predicatePushdown]
  | case2 scan predicate projections =>
    rw [rewritten, predicatePushdown, recurse_project, pushdown_selection_scan,
      widen_restrict scan predicate Finset.subset_union_right]
  | case3 scan predicate => rw [rewritten, pushdown_selection_scan, widen_widen]
  | case4 child predicate none inductionHypothesis =>
    have shape := (shape_rewritten child).symm ▸ shape_of_no_scan none
    rw [rewritten, pushdown_selection shape, inductionHypothesis]
    exact none
  | case5 child projections none no_selection inductionHypothesis =>
    rw [rewritten, predicatePushdown, recurse_project, inductionHypothesis]
    · exact none
    · exact no_selection
  | case6 child group_keys aggregates inductionHypothesis =>
    rw [rewritten, predicatePushdown, recurse_aggregate, inductionHypothesis]
  | case7 child keys inductionHypothesis =>
    rw [rewritten, predicatePushdown, recurse_orderBy, inductionHypothesis]
  | case8 child limit offset inductionHypothesis =>
    rw [rewritten, predicatePushdown, recurse_limit, inductionHypothesis]
  | case9 plan _ _ _ selection project aggregate order limit =>
    rcases leaf_of_none selection project aggregate order limit with
      ⟨scan, rfl⟩ | ⟨child, params, rfl⟩ | ⟨left, right, params, rfl⟩
    · simp [predicatePushdown, rewritten]
    · simp [predicatePushdown, rewritten]
    · simp [predicatePushdown, rewritten]

theorem pruning_rewritten (plan : LogicalOp) :
    projectionPruning (rewritten plan) = rewritten plan := by
  induction plan using rewritten.induct with
  | case1 scan projections => rw [rewritten, pruning_project_scan, restrict_restrict]
  | case2 scan predicate projections => rw [rewritten, projectionPruning, restrict_restrict]
  | case3 scan predicate => rw [rewritten, pruning_selection, projectionPruning]
  | case4 child predicate none inductionHypothesis =>
    rw [rewritten, pruning_selection, inductionHypothesis]
    exact none
  | case5 child projections none no_selection inductionHypothesis =>
    have shape := (shape_rewritten child).trans (shape_of_neither none no_selection)
    rw [rewritten, pruning_project shape, inductionHypothesis]
    · exact none
    · exact no_selection
  | case6 child group_keys aggregates inductionHypothesis =>
    rw [rewritten, projectionPruning, recurse_aggregate, inductionHypothesis]
  | case7 child keys inductionHypothesis =>
    rw [rewritten, projectionPruning, recurse_orderBy, inductionHypothesis]
  | case8 child limit offset inductionHypothesis =>
    rw [rewritten, projectionPruning, recurse_limit, inductionHypothesis]
  | case9 plan _ _ _ selection project aggregate order limit =>
    rcases leaf_of_none selection project aggregate order limit with
      ⟨scan, rfl⟩ | ⟨child, params, rfl⟩ | ⟨left, right, params, rfl⟩
    · simp [projectionPruning, rewritten]
    · simp [projectionPruning, rewritten]
    · simp [projectionPruning, rewritten]

/-- One pass over the rules leaves both applied. -/
theorem pass_plan (plan : LogicalOp) (applied : List String) :
    ∃ names changed, pass defaultRules (plan, applied) = (rewritten plan, names, changed) := by
  rw [pass, defaultRules]
  simp only [List.foldl_cons, List.foldl_nil]
  by_cases pushed : predicatePushdown plan = plan
  · have both : projectionPruning plan = rewritten plan := by rw [← pruned_pushed, pushed]
    by_cases pruned : projectionPruning plan = plan
    · simp [pushed, pruned, ← both]
    · simp [pushed, both, both ▸ pruned]
  · by_cases pruned : projectionPruning (predicatePushdown plan) = predicatePushdown plan
    · simp [pushed, pruned, ← pruned_pushed]
    · simp [pushed, pruned_pushed, pruned_pushed plan ▸ pruned]

theorem rewritten_rewritten (plan : LogicalOp) : rewritten (rewritten plan) = rewritten plan := by
  rw [← pruned_pushed (rewritten plan), pushdown_rewritten, pruning_rewritten]

theorem iterate_plan (left done : Nat) (plan : LogicalOp) (applied : List String) :
    (iterate defaultRules (left + 1) done plan applied).plan = rewritten plan := by
  induction left generalizing done plan applied with
  | zero =>
    obtain ⟨names, changed, passed⟩ := pass_plan plan applied
    rw [iterate, passed]
    cases changed with
    | false => rfl
    | true => rfl
  | succ left inductionHypothesis =>
    obtain ⟨names, changed, passed⟩ := pass_plan plan applied
    rw [iterate, passed]
    cases changed with
    | false => rfl
    | true => exact (inductionHypothesis _ _ _).trans (rewritten_rewritten plan)

/-- The runner ends with both rules applied. -/
theorem runRules_plan (plan : LogicalOp) : (runRules plan).plan = rewritten plan :=
  iterate_plan 7 0 plan []

end CaracalDB.Logical
