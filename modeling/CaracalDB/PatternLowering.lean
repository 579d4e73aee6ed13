import CaracalDB.HopRanges
import CaracalDB.LocalName
import CaracalDB.LogicalRules
import CaracalDB.Loops

/-!
# Lowering a pattern

A pattern is lowered to a chain: a scan of its first node, and for every relationship an expansion
and a join with a scan of the node behind it. Nodes without a variable get a generated alias, which is
made of the length of the pattern, so it is the same one for every node behind the first.
-/

namespace CaracalDB.Tuft

open Logical

/-! ## The compiler -/

/-- `_resolve_label(elem)` -/
def resolveLabel (elem : NodePattern) : Except Raised String :=
  match elem.labels with
  | [] => raiseCaracal "CDB-6050" "every node pattern must carry a class label"
  | label :: _ => .ok label.value

/-- `_resolve_rel_type(rel)` -/
def resolveRelType (rel : RelPattern) : Except Raised String :=
  match rel.types with
  | [] => raiseCaracal "CDB-6050" "every rel pattern must carry an explicit property"
  | label :: _ => .ok label.value

/-- `number or default` -/
def orElse (number : Option Int) (default : Int) : Int :=
  match number with
  | some number => if number = 0 then default else number
  | none => default

def Direction.expand : Direction → ExpandDirection
  | .out => .outgoing
  | .in => .incoming
  | .both => .both

def nodeScan (elem : NodePattern) (alias_name : String) : Except Raised NodeScan := do
  let label ← resolveLabel elem
  return { class_iri := label, local_name := localOf label, alias_name }

/-- The state of the loop over the elements behind the first. -/
structure Lowering where
  plan : LogicalOp
  cursor_alias : String
  rel : Option RelPattern

/-- One element of a pattern of so many elements. -/
def lowerElem (count : Nat) (state : Lowering) : PatternElem → Except Raised Lowering
  | .rel rel => .ok { state with rel := some rel }
  | .path => raiseCaracal "CDB-6050" "unsupported pattern element kind: PathPattern"
  | .node elem =>
      match state.rel with
      | none =>
          raiseCaracal "CDB-6050" "adjacent node patterns require a connecting -[rel]- element"
      | some rel => do
          let next_alias := elem.var.getD ("n" ++ toString count)
          let property_iri ← resolveRelType rel
          let hop_min := orElse rel.hop_range.min_hops 1
          let hop_max := orElse rel.hop_range.max_hops hop_min
          let dst_alias := next_alias ++ ".nid"
          let expansion : Expand :=
            { property_iri
              direction := rel.direction.expand
              src_alias := state.cursor_alias ++ ".nid"
              dst_alias
              edge_alias := rel.var
              hop_min
              hop_max }
          let target_scan ← nodeScan elem next_alias
          return {
            plan := .join (.expand state.plan expansion) (.nodeScan target_scan)
              { left_key := dst_alias, right_key := "nid", right_prefix := some next_alias }
            cursor_alias := next_alias
            rel := none }

/-- `compile_pattern(pattern)` -/
def compilePattern (pattern : Pattern) : Except Raised LogicalOp :=
  match pattern.elements with
  | [] => raiseCaracal "CDB-6050" "empty pattern"
  | .node first :: elements => do
      let head_alias := first.var.getD "n0"
      let scan ← nodeScan first head_alias
      let state ← elements.foldlM (lowerElem pattern.elements.length)
        { plan := .nodeScan scan, cursor_alias := head_alias, rel := none }
      return state.plan
  | _ => raiseCaracal "CDB-6050" "pattern must start with a node element"

/-! ## Chains -/

/-- A relationship and the node behind it. -/
abbrev Segment : Type := RelPattern × NodePattern

/-- The elements behind the first node of a pattern that alternates. -/
def tailElements (segments : List Segment) : List PatternElem :=
  segments.flatMap fun (rel, node) => [.rel rel, .node node]

def alternating (head : NodePattern) (segments : List Segment) (binding : Option String) : Pattern :=
  { elements := .node head :: tailElements segments, binding }

/-- One step of a chain: an expansion, and the join with the scan of its target. -/
structure Step where
  expand : Expand
  scan : NodeScan
  join : Join

/-- The first scan and the steps of a plan that is a chain. -/
def chainOf : LogicalOp → Option (NodeScan × List Step)
  | .nodeScan scan => some (scan, [])
  | .join (.expand child expand) (.nodeScan scan) join =>
      (chainOf child).map fun (first, steps) => (first, steps ++ [{ expand, scan, join }])
  | _ => none

/-- The hops that a range stands for, where the upper bound may be absent: one hop if there is no range,
and at least one if there is no lower bound. -/
def HopRange.hops (range : HopRange) : Int × Option Int :=
  (range.min_hops.getD 1, if range = {} then some 1 else range.max_hops)

/-- A scan of a node of a pattern: of its class, under its variable if it has one. -/
structure ScanOf (elem : NodePattern) (scan : NodeScan) : Prop where
  label : ∃ label ∈ elem.labels.head?, scan.class_iri = label.value ∧ scan.local_name = localOf label.value
  name : ∀ name ∈ elem.var, scan.alias_name = name
  columns : scan.columns = none

/-- The join of what is expanded with the scan of a node on the node's id. -/
def idJoin (alias_name : String) : Join :=
  { left_key := alias_name ++ ".nid", right_key := "nid", right_prefix := some alias_name }

/-- A step lowers a segment that begins under an alias: it expands from that alias to the alias of its
node with the pattern's direction and hops, and it joins the node on its own id. -/
structure StepOf (segment : Segment) (cursor_alias : String) (step : Step) : Prop where
  property : ∃ type ∈ segment.1.types.head?, step.expand.property_iri = type.value
  direction : step.expand.direction = segment.1.direction.expand
  src : step.expand.src_alias = cursor_alias ++ ".nid"
  dst : step.expand.dst_alias = step.scan.alias_name ++ ".nid"
  edge : step.expand.edge_alias = segment.1.var
  hops : (step.expand.hop_min, some step.expand.hop_max) = segment.1.hop_range.hops
  scan : ScanOf segment.2 step.scan
  join : step.join = idJoin step.scan.alias_name

/-- The steps of a chain, each from the alias of the scan before it. -/
def StepsOf : String → List Segment → List Step → Prop
  | _, [], steps => steps = []
  | cursor_alias, segment :: segments, steps =>
      ∃ step rest, steps = step :: rest ∧ StepOf segment cursor_alias step ∧
        StepsOf step.scan.alias_name segments rest

/-- A plan is the chain of a pattern, and its nodes have distinct aliases. -/
def Faithful (head : NodePattern) (segments : List Segment) (plan : LogicalOp) : Prop :=
  ∃ first steps, chainOf plan = some (first, steps) ∧ ScanOf head first ∧
    StepsOf first.alias_name segments steps ∧
      (first.alias_name :: steps.map fun step => step.scan.alias_name).Nodup

/-- Every node has a label and every relationship a type. -/
structure Labelled (head : NodePattern) (segments : List Segment) : Prop where
  head : head.labels ≠ []
  types : ∀ segment ∈ segments, segment.1.types ≠ []
  labels : ∀ segment ∈ segments, segment.2.labels ≠ []

/-! ## What the compiler makes -/

/-- The step of a segment. -/
def lowerStep (count : Nat) (cursor_alias : String) (segment : Segment) : Step :=
  let next_alias := segment.2.var.getD ("n" ++ toString count)
  let hop_min := orElse segment.1.hop_range.min_hops 1
  let label := (segment.2.labels.head?.map NameRef.value).getD ""
  { expand :=
      { property_iri := (segment.1.types.head?.map NameRef.value).getD ""
        direction := segment.1.direction.expand
        src_alias := cursor_alias ++ ".nid"
        dst_alias := next_alias ++ ".nid"
        edge_alias := segment.1.var
        hop_min
        hop_max := orElse segment.1.hop_range.max_hops hop_min }
    scan := { class_iri := label, local_name := localOf label, alias_name := next_alias }
    join := idJoin next_alias }

def lowerSteps (count : Nat) : String → List Segment → List Step
  | _, [] => []
  | cursor_alias, segment :: segments =>
      let step := lowerStep count cursor_alias segment
      step :: lowerSteps count step.scan.alias_name segments

/-- One segment adds its step to the plan. -/
theorem lower_segment (count : Nat) {segment : Segment} (typed : segment.1.types ≠ [])
    (labelled : segment.2.labels ≠ []) (plan : LogicalOp) (cursor_alias : String) :
    [PatternElem.rel segment.1, .node segment.2].foldlM (lowerElem count)
        { plan, cursor_alias, rel := none } =
      .ok {
        plan := .join (.expand plan (lowerStep count cursor_alias segment).expand)
          (.nodeScan (lowerStep count cursor_alias segment).scan) (lowerStep count cursor_alias segment).join
        cursor_alias := (lowerStep count cursor_alias segment).scan.alias_name
        rel := none } := by
  obtain ⟨rel, elem⟩ := segment
  obtain ⟨type, types, hasType⟩ := List.exists_cons_of_ne_nil typed
  obtain ⟨label, labels, hasLabel⟩ := List.exists_cons_of_ne_nil labelled
  replace hasType : rel.types = type :: types := hasType
  replace hasLabel : elem.labels = label :: labels := hasLabel
  have resolved : resolveRelType rel = .ok type.value := by rw [resolveRelType, hasType]
  have scanned (alias_name : String) : nodeScan elem alias_name =
      .ok { class_iri := label.value, local_name := localOf label.value, alias_name } := by
    rw [nodeScan, resolveLabel, hasLabel]
    rfl
  rw [List.foldlM_cons, lowerElem, ok_bind, List.foldlM_cons, lowerElem]
  simp only [resolved, scanned, ok_bind, lowerStep, hasType, hasLabel]
  rfl

/-- The loop over the elements builds a chain of these steps. -/
theorem lower_elements (count : Nat) (segments : List Segment)
    (types : ∀ segment ∈ segments, segment.1.types ≠ [])
    (labels : ∀ segment ∈ segments, segment.2.labels ≠ []) (plan : LogicalOp) (cursor_alias : String)
    {first : NodeScan} {steps : List Step} (chain : chainOf plan = some (first, steps)) :
    ∃ state, (tailElements segments).foldlM (lowerElem count) { plan, cursor_alias, rel := none } =
        .ok state ∧
      chainOf state.plan = some (first, steps ++ lowerSteps count cursor_alias segments) := by
  induction segments generalizing plan cursor_alias steps with
  | nil => exact ⟨_, rfl, by rw [lowerSteps, List.append_nil]; exact chain⟩
  | cons segment segments inductionHypothesis =>
    obtain ⟨typed, othersTyped⟩ := List.forall_mem_cons.mp types
    obtain ⟨labelled, othersLabelled⟩ := List.forall_mem_cons.mp labels
    have chained : chainOf (.join (.expand plan (lowerStep count cursor_alias segment).expand)
        (.nodeScan (lowerStep count cursor_alias segment).scan)
          (lowerStep count cursor_alias segment).join) =
        some (first, steps ++ [lowerStep count cursor_alias segment]) := by
      rw [chainOf, chain]
      rfl
    obtain ⟨state, run, final⟩ := inductionHypothesis othersTyped othersLabelled _
      (lowerStep count cursor_alias segment).scan.alias_name chained
    refine ⟨state, ?_, ?_⟩
    · rw [tailElements, List.flatMap_cons, List.foldlM_append,
        lower_segment count typed labelled plan cursor_alias, ok_bind]
      exact run
    · rw [final, List.append_assoc]
      rfl

/-- A pattern that alternates and has its labels and types is lowered to a chain of its steps. -/
theorem compile_chain (head : NodePattern) (segments : List Segment) (binding : Option String)
    (labelled : Labelled head segments) :
    ∃ plan scan, compilePattern (alternating head segments binding) = .ok plan ∧ ScanOf head scan ∧
      scan.alias_name = head.var.getD "n0" ∧
      chainOf plan = some (scan, lowerSteps (1 + 2 * segments.length) scan.alias_name segments) := by
  obtain ⟨label, labels, hasLabel⟩ := List.exists_cons_of_ne_nil labelled.head
  have scanned (alias_name : String) : nodeScan head alias_name =
      .ok { class_iri := label.value, local_name := localOf label.value, alias_name } := by
    rw [nodeScan, resolveLabel, hasLabel]
    rfl
  have count : (alternating head segments binding).elements.length = 1 + 2 * segments.length := by
    simp [alternating, tailElements, List.length_flatMap]
    omega
  obtain ⟨state, run, chain⟩ := lower_elements (1 + 2 * segments.length) segments labelled.types
    labelled.labels (.nodeScan { class_iri := label.value, local_name := localOf label.value
                                 alias_name := head.var.getD "n0" }) (head.var.getD "n0") rfl
  refine ⟨state.plan, { class_iri := label.value, local_name := localOf label.value
                        alias_name := head.var.getD "n0" }, ?_, ⟨⟨label, ?_, rfl, rfl⟩, ?_, rfl⟩,
    rfl, chain⟩
  · rw [compilePattern, count, alternating]
    simp only [scanned, ok_bind, run]
    rfl
  · rw [hasLabel]
    exact rfl
  · intro name given
    rw [Option.mem_def.mp given]
    rfl

/-! ## Hops -/

/-- The truth values of the bounds do not change a range: there is none, or neither bound is zero and
there is an upper one. -/
def HopsKept (range : HopRange) : Prop :=
  range = {} ∨ range.min_hops ≠ some 0 ∧ ∃ most, range.max_hops = some most ∧ most ≠ 0

theorem hops_kept (range : HopRange) :
    (orElse range.min_hops 1, some (orElse range.max_hops (orElse range.min_hops 1))) = range.hops ↔
      HopsKept range := by
  obtain ⟨least, most⟩ := range
  cases least with
  | none =>
    cases most with
    | none => simp [orElse, HopRange.hops, HopsKept]
    | some most => by_cases none : most = 0 <;> simp [orElse, HopRange.hops, HopsKept, none]
  | some least =>
    cases most with
    | none => simp [orElse, HopRange.hops, HopsKept]
    | some most =>
      by_cases none : least = 0 <;> by_cases noneToo : most = 0 <;>
        simp [orElse, HopRange.hops, HopsKept, none, noneToo]

/-- The steps of the compiler are those of the pattern exactly if the ranges are kept. -/
theorem stepsOf_iff (count : Nat) (segments : List Segment)
    (types : ∀ segment ∈ segments, segment.1.types ≠ [])
    (labels : ∀ segment ∈ segments, segment.2.labels ≠ []) (cursor_alias : String) :
    StepsOf cursor_alias segments (lowerSteps count cursor_alias segments) ↔
      ∀ segment ∈ segments, HopsKept segment.1.hop_range := by
  induction segments generalizing cursor_alias with
  | nil => simp [StepsOf, lowerSteps]
  | cons segment segments inductionHypothesis =>
    obtain ⟨typed, othersTyped⟩ := List.forall_mem_cons.mp types
    obtain ⟨labelled, othersLabelled⟩ := List.forall_mem_cons.mp labels
    have rest := inductionHypothesis othersTyped othersLabelled
      (lowerStep count cursor_alias segment).scan.alias_name
    have step : StepOf segment cursor_alias (lowerStep count cursor_alias segment) ↔
        HopsKept segment.1.hop_range := by
      refine ⟨fun step => (hops_kept _).mp step.hops, fun kept => ?_⟩
      obtain ⟨type, types, hasType⟩ := List.exists_cons_of_ne_nil typed
      obtain ⟨label, labels, hasLabel⟩ := List.exists_cons_of_ne_nil labelled
      refine ⟨⟨type, ?_, ?_⟩, rfl, rfl, rfl, rfl, (hops_kept _).mpr kept,
        ⟨⟨label, ?_, ?_, ?_⟩, fun name given => ?_, rfl⟩, rfl⟩
      all_goals simp only [lowerStep, hasType, hasLabel, List.head?_cons, Option.mem_def, Option.map_some,
        Option.getD_some]
      rw [Option.mem_def.mp given, Option.getD_some]
    rw [lowerSteps, StepsOf, List.forall_mem_cons, ← step, ← rest]
    constructor
    · rintro ⟨_, _, same, first, others⟩
      cases same
      exact ⟨first, others⟩
    · rintro ⟨first, others⟩
      exact ⟨_, _, rfl, first, others⟩

/-! ## Aliases -/

theorem aliases_lowerSteps (count : Nat) (segments : List Segment) (cursor_alias : String) :
    (lowerSteps count cursor_alias segments).map (fun step => step.scan.alias_name) =
      (segments.map fun segment => segment.2.var).map fun var => var.getD ("n" ++ toString count) := by
  induction segments generalizing cursor_alias with
  | nil => rfl
  | cons segment segments inductionHypothesis =>
    rw [lowerSteps, List.map_cons, inductionHypothesis]
    rfl

theorem mem_getD {vars : List (Option String)} {default name : String} :
    name ∈ vars.map (fun var => var.getD default) ↔ some name ∈ vars ∨ none ∈ vars ∧ name = default := by
  simp only [List.mem_map]
  constructor
  · rintro ⟨var, member, rfl⟩
    cases var with
    | none => exact .inr ⟨member, rfl⟩
    | some name => exact .inl member
  · rintro (member | ⟨member, rfl⟩)
    · exact ⟨_, member, rfl⟩
    · exact ⟨_, member, rfl⟩

/-- A default makes distinct names of distinct names exactly if it is used once at most and is no name. -/
theorem nodup_getD (vars : List (Option String)) (default : String) :
    (vars.map fun var => var.getD default).Nodup ↔
      (vars.filterMap id).Nodup ∧ vars.count none ≤ 1 ∧ (none ∈ vars → some default ∉ vars) := by
  induction vars with
  | nil => simp
  | cons var vars inductionHypothesis =>
    rw [List.map_cons, List.nodup_cons, inductionHypothesis]
    cases var with
    | none =>
      rw [Option.getD_none, mem_getD]
      simp only [List.filterMap_cons, id, List.count_cons_self, List.mem_cons, true_or, forall_true_left,
        and_true, reduceCtorEq, false_or]
      constructor
      · rintro ⟨fresh, distinct, few, _⟩
        have zero : none ∉ vars := fun member => fresh (.inr member)
        refine ⟨distinct, ?_, fun member => fresh (.inl member)⟩
        rw [List.count_eq_zero.mpr zero]
      · rintro ⟨distinct, few, fresh⟩
        have zero : none ∉ vars := List.count_eq_zero.mp (by omega)
        exact ⟨fun given => given.elim fresh zero, distinct, by omega, fun member => absurd member zero⟩
    | some name =>
      rw [Option.getD_some, mem_getD]
      have same : (∃ var ∈ vars, var = some name) ↔ some name ∈ vars := by simp
      have count : (some name :: vars).count none = vars.count none :=
        List.count_cons_of_ne (Option.some_ne_none name)
      simp only [List.filterMap_cons, id, List.nodup_cons, List.mem_filterMap, List.mem_cons,
        reduceCtorEq, false_or, Option.some_inj, same, count]
      constructor
      · rintro ⟨fresh, distinct, few, free⟩
        refine ⟨⟨fun member => fresh (.inl member), distinct⟩, few, fun anonymous => ?_⟩
        rintro (rfl | member)
        · exact fresh (.inr ⟨anonymous, rfl⟩)
        · exact free anonymous member
      · rintro ⟨⟨fresh, distinct⟩, few, free⟩
        refine ⟨?_, distinct, few, fun anonymous member => free anonymous (.inr member)⟩
        rintro (member | ⟨anonymous, rfl⟩)
        · exact fresh member
        · exact free anonymous (.inl rfl)

/-- The alias of an anonymous first node is never that of an anonymous later one. -/
theorem generated_apart {count : Nat} (positive : 0 < count) : "n0" ≠ "n" ++ toString count := by
  intro same
  have chars := congrArg String.toList same
  rw [String.toList_append, show "n0".toList = "n".toList ++ ['0'] from rfl,
    List.append_cancel_left_eq, Nat.toString_eq_ofList_toDigits, String.toList_ofList] at chars
  have number := congrArg (fun digits => Nat.ofDigitChars 10 digits 0) chars
  simp only [Nat.ofDigitChars_toDigits (show 1 < 10 by decide) (le_refl 10)] at number
  exact absurd number.symm positive.ne'

/-- What the aliases of a pattern need to be distinct: no two nodes have one variable, at most one node
behind the first has none, and no variable is an alias that is generated for another node. -/
structure Nameable (head : NodePattern) (segments : List Segment) : Prop where
  distinct : ((head :: segments.map Prod.snd).filterMap NodePattern.var).Nodup
  few : (segments.map fun segment => segment.2.var).count none ≤ 1
  first : head.var = none → ∀ segment ∈ segments, segment.2.var ≠ some "n0"
  later : (∃ segment ∈ segments, segment.2.var = none) →
    ∀ node ∈ head :: segments.map Prod.snd, node.var ≠ some ("n" ++ toString (1 + 2 * segments.length))

theorem nodup_aliases (head : NodePattern) (segments : List Segment) (cursor_alias : String) :
    (head.var.getD "n0" :: (lowerSteps (1 + 2 * segments.length) cursor_alias segments).map fun step =>
      step.scan.alias_name).Nodup ↔ Nameable head segments := by
  have apart := generated_apart (show 0 < 1 + 2 * segments.length by omega)
  have names : (segments.map Prod.snd).filterMap NodePattern.var =
      (segments.map fun segment => segment.2.var).filterMap id := by
    rw [List.filterMap_map, List.filterMap_map]
    rfl
  have anonymous : none ∈ segments.map (fun segment => segment.2.var) ↔
      ∃ segment ∈ segments, segment.2.var = none := List.mem_map
  have named (name : String) : some name ∈ segments.map (fun segment => segment.2.var) ↔
      ∃ segment ∈ segments, segment.2.var = some name := List.mem_map
  have among (name : String) : name ∈ (segments.map Prod.snd).filterMap NodePattern.var ↔
      some name ∈ segments.map (fun segment => segment.2.var) := by
    rw [names, List.mem_filterMap]
    simp
  rw [aliases_lowerSteps, List.nodup_cons, mem_getD, nodup_getD, ← names]
  cases first : head.var with
  | none =>
    rw [Option.getD_none]
    constructor
    · rintro ⟨fresh, distinct, few, free⟩
      refine ⟨?_, few, fun _ segment member isFirst => ?_, fun later => ?_⟩
      · rw [List.filterMap_cons_none first]
        exact distinct
      · exact fresh (.inl ((named _).mpr ⟨segment, member, isFirst⟩))
      · refine List.forall_mem_cons.mpr ⟨?_, fun node member isGenerated => ?_⟩
        · rw [first]
          nofun
        · obtain ⟨segment, held, rfl⟩ := List.mem_map.mp member
          exact free (anonymous.mpr later) ((named _).mpr ⟨segment, held, isGenerated⟩)
    · rintro ⟨distinct, few, fresh, free⟩
      rw [List.filterMap_cons_none first] at distinct
      refine ⟨?_, distinct, few, fun later member => ?_⟩
      · rintro (member | ⟨_, same⟩)
        · obtain ⟨segment, held, isFirst⟩ := (named _).mp member
          exact fresh first segment held isFirst
        · exact apart same
      · obtain ⟨segment, held, isGenerated⟩ := (named _).mp member
        exact free (anonymous.mp later) segment.2
          (List.mem_cons_of_mem _ (List.mem_map_of_mem held)) isGenerated
  | some name =>
    rw [Option.getD_some]
    constructor
    · rintro ⟨fresh, distinct, few, free⟩
      refine ⟨?_, few, fun none => ?_, fun later => ?_⟩
      · rw [List.filterMap_cons_some first, List.nodup_cons, among]
        exact ⟨fun member => fresh (.inl member), distinct⟩
      · rw [first] at none
        cases none
      · refine List.forall_mem_cons.mpr ⟨fun isGenerated => ?_, fun node member isGenerated => ?_⟩
        · rw [first] at isGenerated
          exact fresh (.inr ⟨anonymous.mpr later, Option.some.inj isGenerated⟩)
        · obtain ⟨segment, held, rfl⟩ := List.mem_map.mp member
          exact free (anonymous.mpr later) ((named _).mpr ⟨segment, held, isGenerated⟩)
    · rintro ⟨distinct, few, _, free⟩
      rw [List.filterMap_cons_some first, List.nodup_cons, among] at distinct
      refine ⟨?_, distinct.2, few, fun later member => ?_⟩
      · rintro (member | ⟨later, same⟩)
        · exact distinct.1 member
        · refine free (anonymous.mp later) head List.mem_cons_self ?_
          rw [first, same]
      · obtain ⟨segment, held, isGenerated⟩ := (named _).mp member
        exact free (anonymous.mp later) segment.2
          (List.mem_cons_of_mem _ (List.mem_map_of_mem held)) isGenerated

/-- A pattern that alternates and has its labels and types is lowered to its chain, with distinct
aliases, exactly if its ranges are kept and its nodes can be told apart by their names. -/
theorem pattern_lowered (head : NodePattern) (segments : List Segment) (binding : Option String)
    (labelled : Labelled head segments) :
    (∃ plan, compilePattern (alternating head segments binding) = .ok plan ∧
      Faithful head segments plan) ↔
      (∀ segment ∈ segments, HopsKept segment.1.hop_range) ∧ Nameable head segments := by
  obtain ⟨plan, scan, compiled, isScan, name, chain⟩ := compile_chain head segments binding labelled
  have faithful : Faithful head segments plan ↔
      (∀ segment ∈ segments, HopsKept segment.1.hop_range) ∧ Nameable head segments := by
    rw [← nodup_aliases head segments scan.alias_name, ← name,
      ← stepsOf_iff (1 + 2 * segments.length) segments labelled.types labelled.labels scan.alias_name]
    constructor
    · rintro ⟨_, _, chained, _, steps, distinct⟩
      rw [chain] at chained
      cases chained
      exact ⟨steps, distinct⟩
    · rintro ⟨steps, distinct⟩
      exact ⟨_, _, chain, isScan, steps, distinct⟩
  rw [← faithful, compiled]
  constructor
  · rintro ⟨_, same, held⟩
    cases same
    exact held
  · exact fun held => ⟨plan, rfl, held⟩

/-- A relationship between two nodes with variables is lowered to its chain. -/
theorem one_hop_lowered :
    let head : NodePattern := { var := some "g", labels := [.qname "Gene"] }
    let segments : List Segment :=
      [({ types := [.qname "interactsWith"] }, { var := some "t", labels := [.qname "Tissue"] })]
    ∃ plan, compilePattern (alternating head segments none) = .ok plan ∧ Faithful head segments plan := by
  intro head segments
  have labelled : Labelled head segments :=
    ⟨List.cons_ne_nil _ _, by simp [segments], by simp [segments]⟩
  refine (pattern_lowered head segments none labelled).mpr ⟨?_, ?_, ?_, nofun, ?_⟩
  · simp [segments, HopsKept]
  · decide
  · decide
  · rintro ⟨segment, member, anonymous⟩
    rw [List.mem_singleton.mp member] at anonymous
    cases anonymous

/-- Of two anonymous nodes behind the first both have one alias, and a lower bound of zero and an absent
upper bound are lost. -/
theorem anonymous_nodes_clash :
    let gene : NodePattern := { labels := [.qname "Gene"] }
    let step (hop_range : HopRange) : Segment := ({ types := [.qname "interactsWith"], hop_range }, gene)
    let found (segments : List Segment) : Option (List (String × Int × Int)) :=
      match compilePattern (alternating gene segments none) with
      | .ok plan => (chainOf plan).map fun (_, steps) => steps.map fun step =>
          (step.scan.alias_name, step.expand.hop_min, step.expand.hop_max)
      | .error _ => none
    found [step {}, step {}] = some [("n5", 1, 1), ("n5", 1, 1)] ∧
      found [step { min_hops := some 0, max_hops := some 2 }] = some [("n3", 1, 2)] ∧
      found [step { min_hops := some 2 }] = some [("n3", 2, 2)] ∧
      ¬ ∃ plan, compilePattern (alternating gene [step {}, step {}] none) = .ok plan ∧
        Faithful gene [step {}, step {}] plan := by
  refine ⟨by decide, by decide, by decide, ?_⟩
  rintro ⟨plan, compiled, first, steps, chain, _, _, distinct⟩
  obtain ⟨_, scan, run, _, _, chained⟩ := compile_chain { labels := [.qname "Gene"] }
    [({ types := [.qname "interactsWith"] }, { labels := [.qname "Gene"] }),
      ({ types := [.qname "interactsWith"] }, { labels := [.qname "Gene"] })] none
    ⟨List.cons_ne_nil _ _, by simp, by simp⟩
  rw [run] at compiled
  cases compiled
  rw [chained] at chain
  cases chain
  exact absurd (List.nodup_cons.mp distinct).2 (by simp [lowerSteps, lowerStep])

end CaracalDB.Tuft
