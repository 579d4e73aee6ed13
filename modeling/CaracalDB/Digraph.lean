import Mathlib.Data.List.Nodup
import Mathlib.Logic.Relation
import Mathlib.SetTheory.Cardinal.NatCard

/-!
# Finite directed graphs

A graph lists its nodes and, for each node, its parents. Sorting takes away one
node without waiting parents after the other; it takes all of them when there is no
cycle. Collecting goes down from a node, depth first, and finds what can be reached.
-/

namespace CaracalDB.Digraph

open Relation

variable {Node : Type} [DecidableEq Node]

/-- The nodes that have a node as a parent. -/
def children (nodes : List Node) (parents : Node → List Node) (node : Node) : List Node :=
  nodes.filter fun child => node ∈ parents child

/-- One step down. -/
def Below (parents : Node → List Node) (node child : Node) : Prop := node ∈ parents child

/-- No way down leads back to where it began. -/
def Acyclic (parents : Node → List Node) : Prop :=
  ∀ node, ¬ TransGen (Below parents) node node

/-- Distinct nodes whose parents are nodes, each listed once. -/
structure WellFormed (nodes : List Node) (parents : Node → List Node) : Prop where
  distinct : nodes.Nodup
  once : ∀ node ∈ nodes, (parents node).Nodup
  known : ∀ node ∈ nodes, ∀ parent ∈ parents node, parent ∈ nodes

theorem nodup_eraseDups (list : List Node) : list.eraseDups.Nodup := by
  induction length : list.length using Nat.strong_induction_on generalizing list with
  | _ size inductionHypothesis =>
    cases list with
    | nil => exact List.nodup_nil
    | cons first rest =>
      rw [List.eraseDups_cons, List.nodup_cons]
      refine ⟨fun member => ?_, inductionHypothesis _ ?_ _ rfl⟩
      · have kept := List.of_mem_filter (List.mem_eraseDups.mp member)
        simp at kept
      · rw [← length, List.length_cons]
        exact Nat.lt_succ_of_le (List.length_filter_le _ _)

omit [DecidableEq Node] in
/-- A graph whose parents have lower ranks has no cycles. -/
theorem acyclic_of_rank {parents : Node → List Node} (rank : Node → Nat)
    (lower : ∀ node, ∀ parent ∈ parents node, rank parent < rank node) : Acyclic parents := by
  intro node cycle
  have descends : ∀ {first last}, TransGen (Below parents) first last → rank first < rank last := by
    intro first last path
    induction path with
    | single step => exact lower _ _ step
    | tail _ step inductionHypothesis => exact inductionHypothesis.trans (lower _ _ step)
  exact Nat.lt_irrefl _ (descends cycle)

theorem mem_children {nodes : List Node} {parents : Node → List Node} {node child : Node} :
    child ∈ children nodes parents node ↔ child ∈ nodes ∧ node ∈ parents child := by
  rw [children, List.mem_filter, decide_eq_true_eq]

/-- Every node of an order stands behind its parents. -/
def Topological (parents : Node → List Node) (order : List Node) : Prop :=
  ∀ front node back, order = front ++ node :: back → ∀ parent ∈ parents node, parent ∈ front

omit [DecidableEq Node] in
theorem Topological.snoc {parents : Node → List Node} {order : List Node} {node : Node}
    (topological : Topological parents order) (taken : ∀ parent ∈ parents node, parent ∈ order) :
    Topological parents (order ++ [node]) := by
  intro front other back split
  rcases List.append_eq_append_iff.mp split with ⟨middle, frontIs, rest⟩ | ⟨middle, orderIs, rest⟩
  · cases middle with
    | nil =>
      cases rest
      rw [frontIs, List.append_nil]
      exact taken
    | cons first middle =>
      have length := congrArg List.length rest
      simp at length
  · cases middle with
    | nil =>
      cases rest
      rw [List.append_nil] at orderIs
      exact orderIs ▸ taken
    | cons first middle =>
      obtain ⟨rfl, _⟩ := List.cons.inj rest
      exact topological front other middle orderIs

theorem Topological.idxOf_lt {parents : Node → List Node} {order : List Node} {child parent : Node}
    (topological : Topological parents order) (distinct : order.Nodup) (inside : child ∈ order)
    (among : parent ∈ parents child) : order.idxOf parent < order.idxOf child := by
  obtain ⟨front, back, split⟩ := List.append_of_mem inside
  have before := topological front child back split parent among
  rw [split] at distinct ⊢
  have absent : child ∉ front := fun member =>
    (List.nodup_append.mp distinct).2.2 child member child List.mem_cons_self rfl
  rw [List.idxOf_append_of_mem before, List.idxOf_append_of_notMem absent]
  exact Nat.lt_add_right _ (List.idxOf_lt_length_of_mem before)

/-- Lists of the children of every node, in any order. -/
structure Lists (nodes : List Node) (parents kids : Node → List Node) : Prop where
  distinct : ∀ node, (kids node).Nodup
  mem : ∀ node child, child ∈ kids node ↔ child ∈ nodes ∧ node ∈ parents child

theorem children_lists {nodes : List Node} {parents : Node → List Node} (distinct : nodes.Nodup) :
    Lists nodes parents (children nodes parents) :=
  ⟨fun _ => distinct.filter _, fun _ _ => mem_children⟩

/-! ## Sorting -/

structure Sorting (Node : Type) where
  indegree : Node → Nat
  queue : List Node
  ordered : List Node

/-- One child of the node that was taken has one waiting parent less. -/
def Sorting.lower (state : Sorting Node) (child : Node) : Sorting Node :=
  let indegree := Function.update state.indegree child (state.indegree child - 1)
  { state with
    indegree
    queue := if indegree child = 0 then state.queue ++ [child] else state.queue }

/-- Take nodes from the queue until it is empty. -/
def sort (children : Node → List Node) : Nat → Sorting Node → List Node
  | 0, state => state.ordered
  | fuel + 1, state =>
      match state.queue with
      | [] => state.ordered
      | node :: queue => sort children fuel
          ((children node).foldl Sorting.lower
            { state with queue, ordered := state.ordered ++ [node] })

/-- What lowering the counts of distinct nodes does. -/
theorem foldl_lower (list : List Node) (distinct : list.Nodup) (state : Sorting Node) :
    list.foldl Sorting.lower state =
      { indegree := fun node => if node ∈ list then state.indegree node - 1 else state.indegree node
        queue := state.queue ++ list.filter fun node => state.indegree node - 1 = 0
        ordered := state.ordered } := by
  induction list generalizing state with
  | nil => simp
  | cons first list inductionHypothesis =>
    obtain ⟨absent, distinctRest⟩ := List.nodup_cons.mp distinct
    rw [List.foldl_cons, inductionHypothesis distinctRest]
    have others : ∀ node ∈ list, (state.lower first).indegree node = state.indegree node := by
      intro node member
      have apart : node ≠ first := fun same => absent (same ▸ member)
      simp [Sorting.lower, apart]
    have queued : (list.filter fun node => (state.lower first).indegree node - 1 = 0) =
        list.filter fun node => state.indegree node - 1 = 0 :=
      List.filter_congr fun node member => by rw [others node member]
    rw [queued]
    congr 1
    · funext node
      by_cases same : node = first
      · subst same
        simp [absent, Sorting.lower]
      · simp [same, Sorting.lower]
    · by_cases zero : state.indegree first - 1 = 0
      · simp [Sorting.lower, zero]
      · simp [Sorting.lower, zero]

/-- The counts are those of the parents that were not taken, and exactly the nodes without such
parents were taken or wait. -/
structure Sorting.Fits (nodes : List Node) (parents : Node → List Node) (state : Sorting Node) :
    Prop where
  distinct : (state.ordered ++ state.queue).Nodup
  known : ∀ node ∈ state.ordered ++ state.queue, node ∈ nodes
  counts : ∀ node ∈ nodes,
    state.indegree node = ((parents node).filter fun parent => parent ∉ state.ordered).length
  ready : ∀ node ∈ nodes, node ∈ state.ordered ++ state.queue ↔ state.indegree node = 0

section Sorting

variable {nodes : List Node} {parents kids : Node → List Node}

/-- Taking a parent away lowers the count of the others by one. -/
theorem length_filter_not_mem_append {list taken : List Node} (distinct : list.Nodup) {node : Node}
    (fresh : node ∉ taken) : (list.filter fun parent => parent ∉ taken ++ [node]).length =
      if node ∈ list then (list.filter fun parent => parent ∉ taken).length - 1
      else (list.filter fun parent => parent ∉ taken).length := by
  have split : (list.filter fun parent => parent ∉ taken ++ [node]) =
      (list.filter fun parent => parent ∉ taken).filter fun parent => parent ≠ node := by
    rw [List.filter_filter]
    apply List.filter_congr
    intro parent _
    simp only [List.mem_append, List.mem_singleton, not_or, ne_eq, Bool.decide_and, Bool.and_comm]
  have distinctFiltered := distinct.filter fun parent => decide (parent ∉ taken)
  have erased := distinctFiltered.erase_eq_filter node
  have same : ((list.filter fun parent => parent ∉ taken).filter fun parent => parent ≠ node) =
      (list.filter fun parent => parent ∉ taken).erase node := by
    rw [erased]
    apply List.filter_congr
    intro parent _
    simp [bne, BEq.beq]
  rw [split, same, List.length_erase]
  have inside : node ∈ (list.filter fun parent => parent ∉ taken) ↔ node ∈ list := by
    rw [List.mem_filter, decide_eq_true_eq]
    exact ⟨fun both => both.1, fun member => ⟨member, fresh⟩⟩
  simp only [inside]

theorem fits_step (formed : WellFormed nodes parents) (lists : Lists nodes parents kids)
    {state : Sorting Node} (fits : state.Fits nodes parents) {node : Node} {queue : List Node}
    (waiting : state.queue = node :: queue) :
    ((kids node).foldl Sorting.lower
      { state with queue, ordered := state.ordered ++ [node] }).Fits nodes parents := by
  have distinctChildren : (kids node).Nodup := lists.distinct node
  rw [foldl_lower _ distinctChildren]
  have regroup : state.ordered ++ state.queue = state.ordered ++ [node] ++ queue := by
    rw [waiting, List.append_assoc, List.singleton_append]
  have distinct := fits.distinct
  rw [regroup] at distinct
  have fresh : node ∉ state.ordered := fun taken =>
    (List.nodup_append.mp (List.nodup_append.mp distinct).1).2.2 node taken node
      (List.mem_singleton_self node) rfl
  -- a child of the node has the node as a waiting parent, so it is neither taken nor ready
  have positive : ∀ child ∈ kids node, state.indegree child ≠ 0 := by
    intro child member zero
    obtain ⟨known, parent⟩ := (lists.mem node child).mp member
    rw [fits.counts child known, List.length_eq_zero_iff] at zero
    have among : node ∈ (parents child).filter fun parent => parent ∉ state.ordered :=
      List.mem_filter.mpr ⟨parent, decide_eq_true fresh⟩
    rw [zero] at among
    cases among
  have outside : ∀ child ∈ kids node,
      child ∉ state.ordered ++ [node] ++ queue := by
    intro child member inside
    rw [← regroup] at inside
    exact positive child member ((fits.ready child ((lists.mem node child).mp member).1).mp inside)
  have counts : ∀ other ∈ nodes, (if other ∈ kids node
      then state.indegree other - 1 else state.indegree other) =
        ((parents other).filter fun parent => parent ∉ state.ordered ++ [node]).length := by
    intro other known
    rw [length_filter_not_mem_append (formed.once other known) fresh, fits.counts other known]
    have isChild : other ∈ kids node ↔ node ∈ parents other :=
      (lists.mem node other).trans ⟨fun both => both.2, fun parent => ⟨known, parent⟩⟩
    simp only [isChild]
  refine ⟨?_, ?_, counts, ?_⟩
  · rw [← List.append_assoc, List.nodup_append]
    refine ⟨distinct, distinctChildren.filter _, ?_⟩
    rintro child inside other new rfl
    exact outside child (List.mem_of_mem_filter new) inside
  · intro other member
    rw [← List.append_assoc] at member
    rcases List.mem_append.mp member with old | new
    · exact fits.known other (regroup ▸ old)
    · exact ((lists.mem node other).mp (List.mem_of_mem_filter new)).1
  · intro other known
    have ready := fits.ready other known
    rw [regroup] at ready
    rw [← List.append_assoc, List.mem_append, List.mem_filter, decide_eq_true_eq, ready]
    by_cases child : other ∈ kids node
    · have some_parent := positive other child
      simp [child, some_parent]
    · simp [child]

/-- Nodes that were not taken when the queue is empty would lead up for ever. -/
theorem all_ordered (formed : WellFormed nodes parents) (acyclic : Acyclic parents)
    {state : Sorting Node} (fits : state.Fits nodes parents) (done : state.queue = []) :
    ∀ node ∈ nodes, node ∈ state.ordered := by
  let Upward (child node : {node // node ∈ nodes}) : Prop :=
    TransGen (Below parents) child.val node.val
  have : Finite {node // node ∈ nodes} := (List.finite_toSet nodes).to_subtype
  have : IsTrans {node // node ∈ nodes} Upward := ⟨fun _ _ _ first second => first.trans second⟩
  have : Std.Irrefl Upward := ⟨fun node => acyclic node.val⟩
  have founded : WellFounded Upward := Finite.wellFounded_of_trans_of_irrefl Upward
  intro node known
  have taken : ∀ node : {node // node ∈ nodes}, node.val ∈ state.ordered := by
    intro node
    induction node using founded.induction with
    | _ node inductionHypothesis =>
      have none_waits : ((parents node.val).filter fun parent => parent ∉ state.ordered) = [] := by
        rw [List.filter_eq_nil_iff]
        intro parent among
        rw [decide_eq_true_eq, not_not]
        exact inductionHypothesis ⟨parent, formed.known _ node.property parent among⟩
          (TransGen.single among)
      have zero : state.indegree node.val = 0 := by
        rw [fits.counts _ node.property, none_waits]
        rfl
      have inside := (fits.ready _ node.property).mpr zero
      rw [done, List.append_nil] at inside
      exact inside
  exact taken ⟨node, known⟩

theorem Sorting.Fits.short {state : Sorting Node} (fits : state.Fits nodes parents) :
    state.ordered.length + state.queue.length ≤ nodes.length := by
  have short := (fits.distinct.subperm fits.known).length_le
  rw [List.length_append] at short
  exact short

/-- The parents of the next node in the queue were taken. -/
theorem Sorting.Fits.parents_taken {state : Sorting Node} (fits : state.Fits nodes parents)
    {node : Node} {queue : List Node} (waiting : state.queue = node :: queue) :
    ∀ parent ∈ parents node, parent ∈ state.ordered := by
  intro parent among
  have inside : node ∈ state.ordered ++ state.queue := by
    rw [waiting]
    exact List.mem_append_right _ List.mem_cons_self
  have zero := (fits.ready node (fits.known node inside)).mp inside
  rw [fits.counts node (fits.known node inside), List.length_eq_zero_iff,
    List.filter_eq_nil_iff] at zero
  exact not_not.mp fun absent => zero parent among (decide_eq_true absent)

/-- Nothing is left out when the queue is empty. -/
theorem Sorting.Fits.finished (formed : WellFormed nodes parents) (acyclic : Acyclic parents)
    {state : Sorting Node} (fits : state.Fits nodes parents) (done : state.queue = []) :
    state.ordered.length = nodes.length := by
  have long := (formed.distinct.subperm (all_ordered formed acyclic fits done)).length_le
  have short := fits.short
  omega

/-- Sorting ends with an empty queue, and its nodes stand behind their parents. -/
theorem sort_fits (formed : WellFormed nodes parents) (lists : Lists nodes parents kids) (fuel : Nat)
    {state : Sorting Node} (fits : state.Fits nodes parents)
    (topological : Topological parents state.ordered)
    (enough : nodes.length ≤ state.ordered.length + fuel) :
    ∃ final : Sorting Node, final.Fits nodes parents ∧ Topological parents final.ordered ∧
      final.queue = [] ∧ sort kids fuel state = final.ordered := by
  induction fuel generalizing state with
  | zero =>
    have short := fits.short
    exact ⟨state, fits, topological, List.length_eq_zero_iff.mp (by omega), rfl⟩
  | succ fuel inductionHypothesis =>
    cases waiting : state.queue with
    | nil => exact ⟨state, fits, topological, waiting, by rw [sort, waiting]⟩
    | cons node queue =>
      have ordered : ((kids node).foldl Sorting.lower
          { state with queue, ordered := state.ordered ++ [node] }).ordered =
            state.ordered ++ [node] := by
        rw [foldl_lower (kids node) (lists.distinct node)]
      obtain ⟨final, fitting, sorted, empty, same⟩ :=
        inductionHypothesis (fits_step formed lists fits waiting)
          (by rw [ordered]; exact topological.snoc (fits.parents_taken waiting))
          (by rw [ordered, List.length_append, List.length_singleton]; omega)
      exact ⟨final, fitting, sorted, empty, by rw [sort, waiting]; exact same⟩

/-- In a graph without cycles all nodes are sorted. -/
theorem sort_length (formed : WellFormed nodes parents) (lists : Lists nodes parents kids)
    (acyclic : Acyclic parents) (fuel : Nat) {state : Sorting Node} (fits : state.Fits nodes parents)
    (topological : Topological parents state.ordered)
    (enough : nodes.length ≤ state.ordered.length + fuel) :
    (sort kids fuel state).length = nodes.length := by
  obtain ⟨final, fitting, _, empty, same⟩ := sort_fits formed lists fuel fits topological enough
  rw [same]
  exact fitting.finished formed acyclic empty

/-- An order of all nodes with their parents before them leaves no cycle. -/
theorem acyclic_of_topological {order : List Node} (topological : Topological parents order)
    (distinct : order.Nodup) (all : ∀ child parent, parent ∈ parents child → child ∈ order) :
    Acyclic parents :=
  acyclic_of_rank order.idxOf fun child parent among =>
    topological.idxOf_lt distinct (all child parent among) among

/-- Counts and queue before anything is taken. -/
def Sorting.start (nodes : List Node) (parents : Node → List Node) : Sorting Node where
  indegree node := (parents node).length
  queue := nodes.filter fun node => (parents node).length = 0
  ordered := []

omit [DecidableEq Node] in
/-- Nothing was taken yet. -/
theorem topological_nil : Topological parents ([] : List Node) := by
  intro front node back split
  have length := congrArg List.length split
  simp at length

theorem start_fits (formed : WellFormed nodes parents) :
    (Sorting.start nodes parents).Fits nodes parents := by
  refine ⟨?_, ?_, ?_, ?_⟩
  · exact formed.distinct.filter _
  · exact fun node member => List.mem_of_mem_filter member
  · intro node _
    simp [Sorting.start]
  · intro node known
    simp [Sorting.start, known]

end Sorting

/-! ## Collecting -/

/-- Everything that can be reached from a node and was not seen before, found depth first. -/
def collect (children : Node → List Node) : Nat → Node → List Node → List Node
  | 0, _, seen => seen
  | fuel + 1, node, seen => (children node).foldl
      (fun seen child => if child ∈ seen then seen
        else collect children fuel child (seen ++ [child])) seen

/-- What a part of the search gives: it keeps what was seen, adds nodes that can be reached, and has
looked below each node that it added. -/
structure Collects (children : Node → List Node) (source : Node) (seen found : List Node) : Prop where
  keeps : ∀ node ∈ seen, node ∈ found
  reaches : ∀ node ∈ found, node ∈ seen ∨ TransGen (fun node child => child ∈ children node) source node
  looks : ∀ node ∈ found, node ∉ seen → ∀ child ∈ children node, child ∈ found
  distinct : seen.Nodup → found.Nodup

section Collecting

variable {children : Node → List Node} {nodes : List Node}

/-- The nodes that were not seen. -/
def unseen (nodes seen : List Node) : List Node := nodes.filter fun node => node ∉ seen

theorem unseen_lt {seen : List Node} {child : Node} (known : child ∈ nodes) (fresh : child ∉ seen)
    (distinct : nodes.Nodup) :
    (unseen nodes (seen ++ [child])).length + 1 ≤ (unseen nodes seen).length := by
  rw [unseen, length_filter_not_mem_append distinct fresh, if_pos known, unseen]
  have among : child ∈ nodes.filter fun node => node ∉ seen :=
    List.mem_filter.mpr ⟨known, decide_eq_true fresh⟩
  have positive := List.length_pos_of_mem among
  omega

theorem unseen_le {seen more : List Node} (keeps : ∀ node ∈ seen, node ∈ more) :
    (unseen nodes more).length ≤ (unseen nodes seen).length := by
  have sublist : (nodes.filter fun node => decide (node ∉ more)).Sublist
      (nodes.filter fun node => decide (node ∉ seen)) := by
    apply List.monotone_filter_right
    intro node
    simp only [decide_eq_true_eq]
    exact fun fresh inside => fresh (keeps node inside)
  exact sublist.length_le

/-- Looking at the children of a node, one after the other. -/
theorem collect_children (source : Node) (fuel : Nat)
    (inner : ∀ child seen, child ∉ seen → child ∈ nodes →
      (unseen nodes (seen ++ [child])).length < fuel →
        Collects children child (seen ++ [child]) (collect children fuel child (seen ++ [child])) ∧
          ∀ grandchild ∈ children child, grandchild ∈ collect children fuel child (seen ++ [child]))
    (distinct : nodes.Nodup) (list : List Node) (among : ∀ child ∈ list, child ∈ children source)
    (known : ∀ child ∈ list, child ∈ nodes) (seen : List Node)
    (enough : (unseen nodes seen).length ≤ fuel) :
    let found := list.foldl (fun seen child => if child ∈ seen then seen
      else collect children fuel child (seen ++ [child])) seen
    Collects children source seen found ∧ ∀ child ∈ list, child ∈ found := by
  induction list generalizing seen with
  | nil =>
    exact ⟨⟨fun _ member => member, fun _ member => .inl member,
      fun _ member fresh => absurd member fresh, fun distinct => distinct⟩,
      fun _ impossible => absurd impossible List.not_mem_nil⟩
  | cons first list inductionHypothesis =>
    rw [List.foldl_cons]
    have amongRest : ∀ child ∈ list, child ∈ children source := fun child member =>
      among child (List.mem_cons_of_mem _ member)
    have knownRest : ∀ child ∈ list, child ∈ nodes := fun child member =>
      known child (List.mem_cons_of_mem _ member)
    by_cases old : first ∈ seen
    · rw [if_pos old]
      obtain ⟨collects, all⟩ := inductionHypothesis amongRest knownRest seen enough
      refine ⟨collects, fun child member => ?_⟩
      rcases List.mem_cons.mp member with same | later
      · exact collects.keeps child (same ▸ old)
      · exact all child later
    · rw [if_neg old]
      have here := known first List.mem_cons_self
      have fewer := unseen_lt here old distinct
      obtain ⟨below, lookedBelow⟩ := inner first seen old here (by omega)
      have fewerThen : (unseen nodes (collect children fuel first (seen ++ [first]))).length ≤ fuel :=
        (unseen_le below.keeps).trans (by omega)
      obtain ⟨collects, all⟩ := inductionHypothesis amongRest knownRest _ fewerThen
      have step : TransGen (fun node child => child ∈ children node) source first :=
        TransGen.single (among first List.mem_cons_self)
      refine ⟨⟨?_, ?_, ?_, ?_⟩, ?_⟩
      · exact fun node member =>
          collects.keeps node (below.keeps node (List.mem_append_left _ member))
      · intro node member
        rcases collects.reaches node member with inside | reached
        · rcases below.reaches node inside with before | reached
          · rcases List.mem_append.mp before with seenBefore | isFirst
            · exact .inl seenBefore
            · rw [List.mem_singleton.mp isFirst]
              exact .inr step
          · exact .inr (step.trans reached)
        · exact .inr reached
      · intro node member fresh child isChild
        by_cases inside : node ∈ collect children fuel first (seen ++ [first])
        · refine collects.keeps child ?_
          by_cases isFirst : node = first
          · exact lookedBelow child (isFirst ▸ isChild)
          · refine below.looks node inside (fun before => ?_) child isChild
            rcases List.mem_append.mp before with seenBefore | same
            · exact fresh seenBefore
            · exact isFirst (List.mem_singleton.mp same)
        · exact collects.looks node member inside child isChild
      · intro distinctSeen
        refine collects.distinct (below.distinct ?_)
        rw [List.nodup_append]
        refine ⟨distinctSeen, List.nodup_singleton _, ?_⟩
        rintro node before other same rfl
        exact old (List.mem_singleton.mp same ▸ before)
      · intro child member
        rcases List.mem_cons.mp member with same | later
        · rw [same]
          exact collects.keeps first (below.keeps first (List.mem_append_right _
            (List.mem_singleton_self first)))
        · exact all child later

/-- With fuel for every node that was not seen, collecting looks below everything it adds. -/
theorem collect_collects (distinct : nodes.Nodup)
    (known : ∀ node, ∀ child ∈ children node, child ∈ nodes) (fuel : Nat) (source : Node)
    (seen : List Node) (enough : (unseen nodes seen).length < fuel) :
    Collects children source seen (collect children fuel source seen) ∧
      ∀ child ∈ children source, child ∈ collect children fuel source seen := by
  induction fuel generalizing source seen with
  | zero => exact absurd enough (Nat.not_lt_zero _)
  | succ fuel inductionHypothesis =>
    exact collect_children source fuel
      (fun child seen _ _ fewer => inductionHypothesis child (seen ++ [child]) fewer) distinct
      (children source) (fun _ member => member) (known source) seen (Nat.le_of_lt_succ enough)

/-- Collecting from a node finds what can be reached from it. -/
theorem mem_collect (distinct : nodes.Nodup)
    (known : ∀ node, ∀ child ∈ children node, child ∈ nodes) {fuel : Nat}
    (enough : nodes.length < fuel) (source node : Node) :
    node ∈ collect children fuel source [] ↔
      TransGen (fun node child => child ∈ children node) source node := by
  have unseenAll : unseen nodes [] = nodes := List.filter_eq_self.mpr fun _ _ => by simp
  obtain ⟨collects, all⟩ := collect_collects distinct known fuel source []
    (by rw [unseenAll]; exact enough)
  constructor
  · intro member
    exact (collects.reaches node member).resolve_left List.not_mem_nil
  · intro reached
    induction reached with
    | single step => exact all _ step
    | tail _ step inductionHypothesis =>
      exact collects.looks _ inductionHypothesis List.not_mem_nil _ step

theorem nodup_collect (distinct : nodes.Nodup)
    (known : ∀ node, ∀ child ∈ children node, child ∈ nodes) {fuel : Nat}
    (enough : nodes.length < fuel) (source : Node) : (collect children fuel source []).Nodup := by
  have unseenAll : unseen nodes [] = nodes := List.filter_eq_self.mpr fun _ _ => by simp
  exact (collect_collects distinct known fuel source []
    (by rw [unseenAll]; exact enough)).1.distinct List.nodup_nil

end Collecting

end CaracalDB.Digraph
