import CaracalDB.Diagnostics
import CaracalDB.Dict
import CaracalDB.Digraph
import CaracalDB.Loops

/-!
# Hierarchies of any relation

A hierarchy is built from its nodes and a dictionary of parents: each child is filed
under its parents, the parents of each child are counted, and the nodes are sorted. It is
built exactly if the dictionary names nodes only and there is no cycle. Then the
collections upward and downward are the nodes that can be reached, each once.
-/

namespace CaracalDB.Dag

open Digraph Relation

/-- `HierarchyDAG` -/
structure HierarchyDAG where
  nodes : List String
  parents_by_child : String → List String
  children_by_parent : String → List String
  topological_order : List String

/-- `_unknown_hierarchy_node(relation_name, iri)` -/
def unknownHierarchyNode (relation_name iri : String) : Raised :=
  .caracal { code := "CDB-9504", message := "unknown " ++ relation_name ++ " hierarchy node: " ++ iri }

/-- What the loop over the dictionary fills; every node starts without parents and children. -/
structure Edges where
  normalized_parents : String → List String
  children : String → List String
  indegree : String → Nat

def Edges.empty : Edges where
  normalized_parents _ := []
  children _ := []
  indegree _ := 0

/-- File a child under one of its parents. -/
def Edges.addParent (relation_name : String) (nodes : List String) (child : String) (edges : Edges)
    (parent : String) : Except Raised Edges := do
  refuse (parent ∉ nodes) (unknownHierarchyNode relation_name parent)
  return { edges with
    children := Function.update edges.children parent (edges.children parent ++ [child])
    indegree := Function.update edges.indegree child (edges.indegree child + 1) }

/-- File a child under its parents, each taken once. -/
def Edges.addChild (relation_name : String) (nodes : List String) (edges : Edges)
    (entry : String × List String) : Except Raised Edges := do
  refuse (entry.1 ∉ nodes) (unknownHierarchyNode relation_name entry.1)
  let deduped := entry.2.eraseDups
  deduped.foldlM (Edges.addParent relation_name nodes entry.1)
    { edges with normalized_parents := Function.update edges.normalized_parents entry.1 deduped }

/-- `HierarchyDAG.from_edges(nodes, parents_by_child, relation_name=...)` -/
def fromEdges (relation_name : String) (nodes : List String)
    (parents_by_child : Dict String (List String)) : Except Raised HierarchyDAG := do
  let edges ← parents_by_child.entries.foldlM (Edges.addChild relation_name nodes) Edges.empty
  let queue := nodes.filter fun node => edges.indegree node = 0
  let ordered := sort edges.children nodes.length { indegree := edges.indegree, queue, ordered := [] }
  refuse (ordered.length ≠ nodes.length)
    (.caracal { code := "CDB-9505", message := relation_name ++ " hierarchy contains a cycle" })
  return { nodes, parents_by_child := edges.normalized_parents
           children_by_parent := edges.children, topological_order := ordered }

namespace HierarchyDAG

variable (dag : HierarchyDAG)

/-- `_require_node(iri)` -/
def requireNode (iri : String) : Except Raised Unit :=
  refuse (iri ∉ dag.nodes) (unknownHierarchyNode "ontology" iri)

/-- `ancestors(iri, include_self=...)` -/
def ancestors (iri : String) (include_self : Bool) : Except Raised (List String) := do
  dag.requireNode iri
  return collect dag.parents_by_child (dag.nodes.length + 1) iri (if include_self then [iri] else [])

/-- `descendants(iri, include_self=...)` -/
def descendants (iri : String) (include_self : Bool) : Except Raised (List String) := do
  dag.requireNode iri
  return collect dag.children_by_parent (dag.nodes.length + 1) iri
    (if include_self then [iri] else [])

/-- `is_subtype(child, parent, reflexive=...)` -/
def isSubtype (child parent : String) (reflexive : Bool) : Except Raised Bool := do
  dag.requireNode child
  dag.requireNode parent
  if reflexive ∧ child = parent then return true
  return decide (parent ∈ (← dag.ancestors child false))

end HierarchyDAG

/-! ## The relation of a dictionary -/

/-- The parents that entries give a node, each once. -/
def parentsIn (entries : List (String × List String)) (child : String) : List String :=
  ((entries.find? fun entry => entry.1 = child).map fun entry => entry.2.eraseDups).getD []

/-- A node that the dictionary gives as a parent of another. -/
def Parent (parents_by_child : Dict String (List String)) (child parent : String) : Prop :=
  ∃ parents, parents_by_child.get? child = some parents ∧ parent ∈ parents

/-- Every IRI that the dictionary mentions, as a child or as a parent, is a node. -/
def Mentions (nodes : List String) (entries : List (String × List String)) : Prop :=
  ∀ entry ∈ entries, entry.1 ∈ nodes ∧ ∀ parent ∈ entry.2, parent ∈ nodes

theorem mem_parentsIn (parents_by_child : Dict String (List String)) (child parent : String) :
    parent ∈ parentsIn parents_by_child.entries child ↔ Parent parents_by_child child parent := by
  rw [Parent, Dict.get?, parentsIn]
  cases parents_by_child.entries.find? fun entry => entry.1 = child with
  | none => simp
  | some entry => simp [List.mem_eraseDups]

theorem parentsIn_nodup (entries : List (String × List String)) (child : String) :
    (parentsIn entries child).Nodup := by
  rw [parentsIn]
  cases entries.find? fun entry => entry.1 = child with
  | none => exact List.nodup_nil
  | some entry => exact nodup_eraseDups entry.2

/-- The parents behind one more entry with a new child. -/
theorem parentsIn_append (entries : List (String × List String)) (entry : String × List String)
    (fresh : entry.1 ∉ entries.map Prod.fst) (child : String) :
    parentsIn (entries ++ [entry]) child =
      if child = entry.1 then entry.2.eraseDups else parentsIn entries child := by
  rw [parentsIn, List.find?_append]
  by_cases same : child = entry.1
  · have none : entries.find? (fun other => other.1 = child) = none := by
      rw [List.find?_eq_none]
      intro other member named
      rw [decide_eq_true_eq] at named
      exact fresh (same ▸ named ▸ List.mem_map_of_mem (f := Prod.fst) member)
    subst same
    simp [none]
  · have apart : ¬ entry.1 = child := fun equal => same equal.symm
    simp [same, apart, parentsIn]

/-! ## The loop over the dictionary -/

/-- What the loop has filled behind some entries. -/
structure Edges.Of (entries : List (String × List String)) (edges : Edges) : Prop where
  parents : ∀ child, edges.normalized_parents child = parentsIn entries child
  children : ∀ parent, edges.children parent =
    (entries.filter fun entry => parent ∈ entry.2.eraseDups).map Prod.fst
  indegree : ∀ child, edges.indegree child = (parentsIn entries child).length

theorem Edges.Of.empty : Edges.empty.Of [] := ⟨fun _ => rfl, fun _ => rfl, fun _ => rfl⟩

/-- Filing a child under nodes that are distinct. -/
theorem addParents_ok (relation_name : String) {nodes : List String} (child : String)
    {parents : List String} (distinct : parents.Nodup) (known : ∀ parent ∈ parents, parent ∈ nodes)
    (edges : Edges) :
    parents.foldlM (Edges.addParent relation_name nodes child) edges =
      .ok { edges with
        children := fun parent => if parent ∈ parents then edges.children parent ++ [child]
          else edges.children parent
        indegree := Function.update edges.indegree child
          (edges.indegree child + parents.length) } := by
  induction parents generalizing edges with
  | nil =>
    simp only [List.foldlM_nil, List.not_mem_nil, if_false, List.length_nil, Nat.add_zero,
      Function.update_eq_self]
    rfl
  | cons first parents inductionHypothesis =>
    obtain ⟨absent, rest⟩ := List.nodup_cons.mp distinct
    obtain ⟨here, others⟩ := List.forall_mem_cons.mp known
    rw [List.foldlM_cons, Edges.addParent, refuse, if_neg (not_not.mpr here), ok_bind]
    show parents.foldlM _ _ = _
    rw [inductionHypothesis rest others]
    congr 2
    · funext parent
      by_cases same : parent = first
      · subst same
        simp [absent]
      · simp [same]
    · rw [Function.update_idem]
      simp only [Function.update_self, List.length_cons, Nat.add_assoc, Nat.add_comm 1]

/-- A child that is filed has nodes as parents only. -/
theorem addParents_known {relation_name : String} {nodes : List String} {child : String}
    {parents : List String} {edges after : Edges}
    (filed : parents.foldlM (Edges.addParent relation_name nodes child) edges = .ok after) :
    ∀ parent ∈ parents, parent ∈ nodes := by
  induction parents generalizing edges with
  | nil => exact List.forall_mem_nil _
  | cons first parents inductionHypothesis =>
    rw [List.foldlM_cons] at filed
    obtain ⟨_, one, rest⟩ := except_bind_ok filed
    obtain ⟨_, passed, _⟩ := except_bind_ok one
    exact List.forall_mem_cons.mpr ⟨not_not.mp (refuse_ok passed), inductionHypothesis rest⟩

/-- One more child that is a node, with nodes as parents. -/
theorem Edges.Of.addChild (relation_name : String) {nodes : List String}
    {entries : List (String × List String)} {edges : Edges} (filled : edges.Of entries)
    {entry : String × List String} (fresh : entry.1 ∉ entries.map Prod.fst)
    (node : entry.1 ∈ nodes) (known : ∀ parent ∈ entry.2, parent ∈ nodes) :
    ∃ after, edges.addChild relation_name nodes entry = .ok after ∧ after.Of (entries ++ [entry]) := by
  have deduped : ∀ parent ∈ entry.2.eraseDups, parent ∈ nodes :=
    fun parent member => known parent (List.mem_eraseDups.mp member)
  rw [Edges.addChild, refuse, if_neg (not_not.mpr node), ok_bind,
    addParents_ok relation_name entry.1 (nodup_eraseDups entry.2) deduped]
  refine ⟨_, rfl, ?_, ?_, ?_⟩
  · intro child
    show Function.update edges.normalized_parents entry.1 entry.2.eraseDups child = _
    rw [parentsIn_append entries entry fresh]
    by_cases same : child = entry.1
    · subst same
      simp
    · simp [same, filled.parents]
  · intro parent
    simp only [filled.children, List.filter_append, List.map_append]
    by_cases among : parent ∈ entry.2.eraseDups
    · rw [if_pos among, List.filter_cons_of_pos (by simpa using among)]
      rfl
    · rw [if_neg among, List.filter_cons_of_neg (by simpa using among)]
      exact (List.append_nil _).symm
  · intro child
    show Function.update edges.indegree entry.1 _ child = _
    have none : edges.indegree entry.1 = 0 := by
      have absent : entries.find? (fun other => other.1 = entry.1) = none := by
        rw [List.find?_eq_none]
        intro other member named
        rw [decide_eq_true_eq] at named
        exact fresh (named ▸ List.mem_map_of_mem (f := Prod.fst) member)
      rw [filled.indegree, parentsIn, absent]
      rfl
    rw [parentsIn_append entries entry fresh, none, Nat.zero_add]
    by_cases same : child = entry.1
    · subst same
      simp
    · simp [same, filled.indegree]

/-- The loop over entries that name nodes. -/
theorem addChildren_ok (relation_name : String) {nodes : List String}
    (entries : List (String × List String)) {done : List (String × List String)} {edges : Edges}
    (filled : edges.Of done) (distinct : ((done ++ entries).map Prod.fst).Nodup)
    (mentions : Mentions nodes entries) :
    ∃ after, entries.foldlM (Edges.addChild relation_name nodes) edges = .ok after ∧
      after.Of (done ++ entries) := by
  induction entries generalizing done edges with
  | nil => exact ⟨edges, rfl, by rwa [List.append_nil]⟩
  | cons entry entries inductionHypothesis =>
    obtain ⟨⟨node, known⟩, others⟩ := List.forall_mem_cons.mp mentions
    have fresh : entry.1 ∉ done.map Prod.fst := by
      rw [List.map_append, List.map_cons] at distinct
      exact fun member => (List.nodup_append.mp distinct).2.2 _ member _ List.mem_cons_self rfl
    obtain ⟨next, one, filledNext⟩ := filled.addChild relation_name fresh node known
    obtain ⟨after, rest, filledAfter⟩ := inductionHypothesis filledNext
      (by rwa [List.append_assoc]) others
    rw [List.append_assoc] at filledAfter
    refine ⟨after, ?_, filledAfter⟩
    rw [List.foldlM_cons, one, ok_bind, rest]

/-- A dictionary that the loop gets through names nodes only. -/
theorem addChildren_mentions {relation_name : String} {nodes : List String}
    {entries : List (String × List String)} {edges after : Edges}
    (filed : entries.foldlM (Edges.addChild relation_name nodes) edges = .ok after) :
    Mentions nodes entries := by
  induction entries generalizing edges with
  | nil => exact List.forall_mem_nil _
  | cons entry entries inductionHypothesis =>
    rw [List.foldlM_cons] at filed
    obtain ⟨_, one, rest⟩ := except_bind_ok filed
    obtain ⟨_, passed, parents⟩ := except_bind_ok one
    refine List.forall_mem_cons.mpr ⟨⟨not_not.mp (refuse_ok passed), ?_⟩, inductionHypothesis rest⟩
    intro parent member
    exact addParents_known parents parent (List.mem_eraseDups.mpr member)

/-! ## Hierarchies that are built -/

section Built

variable {nodes : List String} {parents_by_child : Dict String (List String)} {edges : Edges}

theorem Edges.Of.normalized (filled : edges.Of parents_by_child.entries) :
    edges.normalized_parents = parentsIn parents_by_child.entries := funext filled.parents

theorem parent_known (mentions : Mentions nodes parents_by_child.entries) {child parent : String}
    (above : Parent parents_by_child child parent) : child ∈ nodes ∧ parent ∈ nodes := by
  obtain ⟨parents, given, among⟩ := above
  obtain ⟨node, known⟩ := mentions _ ((parents_by_child.get_eq_some child parents).mp given)
  exact ⟨node, known parent among⟩

theorem wellFormed (distinct : nodes.Nodup) (mentions : Mentions nodes parents_by_child.entries) :
    WellFormed nodes (parentsIn parents_by_child.entries) where
  distinct := distinct
  once child _ := parentsIn_nodup _ child
  known child _ parent among :=
    (parent_known mentions ((mem_parentsIn parents_by_child child parent).mp among)).2

/-- The children are filed under their parents. -/
theorem Edges.Of.lists (filled : edges.Of parents_by_child.entries)
    (mentions : Mentions nodes parents_by_child.entries) :
    Lists nodes (parentsIn parents_by_child.entries) edges.children where
  distinct parent := by
    rw [filled.children]
    exact parents_by_child.distinct.sublist (List.filter_sublist.map Prod.fst)
  mem parent child := by
    rw [filled.children, mem_parentsIn, List.mem_map]
    constructor
    · rintro ⟨⟨_, parents⟩, member, rfl⟩
      obtain ⟨inside, among⟩ := List.mem_filter.mp member
      rw [decide_eq_true_eq, List.mem_eraseDups] at among
      exact ⟨(mentions _ inside).1, parents, (parents_by_child.get_eq_some _ parents).mpr inside, among⟩
    · rintro ⟨_, parents, given, among⟩
      refine ⟨(child, parents), List.mem_filter.mpr ⟨?_, ?_⟩, rfl⟩
      · exact (parents_by_child.get_eq_some child parents).mp given
      · exact decide_eq_true (List.mem_eraseDups.mpr among)

/-- The counts and the queue are those of the nodes under their parents. -/
theorem Edges.Of.start (filled : edges.Of parents_by_child.entries) :
    ({ indegree := edges.indegree, queue := nodes.filter fun node => edges.indegree node = 0
       ordered := [] } : Sorting String) =
      Sorting.start nodes (parentsIn parents_by_child.entries) := by
  rw [Sorting.start, funext filled.indegree]

/-- A hierarchy that was built, with what the loop and the sort gave. -/
theorem fromEdges_ok {relation_name : String} (distinct : nodes.Nodup) {dag : HierarchyDAG}
    (built : fromEdges relation_name nodes parents_by_child = .ok dag) :
    Mentions nodes parents_by_child.entries ∧ ∃ edges : Edges, edges.Of parents_by_child.entries ∧
      Topological (parentsIn parents_by_child.entries) dag.topological_order ∧
      dag.topological_order.Perm nodes ∧
      dag = { nodes, parents_by_child := edges.normalized_parents
              children_by_parent := edges.children, topological_order := dag.topological_order } := by
  obtain ⟨edges, filed, rest⟩ := except_bind_ok built
  obtain ⟨_, all, same⟩ := except_bind_ok rest
  cases same
  have mentions := addChildren_mentions filed
  obtain ⟨after, loop, filled⟩ := addChildren_ok relation_name parents_by_child.entries
    Edges.Of.empty parents_by_child.distinct mentions
  obtain rfl : after = edges := Except.ok.inj (loop.symm.trans filed)
  have formed := wellFormed distinct mentions
  have lists := filled.lists mentions
  have all := not_not.mp (refuse_ok all)
  obtain ⟨final, fits, topological, empty, sorted⟩ := sort_fits formed lists nodes.length
    (start_fits formed) topological_nil (Nat.le_add_left _ _)
  have sameOrder : sort after.children nodes.length
      { indegree := after.indegree, queue := nodes.filter fun node => after.indegree node = 0
        ordered := [] } = final.ordered := by
    rw [filled.start, sorted]
  simp only [sameOrder] at all ⊢
  have distinctOrder : final.ordered.Nodup := by
    have both := fits.distinct
    rwa [empty, List.append_nil] at both
  have known : ∀ node ∈ final.ordered, node ∈ nodes :=
    fun node member => fits.known node (List.mem_append_left _ member)
  exact ⟨mentions, after, filled, topological,
    (distinctOrder.subperm known).perm_of_length_le all.ge, rfl⟩

/-- Nodes without a cycle are sorted. -/
theorem fromEdges_of (relation_name : String) (distinct : nodes.Nodup)
    (mentions : Mentions nodes parents_by_child.entries)
    (acyclic : Acyclic (parentsIn parents_by_child.entries)) :
    ∃ dag, fromEdges relation_name nodes parents_by_child = .ok dag := by
  obtain ⟨edges, loop, filled⟩ := addChildren_ok relation_name parents_by_child.entries
    Edges.Of.empty parents_by_child.distinct mentions
  have formed := wellFormed distinct mentions
  have all := sort_length formed (filled.lists mentions) acyclic nodes.length (start_fits formed)
    topological_nil (Nat.le_add_left _ _)
  rw [← filled.start] at all
  rw [fromEdges, loop, ok_bind]
  simp only [all, refuse, ne_eq, not_true_eq_false, if_false]
  exact ⟨_, rfl⟩

end Built

/-- A path down is a path up, read the other way. -/
theorem reaches_swap {parents_by_child : Dict String (List String)} {kids : String → List String}
    (lists : ∀ parent child, child ∈ kids parent ↔ Parent parents_by_child child parent)
    (first last : String) : TransGen (fun node child => child ∈ kids node) first last ↔
      TransGen (Parent parents_by_child) last first := by
  have same : (fun node child => child ∈ kids node) = Function.swap (Parent parents_by_child) := by
    funext parent child
    exact propext (lists parent child)
  rw [same, transGen_swap]

/-- What the answers of a hierarchy are to be. -/
structure HierarchyDAG.Answers (dag : HierarchyDAG) (nodes : List String)
    (parents_by_child : Dict String (List String)) : Prop where
  sorted : dag.topological_order.Perm nodes
  parents_first : ∀ child parent, Parent parents_by_child child parent →
    dag.topological_order.idxOf parent < dag.topological_order.idxOf child
  ancestors : ∀ node ∈ nodes, ∃ above, dag.ancestors node false = .ok above ∧ above.Nodup ∧
    ∀ other, other ∈ above ↔ TransGen (Parent parents_by_child) node other
  descendants : ∀ node ∈ nodes, ∃ below, dag.descendants node false = .ok below ∧ below.Nodup ∧
    ∀ other, other ∈ below ↔ TransGen (Parent parents_by_child) other node
  converse : ∀ lower upper above below, dag.ancestors lower false = .ok above →
    dag.descendants upper false = .ok below → (upper ∈ above ↔ lower ∈ below)
  subtype : ∀ child ∈ nodes, ∀ parent ∈ nodes, ∀ reflexive, ∃ answer,
    dag.isSubtype child parent reflexive = .ok answer ∧
      (answer = true ↔ reflexive = true ∧ child = parent ∨ TransGen (Parent parents_by_child) child parent)

/-- A hierarchy is built exactly if the dictionary names nodes only and has no cycle, and then it
answers by what can be reached. -/
theorem hierarchy_answers (relation_name : String) (nodes : List String)
    (parents_by_child : Dict String (List String)) (distinct : nodes.Nodup) :
    ((∃ dag, fromEdges relation_name nodes parents_by_child = .ok dag) ↔
      Mentions nodes parents_by_child.entries ∧
        ∀ node, ¬ TransGen (Parent parents_by_child) node node) ∧
    ∀ dag, fromEdges relation_name nodes parents_by_child = .ok dag →
      dag.Answers nodes parents_by_child := by
  have upward : (fun node parent => parent ∈ parentsIn parents_by_child.entries node) =
      Parent parents_by_child := by
    funext child parent
    exact propext (mem_parentsIn parents_by_child child parent)
  have cycles : Acyclic (parentsIn parents_by_child.entries) ↔
      ∀ node, ¬ TransGen (Parent parents_by_child) node node := by
    refine forall_congr' fun node => not_congr ?_
    rw [← upward, ← transGen_swap]
    rfl
  refine ⟨⟨?_, ?_⟩, ?_⟩
  · rintro ⟨dag, built⟩
    obtain ⟨mentions, _, _, topological, all, _⟩ := fromEdges_ok distinct built
    refine ⟨mentions, cycles.mp ?_⟩
    refine acyclic_of_topological topological (all.nodup_iff.mpr distinct) fun child parent among => ?_
    exact all.mem_iff.mpr (parent_known mentions ((mem_parentsIn _ _ _).mp among)).1
  · rintro ⟨mentions, acyclic⟩
    exact fromEdges_of relation_name distinct mentions (cycles.mpr acyclic)
  · intro dag built
    obtain ⟨mentions, edges, filled, topological, all, same⟩ := fromEdges_ok distinct built
    have lists := filled.lists mentions
    have nodesIs : dag.nodes = nodes := congrArg HierarchyDAG.nodes same
    have parentsIs : dag.parents_by_child = parentsIn parents_by_child.entries :=
      (congrArg HierarchyDAG.parents_by_child same).trans filled.normalized
    have childrenIs : dag.children_by_parent = edges.children :=
      congrArg HierarchyDAG.children_by_parent same
    have above (node : String) (inside : node ∈ nodes) : ∃ above,
        dag.ancestors node false = .ok above ∧ above.Nodup ∧
          ∀ other, other ∈ above ↔ TransGen (Parent parents_by_child) node other := by
      have known : ∀ node, ∀ parent ∈ parentsIn parents_by_child.entries node, parent ∈ nodes :=
        fun node parent among =>
          (parent_known mentions ((mem_parentsIn _ _ _).mp among)).2
      rw [HierarchyDAG.ancestors, HierarchyDAG.requireNode, nodesIs, refuse,
        if_neg (not_not.mpr inside), ok_bind, parentsIs]
      refine ⟨_, rfl, nodup_collect distinct known (Nat.lt_succ_self _) node, fun other => ?_⟩
      exact (mem_collect distinct known (Nat.lt_succ_self _) node other).trans (by rw [upward])
    have below (node : String) (inside : node ∈ nodes) : ∃ below,
        dag.descendants node false = .ok below ∧ below.Nodup ∧
          ∀ other, other ∈ below ↔ TransGen (Parent parents_by_child) other node := by
      have known : ∀ node, ∀ child ∈ edges.children node, child ∈ nodes :=
        fun node child member => ((lists.mem node child).mp member).1
      have filed : ∀ parent child, child ∈ edges.children parent ↔
          Parent parents_by_child child parent := fun parent child =>
        (lists.mem parent child).trans ((and_congr_right' (mem_parentsIn _ _ _)).trans
          (and_iff_right_of_imp fun among => (parent_known mentions among).1))
      rw [HierarchyDAG.descendants, HierarchyDAG.requireNode, nodesIs, refuse,
        if_neg (not_not.mpr inside), ok_bind, childrenIs]
      refine ⟨_, rfl, nodup_collect distinct known (Nat.lt_succ_self _) node, fun other => ?_⟩
      exact (mem_collect distinct known (Nat.lt_succ_self _) node other).trans
        (reaches_swap filed node other)
    refine ⟨all, ?_, above, below, ?_, ?_⟩
    · intro child parent among
      exact topological.idxOf_lt (all.nodup_iff.mpr distinct)
        (all.mem_iff.mpr (parent_known mentions among).1) ((mem_parentsIn _ _ _).mpr among)
    · intro lower upper up down askedUp askedDown
      obtain ⟨_, first, _⟩ := except_bind_ok askedUp
      obtain ⟨_, second, _⟩ := except_bind_ok askedDown
      obtain ⟨_, gives, _, reached⟩ := above lower (nodesIs ▸ not_not.mp (refuse_ok first))
      obtain ⟨_, givesDown, _, reachedDown⟩ := below upper (nodesIs ▸ not_not.mp (refuse_ok second))
      obtain rfl := Except.ok.inj (gives.symm.trans askedUp)
      obtain rfl := Except.ok.inj (givesDown.symm.trans askedDown)
      exact (reached upper).trans (reachedDown lower).symm
    · intro child childIn parent parentIn reflexive
      obtain ⟨up, gives, _, reached⟩ := above child childIn
      rw [HierarchyDAG.isSubtype, HierarchyDAG.requireNode, nodesIs, refuse,
        if_neg (not_not.mpr childIn), ok_bind, HierarchyDAG.requireNode, nodesIs, refuse,
        if_neg (not_not.mpr parentIn), ok_bind]
      by_cases equal : reflexive = true ∧ child = parent
      · rw [if_pos equal]
        exact ⟨true, rfl, iff_of_true rfl (Or.inl equal)⟩
      · rw [if_neg equal, gives]
        refine ⟨_, rfl, ?_⟩
        rw [decide_eq_true_eq, reached]
        exact (or_iff_right equal).symm

/-- Two classes, one below the other. -/
def twoClasses : Dict String (List String) :=
  { entries := [("dog", ["animal", "animal"])], distinct := by decide }

/-- The hierarchy of two classes is built, and one is a subtype of the other. -/
theorem two_classes_built : ∃ dag, fromEdges "class" ["dog", "animal"] twoClasses = .ok dag ∧
    dag.Answers ["dog", "animal"] twoClasses :=
  ⟨_, rfl, (hierarchy_answers "class" ["dog", "animal"] twoClasses (by decide)).2 _ rfl⟩

end CaracalDB.Dag
