import Mathlib.Data.List.Nodup
import Mathlib.Data.List.Perm.Basic
import Mathlib.Algebra.GroupWithZero.Nat
import CaracalDB.Walks

/-!
# Enumerating simple paths

A queue of partial paths is extended step by step: a step to a node that the path
has visited is left out, a path of the greatest length is not extended further, and
every extension that is accepted is recorded. However the steps from a node are
given, the enumeration comes to an end and records each accepted simple path once.
A walk is no shorter than some simple path between its ends.
-/

namespace CaracalDB.SimplePaths

variable {Node Step : Type} [DecidableEq Node] (next : Step → Node) (steps : Node → List Step)

/-- A path so far: where it stands, the nodes it has visited and its steps. -/
structure Partial (Node Step : Type) where
  current : Node
  nodes : List Node
  edges : List Step
deriving DecidableEq

/-- The path with one more step. -/
def extend (path : Partial Node Step) (step : Step) : Partial Node Step :=
  { current := next step, nodes := path.nodes ++ [next step], edges := path.edges ++ [step] }

/-- The path with further steps. -/
def extendAll (path : Partial Node Step) (rest : List Step) : Partial Node Step :=
  rest.foldl (extend next) path

/-- The extensions of a path by one step to a new node. -/
def extensions (path : Partial Node Step) : List (Partial Node Step) :=
  ((steps path.current).filter fun step => next step ∉ path.nodes).map (extend next path)

section Search

variable (max_depth : Nat) (accepts : Partial Node Step → Bool)

/-- One step from a path that is taken from the queue. -/
def visit (path : Partial Node Step)
    (state : List (Partial Node Step) × List (Partial Node Step)) (step : Step) :
    List (Partial Node Step) × List (Partial Node Step) :=
  if next step ∈ path.nodes then state
  else
    let extended := extend next path step
    (if extended.edges.length < max_depth then state.1 ++ [extended] else state.1,
      if accepts extended then state.2 ++ [extended] else state.2)

/-- The loop over the queue, with what it has recorded. -/
def search : Nat → List (Partial Node Step) → List (Partial Node Step) →
    Option (List (Partial Node Step))
  | 0, _, _ => none
  | _ + 1, [], rows => some rows
  | fuel + 1, path :: queue, rows =>
      if path.edges.length ≥ max_depth then search fuel queue rows
      else
        let state := (steps path.current).foldl (visit next max_depth accepts path) (queue, rows)
        search fuel state.1 state.2

/-- The accepted paths that extend a path by at most a number of steps. -/
def found : Nat → Partial Node Step → List (Partial Node Step)
  | 0, _ => []
  | depth + 1, path =>
      (extensions next steps path).flatMap fun extended =>
        (if accepts extended then [extended] else []) ++ found depth extended

/-- How often the loop runs for a path and its extensions. -/
def cost : Nat → Partial Node Step → Nat
  | 0, _ => 1
  | depth + 1, path => 1 + ((extensions next steps path).map (cost depth)).sum

/-! ## The loop -/

theorem visits_eq (path : Partial Node Step) (rest : List Step)
    (queue rows : List (Partial Node Step)) :
    rest.foldl (visit next max_depth accepts path) (queue, rows) =
      (queue ++ ((rest.filter fun step => next step ∉ path.nodes).map (extend next path)).filter
          (fun extended => extended.edges.length < max_depth),
        rows ++ ((rest.filter fun step => next step ∉ path.nodes).map (extend next path)).filter
          accepts) := by
  induction rest generalizing queue rows with
  | nil => simp
  | cons step rest inductionHypothesis =>
    rw [List.foldl_cons, visit]
    by_cases visited : next step ∈ path.nodes
    · rw [if_pos visited, inductionHypothesis, List.filter_cons_of_neg (by simpa using visited)]
    · rw [if_neg visited, inductionHypothesis, List.filter_cons_of_pos (by simpa using visited),
        List.map_cons, List.filter_cons, List.filter_cons]
      split <;> split <;> simp_all

variable {max_depth}

theorem extensions_length {path extended : Partial Node Step}
    (member : extended ∈ extensions next steps path) :
    extended.edges.length = path.edges.length + 1 := by
  obtain ⟨step, _, rfl⟩ := List.mem_map.mp member
  simp [extend]

omit [DecidableEq Node] in
theorem filter_flatMap_eq (extended : List (Partial Node Step)) :
    extended.filter accepts = extended.flatMap fun path => if accepts path then [path] else [] := by
  induction extended with
  | nil => rfl
  | cons path rest inductionHypothesis =>
    rw [List.flatMap_cons, ← inductionHypothesis, List.filter_cons]
    split <;> rfl

omit [DecidableEq Node] in
theorem sum_filter_le (keeps : Partial Node Step → Bool) (weigh : Partial Node Step → Nat)
    (paths : List (Partial Node Step)) :
    ((paths.filter keeps).map weigh).sum ≤ (paths.map weigh).sum := by
  induction paths with
  | nil => exact Nat.le_refl _
  | cons path paths inductionHypothesis =>
    rw [List.filter_cons, List.map_cons, List.sum_cons]
    split
    · rw [List.map_cons, List.sum_cons]
      omega
    · omega

/-- With enough fuel the loop ends, with what it had recorded and the accepted extensions of the
paths in the queue. -/
theorem search_perm (fuel : Nat) (queue rows : List (Partial Node Step))
    (enough : (queue.map fun path =>
      cost next steps (max_depth - path.edges.length) path).sum < fuel) :
    ∃ recorded, search next steps max_depth accepts fuel queue rows = some recorded ∧
      recorded.Perm (rows ++ queue.flatMap fun path =>
        found next steps accepts (max_depth - path.edges.length) path) := by
  induction fuel generalizing queue rows with
  | zero => omega
  | succ fuel inductionHypothesis =>
    cases queue with
    | nil => exact ⟨rows, rfl, by simp⟩
    | cons path queue =>
      rw [List.map_cons, List.sum_cons] at enough
      rw [search]
      by_cases full : path.edges.length ≥ max_depth
      · have none : max_depth - path.edges.length = 0 := by omega
        rw [none] at enough
        simp only [cost] at enough
        obtain ⟨recorded, ends, same⟩ := inductionHypothesis queue rows (by omega)
        refine ⟨recorded, ?_, ?_⟩
        · rw [if_pos full, ends]
        · rw [List.flatMap_cons, none]
          exact same
      · obtain ⟨depth, more⟩ : ∃ depth, max_depth - path.edges.length = depth + 1 :=
          ⟨max_depth - path.edges.length - 1, by omega⟩
        have below : ∀ extended ∈ extensions next steps path,
            max_depth - extended.edges.length = depth := by
          intro extended member
          rw [extensions_length next steps member]
          omega
        rw [more] at enough
        simp only [cost] at enough
        rw [if_neg full, visits_eq]
        dsimp only
        rw [← extensions]
        have fits : ((queue ++ (extensions next steps path).filter fun extended =>
            extended.edges.length < max_depth).map fun path =>
              cost next steps (max_depth - path.edges.length) path).sum < fuel := by
          rw [List.map_append, List.sum_append]
          have fewer := sum_filter_le (fun extended => extended.edges.length < max_depth)
            (fun path => cost next steps (max_depth - path.edges.length) path)
            (extensions next steps path)
          have same : (extensions next steps path).map (fun path =>
              cost next steps (max_depth - path.edges.length) path) =
                (extensions next steps path).map (cost next steps depth) :=
            List.map_congr_left fun extended member => by rw [below extended member]
          rw [same] at fewer
          omega
        obtain ⟨recorded, ends, same⟩ := inductionHypothesis _ _ fits
        refine ⟨recorded, ends, same.trans ?_⟩
        -- a path that is not put into the queue has no extensions left
        have queued : ((extensions next steps path).filter fun extended =>
            extended.edges.length < max_depth).flatMap (fun path =>
              found next steps accepts (max_depth - path.edges.length) path) =
            (extensions next steps path).flatMap (found next steps accepts depth) := by
          by_cases last : depth = 0
          · have nothing : (extensions next steps path).filter (fun extended =>
                extended.edges.length < max_depth) = [] := by
              rw [List.filter_eq_nil_iff]
              intro extended member short
              have atEnd := below extended member
              have inside : extended.edges.length < max_depth := by simpa using short
              omega
            rw [nothing, last]
            simp [found]
          · have everything : (extensions next steps path).filter (fun extended =>
                extended.edges.length < max_depth) = extensions next steps path := by
              rw [List.filter_eq_self]
              intro extended member
              have further := below extended member
              simp only [decide_eq_true_eq]
              omega
            rw [everything]
            exact List.flatMap_congr fun extended member => by rw [below extended member]
        rw [List.flatMap_append, List.flatMap_cons, queued, more, found, filter_flatMap_eq,
          List.append_assoc]
        refine List.Perm.append_left rows ?_
        refine List.Perm.trans ?_ (List.Perm.append_right _
          (List.flatMap_append_perm (extensions next steps path)
            (fun extended => if accepts extended then [extended] else [])
            (found next steps accepts depth)))
        rw [List.append_assoc]
        exact List.Perm.append_left _ List.perm_append_comm

end Search

/-! ## What is found -/

/-- A list of steps that start at a node, each where the one before it ends. -/
def Follows : Node → List Step → Prop
  | _, [] => True
  | current, step :: rest => step ∈ steps current ∧ Follows (next step) rest

/-- A list of steps along which no node is visited twice. -/
def Simple (start : Node) (rest : List Step) : Prop :=
  Follows next steps start rest ∧ (start :: rest.map next).Nodup

/-- Steps that go on from a path without visiting a node again. -/
def GoesOn (path : Partial Node Step) (rest : List Step) : Prop :=
  Follows next steps path.current rest ∧ (rest.map next).Nodup ∧
    ∀ step ∈ rest, next step ∉ path.nodes

omit [DecidableEq Node] in
theorem goesOn_cons {path : Partial Node Step} {step : Step} {rest : List Step} :
    GoesOn next steps path (step :: rest) ↔
      (step ∈ steps path.current ∧ next step ∉ path.nodes) ∧
        GoesOn next steps (extend next path step) rest := by
  constructor
  · rintro ⟨⟨here, follows⟩, distinct, apart⟩
    rw [List.map_cons, List.nodup_cons] at distinct
    refine ⟨⟨here, apart step List.mem_cons_self⟩, follows, distinct.2, ?_⟩
    intro later member visited
    rcases List.mem_append.mp visited with before | isStep
    · exact apart later (List.mem_cons_of_mem step member) before
    · exact distinct.1 (List.mem_singleton.mp isStep ▸ List.mem_map_of_mem member)
  · rintro ⟨⟨here, new⟩, follows, distinct, apart⟩
    refine ⟨⟨here, follows⟩, ?_, ?_⟩
    · rw [List.map_cons, List.nodup_cons]
      refine ⟨?_, distinct⟩
      intro again
      obtain ⟨later, member, same⟩ := List.mem_map.mp again
      exact apart later member (List.mem_append_right _ (List.mem_singleton.mpr same))
    · intro later member visited
      rcases List.mem_cons.mp member with rfl | further
      · exact new visited
      · exact apart later further (List.mem_append_left _ visited)

omit [DecidableEq Node] in
@[simp] theorem extendAll_edges (path : Partial Node Step) (rest : List Step) :
    (extendAll next path rest).edges = path.edges ++ rest := by
  induction rest generalizing path with
  | nil => exact (List.append_nil _).symm
  | cons step rest inductionHypothesis =>
    rw [extendAll, List.foldl_cons, ← extendAll, inductionHypothesis, extend, List.append_assoc]
    rfl

omit [DecidableEq Node] in
@[simp] theorem extendAll_nodes (path : Partial Node Step) (rest : List Step) :
    (extendAll next path rest).nodes = path.nodes ++ rest.map next := by
  induction rest generalizing path with
  | nil => exact (List.append_nil _).symm
  | cons step rest inductionHypothesis =>
    rw [extendAll, List.foldl_cons, ← extendAll, inductionHypothesis, extend, List.append_assoc]
    rfl

omit [DecidableEq Node] in
theorem extendAll_current (path : Partial Node Step) (rest : List Step) :
    (extendAll next path rest).current = (rest.map next).getLastD path.current := by
  induction rest generalizing path with
  | nil => rfl
  | cons step rest inductionHypothesis =>
    rw [extendAll, List.foldl_cons, ← extendAll, inductionHypothesis, List.map_cons,
      List.getLastD_cons]
    rfl

variable (accepts : Partial Node Step → Bool)

/-- What is found are the accepted ways to go on by one to so many steps. -/
theorem mem_found (depth : Nat) (path reached : Partial Node Step) :
    reached ∈ found next steps accepts depth path ↔
      ∃ rest, rest ≠ [] ∧ rest.length ≤ depth ∧ GoesOn next steps path rest ∧
        reached = extendAll next path rest ∧ accepts reached = true := by
  induction depth generalizing path with
  | zero =>
    constructor
    · intro absurdity
      cases absurdity
    · rintro ⟨rest, filled, short, _⟩
      exact absurd (List.length_eq_zero_iff.mp (Nat.le_zero.mp short)) filled
  | succ depth inductionHypothesis =>
    rw [found, List.mem_flatMap]
    constructor
    · rintro ⟨extended, member, within⟩
      obtain ⟨step, allowed, rfl⟩ := List.mem_map.mp member
      rw [List.mem_filter, decide_eq_true_eq] at allowed
      rcases List.mem_append.mp within with here | later
      · have accepted : accepts (extend next path step) = true ∧
            reached = extend next path step := by
          split at here
          · next accepted => exact ⟨accepted, List.mem_singleton.mp here⟩
          · cases here
        have ends : GoesOn next steps (extend next path step) [] :=
          ⟨trivial, List.nodup_nil, fun step absurdity => by cases absurdity⟩
        exact ⟨[step], List.cons_ne_nil _ _, by simp, (goesOn_cons next steps).mpr ⟨allowed, ends⟩,
          accepted.2, accepted.2 ▸ accepted.1⟩
      · obtain ⟨rest, _, short, goesOn, same, accepted⟩ := (inductionHypothesis _).mp later
        refine ⟨step :: rest, List.cons_ne_nil _ _, ?_,
          (goesOn_cons next steps).mpr ⟨allowed, goesOn⟩, same, accepted⟩
        rw [List.length_cons]
        omega
    · rintro ⟨rest, filled, short, goesOn, same, accepted⟩
      obtain ⟨step, rest, rfl⟩ := List.exists_cons_of_ne_nil filled
      obtain ⟨allowed, further⟩ := (goesOn_cons next steps).mp goesOn
      refine ⟨extend next path step, List.mem_map.mpr ⟨step, ?_, rfl⟩, ?_⟩
      · rw [List.mem_filter, decide_eq_true_eq]
        exact allowed
      · cases rest with
        | nil =>
          refine List.mem_append_left _ ?_
          have one : reached = extend next path step := same
          rw [one] at accepted ⊢
          rw [if_pos accepted]
          exact List.mem_singleton.mpr rfl
        | cons second rest =>
          refine List.mem_append_right _ ((inductionHypothesis _).mpr
            ⟨second :: rest, List.cons_ne_nil _ _, ?_, further, same, accepted⟩)
          rw [List.length_cons] at short ⊢
          rw [List.length_cons] at short
          omega

theorem found_edges {depth : Nat} {path reached : Partial Node Step}
    (member : reached ∈ found next steps accepts depth path) :
    ∃ rest, rest ≠ [] ∧ reached.edges = path.edges ++ rest := by
  obtain ⟨rest, filled, _, _, rfl, _⟩ := (mem_found next steps accepts depth path reached).mp member
  exact ⟨rest, filled, extendAll_edges next path rest⟩

/-- Nothing is found twice when no step is offered twice. -/
theorem nodup_found (distinct : ∀ node, (steps node).Nodup) (depth : Nat)
    (path : Partial Node Step) :
    ((found next steps accepts depth path).map Partial.edges).Nodup := by
  induction depth generalizing path with
  | zero => exact List.nodup_nil
  | succ depth inductionHypothesis =>
    rw [found, List.map_flatMap, List.nodup_flatMap]
    constructor
    · intro extended _
      rw [List.map_append, List.nodup_append]
      refine ⟨?_, inductionHypothesis extended, ?_⟩
      · split
        · exact List.nodup_singleton _
        · exact List.nodup_nil
      · intro edges here other later same
        obtain ⟨reached, member, rfl⟩ := List.mem_map.mp later
        obtain ⟨rest, filled, longer⟩ := found_edges next steps accepts member
        have isOwn : edges = extended.edges := by
          split at here
          · exact List.mem_singleton.mp here
          · cases here
        rw [← same, isOwn] at longer
        exact filled (List.self_eq_append_right.mp longer)
    · have starts : ∀ extended ∈ extensions next steps path, ∀ edges,
          edges ∈ ((if accepts extended then [extended] else []) ++
            found next steps accepts depth extended).map Partial.edges →
          ∃ rest, edges = extended.edges ++ rest := by
        intro extended _ edges within
        obtain ⟨reached, member, rfl⟩ := List.mem_map.mp within
        rcases List.mem_append.mp member with here | later
        · split at here
          · rw [List.mem_singleton.mp here]
            exact ⟨[], (List.append_nil _).symm⟩
          · cases here
        · obtain ⟨rest, _, longer⟩ := found_edges next steps accepts later
          exact ⟨rest, longer⟩
      have apart : (extensions next steps path).Pairwise
          fun first second => first.edges ≠ second.edges := by
        rw [extensions, List.pairwise_map]
        refine List.Pairwise.imp ?_ ((distinct path.current).filter _)
        intro first second different same
        exact different (List.cons.inj (List.append_cancel_left same)).1
      refine List.Pairwise.imp_of_mem ?_ apart
      intro first second isFirst isSecond different edges inFirst inSecond
      obtain ⟨rest, firstEdges⟩ := starts first isFirst edges inFirst
      obtain ⟨other, secondEdges⟩ := starts second isSecond edges inSecond
      have same := List.append_inj_left (firstEdges.symm.trans secondEdges)
        ((extensions_length next steps isFirst).trans (extensions_length next steps isSecond).symm)
      exact different same

/-! ## From one node -/

/-- The path that has not left its first node. -/
def start (node : Node) : Partial Node Step := { current := node, nodes := [node], edges := [] }

omit [DecidableEq Node] in
theorem goesOn_start (node : Node) (rest : List Step) :
    GoesOn next steps (start node) rest ↔ Simple next steps node rest := by
  rw [GoesOn, Simple, List.nodup_cons]
  constructor
  · rintro ⟨follows, distinct, apart⟩
    refine ⟨follows, ?_, distinct⟩
    intro again
    obtain ⟨step, member, same⟩ := List.mem_map.mp again
    exact apart step member (List.mem_singleton.mpr same)
  · rintro ⟨follows, apart, distinct⟩
    refine ⟨follows, distinct, ?_⟩
    intro step member visited
    exact apart (List.mem_singleton.mp visited ▸ List.mem_map_of_mem member)

/-- From a node the loop records each accepted simple path of at least one step once. -/
theorem search_start (max_depth : Nat) (distinct : ∀ node, (steps node).Nodup) (node : Node) :
    ∃ enough, ∀ fuel, enough ≤ fuel → ∃ recorded,
      search next steps max_depth accepts fuel [start node] [] = some recorded ∧
        (recorded.map Partial.edges).Nodup ∧
          ∀ reached, reached ∈ recorded ↔ ∃ rest, rest ≠ [] ∧ rest.length ≤ max_depth ∧
            Simple next steps node rest ∧ reached = extendAll next (start node) rest ∧
              accepts reached = true := by
  refine ⟨cost next steps max_depth (start node) + 1, fun fuel more => ?_⟩
  obtain ⟨recorded, ends, same⟩ := search_perm next steps accepts fuel [start node] [] (by
    simp only [List.map_cons, List.map_nil, List.sum_cons, List.sum_nil]
    exact more)
  rw [List.nil_append, List.flatMap_cons, List.flatMap_nil, List.append_nil] at same
  refine ⟨recorded, ends, ?_, ?_⟩
  · exact (same.map Partial.edges).nodup_iff.mpr (nodup_found next steps accepts distinct _ _)
  · intro reached
    rw [same.mem_iff, mem_found]
    simp only [goesOn_start]
    rfl

/-! ## Walks -/

omit [DecidableEq Node] in
/-- From each node of a simple path on, it is one with the same end. -/
theorem simple_behind {first node : Node} {rest : List Step} (simple : Simple next steps first rest)
    (member : node ∈ first :: rest.map next) :
    ∃ later, Simple next steps node later ∧ later.length ≤ rest.length ∧
      (later.map next).getLastD node = (rest.map next).getLastD first := by
  induction rest generalizing first with
  | nil =>
    obtain rfl := List.mem_singleton.mp member
    exact ⟨[], simple, Nat.le_refl _, rfl⟩
  | cons step rest inductionHypothesis =>
    rcases List.mem_cons.mp member with rfl | further
    · exact ⟨step :: rest, simple, Nat.le_refl _, rfl⟩
    · have behind : Simple next steps (next step) rest :=
        ⟨simple.1.2, (List.nodup_cons.mp simple.2).2⟩
      obtain ⟨later, isSimple, short, ends⟩ := inductionHypothesis behind further
      refine ⟨later, isSimple, Nat.le_succ_of_le short, ?_⟩
      rw [ends, List.map_cons, List.getLastD_cons]

/-- Steps that follow each other contain a simple path between the same nodes. -/
theorem exists_simple {first : Node} {rest : List Step} (follows : Follows next steps first rest) :
    ∃ simple, Simple next steps first simple ∧ simple.length ≤ rest.length ∧
      (simple.map next).getLastD first = (rest.map next).getLastD first := by
  induction rest generalizing first with
  | nil => exact ⟨[], ⟨trivial, List.nodup_singleton first⟩, Nat.le_refl _, rfl⟩
  | cons step rest inductionHypothesis =>
    obtain ⟨simple, isSimple, short, ends⟩ := inductionHypothesis follows.2
    rw [List.map_cons, List.getLastD_cons, ← ends]
    by_cases again : first ∈ next step :: simple.map next
    · -- what lies between the two visits is left out
      obtain ⟨later, isLater, shorter, same⟩ := simple_behind next steps isSimple again
      refine ⟨later, isLater, ?_, same⟩
      rw [List.length_cons]
      omega
    · refine ⟨step :: simple, ⟨⟨follows.1, isSimple.1⟩, List.nodup_cons.mpr ⟨again, isSimple.2⟩⟩, ?_, ?_⟩
      · rw [List.length_cons, List.length_cons]
        omega
      · rw [List.map_cons, List.getLastD_cons]

/-- A step leads from one node to another. -/
def Leads (start stop : Node) : Prop := ∃ step ∈ steps start, next step = stop

omit [DecidableEq Node] in
/-- Walks are the ends of steps that follow each other. -/
theorem walk_iff_follows {length : Nat} {first stop : Node} :
    Walks.Walk (Leads next steps) length first stop ↔ ∃ rest, Follows next steps first rest ∧
      rest.length = length ∧ (rest.map next).getLastD first = stop := by
  induction length generalizing first with
  | zero =>
    rw [Walks.walk_zero]
    constructor
    · intro same
      exact ⟨[], trivial, rfl, same⟩
    · rintro ⟨rest, _, nothing, ends⟩
      rw [List.length_eq_zero_iff.mp nothing] at ends
      exact ends
  | succ length inductionHypothesis =>
    constructor
    · intro walk
      rw [Nat.add_comm] at walk
      obtain ⟨middle, one, others⟩ := walk.split
      obtain ⟨step, allowed, rfl⟩ := Walks.walk_one.mp one
      obtain ⟨rest, follows, long, ends⟩ := inductionHypothesis.mp others
      refine ⟨step :: rest, ⟨allowed, follows⟩, congrArg Nat.succ long, ?_⟩
      rw [List.map_cons, List.getLastD_cons, ends]
    · rintro ⟨rest, follows, long, ends⟩
      cases rest with
      | nil => cases long
      | cons step rest =>
        rw [List.map_cons, List.getLastD_cons] at ends
        have one : Walks.Walk (Leads next steps) 1 first (next step) :=
          Walks.walk_one.mpr ⟨step, follows.1, rfl⟩
        rw [Nat.add_comm]
        exact one.join (inductionHypothesis.mpr ⟨rest, follows.2, Nat.succ.inj long, ends⟩)

/-- A walk to a node is as long as a simple path to it or longer. -/
theorem simple_of_walk {length : Nat} {first stop : Node}
    (walk : Walks.Walk (Leads next steps) length first stop) :
    ∃ simple, Simple next steps first simple ∧ simple.length ≤ length ∧
      (simple.map next).getLastD first = stop := by
  obtain ⟨rest, follows, rfl, rfl⟩ := (walk_iff_follows next steps).mp walk
  exact exists_simple next steps follows

end CaracalDB.SimplePaths
