import CaracalDB.PathQuery
import CaracalDB.Writes

/-!
# What a query for paths answers

A query answers once for each simple path of at least one step that goes from a row
of its first class along its edges to a row of its second class, has a length in its
range and satisfies its predicate. The path without steps is never answered.
-/

namespace CaracalDB.Paths

open Database Where

/-- The steps that edges allow from a node. -/
def allowedSteps (edges : List StoredEdge) (direction : String) (node : Int) : List EdgeStep :=
  ((edges.flatMap (stepsOf direction)).filter fun pair => pair.1 = node).map Prod.snd

/-- Whether a path connects a row to a row as a pattern asks, its predicate aside. -/
structure Connects (pattern : PathPattern) (sources targets : List Candidate)
    (edges : List StoredEdge) (found : PathMatch) : Prop where
  source : found.source ∈ sources
  target : found.target ∈ targets
  long : pattern.min_depth ≤ found.steps.length
  short : found.steps.length ≤ pattern.max_depth
  simple : SimplePaths.Simple EdgeStep.next (allowedSteps edges pattern.direction)
    found.source.internal_id found.steps
  ends : found.target.internal_id =
    (found.steps.map EdgeStep.next).getLastD found.source.internal_id

/-- Whether a path matches a pattern among rows and edges. -/
structure Matches (services : Services) (pattern : PathPattern) (lookup : Dict Int Value)
    (sources targets : List Candidate) (edges : List StoredEdge) (found : PathMatch) : Prop where
  connects : Connects pattern sources targets edges found
  satisfied : satisfies services pattern lookup found = .ok true

/-! ## The adjacency -/

/-- The adjacency of some edges. -/
def adjacencyOf (direction : String) (edges : List StoredEdge) : Adjacency :=
  ((edges.flatMap (stepsOf direction)).foldl Dict.file Dict.empty).mapValues (ranked stepKey)

/-- The steps from a node in an adjacency are those that its edges allow. -/
theorem stepsFrom_perm (direction : String) (edges : List StoredEdge) (node : Int) :
    (stepsFrom (adjacencyOf direction edges) node).Perm (allowedSteps edges direction node) := by
  rw [stepsFrom, adjacencyOf, Dict.get_mapValues, allowedSteps, ← Dict.filed_under]
  cases (((edges.flatMap (stepsOf direction)).foldl Dict.file Dict.empty).get? node) with
  | none => exact List.Perm.refl _
  | some steps => exact ranked_perm stepKey steps

theorem mem_stepsFrom {direction : String} {edges : List StoredEdge} {node : Int}
    {step : EdgeStep} : step ∈ stepsFrom (adjacencyOf direction edges) node ↔
      step ∈ allowedSteps edges direction node := (stepsFrom_perm direction edges node).mem_iff

/-- Edges of which no two of one relation have one id. -/
def DistinctEdges (edges : List StoredEdge) : Prop :=
  (edges.map fun edge => (edge.edge_type, edge.edge_id)).Nodup

theorem stepsOf_edge {direction : String} {edge : StoredEdge} {pair : Int × EdgeStep}
    (member : pair ∈ stepsOf direction edge) :
    (pair.2.edge_type, pair.2.edge_id) = (edge.edge_type, edge.edge_id) := by
  rw [stepsOf, List.mem_append] at member
  rcases member with out | back
  · split at out
    · rw [List.mem_singleton.mp out]
    · cases out
  · split at back
    · rw [List.mem_singleton.mp back]
    · cases back

/-- An edge allows no step twice. -/
theorem stepsOf_nodup (direction : String) (edge : StoredEdge) :
    ((stepsOf direction edge).map Prod.snd).Nodup := by
  rw [stepsOf, List.map_append, List.nodup_append]
  refine ⟨?_, ?_, ?_⟩
  · split <;> simp
  · split <;> simp
  · intro first isOut second isBack same
    split at isOut
    · split at isBack
      · rw [List.map_singleton, List.mem_singleton] at isOut isBack
        have directions : "out" = "in" := by
          have equal := congrArg EdgeStep.direction same
          rw [isOut, isBack] at equal
          exact equal
        exact absurd directions (by decide)
      · cases isBack
    · cases isOut

/-- No step is offered twice from a node. -/
theorem stepsFrom_nodup {direction : String} {edges : List StoredEdge}
    (distinct : DistinctEdges edges) (node : Int) :
    (stepsFrom (adjacencyOf direction edges) node).Nodup := by
  rw [(stepsFrom_perm direction edges node).nodup_iff, allowedSteps]
  have all : ((edges.flatMap (stepsOf direction)).map Prod.snd).Nodup := by
    rw [List.map_flatMap, List.nodup_flatMap]
    refine ⟨fun edge _ => stepsOf_nodup direction edge, ?_⟩
    have apart := List.pairwise_map.mp distinct
    refine apart.imp fun {first second} different step inFirst inSecond => ?_
    obtain ⟨pair, isFirst, rfl⟩ := List.mem_map.mp inFirst
    obtain ⟨other, isSecond, same⟩ := List.mem_map.mp inSecond
    refine different ?_
    rw [← stepsOf_edge isFirst, ← stepsOf_edge isSecond, same]
  exact all.sublist (List.filter_sublist.map Prod.snd)

theorem follows_congr {Node Step : Type} (next : Step → Node) {first second : Node → List Step}
    (same : ∀ node step, step ∈ first node ↔ step ∈ second node) (start : Node)
    (rest : List Step) :
    SimplePaths.Follows next first start rest ↔ SimplePaths.Follows next second start rest := by
  induction rest generalizing start with
  | nil => exact Iff.rfl
  | cons step rest inductionHypothesis =>
    exact and_congr (same start step) (inductionHypothesis (next step))

theorem simple_iff {direction : String} {edges : List StoredEdge} (start : Int)
    (rest : List EdgeStep) :
    SimplePaths.Simple EdgeStep.next (stepsFrom (adjacencyOf direction edges)) start rest ↔
      SimplePaths.Simple EdgeStep.next (allowedSteps edges direction) start rest :=
  and_congr (follows_congr _ (fun _ _ => mem_stepsFrom) start rest) Iff.rfl

/-- Reading the edges of relations whose tables the process has not kept from before. -/
theorem typedAdjacency_ok {runtime : Runtime} {db : Database} {pool : BufferPool}
    {edge_types : List String} {direction : String} {filters : Dict String Value}
    {edges : List (List StoredEdge)}
    (current : ∀ relation ∈ edge_types, ∀ table, pool.get? relation = some table →
      storedTable db relation = .ok table)
    (read : edge_types.mapM (fun relation => do
      edgesOf runtime filters relation (← storedTable db relation)) = .ok edges) :
    typedAdjacency runtime db pool edge_types direction filters =
      .ok (adjacencyOf direction edges.flatten) := by
  have same : ∀ relation ∈ edge_types,
      getArrowTable db pool relation = storedTable db relation := by
    intro relation member
    rw [getArrowTable]
    cases kept : pool.get? relation with
    | none => rfl
    | some table => exact (current relation member table kept).symm
  have reads : edge_types.mapM (fun relation => do
      edgesOf runtime filters relation (← getArrowTable db pool relation)) = .ok edges := by
    rw [← read]
    clear read
    induction edge_types with
    | nil => rfl
    | cons relation rest inductionHypothesis =>
      rw [List.mapM_cons, List.mapM_cons, same relation List.mem_cons_self,
        inductionHypothesis (fun other later => current other (List.mem_cons_of_mem _ later))
          fun other later => same other (List.mem_cons_of_mem _ later)]
  rw [typedAdjacency, reads]
  rfl

/-! ## The rows -/

/-- Of rows with distinct ids, the one with an id is found by it. -/
theorem targetById_eq {targets : List Candidate}
    (distinct : (targets.map Candidate.internal_id).Nodup) {target : Candidate}
    (member : target ∈ targets) : targetById targets target.internal_id = some target := by
  rw [targetById]
  cases found : targets.reverse.find? fun other => other.internal_id = target.internal_id with
  | none =>
    have absent := List.find?_eq_none.mp found target (List.mem_reverse.mpr member)
    exact absurd (decide_eq_true rfl) absent
  | some other =>
    have same : other.internal_id = target.internal_id := by
      simpa using List.find?_some found
    rw [List.inj_on_of_nodup_map distinct
      (List.mem_reverse.mp (List.mem_of_find?_eq_some found)) member same]

/-! ## The paths -/

/-- The path of a match, as the queue holds it. -/
def pathOf (found : PathMatch) : Path :=
  SimplePaths.extendAll EdgeStep.next (SimplePaths.start found.source.internal_id) found.steps

/-- With enough fuel the paths from a row are the simple paths of at least one step to a target. -/
theorem enumerate_start (direction : String) {edges : List StoredEdge}
    (distinct : DistinctEdges edges) (target_ids : List Int) (min_depth max_depth : Nat)
    (source_id : Int) :
    ∃ enough, ∀ fuel, enough ≤ fuel → ∃ paths,
      enumeratePathsToTargets fuel source_id target_ids (adjacencyOf direction edges) min_depth
          max_depth = some paths ∧
        (paths.map SimplePaths.Partial.edges).Nodup ∧
          ∀ path, path ∈ paths ↔ ∃ rest, rest ≠ [] ∧ rest.length ≤ max_depth ∧
            SimplePaths.Simple EdgeStep.next (allowedSteps edges direction) source_id rest ∧
              path = SimplePaths.extendAll EdgeStep.next (SimplePaths.start source_id) rest ∧
                isAnswer target_ids min_depth path = true := by
  obtain ⟨enough, recorded⟩ := SimplePaths.search_start EdgeStep.next
    (stepsFrom (adjacencyOf direction edges)) (isAnswer target_ids min_depth) max_depth
    (stepsFrom_nodup distinct) source_id
  refine ⟨enough, fun fuel more => ?_⟩
  obtain ⟨paths, ends, once, exact'⟩ := recorded fuel more
  refine ⟨ranked pathKey paths, ?_, ?_, ?_⟩
  · rw [enumeratePathsToTargets, ends]
    rfl
  · exact ((ranked_perm pathKey paths).map _).nodup_iff.mpr once
  · intro path
    rw [mem_ranked, exact']
    simp only [simple_iff]

/-- Whether a path is one of those from a row to a target, in terms of what it connects. -/
theorem isAnswer_pathOf {target_ids : List Int} {min_depth : Nat} {found : PathMatch} :
    isAnswer target_ids min_depth (pathOf found) = true ↔ min_depth ≤ found.steps.length ∧
      (found.steps.map EdgeStep.next).getLastD found.source.internal_id ∈ target_ids := by
  rw [isAnswer, pathOf, SimplePaths.extendAll_edges, SimplePaths.extendAll_current,
    Bool.and_eq_true, decide_eq_true_eq, decide_eq_true_eq]
  rfl

/-! ## The answers -/

section Answers

variable {services : Services} {pattern : PathPattern} {lookup : Dict Int Value}
  {sources targets : List Candidate} {edges : List StoredEdge}

/-- The match that a path from a row is, if it satisfies the predicate. -/
def matchOf (services : Services) (pattern : PathPattern) (lookup : Dict Int Value)
    (targets : List Candidate) (pair : Candidate × Path) : Option PathMatch :=
  (targetById targets pair.2.current).bind fun target =>
    let found : PathMatch := { source := pair.1, steps := pair.2.edges, target }
    match satisfies services pattern lookup found with
    | .ok true => some found
    | _ => none

theorem matchOf_eq_some {pair : Candidate × Path} {found : PathMatch} :
    matchOf services pattern lookup targets pair = some found ↔
      (pair.1 = found.source ∧ pair.2.edges = found.steps) ∧
        targetById targets pair.2.current = some found.target ∧
          satisfies services pattern lookup found = .ok true := by
  rw [matchOf, Option.bind_eq_some_iff]
  constructor
  · rintro ⟨target, isTarget, same⟩
    dsimp only at same
    split at same
    · next satisfied =>
      cases same
      exact ⟨⟨rfl, rfl⟩, isTarget, satisfied⟩
    · cases same
  · rintro ⟨⟨sameSource, sameSteps⟩, isTarget, satisfied⟩
    refine ⟨found.target, isTarget, ?_⟩
    rw [sameSource, sameSteps]
    dsimp only
    rw [satisfied]

/-- The answers are the projections of the matches among the paths. -/
theorem answersOf_eq {paths : List (Candidate × List Path)}
    (decided : ∀ entry ∈ paths, ∀ path ∈ entry.2, ∃ target,
      targetById targets path.current = some target ∧ ∃ verdict, satisfies services pattern lookup
        { source := entry.1, steps := path.edges, target } = .ok verdict) :
    answersOf services pattern lookup targets paths = .ok
      (((paths.flatMap fun (source, found) => found.map fun path => (source, path)).filterMap
        (matchOf services pattern lookup targets)).map (projectRow services pattern lookup)) := by
  rw [answersOf, mapM_of_ok fun pair : Candidate × Path =>
    (matchOf services pattern lookup targets pair).map (projectRow services pattern lookup)]
  · rw [ok_bind, List.filterMap_map, List.map_filterMap]
    rfl
  · rintro ⟨source, path⟩ member
    obtain ⟨entry, inPaths, within⟩ := List.mem_flatMap.mp member
    obtain ⟨_, isPath, same⟩ := List.mem_map.mp within
    cases same
    obtain ⟨target, isTarget, verdict, evaluated⟩ := decided entry inPaths path isPath
    simp only [answerOf, matchOf, isTarget, Option.bind_some, evaluated]
    cases verdict <;> rfl

/-- No match is answered twice. -/
theorem matches_nodup {paths : List (Candidate × List Path)}
    (apart : (paths.map Prod.fst).Nodup)
    (once : ∀ entry ∈ paths, (entry.2.map SimplePaths.Partial.edges).Nodup) :
    ((paths.flatMap fun (source, found) => found.map fun path => (source, path)).filterMap
      (matchOf services pattern lookup targets)).Nodup := by
  have keys : (paths.flatMap fun (source, found) => found.map fun path => (source, path)).Pairwise
      fun first second => (first.1, first.2.edges) ≠ (second.1, second.2.edges) := by
    rw [← List.pairwise_map (f := fun pair : Candidate × Path => (pair.1, pair.2.edges)),
      ← List.Nodup, List.map_flatMap, List.nodup_flatMap]
    constructor
    · intro entry member
      rw [List.map_map]
      have both := (once entry member).map (Prod.mk_right_injective entry.1)
      rw [List.map_map] at both
      exact both
    · refine (List.pairwise_map.mp apart).imp fun {first second} different pair inFirst inSecond => ?_
      obtain ⟨_, isFirst, rfl⟩ := List.mem_map.mp inFirst
      obtain ⟨_, isSecond, same⟩ := List.mem_map.mp inSecond
      obtain ⟨_, _, rfl⟩ := List.mem_map.mp isFirst
      obtain ⟨_, _, rfl⟩ := List.mem_map.mp isSecond
      exact different (congrArg Prod.fst same).symm
  rw [List.Nodup, List.pairwise_filterMap]
  refine keys.imp fun {first second} different found isFirst other isSecond same => ?_
  obtain ⟨⟨firstSource, firstSteps⟩, _⟩ := matchOf_eq_some.mp isFirst
  obtain ⟨⟨secondSource, secondSteps⟩, _⟩ := matchOf_eq_some.mp isSecond
  refine different ?_
  rw [firstSource, firstSteps, secondSource, secondSteps, same]

end Answers

/-! ## The query -/

section Query

variable {services : Services} {db : Database} {pool : BufferPool} {pattern : PathPattern}
  {lookup : Dict Int Value} {sources targets : List Candidate} {edges : List (List StoredEdge)}

/-- With enough fuel a query that raises nothing answers once for each match of at least one
step. -/
theorem execute_eq
    (isSources : candidateRows services.runtime db pattern.source_node = .ok sources)
    (isTargets : candidateRows services.runtime db pattern.target_node = .ok targets)
    (apartSources : (sources.map Candidate.internal_id).Nodup)
    (apartTargets : (targets.map Candidate.internal_id).Nodup)
    (current : ∀ relation ∈ pattern.edge_types, ∀ table, pool.get? relation = some table →
      storedTable db relation = .ok table)
    (read : pattern.edge_types.mapM (fun relation => do
      edgesOf services.runtime pattern.edge_filters relation (← storedTable db relation)) =
        .ok edges)
    (distinct : DistinctEdges edges.flatten)
    (lookedUp : nodeLookup services.runtime db = .ok lookup)
    (decided : ∀ found, Connects pattern sources targets edges.flatten found →
      ∃ verdict, satisfies services pattern lookup found = .ok verdict) :
    ∃ enough, ∀ fuel, enough ≤ fuel → ∃ matched : List PathMatch, matched.Nodup ∧
      (∀ found, found ∈ matched ↔
        Matches services pattern lookup sources targets edges.flatten found ∧ found.steps ≠ []) ∧
      execute services fuel db pool pattern =
        .ok (some (matched.map (projectRow services pattern lookup))) := by
  obtain ⟨enough, enumerated⟩ := enough_for_all sources fun source _ =>
    enumerate_start pattern.direction distinct (targets.map Candidate.internal_id)
      pattern.min_depth pattern.max_depth source.internal_id
  refine ⟨enough, fun fuel more => ?_⟩
  have chosen := enumerated fuel more
  choose! pathsFrom ends once exactly using chosen
  -- a path from a row is that of the match it is
  have isPath : ∀ source ∈ sources, ∀ path ∈ pathsFrom source, ∃ target ∈ targets,
      targetById targets path.current = some target ∧ path.edges ≠ [] ∧
        Connects pattern sources targets edges.flatten
          { source, steps := path.edges, target } := by
    intro source isSource path member
    obtain ⟨rest, filled, short, simple, same, accepted⟩ := (exactly source isSource path).mp member
    have sameEdges : path.edges = rest := by
      rw [same, SimplePaths.extendAll_edges]
      rfl
    rw [isAnswer, Bool.and_eq_true, decide_eq_true_eq, decide_eq_true_eq] at accepted
    obtain ⟨target, isTarget, sameId⟩ := List.mem_map.mp accepted.2
    refine ⟨target, isTarget, sameId ▸ targetById_eq apartTargets isTarget, sameEdges ▸ filled, ?_⟩
    refine ⟨isSource, isTarget, accepted.1, sameEdges ▸ short, sameEdges ▸ simple, ?_⟩
    rw [sameId, same, SimplePaths.extendAll_current, SimplePaths.extendAll_edges]
    rfl
  refine ⟨((sources.map fun source => (source, pathsFrom source)).flatMap fun (source, found) =>
    found.map fun path => (source, path)).filterMap (matchOf services pattern lookup targets),
    ?_, ?_, ?_⟩
  · refine matches_nodup ?_ ?_
    · rw [List.map_map]
      exact (List.map_id sources).symm ▸ List.Nodup.of_map _ apartSources
    · intro entry member
      obtain ⟨source, isSource, rfl⟩ := List.mem_map.mp member
      exact once source isSource
  · intro found
    rw [List.mem_filterMap]
    constructor
    · rintro ⟨⟨source, path⟩, member, matched⟩
      obtain ⟨entry, inPaths, within⟩ := List.mem_flatMap.mp member
      obtain ⟨source', isSource, rfl⟩ := List.mem_map.mp inPaths
      obtain ⟨path', here, same⟩ := List.mem_map.mp within
      cases same
      obtain ⟨⟨sameSource, sameSteps⟩, found?, satisfied⟩ := matchOf_eq_some.mp matched
      obtain ⟨target, _, isTarget, filled, connects⟩ := isPath source isSource path here
      have sameTarget : target = found.target := Option.some.inj (isTarget.symm.trans found?)
      dsimp only at sameSource sameSteps
      rw [sameTarget, sameSteps, sameSource] at connects
      exact ⟨⟨connects, satisfied⟩, sameSteps ▸ filled⟩
    · rintro ⟨⟨connects, satisfied⟩, filled⟩
      refine ⟨(found.source, pathOf found), List.mem_flatMap.mpr
        ⟨_, List.mem_map.mpr ⟨found.source, connects.source, rfl⟩, List.mem_map.mpr
          ⟨pathOf found, ?_, rfl⟩⟩, ?_⟩
      · refine (exactly found.source connects.source _).mpr
          ⟨found.steps, filled, connects.short, connects.simple, rfl, ?_⟩
        refine isAnswer_pathOf.mpr ⟨connects.long, ?_⟩
        rw [← connects.ends]
        exact List.mem_map_of_mem connects.target
      · have sameEdges : (pathOf found).edges = found.steps := by
          rw [pathOf, SimplePaths.extendAll_edges]
          rfl
        have sameCurrent : (pathOf found).current = found.target.internal_id := by
          rw [pathOf, SimplePaths.extendAll_current, connects.ends]
          rfl
        refine matchOf_eq_some.mpr ⟨⟨rfl, sameEdges⟩, ?_, satisfied⟩
        dsimp only
        rw [sameCurrent]
        exact targetById_eq apartTargets connects.target
  · have allPaths : sources.mapM (fun source => (enumeratePathsToTargets fuel source.internal_id
        (targets.map Candidate.internal_id) (adjacencyOf pattern.direction edges.flatten)
        pattern.min_depth pattern.max_depth).map fun paths => (source, paths)) =
          some (sources.map fun source => (source, pathsFrom source)) :=
      mapM_of_some _ sources fun source isSource => by rw [ends source isSource, Option.map_some]
    simp only [execute, isSources, isTargets, typedAdjacency_ok current read, lookedUp, ok_bind,
      allPaths]
    rw [answersOf_eq]
    · rfl
    · intro entry member path here
      obtain ⟨source, isSource, rfl⟩ := List.mem_map.mp member
      obtain ⟨target, _, isTarget, _, connects⟩ := isPath source isSource path here
      exact ⟨target, isTarget, decided _ connects⟩

end Query

/-! ## Two friends -/

/-- Two persons, one of whom knows the other. -/
def friends : Database :=
  Write.afterAll Runtime.plain
    [.insert_node_table [Dict.ofEntries [("node_id", .str "ada"), ("type", .str "Person")],
        Dict.ofEntries [("node_id", .str "bob"), ("type", .str "Person")]] "node_id" "type",
      .insert_edge_table [Dict.ofEntries [("src", .str "ada"), ("dst", .str "bob"),
        ("type", .str "knows"), ("since", .int 1843)]] {}]
    (Database.create "graph.crcl")

/-- `(a:Person)-[p:knows*<min_depth>..2]->(b:Person)` -/
def friendsPattern (min_depth : Nat) : PathPattern where
  source_node := { class_name := "Person", props := Dict.empty }
  target_node := { class_name := "Person", props := Dict.empty }
  source_alias := "a"
  target_alias := "b"
  binding := "p"
  edge_types := ["knows"]
  direction := "out"
  min_depth := min_depth
  max_depth := 2
  edge_filters := Dict.ofEntries [("since_gte", .int 1800)]
  where_ := none
  projections := [.node_id "source" "a", .length "depth", .node_id "target" "b"]

/-- Arrow with an ordering of numbers, and a `json.dumps` that is not looked at. -/
def plainServices : Services where
  kernels := { Kernels.plain with
    runtime := { Runtime.plain with
      compare := fun op _ values value => match value with
        | .int bound => .ok (values.map fun stored => match stored with
            | .int number => some (if op = "greater_equal" then bound ≤ number else number = bound)
            | _ => none)
        | _ => .error (.arrowError "no kernel") } }
  dumps := fun _ => "{}"

/-- The rows of the persons. -/
def friendRows : List Candidate :=
  ["ada", "bob"].zipIdx.map fun (name, index) =>
    { internal_id := index
      row := Dict.ofEntries [("nid", .int index), ("node_id", .str name), ("type", .str "Person"),
        ("_cdb_gid", .int index), ("_internal_id", .int index), ("_node_type", .str "Person")] }

def friendship : StoredEdge where
  edge_id := 0
  edge_type := "knows"
  src := 0
  dst := 1
  properties := Dict.ofEntries [("since", .int 1843), ("type", .str "knows")]

def friendLookup : Dict Int Value := Dict.ofEntries [(0, .str "ada"), (1, .str "bob")]

theorem friendRows_read (min_depth : Nat) :
    candidateRows plainServices.runtime friends (friendsPattern min_depth).source_node =
        .ok friendRows ∧
      candidateRows plainServices.runtime friends (friendsPattern min_depth).target_node =
        .ok friendRows := by
  have read : candidateRows plainServices.runtime friends
      { class_name := "Person", props := Dict.empty } = .ok friendRows := by decide +kernel
  exact ⟨read, read⟩

end CaracalDB.Paths
