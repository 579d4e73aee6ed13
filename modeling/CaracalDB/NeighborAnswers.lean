import CaracalDB.NeighborSearch
import CaracalDB.Spreading
import Mathlib.Data.List.Dedup

/-!
# What a search for neighbors answers

Without a limit the search answers each node that is within reach and of a type that is asked for
once, at its least distance and with a path of that length. With a limit it answers the first of
these rows, but one of them where none is asked for: the limit is looked at behind the row.
-/

namespace CaracalDB.Neighbors

open Database Paths Spreading

/-! ## The adjacency -/

/-- The nodes that an edge leads to from a node. -/
def Adjacent (edges : List StoredEdge) (direction : String) (node next : Int) : Prop :=
  ∃ step ∈ allowedSteps edges direction node, step.next = next

theorem orderSteps_perm {runtime : Runtime} {order_by_property : Option String}
    {steps ordered : List EdgeStep}
    (done : orderSteps runtime order_by_property steps = .ok ordered) : ordered.Perm steps := by
  cases order_by_property with
  | none =>
    cases done
    exact ranked_perm stepKey steps
  | some property_name =>
    obtain ⟨weighted, weighs, same⟩ := except_bind_ok done
    cases same
    have kept : weighted.map Prod.fst = steps := by
      clear done
      induction steps generalizing weighted with
      | nil =>
        cases weighs
        rfl
      | cons step steps inductionHypothesis =>
        rw [List.mapM_cons] at weighs
        obtain ⟨pair, first, rest⟩ := except_bind_ok weighs
        obtain ⟨weight, _, isPair⟩ := except_bind_ok first
        obtain ⟨others, later, isAll⟩ := except_bind_ok rest
        cases isPair
        cases isAll
        rw [List.map_cons, inductionHypothesis others later]
    rw [← kept]
    exact (ranked_perm _ weighted).map Prod.fst

/-- The steps from a node are those that the edges allow, whatever they are ordered by. -/
theorem mem_orderedAdjacency {runtime : Runtime} {db : Database} {pool : BufferPool}
    {edge_types : List String} {direction : String} {filters : Dict String Value}
    {order_by_property : Option String} {edges : List StoredEdge} {adjacency : Adjacency}
    (read : matchingEdges runtime db pool edge_types filters = .ok edges)
    (made : orderedAdjacency runtime db pool edge_types direction filters order_by_property =
      .ok adjacency) (node : Int) (step : EdgeStep) :
    step ∈ stepsFrom adjacency node ↔ step ∈ allowedSteps edges direction node := by
  rw [orderedAdjacency, read, ok_bind] at made
  obtain ⟨entries, ordered, same⟩ := except_bind_ok made
  cases same
  rw [allowedSteps, ← Dict.filed_under]
  generalize (edges.flatMap (stepsOf direction)).foldl Dict.file Dict.empty = filed at ordered ⊢
  have keys : entries.map Prod.fst = filed.entries.map Prod.fst := by
    clear made
    generalize filed.entries = pairs at ordered
    induction pairs generalizing entries with
    | nil =>
      cases ordered
      rfl
    | cons pair pairs inductionHypothesis =>
      rw [List.mapM_cons] at ordered
      obtain ⟨entry, first, rest⟩ := except_bind_ok ordered
      obtain ⟨steps, _, isEntry⟩ := except_bind_ok first
      obtain ⟨others, later, isAll⟩ := except_bind_ok rest
      cases isEntry
      cases isAll
      rw [List.map_cons, List.map_cons, inductionHypothesis others later]
  have distinct : (entries.map Prod.fst).Nodup := keys ▸ filed.distinct
  have under : ∀ steps, (Dict.ofEntries entries).get? node = some steps ↔ (node, steps) ∈ entries := by
    intro steps
    rw [Dict.ofEntries_eq ⟨entries, distinct⟩]
    exact Dict.get_eq_some ⟨entries, distinct⟩ node steps
  have filledIf : ∀ steps, (node, steps) ∈ entries → ∃ before, filed.get? node = some before ∧
      steps.Perm before := by
    intro steps member
    obtain ⟨⟨other, before⟩, isFiled, makes⟩ := (mem_of_mapM_ok ordered _).mp member
    obtain ⟨after, sorted, same⟩ := except_bind_ok makes
    cases same
    exact ⟨before, (filed.get_eq_some _ _).mpr isFiled, orderSteps_perm sorted⟩
  rw [stepsFrom]
  cases found : (Dict.ofEntries entries).get? node with
  | some steps =>
    obtain ⟨before, isFiled, same⟩ := filledIf steps ((under steps).mp found)
    rw [isFiled]
    exact same.mem_iff
  | none =>
    cases isFiled : filed.get? node with
    | none => exact Iff.rfl
    | some before =>
      obtain ⟨made, makes⟩ := ok_of_mapM_ok ordered _ ((filed.get_eq_some _ _).mp isFiled)
      obtain ⟨steps, _, same⟩ := except_bind_ok makes
      cases same
      have member := (mem_of_mapM_ok ordered _).mpr ⟨_, (filed.get_eq_some _ _).mp isFiled, makes⟩
      rw [(under steps).mpr member] at found
      cases found

/-! ## The loop with and without a limit -/

section Limits

variable {search : Search}

/-- One step from a node when there is no limit. -/
def met (search : Search) (current : Reached) (progress : Progress) (step : EdgeStep) : Progress :=
  if step.next ∈ progress.visited then progress
  else
    { rows := if search.allows step.next then
        progress.rows ++ [neighborResultRow search step (stepTo current step)] else progress.rows
      visited := step.next :: progress.visited
      queue := progress.queue ++ [stepTo current step] }

theorem meet_none (current : Reached) (progress : Progress) (step : EdgeStep) :
    meet search none current progress step = .ok (met search current progress step) := by
  rw [meet, met]
  split
  · rfl
  · split <;> rfl

theorem meets_none (current : Reached) (steps : List EdgeStep) (progress : Progress) :
    steps.foldlM (meet search none current) progress =
      .ok (steps.foldl (met search current) progress) := by
  induction steps generalizing progress with
  | nil => rfl
  | cons step steps inductionHypothesis =>
    rw [List.foldlM_cons, meet_none, ok_bind, List.foldl_cons]
    exact inductionHypothesis _

/-- A step keeps the rows and adds one at most. -/
theorem met_rows (current : Reached) (progress : Progress) (step : EdgeStep) :
    (met search current progress step).rows = progress.rows ∨
      ∃ row, (met search current progress step).rows = progress.rows ++ [row] := by
  rw [met]
  split
  · exact .inl rfl
  · dsimp only
    split
    · exact .inr ⟨_, rfl⟩
    · exact .inl rfl

theorem mets_rows (current : Reached) (steps : List EdgeStep) (progress : Progress) :
    progress.rows <+: (steps.foldl (met search current) progress).rows := by
  induction steps generalizing progress with
  | nil => exact List.prefix_refl _
  | cons step steps inductionHypothesis =>
    refine List.IsPrefix.trans ?_ (inductionHypothesis (met search current progress step))
    rcases met_rows current progress step with same | ⟨row, more⟩
    · exact ⟨[], by rw [List.append_nil, same]⟩
    · rw [more]
      exact List.prefix_append _ _

/-- Before there are enough rows a step is one without a limit, unless its row is the last. -/
theorem meet_some {limit : Nat} {current : Reached} {progress : Progress} (step : EdgeStep)
    (few : progress.rows.length < max limit 1) :
    (meet search (some limit) current progress step = .ok (met search current progress step) ∧
        (met search current progress step).rows.length < max limit 1) ∨
      (meet search (some limit) current progress step = .error (met search current progress step).rows ∧
        (met search current progress step).rows.length = max limit 1) := by
  rw [meet, met]
  split
  · exact .inl ⟨rfl, few⟩
  · split
    · have grown : ∀ row : NeighborRow, (progress.rows ++ [row]).length = progress.rows.length + 1 :=
        fun row => List.length_append
      simp only [Option.any_some, decide_eq_true_eq, grown]
      by_cases enough : limit ≤ progress.rows.length + 1
      · rw [if_pos enough]
        exact .inr ⟨rfl, by omega⟩
      · rw [if_neg enough]
        exact .inl ⟨rfl, by omega⟩
    · exact .inl ⟨rfl, few⟩

theorem meets_some (search : Search) {limit : Nat} (current : Reached) (steps : List EdgeStep)
    {progress : Progress}
    (few : progress.rows.length < max limit 1) :
    (steps.foldlM (meet search (some limit) current) progress =
          .ok (steps.foldl (met search current) progress) ∧
        (steps.foldl (met search current) progress).rows.length < max limit 1) ∨
      ∃ rows, steps.foldlM (meet search (some limit) current) progress = .error rows ∧
        rows <+: (steps.foldl (met search current) progress).rows ∧
          rows.length = max limit 1 := by
  induction steps generalizing progress with
  | nil => exact .inl ⟨rfl, few⟩
  | cons step steps inductionHypothesis =>
    rw [List.foldlM_cons, List.foldl_cons]
    rcases meet_some step few with ⟨goesOn, still⟩ | ⟨stops, full⟩
    · rw [goesOn, ok_bind]
      exact inductionHypothesis still
    · rw [stops]
      exact .inr ⟨_, rfl, mets_rows current steps _, full⟩

/-- The rows so far are the first of the answer. -/
theorem searchQueue_rows {fuel : Nat} {progress : Progress} {all : List NeighborRow}
    (ends : searchQueue search none fuel progress = some all) : progress.rows <+: all := by
  induction fuel generalizing progress with
  | zero => cases ends
  | succ fuel inductionHypothesis =>
    rw [searchQueue] at ends
    split at ends
    · cases ends
      exact List.prefix_refl _
    · split at ends
      · have later := inductionHypothesis ends
        exact later
      · rw [meets_none] at ends
        have later := inductionHypothesis ends
        have before := (mets_rows _ _ _).trans later
        exact before

/-- With a limit the search answers the first rows, at least one if there is one. -/
theorem searchQueue_limited {limit fuel : Nat} {progress : Progress} {all : List NeighborRow}
    (few : progress.rows.length < max limit 1)
    (ends : searchQueue search none fuel progress = some all) :
    searchQueue search (some limit) fuel progress = some (all.take (max limit 1)) := by
  induction fuel generalizing progress with
  | zero => cases ends
  | succ fuel inductionHypothesis =>
    rw [searchQueue] at ends ⊢
    split
    · next empty =>
      rw [empty] at ends
      cases ends
      rw [firstRows, firstRows, List.take_of_length_le (Nat.le_of_lt few)]
      by_cases none : limit = 0
      · have noRow : progress.rows = [] := List.length_eq_zero_iff.mp (by omega)
        rw [noRow, List.take_nil]
      · rw [List.take_of_length_le (by omega)]
    · next current queue filled =>
      rw [filled] at ends
      dsimp only at ends
      by_cases bottom : current.depth ≥ search.depth
      · rw [if_pos bottom] at ends ⊢
        exact inductionHypothesis few ends
      · rw [if_neg bottom] at ends ⊢
        rw [meets_none] at ends
        have fewRows : ({ progress with queue } : Progress).rows.length < max limit 1 := few
        rcases meets_some search current (stepsFrom search.adjacency current.node) fewRows with
          ⟨goesOn, still⟩ | ⟨rows, stops, first, full⟩
        · rw [goesOn]
          exact inductionHypothesis still ends
        · rw [stops]
          have isPrefix := first.trans (searchQueue_rows ends)
          rw [← full, ← List.prefix_iff_eq_take.mp isPrefix]

end Limits

/-! ## What is met -/

/-- A path to a node along steps that edges allow, from one of the nodes that the search starts
from. -/
structure Traced (edges : List StoredEdge) (direction : String) (seeds : List Int)
    (reached : Reached) : Prop where
  path : ∃ seed ∈ seeds, reached.path_nodes = seed :: reached.path_edges.map EdgeStep.next ∧
    reached.node = (reached.path_edges.map EdgeStep.next).getLastD seed ∧
      SimplePaths.Follows EdgeStep.next (allowedSteps edges direction) seed reached.path_edges
  length : reached.path_edges.length = reached.depth

/-- Steps that follow one another go on with a step from where they lead to. -/
theorem follows_concat {Node Step : Type} {next : Step → Node} {steps : Node → List Step}
    {start : Node} {rest : List Step} {step : Step}
    (follows : SimplePaths.Follows next steps start rest)
    (goesOn : step ∈ steps ((rest.map next).getLastD start)) :
    SimplePaths.Follows next steps start (rest ++ [step]) := by
  induction rest generalizing start with
  | nil => exact ⟨goesOn, trivial⟩
  | cons first rest inductionHypothesis =>
    refine ⟨follows.1, inductionHypothesis follows.2 ?_⟩
    rw [List.map_cons, List.getLastD_cons] at goesOn
    exact goesOn

section Met

variable {edges : List StoredEdge} {direction : String} {seeds : List Int} {search : Search}

theorem Traced.step {current : Reached} {step : EdgeStep}
    (traced : Traced edges direction seeds current)
    (allowed : step ∈ allowedSteps edges direction current.node) :
    Traced edges direction seeds (stepTo current step) := by
  obtain ⟨⟨seed, given, nodes, ends, follows⟩, length⟩ := traced
  refine ⟨⟨seed, given, ?_, ?_, ?_⟩, ?_⟩
  · rw [stepTo, nodes, List.map_append]
    rfl
  · rw [stepTo, List.map_append]
    exact List.getLastD_concat.symm
  · rw [ends] at allowed
    exact follows_concat follows allowed
  · rw [stepTo, List.length_append, length]
    rfl

/-- What the loop over the steps from a node adds: each node that was not met before, once. -/
structure Turned (search : Search) (current : Reached) (steps : List EdgeStep)
    (before after : Progress) (fresh : List EdgeStep) : Prop where
  rows : after.rows = before.rows ++ (fresh.filter fun step => search.allows step.next).map
    fun step => neighborResultRow search step (stepTo current step)
  queue : after.queue = before.queue ++ fresh.map (stepTo current)
  visited : ∀ node, node ∈ after.visited ↔ node ∈ before.visited ∨ node ∈ fresh.map EdgeStep.next
  distinct : (fresh.map EdgeStep.next).Nodup
  new : ∀ step ∈ fresh, step ∈ steps ∧ step.next ∉ before.visited
  all : ∀ step ∈ steps, step.next ∈ after.visited

theorem mets_turned (search : Search) (current : Reached) (steps : List EdgeStep) (before : Progress) :
    ∃ fresh, Turned search current steps before (steps.foldl (met search current) before) fresh := by
  induction steps generalizing before with
  | nil =>
    refine ⟨[], ?_, ?_, ?_, List.nodup_nil, nofun, nofun⟩ <;> simp
  | cons step steps inductionHypothesis =>
    obtain ⟨fresh, turned⟩ := inductionHypothesis (met search current before step)
    rw [List.foldl_cons]
    by_cases seen : step.next ∈ before.visited
    · have same : met search current before step = before := if_pos seen
      rw [same] at turned ⊢
      refine ⟨fresh, turned.rows, turned.queue, turned.visited, turned.distinct, ?_, ?_⟩
      · intro other member
        exact ⟨List.mem_cons_of_mem _ (turned.new other member).1, (turned.new other member).2⟩
      · intro other member
        rcases List.mem_cons.mp member with first | later
        · rw [first]
          exact (turned.visited _).mpr (.inl seen)
        · exact turned.all other later
    · have added : met search current before step =
          { rows := if search.allows step.next then
              before.rows ++ [neighborResultRow search step (stepTo current step)] else before.rows
            visited := step.next :: before.visited
            queue := before.queue ++ [stepTo current step] } := if_neg seen
      rw [added] at turned ⊢
      obtain ⟨rows, queue, visited, distinct, new, all⟩ := turned
      refine ⟨step :: fresh, ?_, ?_, ?_, ?_, ?_, ?_⟩
      · rw [rows, List.filter_cons]
        dsimp only
        split
        · rw [List.append_assoc, List.map_cons]
          rfl
        · rfl
      · rw [queue, List.append_assoc]
        rfl
      · intro node
        rw [visited, List.map_cons, List.mem_cons, List.mem_cons]
        tauto
      · rw [List.map_cons, List.nodup_cons]
        refine ⟨?_, distinct⟩
        intro again
        obtain ⟨other, member, same⟩ := List.mem_map.mp again
        exact (new other member).2 (same ▸ List.mem_cons_self)
      · intro other member
        rcases List.mem_cons.mp member with first | later
        · rw [first]
          exact ⟨List.mem_cons_self, seen⟩
        · exact ⟨List.mem_cons_of_mem _ (new other later).1,
            fun before => (new other later).2 (List.mem_cons_of_mem _ before)⟩
      · intro other member
        rcases List.mem_cons.mp member with first | later
        · rw [first]
          exact (visited _).mpr (.inl List.mem_cons_self)
        · exact all other later

/-- What a search has found: the nodes it began with, and those it has met since with their
depths. -/
def foundBy (seeds : List Int) (answers : List (EdgeStep × Reached)) : List (Int × Nat) :=
  seeds.dedup.map (fun seed => (seed, 0)) ++
    answers.map fun answer => (answer.2.node, answer.2.depth)

/-- Where a search is, with all that it has met. -/
structure Searching (edges : List StoredEdge) (direction : String) (seeds : List Int)
    (search : Search) (answers : List (EdgeStep × Reached)) (progress : Progress) : Prop where
  rows : progress.rows = (answers.filter fun answer => search.allows answer.2.node).map
    fun answer => neighborResultRow search answer.1 answer.2
  visited : ∀ node, node ∈ progress.visited ↔ node ∈ (foundBy seeds answers).map Prod.fst
  traced : ∀ reached ∈ progress.queue, Traced edges direction seeds reached
  paths : ∀ answer ∈ answers, Traced edges direction seeds answer.2 ∧
    answer.2.path_edges.getLast? = some answer.1
  spread : Spread (Adjacent edges direction) seeds search.depth (foundBy seeds answers)
    (progress.queue.map fun reached => (reached.node, reached.depth))

theorem Searching.begins : Searching edges direction seeds search [] (begin seeds) where
  rows := rfl
  visited := by
    intro node
    rw [foundBy, List.map_nil, List.append_nil, List.map_map]
    simp [begin]
  traced := by
    intro reached member
    obtain ⟨seed, given, rfl⟩ := List.mem_map.mp member
    exact ⟨⟨seed, given, rfl, rfl, trivial⟩, rfl⟩
  paths := nofun
  spread := by
    rw [foundBy, List.map_nil, List.append_nil, begin, List.map_map]
    refine Spread.begins (Adjacent edges direction) search.depth ?_ ?_
    · rw [List.map_map]
      exact (List.map_id seeds.dedup).symm ▸ List.nodup_dedup seeds
    · intro item
      rw [List.mem_map]
      simp only [List.mem_dedup]

variable {answers : List (EdgeStep × Reached)} {progress : Progress} {current : Reached}
  {queue : List Reached}

/-- Nothing follows a node of the last depth. -/
theorem Searching.last (searching : Searching edges direction seeds search answers progress)
    (taken : progress.queue = current :: queue) (bottom : search.depth ≤ current.depth) :
    Searching edges direction seeds search answers { progress with queue } where
  rows := searching.rows
  visited := searching.visited
  traced := fun reached member =>
    searching.traced reached (taken ▸ List.mem_cons_of_mem current member)
  paths := searching.paths
  spread := by
    have spread := searching.spread
    rw [taken, List.map_cons] at spread
    exact spread.last bottom

/-- What follows a node above the last depth is met. -/
theorem Searching.turn (searching : Searching edges direction seeds search answers progress)
    (reads : ∀ node step, step ∈ stepsFrom search.adjacency node ↔
      step ∈ allowedSteps edges direction node)
    (taken : progress.queue = current :: queue) (above : current.depth < search.depth) :
    ∃ fresh : List EdgeStep, (∀ step ∈ fresh, Adjacent edges direction current.node step.next) ∧
      ((stepsFrom search.adjacency current.node).foldl (met search current)
          { progress with queue }).queue = queue ++ fresh.map (stepTo current) ∧
        Searching edges direction seeds search
          (answers ++ fresh.map fun step => (step, stepTo current step))
          ((stepsFrom search.adjacency current.node).foldl (met search current)
            { progress with queue }) := by
  obtain ⟨fresh, turned⟩ := mets_turned search current
    (stepsFrom search.adjacency current.node) { progress with queue }
  have own : Traced edges direction seeds current :=
    searching.traced current (taken ▸ List.mem_cons_self)
  have allowed : ∀ step ∈ fresh, step ∈ allowedSteps edges direction current.node :=
    fun step member => (reads _ step).mp (turned.new step member).1
  have spread := searching.spread
  rw [taken, List.map_cons] at spread
  have found : foundBy seeds (answers ++ fresh.map fun step => (step, stepTo current step)) =
      foundBy seeds answers ++ (fresh.map EdgeStep.next).map fun next => (next, current.depth + 1) := by
    rw [foundBy, foundBy, List.map_append, List.append_assoc, List.map_map, List.map_map]
    rfl
  refine ⟨fresh, fun step member => ⟨step, allowed step member, rfl⟩, turned.queue,
    ?_, ?_, ?_, ?_, ?_⟩
  · rw [turned.rows, List.filter_append, List.map_append, List.filter_map, List.map_map]
    exact congrArg (· ++ _) searching.rows
  · intro node
    rw [turned.visited, found, List.map_append, List.mem_append, List.map_map, List.map_map]
    exact or_congr (searching.visited node) Iff.rfl
  · intro reached member
    rw [turned.queue] at member
    rcases List.mem_append.mp member with before | added
    · exact searching.traced reached (taken ▸ List.mem_cons_of_mem current before)
    · obtain ⟨step, isFresh, rfl⟩ := List.mem_map.mp added
      exact own.step (allowed step isFresh)
  · intro answer member
    rcases List.mem_append.mp member with before | added
    · exact searching.paths answer before
    · obtain ⟨step, isFresh, rfl⟩ := List.mem_map.mp added
      exact ⟨own.step (allowed step isFresh), List.getLast?_concat⟩
  · rw [turned.queue, found, List.map_append]
    have named : (fresh.map (stepTo current)).map (fun reached => (reached.node, reached.depth)) =
        (fresh.map EdgeStep.next).map fun next => (next, current.depth + 1) := by
      rw [List.map_map, List.map_map]
      rfl
    rw [named]
    refine spread.turn above turned.distinct ?_ ?_
    · intro next member
      obtain ⟨step, isFresh, rfl⟩ := List.mem_map.mp member
      exact ⟨⟨step, allowed step isFresh, rfl⟩, fun seen =>
        (turned.new step isFresh).2 ((searching.visited _).mpr seen)⟩
    · rintro next ⟨step, isStep, rfl⟩
      have visited := turned.all step ((reads _ step).mpr isStep)
      rcases (turned.visited _).mp visited with before | added
      · exact .inr ((searching.visited _).mp before)
      · exact .inl added

/-- All nodes that a search can come to. -/
def allNodes (edges : List StoredEdge) (seeds : List Int) : List Int :=
  seeds ++ edges.flatMap fun edge => [edge.src, edge.dst]

theorem adjacent_mem {node next : Int} (adjacent : Adjacent edges direction node next) :
    next ∈ allNodes edges seeds := by
  obtain ⟨step, allowed, rfl⟩ := adjacent
  obtain ⟨pair, member, rfl⟩ := List.mem_map.mp allowed
  obtain ⟨edge, stored, isStep⟩ := List.mem_flatMap.mp (List.mem_of_mem_filter member)
  refine List.mem_append_right _ (List.mem_flatMap.mpr ⟨edge, stored, ?_⟩)
  rcases List.mem_append.mp isStep with out | back
  · split at out
    · rw [List.mem_singleton.mp out]
      exact List.mem_cons_of_mem _ List.mem_cons_self
    · cases out
  · split at back
    · rw [List.mem_singleton.mp back]
      exact List.mem_cons_self
    · cases back

/-- With enough fuel the search comes to its end. -/
theorem searchQueue_ends (reads : ∀ node step, step ∈ stepsFrom search.adjacency node ↔
      step ∈ allowedSteps edges direction node)
    {fuel : Nat} (searching : Searching edges direction seeds search answers progress)
    (inside : ∀ item ∈ foundBy seeds answers, item.1 ∈ allNodes edges seeds)
    (enough : progress.queue.length + (allNodes edges seeds).length <
      fuel + (foundBy seeds answers).length) :
    ∃ all last, searchQueue search none fuel progress = some last.rows ∧ last.queue = [] ∧
      Searching edges direction seeds search all last := by
  induction fuel generalizing answers progress with
  | zero =>
    have bounded := searching.spread.bounded inside
    omega
  | succ fuel inductionHypothesis =>
    rw [searchQueue]
    split
    · next empty => exact ⟨answers, progress, rfl, empty, searching⟩
    · next current queue taken =>
      have shorter : progress.queue.length = queue.length + 1 := by
        rw [taken]
        rfl
      by_cases bottom : current.depth ≥ search.depth
      · rw [if_pos bottom]
        refine inductionHypothesis (searching.last taken bottom) inside ?_
        dsimp only
        omega
      · rw [if_neg bottom, meets_none]
        obtain ⟨fresh, adjacent, queued, turned⟩ :=
          searching.turn reads taken (Nat.lt_of_not_le bottom)
        refine inductionHypothesis turned ?_ ?_
        · intro item member
          rw [foundBy, List.map_append, ← List.append_assoc] at member
          rcases List.mem_append.mp member with before | added
          · exact inside item before
          · rw [List.map_map] at added
            obtain ⟨step, isFresh, rfl⟩ := List.mem_map.mp added
            exact adjacent_mem (adjacent step isFresh)
        · have grown : (foundBy seeds (answers ++ fresh.map fun step =>
              (step, stepTo current step))).length =
                (foundBy seeds answers).length + fresh.length := by
            simp [foundBy, Nat.add_assoc]
          rw [queued, grown, List.length_append, List.length_map]
          omega

/-- A search answers each node within its depth that it does not start from and whose type is asked
for, once, with its least distance and a path of this length. -/
structure Answers (edges : List StoredEdge) (direction : String) (seeds : List Int)
    (search : Search) (rows : List NeighborRow) : Prop where
  paths : ∀ row ∈ rows, ∃ step reached, row = neighborResultRow search step reached ∧
    Traced edges direction seeds reached ∧ reached.path_edges.getLast? = some step
  once : (rows.map NeighborRow.internal_id).Nodup
  exactly : ∀ node level, (∃ row ∈ rows, row.internal_id = node ∧ row.depth = level) ↔
    (node ∉ seeds ∧ search.allows node = true) ∧
      level ≤ search.depth ∧ Nearest (Adjacent edges direction) seeds node level

/-- There is a node to answer. -/
def SomeAnswer (edges : List StoredEdge) (direction : String) (seeds : List Int)
    (search : Search) : Prop :=
  ∃ node level, (node ∉ seeds ∧ search.allows node = true) ∧
    level ≤ search.depth ∧ Within (Adjacent edges direction) seeds level node

theorem Answers.nonempty {rows : List NeighborRow}
    (answered : Answers edges direction seeds search rows) :
    rows ≠ [] ↔ SomeAnswer edges direction seeds search := by
  constructor
  · intro filled
    obtain ⟨row, member⟩ := List.exists_mem_of_ne_nil rows filled
    obtain ⟨asked, shallow, nearest⟩ := (answered.exactly _ _).mp ⟨row, member, rfl, rfl⟩
    exact ⟨_, _, asked, shallow, nearest.1⟩
  · rintro ⟨node, length, asked, shallow, within⟩ rfl
    obtain ⟨level, short, nearest⟩ := exists_nearest within
    obtain ⟨row, member, _⟩ :=
      (answered.exactly node level).mpr ⟨asked, Nat.le_trans short shallow, nearest⟩
    cases member

/-- At its end a search has answered. -/
theorem Searching.ends (searching : Searching edges direction seeds search answers progress)
    (empty : progress.queue = []) : Answers edges direction seeds search progress.rows := by
  have spread := searching.spread
  rw [empty, List.map_nil] at spread
  have apart := spread.distinct
  rw [foundBy, List.map_append, List.nodup_append, List.map_map, List.map_map] at apart
  obtain ⟨_, distinct, apart⟩ := apart
  have unseeded : ∀ answer ∈ answers, answer.2.node ∉ seeds := by
    intro answer member given
    exact apart _ (List.mem_map_of_mem (List.mem_dedup.mpr given)) _
      (List.mem_map_of_mem member) rfl
  rw [searching.rows]
  refine ⟨?_, ?_, ?_⟩
  · intro row member
    obtain ⟨answer, kept, rfl⟩ := List.mem_map.mp member
    obtain ⟨traced, last⟩ := searching.paths answer (List.mem_of_mem_filter kept)
    exact ⟨answer.1, answer.2, rfl, traced, last⟩
  · rw [List.map_map]
    exact distinct.sublist (List.filter_sublist.map _)
  · intro node level
    rw [← spread.complete]
    constructor
    · rintro ⟨row, member, rfl, rfl⟩
      obtain ⟨answer, kept, rfl⟩ := List.mem_map.mp member
      obtain ⟨isAnswer, allowed⟩ := List.mem_filter.mp kept
      exact ⟨⟨unseeded answer isAnswer, allowed⟩,
        List.mem_append_right _ (List.mem_map_of_mem isAnswer)⟩
    · rintro ⟨⟨unseeded, allowed⟩, found⟩
      rcases List.mem_append.mp found with isSeed | isAnswer
      · obtain ⟨seed, given, same⟩ := List.mem_map.mp isSeed
        cases same
        exact absurd (List.mem_dedup.mp given) unseeded
      · obtain ⟨answer, member, same⟩ := List.mem_map.mp isAnswer
        cases same
        exact ⟨_, List.mem_map_of_mem (List.mem_filter.mpr ⟨member, allowed⟩), rfl, rfl⟩

end Met

/-! ## The answers -/

section Request

variable {runtime : Runtime} {db : Database} {pool : BufferPool} {request : Request}
  {seeds : List Int} {search : Search} {edges : List StoredEdge}

/-- A request that passes the checks asks for no less than no row, and passes them without a
limit. -/
theorem checkRequest_limit (checked : checkRequest request = .ok ()) :
    (∀ limit ∈ request.limit, 0 ≤ limit) ∧
      checkRequest { request with limit := none } = .ok () := by
  obtain ⟨_, deep, rest⟩ := except_bind_ok checked
  obtain ⟨_, directed, rest⟩ := except_bind_ok rest
  obtain ⟨_, counted, typed⟩ := except_bind_ok rest
  constructor
  · intro limit given
    by_contra negative
    exact refuse_ok counted ⟨limit, given, Int.not_le.mp negative⟩
  · have unlimited : ¬ ∃ limit ∈ (none : Option Int), limit < 0 := by simp
    rw [checkRequest, deep, ok_bind, directed, ok_bind, refuse, if_neg unlimited, ok_bind]
    exact typed

theorem search_of_prepare (prepared : prepare runtime db pool request = .ok (seeds, search)) :
    orderedAdjacency runtime db pool request.edge_types request.direction request.edge_filters
      request.weight_property = .ok search.adjacency := by
  obtain ⟨_, _, rest⟩ := except_bind_ok prepared
  obtain ⟨_, _, rest⟩ := except_bind_ok rest
  obtain ⟨_, _, rest⟩ := except_bind_ok rest
  obtain ⟨_, _, rest⟩ := except_bind_ok rest
  obtain ⟨adjacency, made, same⟩ := except_bind_ok rest
  cases same
  exact made

/-- With enough fuel a request that raises nothing is answered, and with a limit by the first rows,
at least one if there is one. -/
theorem neighbors_eq (checked : checkRequest request = .ok ())
    (prepared : prepare runtime db pool request = .ok (seeds, search))
    (read : matchingEdges runtime db pool request.edge_types request.edge_filters = .ok edges) :
    ∃ enough, ∀ fuel, enough ≤ fuel → ∃ all, Answers edges request.direction seeds search all ∧
      neighbors runtime fuel db pool { request with limit := none } = .ok (some all) ∧
        neighbors runtime fuel db pool request = .ok (some (match request.limit with
          | none => all
          | some limit => all.take (max limit.toNat 1))) := by
  have reads := mem_orderedAdjacency read (search_of_prepare prepared)
  refine ⟨(begin seeds).queue.length + (allNodes edges seeds).length + 1, fun fuel more => ?_⟩
  have begins : Searching edges request.direction seeds search [] (begin seeds) := Searching.begins
  have inside : ∀ item ∈ foundBy seeds [], item.1 ∈ allNodes edges seeds := by
    intro item member
    rw [foundBy, List.map_nil, List.append_nil] at member
    obtain ⟨seed, given, rfl⟩ := List.mem_map.mp member
    exact List.mem_append_left _ (List.mem_dedup.mp given)
  have room : (begin seeds).queue.length + (allNodes edges seeds).length <
      fuel + (foundBy seeds []).length := by omega
  obtain ⟨answers, last, ends, empty, searching⟩ := searchQueue_ends reads begins inside room
  refine ⟨last.rows, searching.ends empty, ?_, ?_⟩
  · have same : prepare runtime db pool { request with limit := none } = .ok (seeds, search) :=
      prepared
    rw [neighbors, (checkRequest_limit checked).2, ok_bind, same, ok_bind]
    exact congrArg Except.ok ends
  · rw [neighbors, checked, ok_bind, prepared, ok_bind]
    cases request.limit with
    | none => exact congrArg Except.ok ends
    | some limit =>
      have few : (begin seeds).rows.length < max limit.toNat 1 := by
        rw [begin, List.length_nil]
        omega
      exact congrArg Except.ok (searchQueue_limited few ends)

end Request

/-! ## The friend of a person -/

/-- Whom the first of two friends knows. -/
def friendRequest (limit : Option Int) : Request where
  seed_node_ids := [.value (.str "ada")]
  edge_types := ["knows"]
  limit := limit

def friendSearch : Search where
  lookup := Dict.ofEntries [(0, { node_id := .str "ada", node_type := some "Person" }),
    (1, { node_id := .str "bob", node_type := some "Person" })]
  allowed_types := []
  adjacency := adjacencyOf "out" [friendship]
  depth := 1
  return_paths := false

end CaracalDB.Neighbors
