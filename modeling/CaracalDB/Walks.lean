import Mathlib.Data.List.Nodup
import Mathlib.Data.Nat.Init
import Mathlib.Logic.Relation

/-!
# Walks

A walk follows the edges of a relation, and its length is the number of edges. Walks are
joined and cut at any place, and what the transitive closure relates is joined by a simple
route that is not empty.
-/

namespace CaracalDB.Walks

open Relation

variable {Vertex : Type} {edge : Vertex → Vertex → Prop}

/-- A walk of some length from one vertex to another. -/
inductive Walk (edge : Vertex → Vertex → Prop) : Nat → Vertex → Vertex → Prop
  | here (vertex : Vertex) : Walk edge 0 vertex vertex
  | further {length : Nat} {start middle stop : Vertex} :
      Walk edge length start middle → edge middle stop → Walk edge (length + 1) start stop

@[simp] theorem walk_zero {start stop : Vertex} : Walk edge 0 start stop ↔ start = stop := by
  constructor
  · intro walk
    cases walk
    rfl
  · rintro rfl
    exact .here start

theorem walk_succ {length : Nat} {start stop : Vertex} :
    Walk edge (length + 1) start stop ↔ ∃ middle, Walk edge length start middle ∧ edge middle stop := by
  constructor
  · intro walk
    cases walk with
    | further before last => exact ⟨_, before, last⟩
  · rintro ⟨_, before, last⟩
    exact .further before last

theorem walk_one {start stop : Vertex} : Walk edge 1 start stop ↔ edge start stop := by
  rw [walk_succ]
  simp

theorem Walk.join {first second : Nat} {start middle stop : Vertex}
    (before : Walk edge first start middle) (behind : Walk edge second middle stop) :
    Walk edge (first + second) start stop := by
  induction behind with
  | here => exact before
  | further _ last inductionHypothesis => exact .further (inductionHypothesis before) last

theorem Walk.split {first second : Nat} {start stop : Vertex}
    (walk : Walk edge (first + second) start stop) :
    ∃ middle, Walk edge first start middle ∧ Walk edge second middle stop := by
  induction second generalizing stop with
  | zero => exact ⟨stop, walk, .here stop⟩
  | succ second inductionHypothesis =>
    obtain ⟨last, before, step⟩ := walk_succ.mp walk
    obtain ⟨middle, front, back⟩ := inductionHypothesis before
    exact ⟨middle, front, .further back step⟩

/-- What every edge leads to holds wherever a walk leads from a vertex that has it. -/
theorem Walk.holds (property : Vertex → Prop) {length : Nat} {start stop : Vertex}
    (walk : Walk edge length start stop) (keeps : ∀ start stop, edge start stop → property stop)
    (holds : property start) : property stop := by
  cases walk with
  | here => exact holds
  | further _ last => exact keeps _ _ last

/-- Two steps at a time a walk is half as long. -/
theorem Walk.halved {coarse : Vertex → Vertex → Prop} (keeps : ∀ start stop, edge start stop → coarse start stop)
    (composes : ∀ start middle stop, edge start middle → edge middle stop → coarse start stop)
    {length : Nat} {start stop : Vertex} (walk : Walk edge length start stop) :
    Walk coarse ((length + 1) / 2) start stop := by
  induction length using Nat.twoStepInduction generalizing stop with
  | zero => exact walk_zero.mpr (walk_zero.mp walk)
  | one => exact walk_one.mpr (keeps _ _ (walk_one.mp walk))
  | more length inductionHypothesis _ =>
    obtain ⟨last, before, second⟩ := walk_succ.mp walk
    obtain ⟨middle, front, first⟩ := walk_succ.mp before
    have half : (length + 2 + 1) / 2 = (length + 1) / 2 + 1 := by omega
    rw [half]
    exact .further (inductionHypothesis front) (composes _ _ _ first second)

/-- A transitive relation has the ends of all walks that are not empty. -/
theorem Walk.closed (transitive : ∀ start middle stop, edge start middle → edge middle stop →
    edge start stop) {length : Nat} {start stop : Vertex}
    (walk : Walk edge (length + 1) start stop) : edge start stop := by
  induction length generalizing stop with
  | zero => exact walk_one.mp walk
  | succ length inductionHypothesis =>
    obtain ⟨middle, before, last⟩ := walk_succ.mp walk
    exact transitive _ _ _ (inductionHypothesis before) last

/-! ## Routes -/

/-- A walk with the vertices behind its start. -/
inductive Route (edge : Vertex → Vertex → Prop) : Vertex → List Vertex → Vertex → Prop
  | here (vertex : Vertex) : Route edge vertex [] vertex
  | past {start middle stop : Vertex} {vertices : List Vertex} :
      edge start middle → Route edge middle vertices stop →
        Route edge start (middle :: vertices) stop

/-- A route is simple if it comes to no vertex twice; it may end where it starts. -/
structure SimpleRoute (edge : Vertex → Vertex → Prop) (start : Vertex) (vertices : List Vertex)
    (stop : Vertex) : Prop where
  route : Route edge start vertices stop
  distinct : vertices.Nodup
  returns : start ∈ vertices → start = stop

theorem Route.walk {start stop : Vertex} {vertices : List Vertex}
    (route : Route edge start vertices stop) : Walk edge vertices.length start stop := by
  induction route with
  | here vertex => exact .here vertex
  | past step _ inductionHypothesis =>
    rw [List.length_cons, Nat.add_comm]
    exact (walk_one.mpr step).join inductionHypothesis

/-- What follows a vertex of a route is a route from that vertex. -/
theorem Route.behind {start middle stop : Vertex} {front back : List Vertex}
    (route : Route edge start (front ++ middle :: back) stop) : Route edge middle back stop := by
  induction front generalizing start with
  | nil =>
    cases route with
    | past _ rest => exact rest
  | cons vertex front inductionHypothesis =>
    cases route with
    | past _ rest => exact inductionHypothesis rest

/-- An edge and a simple route join what a simple route joins that is not empty. -/
theorem SimpleRoute.before {start middle stop : Vertex} {vertices : List Vertex}
    (step : edge start middle) (simple : SimpleRoute edge middle vertices stop) :
    ∃ others, others ≠ [] ∧ SimpleRoute edge start others stop := by
  by_cases again : middle = stop
  · subst again
    refine ⟨[middle], List.cons_ne_nil _ _, .past step (.here middle), List.nodup_singleton _, ?_⟩
    exact List.mem_singleton.mp
  · have away : middle ∉ vertices := fun member => again (simple.returns member)
    by_cases loop : start = middle
    · subst loop
      refine ⟨vertices, ?_, simple⟩
      rintro rfl
      cases simple.route
      exact again rfl
    · by_cases through : start ∈ vertices
      · obtain ⟨front, back, rfl⟩ := List.append_of_mem through
        have behind := simple.route.behind
        have distinct := List.nodup_cons.mp (List.nodup_append.mp simple.distinct).2.1
        by_cases ends : back = []
        · subst ends
          cases behind
          refine ⟨_, List.cons_ne_nil _ _, .past step simple.route, ?_, fun _ => rfl⟩
          exact List.nodup_cons.mpr ⟨away, simple.distinct⟩
        · exact ⟨back, ends, behind, distinct.2, fun later => absurd later distinct.1⟩
      · refine ⟨_, List.cons_ne_nil _ _, .past step simple.route,
          List.nodup_cons.mpr ⟨away, simple.distinct⟩, fun member => ?_⟩
        exact absurd ((List.mem_cons.mp member).resolve_left loop) through

/-- What the transitive closure relates is joined by a simple route that is not empty. -/
theorem simple_of_transGen {start stop : Vertex} (path : TransGen edge start stop) :
    ∃ vertices, vertices ≠ [] ∧ SimpleRoute edge start vertices stop := by
  induction path using TransGen.head_induction_on with
  | single step =>
    refine SimpleRoute.before step ⟨.here stop, List.nodup_nil, ?_⟩
    exact fun member => absurd member List.not_mem_nil
  | head step _ inductionHypothesis =>
    obtain ⟨vertices, _, simple⟩ := inductionHypothesis
    exact simple.before step

end CaracalDB.Walks
