import CaracalDB.Walks
import Mathlib.Data.List.Perm.Subperm
import Mathlib.Data.Nat.Find

/-!
# Spreading from several vertices

A search starts from several vertices at once, some of them given more than once. It takes vertices
from a queue, each with its level, and what follows one and was not found before is found and queued,
one level deeper, up to a last level. Each vertex is found once, at the length of the shortest walk
to it from any of those that the search started from.
-/

namespace CaracalDB.Spreading

open Walks

variable {Vertex : Type} {edge : Vertex → Vertex → Prop} {sources : List Vertex} {limit : Nat}

/-- A walk of some length leads to a vertex from one that the search starts from. -/
def Within (edge : Vertex → Vertex → Prop) (sources : List Vertex) (length : Nat)
    (vertex : Vertex) : Prop :=
  ∃ start ∈ sources, Walk edge length start vertex

/-- The length of a shortest such walk. -/
def Nearest (edge : Vertex → Vertex → Prop) (sources : List Vertex) (vertex : Vertex)
    (level : Nat) : Prop :=
  Within edge sources level vertex ∧ ∀ length, Within edge sources length vertex → level ≤ length

theorem nearest_unique {vertex : Vertex} {first second : Nat}
    (isFirst : Nearest edge sources vertex first) (isSecond : Nearest edge sources vertex second) :
    first = second :=
  Nat.le_antisymm (isFirst.2 second isSecond.1) (isSecond.2 first isFirst.1)

theorem nearest_source {start : Vertex} (member : start ∈ sources) :
    Nearest edge sources start 0 :=
  ⟨⟨start, member, .here start⟩, fun length _ => Nat.zero_le length⟩

/-- What a walk leads to has a shortest walk, no longer than it. -/
theorem exists_nearest {vertex : Vertex} {length : Nat} (within : Within edge sources length vertex) :
    ∃ level ≤ length, Nearest edge sources vertex level := by
  classical
  have some : ∃ length, Within edge sources length vertex := ⟨length, within⟩
  refine ⟨Nat.find some, Nat.find_min' some within, Nat.find_spec some, ?_⟩
  intro other isOther
  exact Nat.find_min' some isOther

/-- Where a search is: what it has found and what is in the queue, with their levels. -/
structure Spread (edge : Vertex → Vertex → Prop) (sources : List Vertex) (limit : Nat)
    (found queue : List (Vertex × Nat)) : Prop where
  distinct : (found.map Prod.fst).Nodup
  rising : (queue.map Prod.snd).Pairwise (· ≤ ·)
  near : ∀ item ∈ queue, ∀ other ∈ queue, other.2 ≤ item.2 + 1
  queued : ∀ item ∈ queue, item ∈ found
  nearest : ∀ item ∈ found, item.2 ≤ limit ∧ Nearest edge sources item.1 item.2
  closed : ∀ item ∈ found, item.2 < limit → item ∈ queue ∨
    ∀ next, edge item.1 next → ∃ level ≤ item.2 + 1, (next, level) ∈ found
  begun : ∀ start ∈ sources, (start, 0) ∈ found

variable {found queue : List (Vertex × Nat)} {vertex : Vertex} {level : Nat}

/-- A search begins with the vertices it is given in the queue, as often as they are given. -/
theorem Spread.begins (edge : Vertex → Vertex → Prop) (limit : Nat)
    (distinct : (found.map Prod.fst).Nodup)
    (given : ∀ item, item ∈ found ↔ ∃ start ∈ sources, (start, 0) = item) :
    Spread edge sources limit found (sources.map fun start => (start, 0)) where
  distinct := distinct
  rising := by
    rw [List.map_map, List.pairwise_map]
    exact List.pairwise_of_forall fun _ _ => Nat.le_refl _
  near := by
    intro item member other memberToo
    obtain ⟨_, _, rfl⟩ := List.mem_map.mp member
    obtain ⟨_, _, rfl⟩ := List.mem_map.mp memberToo
    exact Nat.zero_le _
  queued := by
    intro item member
    exact (given item).mpr (List.mem_map.mp member)
  nearest := by
    intro item member
    obtain ⟨start, isSource, rfl⟩ := (given item).mp member
    exact ⟨Nat.zero_le limit, nearest_source isSource⟩
  closed := by
    intro item member _
    exact .inl (List.mem_map.mpr ((given item).mp member))
  begun := by
    intro start isSource
    exact (given _).mpr ⟨start, isSource, rfl⟩

/-- The queue is no deeper than one level below what is taken next. -/
theorem Spread.levels (spread : Spread edge sources limit found ((vertex, level) :: queue)) :
    ∀ item ∈ queue, level ≤ item.2 ∧ item.2 ≤ level + 1 := by
  intro item member
  have rising := spread.rising
  rw [List.map_cons, List.pairwise_cons] at rising
  constructor
  · exact rising.1 _ (List.mem_map_of_mem member)
  · exact spread.near _ List.mem_cons_self item (List.mem_cons_of_mem _ member)

/-- Every vertex that a walk leads to was found, or a vertex of a lower level is in the queue. -/
theorem Spread.pending (spread : Spread edge sources limit found queue) {length : Nat}
    (shallow : length ≤ limit) (within : Within edge sources length vertex) :
    (∃ level ≤ length, (vertex, level) ∈ found) ∨ ∃ item ∈ queue, item.2 < length := by
  obtain ⟨start, given, walk⟩ := within
  induction length generalizing vertex with
  | zero =>
    left
    rw [← walk_zero.mp walk]
    exact ⟨0, Nat.le_refl 0, spread.begun start given⟩
  | succ length inductionHypothesis =>
    obtain ⟨middle, before, step⟩ := walk_succ.mp walk
    rcases inductionHypothesis (Nat.le_of_succ_le shallow) before with ⟨level, few, seen⟩ | waiting
    · have above : level < limit := by omega
      rcases spread.closed _ seen above with queued | all
      · exact .inr ⟨_, queued, Nat.lt_succ_of_le few⟩
      · obtain ⟨deeper, bound, isFound⟩ := all vertex step
        simp only at bound
        exact .inl ⟨deeper, by omega, isFound⟩
    · obtain ⟨item, queued, lower⟩ := waiting
      exact .inr ⟨item, queued, Nat.lt_succ_of_lt lower⟩

/-- When the queue is empty, the vertices that walks lead to were found, each at the length of its
shortest. -/
theorem Spread.complete (spread : Spread edge sources limit found []) :
    (vertex, level) ∈ found ↔ level ≤ limit ∧ Nearest edge sources vertex level := by
  constructor
  · exact spread.nearest (vertex, level)
  · rintro ⟨shallow, nearest⟩
    rcases spread.pending shallow nearest.1 with ⟨other, _, seen⟩ | ⟨item, queued, _⟩
    · rw [nearest_unique nearest (spread.nearest _ seen).2]
      exact seen
    · cases queued

/-- Nothing follows a vertex of the last level. -/
theorem Spread.last (spread : Spread edge sources limit found ((vertex, level) :: queue))
    (bottom : limit ≤ level) : Spread edge sources limit found queue where
  distinct := spread.distinct
  rising := (List.pairwise_cons.mp spread.rising).2
  near := fun item member other memberToo =>
    spread.near item (List.mem_cons_of_mem _ member) other (List.mem_cons_of_mem _ memberToo)
  queued := fun item member => spread.queued item (List.mem_cons_of_mem _ member)
  nearest := spread.nearest
  closed := by
    intro item member above
    rcases spread.closed item member above with queued | all
    · rcases List.mem_cons.mp queued with first | later
      · rw [first] at above
        exact absurd above (Nat.not_lt.mpr bottom)
      · exact .inl later
    · exact .inr all
  begun := spread.begun

/-- What follows a vertex above the last level is found and queued unless it was found. -/
theorem Spread.turn (spread : Spread edge sources limit found ((vertex, level) :: queue))
    (above : level < limit) {fresh : List Vertex} (distinct : fresh.Nodup)
    (new : ∀ next ∈ fresh, edge vertex next ∧ next ∉ found.map Prod.fst)
    (all : ∀ next, edge vertex next → next ∈ fresh ∨ next ∈ found.map Prod.fst) :
    Spread edge sources limit (found ++ fresh.map fun next => (next, level + 1))
      (queue ++ fresh.map fun next => (next, level + 1)) := by
  have around := spread.levels
  have here : (vertex, level) ∈ found := spread.queued _ List.mem_cons_self
  have reaches : ∀ next, edge vertex next → Within edge sources (level + 1) next := by
    intro next step
    obtain ⟨start, given, walk⟩ := (spread.nearest _ here).2.1
    exact ⟨start, given, .further walk step⟩
  refine ⟨?_, ?_, ?_, ?_, ?_, ?_, ?_⟩
  · have names : (fresh.map fun next => (next, level + 1)).map Prod.fst = fresh := by
      rw [List.map_map]
      exact List.map_id _
    rw [List.map_append, names]
    refine List.nodup_append.mpr ⟨spread.distinct, distinct, ?_⟩
    rintro next seen _ added rfl
    exact (new next added).2 seen
  · rw [List.map_append, List.pairwise_append]
    refine ⟨(List.pairwise_cons.mp spread.rising).2, ?_, ?_⟩
    · rw [List.map_map, List.pairwise_map]
      exact List.pairwise_of_forall fun _ _ => Nat.le_refl _
    · intro first before second behind
      obtain ⟨item, member, rfl⟩ := List.mem_map.mp before
      obtain ⟨made, added, rfl⟩ := List.mem_map.mp behind
      obtain ⟨next, _, rfl⟩ := List.mem_map.mp added
      exact (around item member).2
  · have within : ∀ item ∈ queue ++ fresh.map fun next => (next, level + 1),
        level ≤ item.2 ∧ item.2 ≤ level + 1 := by
      intro item member
      rcases List.mem_append.mp member with queued | added
      · exact around item queued
      · obtain ⟨next, _, rfl⟩ := List.mem_map.mp added
        exact ⟨Nat.le_succ level, Nat.le_refl _⟩
    intro item member other memberToo
    have low := (within item member).1
    have high := (within other memberToo).2
    omega
  · intro item member
    rcases List.mem_append.mp member with queued | added
    · exact List.mem_append_left _ (spread.queued item (List.mem_cons_of_mem _ queued))
    · exact List.mem_append_right _ added
  · intro item member
    rcases List.mem_append.mp member with seen | added
    · exact spread.nearest item seen
    · obtain ⟨next, among, rfl⟩ := List.mem_map.mp added
      refine ⟨above, reaches next (new next among).1, fun length within => ?_⟩
      -- a shorter walk would have found the vertex already
      by_contra shorter
      have few : length ≤ level := by
        simp only at shorter
        omega
      rcases spread.pending (Nat.le_trans few (Nat.le_of_lt above)) within with ⟨other, _, seen⟩ | waiting
      · exact (new next among).2 (List.mem_map_of_mem (f := Prod.fst) seen)
      · obtain ⟨item, queued, lower⟩ := waiting
        rcases List.mem_cons.mp queued with first | later
        · rw [first] at lower
          simp only at lower
          omega
        · have rising := (around item later).1
          omega
  · intro item member below
    rcases List.mem_append.mp member with seen | added
    · rcases spread.closed item seen below with queued | others
      · rcases List.mem_cons.mp queued with own | later
        · right
          rw [own]
          intro next step
          rcases all next step with isFresh | before
          · exact ⟨level + 1, Nat.le_refl _, List.mem_append_right _ (List.mem_map_of_mem isFresh)⟩
          · obtain ⟨⟨_, other⟩, found', rfl⟩ := List.mem_map.mp before
            refine ⟨other, ?_, List.mem_append_left _ found'⟩
            exact (spread.nearest _ found').2.2 _ (reaches _ step)
        · exact .inl (List.mem_append_left _ later)
      · right
        intro next step
        obtain ⟨other, bound, isFound⟩ := others next step
        exact ⟨other, bound, List.mem_append_left _ isFound⟩
    · exact .inl (List.mem_append_right _ added)
  · intro start given
    exact List.mem_append_left _ (spread.begun start given)

/-- A search of a finite graph finds no more than all vertices. -/
theorem Spread.bounded (spread : Spread edge sources limit found queue) {all : List Vertex}
    (within : ∀ item ∈ found, item.1 ∈ all) : found.length ≤ all.length := by
  have inside : found.map Prod.fst ⊆ all := by
    intro vertex member
    obtain ⟨item, seen, rfl⟩ := List.mem_map.mp member
    exact within item seen
  have few := (List.subperm_of_subset spread.distinct inside).length_le
  rwa [List.length_map] at few

end CaracalDB.Spreading
