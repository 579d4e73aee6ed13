import CaracalDB.Walks
import Mathlib.Data.List.Perm.Subperm

/-!
# Breadth first

A search takes vertices from a queue, each with its level, and queues what follows a vertex and was
not seen before, one level deeper, up to a last level. The levels rise along the queue, so a vertex
is taken at the length of its shortest walk.
-/

namespace CaracalDB.BreadthFirst

open Walks

variable {Vertex : Type} {edge : Vertex → Vertex → Prop} {start : Vertex} {limit : Nat}

/-- Where a search is: the vertices that were taken and those in the queue, with their levels. Each is
seen once, at the length of a walk, and what follows a vertex that was taken was seen. -/
structure Progress (edge : Vertex → Vertex → Prop) (start : Vertex) (limit : Nat)
    (done queue : List (Vertex × Nat)) : Prop where
  distinct : ((done ++ queue).map Prod.fst).Nodup
  rising : ((done ++ queue).map Prod.snd).Pairwise (· ≤ ·)
  near : ∀ item ∈ queue, ∀ other ∈ queue, other.2 ≤ item.2 + 1
  walks : ∀ item ∈ done ++ queue, item.2 ≤ limit ∧ Walk edge item.2 start item.1
  closed : ∀ item ∈ done, item.2 < limit → ∀ next, edge item.1 next →
    ∃ level ≤ item.2 + 1, (next, level) ∈ done ++ queue
  begun : (start, 0) ∈ done ++ queue

variable {done queue : List (Vertex × Nat)} {vertex : Vertex} {level : Nat}

theorem Progress.begins (edge : Vertex → Vertex → Prop) (start : Vertex) (limit : Nat) :
    Progress edge start limit [] [(start, 0)] := by
  refine ⟨List.nodup_singleton _, List.pairwise_singleton _ _, ?_, ?_, nofun, List.mem_cons_self⟩
  · intro item member other memberToo
    rw [List.mem_singleton.mp member, List.mem_singleton.mp memberToo]
    exact Nat.le_succ 0
  · intro item member
    rw [List.mem_singleton.mp member]
    exact ⟨Nat.zero_le limit, .here start⟩

/-- A vertex has one level. -/
theorem Progress.one_level (progress : Progress edge start limit done queue) {other : Nat}
    (first : (vertex, level) ∈ done ++ queue) (second : (vertex, other) ∈ done ++ queue) :
    level = other :=
  congrArg Prod.snd (List.inj_on_of_nodup_map progress.distinct first second rfl)

/-- What was taken is no deeper than what is taken next, and the queue is no deeper than one level
more. -/
theorem Progress.levels (progress : Progress edge start limit done ((vertex, level) :: queue)) :
    (∀ item ∈ done, item.2 ≤ level) ∧ ∀ item ∈ queue, level ≤ item.2 ∧ item.2 ≤ level + 1 := by
  have rising := progress.rising
  rw [List.map_append, List.map_cons, List.pairwise_append, List.pairwise_cons] at rising
  obtain ⟨_, ⟨behind, _⟩, before⟩ := rising
  constructor
  · intro item member
    exact before _ (List.mem_map_of_mem member) _ List.mem_cons_self
  · intro item member
    exact ⟨behind _ (List.mem_map_of_mem member),
      progress.near _ List.mem_cons_self item (List.mem_cons_of_mem _ member)⟩

/-- Every vertex that a walk leads to was seen at no greater level, or a vertex of a lower level is
still in the queue. -/
theorem Progress.pending (progress : Progress edge start limit done queue) {length : Nat}
    (shallow : length ≤ limit) (walk : Walk edge length start vertex) :
    (∃ level ≤ length, (vertex, level) ∈ done ++ queue) ∨ ∃ item ∈ queue, item.2 < length := by
  induction length generalizing vertex with
  | zero =>
    left
    rw [← walk_zero.mp walk]
    exact ⟨0, Nat.le_refl 0, progress.begun⟩
  | succ length inductionHypothesis =>
    obtain ⟨middle, before, step⟩ := walk_succ.mp walk
    rcases inductionHypothesis (Nat.le_of_succ_le shallow) before with ⟨level, few, seen⟩ | waiting
    · rcases List.mem_append.mp seen with taken | queued
      · have above : level < limit := by omega
        obtain ⟨deeper, bound, found⟩ := progress.closed _ taken above vertex step
        simp only at bound
        exact .inl ⟨deeper, by omega, found⟩
      · exact .inr ⟨_, queued, Nat.lt_succ_of_le few⟩
    · obtain ⟨item, queued, lower⟩ := waiting
      exact .inr ⟨item, queued, Nat.lt_succ_of_lt lower⟩

/-- A vertex is taken at the length of its shortest walk. -/
theorem Progress.shortest (progress : Progress edge start limit done ((vertex, level) :: queue))
    {length : Nat} (walk : Walk edge length start vertex) : level ≤ length := by
  have here : (vertex, level) ∈ done ++ (vertex, level) :: queue :=
    List.mem_append_right _ List.mem_cons_self
  by_contra shorter
  have bound := (progress.walks _ here).1
  have shallow : length ≤ limit := by
    simp only at bound
    omega
  rcases progress.pending shallow walk with ⟨other, few, seen⟩ | ⟨item, queued, lower⟩
  · have same := progress.one_level here seen
    omega
  · rcases List.mem_cons.mp queued with first | later
    · rw [first] at lower
      simp only at lower
      omega
    · have rising := (progress.levels.2 item later).1
      omega

/-- When the queue is empty, every vertex that a walk leads to was taken. -/
theorem Progress.complete (progress : Progress edge start limit done []) {length : Nat}
    (shallow : length ≤ limit) (walk : Walk edge length start vertex) :
    ∃ level ≤ length, (vertex, level) ∈ done := by
  rcases progress.pending shallow walk with seen | ⟨item, queued, _⟩
  · simpa using seen
  · cases queued

/-- At the last level a vertex is only taken. -/
theorem Progress.last (progress : Progress edge start limit done ((vertex, limit) :: queue)) :
    Progress edge start limit (done ++ [(vertex, limit)]) queue := by
  have parts : done ++ [(vertex, limit)] ++ queue = done ++ (vertex, limit) :: queue := by simp
  refine ⟨by rw [parts]; exact progress.distinct, by rw [parts]; exact progress.rising, ?_, ?_, ?_, ?_⟩
  · intro item member other memberToo
    exact progress.near item (List.mem_cons_of_mem _ member) other (List.mem_cons_of_mem _ memberToo)
  · rw [parts]
    exact progress.walks
  · rw [parts]
    intro item member above next step
    rcases List.mem_append.mp member with taken | here
    · exact progress.closed item taken above next step
    · rw [List.mem_singleton.mp here] at above
      exact absurd above (Nat.lt_irrefl limit)
  · rw [parts]
    exact progress.begun

/-- Above it, what follows the vertex is queued unless it was seen. -/
theorem Progress.turn (progress : Progress edge start limit done ((vertex, level) :: queue))
    (above : level < limit) {fresh : List Vertex} (distinct : fresh.Nodup)
    (new : ∀ next ∈ fresh, edge vertex next ∧ next ∉ (done ++ (vertex, level) :: queue).map Prod.fst)
    (all : ∀ next, edge vertex next →
      next ∈ fresh ∨ next ∈ (done ++ (vertex, level) :: queue).map Prod.fst) :
    Progress edge start limit (done ++ [(vertex, level)])
      (queue ++ fresh.map fun next => (next, level + 1)) := by
  have parts : done ++ [(vertex, level)] ++ (queue ++ fresh.map fun next => (next, level + 1)) =
      (done ++ (vertex, level) :: queue) ++ fresh.map fun next => (next, level + 1) := by simp
  obtain ⟨lower, around⟩ := progress.levels
  have here : (vertex, level) ∈ done ++ (vertex, level) :: queue :=
    List.mem_append_right _ List.mem_cons_self
  have names : (fresh.map fun next => (next, level + 1)).map Prod.fst = fresh := by
    rw [List.map_map]
    exact List.map_id _
  refine ⟨?_, ?_, ?_, ?_, ?_, ?_⟩
  · rw [parts, List.map_append, names]
    refine List.nodup_append.mpr ⟨progress.distinct, distinct, ?_⟩
    rintro next seen _ added rfl
    exact (new next added).2 seen
  · rw [parts, List.map_append, List.pairwise_append]
    refine ⟨progress.rising, ?_, ?_⟩
    · rw [List.map_map, List.pairwise_map]
      exact List.pairwise_of_forall fun _ _ => Nat.le_refl _
    · intro first before second behind
      obtain ⟨item, member, rfl⟩ := List.mem_map.mp before
      obtain ⟨made, added, rfl⟩ := List.mem_map.mp behind
      obtain ⟨next, _, rfl⟩ := List.mem_map.mp added
      rcases List.mem_append.mp member with taken | queued
      · exact Nat.le_succ_of_le (lower item taken)
      · rcases List.mem_cons.mp queued with first | later
        · rw [first]
          exact Nat.le_succ level
        · exact (around item later).2
  · have within : ∀ item ∈ queue ++ fresh.map fun next => (next, level + 1),
        level ≤ item.2 ∧ item.2 ≤ level + 1 := by
      intro item member
      rcases List.mem_append.mp member with queued | added
      · exact around item queued
      · obtain ⟨next, _, rfl⟩ := List.mem_map.mp added
        exact ⟨Nat.le_succ level, Nat.le_refl _⟩
    intro item member other memberToo
    have low := (within item member).1
    have high := (within other memberToo).2
    omega
  · rw [parts]
    intro item member
    rcases List.mem_append.mp member with seen | added
    · exact progress.walks item seen
    · obtain ⟨next, among, rfl⟩ := List.mem_map.mp added
      exact ⟨above, .further (progress.walks _ here).2 (new next among).1⟩
  · rw [parts]
    intro item member below next step
    rcases List.mem_append.mp member with taken | own
    · obtain ⟨deeper, bound, found⟩ := progress.closed item taken below next step
      exact ⟨deeper, bound, List.mem_append_left _ found⟩
    · rw [List.mem_singleton.mp own] at step ⊢
      rcases all next step with added | seen
      · exact ⟨level + 1, Nat.le_refl _, List.mem_append_right _ (List.mem_map_of_mem added)⟩
      · obtain ⟨⟨_, deeper⟩, member, rfl⟩ := List.mem_map.mp seen
        refine ⟨deeper, ?_, List.mem_append_left _ member⟩
        rcases List.mem_append.mp member with taken | queued
        · exact Nat.le_succ_of_le (lower _ taken)
        · rcases List.mem_cons.mp queued with first | later
          · have same : deeper = level := congrArg Prod.snd first
            rw [same]
            exact Nat.le_succ level
          · exact (around _ later).2
  · rw [parts]
    exact List.mem_append_left _ progress.begun

/-- A search of a finite graph takes and queues no more than all vertices. -/
theorem Progress.bounded (progress : Progress edge start limit done queue) {all : List Vertex}
    (within : ∀ item ∈ done ++ queue, item.1 ∈ all) : done.length + queue.length ≤ all.length := by
  have inside : (done ++ queue).map Prod.fst ⊆ all := by
    intro vertex member
    obtain ⟨item, seen, rfl⟩ := List.mem_map.mp member
    exact within item seen
  have few := (List.subperm_of_subset progress.distinct inside).length_le
  rwa [List.length_map, List.length_append] at few

/-! ## Depths -/

/-- A vertex together with its depth is followed by what follows the vertex, one deeper. -/
def Deeper (edge : Vertex → Vertex → Prop) (before behind : Vertex × Nat) : Prop :=
  behind.2 = before.2 + 1 ∧ edge before.1 behind.1

/-- Depths count the edges of a walk. -/
theorem walk_deeper {length depth : Nat} {stop : Vertex} :
    Walk (Deeper edge) length (start, 0) (stop, depth) ↔
      depth = length ∧ Walk edge length start stop := by
  induction length generalizing stop depth with
  | zero =>
    rw [walk_zero, walk_zero, Prod.mk.injEq, and_comm, eq_comm (a := 0)]
  | succ length inductionHypothesis =>
    rw [walk_succ, walk_succ]
    constructor
    · rintro ⟨⟨middle, above⟩, before, deeper, step⟩
      obtain ⟨rfl, walk⟩ := inductionHypothesis.mp before
      exact ⟨deeper, middle, walk, step⟩
    · rintro ⟨rfl, middle, walk, step⟩
      exact ⟨(middle, length), inductionHypothesis.mpr ⟨rfl, walk⟩, rfl, step⟩

end CaracalDB.BreadthFirst
