import CaracalDB.Ranked

/-!
# Compressed adjacencies

A compressed adjacency stores the targets of all edges, sorted by their sources, and
for each vertex the place where its targets begin. Read back at a vertex it gives the
targets of the edges from that vertex, each as often as there are such edges.
-/

namespace CaracalDB

/-- An edge as a builder takes it. -/
structure Arc where
  src : Nat
  dst : Nat
  eid : Nat
deriving DecidableEq

def Arc.swap (arc : Arc) : Arc := { arc with src := arc.dst, dst := arc.src }

structure CsrFile where
  offsets : List Nat
  neighbors : List Nat
  eids : Option (List Nat)
deriving DecidableEq

namespace CsrFile

def num_vertices (file : CsrFile) : Nat := file.offsets.length - 1

def num_edges (file : CsrFile) : Nat := file.neighbors.length

/-- `np.bincount(src, minlength=num_vertices)` of sources below the minimum length. -/
def counts (arcs : List Arc) (num_vertices : Nat) : List Nat :=
  (List.range num_vertices).map fun vertex => (arcs.filter fun arc => arc.src = vertex).length

/-- `build_csr_arrays(src, dst, eids, num_vertices)` of sources below `num_vertices`. -/
def build (with_eids : Bool) (arcs : List Arc) (num_vertices : Nat) : CsrFile :=
  let sorted := ranked Arc.src arcs
  { offsets := (counts arcs num_vertices).scanl (· + ·) 0
    neighbors := sorted.map Arc.dst
    eids := if with_eids then some (sorted.map Arc.eid) else none }

/-- `reader.neighbors_of(vid)` of a vertex of the file. -/
def neighbors_of (file : CsrFile) (vertex : Nat) : List Nat :=
  let start := file.offsets.getD vertex 0
  (file.neighbors.drop start).take (file.offsets.getD (vertex + 1) 0 - start)

@[simp]
theorem num_vertices_build (with_eids : Bool) (arcs : List Arc) (vertices : Nat) :
    (build with_eids arcs vertices).num_vertices = vertices := by
  simp [num_vertices, build, counts]

@[simp]
theorem num_edges_build (with_eids : Bool) (arcs : List Arc) (vertices : Nat) :
    (build with_eids arcs vertices).num_edges = arcs.length := by
  simp [num_edges, build, (ranked_perm Arc.src arcs).length_eq]

/-! ## Reading a file back -/

/-- The edges from the vertices up to one are those from the vertices before it and its own. -/
theorem length_filter_succ (arcs : List Arc) (vertex : Nat) :
    (arcs.filter fun arc => arc.src < vertex + 1).length =
      (arcs.filter fun arc => arc.src < vertex).length +
        (arcs.filter fun arc => arc.src = vertex).length := by
  induction arcs with
  | nil => rfl
  | cons arc arcs inductionHypothesis =>
    rcases Nat.lt_trichotomy arc.src vertex with below | same | above
    · have apart : arc.src ≠ vertex := by omega
      have within : arc.src < vertex + 1 := by omega
      simp only [List.filter_cons, within, below, apart, decide_true, decide_false, if_true,
        Bool.false_eq_true, if_false, List.length_cons, inductionHypothesis]
      omega
    · have outside : ¬ vertex < vertex := Nat.lt_irrefl vertex
      have within : vertex < vertex + 1 := Nat.lt_succ_self vertex
      simp only [List.filter_cons, same, within, outside, decide_true, decide_false, if_true,
        Bool.false_eq_true, if_false, List.length_cons, inductionHypothesis]
      omega
    · have apart : arc.src ≠ vertex := by omega
      have outside : ¬ arc.src < vertex := by omega
      have beyond : ¬ arc.src < vertex + 1 := by omega
      simp only [List.filter_cons, beyond, outside, apart, decide_false, Bool.false_eq_true, if_false,
        inductionHypothesis]

theorem sum_counts (arcs : List Arc) (bound : Nat) :
    (counts arcs bound).foldl (· + ·) 0 = (arcs.filter fun arc => arc.src < bound).length := by
  induction bound with
  | zero => simp [counts]
  | succ bound inductionHypothesis =>
    rw [counts] at inductionHypothesis
    rw [counts, List.range_succ, List.map_append, List.foldl_append, inductionHypothesis,
      length_filter_succ]
    rfl

/-- The offset of a vertex is the number of edges from the vertices before it. -/
theorem offset_build (with_eids : Bool) (arcs : List Arc) {vertices vertex : Nat}
    (inside : vertex ≤ vertices) :
    (build with_eids arcs vertices).offsets.getD vertex 0 =
      (arcs.filter fun arc => arc.src < vertex).length := by
  have counted : (counts arcs vertices).take vertex = counts arcs vertex := by
    rw [counts, ← List.map_take, List.take_range, Nat.min_eq_left inside, counts]
  have length : (counts arcs vertices).length = vertices := by simp [counts]
  rw [build, List.getD_eq_getElem?_getD, List.getElem?_scanl, length, if_pos inside, counted,
    sum_counts]
  rfl

/-- A list sorted by a key begins with the items whose key is less than a bound. -/
theorem sorted_split {Item : Type} (key : Item → Nat) {items : List Item}
    (sorted : items.Pairwise fun left right => key left ≤ key right) (bound : Nat) :
    items = (items.filter fun item => key item < bound) ++
      items.filter fun item => ¬ key item < bound := by
  induction items with
  | nil => rfl
  | cons item items inductionHypothesis =>
    obtain ⟨least, rest⟩ := List.pairwise_cons.mp sorted
    by_cases below : key item < bound
    · rw [List.filter_cons_of_pos (by simpa using below),
        List.filter_cons_of_neg (by simpa using below), List.cons_append,
        ← inductionHypothesis rest]
    · have none : items.filter (fun other => key other < bound) = [] := by
        rw [List.filter_eq_nil_iff]
        intro other member
        have := least other member
        simpa using by omega
      have all : items.filter (fun other => ¬ key other < bound) = items := by
        rw [List.filter_eq_self]
        intro other member
        have := least other member
        simpa using by omega
      rw [List.filter_cons_of_neg (by simpa using below), none,
        List.filter_cons_of_pos (by simpa using below), all, List.nil_append]

theorem take_sorted {Item : Type} (key : Item → Nat) {items : List Item}
    (sorted : items.Pairwise fun left right => key left ≤ key right) (bound : Nat) :
    items.take (items.filter fun item => key item < bound).length =
      items.filter fun item => key item < bound := by
  conv_lhs => arg 2; rw [sorted_split key sorted bound]
  exact List.take_left' rfl

theorem drop_sorted {Item : Type} (key : Item → Nat) {items : List Item}
    (sorted : items.Pairwise fun left right => key left ≤ key right) (bound : Nat) :
    items.drop (items.filter fun item => key item < bound).length =
      items.filter fun item => ¬ key item < bound := by
  conv_lhs => arg 2; rw [sorted_split key sorted bound]
  exact List.drop_left' rfl

/-- Between the offsets of a vertex the sorted edges are its own. -/
theorem slice_ranked (with_eids : Bool) (arcs : List Arc) {vertices vertex : Nat}
    (inside : vertex < vertices) :
    ((ranked Arc.src arcs).drop ((build with_eids arcs vertices).offsets.getD vertex 0)).take
        ((build with_eids arcs vertices).offsets.getD (vertex + 1) 0 -
          (build with_eids arcs vertices).offsets.getD vertex 0) =
      (ranked Arc.src arcs).filter fun arc => arc.src = vertex := by
  have sorted := ranked_sorted Arc.src arcs
  have arranged := ranked_perm Arc.src arcs
  have before : (arcs.filter fun arc => arc.src < vertex).length =
      ((ranked Arc.src arcs).filter fun arc => arc.src < vertex).length :=
    (arranged.filter _).length_eq.symm
  -- the sorted edges are those before the vertex, its own and those behind it
  have own : ((ranked Arc.src arcs).filter fun arc => ¬ arc.src < vertex).filter
      (fun arc => arc.src < vertex + 1) = (ranked Arc.src arcs).filter fun arc => arc.src = vertex := by
    rw [List.filter_filter]
    apply List.filter_congr
    intro arc _
    rw [Bool.eq_iff_iff]
    simp only [Bool.and_eq_true, decide_eq_true_eq]
    omega
  have many : (arcs.filter fun arc => arc.src = vertex).length = (((ranked Arc.src arcs).filter
      fun arc => ¬ arc.src < vertex).filter fun arc => arc.src < vertex + 1).length := by
    rw [own]
    exact (arranged.filter _).length_eq.symm
  rw [offset_build _ _ inside.le, offset_build _ _ inside, length_filter_succ,
    Nat.add_sub_cancel_left, before, drop_sorted Arc.src sorted, many,
    take_sorted Arc.src (sorted.filter _), own]

/-- A vertex has the targets of its edges. -/
theorem neighbors_of_build (with_eids : Bool) (arcs : List Arc) {vertices vertex : Nat}
    (inside : vertex < vertices) :
    ((build with_eids arcs vertices).neighbors_of vertex).Perm
      ((arcs.filter fun arc => arc.src = vertex).map Arc.dst) := by
  have targets : (build with_eids arcs vertices).neighbors_of vertex =
      ((ranked Arc.src arcs).filter fun arc => arc.src = vertex).map Arc.dst := by
    rw [← slice_ranked with_eids arcs inside, List.map_take, List.map_drop]
    rfl
  rw [targets]
  exact ((ranked_perm Arc.src arcs).filter _).map Arc.dst

end CsrFile

end CaracalDB
