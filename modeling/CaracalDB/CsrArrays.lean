import CaracalDB.Csr
import CaracalDB.Diagnostics
import CaracalDB.Loops

/-!
# Building adjacencies in both languages

The Rust builder sorts rows, counts them in place and adds the counts up; the Python
builder sorts positions and takes its arrays through them. Both sorts keep the order
of equal sources, so both give one array of offsets and list the edges of a vertex in
the order of the input. Swapping sources and targets lists every edge at its other
end.
-/

namespace CaracalDB

/-- Items with one key stand in the ranking in the order given. -/
theorem filter_ranked {Item : Type} (key : Item → Nat) (items : List Item) (value : Nat) :
    (ranked key items).filter (fun item => key item = value) =
      items.filter fun item => key item = value := by
  have : Std.Total fun left right : Item => key left ≤ key right :=
    ⟨fun left right => le_total (key left) (key right)⟩
  have : IsTrans Item fun left right => key left ≤ key right := ⟨fun _ _ _ => le_trans⟩
  have alike : (items.filter fun item => key item = value).Pairwise
      fun left right => key left ≤ key right := by
    refine List.pairwise_of_forall_mem_list fun left inLeft right inRight => ?_
    have leftValue := List.of_mem_filter inLeft
    have rightValue := List.of_mem_filter inRight
    simp only [decide_eq_true_eq] at leftValue rightValue
    rw [leftValue, rightValue]
  have inside : (items.filter fun item => key item = value).Sublist (ranked key items) :=
    List.sublist_insertionSort alike List.filter_sublist
  have kept := inside.filter fun item => key item = value
  rw [List.filter_filter] at kept
  simp only [Bool.and_self] at kept
  exact (kept.eq_of_length ((ranked_perm key items).symm.filter _).length_eq).symm

namespace Graph

/-- `CsrFile` of the Rust engine. -/
structure CsrFile where
  num_vertices : Nat
  num_edges : Nat
  flags : Nat
  offsets : List Nat
  neighbors : List Nat
  eids : Option (List Nat)
deriving DecidableEq

def CSR_FLAG_HAS_EIDS : Nat := 1

/-- One row of the Rust builder. -/
structure Row where
  source : Nat
  target : Nat
  eid : Option Nat
deriving DecidableEq

/-- The row at an index, if its ends are vertices. -/
def rowAt (src dst : List Nat) (num_vertices : Nat) (eids : Option (List Nat)) (index : Nat) :
    Except Raised Row := do
  let source := src.getD index 0
  let target := dst.getD index 0
  refuse (num_vertices ≤ source ∨ num_vertices ≤ target)
    (.caracal { code := "CDB-7080", message := "CSR edge endpoint is outside num_vertices" })
  return { source, target, eid := eids.map (·.getD index 0) }

/-- The loop that counts the rows of every source behind its place. -/
def countRows (offsets : List Nat) (rows : List Row) : List Nat :=
  rows.foldl (fun offsets row => offsets.modify (row.source + 1) (· + 1)) offsets

/-- The loop that adds to every offset the one before it. -/
def addUp (previous : Nat) : List Nat → List Nat
  | [] => []
  | offset :: offsets => (offset + previous) :: addUp (offset + previous) offsets

/-- `build_csr_arrays(src, dst, num_vertices, eids)` in Rust. -/
def buildCsrArrays (src dst : List Nat) (num_vertices : Nat) (eids : Option (List Nat)) :
    Except Raised CsrFile := do
  refuse (src.length ≠ dst.length) (.caracal
    { code := "CDB-7080", message := "CSR src and dst arrays must have the same length" })
  refuse (eids.any fun values => values.length ≠ src.length) (.caracal
    { code := "CDB-7080", message := "CSR eids must have the same length as neighbors" })
  let rows ← (List.range src.length).mapM (rowAt src dst num_vertices eids)
  let rows := ranked Row.source rows
  let counted := countRows (List.replicate (num_vertices + 1) 0) rows
  let neighbors := rows.map Row.target
  return { num_vertices
           num_edges := neighbors.length
           flags := if eids.isSome then CSR_FLAG_HAS_EIDS else 0
           offsets := counted.headD 0 :: addUp (counted.headD 0) counted.tail
           neighbors
           eids := eids.map fun _ => rows.map fun row => row.eid.getD 0 }

/-- `build_csc_arrays(src, dst, num_vertices, eids)` in Rust. -/
def buildCscArrays (src dst : List Nat) (num_vertices : Nat) (eids : Option (List Nat)) :
    Except Raised CsrFile := buildCsrArrays dst src num_vertices eids

/-- `np.bincount(values, minlength)` -/
def bincount (values : List Nat) (minlength : Nat) : List Nat :=
  (List.range (values.foldl (fun length value => max length (value + 1)) minlength)).map
    fun value => values.count value

/-- `np.cumsum(counts, out=offsets[1:])` behind the first offset, which stays zero. -/
def cumulated (counts : List Nat) : List Nat := counts.scanl (· + ·) 0

/-- `build_csr_arrays(src, dst, eids, num_vertices)` in Python. -/
def pythonBuildCsrArrays (src dst : List Nat) (eids : Option (List Nat)) (num_vertices : Int) :
    Except Raised (List Nat × List Nat × Option (List Nat)) := do
  refuse (src.length ≠ dst.length)
    (.caracal { code := "CDB-7082", message := "src/dst length mismatch" })
  refuse (eids.any fun values => values.length ≠ src.length)
    (.caracal { code := "CDB-7082", message := "eids length mismatch" })
  refuse (num_vertices < 0)
    (.caracal { code := "CDB-7082", message := "num_vertices must be >= 0" })
  refuse (src ≠ [] ∧ num_vertices ≤ src.foldl max 0) (.caracal
    { code := "CDB-7082"
      message := "src index " ++ toString (src.foldl max 0) ++ " exceeds num_vertices=" ++
        toString num_vertices ++ "; increase num_vertices or filter out-of-range edges" })
  let order := ranked (src.getD · 0) (List.range src.length)
  let src_s := order.map (src.getD · 0)
  let dst_s := order.map (dst.getD · 0)
  let eids_s := eids.map fun values => order.map (values.getD · 0)
  return (cumulated (bincount src_s num_vertices.toNat), dst_s, eids_s)

/-! ## Both builders -/

/-- The edge ids of an edge list, if they are given. -/
def eidsOf (with_eids : Bool) (arcs : List Arc) : Option (List Nat) :=
  if with_eids then some (arcs.map Arc.eid) else none

/-- The row of an edge. -/
def Row.of (with_eids : Bool) (arc : Arc) : Row :=
  { source := arc.src, target := arc.dst, eid := if with_eids then some arc.eid else none }

theorem eidsOf_length (with_eids : Bool) (arcs : List Arc) :
    ((eidsOf with_eids arcs).any fun values => decide (values.length ≠ arcs.length)) = false := by
  cases with_eids <;> simp [eidsOf]

/-- No edge, where an index is beyond the list. -/
def noArc : Arc := { src := 0, dst := 0, eid := 0 }

theorem map_getD {Entry : Type} (entries : List Entry) (default : Entry) :
    (List.range entries.length).map (entries.getD · default) = entries := by
  apply List.ext_getElem
  · simp
  · intro index _ within
    simp [within]

theorem getD_arc (field : Arc → Nat) (zero : field noArc = 0) (arcs : List Arc) (index : Nat) :
    (arcs.map field).getD index 0 = field (arcs.getD index noArc) := by
  rw [List.getD_eq_getElem?_getD, List.getElem?_map, List.getD_eq_getElem?_getD]
  cases arcs[index]? with
  | none => exact zero.symm
  | some arc => rfl

theorem rowAt_of {arcs : List Arc} {num_vertices : Nat} (with_eids : Bool)
    (inside : ∀ arc ∈ arcs, arc.src < num_vertices ∧ arc.dst < num_vertices) {index : Nat}
    (within : index < arcs.length) :
    rowAt (arcs.map Arc.src) (arcs.map Arc.dst) num_vertices (eidsOf with_eids arcs) index =
      .ok (Row.of with_eids (arcs.getD index noArc)) := by
  have member : arcs.getD index noArc ∈ arcs := by
    rw [List.getD_eq_getElem?_getD, List.getElem?_eq_getElem within]
    exact List.getElem_mem within
  obtain ⟨source, target⟩ := inside _ member
  have ends : ¬ (num_vertices ≤ (arcs.getD index noArc).src ∨
      num_vertices ≤ (arcs.getD index noArc).dst) := by omega
  rw [rowAt, getD_arc Arc.src rfl, getD_arc Arc.dst rfl, refuse, if_neg ends]
  cases with_eids
  · rfl
  · show Except.ok _ = Except.ok _
    rw [eidsOf, Row.of, if_pos rfl, if_pos rfl, Option.map_some, getD_arc Arc.eid rfl]

theorem rows_of {arcs : List Arc} {num_vertices : Nat} (with_eids : Bool)
    (inside : ∀ arc ∈ arcs, arc.src < num_vertices ∧ arc.dst < num_vertices) :
    (List.range arcs.length).mapM
        (rowAt (arcs.map Arc.src) (arcs.map Arc.dst) num_vertices (eidsOf with_eids arcs)) =
      .ok (arcs.map (Row.of with_eids)) := by
  rw [mapM_of_ok (fun index => Row.of with_eids (arcs.getD index noArc)) _ fun index member =>
    rowAt_of with_eids inside (List.mem_range.mp member)]
  conv_rhs => rw [← map_getD arcs noArc, List.map_map]
  rfl

/-- Ranking what edges are made into is making the ranked edges into it. -/
theorem ranked_map {Item Made : Type} (make : Item → Made) (key : Made → Nat) (items : List Item) :
    ranked key (items.map make) = (ranked (fun item => key (make item)) items).map make := by
  exact (List.map_insertionSort _ _ make items fun _ _ _ _ => Iff.rfl).symm

/-- The place behind a source has the number of its rows added. -/
theorem countRows_get (offsets : List Nat) (rows : List Row) (index : Nat) :
    (countRows offsets rows)[index]? =
      offsets[index]?.map (· + (rows.filter fun row => row.source + 1 = index).length) := by
  induction rows generalizing offsets with
  | nil => simp [countRows]
  | cons row rows inductionHypothesis =>
    show (countRows (offsets.modify (row.source + 1) (· + 1)) rows)[index]? = _
    rw [inductionHypothesis, List.getElem?_modify]
    by_cases here : row.source + 1 = index
    · rw [List.filter_cons_of_pos (by simpa using here), List.length_cons]
      cases offsets[index]? with
      | none => rfl
      | some count =>
        show some ((if _ then _ else _) + _) = some (count + (_ + 1))
        rw [if_pos here]
        congr 1
        omega
    · rw [List.filter_cons_of_neg (by simpa using here)]
      cases offsets[index]? with
      | none => rfl
      | some count =>
        show some ((if _ then _ else _) + _) = some _
        rw [if_neg here]

/-- Before the counts stands the first offset, zero. -/
theorem countRows_zeros (rows : List Row) (num_vertices : Nat) :
    countRows (List.replicate (num_vertices + 1) 0) rows =
      0 :: (List.range num_vertices).map fun vertex =>
        (rows.filter fun row => row.source = vertex).length := by
  apply List.ext_getElem?
  intro index
  rw [countRows_get, List.getElem?_replicate]
  cases index with
  | zero =>
    have none : rows.filter (fun row => row.source + 1 = 0) = [] :=
      List.filter_eq_nil_iff.mpr fun row _ => by simp
    rw [none]
    rfl
  | succ vertex =>
    rw [List.getElem?_cons_succ, List.getElem?_map]
    by_cases within : vertex < num_vertices
    · simp [within]
    · simp [within]

theorem addUp_eq (previous : Nat) (counts : List Nat) :
    previous :: addUp previous counts = counts.scanl (· + ·) previous := by
  induction counts generalizing previous with
  | nil => rfl
  | cons count counts inductionHypothesis =>
    rw [addUp, inductionHypothesis, List.scanl_cons, Nat.add_comm]

/-- The Rust builder gives the compressed adjacency of edges between vertices. -/
theorem buildCsrArrays_of {arcs : List Arc} {num_vertices : Nat} (with_eids : Bool)
    (inside : ∀ arc ∈ arcs, arc.src < num_vertices ∧ arc.dst < num_vertices) :
    buildCsrArrays (arcs.map Arc.src) (arcs.map Arc.dst) num_vertices (eidsOf with_eids arcs) =
      .ok { num_vertices
            num_edges := arcs.length
            flags := if with_eids then CSR_FLAG_HAS_EIDS else 0
            offsets := (CsrFile.build with_eids arcs num_vertices).offsets
            neighbors := (CsrFile.build with_eids arcs num_vertices).neighbors
            eids := (CsrFile.build with_eids arcs num_vertices).eids } := by
  have lengths : ¬ ((arcs.map Arc.src).length ≠ (arcs.map Arc.dst).length) := by simp
  have eidLengths : ¬ ((eidsOf with_eids arcs).any fun values =>
      decide (values.length ≠ (arcs.map Arc.src).length)) = true := by
    rw [List.length_map, eidsOf_length]
    exact Bool.false_ne_true
  have rows := rows_of with_eids inside
  have arranged : ranked Row.source (arcs.map (Row.of with_eids)) =
      (ranked Arc.src arcs).map (Row.of with_eids) := ranked_map (Row.of with_eids) Row.source arcs
  have counted : countRows (List.replicate (num_vertices + 1) 0)
      ((ranked Arc.src arcs).map (Row.of with_eids)) = 0 :: CsrFile.counts arcs num_vertices := by
    rw [countRows_zeros, CsrFile.counts]
    congr 2
    funext vertex
    rw [List.filter_map, List.length_map]
    exact ((ranked_perm Arc.src arcs).filter _).length_eq
  rw [buildCsrArrays, refuse, if_neg lengths, ok_bind, refuse, if_neg eidLengths, ok_bind,
    List.length_map, rows, ok_bind, arranged]
  simp only [counted]
  have size : (ranked Arc.src arcs).length = arcs.length := (ranked_perm Arc.src arcs).length_eq
  show Except.ok _ = Except.ok _
  congr 2
  · simp [size]
  · cases with_eids <;> rfl
  · exact addUp_eq 0 _
  · exact List.map_map
  · cases with_eids with
    | false => rfl
    | true =>
      show some (((ranked Arc.src arcs).map (Row.of true)).map _) = some _
      rw [List.map_map]
      rfl

/-- No count is beyond the vertices. -/
theorem bincount_length {values : List Nat} {minlength : Nat}
    (below : ∀ value ∈ values, value < minlength) :
    values.foldl (fun length value => max length (value + 1)) minlength = minlength := by
  induction values with
  | nil => rfl
  | cons value values inductionHypothesis =>
    obtain ⟨first, others⟩ := List.forall_mem_cons.mp below
    rw [List.foldl_cons, Nat.max_eq_left first]
    exact inductionHypothesis others

theorem foldl_max_lt {values : List Nat} {start bound : Nat} (small : start < bound)
    (below : ∀ value ∈ values, value < bound) : values.foldl max start < bound := by
  induction values generalizing start with
  | nil => exact small
  | cons value values inductionHypothesis =>
    obtain ⟨first, others⟩ := List.forall_mem_cons.mp below
    exact inductionHypothesis (Nat.max_lt.mpr ⟨small, first⟩) others

/-- The Python builder gives the same arrays. -/
theorem pythonBuildCsrArrays_of {arcs : List Arc} {num_vertices : Nat} (with_eids : Bool)
    (inside : ∀ arc ∈ arcs, arc.src < num_vertices ∧ arc.dst < num_vertices) :
    pythonBuildCsrArrays (arcs.map Arc.src) (arcs.map Arc.dst) (eidsOf with_eids arcs)
        num_vertices =
      .ok ((CsrFile.build with_eids arcs num_vertices).offsets,
        (CsrFile.build with_eids arcs num_vertices).neighbors,
        (CsrFile.build with_eids arcs num_vertices).eids) := by
  have lengths : ¬ ((arcs.map Arc.src).length ≠ (arcs.map Arc.dst).length) := by simp
  have eidLengths : ¬ ((eidsOf with_eids arcs).any fun values =>
      decide (values.length ≠ (arcs.map Arc.src).length)) = true := by
    rw [List.length_map, eidsOf_length]
    exact Bool.false_ne_true
  have natural : ¬ (num_vertices : Int) < 0 := by omega
  have sources : ∀ value ∈ arcs.map Arc.src, value < num_vertices := by
    intro value member
    obtain ⟨arc, held, rfl⟩ := List.mem_map.mp member
    exact (inside arc held).1
  have bounded : ¬ (arcs.map Arc.src ≠ [] ∧
      (num_vertices : Int) ≤ ((arcs.map Arc.src).foldl max 0 : Nat)) := by
    rintro ⟨some_arc, large⟩
    obtain ⟨value, member⟩ := List.exists_mem_of_ne_nil _ some_arc
    have positive : 0 < num_vertices := Nat.zero_lt_of_lt (sources value member)
    have small := foldl_max_lt positive sources
    omega
  -- The positions in the order of their sources lead through the edges in that order.
  have order : (ranked ((arcs.map Arc.src).getD · 0) (List.range arcs.length)).map
      (arcs.getD · noArc) = ranked Arc.src arcs := by
    have keys : ((arcs.map Arc.src).getD · 0) = fun index => Arc.src (arcs.getD index noArc) :=
      funext fun index => getD_arc Arc.src rfl arcs index
    rw [keys, ← ranked_map (arcs.getD · noArc) Arc.src, map_getD]
  have through (field : Arc → Nat) (zero : field noArc = 0) :
      (ranked ((arcs.map Arc.src).getD · 0) (List.range arcs.length)).map
        ((arcs.map field).getD · 0) = (ranked Arc.src arcs).map field := by
    rw [← order, List.map_map]
    exact List.map_congr_left fun index _ => getD_arc field zero arcs index
  have counted : bincount ((ranked Arc.src arcs).map Arc.src) num_vertices =
      CsrFile.counts arcs num_vertices := by
    have below : ∀ value ∈ (ranked Arc.src arcs).map Arc.src, value < num_vertices := by
      intro value member
      exact sources value (((ranked_perm Arc.src arcs).map Arc.src).mem_iff.mp member)
    rw [bincount, bincount_length below, CsrFile.counts]
    congr 1
    funext vertex
    rw [((ranked_perm Arc.src arcs).map Arc.src).count_eq, List.count, List.countP_map,
      List.countP_eq_length_filter]
    congr 2
  rw [pythonBuildCsrArrays, refuse, if_neg lengths, ok_bind, refuse, if_neg eidLengths, ok_bind,
    refuse, if_neg natural, ok_bind, refuse, if_neg bounded, ok_bind, List.length_map]
  simp only [through Arc.src rfl, through Arc.dst rfl, Int.toNat_natCast, counted]
  show Except.ok _ = Except.ok _
  congr 3
  cases with_eids with
  | false => rfl
  | true =>
    exact congrArg some (through Arc.eid rfl)

/-! ## What the arrays list -/

/-- The edges that arrays list under a vertex: targets, with their ids. -/
def listed (offsets neighbors : List Nat) (eids : Option (List Nat)) (vertex : Nat) :
    List (Nat × Option Nat) :=
  let start := offsets.getD vertex 0
  let size := offsets.getD (vertex + 1) 0 - start
  let targets := (neighbors.drop start).take size
  match eids with
  | none => targets.map fun target => (target, none)
  | some eids => targets.zip (((eids.drop start).take size).map some)

/-- What an edge is listed as. -/
def Arc.entry (with_eids : Bool) (arc : Arc) : Nat × Option Nat :=
  (arc.dst, if with_eids then some arc.eid else none)

/-- The slice of a vertex has its edges in the order of the input. -/
theorem slice_build (with_eids : Bool) (arcs : List Arc) {vertices vertex : Nat}
    (inside : vertex < vertices) :
    (((ranked Arc.src arcs).drop ((CsrFile.build with_eids arcs vertices).offsets.getD vertex 0)).take
      ((CsrFile.build with_eids arcs vertices).offsets.getD (vertex + 1) 0 -
        (CsrFile.build with_eids arcs vertices).offsets.getD vertex 0)) =
      arcs.filter fun arc => arc.src = vertex :=
  (CsrFile.slice_ranked with_eids arcs inside).trans (filter_ranked Arc.src arcs vertex)

theorem listed_build (with_eids : Bool) (arcs : List Arc) {vertices vertex : Nat}
    (inside : vertex < vertices) :
    listed (CsrFile.build with_eids arcs vertices).offsets
        (CsrFile.build with_eids arcs vertices).neighbors
        (CsrFile.build with_eids arcs vertices).eids vertex =
      (arcs.filter fun arc => arc.src = vertex).map (Arc.entry with_eids) := by
  have slice := slice_build with_eids arcs inside
  have targets : ((CsrFile.build with_eids arcs vertices).neighbors.drop
      ((CsrFile.build with_eids arcs vertices).offsets.getD vertex 0)).take
        ((CsrFile.build with_eids arcs vertices).offsets.getD (vertex + 1) 0 -
          (CsrFile.build with_eids arcs vertices).offsets.getD vertex 0) =
      (arcs.filter fun arc => arc.src = vertex).map Arc.dst := by
    rw [← slice, List.map_take, List.map_drop]
    rfl
  simp only [listed, targets]
  cases with_eids with
  | false =>
    show List.map _ (List.map _ _) = _
    rw [List.map_map]
    rfl
  | true =>
    have eids : (((ranked Arc.src arcs).map Arc.eid).drop
        ((CsrFile.build true arcs vertices).offsets.getD vertex 0)).take
          ((CsrFile.build true arcs vertices).offsets.getD (vertex + 1) 0 -
            (CsrFile.build true arcs vertices).offsets.getD vertex 0) =
        (arcs.filter fun arc => arc.src = vertex).map Arc.eid := by
      rw [← slice, List.map_take, List.map_drop]
    show List.zip _ (List.map some _) = _
    rw [eids, List.map_map, List.zip_map']
    rfl

/-- An edge is listed under its source as often as it is listed under its target when swapped. -/
theorem listed_swapped (with_eids : Bool) (arcs : List Arc) {vertices source target : Nat}
    (inside : source < vertices) (within : target < vertices) (eid : Option Nat) :
    (listed (CsrFile.build with_eids arcs vertices).offsets
        (CsrFile.build with_eids arcs vertices).neighbors
        (CsrFile.build with_eids arcs vertices).eids source).count (target, eid) =
      (listed (CsrFile.build with_eids (arcs.map Arc.swap) vertices).offsets
        (CsrFile.build with_eids (arcs.map Arc.swap) vertices).neighbors
        (CsrFile.build with_eids (arcs.map Arc.swap) vertices).eids target).count (source, eid) := by
  rw [listed_build with_eids arcs inside, listed_build with_eids _ within, List.filter_map,
    List.map_map, List.count, List.count, List.countP_map, List.countP_map, List.countP_filter,
    List.countP_filter]
  congr 1
  funext arc
  rw [Bool.eq_iff_iff]
  simp only [Arc.entry, Arc.swap, Function.comp, Bool.and_eq_true, beq_iff_eq, Prod.mk.injEq,
    decide_eq_true_eq]
  constructor
  · rintro ⟨⟨isTarget, named⟩, isSource⟩
    exact ⟨⟨isSource, named⟩, decide_eq_true isTarget⟩
  · rintro ⟨⟨isSource, named⟩, isTarget⟩
    exact ⟨⟨of_decide_eq_true isTarget, named⟩, isSource⟩

theorem scanl_ordered (start : Nat) (counts : List Nat) :
    (counts.scanl (· + ·) start).Pairwise (· ≤ ·) ∧
      ∀ offset ∈ counts.scanl (· + ·) start, start ≤ offset := by
  induction counts generalizing start with
  | nil => exact ⟨List.pairwise_singleton _ _, fun offset member => (List.mem_singleton.mp member).ge⟩
  | cons count counts inductionHypothesis =>
    obtain ⟨ordered, above⟩ := inductionHypothesis (start + count)
    have least : ∀ offset ∈ counts.scanl (· + ·) (start + count), start ≤ offset :=
      fun offset member => Nat.le_trans (Nat.le_add_right _ _) (above offset member)
    rw [List.scanl_cons]
    refine ⟨List.pairwise_cons.mpr ⟨least, ordered⟩, fun offset member => ?_⟩
    rcases List.mem_cons.mp member with rfl | later
    · exact Nat.le_refl _
    · exact least offset later

/-- The offsets rise from zero to the number of edges. -/
theorem offsets_build (with_eids : Bool) (arcs : List Arc) {num_vertices : Nat}
    (inside : ∀ arc ∈ arcs, arc.src < num_vertices) :
    (CsrFile.build with_eids arcs num_vertices).offsets.length = num_vertices + 1 ∧
      (CsrFile.build with_eids arcs num_vertices).offsets.head? = some 0 ∧
      (CsrFile.build with_eids arcs num_vertices).offsets.Pairwise (· ≤ ·) ∧
      (CsrFile.build with_eids arcs num_vertices).offsets.getLast? = some arcs.length := by
  have size : (CsrFile.build with_eids arcs num_vertices).offsets.length = num_vertices + 1 := by
    simp [CsrFile.build, CsrFile.counts]
  have all : arcs.filter (fun arc => arc.src < num_vertices) = arcs :=
    List.filter_eq_self.mpr fun arc member => decide_eq_true (inside arc member)
  refine ⟨size, ?_, (scanl_ordered 0 _).1, ?_⟩
  · cases counted : CsrFile.counts arcs num_vertices with
    | nil =>
      rw [CsrFile.build, counted]
      rfl
    | cons count counts =>
      rw [CsrFile.build, counted, List.scanl_cons]
      rfl
  · have last := CsrFile.offset_build with_eids arcs (Nat.le_refl num_vertices)
    rw [all, List.getD_eq_getElem?_getD] at last
    rw [List.getLast?_eq_getElem?, size, Nat.add_sub_cancel]
    have within : num_vertices < (CsrFile.build with_eids arcs num_vertices).offsets.length := by
      omega
    rw [List.getElem?_eq_getElem within] at last ⊢
    exact congrArg some last

/-- Both builders give one array of offsets from zero to the number of edges that never falls,
list the edges of a vertex in the order of the input, and list swapped edges at the other end. -/
theorem arrays_built (arcs : List Arc) (num_vertices : Nat) (with_eids : Bool)
    (inside : ∀ arc ∈ arcs, arc.src < num_vertices ∧ arc.dst < num_vertices) :
    ∃ offsets neighbors eids, ∃ swapped_offsets swapped_neighbors swapped_eids,
      (buildCsrArrays (arcs.map Arc.src) (arcs.map Arc.dst) num_vertices (eidsOf with_eids arcs) =
          .ok { num_vertices, num_edges := arcs.length,
                flags := if with_eids then CSR_FLAG_HAS_EIDS else 0, offsets, neighbors, eids } ∧
        pythonBuildCsrArrays (arcs.map Arc.src) (arcs.map Arc.dst) (eidsOf with_eids arcs)
          num_vertices = .ok (offsets, neighbors, eids)) ∧
      (buildCscArrays (arcs.map Arc.src) (arcs.map Arc.dst) num_vertices (eidsOf with_eids arcs) =
          .ok { num_vertices, num_edges := arcs.length,
                flags := if with_eids then CSR_FLAG_HAS_EIDS else 0,
                offsets := swapped_offsets, neighbors := swapped_neighbors, eids := swapped_eids } ∧
        pythonBuildCsrArrays (arcs.map Arc.dst) (arcs.map Arc.src) (eidsOf with_eids arcs)
          num_vertices = .ok (swapped_offsets, swapped_neighbors, swapped_eids)) ∧
      (offsets.length = num_vertices + 1 ∧ offsets.head? = some 0 ∧
        offsets.Pairwise (· ≤ ·) ∧ offsets.getLast? = some arcs.length) ∧
      (∀ vertex < num_vertices, listed offsets neighbors eids vertex =
        (arcs.filter fun arc => arc.src = vertex).map (Arc.entry with_eids)) ∧
      ∀ source < num_vertices, ∀ target < num_vertices, ∀ eid,
        (listed offsets neighbors eids source).count (target, eid) =
          (listed swapped_offsets swapped_neighbors swapped_eids target).count (source, eid) := by
  have swappedInside : ∀ arc ∈ arcs.map Arc.swap,
      arc.src < num_vertices ∧ arc.dst < num_vertices := by
    intro arc member
    obtain ⟨original, held, rfl⟩ := List.mem_map.mp member
    exact (inside original held).symm
  have swappedSources : (arcs.map Arc.swap).map Arc.src = arcs.map Arc.dst := List.map_map
  have swappedTargets : (arcs.map Arc.swap).map Arc.dst = arcs.map Arc.src := List.map_map
  have swappedEids : eidsOf with_eids (arcs.map Arc.swap) = eidsOf with_eids arcs := by
    cases with_eids with
    | false => rfl
    | true => exact congrArg some List.map_map
  have rust := buildCsrArrays_of with_eids swappedInside
  have python := pythonBuildCsrArrays_of with_eids swappedInside
  rw [swappedSources, swappedTargets, swappedEids] at rust python
  rw [List.length_map] at rust
  refine ⟨_, _, _, _, _, _, ⟨buildCsrArrays_of with_eids inside, pythonBuildCsrArrays_of with_eids inside⟩,
    ⟨rust, python⟩, offsets_build with_eids arcs fun arc member => (inside arc member).1, ?_, ?_⟩
  · exact fun vertex within => listed_build with_eids arcs within
  · exact fun source first target second eid => listed_swapped with_eids arcs first second eid

/-- Two edges between two vertices. -/
theorem two_edges_built : ∃ offsets neighbors eids,
    buildCsrArrays [1, 0] [0, 1] 2 none =
      .ok { num_vertices := 2, num_edges := 2, flags := 0, offsets, neighbors, eids } ∧
    listed offsets neighbors eids 1 = [(0, none)] := by
  obtain ⟨offsets, neighbors, eids, _, _, _, built, _, _, lists, _⟩ :=
    arrays_built [⟨1, 0, 0⟩, ⟨0, 1, 1⟩] 2 false (by decide)
  exact ⟨offsets, neighbors, eids, built.1, lists 1 (by decide)⟩

end Graph

end CaracalDB
