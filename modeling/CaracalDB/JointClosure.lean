import CaracalDB.TransitiveInference
import Mathlib.Data.List.Perm.Subperm
import Mathlib.Logic.Function.Basic

/-!
# Joint closure

A plan applies its rules once each, in the order in which it lists them. The transitive closure of a
symmetric relation is symmetric, but the symmetric closure of a transitive relation need not be
transitive: an edge and its reverse already compose to a loop.
-/

namespace CaracalDB.Reasoner

open Mixed Relation Walks

/-! ## Plans -/

/-- The stores that a plan may name, and the log. -/
structure Stores where
  files : Nat → StoreFiles
  wal : Option (List InferRecord)

def Stores.session (stores : Stores) (handle : Nat) : Session :=
  { store := stores.files handle, wal := stores.wal }

def Stores.put (stores : Stores) (handle : Nat) (session : Session) : Stores :=
  { files := Function.update stores.files handle session.store, wal := session.wal }

/-- One target of a plan; the transitive rule has the default number of iterations. -/
def inferTarget (order : Listing (Nat × Nat)) (targets : Listing Nat) (triple_budget : Option Int)
    (rule : InferRule) (property_iri : String) (session : Session) :
    Except Raised ReasonerReport × Session :=
  match rule with
  | .symmetric => inferSymmetric order property_iri session
  | .transitive => inferTransitive order targets property_iri 16 triple_budget session

/-- `infer_closure(plan, wal=..., triple_budget=...)`, with the reports so far. -/
def inferClosure (order : Listing (Nat × Nat)) (targets : Listing Nat) (triple_budget : Option Int) :
    List (InferRule × String × Nat) → List ReasonerReport → Stores →
      Except Raised (List ReasonerReport) × Stores
  | [], reports, stores => (.ok reports, stores)
  | (rule, property_iri, handle) :: plan, reports, stores =>
      match inferTarget order targets triple_budget rule property_iri (stores.session handle) with
      | (.error raised, session) => (.error raised, stores.put handle session)
      | (.ok report, session) =>
          inferClosure order targets triple_budget plan (reports ++ [report]) (stores.put handle session)

/-! ## Rules -/

section Rules

variable {store : StoreFiles} {edges : List (Nat × Nat)} (order : Listing (Nat × Nat))
  (targets : Listing Nat) (property_iri : String) (wal : Option (List InferRecord))

/-- The relation of some edges and their reverses. -/
def Mirrored (edges : List (Nat × Nat)) (source target : Nat) : Prop :=
  Related edges source target ∨ Related edges target source

/-- The symmetric rule stores the edges and their reverses. -/
theorem inferSymmetric_ok (table : EdgeTable store pairSchema edges) :
    ∃ report after mirrored, inferSymmetric order property_iri { store, wal } = (.ok report, after) ∧
      EdgeTable after.store pairSchema mirrored ∧
      ∀ source target, Related mirrored source target ↔ Mirrored edges source target := by
  obtain ⟨added, loop, _, members⟩ := mirrorLoop_spec (order.list edges.eraseDups) edges.eraseDups [] 0
  have reversed (source target : Nat) : (source, target) ∈ added ↔
      (target, source) ∈ edges ∧ (source, target) ∉ edges := by
    rw [members, (order.perm _).mem_iff, List.mem_eraseDups, List.mem_eraseDups]
  have mirrored (source target : Nat) :
      Related (edges ++ added) source target ↔ Mirrored edges source target := by
    rw [Related, List.mem_append, reversed, Mirrored, Related, Related]
    constructor
    · exact fun held => held.imp_right And.left
    · rintro (old | reverse)
      · left
        exact old
      · by_cases old : (source, target) ∈ edges
        · left
          exact old
        · right
          exact ⟨reverse, old⟩
  rw [inferSymmetric]
  simp only [existingEdges_ok table, loop, List.nil_append]
  by_cases nothing : added = []
  · subst nothing
    rw [appendEdges, if_pos rfl]
    rw [List.append_nil] at mirrored
    exact ⟨_, _, edges, rfl, table, mirrored⟩
  · obtain ⟨appends, tableAfter⟩ := appendEdges_ok table nothing
    rw [appends]
    exact ⟨_, _, edges ++ added, rfl, tableAfter, mirrored⟩

/-- The transitive rule stores the transitive closure where no simple route is too long. -/
theorem inferTransitive_ok (table : EdgeTable store pairSchema edges)
    (within : RoutesWithin edges (2 ^ 16)) :
    ∃ report after closed, inferTransitive order targets property_iri 16 none { store, wal } =
        (.ok report, after) ∧
      EdgeTable after.store pairSchema closed ∧
      ∀ source target, Related closed source target ↔ TransGen (Related edges) source target := by
  have same (pair : Nat × Nat) : pair ∈ edges.eraseDups ↔ pair ∈ edges := List.mem_eraseDups
  obtain ⟨appended, passes, after, loop, final, inferred, _⟩ :=
    closureLoop_ok order targets property_iri 16 table same 0 0
  have closed := inferred.closed within
  have iterations : (16 : Int).toNat = 16 := rfl
  have allowed : ¬ (16 : Int) ≤ 0 := by decide
  rw [inferTransitive, if_neg allowed]
  simp only [existingEdges_ok table, iterations, loop]
  refine ⟨_, _, edges ++ appended, rfl, final, fun source target => ⟨fun related => ?_, fun path => ?_⟩⟩
  · rcases List.mem_append.mp related with old | new
    · exact .single old
    · exact inferred.sound _ new
  · induction path with
    | single first => exact List.mem_append_left _ first
    | tail _ last inductionHypothesis =>
      exact closed _ _ _ inductionHypothesis (List.mem_append_left _ last)

end Rules

/-! ## Orders -/

section Orders

variable {edges : List (Nat × Nat)}

theorem transGen_symmetric {relation : Nat → Nat → Prop}
    (symmetric : ∀ source target, relation source target → relation target source) {source target : Nat}
    (path : TransGen relation source target) : TransGen relation target source := by
  induction path with
  | single first => exact .single (symmetric _ _ first)
  | tail _ last inductionHypothesis => exact .head (symmetric _ _ last) inductionHypothesis

theorem mirrored_symmetric (source target : Nat) (mirrored : Mirrored edges source target) :
    Mirrored edges target source := mirrored.symm

/-- Routes over the edges are routes over the edges and their reverses. -/
theorem transGen_mirrored {source target : Nat} (path : TransGen (Related edges) source target) :
    TransGen (Mirrored edges) source target := by
  induction path with
  | single first => exact .single (.inl first)
  | tail _ last inductionHypothesis => exact .tail inductionHypothesis (.inl last)

/-- No simple route over the edges and their reverses is longer than some number of edges. -/
def JoinedWithin (edges : List (Nat × Nat)) (longest : Nat) : Prop :=
  ∀ source vertices target, SimpleRoute (Mirrored edges) source vertices target →
    vertices.length ≤ longest

theorem route_mono {Vertex : Type} {first second : Vertex → Vertex → Prop}
    (keeps : ∀ start stop, first start stop → second start stop) {start stop : Vertex}
    {vertices : List Vertex} (route : Route first start vertices stop) :
    Route second start vertices stop := by
  induction route with
  | here => exact .here _
  | past step _ inductionHypothesis => exact .past (keeps _ _ step) inductionHypothesis

theorem JoinedWithin.routes {longest : Nat} (within : JoinedWithin edges longest) :
    RoutesWithin edges longest := by
  rintro source vertices target ⟨route, distinct, returns⟩
  exact within source vertices target
    ⟨route_mono (fun _ _ old => .inl old) route, distinct, returns⟩

/-- One way or the other between two nodes. -/
def OneWay (edges : List (Nat × Nat)) (source target : Nat) : Prop :=
  TransGen (Related edges) source target ∨ TransGen (Related edges) target source

theorem OneWay.joined {source target : Nat} (path : OneWay edges source target) :
    TransGen (Mirrored edges) source target := by
  rcases path with forth | back
  · exact transGen_mirrored forth
  · exact transGen_symmetric mirrored_symmetric (transGen_mirrored back)

variable {stores : Stores} {handle : Nat} (order : Listing (Nat × Nat)) (targets : Listing Nat)

@[simp] theorem put_session (stores : Stores) (handle : Nat) (session : Session) :
    (stores.put handle session).session handle = session := by
  simp [Stores.session, Stores.put]

@[simp] theorem put_files (stores : Stores) (handle : Nat) (session : Session) :
    (stores.put handle session).files handle = session.store := by
  simp [Stores.put]

/-- Two targets of one store, neither of which raises something. -/
theorem two_targets {rule ruleToo : InferRule} {first second : String} {report reportToo : ReasonerReport}
    {middle after : Session}
    (run : inferTarget order targets none rule first (stores.session handle) = (.ok report, middle))
    (runToo : inferTarget order targets none ruleToo second middle = (.ok reportToo, after)) :
    inferClosure order targets none [(rule, first, handle), (ruleToo, second, handle)] [] stores =
      (.ok [report, reportToo], (stores.put handle middle).put handle after) := by
  rw [inferClosure, run]
  simp only [List.nil_append]
  rw [inferClosure, put_session, runToo]
  rfl

/-- With the symmetric rule first the stored relation is symmetric and transitively closed: it relates
what the edges join, whichever way they are taken. -/
theorem symmetric_first (table : EdgeTable (stores.files handle) pairSchema edges)
    (within : JoinedWithin edges (2 ^ 16)) (first second : String) :
    ∃ reports after closed, inferClosure order targets none
        [(.symmetric, first, handle), (.transitive, second, handle)] [] stores = (.ok reports, after) ∧
      EdgeTable (after.files handle) pairSchema closed ∧ Closed closed ∧
      (∀ source target, Related closed source target → Related closed target source) ∧
      ∀ source target, Related closed source target ↔ TransGen (Mirrored edges) source target := by
  obtain ⟨report, middle, mirrored, run, tableMiddle, members⟩ := inferSymmetric_ok
    order first stores.wal table
  have same : Related mirrored = Mirrored edges := by
    funext source target
    exact propext (members source target)
  have routes : RoutesWithin mirrored (2 ^ 16) := by
    rw [RoutesWithin, same]
    exact within
  obtain ⟨reportToo, after, closed, runToo, tableAfter, pairs⟩ := inferTransitive_ok
    order targets second middle.wal tableMiddle routes
  rw [same] at pairs
  have transitive : Closed closed := fun source middle target before behind =>
    (pairs _ _).mpr (((pairs _ _).mp before).trans ((pairs _ _).mp behind))
  have symmetric (source target : Nat) (related : Related closed source target) :
      Related closed target source :=
    (pairs _ _).mpr (transGen_symmetric mirrored_symmetric ((pairs _ _).mp related))
  refine ⟨_, _, closed, two_targets order targets run runToo, ?_, transitive, symmetric, pairs⟩
  rw [put_files]
  exact tableAfter

/-- With the transitive rule first the stored relation is symmetric: it relates what the edges join one
way or the other. It is transitively closed exactly if that is what they join whichever way they are
taken. -/
theorem transitive_first (table : EdgeTable (stores.files handle) pairSchema edges)
    (within : JoinedWithin edges (2 ^ 16)) (first second : String) :
    ∃ reports after mirrored, inferClosure order targets none
        [(.transitive, first, handle), (.symmetric, second, handle)] [] stores = (.ok reports, after) ∧
      EdgeTable (after.files handle) pairSchema mirrored ∧
      (∀ source target, Related mirrored source target → Related mirrored target source) ∧
      (∀ source target, Related mirrored source target ↔ OneWay edges source target) ∧
      (Closed mirrored ↔
        ∀ source target, TransGen (Mirrored edges) source target → OneWay edges source target) := by
  obtain ⟨report, middle, closed, run, tableMiddle, members⟩ := inferTransitive_ok
    order targets first stores.wal table within.routes
  obtain ⟨reportToo, after, mirrored, runToo, tableAfter, pairs⟩ := inferSymmetric_ok
    order second middle.wal tableMiddle
  have oneWay (source target : Nat) :
      Related mirrored source target ↔ OneWay edges source target := by
    rw [pairs, Mirrored, members, members, OneWay]
  refine ⟨_, _, mirrored, two_targets order targets run runToo, ?_, ?_, oneWay, ?_⟩
  · rw [put_files]
    exact tableAfter
  · intro source target related
    exact (oneWay _ _).mpr ((oneWay _ _).mp related).symm
  · constructor
    · intro transitive source target path
      induction path with
      | single step =>
        exact step.imp .single .single
      | tail _ step inductionHypothesis =>
        have last := (oneWay _ _).mpr (step.imp .single .single)
        exact (oneWay _ _).mp (transitive _ _ _ ((oneWay _ _).mpr inductionHypothesis) last)
    · intro joined source middle target before behind
      refine (oneWay _ _).mpr (joined _ _ ?_)
      exact ((oneWay _ _).mp before).joined.trans ((oneWay _ _).mp behind).joined

/-- A plan with both rules leaves a symmetric relation. With the symmetric rule first it is transitively
closed, and relates what the edges join whichever way they are taken. With the transitive rule first it
relates what they join one way or the other, and it is transitively closed, and the same relation,
exactly if these are the same. -/
theorem closure_orders (order : Listing (Nat × Nat)) (targets : Listing Nat) (stores : Stores)
    (handle : Nat) (table : EdgeTable (stores.files handle) pairSchema edges)
    (within : JoinedWithin edges (2 ^ 16)) (symmetric_iri transitive_iri : String) :
    (∃ reports after closed, inferClosure order targets none
        [(.symmetric, symmetric_iri, handle), (.transitive, transitive_iri, handle)] [] stores =
          (.ok reports, after) ∧
      EdgeTable (after.files handle) pairSchema closed ∧ Closed closed ∧
      (∀ source target, Related closed source target → Related closed target source) ∧
      ∀ source target, Related closed source target ↔ TransGen (Mirrored edges) source target) ∧
    ∃ reports after mirrored, inferClosure order targets none
        [(.transitive, transitive_iri, handle), (.symmetric, symmetric_iri, handle)] [] stores =
          (.ok reports, after) ∧
      EdgeTable (after.files handle) pairSchema mirrored ∧
      (∀ source target, Related mirrored source target → Related mirrored target source) ∧
      (∀ source target, Related mirrored source target ↔ OneWay edges source target) ∧
      (Closed mirrored ↔
        ∀ source target, TransGen (Mirrored edges) source target → OneWay edges source target) :=
  ⟨symmetric_first order targets table within symmetric_iri transitive_iri,
    transitive_first order targets table within transitive_iri symmetric_iri⟩

end Orders

/-- One store, with one edge. -/
def oneEdge : Stores :=
  { files := fun _ => StoreFiles.push { next_id := 0, chunks := [] } (pythonSchema .edges pairSchema)
      [[(0, 1)].map pairValues] 0
    wal := none }

theorem oneEdge_table : EdgeTable (oneEdge.files 0) pairSchema [(0, 1)] :=
  (appendEdges_ok (edgeTable_new pairSchema_facts) (List.cons_ne_nil _ _)).2

theorem oneEdge_within : JoinedWithin [(0, 1)] (2 ^ 16) := by
  rintro source vertices target ⟨route, distinct, returns⟩
  have among : ∀ vertex ∈ vertices, vertex ∈ [0, 1] := by
    clear distinct returns
    induction route with
    | here => nofun
    | past step _ inductionHypothesis =>
      refine List.forall_mem_cons.mpr ⟨?_, inductionHypothesis⟩
      simp only [Mirrored, Related, List.mem_singleton, Prod.mk.injEq] at step
      simp only [List.mem_cons, List.not_mem_nil, or_false]
      omega
  have short := (List.subperm_of_subset distinct among).length_le
  exact short.trans (by decide)

/-- With the symmetric rule first one edge becomes the full relation of its two nodes. -/
theorem oneEdge_orders : ∃ reports after closed, inferClosure .added .added none
    [(.symmetric, "knows", 0), (.transitive, "knows", 0)] [] oneEdge = (.ok reports, after) ∧
      EdgeTable (after.files 0) pairSchema closed ∧ Related closed 0 0 := by
  obtain ⟨reports, after, closed, run, table, _, _, pairs⟩ :=
    (closure_orders .added .added oneEdge 0 oneEdge_table oneEdge_within "knows" "knows").1
  refine ⟨reports, after, closed, run, table, (pairs 0 0).mpr ?_⟩
  exact .tail (.single (.inl List.mem_cons_self)) (.inr List.mem_cons_self)

/-- With the transitive rule first the loops at its nodes are missing. -/
theorem oneEdge_not_closed : ∃ reports after mirrored, inferClosure .added .added none
    [(.transitive, "knows", 0), (.symmetric, "knows", 0)] [] oneEdge = (.ok reports, after) ∧
      EdgeTable (after.files 0) pairSchema mirrored ∧ Related mirrored 0 1 ∧ Related mirrored 1 0 ∧
        ¬ Related mirrored 0 0 ∧ ¬ Closed mirrored := by
  obtain ⟨reports, after, mirrored, run, table, _, pairs, _⟩ := transitive_first .added
    .added oneEdge_table oneEdge_within "knows" "knows"
  have forth : Related mirrored 0 1 := (pairs 0 1).mpr (.inl (.single List.mem_cons_self))
  have back : Related mirrored 1 0 := (pairs 1 0).mpr (.inr (.single List.mem_cons_self))
  have increases (source target : Nat) (path : TransGen (Related [(0, 1)]) source target) :
      source < target := by
    have step (source target : Nat) (edge : Related [(0, 1)] source target) : source < target := by
      simp only [Related, List.mem_singleton, Prod.mk.injEq] at edge
      omega
    induction path with
    | single edge => exact step _ _ edge
    | tail _ edge inductionHypothesis => exact inductionHypothesis.trans (step _ _ edge)
  have missing : ¬ Related mirrored 0 0 := by
    rw [pairs]
    rintro (path | path)
    · exact lt_irrefl 0 (increases 0 0 path)
    · exact lt_irrefl 0 (increases 0 0 path)
  exact ⟨reports, after, mirrored, run, table, forth, back, missing,
    fun closed => missing (closed 0 1 0 forth back)⟩

end CaracalDB.Reasoner
