import CaracalDB.Filing
import CaracalDB.VectorIndex
import Mathlib.Algebra.Order.Field.Rat

/-!
# Searches over a run of one handle

What a handle has read for the name of an index it never reads again. A search is
right as long as no write changes the rows of a class whose vectors were read under
the name of an index, and no index takes a name under which other vectors were read.
-/

namespace CaracalDB

/-- Items in the order of their keys are ranked already. -/
theorem ranked_of_sorted {Item Key : Type} [LinearOrder Key] {key : Item → Key} {items : List Item}
    (sorted : items.Pairwise fun left right => key left ≤ key right) : ranked key items = items :=
  List.Pairwise.insertionSort_eq sorted

namespace Vectors

open Database Where Paths

/-! ## What a search should answer -/

/-- Hits in their order, numbered from 1. -/
def numbered {Score : Type} (hits : List (Hit Score)) : List (Hit Score) :=
  hits.zipIdx.map fun (hit, offset) => { hit with rank := offset + 1 }

section Indexes

variable {Score : Type} (services : Services Score)

variable [LinearOrder Score] [One Score] [Sub Score] [Neg Score]

/-- The first of the stored rows that pass the filters, by their scores and ids. -/
def answerNow (db : Database) (index : IndexMeta) (request : Request) :
    Except Raised (List (Hit Score)) := do
  refuse (request.top_k < 0) (vectorError "CDB-6090" "top_k must be >= 0")
  refuse (request.oversample < 1) (vectorError "CDB-6090" "oversample must be >= 1")
  let query ← queryOf services index request
  let loaded ← readEntries services db index
  validateRequest loaded.columns request
  if request.top_k = 0 then return []
  else
    let hits ← (loaded.entries.filter fun entry =>
      rowMatchesFilters services.runtime entry.row request.filters).mapM
        (hitOf services index query request.return_properties)
    return numbered ((ranked hitKey hits).take request.top_k.toNat)

/-! ## Ranking -/

omit [One Score] [Sub Score] [Neg Score] in
theorem numbered_sorted {hits : List (Hit Score)}
    (sorted : hits.Pairwise fun left right => hitKey left ≤ hitKey right) :
    (numbered hits).Pairwise fun left right => hitKey left ≤ hitKey right := by
  rw [numbered, List.pairwise_map]
  have indexed : (hits.zipIdx.map Prod.fst).Pairwise fun left right =>
      hitKey left ≤ hitKey right := by
    rw [List.zipIdx_map_fst]
    exact sorted
  rwa [List.pairwise_map] at indexed

omit [LinearOrder Score] [One Score] [Sub Score] [Neg Score] in
theorem numbered_numbered (hits : List (Hit Score)) : numbered (numbered hits) = numbered hits := by
  apply List.ext_getElem?
  intro index
  simp only [numbered, List.getElem?_map, List.getElem?_zipIdx]
  cases hits[index]? <;> rfl

omit [LinearOrder Score] [One Score] [Sub Score] [Neg Score] in
theorem numbered_length (hits : List (Hit Score)) : (numbered hits).length = hits.length := by
  simp [numbered]

omit [One Score] [Sub Score] [Neg Score] in
/-- Ranking hits again that are ranked and cut changes nothing. -/
theorem rerank_take {hits : List (Hit Score)} {bound top_k : Nat} (fits : hits.length ≤ bound) :
    rerank ((numbered ((ranked hitKey hits).take (min bound top_k))).take top_k) =
      numbered ((ranked hitKey hits).take top_k) := by
  have length : (ranked hitKey hits).length ≤ bound := by
    rw [(ranked_perm hitKey hits).length_eq]
    exact fits
  have cut : (ranked hitKey hits).take (min bound top_k) = (ranked hitKey hits).take top_k := by
    rw [List.take_eq_take_iff]
    omega
  have short : (numbered ((ranked hitKey hits).take top_k)).length ≤ top_k := by
    rw [numbered_length, List.length_take]
    omega
  have sorted := numbered_sorted ((ranked_sorted hitKey hits).sublist (List.take_sublist top_k _))
  rw [cut, List.take_of_length_le short, rerank, ranked_of_sorted sorted, ← numbered,
    numbered_numbered]

/-- A search of an exact index or with filters ranks the entries that pass. -/
theorem searchEntries_exact {index : IndexMeta} {request : Request} {query : NpArray}
    {loaded : Loaded} (plain : request.filters.entries ≠ [] ∨ index.algorithm = "exact") :
    searchEntries services index request query loaded = do
      validateRequest loaded.columns request
      if request.top_k = 0 then return []
      else
        let hits ← (loaded.entries.filter fun entry =>
          rowMatchesFilters services.runtime entry.row request.filters).mapM
            (hitOf services index query request.return_properties)
        return numbered ((ranked hitKey hits).take request.top_k.toNat) := by
  rw [searchEntries]
  refine bind_congr fun _ => ?_
  by_cases zero : request.top_k = 0
  · rw [if_pos (Or.inl zero), if_pos zero]
  · rw [if_neg zero]
    by_cases none : loaded.entries = []
    · rw [if_pos (Or.inr none), none]
      show Except.ok [] = Except.ok (numbered (([] : List (Hit Score)).take request.top_k.toNat))
      rw [List.take_nil]
      rfl
    · rw [if_neg (not_or.mpr ⟨zero, none⟩)]
      simp only [if_pos plain, rankExact]
      cases made : (loaded.entries.filter fun entry =>
          rowMatchesFilters services.runtime entry.row request.filters).mapM
            (hitOf services index query request.return_properties) with
      | error raised => rfl
      | ok hits =>
        have fits : hits.length ≤ loaded.entries.length := by
          rw [length_of_mapM_ok made]
          exact List.length_filter_le _ _
        rw [ok_bind, ok_bind]
        show Except.ok (rerank _) = Except.ok _
        rw [← numbered, rerank_take fits]

/-! ## What the handle has read -/

/-- What the entries and the results of an index depend on. -/
def core (index : IndexMeta) : IndexMeta :=
  { index with status := .building, count := 0, index_file := none }

omit [LinearOrder Score] [One Score] [Sub Score] [Neg Score] in
theorem entriesOf_core (index : IndexMeta) (rows : List Row) :
    entriesOf services (core index) rows = entriesOf services index rows := by
  induction rows with
  | nil => rfl
  | cons row rows inductionHypothesis =>
    rw [entriesOf, entriesOf, inductionHypothesis]
    rfl

omit [LinearOrder Score] [One Score] [Sub Score] [Neg Score] in
theorem readEntries_core (db : Database) (index : IndexMeta) :
    readEntries services db (core index) = readEntries services db index := by
  simp only [readEntries, entriesOf_core]
  rfl

omit [LinearOrder Score] [One Score] [Sub Score] [Neg Score] in
theorem readEntries_congr (db : Database) {index other : IndexMeta} (same : core index = core other) :
    readEntries services db index = readEntries services db other := by
  rw [← readEntries_core services db index, same, readEntries_core]

/-- The answer depends on the core of the index only. -/
theorem answerNow_congr (db : Database) {index other : IndexMeta} (same : core index = core other)
    (request : Request) : answerNow services db index request = answerNow services db other request := by
  have made : ∀ given : IndexMeta, answerNow services db (core given) request =
      answerNow services db given request := by
    intro given
    simp only [answerNow, readEntries_core]
    rfl
  rw [← made index, same, made]

/-- The handle has read what the rows give now, for every index in the manifest. -/
structure Fresh (handle : Handle) : Prop where
  named : ∀ name index, handle.manifest.get? name = some index → index.name = name
  current : ∀ name index loaded, handle.manifest.get? name = some index →
    handle.vector_entries_cache.get? name = some loaded →
      readEntries services handle.db index = .ok loaded

section Fresh

omit [LinearOrder Score] [One Score] [Sub Score] [Neg Score]

variable {services} {handle : Handle}

/-- The entries of an index of the manifest are those that the rows give now. -/
theorem vectorEntries_run (fresh : Fresh services handle) {name : String} {known index : IndexMeta}
    (listed : handle.manifest.get? name = some known) (same : core index = core known) :
    ∃ after, Call.run (vectorEntries services index) handle =
        (readEntries services handle.db index, after) ∧
      after.db = handle.db ∧ after.manifest = handle.manifest ∧ Fresh services after := by
  have isName : index.name = name :=
    (congrArg IndexMeta.name same).trans (fresh.named name known listed)
  rw [vectorEntries, Call.run_attempt, isName]
  cases cached : handle.vector_entries_cache.get? name with
  | some loaded =>
    have read := fresh.current name known loaded listed cached
    rw [← readEntries_congr services handle.db same] at read
    exact ⟨handle, by rw [read], rfl, rfl, fresh⟩
  | none =>
    cases read : readEntries services handle.db index with
    | error raised => exact ⟨handle, rfl, rfl, rfl, fresh⟩
    | ok loaded =>
      refine ⟨_, rfl, rfl, rfl, fresh.named, ?_⟩
      intro other otherIndex otherLoaded otherListed stored
      rw [Dict.get_set] at stored
      split at stored
      · next here =>
        rw [here, listed] at otherListed
        rw [← Option.some.inj otherListed, ← Option.some.inj stored,
          ← readEntries_congr services handle.db same, read]
      · exact fresh.current other otherIndex otherLoaded otherListed stored

/-- A definition takes the place of one with the same core. -/
theorem Fresh.writeMeta (fresh : Fresh services handle) {name : String} {known index : IndexMeta}
    (listed : handle.manifest.get? name = some known) (same : core index = core known) :
    Fresh services (Call.run (writeMeta index) handle).2 := by
  have isName : index.name = name :=
    (congrArg IndexMeta.name same).trans (fresh.named name known listed)
  constructor
  · intro other otherIndex otherListed
    have stored : (handle.manifest.set index.name index).get? other = some otherIndex := otherListed
    rw [Dict.get_set] at stored
    split at stored
    · next here => rw [← Option.some.inj stored, here]
    · exact fresh.named other otherIndex stored
  · intro other otherIndex loaded otherListed cached
    have stored : (handle.manifest.set index.name index).get? other = some otherIndex := otherListed
    rw [Dict.get_set] at stored
    split at stored
    · next here =>
      rw [← Option.some.inj stored, readEntries_congr services _ same]
      exact fresh.current name known loaded listed (isName ▸ here ▸ cached)
    · exact fresh.current other otherIndex loaded stored cached

/-- Building an index of the manifest reads its entries if nothing is raised. -/
theorem buildVectorIndex_run (fresh : Fresh services handle) {name : String}
    {known index : IndexMeta} (listed : handle.manifest.get? name = some known)
    (same : core index = core known) :
    ∃ result after, Call.run (buildVectorIndex services index) handle = (result, after) ∧
      after.db = handle.db ∧ Fresh services after ∧
      match readEntries services handle.db index with
      | .error raised => result = .error raised
      | .ok _ => ∃ built, result = .ok built ∧ core built = core index ∧
          after.manifest.get? name = some built := by
  obtain ⟨after, reads, sameDb, sameManifest, later⟩ := vectorEntries_run fresh listed same
  have isName : index.name = name :=
    (congrArg IndexMeta.name same).trans (fresh.named name known listed)
  rw [buildVectorIndex, Call.run_bind, reads]
  cases read : readEntries services handle.db index with
  | error raised => exact ⟨_, after, rfl, sameDb, later, rfl⟩
  | ok loaded =>
    have stays : after.manifest.get? name = some known := sameManifest ▸ listed
    refine ⟨_, _, rfl, sameDb, later.writeMeta stays same, _, rfl, rfl, ?_⟩
    show (after.manifest.set index.name _).get? name = _
    rw [isName, Dict.get_set_self]

end Fresh

/-! ## One search -/

/-- What a search should answer: the present answer of the index in the manifest. -/
def rightAnswer (handle : Handle) (request : Request) : Except Raised (List (Hit Score)) := do
  let index ← findIndex request.index handle
  answerNow services handle.db index request

/-- The search of an index of the manifest whose entries are read now. -/
theorem search_ready {handle : Handle} (fresh : Fresh services handle) {name : String}
    {known index : IndexMeta} (listed : handle.manifest.get? name = some known)
    (same : core index = core known) (request : Request) :
    (Call.run (do
      let query ← Call.ofExcept (queryOf services index request)
      let loaded ← vectorEntries services index
      Call.ofExcept (searchEntries services index request query loaded)) handle).1 = (do
        let query ← queryOf services index request
        let loaded ← readEntries services handle.db index
        searchEntries services index request query loaded) := by
  rw [Call.run_bind, Call.run_ofExcept]
  cases queryOf services index request with
  | error raised => rfl
  | ok query =>
    obtain ⟨after, reads, _⟩ := vectorEntries_run fresh listed same
    dsimp only
    rw [Call.run_bind, reads]
    cases readEntries services handle.db index <;> rfl

theorem answerNow_plain {db : Database} {index : IndexMeta} {request : Request}
    (plain : request.filters.entries ≠ [] ∨ index.algorithm = "exact") :
    answerNow services db index request = (do
      refuse (request.top_k < 0) (vectorError "CDB-6090" "top_k must be >= 0")
      refuse (request.oversample < 1) (vectorError "CDB-6090" "oversample must be >= 1")
      let query ← queryOf services index request
      let loaded ← readEntries services db index
      searchEntries services index request query loaded) := by
  simp only [answerNow, searchEntries_exact services plain]

/-- A search of an exact index or with filters gives the right answer, or raises where the right
answer is to raise. -/
theorem search_right {handle : Handle} (fresh : Fresh services handle) (request : Request)
    (plain : request.filters.entries ≠ [] ∨ ∀ index,
      handle.manifest.get? request.index = some index → index.algorithm = "exact") :
    (Call.run (vectorSearch services request) handle).1.toOption =
      (rightAnswer services handle request).toOption := by
  rw [vectorSearch, Call.run_bind, Call.run_ofExcept, rightAnswer]
  cases listed : handle.manifest.get? request.index with
  | none =>
    have unknown : findIndex request.index handle = .error (vectorError "CDB-7092"
        ("vector index not found: " ++ Value.quoted request.index)) := by rw [findIndex, listed]
    cases refuse (request.top_k < 0) (vectorError "CDB-6090" "top_k must be >= 0") with
    | error raised => rw [unknown]; rfl
    | ok _ =>
      dsimp only
      rw [Call.run_bind, Call.run_ofExcept]
      cases refuse (request.oversample < 1) (vectorError "CDB-6090" "oversample must be >= 1") with
      | error raised => rw [unknown]; rfl
      | ok _ =>
        dsimp only
        rw [Call.run_bind, Call.run_ask, unknown]
        rfl
  | some found =>
    have isFound : findIndex request.index handle = .ok found := by rw [findIndex, listed]
    have isExact : request.filters.entries ≠ [] ∨ found.algorithm = "exact" :=
      plain.imp_right fun every => every found listed
    rw [isFound, ok_bind, answerNow_plain services isExact]
    cases bounded : refuse (request.top_k < 0)
      (vectorError "CDB-6090" "top_k must be >= 0") with
    | error raised => rfl
    | ok _ =>
      dsimp only
      rw [Call.run_bind, Call.run_ofExcept, ok_bind]
      cases sampled : refuse (request.oversample < 1)
        (vectorError "CDB-6090" "oversample must be >= 1") with
      | error raised => rfl
      | ok _ =>
        dsimp only
        rw [Call.run_bind, Call.run_ask, isFound, ok_bind]
        dsimp only
        by_cases old : found.status = .stale ∨ found.status = .building
        · rw [if_pos old, Call.run_bind]
          obtain ⟨result, after, builds, sameDb, later, outcome⟩ :=
            buildVectorIndex_run fresh listed rfl
          rw [builds]
          cases read : readEntries services handle.db found with
          | error raised =>
            rw [read] at outcome
            rw [outcome]
            cases queryOf services found request <;> rfl
          | ok loaded =>
            rw [read] at outcome
            obtain ⟨built, rfl, sameCore, stored⟩ := outcome
            -- the definition that was built answers as the one that was found
            have stillExact : request.filters.entries ≠ [] ∨ built.algorithm = "exact" :=
              isExact.imp_right fun algorithm => (congrArg IndexMeta.algorithm sameCore).trans algorithm
            have answers := answerNow_congr services handle.db sameCore request
            rw [answerNow_plain services stillExact, answerNow_plain services isExact, bounded,
              sampled, ok_bind, ok_bind, ok_bind, ok_bind] at answers
            dsimp only
            rw [search_ready services later stored rfl, sameDb, answers, read]
        · rw [if_neg old]
          exact congrArg Except.toOption (search_ready services fresh listed rfl request)

theorem search_fresh {handle : Handle} (fresh : Fresh services handle) (request : Request) :
    Fresh services (Call.run (vectorSearch services request) handle).2 := by
  rw [vectorSearch, Call.run_bind, Call.run_ofExcept]
  cases refuse (request.top_k < 0) (vectorError "CDB-6090" "top_k must be >= 0") with
  | error raised => exact fresh
  | ok _ =>
    dsimp only
    rw [Call.run_bind, Call.run_ofExcept]
    cases refuse (request.oversample < 1) (vectorError "CDB-6090" "oversample must be >= 1") with
    | error raised => exact fresh
    | ok _ =>
      dsimp only
      rw [Call.run_bind, Call.run_ask]
      cases listed : handle.manifest.get? request.index with
      | none =>
        rw [findIndex, listed]
        exact fresh
      | some found =>
        rw [findIndex, listed]
        dsimp only
        -- the last part keeps what it is given
        have rest : ∀ {middle : Handle} {known index : IndexMeta}, Fresh services middle →
            middle.manifest.get? request.index = some known → core index = core known →
              Fresh services (Call.run (do
                let query ← Call.ofExcept (queryOf services index request)
                let loaded ← vectorEntries services index
                Call.ofExcept (searchEntries services index request query loaded)) middle).2 := by
          intro middle known index holds stored same
          rw [Call.run_bind, Call.run_ofExcept]
          cases queryOf services index request with
          | error raised => exact holds
          | ok query =>
            obtain ⟨after, reads, _, _, later⟩ := vectorEntries_run holds stored same
            dsimp only
            rw [Call.run_bind, reads]
            cases readEntries services middle.db index <;> exact later
        by_cases old : found.status = .stale ∨ found.status = .building
        · rw [if_pos old, Call.run_bind]
          obtain ⟨result, after, builds, _, later, outcome⟩ :=
            buildVectorIndex_run fresh listed rfl
          rw [builds]
          cases read : readEntries services handle.db found with
          | error raised =>
            rw [read] at outcome
            rw [outcome]
            exact later
          | ok loaded =>
            rw [read] at outcome
            obtain ⟨built, rfl, _, stored⟩ := outcome
            exact rest later stored rfl
        · rw [if_neg old]
          exact rest fresh listed rfl

/-! ## Runs -/

/-- An operation of a handle: a write with the classes whose indexes it marks stale, or an
operation on indexes. -/
inductive Operation where
  | write (write : Write) (classes : List String)
  | create (definition : Definition)
  | drop (name : String)
  | rebuild (name : String)
  | search (request : Request)

/-- The handle after an operation, whether it answered or raised. -/
def step (handle : Handle) : Operation → Handle
  | .write write classes =>
      { handle with
        db := write.after services.runtime handle.db
        manifest := markStale classes handle.manifest }
  | .create definition => (Call.run (createVectorIndex services definition) handle).2
  | .drop name => (Call.run (dropVectorIndex name) handle).2
  | .rebuild name => (Call.run (rebuildVectorIndex services name) handle).2
  | .search request => (Call.run (vectorSearch services request) handle).2

/-- The handle after a run of operations. -/
def run (operations : List Operation) (handle : Handle) : Handle :=
  operations.foldl (step services) handle

/-- No write changes the rows of the class of an index whose vectors the handle has read, and no
index is created under a name for which the handle has read other vectors. -/
def Allows (handle : Handle) : Operation → Prop
  | .write write _ => ∀ name index, handle.manifest.get? name = some index →
      handle.vector_entries_cache.contains name = true →
        nodeTable (write.after services.runtime handle.db) index.node_type =
          nodeTable handle.db index.node_type
  | .create definition => ∀ index loaded,
      (checkDefinition services handle.db definition >>= withIdColumn handle.db) = .ok index →
        handle.manifest.get? index.name = none →
          handle.vector_entries_cache.get? index.name = some loaded →
            readEntries services handle.db index = .ok loaded
  | _ => True

def AllowsAll : List Operation → Handle → Prop
  | [], _ => True
  | operation :: operations, handle => Allows services handle operation ∧
      AllowsAll operations (step services handle operation)

omit [LinearOrder Score] [One Score] [Sub Score] [Neg Score] in
theorem fresh_write {handle : Handle} (fresh : Fresh services handle) {write : Write}
    (classes : List String)
    (spared : ∀ name index, handle.manifest.get? name = some index →
      handle.vector_entries_cache.contains name = true →
        nodeTable (write.after services.runtime handle.db) index.node_type =
          nodeTable handle.db index.node_type) :
    Fresh services { handle with
      db := write.after services.runtime handle.db
      manifest := markStale classes handle.manifest } := by
  have marked : ∀ name index, (markStale classes handle.manifest).get? name = some index →
      ∃ known, handle.manifest.get? name = some known ∧ core index = core known := by
    intro name index listed
    rw [markStale, Dict.get_mapValues] at listed
    obtain ⟨known, there, rfl⟩ := Option.map_eq_some_iff.mp listed
    refine ⟨known, there, ?_⟩
    split <;> rfl
  constructor
  · intro name index listed
    obtain ⟨known, there, same⟩ := marked name index listed
    exact (congrArg IndexMeta.name same).trans (fresh.named name known there)
  · intro name index loaded listed cached
    obtain ⟨known, there, same⟩ := marked name index listed
    have contained : handle.vector_entries_cache.contains name = true := by
      rw [Dict.contains]
      exact Option.isSome_iff_exists.mpr ⟨loaded, cached⟩
    rw [readEntries_congr services _ same, ← fresh.current name known loaded there cached,
      readEntries, readEntries]
    dsimp only
    rw [spared name known there contained]

omit [LinearOrder Score] [One Score] [Sub Score] [Neg Score] in
theorem fresh_create {handle : Handle} (fresh : Fresh services handle) {definition : Definition}
    (allowed : ∀ index loaded,
      (checkDefinition services handle.db definition >>= withIdColumn handle.db) = .ok index →
        handle.manifest.get? index.name = none →
          handle.vector_entries_cache.get? index.name = some loaded →
            readEntries services handle.db index = .ok loaded) :
    Fresh services (Call.run (createVectorIndex services definition) handle).2 := by
  rw [createVectorIndex, Call.run_bind, Call.run_ask]
  cases checked : checkDefinition services handle.db definition with
  | error raised => exact fresh
  | ok index =>
    dsimp only
    rw [Call.run_bind, Call.run_ask]
    dsimp only
    cases listed : handle.manifest.get? index.name with
    | some existing =>
      dsimp only
      split <;> exact fresh
    | none =>
      dsimp only
      rw [Call.run_bind, Call.run_ask]
      cases identified : withIdColumn handle.db index with
      | error raised => exact fresh
      | ok whole =>
        have isName : whole.name = index.name := by
          obtain ⟨_, _, same⟩ := except_bind_ok identified
          rw [← Except.ok.inj same]
        have current := allowed whole
        rw [checked, ok_bind, isName] at current
        dsimp only
        have written : Fresh services
            { handle with manifest := handle.manifest.set whole.name whole } := by
          constructor
          · intro name other stored
            rw [Dict.get_set] at stored
            split at stored
            · next here => rw [← Option.some.inj stored, here]
            · exact fresh.named name other stored
          · intro name other loaded stored cached
            rw [Dict.get_set] at stored
            split at stored
            · next here =>
              rw [← Option.some.inj stored]
              exact current loaded identified listed (isName ▸ here ▸ cached)
            · exact fresh.current name other loaded stored cached
        obtain ⟨_, after, builds, _, later, _⟩ :=
          buildVectorIndex_run written (Dict.get_set_self _ whole.name whole) rfl
        rw [Call.run_bind, writeMeta, Call.run_change]
        dsimp only
        rw [builds]
        exact later

theorem fresh_step {handle : Handle} (fresh : Fresh services handle) {operation : Operation}
    (allowed : Allows services handle operation) : Fresh services (step services handle operation) := by
  cases operation with
  | write write classes => exact fresh_write services fresh classes allowed
  | create definition => exact fresh_create services fresh allowed
  | drop name =>
    simp only [step, Call.run, dropVectorIndex]
    cases handle.manifest.get? name with
    | none => exact fresh
    | some index =>
      constructor
      · intro other known stored
        rw [Dict.get_erase] at stored
        split at stored
        · cases stored
        · exact fresh.named other known stored
      · intro other known loaded stored cached
        rw [Dict.get_erase] at stored
        split at stored
        · cases stored
        · exact fresh.current other known loaded stored cached
  | rebuild name =>
    rw [step, rebuildVectorIndex, Call.run_bind, Call.run_ask, findIndex]
    cases listed : handle.manifest.get? name with
    | none => exact fresh
    | some index =>
      dsimp only
      have isName := fresh.named name index listed
      have written := fresh.writeMeta listed
        (show core { index with status := .building } = core index from rfl)
      obtain ⟨_, after, builds, _, later, _⟩ := buildVectorIndex_run written
        (Dict.get_set_self handle.manifest index.name { index with status := .building }) rfl
      rw [Call.run_bind, writeMeta, Call.run_change]
      dsimp only
      rw [writeMeta, Call.run_change] at builds
      rw [builds]
      exact later
  | search request => exact search_fresh services fresh request

theorem fresh_run (operations : List Operation) {handle : Handle} (fresh : Fresh services handle)
    (allowed : AllowsAll services operations handle) :
    Fresh services (run services operations handle) := by
  induction operations generalizing handle with
  | nil => exact fresh
  | cons operation operations inductionHypothesis =>
    exact inductionHypothesis (fresh_step services fresh allowed.1) allowed.2

/-- On a handle that has read no vectors yet every search of a run gives the right answer. -/
theorem searches_right (operations : List Operation) {handle : Handle}
    (named : ∀ name index, handle.manifest.get? name = some index → index.name = name)
    (unread : handle.vector_entries_cache = Dict.empty)
    (allowed : AllowsAll services operations handle) (request : Request)
    (plain : request.filters.entries ≠ [] ∨ ∀ index,
      (run services operations handle).manifest.get? request.index = some index →
        index.algorithm = "exact") :
    (Call.run (vectorSearch services request) (run services operations handle)).1.toOption =
      (rightAnswer services (run services operations handle) request).toOption := by
  have fresh : Fresh services handle := ⟨named, fun name index loaded _ cached => by
    rw [unread] at cached
    cases cached⟩
  exact search_right services (fresh_run services operations fresh allowed) request plain

end Indexes

/-! ## Two documents -/

/-- Arrow with columns of lists, numpy on lists of integers, and their products. -/
def integerServices : Services ℤ where
  runtime := { Runtime.plain with
    array := fun values =>
      if values.any fun value => match value with
        | .list _ => true
        | _ => false
      then .ok (.other "list<item: int64>", values) else Runtime.plain.array values }
  asarray
    | .list items => .ok
        { shape := [items.length]
          data := items.map fun item => match item with
            | .int number => number
            | _ => 0 }
    | _ => .ok { shape := [], data := [] }
  lower := id
  cosine_distance _ _ := 0
  l2_distance _ _ := 0
  dot_product left right := (List.zipWith (· * ·) left.data right.data).sum.num
  hnsw _ _ _ _ := .ok []

/-- A document with a vector of two integers. -/
def storeDocument (key : String) (first second : Int) : Operation :=
  .write (.insert_node_table [Dict.ofEntries [("node_id", .str key), ("type", .str "Document"),
    ("vector", .list [.int first, .int second])]] "node_id" "type") ["Document"]

def storeCity : Operation :=
  .write (.insert_node_table [Dict.ofEntries [("node_id", .str "london"), ("type", .str "City")]]
    "node_id" "type") ["City"]

def createDocuments : Operation :=
  .create { name := "documents", node_type := "Document", property := "vector", dimension := 2
            metric := "dot", algorithm := "exact", options := Dict.empty }

/-- The document whose vector has the greatest product with `[1, 1]`. -/
def bestDocument : Request :=
  { index := "documents", query_vector := [.int 1, .int 1], top_k := 1, filters := Dict.empty
    oversample := 1, return_properties := ["node_id"] }

def newHandle : Handle :=
  { db := Database.create "graph.crcl", manifest := Dict.empty, vector_entries_cache := Dict.empty }

/-- The keys of the documents that are found. -/
def keysOf (answer : Except Raised (List (Hit ℤ))) : Option (List Value) :=
  answer.toOption.map fun hits => hits.map Hit.node_id

/-- Two documents, an index and a city: the search finds the better document. -/
def indexedDocuments : List Operation :=
  [storeDocument "first" 1 2, storeDocument "second" 3 4, createDocuments, storeCity]

theorem indexedDocuments_right :
    (Call.run (vectorSearch integerServices bestDocument)
        (run integerServices indexedDocuments newHandle)).1.toOption =
      (rightAnswer integerServices (run integerServices indexedDocuments newHandle)
        bestDocument).toOption := by
  refine searches_right integerServices indexedDocuments (fun _ _ absurdity => by cases absurdity)
    rfl ⟨?_, ?_, ?_, ?_, trivial⟩ bestDocument (Or.inr ?_)
  · intro _ _ absurdity
    cases absurdity
  · intro _ _ absurdity
    cases absurdity
  · intro _ _ _ _ absurdity
    cases absurdity
  · intro name index listed _
    have every : ∀ entry ∈ (run integerServices [storeDocument "first" 1 2,
        storeDocument "second" 3 4, createDocuments] newHandle).manifest.entries,
        entry.2.node_type = "Document" := by decide +kernel
    have class_name := every (name, index) ((Dict.get_eq_some _ _ _).mp listed)
    dsimp only at class_name
    rw [class_name]
    decide +kernel
  · intro index listed
    have every : ∀ entry ∈ (run integerServices indexedDocuments newHandle).manifest.entries,
        entry.2.algorithm = "exact" := by decide +kernel
    exact every (_, index) ((Dict.get_eq_some _ _ _).mp listed)

/-- A document that is stored after the index was created is not found, although it is better. -/
theorem later_document_missed :
    keysOf (Call.run (vectorSearch integerServices bestDocument) (run integerServices
        [storeDocument "first" 1 2, createDocuments, storeDocument "second" 3 4] newHandle)).1 =
          some [.str "first"] ∧
      keysOf (rightAnswer integerServices (run integerServices
        [storeDocument "first" 1 2, createDocuments, storeDocument "second" 3 4] newHandle)
          bestDocument) = some [.str "second"] := by
  constructor <;> decide +kernel

end Vectors

end CaracalDB
