import Mathlib.Data.List.Dedup
import CaracalDB.TextSearch
import CaracalDB.KeyTypes

/-!
# Which rows a text search reaches

A search looks only at rows with a text equal to the query in its normal form and
at rows with one of its words, the rarest word first; it stops looking up words
once it has more than a thousand rows. It answers what a scan answers exactly when
the rows that the scan ranks first are among these.
-/

namespace CaracalDB.Text

section Reach

variable (alphabet : Alphabet) (index : IndexMeta)

/-- Whether a row has a text of a normal form. -/
def isExact (normalized_query : List Char) (node : NodeRow) : Bool :=
  (entriesOf alphabet index node).any fun entry => entry.normalized = normalized_query

/-- Whether a row has a text with a word. -/
def hasToken (token : List Char) (node : NodeRow) : Bool :=
  (entriesOf alphabet index node).any fun entry => token ∈ entry.tokens

/-- The words of a query that occur, those in the fewest rows first. -/
def rarestFirst (nodes : List NodeRow) (normalized_query : List Char) : List (List Char) :=
  ranked (fun token => (nodes.filter (hasToken alphabet index token)).length)
    ((textTokens normalized_query).filter fun token => nodes.any (hasToken alphabet index token))

/-- Whether a row is found by the query itself or by one of some words. -/
def foundBy (normalized_query : List Char) (tokens : List (List Char)) (node : NodeRow) : Bool :=
  isExact alphabet index normalized_query node ||
    tokens.any fun token => hasToken alphabet index token node

/-- Whether a word is looked up: the words before it have not found more than 1000 rows. -/
def Tried (nodes : List NodeRow) (normalized_query token : List Char) : Prop :=
  ∃ before after, rarestFirst alphabet index nodes normalized_query = before ++ token :: after ∧
    (before = [] ∨
      (nodes.filter (foundBy alphabet index normalized_query before)).length ≤ 1000)

/-- Whether a row is looked at. -/
def Reached (nodes : List NodeRow) (query : String) (node : NodeRow) : Prop :=
  normalizeText alphabet query.toList ≠ [] ∧
    (isExact alphabet index (normalizeText alphabet query.toList) node = true ∨
      ∃ token, Tried alphabet index nodes (normalizeText alphabet query.toList) token ∧
        hasToken alphabet index token node = true)

end Reach

/-! ## Bitmaps -/

@[simp] theorem mem_sortedIds {ids : List Int} {internal_id : Int} :
    internal_id ∈ sortedIds ids ↔ internal_id ∈ ids := by
  rw [sortedIds, List.mem_insertionSort, List.mem_dedup]

theorem nodup_sortedIds (ids : List Int) : (sortedIds ids).Nodup :=
  (List.perm_insertionSort _ _).nodup_iff.mpr (List.nodup_dedup ids)

/-- What a bitmap holds: the ids filed under the text. -/
theorem mem_bitmapOf (pairs : List (List Char × Int)) (text : List Char) (internal_id : Int) :
    internal_id ∈ (bitmapOf (pairs.foldl Dict.file Dict.empty) text).getD [] ↔
      (text, internal_id) ∈ pairs := by
  rw [bitmapOf, Dict.get_file]
  by_cases filed : pairs.any (fun pair => pair.1 = text) = true
  · rw [if_pos filed]
    simp
  · rw [if_neg filed]
    constructor
    · intro absurdity
      cases absurdity
    · intro member
      exact absurd (List.any_eq_true.mpr ⟨_, member, by simp⟩) filed

theorem bitmapOf_isSome (pairs : List (List Char × Int)) (text : List Char) :
    (bitmapOf (pairs.foldl Dict.file Dict.empty) text).isSome =
      pairs.any (fun pair => pair.1 = text) := by
  rw [bitmapOf, Dict.get_file]
  by_cases filed : pairs.any (fun pair => pair.1 = text) = true
  · rw [if_pos filed, filed]
    rfl
  · rw [if_neg filed]
    exact (Bool.eq_false_iff.mpr filed).symm

theorem nodup_bitmapOf (buckets : Buckets) (text : List Char) :
    ((bitmapOf buckets text).getD []).Nodup := by
  rw [bitmapOf]
  cases buckets.get? text with
  | none => exact List.nodup_nil
  | some ids => exact nodup_sortedIds ids

/-- The ids of the rows with a property, each once. -/
structure Holds (nodes : List NodeRow) (bitmap : List Int) (has : NodeRow → Bool) : Prop where
  nodup : bitmap.Nodup
  mem : ∀ internal_id, internal_id ∈ bitmap ↔
    ∃ node ∈ nodes, has node = true ∧ node.internal_id = internal_id

section Holds

variable {nodes : List NodeRow} (distinct : (nodes.map NodeRow.internal_id).Nodup)
include distinct

theorem Holds.perm {bitmap : List Int} {has : NodeRow → Bool} (holds : Holds nodes bitmap has) :
    bitmap.Perm ((nodes.filter has).map NodeRow.internal_id) := by
  rw [List.perm_ext_iff_of_nodup holds.nodup
    (distinct.sublist (List.filter_sublist.map NodeRow.internal_id))]
  intro internal_id
  rw [holds.mem, List.mem_map]
  simp only [List.mem_filter, and_assoc]

theorem Holds.length {bitmap : List Int} {has : NodeRow → Bool} (holds : Holds nodes bitmap has) :
    bitmap.length = (nodes.filter has).length := by
  rw [(holds.perm distinct).length_eq, List.length_map]

end Holds

theorem Holds.union {nodes : List NodeRow} {first second : List Int} {has also : NodeRow → Bool}
    (left : Holds nodes first has) (right : Holds nodes second also) :
    Holds nodes (union first second) (fun node => has node || also node) where
  nodup := nodup_sortedIds _
  mem internal_id := by
    rw [Text.union, mem_sortedIds, List.mem_append, left.mem, right.mem]
    constructor
    · rintro (⟨node, member, here, same⟩ | ⟨node, member, here, same⟩)
      · exact ⟨node, member, by simp [here], same⟩
      · exact ⟨node, member, by simp [here], same⟩
    · rintro ⟨node, member, either, same⟩
      rcases Bool.or_eq_true_iff.mp either with here | here
      · exact Or.inl ⟨node, member, here, same⟩
      · exact Or.inr ⟨node, member, here, same⟩

section Load

variable {alphabet : Alphabet} {index : IndexMeta} {nodes : List NodeRow}

theorem entry_id {node : NodeRow} {entry : Entry} (member : entry ∈ entriesOf alphabet index node) :
    entry.internal_id = node.internal_id := by
  obtain ⟨text, _, made⟩ := List.mem_filterMap.mp member
  rw [entryOf] at made
  split at made
  · cases made
  · rw [← Option.some.inj made]

/-- The pairs that the exact texts are filed by. -/
def exactPairs (entries : List Entry) : List (List Char × Int) :=
  entries.map fun entry => (entry.normalized, entry.internal_id)

/-- The pairs that the words are filed by. -/
def tokenPairs (entries : List Entry) : List (List Char × Int) :=
  entries.flatMap fun entry => entry.tokens.map fun token => (token, entry.internal_id)

theorem mem_exactPairs (text : List Char) (internal_id : Int) :
    (text, internal_id) ∈ exactPairs (nodes.flatMap (entriesOf alphabet index)) ↔
      ∃ node ∈ nodes, isExact alphabet index text node = true ∧ node.internal_id = internal_id := by
  rw [exactPairs, List.mem_map]
  constructor
  · rintro ⟨entry, member, same⟩
    obtain ⟨node, inNodes, inRow⟩ := List.mem_flatMap.mp member
    obtain ⟨rfl, rfl⟩ := Prod.mk.inj same
    exact ⟨node, inNodes, List.any_eq_true.mpr ⟨entry, inRow, by simp⟩, (entry_id inRow).symm⟩
  · rintro ⟨node, inNodes, found, rfl⟩
    obtain ⟨entry, inRow, same⟩ := List.any_eq_true.mp found
    refine ⟨entry, List.mem_flatMap.mpr ⟨node, inNodes, inRow⟩, ?_⟩
    rw [entry_id inRow, of_decide_eq_true same]

theorem mem_tokenPairs (token : List Char) (internal_id : Int) :
    (token, internal_id) ∈ tokenPairs (nodes.flatMap (entriesOf alphabet index)) ↔
      ∃ node ∈ nodes, hasToken alphabet index token node = true ∧
        node.internal_id = internal_id := by
  rw [tokenPairs, List.mem_flatMap]
  constructor
  · rintro ⟨entry, member, within⟩
    obtain ⟨node, inNodes, inRow⟩ := List.mem_flatMap.mp member
    obtain ⟨other, among, same⟩ := List.mem_map.mp within
    obtain ⟨rfl, rfl⟩ := Prod.mk.inj same
    exact ⟨node, inNodes, List.any_eq_true.mpr ⟨entry, inRow, by simpa using among⟩,
      (entry_id inRow).symm⟩
  · rintro ⟨node, inNodes, found, rfl⟩
    obtain ⟨entry, inRow, within⟩ := List.any_eq_true.mp found
    refine ⟨entry, List.mem_flatMap.mpr ⟨node, inNodes, inRow⟩, List.mem_map.mpr
      ⟨token, of_decide_eq_true within, ?_⟩⟩
    rw [entry_id inRow]

/-- An index is loaded when every row with words has an id that a bitmap can hold. -/
theorem loadTextIndex_ok
    (fits : ∀ node ∈ nodes, entriesOf alphabet index node ≠ [] →
      fitsBitmap node.internal_id = true) :
    loadTextIndex alphabet index nodes = .ok
      { entries := nodes.flatMap (entriesOf alphabet index)
        exact_bitmaps := (exactPairs (nodes.flatMap (entriesOf alphabet index))).foldl
          Dict.file Dict.empty
        token_bitmaps := (tokenPairs (nodes.flatMap (entriesOf alphabet index))).foldl
          Dict.file Dict.empty
        exact_keys_arr := none } := by
  rw [loadTextIndex, refuse, if_neg]
  · rfl
  · intro exceeds
    obtain ⟨entry, member, tooLarge⟩ := List.any_eq_true.mp exceeds
    obtain ⟨node, inNodes, inRow⟩ := List.mem_flatMap.mp member
    rw [entry_id inRow, fits node inNodes (List.ne_nil_of_mem inRow)] at tooLarge
    cases tooLarge

theorem loadTextIndex_error {node : NodeRow} (inNodes : node ∈ nodes)
    (filled : entriesOf alphabet index node ≠ []) (large : fitsBitmap node.internal_id ≠ true) :
    ∃ raised, loadTextIndex alphabet index nodes = .error raised := by
  obtain ⟨entry, inRow⟩ := List.exists_mem_of_ne_nil _ filled
  refine ⟨.typeError "value too large to convert to uint32_t", ?_⟩
  rw [loadTextIndex, refuse, if_pos]
  · rfl
  · refine List.any_eq_true.mpr ⟨entry, List.mem_flatMap.mpr ⟨node, inNodes, inRow⟩, ?_⟩
    rw [entry_id inRow]
    simpa using large

end Load

/-! ## Looking up words -/

section Candidates

open Classical

variable (alphabet : Alphabet) (index : IndexMeta) {nodes : List NodeRow}

theorem holds_exact (text : List Char) :
    Holds nodes ((bitmapOf ((exactPairs (nodes.flatMap (entriesOf alphabet index))).foldl
      Dict.file Dict.empty) text).getD []) (isExact alphabet index text) where
  nodup := nodup_bitmapOf _ _
  mem internal_id := by rw [mem_bitmapOf, mem_exactPairs]

theorem holds_token (token : List Char) :
    Holds nodes ((bitmapOf ((tokenPairs (nodes.flatMap (entriesOf alphabet index))).foldl
      Dict.file Dict.empty) token).getD []) (hasToken alphabet index token) where
  nodup := nodup_bitmapOf _ _
  mem internal_id := by rw [mem_bitmapOf, mem_tokenPairs]

/-- Whether a word of a list is looked up when some rows have been found before. -/
def LookedUp (nodes : List NodeRow) (several : Bool) (has : NodeRow → Bool) (tokens : List (List Char)) (token : List Char) : Prop :=
  ∃ before after, tokens = before ++ token :: after ∧ (before = [] ∨ several = false ∨
    (nodes.filter fun node => has node ||
      before.any fun other => hasToken alphabet index other node).length ≤ 1000)

variable {alphabet index}

theorem count_le {has also : NodeRow → Bool} (implies : ∀ node, has node = true → also node = true) :
    (nodes.filter has).length ≤ (nodes.filter also).length := by
  rw [← List.countP_eq_length_filter, ← List.countP_eq_length_filter]
  exact List.countP_mono_left fun node _ => implies node

theorem lookedUp_cons {several : Bool} {has : NodeRow → Bool} {first token : List Char}
    {rest : List (List Char)} :
    LookedUp alphabet index nodes several has (first :: rest) token ↔
      token = first ∨
        ((several = false ∨
          (nodes.filter fun node => has node || hasToken alphabet index first node).length ≤ 1000) ∧
          LookedUp alphabet index nodes several
            (fun node => has node || hasToken alphabet index first node) rest token) := by
  constructor
  · rintro ⟨before, after, split, early⟩
    cases before with
    | nil => exact Or.inl (List.cons.inj split).1.symm
    | cons head before =>
      obtain ⟨rfl, tail⟩ := List.cons.inj split
      have few := early.resolve_left (List.cons_ne_nil first before)
      simp only [List.any_cons, ← Bool.or_assoc] at few
      refine Or.inr ⟨few.imp_right fun short => ?_, before, after, tail, Or.inr few⟩
      refine Nat.le_trans (count_le fun node found => ?_) short
      rw [found, Bool.true_or]
  · rintro (rfl | ⟨few, before, after, rfl, early⟩)
    · exact ⟨[], rest, rfl, Or.inl rfl⟩
    · refine ⟨first :: before, after, rfl, Or.inr ?_⟩
      simp only [List.any_cons, ← Bool.or_assoc]
      rcases early with rfl | later
      · simpa using few
      · exact later

/-- What looking up words finds. -/
theorem holds_addTokens (alphabet : Alphabet) (index : IndexMeta)
    (distinct : (nodes.map NodeRow.internal_id).Nodup) (several : Bool)
    (tokens : List (List Char)) (has : NodeRow → Bool) (bitmap : List Int)
    (holds : Holds nodes bitmap has) :
    Holds nodes (addTokens ((tokenPairs (nodes.flatMap (entriesOf alphabet index))).foldl
        Dict.file Dict.empty) several bitmap tokens)
      (fun node => has node || decide (∃ token,
        LookedUp alphabet index nodes several has tokens token ∧
          hasToken alphabet index token node = true)) := by
  induction tokens generalizing has bitmap with
  | nil =>
    have none : ∀ node : NodeRow, ¬ ∃ token,
        LookedUp alphabet index nodes several has [] token ∧
          hasToken alphabet index token node = true := by
      rintro node ⟨token, ⟨before, after, split, _⟩, _⟩
      cases before <;> cases split
    simpa only [addTokens, none, decide_false, Bool.or_false] using holds
  | cons first rest inductionHypothesis =>
    have wider := holds.union (holds_token alphabet index first)
    rw [addTokens]
    split
    · next stops =>
      rw [wider.length distinct] at stops
      have cut : ¬ (several = false ∨ (nodes.filter fun node =>
          has node || hasToken alphabet index first node).length ≤ 1000) := by
        rw [not_or]
        exact ⟨by simp [stops.2], Nat.not_le.mpr stops.1⟩
      simpa only [lookedUp_cons, cut, false_and, or_false, exists_eq_left, Bool.decide_eq_true]
        using wider
    · next stops =>
      rw [wider.length distinct] at stops
      have goesOn : several = false ∨ (nodes.filter fun node =>
          has node || hasToken alphabet index first node).length ≤ 1000 := by
        rw [not_and_or, Nat.not_lt] at stops
        exact stops.symm.imp_left fun single => by simpa using single
      have later := inductionHypothesis _ _ wider
      refine ⟨later.nodup, fun internal_id => (later.mem internal_id).trans ?_⟩
      apply exists_congr
      intro node
      simp only [lookedUp_cons, goesOn, true_and, Bool.or_eq_true, decide_eq_true_eq, or_and_right,
        exists_or, exists_eq_left, or_assoc]

theorem validTokens_eq (distinct : (nodes.map NodeRow.internal_id).Nodup) (data : IndexData)
    (filed : data.token_bitmaps =
      (tokenPairs (nodes.flatMap (entriesOf alphabet index))).foldl Dict.file Dict.empty)
    (normalized_query : List Char) :
    validTokens data (textTokens normalized_query) =
      rarestFirst alphabet index nodes normalized_query := by
  rw [validTokens, rarestFirst, filed]
  have counts : (fun token => ((bitmapOf ((tokenPairs
      (nodes.flatMap (entriesOf alphabet index))).foldl Dict.file Dict.empty) token).getD
        []).length) =
      fun token => (nodes.filter (hasToken alphabet index token)).length := by
    funext token
    exact (holds_token alphabet index token).length distinct
  have occurs : (fun token => (bitmapOf ((tokenPairs
      (nodes.flatMap (entriesOf alphabet index))).foldl Dict.file Dict.empty) token).isSome) =
      fun token => nodes.any (hasToken alphabet index token) := by
    funext token
    rw [bitmapOf_isSome, Bool.eq_iff_iff, List.any_eq_true, List.any_eq_true]
    constructor
    · rintro ⟨⟨text, internal_id⟩, member, same⟩
      obtain rfl := of_decide_eq_true same
      obtain ⟨node, inNodes, found, _⟩ := (mem_tokenPairs _ _).mp member
      exact ⟨node, inNodes, found⟩
    · rintro ⟨node, inNodes, found⟩
      exact ⟨(token, node.internal_id), (mem_tokenPairs _ _).mpr ⟨node, inNodes, found, rfl⟩,
        by simp⟩
  rw [counts, occurs]

/-- The candidates are the rows that are reached. -/
theorem holds_candidates (distinct : (nodes.map NodeRow.internal_id).Nodup) {query : String}
    (filled : normalizeText alphabet query.toList ≠ []) {data : IndexData}
    (loaded : loadTextIndex alphabet index nodes = .ok data) :
    Holds nodes (candidateBitmap data (normalizeText alphabet query.toList))
      (fun node => decide (Reached alphabet index nodes query node)) := by
  have same : data = _ := (Except.ok.inj ((loadTextIndex_ok ?_).symm.trans loaded)).symm
  · subst same
    have found := holds_addTokens alphabet index distinct
      (decide ((rarestFirst alphabet index nodes
        (normalizeText alphabet query.toList)).length > 1))
      (rarestFirst alphabet index nodes (normalizeText alphabet query.toList)) _ _
      (holds_exact alphabet index (normalizeText alphabet query.toList))
    rw [candidateBitmap, validTokens_eq distinct _ rfl]
    refine ⟨found.nodup, fun internal_id => (found.mem internal_id).trans ?_⟩
    apply exists_congr
    intro node
    have tried : ∀ token, LookedUp alphabet index nodes
        (decide ((rarestFirst alphabet index nodes
          (normalizeText alphabet query.toList)).length > 1))
        (isExact alphabet index (normalizeText alphabet query.toList))
        (rarestFirst alphabet index nodes (normalizeText alphabet query.toList)) token ↔
          Tried alphabet index nodes (normalizeText alphabet query.toList) token := by
      intro token
      constructor
      · rintro ⟨before, after, split, early⟩
        refine ⟨before, after, split, ?_⟩
        rcases early with none | single | few
        · exact Or.inl none
        · have short : ¬ (rarestFirst alphabet index nodes
              (normalizeText alphabet query.toList)).length > 1 := by simpa using single
          rw [split, List.length_append, List.length_cons] at short
          exact Or.inl (List.length_eq_zero_iff.mp (by omega))
        · exact Or.inr few
      · rintro ⟨before, after, split, early⟩
        exact ⟨before, after, split, early.imp_right Or.inr⟩
    simp only [tried, Reached, filled, ne_eq, not_false_eq_true, true_and, Bool.or_eq_true,
      decide_eq_true_eq]
  · intro node inNodes filed
    by_contra large
    obtain ⟨raised, failed⟩ := loadTextIndex_error inNodes filed large
    rw [failed] at loaded
    cases loaded

end Candidates

/-! ## Answers -/

section Answers

open Classical

variable {alphabet : Alphabet} {index : IndexMeta} {nodes : List NodeRow} {request : Request}

theorem textResultRow_some {node : NodeRow} {property text : String} {result : TextResult}
    (made : textResultRow alphabet index request node property text = some result) :
    result.internal_id = node.internal_id ∧ result.rank = 0 := by
  rw [textResultRow] at made
  dsimp only at made
  obtain ⟨⟨score, match_kind⟩, _, rfl⟩ := Option.map_eq_some_iff.mp made
  exact ⟨rfl, rfl⟩

/-- A text without words has no match. -/
theorem textResultRow_blank {node : NodeRow} {property text : String}
    (blank : normalizeText alphabet text.toList = []) :
    textResultRow alphabet index request node property text = none := by
  rw [textResultRow, Option.map_eq_none_iff, scoreTextMatch]
  dsimp only
  rw [normalizeText_strip, if_pos blank]

theorem bestMatch_some {node : NodeRow} {texts : List (String × String)} {result : TextResult}
    (best : bestMatch alphabet index request node texts = some result) :
    result.internal_id = node.internal_id ∧ result.rank = 0 := by
  refine foldl_invariant (improve alphabet index request node)
    (fun _ best => ∀ result, best = some result →
      result.internal_id = node.internal_id ∧ result.rank = 0) ?_ texts none
    (fun _ absurdity => by cases absurdity) result best
  intro done text current before result found
  rw [improve] at found
  split at found
  · exact before result found
  · next candidate made =>
    cases current with
    | none =>
      rw [← Option.some.inj found]
      exact textResultRow_some made
    | some current =>
      simp only [better] at found
      split at found
      · rw [← Option.some.inj found]
        exact textResultRow_some made
      · exact before result found

/-- The entries of a row have its matches. -/
theorem bestMatch_entries (node : NodeRow) :
    bestMatch alphabet index request node
        ((entriesOf alphabet index node).map fun entry => (entry.property, entry.text)) =
      bestMatch alphabet index request node (textsOf index node) := by
  rw [bestMatch, bestMatch, entriesOf]
  generalize textsOf index node = texts
  generalize (none : Option TextResult) = best
  induction texts generalizing best with
  | nil => rfl
  | cons text rest inductionHypothesis =>
    rw [List.foldl_cons]
    by_cases blank : normalizeText alphabet text.2.toList = []
    · have noEntry : entryOf alphabet node text = none := if_pos blank
      have same : improve alphabet index request node best text = best := by
        rw [improve, textResultRow_blank blank]
      rw [List.filterMap_cons_none noEntry, inductionHypothesis, same]
    · have anEntry : entryOf alphabet node text = some _ := if_neg blank
      rw [List.filterMap_cons_some anEntry, List.map_cons, List.foldl_cons]
      exact inductionHypothesis _

section Distinct

variable (distinct : (nodes.map NodeRow.internal_id).Nodup)
include distinct

theorem entries_of_id {node : NodeRow} (member : node ∈ nodes) :
    (nodes.flatMap (entriesOf alphabet index)).filter
        (fun entry => entry.internal_id = node.internal_id) = entriesOf alphabet index node := by
  have own : ∀ entry ∈ entriesOf alphabet index node,
      decide (entry.internal_id = node.internal_id) = true :=
    fun entry inRow => decide_eq_true (entry_id inRow)
  obtain ⟨before, after, rfl⟩ := List.append_of_mem member
  rw [List.map_append, List.map_cons, List.nodup_append] at distinct
  have others : ∀ other ∈ before ++ after, other.internal_id ≠ node.internal_id := by
    intro other among same
    rcases List.mem_append.mp among with early | late
    · exact distinct.2.2 _ (List.mem_map_of_mem early) _ List.mem_cons_self same
    · exact (List.nodup_cons.mp distinct.2.1).1 (same ▸ List.mem_map_of_mem late)
  have none : ∀ part : List NodeRow, (∀ other ∈ part, other.internal_id ≠ node.internal_id) →
      (part.flatMap (entriesOf alphabet index)).filter
        (fun entry => entry.internal_id = node.internal_id) = [] := by
    intro part apart
    rw [List.filter_eq_nil_iff]
    intro entry inPart same
    obtain ⟨other, inNodes, inRow⟩ := List.mem_flatMap.mp inPart
    exact apart other inNodes ((entry_id inRow).symm.trans (of_decide_eq_true same))
  rw [List.flatMap_append, List.flatMap_cons, List.filter_append, List.filter_append,
    none before fun other early => others other (List.mem_append_left after early),
    none after fun other late => others other (List.mem_append_right before late),
    List.filter_eq_self.mpr own, List.append_nil, List.nil_append]

theorem rowLookup_of_mem {node : NodeRow} (member : node ∈ nodes) :
    rowLookup nodes node.internal_id = some node := by
  rw [rowLookup]
  cases found : nodes.reverse.find? fun other => other.internal_id = node.internal_id with
  | none =>
    have absent := List.find?_eq_none.mp found node (List.mem_reverse.mpr member)
    exact absurd (decide_eq_true rfl) absent
  | some other =>
    have same : other.internal_id = node.internal_id := by simpa using List.find?_some found
    have inNodes := List.mem_reverse.mp (List.mem_of_find?_eq_some found)
    rw [List.inj_on_of_nodup_map distinct inNodes member same]

end Distinct

/-- Filtering before or after a partial map. -/
theorem filterMap_filter_comm {Item Made : Type} (make : Item → Option Made)
    (keeps : Item → Bool) (keepsMade : Made → Bool) (items : List Item)
    (agree : ∀ item ∈ items, ∀ made, make item = some made → keepsMade made = keeps item) :
    (items.filter keeps).filterMap make = (items.filterMap make).filter keepsMade := by
  induction items with
  | nil => rfl
  | cons item items inductionHypothesis =>
    have rest := inductionHypothesis fun other later =>
      agree other (List.mem_cons_of_mem item later)
    cases made : make item with
    | none =>
      rw [List.filterMap_cons_none made, ← rest]
      cases kept : keeps item with
      | true => rw [List.filter_cons_of_pos kept, List.filterMap_cons_none made]
      | false => rw [List.filter_cons_of_neg (by simp [kept])]
    | some value =>
      have same := agree item List.mem_cons_self value made
      rw [List.filterMap_cons_some made]
      cases kept : keeps item with
      | true =>
        rw [List.filter_cons_of_pos kept, List.filterMap_cons_some made,
          List.filter_cons_of_pos (same.trans kept), rest]
      | false =>
        rw [List.filter_cons_of_neg (by simp [kept]), List.filter_cons_of_neg (by simp [same, kept]),
          rest]

/-- What a row contributes to the scan. -/
def contribution (alphabet : Alphabet) (index : IndexMeta) (request : Request) (node : NodeRow) :
    Option TextResult := bestMatch alphabet index request node (textsOf index node)

theorem contributions_ids (items : List NodeRow) :
    ((items.filterMap (contribution alphabet index request)).map TextResult.internal_id).Sublist
      (items.map NodeRow.internal_id) := by
  induction items with
  | nil => exact List.Sublist.refl _
  | cons node items inductionHypothesis =>
    rw [List.map_cons]
    cases made : contribution alphabet index request node with
    | none =>
      rw [List.filterMap_cons_none made]
      exact List.Sublist.cons _ inductionHypothesis
    | some result =>
      rw [List.filterMap_cons_some made, List.map_cons, (bestMatch_some made).1]
      exact List.Sublist.cons_cons _ inductionHypothesis

theorem contributions_keys (distinct : (nodes.map NodeRow.internal_id).Nodup) :
    ((nodes.filterMap (contribution alphabet index request)).map resultKey).Nodup := by
  refine List.Nodup.of_map (fun key => (ofLex (ofLex key).2).1) ?_
  rw [List.map_map]
  exact distinct.sublist (contributions_ids nodes)

/-- Whether a result comes from a row that is reached. -/
def fromReached (alphabet : Alphabet) (index : IndexMeta) (nodes : List NodeRow) (query : String)
    (result : TextResult) : Prop :=
  ∀ node ∈ nodes, node.internal_id = result.internal_id → Reached alphabet index nodes query node

/-- The results of a search, before they are ranked. -/
theorem search_results (distinct : (nodes.map NodeRow.internal_id).Nodup)
    (filled : normalizeText alphabet request.query.toList ≠ []) {data : IndexData}
    (loaded : loadTextIndex alphabet index nodes = .ok data) :
    ((textCandidateEntries data (normalizeText alphabet request.query.toList)).filterMap
        fun (internal_id, index_entries) =>
          match rowLookup nodes internal_id with
          | none => none
          | some node => bestMatch alphabet index request node
              (index_entries.map fun entry => (entry.property, entry.text))).Perm
      ((nodes.filterMap (contribution alphabet index request)).filter
        fun result => decide (fromReached alphabet index nodes request.query result)) := by
  have candidates := (holds_candidates distinct filled loaded).perm distinct
  have entries : data.entries = nodes.flatMap (entriesOf alphabet index) := by
    rw [loadTextIndex] at loaded
    obtain ⟨_, _, made⟩ := except_bind_ok loaded
    rw [← Except.ok.inj made]
  rw [textCandidateEntries, List.filterMap_map]
  refine (candidates.filterMap _).trans (List.Perm.of_eq ?_)
  rw [List.filterMap_map]
  have each : ∀ node ∈ nodes.filter (fun node => decide (Reached alphabet index nodes
      request.query node)), (match rowLookup nodes node.internal_id with
        | none => none
        | some found => bestMatch alphabet index request found
            ((data.entries.filter fun entry => entry.internal_id = node.internal_id).map
              fun entry => (entry.property, entry.text))) =
      contribution alphabet index request node := by
    intro node kept
    have member := List.mem_of_mem_filter kept
    rw [rowLookup_of_mem distinct member, entries, entries_of_id distinct member]
    exact bestMatch_entries node
  rw [← filterMap_filter_comm (contribution alphabet index request)
    (fun node => decide (Reached alphabet index nodes request.query node))
    (fun result => decide (fromReached alphabet index nodes request.query result))]
  · exact List.filterMap_congr each
  · intro node member result made
    rw [decide_eq_decide, fromReached]
    constructor
    · exact fun all => all node member (bestMatch_some made).1.symm
    · intro reached other inNodes same
      rwa [List.inj_on_of_nodup_map distinct inNodes member
        (same.trans (bestMatch_some made).1)]

/-- Numbering keeps apart what is different without its numbers. -/
theorem numbered_inj {first second : List TextResult} (firstPlain : ∀ result ∈ first, result.rank = 0)
    (secondPlain : ∀ result ∈ second, result.rank = 0)
    (same : (first.zipIdx.map fun (result, offset) => { result with rank := offset + 1 }) =
      second.zipIdx.map fun (result, offset) => { result with rank := offset + 1 }) :
    first = second := by
  have undo : ∀ results : List TextResult, (∀ result ∈ results, result.rank = 0) →
      (results.zipIdx.map fun (result, offset) =>
        ({ result with rank := offset + 1 } : TextResult)).map
          (fun result => { result with rank := 0 }) = results := by
    intro results plain
    rw [List.map_map]
    calc results.zipIdx.map _ = results.zipIdx.map Prod.fst := by
          apply List.map_congr_left
          rintro ⟨result, offset⟩ paired
          have inResults : result ∈ results := (List.mem_zipIdx' paired).2 ▸ List.getElem_mem _
          have isPlain := plain result inResults
          cases result
          cases isPlain
          rfl
      _ = results := List.zipIdx_map_fst 0 results
  rw [← undo first firstPlain, same, undo second secondPlain]

theorem contributions_plain {result : TextResult}
    (member : result ∈ nodes.filterMap (contribution alphabet index request)) :
    result.rank = 0 ∧ ∃ node ∈ nodes, node.internal_id = result.internal_id := by
  obtain ⟨node, inNodes, made⟩ := List.mem_filterMap.mp member
  exact ⟨(bestMatch_some made).2, node, inNodes, (bestMatch_some made).1.symm⟩

/-- Two lists of results without numbers are the same once they are ranked, cut and numbered exactly
when they are ranked and cut. -/
theorem rankedResults_eq_iff {top_k : Nat} {first second : List TextResult}
    (firstPlain : ∀ result ∈ first, result.rank = 0)
    (secondPlain : ∀ result ∈ second, result.rank = 0) :
    rankedResults top_k first = rankedResults top_k second ↔
      (ranked resultKey first).take top_k = (ranked resultKey second).take top_k := by
  constructor
  · refine numbered_inj ?_ ?_
    · exact fun result member => firstPlain result (mem_ranked.mp (List.mem_of_mem_take member))
    · exact fun result member => secondPlain result (mem_ranked.mp (List.mem_of_mem_take member))
  · intro same
    rw [rankedResults, same, rankedResults]

/-- What holds of results whatever their numbers holds of them once they are numbered. -/
theorem forall_numbered {holds : TextResult → Prop}
    (unnumbered : ∀ result rank, holds { result with rank } ↔ holds result)
    (results : List TextResult) :
    (∀ result ∈ results.zipIdx.map (fun (result, offset) =>
        ({ result with rank := offset + 1 } : TextResult)), holds result) ↔
      ∀ result ∈ results, holds result := by
  constructor
  · intro all result member
    obtain ⟨offset, inside, same⟩ := List.getElem_of_mem member
    refine (unnumbered result (offset + 1)).mp (all _ (List.mem_map.mpr ⟨(result, offset), ?_, rfl⟩))
    exact List.mem_zipIdx_iff_getElem?.mpr (List.getElem?_eq_some_iff.mpr ⟨inside, same⟩)
  · intro all result member
    obtain ⟨⟨plain, offset⟩, paired, rfl⟩ := List.mem_map.mp member
    have inResults : plain ∈ results := (List.mem_zipIdx' paired).2 ▸ List.getElem_mem _
    exact (unnumbered plain (offset + 1)).mpr (all plain inResults)

theorem forall_fullScan {holds : TextResult → Prop}
    (unnumbered : ∀ result rank, holds { result with rank } ↔ holds result) :
    (∀ result ∈ fullScan alphabet index nodes request, holds result) ↔
      ∀ result ∈ (ranked resultKey (nodes.filterMap
        (contribution alphabet index request))).take request.top_k, holds result :=
  forall_numbered unnumbered _

/-- A scan answers nothing exactly when all rows it answers are reached, if none can be. -/
theorem fullScan_empty_iff
    (nothing : request.top_k = 0 ∨ normalizeText alphabet request.query.toList = []) :
    fullScan alphabet index nodes request = [] ↔
      ∀ result ∈ fullScan alphabet index nodes request,
        fromReached alphabet index nodes request.query result := by
  constructor
  · intro empty result member
    rw [empty] at member
    cases member
  · intro reached
    rcases nothing with zero | blank
    · rw [fullScan, rankedResults, zero, List.take_zero]
      rfl
    · have sources : ∀ result ∈ fullScan alphabet index nodes request,
          ∃ node ∈ nodes, node.internal_id = result.internal_id := by
        refine (forall_fullScan fun _ _ => Iff.rfl).mpr ?_
        intro result member
        exact (contributions_plain (mem_ranked.mp (List.mem_of_mem_take member))).2
      rw [List.eq_nil_iff_forall_not_mem]
      intro result member
      obtain ⟨node, inNodes, same⟩ := sources result member
      exact (reached result member node inNodes same).1 blank

/-- A search answers what a scan answers exactly when bitmaps can hold the ids of all rows with
words, and each row that the scan ranks among the first is reached. -/
theorem textSearch_eq_fullScan_iff (distinct : (nodes.map NodeRow.internal_id).Nodup) :
    textSearch alphabet index nodes request = .ok (fullScan alphabet index nodes request) ↔
      (∀ node ∈ nodes, entriesOf alphabet index node ≠ [] → fitsBitmap node.internal_id = true) ∧
        ∀ result ∈ fullScan alphabet index nodes request,
          ∀ node ∈ nodes, node.internal_id = result.internal_id →
            Reached alphabet index nodes request.query node := by
  by_cases fits : ∀ node ∈ nodes, entriesOf alphabet index node ≠ [] →
      fitsBitmap node.internal_id = true
  · rw [and_iff_right fits]
    have loaded := loadTextIndex_ok fits
    rw [textSearch, loaded, ok_bind]
    dsimp only
    by_cases nothing : request.top_k = 0 ∨ normalizeText alphabet request.query.toList = []
    · rw [if_pos nothing]
      refine Iff.trans ?_ (fullScan_empty_iff nothing)
      exact ⟨fun same => (Except.ok.inj same).symm, fun empty => congrArg Except.ok empty.symm⟩
    · rw [if_neg nothing]
      have results := search_results distinct (not_or.mp nothing).2 loaded
      generalize (List.filterMap _ (textCandidateEntries _ _)) = found at results ⊢
      have keys : ((nodes.filterMap (contribution alphabet index request)).map resultKey).Nodup :=
        contributions_keys distinct
      have plain : ∀ result ∈ found, result.rank = 0 := fun result member =>
        (contributions_plain (List.mem_of_mem_filter (results.mem_iff.mp member))).1
      have order : ranked resultKey found =
          (ranked resultKey (nodes.filterMap (contribution alphabet index request))).filter
            fun result => decide (fromReached alphabet index nodes request.query result) := by
        rw [← ranked_filter keys]
        refine ranked_eq_of_perm ?_ results
        exact (results.map resultKey).nodup_iff.mpr
          (keys.sublist (List.filter_sublist.map resultKey))
      calc Except.ok (rankedResults request.top_k found) =
            Except.ok (fullScan alphabet index nodes request) ↔
          rankedResults request.top_k found =
            rankedResults request.top_k
              (nodes.filterMap (contribution alphabet index request)) :=
          ⟨fun same => Except.ok.inj same, fun same => congrArg Except.ok same⟩
        _ ↔ (ranked resultKey found).take request.top_k =
            (ranked resultKey (nodes.filterMap
              (contribution alphabet index request))).take request.top_k :=
          rankedResults_eq_iff plain fun result member => (contributions_plain member).1
        _ ↔ ∀ result ∈ (ranked resultKey (nodes.filterMap
              (contribution alphabet index request))).take request.top_k,
            fromReached alphabet index nodes request.query result := by
          rw [order, take_filter_eq_iff]
          simp only [decide_eq_true_eq]
        _ ↔ _ := (forall_fullScan fun _ _ => Iff.rfl).symm
  · obtain ⟨node, inNodes, filed, large⟩ : ∃ node ∈ nodes, entriesOf alphabet index node ≠ [] ∧
        fitsBitmap node.internal_id ≠ true := by
      push Not at fits
      exact fits
    obtain ⟨raised, failed⟩ := loadTextIndex_error inNodes filed large
    rw [textSearch, failed]
    constructor
    · intro absurdity
      cases absurdity
    · intro both
      exact absurd both.1 fits

end Answers

/-! ## Two rows -/

/-- Spaces are no letters, digits or underscores of the first 128 characters. -/
theorem space_code {char : Char} (space : isSpace char = true) :
    ¬ (48 ≤ char.toNat ∧ char.toNat ≤ 57) ∧ ¬ (65 ≤ char.toNat ∧ char.toNat ≤ 90) ∧
      char.toNat ≠ 95 ∧ ¬ (97 ≤ char.toNat ∧ char.toNat ≤ 122) := by
  simp only [isSpace, Bool.or_eq_true, Bool.and_eq_true, decide_eq_true_eq] at space
  omega

/-- The letters, digits and the underscore of the first 128 characters. -/
def asciiAlphabet : Alphabet where
  casefold char :=
    if 65 ≤ char.toNat ∧ char.toNat ≤ 90 then [Char.ofNat (char.toNat + 32)] else [char]
  isWord char := decide ((48 ≤ char.toNat ∧ char.toNat ≤ 57) ∨
    (65 ≤ char.toNat ∧ char.toNat ≤ 90) ∨ char.toNat = 95 ∨ (97 ≤ char.toNat ∧ char.toNat ≤ 122))
  space_folds char space := if_neg (space_code space).2.1
  space_apart char space := by
    obtain ⟨digit, upper, underscore, lower⟩ := space_code space
    exact decide_eq_false (by omega)

def namesIndex : IndexMeta := { node_type := "Person", properties := ["name"], id_column := "nid" }

/-- A row with a name. -/
def named (internal_id : Int) (name : String) : NodeRow :=
  { internal_id, row := Dict.ofEntries [("nid", .int internal_id), ("name", .str name)] }

/-- A search for a name. -/
def nameRequest (query : String) : Request := { query, top_k := 5, return_properties := ["name"] }

/-- A whole name is found as a scan finds it. -/
theorem search_whole_name :
    textSearch asciiAlphabet namesIndex [named 1 "Alpha One", named 2 "Beta"]
        (nameRequest "alpha one") =
      .ok (fullScan asciiAlphabet namesIndex [named 1 "Alpha One", named 2 "Beta"]
        (nameRequest "alpha one")) := by
  refine (textSearch_eq_fullScan_iff (by decide)).mpr ⟨by decide +kernel, ?_⟩
  have first : ∀ result ∈ fullScan asciiAlphabet namesIndex [named 1 "Alpha One", named 2 "Beta"]
      (nameRequest "alpha one"), result.internal_id = 1 := by decide +kernel
  have only : ∀ node ∈ [named 1 "Alpha One", named 2 "Beta"], node.internal_id = 1 →
      node = named 1 "Alpha One" := by decide +kernel
  intro result member node inNodes same
  rw [only node inNodes (same.trans (first result member))]
  exact ⟨by decide +kernel, Or.inl (by decide +kernel)⟩

/-- The beginning of a word is found by a scan only. -/
theorem search_misses_beginning :
    textSearch asciiAlphabet namesIndex [named 1 "Alpha One", named 2 "Beta"]
        (nameRequest "alph") = .ok [] ∧
      (fullScan asciiAlphabet namesIndex [named 1 "Alpha One", named 2 "Beta"]
        (nameRequest "alph")).map TextResult.internal_id = [1] := by
  constructor
  · decide +kernel
  · decide +kernel

end CaracalDB.Text
