import Mathlib.Data.Prod.Lex
import Mathlib.Data.String.Basic
import CaracalDB.Filing
import CaracalDB.Ranked
import CaracalDB.TextScore

/-!
# Text search

A text index files the rows of a class under the normal forms of their texts and
under the words in them. A search looks the query up in both, scores the texts of
the rows it finds and ranks the rows by their best match.
-/

namespace CaracalDB.Text

/-- The definition of a text index. -/
structure IndexMeta where
  node_type : String
  properties : List String
  id_column : String

/-- A stored row and the number in its id column. -/
structure NodeRow where
  internal_id : Int
  row : Row
deriving DecidableEq

/-- `int(row[id_column])` of each row. -/
def nodeRows (runtime : Runtime) (id_column : String) (rows : List Row) :
    Except Raised (List NodeRow) :=
  rows.mapM fun row => do return { internal_id := ← runtime.toInt (row.read id_column), row }

mutual

/-- `_text_property_values(value)` -/
def textPropertyValues : Value → List String
  | .null => []
  | .list items => textsOfItems items
  | value => [value.toText]

def textsOfItems : List Value → List String
  | [] => []
  | item :: items => textPropertyValues item ++ textsOfItems items

end

/-- The texts of a row, each with its property. -/
def textsOf (index : IndexMeta) (node : NodeRow) : List (String × String) :=
  index.properties.flatMap fun property_name =>
    (textPropertyValues (node.row.read property_name)).map fun text => (property_name, text)

/-! ## Building an index -/

structure Entry where
  internal_id : Int
  property : String
  text : String
  normalized : List Char
  tokens : List (List Char)
deriving DecidableEq

/-- The entry of a text that has words. -/
def entryOf (alphabet : Alphabet) (node : NodeRow) (text : String × String) : Option Entry :=
  let normalized := normalizeText alphabet text.2.toList
  if normalized = [] then none
  else some { internal_id := node.internal_id, property := text.1, text := text.2, normalized,
              tokens := textTokens normalized }

/-- The entries of a row. -/
def entriesOf (alphabet : Alphabet) (index : IndexMeta) (node : NodeRow) : List Entry :=
  (textsOf index node).filterMap (entryOf alphabet node)

/-- Ids under texts. -/
abbrev Buckets : Type := Dict (List Char) (List Int)

/-- `sorted(set(bucket))`; a bitmap holds its ids in this order too. -/
def sortedIds (ids : List Int) : List Int := ids.dedup.insertionSort (· ≤ ·)

/-- The data of a text index once it is loaded. -/
structure IndexData where
  entries : List Entry
  exact_bitmaps : Buckets
  token_bitmaps : Buckets
  /-- `index_data.get("_exact_keys_arr")` -/
  exact_keys_arr : Option (List (List Char))

/-- What a bitmap can hold: numbers of 32 bits. -/
def fitsBitmap (internal_id : Int) : Bool := 0 ≤ internal_id && internal_id < 2 ^ 32

/-- `_build_text_index` and `_load_text_index_data`; nothing sets the array of exact keys. -/
def loadTextIndex (alphabet : Alphabet) (index : IndexMeta) (nodes : List NodeRow) :
    Except Raised IndexData := do
  let entries := nodes.flatMap (entriesOf alphabet index)
  refuse (entries.any fun entry => !fitsBitmap entry.internal_id)
    (.typeError "value too large to convert to uint32_t")
  return {
    entries
    exact_bitmaps := (entries.map fun entry => (entry.normalized, entry.internal_id)).foldl
      Dict.file Dict.empty
    token_bitmaps := (entries.flatMap fun entry =>
      entry.tokens.map fun token => (token, entry.internal_id)).foldl Dict.file Dict.empty
    exact_keys_arr := none }

/-! ## Candidates -/

/-- `bitmap | other` -/
def union (bitmap other : List Int) : List Int := sortedIds (bitmap ++ other)

/-- The bitmap under a text, if there is one. -/
def bitmapOf (buckets : Buckets) (text : List Char) : Option (List Int) :=
  (buckets.get? text).map sortedIds

/-- The tokens one after another, until more than 1000 ids are found for more than one token. -/
def addTokens (buckets : Buckets) (several : Bool) : List Int → List (List Char) → List Int
  | bitmap, [] => bitmap
  | bitmap, token :: rest =>
      let bitmap := union bitmap ((bitmapOf buckets token).getD [])
      if bitmap.length > 1000 ∧ several then bitmap else addTokens buckets several bitmap rest

/-- The ids under matching keys, until more than 5000 are found. -/
def addPrefixes (buckets : Buckets) : List Int → List (List Char) → List Int
  | bitmap, [] => bitmap
  | bitmap, text :: rest =>
      let bitmap := union bitmap ((bitmapOf buckets text).getD [])
      if bitmap.length > 5000 then bitmap else addPrefixes buckets bitmap rest

/-- The tokens of a query that occur, the rarest first. -/
def validTokens (data : IndexData) (query_tokens : List (List Char)) : List (List Char) :=
  ranked (fun token => ((bitmapOf data.token_bitmaps token).getD []).length)
    (query_tokens.filter fun token => (bitmapOf data.token_bitmaps token).isSome)

/-- `candidate_bitmap` of `_text_candidate_entries` -/
def candidateBitmap (data : IndexData) (normalized_query : List Char) : List Int :=
  let valid_tokens := validTokens data (textTokens normalized_query)
  let found := addTokens data.token_bitmaps (valid_tokens.length > 1)
    ((bitmapOf data.exact_bitmaps normalized_query).getD []) valid_tokens
  match data.exact_keys_arr with
  | none => found
  | some keys =>
      if normalized_query.length ≥ 3 then
        addPrefixes data.exact_bitmaps found
          ((keys.filter normalized_query.isPrefixOf).take 100)
      else found

/-- `_text_candidate_entries(index_data, normalized_query)` -/
def textCandidateEntries (data : IndexData) (normalized_query : List Char) :
    List (Int × List Entry) :=
  (candidateBitmap data normalized_query).map fun internal_id =>
    (internal_id, data.entries.filter fun entry => entry.internal_id = internal_id)

/-! ## Results -/

/-- A row of a result. -/
structure TextResult where
  node_id : Value
  node_type : String
  internal_id : Int
  score : ℚ
  rank : Nat
  matched_property : String
  matched_text : String
  match_kind : MatchKind
  selected_properties : List (String × Value)
deriving DecidableEq

/-- A query and what is asked of it. -/
structure Request where
  query : String
  top_k : Nat
  return_properties : List String

/-- The match of one text, as a row of the result. -/
def textResultRow (alphabet : Alphabet) (index : IndexMeta) (request : Request) (node : NodeRow)
    (property text : String) : Option TextResult :=
  let normalized_query := normalizeText alphabet request.query.toList
  (scoreTextMatch alphabet request.query normalized_query (textTokens normalized_query) text).map
    fun (score, match_kind) =>
      { node_id := (node.row.get? "node_id").getD (.int node.internal_id)
        node_type := index.node_type
        internal_id := node.internal_id
        score
        rank := 0
        matched_property := property
        matched_text := text
        match_kind
        selected_properties := request.return_properties.map fun name =>
          (name, node.row.read name) }

/-- The offset of a property: the last one, if it is listed more than once. -/
def propertyOrder (index : IndexMeta) (property : String) : Nat :=
  ((index.properties.zipIdx.filter fun listed => listed.1 = property).getLast?.map Prod.snd).getD
    10000

/-- `_text_candidate_sort_key(row, property_order)` -/
def candidateKey (index : IndexMeta) (result : TextResult) : ℚ ×ₗ ℕ ×ₗ String :=
  toLex (-result.score, toLex (propertyOrder index result.matched_property, result.matched_text))

/-- The better of the best match so far and a further one. -/
def better (index : IndexMeta) (best : Option TextResult) (candidate : TextResult) :
    Option TextResult :=
  match best with
  | none => some candidate
  | some current =>
      if candidateKey index candidate < candidateKey index current then some candidate
      else some current

/-- The best match so far and one more text. -/
def improve (alphabet : Alphabet) (index : IndexMeta) (request : Request) (node : NodeRow)
    (best : Option TextResult) (text : String × String) : Option TextResult :=
  match textResultRow alphabet index request node text.1 text.2 with
  | none => best
  | some candidate => better index best candidate

/-- The best match among texts of a row. -/
def bestMatch (alphabet : Alphabet) (index : IndexMeta) (request : Request) (node : NodeRow)
    (texts : List (String × String)) : Option TextResult :=
  texts.foldl (improve alphabet index request node) none

/-- The key by which `_text_search` sorts its rows. -/
def resultKey (result : TextResult) : ℚ ×ₗ ℤ ×ₗ String ×ₗ String :=
  toLex (-result.score, toLex (result.internal_id,
    toLex (result.matched_property, result.matched_text)))

/-- The rows in their order, numbered from 1. -/
def rankedResults (top_k : Nat) (results : List TextResult) : List TextResult :=
  ((ranked resultKey results).take top_k).zipIdx.map fun (result, offset) =>
    { result with rank := offset + 1 }

/-- `row_lookup.get(internal_id)`: of two rows with one id, the last. -/
def rowLookup (nodes : List NodeRow) (internal_id : Int) : Option NodeRow :=
  nodes.reverse.find? fun node => node.internal_id = internal_id

/-- `db.text_search(index=..., query=..., top_k=..., return_properties=...)` through an index that is
up to date with the rows. -/
def textSearch (alphabet : Alphabet) (index : IndexMeta) (nodes : List NodeRow)
    (request : Request) : Except Raised (List TextResult) := do
  let data ← loadTextIndex alphabet index nodes
  let normalized_query := normalizeText alphabet request.query.toList
  if request.top_k = 0 ∨ normalized_query = [] then return []
  else
    let results := (textCandidateEntries data normalized_query).filterMap
      fun (internal_id, index_entries) =>
        match rowLookup nodes internal_id with
        | none => none
        | some node => bestMatch alphabet index request node
            (index_entries.map fun entry => (entry.property, entry.text))
    return rankedResults request.top_k results

/-- What a scan of all rows answers: of each row the best match of any of its texts. -/
def fullScan (alphabet : Alphabet) (index : IndexMeta) (nodes : List NodeRow)
    (request : Request) : List TextResult :=
  rankedResults request.top_k
    (nodes.filterMap fun node => bestMatch alphabet index request node (textsOf index node))

end CaracalDB.Text
