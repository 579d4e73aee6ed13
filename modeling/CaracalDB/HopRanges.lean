import CaracalDB.PythonValue
import Mathlib.Data.List.Basic

/-!
# Hop ranges

The pattern of a relationship may have a range of hops. The parser drops the star and the dots before
the transformer sees the rule, so the transformer has the integers alone, and it takes a single one for
both bounds. Whether a query is run as a path of variable length depends on the bounds it found.
-/

namespace CaracalDB.Tuft

/-! ## Syntax trees -/

inductive NameRef where
  | qname (value : String)
  | iri (value : String)
deriving DecidableEq

/-- `label.value` -/
def NameRef.value : NameRef → String
  | .qname value | .iri value => value

inductive Direction where
  | out
  | in
  | both
deriving DecidableEq

structure HopRange where
  min_hops : Option Int := none
  max_hops : Option Int := none
deriving DecidableEq

/-- A property map, by the texts of its entries. -/
abbrev PropMap : Type := List (String × Value)

structure NodePattern where
  var : Option String := none
  labels : List NameRef := []
  props : Option PropMap := none

structure RelPattern where
  var : Option String := none
  types : List NameRef := []
  direction : Direction := .out
  hop_range : HopRange := {}
  props : Option PropMap := none

inductive PatternElem where
  | node (pattern : NodePattern)
  | rel (pattern : RelPattern)
  | path

structure Pattern where
  elements : List PatternElem
  binding : Option String := none

inductive Clause where
  | match_ (patterns : List Pattern)
  | other

structure Query where
  clauses : List Clause

/-! ## The transformer -/

/-- A token of a rule: an anonymous one, or an `INT` with the number that its callback made of it. -/
inductive Token where
  | anonymous (text : String)
  | int (value : Int)

/-- The items of a rule of integers: Lark has dropped the anonymous tokens. -/
def items (tokens : List Token) : List Int :=
  tokens.filterMap fun
    | .anonymous _ => none
    | .int value => some value

/-- `TuftTransformer.hop_range(items)` -/
def hopRange : List Int → HopRange
  | [] => {}
  | [hops] => { min_hops := some hops, max_hops := some hops }
  | least :: most :: _ => { min_hops := some least, max_hops := some most }

/-- An item of `rel_pattern`. -/
inductive RelItem where
  | ident (name : String)
  | types (refs : List NameRef)
  | hop_range (range : HopRange)
  | props (entries : PropMap)

/-- `TuftTransformer.rel_pattern(items)` -/
def relPattern (items : List RelItem) : RelPattern :=
  items.foldl (fun rel item =>
    match item with
    | .ident name => { rel with var := some name }
    | .types refs => { rel with types := refs }
    | .hop_range range => { rel with hop_range := range }
    | .props entries => { rel with props := some entries }) {}

/-- `TuftTransformer.rel(items)`, with the arrows among the items. -/
def rel (left right : Bool) (pattern : RelPattern) : RelPattern :=
  { pattern with direction := if right then .out else if left then .in else .both }

/-! ## Texts -/

/-- The text of a range of hops: `"*" INT? (".." INT?)?`. -/
structure HopText where
  lower : Option Int := none
  range : Option (Option Int) := none
deriving DecidableEq

/-- The text of a relationship. -/
structure RelText where
  left : Bool := false
  right : Bool := false
  var : Option String := none
  types : List NameRef := []
  hops : Option HopText := none
  props : Option PropMap := none

/-- The text of a pattern, with its nodes as they are parsed. -/
structure PatternText where
  binding : Option String := none
  head : NodePattern := {}
  steps : List (RelText × NodePattern) := []

def HopText.tokens (text : HopText) : List Token :=
  .anonymous "*" :: text.lower.toList.map .int ++
    text.range.elim [] fun upper => .anonymous ".." :: upper.toList.map .int

/-- The range that the rule `hop_range` is transformed to. -/
def HopText.parsed (text : HopText) : HopRange := hopRange (items text.tokens)

def RelText.parsed (text : RelText) : RelPattern :=
  rel text.left text.right (relPattern
    (text.var.toList.map .ident ++ (if text.types = [] then [] else [.types text.types]) ++
      text.hops.toList.map (fun hops => .hop_range hops.parsed) ++ text.props.toList.map .props))

def PatternText.parsed (text : PatternText) : Pattern :=
  { elements := .node text.head :: text.steps.flatMap fun (rel, node) => [.rel rel.parsed, .node node]
    binding := text.binding }

/-- A query that begins with a `MATCH` clause. -/
def parseQuery (patterns : List PatternText) (clauses : List Clause) : Query :=
  { clauses := .match_ (patterns.map PatternText.parsed) :: clauses }

/-! ## The dispatch of a query -/

/-- The patterns of the first `MATCH` clause. -/
def Query.matched (query : Query) : Option (List Pattern) :=
  query.clauses.findSome? fun
    | .match_ patterns => some patterns
    | .other => none

/-- `_is_multi_element_pattern(query)` -/
def isMultiElementPattern (query : Query) : Bool :=
  query.matched.elim false fun patterns => patterns.any fun pattern => 1 < pattern.elements.length

/-- `_has_variable_length_pattern(query)` -/
def hasVariableLengthPattern (query : Query) : Bool :=
  query.matched.elim false fun patterns => patterns.any fun pattern => pattern.elements.any fun
    | .rel rel => rel.hop_range.min_hops.isSome || rel.hop_range.max_hops.isSome
    | _ => false

/-- Does `Connection.sql` run the query as a path of variable length? -/
def runsVariable (query : Query) : Bool :=
  isMultiElementPattern query && hasVariableLengthPattern query

/-! ## What is written -/

/-- The bounds that a text has, both of them where there are no dots. -/
def written : Option HopText → HopRange
  | none => {}
  | some { lower, range := none } => { min_hops := lower, max_hops := lower }
  | some { lower, range := some upper } => { min_hops := lower, max_hops := upper }

/-- The text of a range. -/
def printed (range : HopRange) : Option HopText :=
  if range = {} then none else some { lower := range.min_hops, range := some range.max_hops }

theorem written_printed (range : HopRange) : written (printed range) = range := by
  rw [printed]
  split
  · next empty => rw [empty, written]
  · rw [written]

/-- One integer next to the dots: it belongs to one of the bounds, and the other is open. -/
def HopText.HalfOpen (text : HopText) : Prop :=
  ∃ upper, text.range = some upper ∧ text.lower.isSome ≠ upper.isSome

/-- A text with an integer. -/
def HopText.Bounded (text : HopText) : Prop := items text.tokens ≠ []

def parsedHops (text : Option HopText) : HopRange := text.elim {} HopText.parsed

/-- The bounds are the written ones exactly if not one of them alone is open. -/
theorem parsed_eq_written (text : HopText) : text.parsed = written (some text) ↔ ¬ text.HalfOpen := by
  obtain ⟨lower, range⟩ := text
  cases range with
  | none =>
    cases lower <;> simp [HopText.parsed, HopText.tokens, items, hopRange, written, HopText.HalfOpen]
  | some upper =>
    cases lower <;> cases upper <;>
      simp [HopText.parsed, HopText.tokens, items, hopRange, written, HopText.HalfOpen]

theorem parsedHops_eq_written (text : Option HopText) :
    parsedHops text = written text ↔ ∀ hops ∈ text, ¬ hops.HalfOpen := by
  cases text with
  | none => simp [parsedHops, written]
  | some hops => simp [parsedHops, parsed_eq_written]

/-- A range has a bound exactly if an integer was written. -/
theorem bound_iff (text : HopText) :
    (text.parsed.min_hops.isSome || text.parsed.max_hops.isSome) = true ↔ text.Bounded := by
  rw [HopText.parsed, HopText.Bounded]
  match items text.tokens with
  | [] => simp [hopRange]
  | [hops] => simp [hopRange]
  | least :: most :: _ => simp [hopRange]

/-- The transformer keeps what a relationship is made of. -/
theorem parsed_rel (text : RelText) : text.parsed.hop_range = parsedHops text.hops ∧
    text.parsed.var = text.var ∧ text.parsed.types = text.types ∧ text.parsed.props = text.props := by
  obtain ⟨left, right, var, types, hops, props⟩ := text
  by_cases none : types = []
  · subst none
    cases var <;> cases hops <;> cases props <;> exact ⟨rfl, rfl, rfl, rfl⟩
  · cases var <;> cases hops <;> cases props <;>
      simp [RelText.parsed, rel, relPattern, parsedHops, none]

/-- The relationships of some patterns. -/
def relationships (patterns : List PatternText) : List RelText :=
  patterns.flatMap fun pattern => pattern.steps.map Prod.fst

/-- A query is run as a path of variable length exactly if an integer was written behind a star. -/
theorem runsVariable_iff (patterns : List PatternText) (clauses : List Clause) :
    runsVariable (parseQuery patterns clauses) = true ↔
      ∃ rel ∈ relationships patterns, ∃ hops ∈ rel.hops, hops.Bounded := by
  have matched : (parseQuery patterns clauses).matched = some (patterns.map PatternText.parsed) := rfl
  have bounds (text : RelText) :
      (text.parsed.hop_range.min_hops.isSome || text.parsed.hop_range.max_hops.isSome) = true ↔
        ∃ hops ∈ text.hops, hops.Bounded := by
    rw [(parsed_rel text).1]
    cases text.hops with
    | none => simp [parsedHops]
    | some hops => simpa [parsedHops] using bound_iff hops
  have has : hasVariableLengthPattern (parseQuery patterns clauses) = true ↔
      ∃ rel ∈ relationships patterns, ∃ hops ∈ rel.hops, hops.Bounded := by
    rw [hasVariableLengthPattern, matched]
    simp only [Option.elim_some, List.any_map, List.any_eq_true, Function.comp_apply,
      PatternText.parsed, List.any_cons, List.any_flatMap, Bool.false_or, List.any_nil, Bool.or_false,
      bounds, relationships, List.mem_flatMap, List.mem_map]
    constructor
    · rintro ⟨pattern, member, step, among, bounded⟩
      exact ⟨step.1, ⟨pattern, member, step, among, rfl⟩, bounded⟩
    · rintro ⟨_, ⟨pattern, member, step, among, rfl⟩, bounded⟩
      exact ⟨pattern, member, step, among, bounded⟩
  rw [runsVariable, Bool.and_eq_true, has]
  refine and_iff_right_of_imp ?_
  rintro ⟨_, listed, _⟩
  obtain ⟨pattern, member, among⟩ := List.mem_flatMap.mp listed
  obtain ⟨step, held, rfl⟩ := List.mem_map.mp among
  obtain ⟨before, behind, split⟩ := List.append_of_mem held
  rw [isMultiElementPattern, matched, Option.elim_some, List.any_map, List.any_eq_true]
  refine ⟨pattern, member, decide_eq_true ?_⟩
  simp only [PatternText.parsed, split, List.flatMap_append, List.flatMap_cons, List.length_cons,
    List.length_append]
  omega

/-- Are the bounds of all relationships the written ones? -/
def BoundsRead (patterns : List PatternText) : Prop :=
  ∀ text ∈ relationships patterns, text.parsed.hop_range = written text.hops

/-- Is a query with these patterns run as a path of variable length exactly if a star was written? -/
def Dispatched (patterns : List PatternText) (clauses : List Clause) : Prop :=
  runsVariable (parseQuery patterns clauses) = true ↔ ∃ text ∈ relationships patterns, text.hops.isSome

/-- The bounds of a query are the written ones and its stars decide how it is run exactly if no range
is half open and, where there is a star, some star has an integer. A printed range is parsed to
itself exactly if it has both bounds or none. -/
theorem hop_ranges_read (patterns : List PatternText) (clauses : List Clause) (range : HopRange) :
    (BoundsRead patterns ∧ Dispatched patterns clauses ↔
      (∀ text ∈ relationships patterns, ∀ hops ∈ text.hops, ¬ hops.HalfOpen) ∧
        ((∃ text ∈ relationships patterns, text.hops.isSome) →
          ∃ text ∈ relationships patterns, ∃ hops ∈ text.hops, hops.Bounded)) ∧
      (parsedHops (printed range) = range ↔ range.min_hops.isSome = range.max_hops.isSome) := by
  constructor
  · refine and_congr ?_ ?_
    · refine forall₂_congr fun text _ => ?_
      rw [(parsed_rel text).1, parsedHops_eq_written]
    · rw [Dispatched, runsVariable_iff]
      refine ⟨Iff.mpr, fun starred => ⟨?_, starred⟩⟩
      rintro ⟨text, member, hops, given, _⟩
      exact ⟨text, member, Option.isSome_of_mem given⟩
  · have whole := parsedHops_eq_written (printed range)
    rw [written_printed] at whole
    rw [whole]
    obtain ⟨least, most⟩ := range
    cases least <;> cases most <;> simp [printed, HopText.HalfOpen]

/-- A text without a lower bound is read with one, and a lone star is no path of variable length. -/
theorem half_open_misread :
    let upTo : PatternText := { steps := [({ hops := some { range := some (some 5) } }, {})] }
    let star : PatternText := { steps := [({ hops := some {} }, {})] }
    ¬ BoundsRead [upTo] ∧ parsedHops (some { range := some (some 5) }) = { min_hops := some 5, max_hops := some 5 } ∧
      parsedHops (printed { min_hops := none, max_hops := some 5 }) ≠
        { min_hops := none, max_hops := some 5 } ∧ ¬ Dispatched [star] [] := by
  refine ⟨fun read => ?_, rfl, by decide, fun dispatched => ?_⟩
  · exact absurd (read _ List.mem_cons_self) (by decide)
  · exact absurd (dispatched.mpr ⟨_, List.mem_cons_self, rfl⟩) (by decide)

end CaracalDB.Tuft
