import Mathlib.Algebra.Order.Field.Rat
import CaracalDB.Resources
import CaracalDB.KeyTypes

/-!
# Scoring a text

A text is normalised to its words, folded to one case and separated by single
spaces. A query matches a text that is equal to it, has its normal form, starts
with its normal form or shares a word with it, and scores less in this order.
-/

namespace CaracalDB.Text

/-- What the language knows of letters: their folding, and which of them make words. -/
structure Alphabet where
  /-- `char.casefold()` -/
  casefold : Char → List Char
  /-- `re.match(r"\w", char)` -/
  isWord : Char → Bool
  space_folds : ∀ char, isSpace char = true → casefold char = [char]
  space_apart : ∀ char, isSpace char = true → isWord char = false

/-- `re.sub(r"[...]+", " ", text)` of a class of characters, inside or outside of a run of them. -/
def subRuns (member : Char → Bool) : Bool → List Char → List Char
  | _, [] => []
  | inside, char :: rest =>
      if member char then
        if inside then subRuns member true rest else ' ' :: subRuns member true rest
      else char :: subRuns member false rest

/-- `_normalize_text(value)` -/
def normalizeText (alphabet : Alphabet) (value : List Char) : List Char :=
  strip (subRuns isSpace false
    (subRuns (fun char => !alphabet.isWord char) false (value.flatMap alphabet.casefold)))

/-- `_text_tokens(normalized_text)` -/
def textTokens (normalized_text : List Char) : List (List Char) :=
  (normalized_text.splitOn ' ').filter (· ≠ [])

inductive MatchKind where
  | exact
  | normalized
  | starts_with
  | token_all
  | token_partial
deriving DecidableEq, Repr

/-- `_score_text_match(query=..., normalized_query=..., query_tokens=..., text=...)` -/
def scoreTextMatch (alphabet : Alphabet) (query : String) (normalized_query : List Char)
    (query_tokens : List (List Char)) (text : String) : Option (ℚ × MatchKind) :=
  let stripped_text := strip text.toList
  let normalized_text := normalizeText alphabet stripped_text
  if normalized_text = [] then none
  else if stripped_text = strip query.toList then some (4, .exact)
  else if normalized_text = normalized_query then some (7 / 2, .normalized)
  else if normalized_query <+: normalized_text then some (3, .starts_with)
  else
    let text_tokens := (textTokens normalized_text).dedup
    if query_tokens = [] ∨ text_tokens = [] then none
    else
      let query_set := query_tokens.dedup
      let overlap := query_set.filter (· ∈ text_tokens)
      if overlap = [] then none
      else if ∀ token ∈ query_set, token ∈ text_tokens then
        some (2 + overlap.length / query_set.length * (1 / 2), .token_all)
      else some (1 + overlap.length / query_set.length * (1 / 2), MatchKind.token_partial)

/-! ## Outer spaces -/

theorem strip_eq_self_or (text : List Char) :
    ∃ before after, text = before ++ strip text ++ after ∧
      (∀ char ∈ before, isSpace char = true) ∧ ∀ char ∈ after, isSpace char = true := by
  refine ⟨text.takeWhile isSpace, ((text.dropWhile isSpace).reverse.takeWhile isSpace).reverse,
    ?_, fun char member => List.mem_takeWhile_imp member, fun char member =>
      List.mem_takeWhile_imp (List.mem_reverse.mp member)⟩
  have inner : (text.dropWhile isSpace).reverse.takeWhile isSpace ++
      (text.dropWhile isSpace).reverse.dropWhile isSpace = (text.dropWhile isSpace).reverse :=
    List.takeWhile_append_dropWhile
  have turned := congrArg List.reverse inner
  rw [List.reverse_append, List.reverse_reverse] at turned
  rw [strip, List.append_assoc, turned, List.takeWhile_append_dropWhile]

@[simp] theorem strip_space_cons (text : List Char) : strip (' ' :: text) = strip text := by
  have space : isSpace ' ' = true := by decide
  rw [strip, List.dropWhile_cons_of_pos space, strip]

@[simp] theorem strip_append_space (text : List Char) : strip (text ++ [' ']) = strip text := by
  have space : isSpace ' ' = true := by decide
  have kept : (text ++ [' ']).dropWhile isSpace =
      if text.dropWhile isSpace = [] then [] else text.dropWhile isSpace ++ [' '] := by
    rw [List.dropWhile_append]
    split
    · next empty =>
      rw [if_pos (List.isEmpty_iff.mp empty), List.dropWhile_cons_of_pos space]
      rfl
    · next filled => rw [if_neg fun empty => filled (List.isEmpty_iff.mpr empty)]
  rw [strip, kept, strip]
  split
  · next empty => rw [empty]
  · rw [List.reverse_append, List.reverse_singleton, List.singleton_append,
      List.dropWhile_cons_of_pos space]

section Runs

variable (member : Char → Bool)

/-- Whether a text begins inside a run matters for one space in front. -/
theorem subRuns_inside (text : List Char) :
    subRuns member false text = subRuns member true text ∨
      subRuns member false text = ' ' :: subRuns member true text := by
  cases text with
  | nil => exact Or.inl rfl
  | cons char rest =>
    rw [subRuns, subRuns]
    by_cases inRun : member char = true
    · rw [if_pos inRun, if_pos inRun]
      exact Or.inr rfl
    · rw [if_neg inRun, if_neg inRun]
      exact Or.inl rfl

/-- Whether a run goes on at the end of a text. -/
def endsInside (inside : Bool) : List Char → Bool
  | [] => inside
  | char :: rest => endsInside (member char) rest

theorem subRuns_append (inside : Bool) (first second : List Char) :
    subRuns member inside (first ++ second) =
      subRuns member inside first ++ subRuns member (endsInside member inside first) second := by
  induction first generalizing inside with
  | nil => rfl
  | cons char rest inductionHypothesis =>
    rw [List.cons_append, subRuns, subRuns, endsInside]
    by_cases inRun : member char = true
    · rw [if_pos inRun, if_pos inRun, inRun]
      cases inside <;> simp [inductionHypothesis]
    · have outside : member char = false := by simpa using inRun
      rw [if_neg inRun, if_neg inRun, outside, inductionHypothesis]
      rfl

variable {member}

theorem subRuns_run {run : List Char} (all : ∀ char ∈ run, member char = true) :
    subRuns member true run = [] := by
  induction run with
  | nil => rfl
  | cons char rest inductionHypothesis =>
    rw [subRuns, if_pos (all char List.mem_cons_self)]
    exact inductionHypothesis fun other later => all other (List.mem_cons_of_mem char later)

theorem endsInside_run {run : List Char} (inside : Bool) (filled : run ≠ [])
    (all : ∀ char ∈ run, member char = true) : endsInside member inside run = true := by
  induction run generalizing inside with
  | nil => exact absurd rfl filled
  | cons char rest inductionHypothesis =>
    rw [endsInside, all char List.mem_cons_self]
    cases rest with
    | nil => rfl
    | cons next rest =>
      exact inductionHypothesis true (List.cons_ne_nil next rest)
        fun other later => all other (List.mem_cons_of_mem char later)

/-- A run becomes one space, or nothing inside of a run. -/
theorem subRuns_of_run {run : List Char} (inside : Bool)
    (all : ∀ char ∈ run, member char = true) :
    subRuns member inside run = [] ∨ subRuns member inside run = [' '] := by
  cases inside with
  | true => exact Or.inl (subRuns_run all)
  | false =>
    rcases subRuns_inside member run with same | space
    · exact Or.inl (same.trans (subRuns_run all))
    · exact Or.inr (space.trans (by rw [subRuns_run all]))

end Runs

/-- Collapsing spaces and stripping: spaces around a text change nothing. -/
theorem collapse_space_cons (text : List Char) :
    strip (subRuns isSpace false (' ' :: text)) = strip (subRuns isSpace false text) := by
  have space : isSpace ' ' = true := by decide
  rw [subRuns, if_pos space, if_neg Bool.false_ne_true, strip_space_cons]
  rcases subRuns_inside isSpace text with same | further
  · rw [same]
  · rw [further, strip_space_cons]

theorem collapse_append_space (text : List Char) :
    strip (subRuns isSpace false (text ++ [' '])) = strip (subRuns isSpace false text) := by
  rw [subRuns_append]
  have one : ∀ char ∈ [' '], isSpace char = true := by
    intro char member
    rw [List.mem_singleton.mp member]
    decide
  rcases subRuns_of_run (endsInside isSpace false text) one with nothing | space
  · rw [nothing, List.append_nil]
  · rw [space, strip_append_space]

/-- The words of a text are those of the text without its outer spaces. -/
theorem normalizeText_strip (alphabet : Alphabet) (text : List Char) :
    normalizeText alphabet (strip text) = normalizeText alphabet text := by
  obtain ⟨before, after, split, spaces, ends⟩ := strip_eq_self_or text
  have folds : ∀ run : List Char, (∀ char ∈ run, isSpace char = true) →
      run.flatMap alphabet.casefold = run := by
    intro run all
    induction run with
    | nil => rfl
    | cons char rest inductionHypothesis =>
      rw [List.flatMap_cons, alphabet.space_folds char (all char List.mem_cons_self),
        inductionHypothesis fun other later => all other (List.mem_cons_of_mem char later)]
      rfl
  have apart : ∀ run : List Char, (∀ char ∈ run, isSpace char = true) →
      ∀ char ∈ run, (!alphabet.isWord char) = true := by
    intro run all char member
    rw [alphabet.space_apart char (all char member)]
    rfl
  generalize strip text = inner at split
  rw [split, normalizeText, normalizeText, List.flatMap_append, List.flatMap_append,
    folds before spaces, folds after ends, subRuns_append]
  generalize inner.flatMap alphabet.casefold = folded
  -- the run behind the text adds at most a space
  have trailing : ∀ front : List Char, ∀ inside : Bool,
      strip (subRuns isSpace false (front ++
        subRuns (fun char => !alphabet.isWord char) inside after)) =
          strip (subRuns isSpace false front) := by
    intro front inside
    rcases subRuns_of_run inside (apart after ends) with nothing | space
    · rw [nothing, List.append_nil]
    · rw [space, collapse_append_space]
  rw [trailing, subRuns_append]
  -- the run in front of it too, and what follows begins inside of it
  by_cases none : before = []
  · rw [none]
    rfl
  · rw [endsInside_run false none (apart before spaces)]
    have first : strip (subRuns isSpace false (subRuns (fun char => !alphabet.isWord char) false
        before ++ subRuns (fun char => !alphabet.isWord char) true folded)) =
        strip (subRuns isSpace false
          (subRuns (fun char => !alphabet.isWord char) true folded)) := by
      rcases subRuns_of_run false (apart before spaces) with nothing | space
      · rw [nothing, List.nil_append]
      · rw [space, List.singleton_append, collapse_space_cons]
    rw [first]
    rcases subRuns_inside (fun char => !alphabet.isWord char) folded with same | further
    · rw [same]
    · rw [further, collapse_space_cons]

end CaracalDB.Text
