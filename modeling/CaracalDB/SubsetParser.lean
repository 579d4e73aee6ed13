import Mathlib.Tactic.IntervalCases
import CaracalDB.ByteText
import CaracalDB.Diagnostics

/-!
# The parser of the Rust core

It knows one statement, `MATCH (n:Class) RETURN column, column`. The keywords are looked
up in an upper-cased copy, and the places found there cut the text itself. They fit,
since upper case changes ASCII letters only; but the blank behind `MATCH` may be the
one in front of `RETURN`, and then the pattern between them has less than no characters.
-/

namespace CaracalDB.RustParser

open ByteText
open String (utf8Len)

/-! ## The parser -/

/-- How a call ends without an answer. -/
inductive Stop where
  | err (error : CaracalError)
  | panic
deriving DecidableEq, Repr

/-- `char::is_whitespace` -/
def isWhitespace (char : Char) : Bool :=
  let code := char.toNat
  (9 ≤ code && code ≤ 13) || code = 32 || code = 133 || code = 160 || code = 5760 ||
    (8192 ≤ code && code ≤ 8202) || code = 8232 || code = 8233 || code = 8239 ||
    code = 8287 || code = 12288

/-- `ParsedQuery` -/
structure ParsedQuery where
  kind : String
  class_name : List Char
  return_columns : List (List Char)
deriving DecidableEq

/-- `"MATCH "` -/
def MATCH : List Char := ['M', 'A', 'T', 'C', 'H', ' ']

/-- `" RETURN "` -/
def RETURN : List Char := [' ', 'R', 'E', 'T', 'U', 'R', 'N', ' ']

/-- `parser_error(code, message, text, span_start, span_end)`, which drops the code it is given. -/
def parserError (message : String) (span_start span_end : Nat) : CaracalError where
  code := "TF-2001"
  message := message ++ " at " ++ toString span_start ++ ".." ++ toString span_end
  hint := some "check the token near the highlighted span against the Tuft grammar"

/-- An answer, or the error in its place. -/
def orErr {Answer : Type} (answer : Option Answer) (error : CaracalError) : Except Stop Answer :=
  match answer with
  | some answer => .ok answer
  | none => .error (.err error)

/-- A slice of a text panics where it does not exist. -/
def sliced (part : Option (List Char)) : Except Stop (List Char) :=
  match part with
  | some part => .ok part
  | none => .error .panic

/-- `value.strip_prefix('(')` -/
def stripOpening : List Char → Option (List Char)
  | '(' :: value => some value
  | _ => none

/-- `value.strip_suffix(')')` -/
def stripClosing (value : List Char) : Option (List Char) :=
  if value.getLast? = some ')' then some value.dropLast else none

/-- The class between the first and the second colon of a node pattern. -/
def patternClass (pattern : List Char) : Option (List Char) := do
  let value ← stripOpening pattern
  let value ← stripClosing value
  let value ← (value.splitOn ':')[1]?
  let class_name := trim isWhitespace value
  if class_name = [] then none else some class_name

/-- The expressions between commas. -/
def returnColumns (text : List Char) : List (List Char) :=
  ((text.splitOn ',').map (trim isWhitespace)).filter (· ≠ [])

/-- `parse_tuft_subset(text)` -/
def parseTuftSubset (text : List Char) : Except Stop ParsedQuery := do
  let trimmed := trim isWhitespace text
  let upper := trimmed.map Char.toUpper
  if ¬ MATCH <+: upper then throw (.err (parserError "expected MATCH" 0 5))
  let return_pos ← orErr (find RETURN upper)
    (parserError "expected RETURN clause" (utf8Len trimmed) (utf8Len trimmed))
  let pattern := trim isWhitespace (← sliced (slice trimmed 6 return_pos))
  let class_name ← orErr (patternClass pattern)
    (parserError "expected node pattern with class" 6 return_pos)
  let return_columns := returnColumns (← sliced (sliceFrom trimmed (return_pos + 8)))
  if return_columns = [] then
    throw (.err (parserError "RETURN clause must contain at least one expression"
      (return_pos + 8) (utf8Len trimmed)))
  return { kind := "match_return", class_name, return_columns }

/-! ## What is promised -/

/-- A part of a text that is not empty and has no spaces around it. -/
structure Piece (part text : List Char) : Prop where
  filled : part ≠ []
  stands : part <:+: text
  begins : ∀ char, part.head? = some char → isWhitespace char = false
  ends : ∀ char, part.getLast? = some char → isWhitespace char = false

/-- A text around its first `RETURN`, in either case. -/
structure Around (text before keyword after : List Char) : Prop where
  split : text = before ++ (keyword ++ after)
  reads : keyword.map Char.toUpper = RETURN
  first : FirstAt RETURN (text.map Char.toUpper) before.length

/-- The call ends with an answer or an error, and what it answers stands before and behind
the first `RETURN` of the text. -/
structure Sound (text : List Char) : Prop where
  calm : parseTuftSubset text ≠ .error .panic
  pieces : ∀ parsed, parseTuftSubset text = .ok parsed →
    ∃ before keyword after, Around text before keyword after ∧
      Piece parsed.class_name before ∧ ∀ column ∈ parsed.return_columns, Piece column after

/-- `"MATCH RETURN "` -/
def MATCH_RETURN : List Char := ['M', 'A', 'T', 'C', 'H'] ++ RETURN

/-! ## The keywords -/

/-- A `RETURN` begins no earlier than with the blank behind `MATCH`. -/
theorem return_behind_match {upper : List Char} (starts : MATCH <+: upper) {index : Nat}
    (early : index < 5) : ¬ RETURN <+: upper.drop index := by
  obtain ⟨rest, rfl⟩ := starts
  interval_cases index <;> simp [MATCH, RETURN]

theorem return_at_five {upper : List Char} (starts : MATCH <+: upper) :
    RETURN <+: upper.drop 5 ↔ MATCH_RETURN <+: upper := by
  obtain ⟨rest, rfl⟩ := starts
  simp [MATCH, RETURN, MATCH_RETURN]

/-- The words between `MATCH` and `RETURN`, and the bytes at their ends. -/
structure Layout (trimmed : List Char) (return_pos : Nat) (head middle keyword after : List Char) :
    Prop where
  split : trimmed = head ++ (middle ++ (keyword ++ after))
  begin : utf8Len head = 6
  reads : keyword.map Char.toUpper = RETURN
  place : return_pos = utf8Len (head ++ middle)
  first : FirstAt RETURN (trimmed.map Char.toUpper) (head ++ middle).length

theorem utf8Len_upper {text word : List Char} (same : text.map Char.toUpper = word) :
    utf8Len text = utf8Len word := by
  rw [← same, utf8Len_map _ toUpper_size]

theorem layout {trimmed : List Char} {return_pos : Nat}
    (starts : MATCH <+: trimmed.map Char.toUpper)
    (apart : ¬ MATCH_RETURN <+: trimmed.map Char.toUpper)
    (found : find RETURN (trimmed.map Char.toUpper) = some return_pos) :
    ∃ head middle keyword after, Layout trimmed return_pos head middle keyword after := by
  obtain ⟨index, place, occurrence⟩ := find_eq_some found
  have late : 6 ≤ index := by
    by_contra short
    rcases Nat.lt_or_ge index 5 with early | reached
    · exact return_behind_match starts early occurrence.occurs
    · have five : index = 5 := by omega
      subst five
      exact apart ((return_at_five starts).mp occurrence.occurs)
  have inside : index + 8 ≤ trimmed.length := by
    have bounded := occurrence.bounded (by decide)
    rwa [List.length_map] at bounded
  have front : trimmed.take 6 ++ (trimmed.drop 6).take (index - 6) = trimmed.take index := by
    have parts : index = 6 + (index - 6) := by omega
    rw [← List.take_add, ← parts]
  have rear : (trimmed.drop index).take 8 ++ trimmed.drop (index + 8) = trimmed.drop index := by
    rw [← List.drop_drop, List.take_append_drop]
  refine ⟨trimmed.take 6, (trimmed.drop 6).take (index - 6), (trimmed.drop index).take 8,
    trimmed.drop (index + 8), ?_, ?_, ?_, ?_, ?_⟩
  · rw [← List.append_assoc, front, rear, List.take_append_drop]
  · have word : (trimmed.take 6).map Char.toUpper = MATCH := by
      rw [List.map_take]
      exact (List.prefix_iff_eq_take.mp starts).symm
    rw [utf8Len_upper word]
    decide
  · rw [List.map_take, List.map_drop]
    exact (List.prefix_iff_eq_take.mp occurrence.occurs).symm
  · rw [front, place, ← List.map_take, utf8Len_map _ toUpper_size]
  · rw [front, List.length_take_of_le (by omega)]
    exact occurrence

theorem Layout.slice {trimmed head middle keyword after : List Char} {return_pos : Nat}
    (layout : Layout trimmed return_pos head middle keyword after) :
    slice trimmed 6 return_pos = some middle := by
  rw [layout.split, layout.place, ← layout.begin]
  exact slice_append head middle (keyword ++ after)

theorem Layout.sliceFrom {trimmed head middle keyword after : List Char} {return_pos : Nat}
    (layout : Layout trimmed return_pos head middle keyword after) :
    sliceFrom trimmed (return_pos + 8) = some after := by
  have bytes : utf8Len keyword = 8 := utf8Len_upper layout.reads
  have place : return_pos + 8 = utf8Len (head ++ (middle ++ keyword)) := by
    rw [layout.place, ← List.append_assoc, String.utf8Len_append _ keyword, bytes]
  have joined : trimmed = head ++ (middle ++ keyword) ++ after := by
    rw [layout.split, List.append_assoc, List.append_assoc]
  rw [place, joined, sliceFrom_append]

/-! ## The spaces around the text -/

theorem upper_space {char : Char} (space : isWhitespace char = true) : char.toUpper = char := by
  delta Char.toUpper
  split
  · next lower =>
    have letters : 97 ≤ char.toNat ∧ char.toNat ≤ 122 := ⟨lower.1, lower.2⟩
    simp only [isWhitespace, Bool.or_eq_true, Bool.and_eq_true, decide_eq_true_eq] at space
    omega
  · rfl

/-- Spaces in front of the statement do not begin a `RETURN`, not even with its first letter
behind them. -/
theorem no_return_in_spaces {spaces upper : List Char} {index : Nat}
    (blank : ∀ char ∈ spaces, isWhitespace char = true) (starts : MATCH <+: upper)
    (inside : index < spaces.length) :
    ¬ RETURN <+: (spaces.map Char.toUpper ++ upper).drop index := by
  rintro ⟨rest, reads⟩
  have second : (spaces.map Char.toUpper ++ upper)[index + 1]? = some 'R' := by
    have letter := congrArg (fun text => text[1]?) reads.symm
    rw [List.getElem?_drop] at letter
    exact letter
  rcases Nat.lt_or_ge (index + 1) spaces.length with further | behind
  · rw [List.getElem?_append_left (by simpa using further), List.getElem?_map] at second
    obtain ⟨char, taken, letter⟩ := Option.map_eq_some_iff.mp second
    have space := blank char (List.mem_of_getElem? taken)
    rw [upper_space space] at letter
    rw [letter] at space
    cases space
  · obtain ⟨further, rfl⟩ := starts
    have edge : index + 1 = (spaces.map Char.toUpper).length := by
      rw [List.length_map]
      omega
    rw [edge, List.getElem?_append_right (Nat.le_refl _), Nat.sub_self] at second
    cases second

/-- The first `RETURN` of the statement is the first of the text around it. -/
theorem spaced_first {before trimmed after : List Char} {index : Nat}
    (blank : ∀ char ∈ before, isWhitespace char = true)
    (starts : MATCH <+: trimmed.map Char.toUpper)
    (occurrence : FirstAt RETURN (trimmed.map Char.toUpper) index) :
    FirstAt RETURN ((before ++ (trimmed ++ after)).map Char.toUpper) (before.length + index) := by
  have bounded := occurrence.bounded (by decide)
  rw [List.map_append, List.map_append]
  have behind : ∀ place, (before.map Char.toUpper ++
      (trimmed.map Char.toUpper ++ after.map Char.toUpper)).drop (before.length + place) =
        (trimmed.map Char.toUpper ++ after.map Char.toUpper).drop place := by
    intro place
    rw [← List.drop_drop]
    congr 1
    exact List.drop_left' (by rw [List.length_map])
  constructor
  · rw [behind, List.drop_append_of_le_length (by omega)]
    exact occurrence.occurs.trans (List.prefix_append _ _)
  · intro earlier less reads
    rcases Nat.lt_or_ge earlier before.length with inside | reached
    · exact no_return_in_spaces blank (starts.trans (List.prefix_append _ _)) inside reads
    · obtain ⟨place, rfl⟩ := Nat.exists_eq_add_of_le reached
      rw [behind, List.drop_append_of_le_length (by omega)] at reads
      apply occurrence.first place (by omega)
      apply List.prefix_of_prefix_length_le reads (List.prefix_append _ _)
      have size : RETURN.length = 8 := rfl
      rw [size] at bounded ⊢
      rw [List.length_drop]
      omega

/-! ## Pieces -/

theorem trimmed_piece {part text : List Char} (stands : part <:+: text)
    (filled : trim isWhitespace part ≠ []) : Piece (trim isWhitespace part) text where
  filled := filled
  stands := (trim_inside isWhitespace part).trans stands
  begins _ := trim_head isWhitespace
  ends _ := trim_last isWhitespace

theorem Piece.within {part text whole : List Char} (piece : Piece part text)
    (stands : text <:+: whole) : Piece part whole :=
  { piece with stands := piece.stands.trans stands }

theorem stripOpening_suffix {pattern value : List Char}
    (opens : stripOpening pattern = some value) : value <:+ pattern := by
  unfold stripOpening at opens
  split at opens
  · cases opens
    exact List.suffix_cons _ _
  · cases opens

theorem patternClass_piece {pattern class_name : List Char}
    (answers : patternClass pattern = some class_name) : Piece class_name pattern := by
  obtain ⟨opened, opens, answers⟩ := Option.bind_eq_some_iff.mp answers
  obtain ⟨closed, closes, answers⟩ := Option.bind_eq_some_iff.mp answers
  obtain ⟨part, second, answers⟩ := Option.bind_eq_some_iff.mp answers
  have within : opened <:+: pattern := (stripOpening_suffix opens).isInfix
  have inner : closed <:+: opened := by
    rw [stripClosing] at closes
    split at closes
    · cases closes
      exact (List.dropLast_prefix opened).isInfix
    · cases closes
  have piece : part <:+: closed := infix_of_mem_splitOn ':' closed part (List.mem_of_getElem? second)
  dsimp only at answers
  split at answers
  · cases answers
  · next filled =>
    cases answers
    exact trimmed_piece (piece.trans (inner.trans within)) filled

theorem returnColumns_piece {text column : List Char} (member : column ∈ returnColumns text) :
    Piece column text := by
  obtain ⟨found, filled⟩ := List.mem_filter.mp member
  obtain ⟨part, split, rfl⟩ := List.mem_map.mp found
  exact trimmed_piece (infix_of_mem_splitOn ',' text part split) (by simpa using filled)

/-! ## The parser on every text -/

/-- The blank behind `MATCH` in front of `RETURN` ends the slice of the pattern before it begins. -/
theorem parse_panics {text : List Char}
    (joined : MATCH_RETURN <+: (trim isWhitespace text).map Char.toUpper) :
    parseTuftSubset text = .error .panic := by
  have shorter : MATCH <+: MATCH_RETURN := by decide
  have starts : MATCH <+: (trim isWhitespace text).map Char.toUpper := shorter.trans joined
  have occurrence : FirstAt RETURN ((trim isWhitespace text).map Char.toUpper) 5 :=
    ⟨(return_at_five starts).mpr joined, fun earlier less => return_behind_match starts less⟩
  have word : ((trim isWhitespace text).map Char.toUpper).take 5 = ['M', 'A', 'T', 'C', 'H'] := by
    obtain ⟨rest, reads⟩ := starts
    rw [← reads]
    rfl
  have found := find_of_first occurrence
  have five : utf8Len ['M', 'A', 'T', 'C', 'H'] = 5 := by decide
  rw [word, five] at found
  simp only [parseTuftSubset, starts, not_true_eq_false, if_false, found, orErr, sliced]
  rfl

theorem parse_no_match {text : List Char}
    (other : ¬ MATCH <+: (trim isWhitespace text).map Char.toUpper) :
    parseTuftSubset text = .error (.err (parserError "expected MATCH" 0 5)) := by
  simp only [parseTuftSubset, other, not_false_eq_true, if_true]
  rfl

theorem parse_no_return {text : List Char}
    (starts : MATCH <+: (trim isWhitespace text).map Char.toUpper)
    (missing : find RETURN ((trim isWhitespace text).map Char.toUpper) = none) :
    parseTuftSubset text = .error (.err (parserError "expected RETURN clause"
      (utf8Len (trim isWhitespace text)) (utf8Len (trim isWhitespace text)))) := by
  simp only [parseTuftSubset, starts, not_true_eq_false, if_false, missing, orErr]
  rfl

/-- What is left of the parser once its slices are known to exist. -/
theorem parse_eq {text : List Char} {return_pos : Nat} {head middle keyword rest : List Char}
    (starts : MATCH <+: (trim isWhitespace text).map Char.toUpper)
    (found : find RETURN ((trim isWhitespace text).map Char.toUpper) = some return_pos)
    (cuts : Layout (trim isWhitespace text) return_pos head middle keyword rest) :
    parseTuftSubset text =
      match patternClass (trim isWhitespace middle) with
      | none => .error (.err (parserError "expected node pattern with class" 6 return_pos))
      | some class_name =>
          if returnColumns rest = [] then
            .error (.err (parserError "RETURN clause must contain at least one expression"
              (return_pos + 8) (utf8Len (trim isWhitespace text))))
          else
            .ok { kind := "match_return", class_name, return_columns := returnColumns rest } := by
  simp only [parseTuftSubset, starts, not_true_eq_false, if_false, found, orErr, sliced, bind,
    Except.bind, pure, Except.pure, cuts.slice, cuts.sliceFrom]
  cases patternClass (trim isWhitespace middle) with
  | none => rfl
  | some class_name =>
    dsimp only
    split <;> rfl

/-- Where a text is cut, the first `RETURN` of the whole text stands. -/
theorem Layout.around {text : List Char} {return_pos : Nat} {head middle keyword rest : List Char}
    (starts : MATCH <+: (trim isWhitespace text).map Char.toUpper)
    (cuts : Layout (trim isWhitespace text) return_pos head middle keyword rest) :
    ∃ before after, Around text before keyword after ∧ middle <:+: before ∧ rest <:+: after := by
  obtain ⟨front, back, split, blank, _⟩ := trim_split isWhitespace text
  refine ⟨front ++ (head ++ middle), rest ++ back, ⟨?_, cuts.reads, ?_⟩, ?_, ?_⟩
  · rw [cuts.split] at split
    rw [split]
    simp only [List.append_assoc]
  · rw [List.length_append, split]
    exact spaced_first blank starts cuts.first
  · exact ⟨front ++ head, [], by simp only [List.append_assoc, List.append_nil]⟩
  · exact (List.prefix_append rest back).isInfix

/-- A text that does not begin with both keywords is answered or refused. -/
theorem parse_calm {text : List Char}
    (apart : ¬ MATCH_RETURN <+: (trim isWhitespace text).map Char.toUpper) :
    parseTuftSubset text ≠ .error .panic := by
  by_cases starts : MATCH <+: (trim isWhitespace text).map Char.toUpper
  swap
  · rw [parse_no_match starts]
    simp
  cases found : find RETURN ((trim isWhitespace text).map Char.toUpper) with
  | none =>
    rw [parse_no_return starts found]
    simp
  | some return_pos =>
    obtain ⟨head, middle, keyword, rest, cuts⟩ := layout starts apart found
    rw [parse_eq starts found cuts]
    split
    · simp
    · split <;> simp

/-- What an answer says of the text. -/
theorem parse_answers {text : List Char} {parsed : ParsedQuery}
    (answers : parseTuftSubset text = .ok parsed) :
    ∃ before keyword after, Around text before keyword after ∧
      Piece parsed.class_name before ∧ ∀ column ∈ parsed.return_columns, Piece column after := by
  by_cases joined : MATCH_RETURN <+: (trim isWhitespace text).map Char.toUpper
  · rw [parse_panics joined] at answers
    cases answers
  by_cases starts : MATCH <+: (trim isWhitespace text).map Char.toUpper
  swap
  · rw [parse_no_match starts] at answers
    cases answers
  cases found : find RETURN ((trim isWhitespace text).map Char.toUpper) with
  | none =>
    rw [parse_no_return starts found] at answers
    cases answers
  | some return_pos =>
    obtain ⟨head, middle, keyword, rest, cuts⟩ := layout starts joined found
    obtain ⟨before, after, around, first, last⟩ := cuts.around starts
    rw [parse_eq starts found cuts] at answers
    split at answers
    · cases answers
    · next class_name named =>
      split at answers
      · cases answers
      · cases answers
        refine ⟨before, keyword, after, around, ?_, ?_⟩
        · exact (patternClass_piece named).within ((trim_inside isWhitespace middle).trans first)
        · intro column member
          exact (returnColumns_piece member).within last

/-- The parser keeps its promise except on texts that begin with `MATCH RETURN`. -/
theorem parse_tuft_subset_sound_iff (text : List Char) :
    Sound text ↔ ¬ MATCH_RETURN <+: (trim isWhitespace text).map Char.toUpper := by
  constructor
  · intro sound joined
    exact sound.calm (parse_panics joined)
  · intro apart
    exact ⟨parse_calm apart, fun parsed answers => parse_answers answers⟩

theorem match_return_panics :
    ¬ Sound ['M', 'A', 'T', 'C', 'H', ' ', 'R', 'E', 'T', 'U', 'R', 'N', ' ', 'x'] := by
  intro sound
  exact sound.calm (by decide)

end CaracalDB.RustParser
