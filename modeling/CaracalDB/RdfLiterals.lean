import CaracalDB.RdfLowering
import CaracalDB.Resources

/-!
# Literals of N-Triples

A line is matched against one pattern, and the text between the quotes of a literal is decoded by
five replacements, one after the other. The first of them puts single backslashes in the place of
double ones, and the later ones cannot tell these from the backslashes of escapes.
-/

namespace CaracalDB.Rdf

/-! ## Replacements -/

/-- `text.replace(pattern, new)` of a pattern of two characters by one. -/
def replacePair (first second new : Char) : List Char → List Char
  | left :: right :: rest =>
      if left = first ∧ right = second then new :: replacePair first second new rest
      else left :: replacePair first second new (right :: rest)
  | [char] => [char]
  | [] => []

section Replacements

variable {first second new : Char}

theorem replacePair_hit (rest : List Char) :
    replacePair first second new (first :: second :: rest) =
      new :: replacePair first second new rest := by
  simp [replacePair]

/-- A character that does not begin the pattern is kept. -/
theorem replacePair_other {char : Char} (other : char ≠ first) (rest : List Char) :
    replacePair first second new (char :: rest) = char :: replacePair first second new rest := by
  cases rest with
  | nil => rfl
  | cons next rest => simp [replacePair, other]

/-- A character that the pattern does not continue is kept. -/
theorem replacePair_alone {char : Char} {rest : List Char} (apart : rest.head? ≠ some second) :
    replacePair first second new (char :: rest) = char :: replacePair first second new rest := by
  cases rest with
  | nil => rfl
  | cons next rest =>
    have other : next ≠ second := fun same => apart (congrArg some same)
    simp [replacePair, other]

theorem replacePair_length_le (first second new : Char) (text : List Char) :
    (replacePair first second new text).length ≤ text.length := by
  fun_induction replacePair first second new text with
  | case1 left right rest hit inductionHypothesis =>
    simp only [List.length_cons]
    omega
  | case2 left right rest miss inductionHypothesis =>
    simp only [List.length_cons] at inductionHypothesis ⊢
    omega
  | case3 char => exact le_refl _
  | case4 => exact le_refl _

/-- A text in which the pattern does not occur stays, and every other one gets shorter. -/
theorem replacePair_self_or (first second new : Char) (text : List Char) :
    (¬ [first, second] <:+: text ∧ replacePair first second new text = text) ∨
      ([first, second] <:+: text ∧ (replacePair first second new text).length < text.length) := by
  fun_induction replacePair first second new text with
  | case1 left right rest hit inductionHypothesis =>
    obtain ⟨rfl, rfl⟩ := hit
    have shorter := replacePair_length_le left right new rest
    right
    refine ⟨⟨[], rest, rfl⟩, ?_⟩
    simp only [List.length_cons]
    omega
  | case2 left right rest miss inductionHypothesis =>
    have split : [first, second] <:+: left :: right :: rest ↔
        [first, second] <:+: right :: rest := by
      rw [List.infix_cons_iff, List.cons_prefix_cons, List.cons_prefix_cons]
      refine or_iff_right ?_
      rintro ⟨rfl, rfl, _⟩
      exact miss ⟨rfl, rfl⟩
    rw [split]
    refine inductionHypothesis.imp ?_ ?_
    · rintro ⟨absent, kept⟩
      exact ⟨absent, congrArg _ kept⟩
    · rintro ⟨occurs, shorter⟩
      exact ⟨occurs, Nat.succ_lt_succ shorter⟩
  | case3 char =>
    left
    refine ⟨fun occurs => ?_, rfl⟩
    have long := occurs.length_le
    simp at long
  | case4 =>
    left
    refine ⟨fun occurs => ?_, rfl⟩
    have long := occurs.length_le
    simp at long

end Replacements

/-! ## Literals -/

/-- `raw.replace(...)`, five times: the text that an escaped text stands for. -/
def unescape (raw : List Char) : List Char :=
  let raw := replacePair '\\' '\\' '\\' raw
  let raw := replacePair '\\' '"' '"' raw
  let raw := replacePair '\\' 'n' '\n' raw
  let raw := replacePair '\\' 't' '\t' raw
  replacePair '\\' 'r' '\r' raw

/-- `(?:[^"\\]|\\.)*"`: the text up to a quote that is not escaped, and what is behind the quote. -/
def literalBody : List Char → Option (List Char × List Char)
  | [] => none
  | '"' :: rest => some ([], rest)
  | ['\\'] => none
  | '\\' :: char :: rest =>
      if char = '\n' then none
      else (literalBody rest).map fun (value, behind) => ('\\' :: char :: value, behind)
  | char :: rest => (literalBody rest).map fun (value, behind) => (char :: value, behind)

/-- `<[^>]+>`: the text between the angles, and what is behind them. -/
def angled : List Char → Option (List Char × List Char)
  | '<' :: rest =>
      match rest.dropWhile (· ≠ '>') with
      | '>' :: behind =>
          let iri := rest.takeWhile (· ≠ '>')
          if iri = [] then none else some (iri, behind)
      | _ => none
  | _ => none

def isTag (char : Char) : Bool := ('A' ≤ char && char ≤ 'Z') || ('a' ≤ char && char ≤ 'z') || char = '-'

/-- `(?:@[A-Za-z\-]+|\^\^<[^>]+>)?`: what is behind the decoration of a literal. -/
def behindDecoration (text : List Char) : List Char :=
  match text with
  | '@' :: rest => if rest.takeWhile isTag = [] then text else rest.dropWhile isTag
  | '^' :: '^' :: rest => (angled rest).elim text Prod.snd
  | _ => text

/-- `_decode_literal(token)`; the end of a pattern also matches before a last newline. -/
def decodeLiteral (token : List Char) : Option (List Char) :=
  match token with
  | '"' :: rest =>
      match literalBody rest with
      | some (value, behind) =>
          if behindDecoration behind = [] ∨ behindDecoration behind = ['\n'] then some (unescape value)
          else none
      | none => none
  | _ => none

/-! ## Lines -/

inductive NodeToken where
  | iri (text : List Char)
  | blank (text : List Char)
deriving DecidableEq

inductive ObjectToken where
  | node (token : NodeToken)
  | literal (token : List Char)
deriving DecidableEq

def isLabel (char : Char) : Bool :=
  ('A' ≤ char && char ≤ 'Z') || ('a' ≤ char && char ≤ 'z') || ('0' ≤ char && char ≤ '9') || char = '_'

/-- `<[^>]+>|_:[A-Za-z0-9_]+` at the front of a text. -/
def nodeToken (text : List Char) : Option (NodeToken × List Char) :=
  match text with
  | '_' :: ':' :: rest =>
      if rest.takeWhile isLabel = [] then none
      else some (.blank ('_' :: ':' :: rest.takeWhile isLabel), rest.dropWhile isLabel)
  | _ => (angled text).map fun (iri, behind) => (.iri iri, behind)

/-- The object of a triple at the front of a text. -/
def objectToken (text : List Char) : Option (ObjectToken × List Char) :=
  match text with
  | '"' :: rest =>
      (literalBody rest).map fun (_, behind) =>
        (.literal (text.take (text.length - (behindDecoration behind).length)), behindDecoration behind)
  | _ => (nodeToken text).map fun (token, behind) => (.node token, behind)

/-- `\s+` at the front of a text. -/
def spaces : List Char → Option (List Char)
  | [] => none
  | char :: rest => if isSpace char then some (rest.dropWhile isSpace) else none

/-- `_TRIPLE_RE.match(line)`: the subject, the predicate and the object. -/
def matchTriple (line : List Char) : Option (NodeToken × List Char × ObjectToken) := do
  let (subj, line) ← nodeToken (line.dropWhile isSpace)
  let line ← spaces line
  let (pred, line) ← angled line
  let line ← spaces line
  let (obj, line) ← objectToken line
  match line.dropWhile isSpace with
  | '.' :: rest => if rest.all isSpace then some (subj, pred, obj) else none
  | _ => none

/-- One line of `parse_ntriples(lines)`: what it yields, if it yields anything. -/
def parseLine (line_no : Nat) (raw : List Char) : Except Raised (Option (Nat × Triple)) :=
  let line := strip raw
  if line = [] ∨ line.head? = some '#' then .ok none
  else
    match matchTriple line with
    | none =>
        .error (.caracal
          { code := "CDB-7050"
            message := "line " ++ toString line_no ++ ": not a valid N-Triples line"
            hint := some "re-serialise with rapper / riot in ntriples mode" })
    | some (.blank _, _, _) => .ok none
    | some (.iri _, _, .node (.blank _)) => .ok none
    | some (.iri subj, pred, .node (.iri obj)) =>
        .ok (some (line_no, { subj := String.ofList subj, pred := String.ofList pred
                              obj := String.ofList obj, is_iri := true }))
    | some (.iri subj, pred, .literal token) =>
        match decodeLiteral token with
        | some literal =>
            .ok (some (line_no, { subj := String.ofList subj, pred := String.ofList pred
                                  obj := String.ofList literal, is_iri := false }))
        | none =>
            raiseCaracal "CDB-7050" ("line " ++ toString line_no ++ ": malformed literal " ++
              Value.quoted (String.ofList token))

/-- `parse_ntriples(lines)`, drained. -/
def parseNtriples (lines : List (List Char)) : Except Raised (List (Nat × Triple)) := do
  let parsed ← lines.zipIdx.mapM fun (raw, index) => parseLine (index + 1) raw
  return parsed.filterMap id

/-! ## Escapes -/

/-- A text in which every marked character is its letter behind a backslash. -/
def escapeWith (marks : List (Char × Char)) (text : List Char) : List Char :=
  text.flatMap fun char => (marks.lookup char).elim [char] fun letter => ['\\', letter]

/-- The characters that are escaped, in the order in which the decoder looks for them. -/
def escaped : List (Char × Char) :=
  [('\\', '\\'), ('"', '"'), ('\n', 'n'), ('\t', 't'), ('\r', 'r')]

/-- The literal of a text. -/
def literalToken (text : List Char) : List Char := '"' :: (escapeWith escaped text ++ ['"'])

section Escapes

variable {marks : List (Char × Char)} {char letter : Char}

theorem escapeWith_cons (marks : List (Char × Char)) (char : Char) (text : List Char) :
    escapeWith marks (char :: text) =
      (marks.lookup char).elim [char] (fun letter => ['\\', letter]) ++ escapeWith marks text :=
  List.flatMap_cons

theorem escapeWith_marked {text : List Char} (marked : marks.lookup char = some letter) :
    escapeWith marks (char :: text) = '\\' :: letter :: escapeWith marks text := by
  rw [escapeWith_cons, marked]
  rfl

theorem escapeWith_plain {text : List Char} (plain : marks.lookup char = none) :
    escapeWith marks (char :: text) = char :: escapeWith marks text := by
  rw [escapeWith_cons, plain]
  rfl

theorem escapeWith_nil (text : List Char) : escapeWith [] text = text := by
  induction text with
  | nil => rfl
  | cons char text inductionHypothesis => rw [escapeWith_plain rfl, inductionHypothesis]

/-- An escaped text begins with a backslash or with a character that is not marked. -/
theorem head_escapeWith {text : List Char} (begins : (escapeWith marks text).head? = some char) :
    char = '\\' ∨ text.head? = some char ∧ marks.lookup char = none := by
  cases text with
  | nil => cases begins
  | cons first text =>
    cases found : marks.lookup first with
    | some letter =>
      rw [escapeWith_marked found] at begins
      cases begins
      left
      rfl
    | none =>
      rw [escapeWith_plain found] at begins
      cases begins
      right
      exact ⟨rfl, found⟩

theorem lookup_self (char letter : Char) (marks : List (Char × Char)) :
    ((char, letter) :: marks).lookup char = some letter := by
  simp

theorem lookup_other (letter : Char) (marks : List (Char × Char)) {other : Char} (apart : other ≠ char) :
    ((char, letter) :: marks).lookup other = marks.lookup other := by
  simp [List.lookup_cons, beq_false_of_ne apart]

/-- What the replacement of a letter needs of the marks that are left to the later ones: the backslash
is none of them, and their letters are neither backslashes nor that letter. -/
structure Later (marks : List (Char × Char)) (letter : Char) : Prop where
  bare : marks.lookup '\\' = none
  slash : ∀ char other, marks.lookup char = some other → other ≠ '\\'
  apart : ∀ char other, marks.lookup char = some other → other ≠ letter

/-- The escape of a later mark is kept. -/
theorem Later.kept (later : Later marks letter) {marked other : Char}
    (found : marks.lookup marked = some other) (text : List Char) :
    replacePair '\\' letter char ('\\' :: other :: text) =
      '\\' :: other :: replacePair '\\' letter char text := by
  have apart : (other :: text).head? ≠ some letter := fun same =>
    later.apart marked other found (Option.some.inj same)
  rw [replacePair_alone apart, replacePair_other (later.slash marked other found)]

/-- Replacing the escapes of a character that stands for itself leaves the escapes of the others. -/
theorem replacePair_itself (later : Later marks char) (fresh : marks.lookup char = none)
    (text : List Char) :
    replacePair '\\' char char (escapeWith ((char, char) :: marks) text) = escapeWith marks text := by
  induction text with
  | nil => rfl
  | cons first text inductionHypothesis =>
    by_cases same : first = char
    · subst same
      rw [escapeWith_marked (lookup_self _ _ _), replacePair_hit, inductionHypothesis,
        escapeWith_plain fresh]
    · have lookup := lookup_other char marks same
      cases found : marks.lookup first with
      | some other =>
        rw [escapeWith_marked (lookup.trans found), escapeWith_marked found, later.kept found,
          inductionHypothesis]
      | none =>
        rw [escapeWith_plain (lookup.trans found), escapeWith_plain found]
        by_cases slash : first = '\\'
        · subst slash
          rw [replacePair_alone, inductionHypothesis]
          intro begins
          rcases head_escapeWith begins with isSlash | ⟨_, unmarked⟩
          · exact same isSlash.symm
          · rw [lookup_self] at unmarked
            cases unmarked
        · rw [replacePair_other slash, inductionHypothesis]

/-- Replacing the escapes of a character is the same as replacing what looks like them before. -/
theorem replacePair_letter (later : Later marks letter) (fresh : marks.lookup char = none)
    (plain : marks.lookup letter = none) (apart : letter ≠ char) (bare : char ≠ '\\')
    (slash : letter ≠ '\\') (text : List Char) :
    replacePair '\\' letter char (escapeWith ((char, letter) :: marks) text) =
      escapeWith marks (replacePair '\\' letter char text) := by
  have slashed : ((char, letter) :: marks).lookup '\\' = none :=
    (lookup_other _ _ bare.symm).trans later.bare
  have lettered : ((char, letter) :: marks).lookup letter = none := (lookup_other _ _ apart).trans plain
  -- a character that does not begin the pattern, in front of a text for which the equation holds
  have step (first : Char) (text rest : List Char) (equal :
      replacePair '\\' letter char (escapeWith ((char, letter) :: marks) text) = escapeWith marks rest)
      (miss : first = '\\' → text.head? ≠ some letter) :
      replacePair '\\' letter char (escapeWith ((char, letter) :: marks) (first :: text)) =
        escapeWith marks (first :: rest) := by
    by_cases same : first = char
    · subst same
      rw [escapeWith_marked (lookup_self _ _ _), replacePair_hit, equal, escapeWith_plain fresh]
    · have lookup := lookup_other letter marks same
      cases found : marks.lookup first with
      | some other =>
        rw [escapeWith_marked (lookup.trans found), escapeWith_marked found, later.kept found, equal]
      | none =>
        rw [escapeWith_plain (lookup.trans found), escapeWith_plain found]
        by_cases isSlash : first = '\\'
        · rw [replacePair_alone, equal]
          intro begins
          rcases head_escapeWith begins with other | ⟨continues, _⟩
          · exact slash other
          · exact miss isSlash continues
        · rw [replacePair_other isSlash, equal]
  fun_induction replacePair '\\' letter char text with
  | case1 left right text hit inductionHypothesis =>
    obtain ⟨rfl, rfl⟩ := hit
    rw [escapeWith_plain slashed, escapeWith_plain lettered, replacePair_hit, inductionHypothesis,
      escapeWith_plain fresh]
  | case2 left right text miss inductionHypothesis =>
    refine step left (right :: text) _ inductionHypothesis ?_
    rintro rfl continues
    exact miss ⟨rfl, Option.some.inj continues⟩
  | case3 first => exact step first [] [] rfl fun _ => nofun
  | case4 => rfl

end Escapes

/-- Decoding what was escaped makes the last three replacements on the text itself. -/
theorem unescape_escaped (text : List Char) :
    unescape (escapeWith escaped text) =
      replacePair '\\' 'r' '\r' (replacePair '\\' 't' '\t' (replacePair '\\' 'n' '\n' text)) := by
  have later (marks : List (Char × Char)) (letter : Char) (bare : marks.lookup '\\' = none)
      (all : ∀ mark ∈ marks, mark.2 ≠ '\\' ∧ mark.2 ≠ letter) : Later marks letter := by
    have listed {char other : Char} (found : marks.lookup char = some other) :
        (char, other) ∈ marks := by
      obtain ⟨before, behind, split, _⟩ := List.lookup_eq_some_iff.mp found
      rw [split]
      exact List.mem_append_right _ List.mem_cons_self
    exact ⟨bare, fun char other found => (all _ (listed found)).1,
      fun char other found => (all _ (listed found)).2⟩
  rw [unescape, escaped]
  rw [replacePair_itself (later _ _ (by decide) (by decide)) (by decide)]
  rw [replacePair_itself (later _ _ (by decide) (by decide)) (by decide)]
  rw [replacePair_letter (later _ _ (by decide) (by decide)) (by decide) (by decide) (by decide)
    (by decide) (by decide)]
  rw [replacePair_letter (later _ _ (by decide) (by decide)) (by decide) (by decide) (by decide)
    (by decide) (by decide)]
  rw [replacePair_letter (later _ _ (by decide) (by decide)) (by decide) (by decide) (by decide)
    (by decide) (by decide), escapeWith_nil]

/-- Does a text have a backslash directly in front of an `n`, a `t` or an `r`? -/
def LooksEscaped (text : List Char) : Prop :=
  ['\\', 'n'] <:+: text ∨ ['\\', 't'] <:+: text ∨ ['\\', 'r'] <:+: text

instance (text : List Char) : Decidable (LooksEscaped text) :=
  inferInstanceAs (Decidable (_ ∨ _ ∨ _))

theorem unescape_eq_iff (text : List Char) :
    unescape (escapeWith escaped text) = text ↔ ¬ LooksEscaped text := by
  rw [unescape_escaped, LooksEscaped]
  have lengthT := replacePair_length_le '\\' 't' '\t'
    (replacePair '\\' 'n' '\n' text)
  have lengthR := replacePair_length_le '\\' 'r' '\r'
    (replacePair '\\' 't' '\t' (replacePair '\\' 'n' '\n' text))
  have differs {result : List Char} (shorter : result.length < text.length) : result ≠ text :=
    fun same => absurd (congrArg List.length same) shorter.ne
  rcases replacePair_self_or '\\' 'n' '\n' text with
    ⟨noN, keptN⟩ | ⟨someN, shorter⟩
  · rw [keptN] at lengthT lengthR ⊢
    rcases replacePair_self_or '\\' 't' '\t' text with
      ⟨noT, keptT⟩ | ⟨someT, shorter⟩
    · rw [keptT] at lengthR ⊢
      rcases replacePair_self_or '\\' 'r' '\r' text with
        ⟨noR, keptR⟩ | ⟨someR, shorter⟩
      · rw [keptR]
        simp [noN, noT, noR]
      · simp [differs shorter, someR]
    · simp [differs (lt_of_le_of_lt lengthR shorter), someT]
  · simp [differs (lt_of_le_of_lt (lengthR.trans lengthT) shorter), someN]

/-! ## Round trips -/

/-- Every character that is no quote and no backslash belongs to the literal. -/
theorem literalBody_other {char : Char} (quote : char ≠ '"') (slash : char ≠ '\\') (rest : List Char) :
    literalBody (char :: rest) =
      (literalBody rest).map fun (value, behind) => (char :: value, behind) := by
  rw [literalBody]
  · exact quote
  · rintro rfl
    exact absurd rfl slash
  · rintro _ _ rfl
    exact absurd rfl slash

/-- The pattern finds the end of an escaped text. -/
theorem literalBody_escaped (text behind : List Char) :
    literalBody (escapeWith escaped text ++ '"' :: behind) =
      some (escapeWith escaped text, behind) := by
  induction text with
  | nil => rfl
  | cons first text inductionHypothesis =>
    cases found : escaped.lookup first with
    | some letter =>
      have visible : letter ≠ '\n' := by
        obtain ⟨before, after, split, _⟩ := List.lookup_eq_some_iff.mp found
        have listed : (first, letter) ∈ escaped := by
          rw [split]
          exact List.mem_append_right _ List.mem_cons_self
        exact (show ∀ mark ∈ escaped, mark.2 ≠ '\n' by decide) _ listed
      rw [escapeWith_marked found, List.cons_append, List.cons_append, literalBody, if_neg visible,
        inductionHypothesis]
      rfl
    | none =>
      have quote : first ≠ '"' := by
        rintro rfl
        cases found
      have slash : first ≠ '\\' := by
        rintro rfl
        cases found
      rw [escapeWith_plain found, List.cons_append, literalBody_other quote slash,
        inductionHypothesis]
      rfl

/-- A literal decodes to the replacements of what is between its quotes. -/
theorem decodeLiteral_token (text : List Char) :
    decodeLiteral (literalToken text) = some (unescape (escapeWith escaped text)) := by
  have body := literalBody_escaped text []
  unfold literalToken decodeLiteral
  simp only [body]
  rfl

/-- An IRI that stands between angles. -/
def IsIri (iri : List Char) : Prop := iri ≠ [] ∧ '>' ∉ iri

/-- A line with a literal. -/
def statement (subj pred literal : List Char) : List Char :=
  '<' :: (subj ++ '>' :: ' ' :: '<' :: (pred ++ '>' :: ' ' :: (literal ++ [' ', '.'])))

theorem angled_iri {iri : List Char} (formed : IsIri iri) (behind : List Char) :
    angled ('<' :: (iri ++ '>' :: behind)) = some (iri, behind) := by
  have free : ∀ char ∈ iri, decide (char ≠ '>') = true := fun char member =>
    decide_eq_true fun same => formed.2 (same ▸ member)
  have taken : (iri ++ '>' :: behind).takeWhile (· ≠ '>') = iri := by
    rw [List.takeWhile_append_of_pos free]
    simp
  have dropped : (iri ++ '>' :: behind).dropWhile (· ≠ '>') = '>' :: behind := by
    rw [List.dropWhile_append_of_pos free]
    simp
  rw [angled]
  simp only [dropped, taken, if_neg formed.1]

/-- The object of a line is the literal. -/
theorem objectToken_literal (text : List Char) :
    objectToken (literalToken text ++ [' ', '.']) = some (.literal (literalToken text), [' ', '.']) := by
  have body := literalBody_escaped text [' ', '.']
  have whole : literalToken text ++ [' ', '.'] =
      '"' :: (escapeWith escaped text ++ '"' :: [' ', '.']) := by
    rw [literalToken, List.cons_append, List.append_assoc]
    rfl
  have plain : behindDecoration [' ', '.'] = [' ', '.'] := rfl
  have front : ('"' :: (escapeWith escaped text ++ '"' :: [' ', '.'])).take
      (('"' :: (escapeWith escaped text ++ '"' :: [' ', '.'])).length - [' ', '.'].length) =
        literalToken text := by
    rw [← whole, List.length_append, Nat.add_sub_cancel, List.take_left']
    rfl
  rw [whole, objectToken]
  simp only [body, Option.map_some, plain, front]

theorem matchTriple_statement {subj pred : List Char} (subject : IsIri subj) (predicate : IsIri pred)
    (text : List Char) :
    matchTriple (statement subj pred (literalToken text)) =
      some (.iri subj, pred, .literal (literalToken text)) := by
  have first : nodeToken (statement subj pred (literalToken text)) = some (.iri subj,
      ' ' :: '<' :: (pred ++ '>' :: ' ' :: (literalToken text ++ [' ', '.']))) := by
    rw [nodeToken, statement, angled_iri subject]
    · rfl
    · nofun
  have begins : (statement subj pred (literalToken text)).dropWhile isSpace =
      statement subj pred (literalToken text) := List.dropWhile_cons_of_neg (by decide)
  have spaced (char : Char) (visible : ¬ isSpace char = true) (rest : List Char) :
      spaces (' ' :: char :: rest) = some (char :: rest) := by
    have space : isSpace ' ' = true := by decide
    rw [spaces, if_pos space, List.dropWhile_cons_of_neg visible]
  have quoted : literalToken text ++ [' ', '.'] =
      '"' :: (escapeWith escaped text ++ ['"'] ++ [' ', '.']) := rfl
  rw [matchTriple, begins, first]
  simp only [Option.bind_eq_bind, Option.bind_some]
  rw [spaced '<' (by decide), Option.bind_some, angled_iri predicate, Option.bind_some, quoted,
    spaced '"' (by decide), Option.bind_some, ← quoted, objectToken_literal]
  rfl

theorem strip_statement (subj pred text : List Char) :
    strip (statement subj pred (literalToken text)) = statement subj pred (literalToken text) := by
  have begins : (statement subj pred (literalToken text)).dropWhile isSpace =
      statement subj pred (literalToken text) := List.dropWhile_cons_of_neg (by decide)
  have ends : ∃ front, statement subj pred (literalToken text) = front ++ ['.'] :=
    ⟨'<' :: (subj ++ '>' :: ' ' :: '<' :: (pred ++ '>' :: ' ' :: (literalToken text ++ [' ']))),
      by simp [statement]⟩
  obtain ⟨front, split⟩ := ends
  rw [strip, begins, split, List.reverse_append, List.reverse_singleton, List.singleton_append,
    List.dropWhile_cons_of_neg (by decide), List.reverse_cons, List.reverse_reverse]

/-- A line with the literal of a text yields the decoded text. -/
theorem parseNtriples_literal {subj pred : List Char} (subject : IsIri subj) (predicate : IsIri pred)
    (text : List Char) :
    parseNtriples [statement subj pred (literalToken text)] =
      .ok [(1, { subj := String.ofList subj, pred := String.ofList pred
                 obj := String.ofList (unescape (escapeWith escaped text)), is_iri := false })] := by
  have filled : ¬ (statement subj pred (literalToken text) = [] ∨
      (statement subj pred (literalToken text)).head? = some '#') := by
    rintro (empty | comment)
    · cases empty
    · cases comment
  have line : parseLine 1 (statement subj pred (literalToken text)) =
      .ok (some (1, { subj := String.ofList subj, pred := String.ofList pred
                      obj := String.ofList (unescape (escapeWith escaped text)), is_iri := false })) := by
    rw [parseLine]
    simp only [strip_statement, if_neg filled, matchTriple_statement subject predicate,
      decodeLiteral_token]
  rw [parseNtriples, List.zipIdx_singleton, List.mapM_cons, List.mapM_nil]
  simp only [Nat.zero_add, line]
  rfl

/-- Escaping a text and decoding the literal gives the text back, in the decoder and in a parsed line,
exactly if the text has no backslash directly in front of an `n`, a `t` or an `r`. -/
theorem literal_round_trip (text : List Char) :
    (decodeLiteral (literalToken text) = some text ∧
      ∀ subj pred, IsIri subj → IsIri pred →
        parseNtriples [statement subj pred (literalToken text)] =
          .ok [(1, { subj := String.ofList subj, pred := String.ofList pred
                     obj := String.ofList text, is_iri := false })]) ↔
      ¬ LooksEscaped text := by
  rw [decodeLiteral_token, Option.some_inj, ← unescape_eq_iff]
  constructor
  · exact fun both => both.1
  · intro same
    refine ⟨same, fun subj pred subject predicate => ?_⟩
    rw [parseNtriples_literal subject predicate, same]

/-- The name of a directory comes back with a line break in it. -/
theorem directory_broken :
    literalToken "C:\\new".toList = "\"C:\\\\new\"".toList ∧
      decodeLiteral (literalToken "C:\\new".toList) = some "C:\new".toList ∧
      decodeLiteral (literalToken "C:\\new".toList) ≠ some "C:\\new".toList := by
  decide

end CaracalDB.Rdf
