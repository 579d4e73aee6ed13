import Mathlib.Data.List.Infix
import Mathlib.Data.List.TakeWhile
import Mathlib.Data.Nat.Digits.Defs
import Mathlib.Tactic.Linarith

/-!
# Literals of Python

How Python reads the text of a string literal without a prefix, and the text of an
integer in base 0. A text is a list of code points, surrogates included. It is read in
three passes: line ends become line feeds, the end of the literal is looked for with
every backslash taken together with the character behind it, and then the escapes are
replaced. A text that is no such literal raises an exception of one kind or another.
-/

namespace CaracalDB.PyLiteral

abbrev CodePoint : Type := Fin 0x110000

instance neZero_codePoints : NeZero 0x110000 := ⟨by decide⟩

abbrev Text : Type := List CodePoint

def LF : CodePoint := 10

def CR : CodePoint := 13

def BACKSLASH : CodePoint := 92

/-- `"'"` and `'"'` -/
def QUOTES : List CodePoint := [34, 39]

/-- A source has no null characters, and only what UTF-8 can encode. -/
def encodable (char : CodePoint) : Bool :=
  char.val ≠ 0 && !(0xD800 ≤ char.val && char.val ≤ 0xDFFF)

/-! ## Lines -/

/-- The text with each line end as a line feed; `skip` behind a carriage return. -/
def newlines (skip : Bool) : Text → Text
  | [] => []
  | char :: text =>
      if skip ∧ char = LF then newlines false text
      else if char = CR then LF :: newlines true text
      else char :: newlines false text

/-- What stands before the closing quotes, if the literal ends with the text. A backslash hides the
character behind it, and a line break ends a literal that has to stand on one line. -/
def scan (closing : Text) (multiline : Bool) : Text → Option Text
  | [] => none
  | char :: text =>
      if closing <+: char :: text then
        if char :: text = closing then some [] else none
      else if char = BACKSLASH then
        match text with
        | [] => none
        | hidden :: text => (scan closing multiline text).map fun body => char :: hidden :: body
      else if char = LF ∧ multiline = false then none
      else (scan closing multiline text).map fun body => char :: body

/-! ## Escapes -/

/-- The value of a hexadecimal digit. -/
def hexDigit (char : CodePoint) : Option Nat :=
  if 48 ≤ char.val ∧ char.val ≤ 57 then some (char.val - 48)
  else if 65 ≤ char.val ∧ char.val ≤ 70 then some (char.val - 55)
  else if 97 ≤ char.val ∧ char.val ≤ 102 then some (char.val - 87)
  else none

def isOctal (char : CodePoint) : Bool := 48 ≤ char.val && char.val ≤ 55

/-- The number that digits stand for. -/
def number (base : Nat) (digits : List Nat) : Nat :=
  digits.foldl (fun read digit => read * base + digit) 0

def codePoint (value : Nat) : Option CodePoint :=
  if bounded : value < 0x110000 then some ⟨value, bounded⟩ else none

/-- An escape of this many hexadecimal digits. -/
def hexEscape (width : Nat) (text : Text) : Option (Text × Text) := do
  let digits ← (text.take width).mapM hexDigit
  if digits.length < width then none
  else do
    let char ← codePoint (number 16 digits)
    return ([char], text.drop width)

/-- `\N` and a name in braces. -/
def namedEscape (names : Text → Option CodePoint) : Text → Option (Text × Text)
  | [] => none
  | opening :: text =>
      if opening.val ≠ 123 then none
      else
        match text.dropWhile (·.val ≠ 125) with
        | [] => none
        | _ :: behind =>
            let name := text.takeWhile (·.val ≠ 125)
            if name = [] then none
            else (names name).map fun char => ([char], behind)

/-- The characters that escapes of one letter stand for. -/
def simpleEscape (char : CodePoint) : Option CodePoint :=
  if char.val = 92 ∨ char.val = 39 ∨ char.val = 34 then some char
  else if char.val = 97 then some 7
  else if char.val = 98 then some 8
  else if char.val = 102 then some 12
  else if char.val = 110 then some 10
  else if char.val = 114 then some 13
  else if char.val = 116 then some 9
  else if char.val = 118 then some 11
  else none

/-- One escape behind its backslash: what it stands for, and the text behind it. An unknown one
stands for itself. -/
def escape (names : Text → Option CodePoint) : Text → Option (Text × Text)
  | [] => none
  | char :: text =>
      if char = LF then some ([], text)
      else match simpleEscape char with
      | some meant => some ([meant], text)
      | none =>
          if isOctal char then
            let digits := (text.take 2).takeWhile isOctal
            (codePoint (number 8 ((char :: digits).map fun digit => digit.val - 48))).map
              fun char => ([char], text.drop digits.length)
          else if char.val = 120 then hexEscape 2 text
          else if char.val = 117 then hexEscape 4 text
          else if char.val = 85 then hexEscape 8 text
          else if char.val = 78 then namedEscape names text
          else some ([BACKSLASH, char], text)

theorem hexEscape_shorter {width : Nat} {text made rest : Text}
    (read : hexEscape width text = some (made, rest)) : rest.length ≤ text.length := by
  obtain ⟨digits, _, read⟩ := Option.bind_eq_some_iff.mp read
  split at read
  · cases read
  · obtain ⟨char, _, same⟩ := Option.bind_eq_some_iff.mp read
    cases same
    rw [List.length_drop]
    exact Nat.sub_le _ _

theorem namedEscape_shorter {names : Text → Option CodePoint} {text made rest : Text}
    (read : namedEscape names text = some (made, rest)) : rest.length ≤ text.length := by
  cases text with
  | nil => cases read
  | cons opening text =>
    rw [namedEscape] at read
    split at read
    · cases read
    split at read
    · cases read
    · next closing behind closes =>
      dsimp only at read
      split at read
      · cases read
      · obtain ⟨char, _, same⟩ := Option.map_eq_some_iff.mp read
        cases same
        have short := (List.dropWhile_suffix (l := text) (p := (·.val ≠ 125))).length_le
        rw [closes, List.length_cons] at short
        rw [List.length_cons]
        omega

theorem escape_shorter {names : Text → Option CodePoint} {text made rest : Text}
    (read : escape names text = some (made, rest)) : rest.length < text.length := by
  cases text with
  | nil => cases read
  | cons char text =>
    rw [List.length_cons]
    apply Nat.lt_succ_of_le
    rw [escape] at read
    split at read
    · cases read
      exact Nat.le_refl _
    split at read
    · cases read
      exact Nat.le_refl _
    split at read
    · obtain ⟨_, _, same⟩ := Option.map_eq_some_iff.mp read
      cases same
      rw [List.length_drop]
      exact Nat.sub_le _ _
    split at read
    · exact hexEscape_shorter read
    split at read
    · exact hexEscape_shorter read
    split at read
    · exact hexEscape_shorter read
    split at read
    · exact namedEscape_shorter read
    · cases read
      exact Nat.le_refl _

/-- A body with its escapes replaced. -/
def unescape (names : Text → Option CodePoint) : Text → Option Text
  | [] => some []
  | char :: text =>
      if char = BACKSLASH then
        match _read : escape names text with
        | none => none
        | some (made, rest) => (unescape names rest).map (made ++ ·)
      else (unescape names text).map (char :: ·)
termination_by text => text.length
decreasing_by
  · exact Nat.lt_succ_of_lt (escape_shorter _read)
  · exact Nat.lt_succ_self _

/-- The bodies whose escapes can be replaced. Behind a backslash, `x`, `u` and `U` need the
hexadecimal digits of a code point, `N` needs a name in braces, and any other character will do. -/
inductive Escapes (names : Text → Option CodePoint) : Text → Prop where
  | nil : Escapes names []
  | char {char : CodePoint} {text : Text} :
      char ≠ BACKSLASH → Escapes names text → Escapes names (char :: text)
  | plain {char : CodePoint} {text : Text} :
      char.val ∉ [120, 117, 85, 78] → Escapes names text →
        Escapes names (BACKSLASH :: char :: text)
  | hex {char : CodePoint} {digits text : Text} {values : List Nat} :
      (char.val, digits.length) ∈ [(120, 2), (117, 4), (85, 8)] →
        digits.mapM hexDigit = some values → number 16 values < 0x110000 →
          Escapes names text → Escapes names (BACKSLASH :: char :: (digits ++ text))
  | named {char opening closing : CodePoint} {name text : Text} :
      char.val = 78 → opening.val = 123 → closing.val = 125 → name ≠ [] → closing ∉ name →
        (names name).isSome = true → Escapes names text →
          Escapes names (BACKSLASH :: char :: opening :: (name ++ closing :: text))

section Escapes

variable {names : Text → Option CodePoint} {text : Text}

theorem Escapes.tail {char : CodePoint} (plain : char ≠ BACKSLASH)
    (escapes : Escapes names (char :: text)) : Escapes names text := by
  cases escapes with
  | char _ escapes => exact escapes
  | plain _ _ => exact absurd rfl plain
  | hex _ _ _ _ => exact absurd rfl plain
  | named _ _ _ _ _ _ _ => exact absurd rfl plain

theorem Escapes.of_append {first : Text} (plain : BACKSLASH ∉ first) :
    Escapes names (first ++ text) ↔ Escapes names text := by
  induction first with
  | nil => exact Iff.rfl
  | cons char first ih =>
    have apart : char ≠ BACKSLASH := fun same => plain (by simp [same])
    have later : BACKSLASH ∉ first := fun hidden => plain (List.mem_cons_of_mem _ hidden)
    rw [List.cons_append]
    constructor
    · intro escapes
      exact (ih later).mp (escapes.tail apart)
    · intro escapes
      exact .char apart ((ih later).mpr escapes)

theorem isOctal_ne_backslash {char : CodePoint} (octal : isOctal char = true) :
    char ≠ BACKSLASH := by
  intro same
  subst same
  cases octal

/-- The digits that an octal escape takes are no escapes themselves. -/
theorem Escapes.drop_octal :
    Escapes names (text.drop ((text.take 2).takeWhile isOctal).length) ↔ Escapes names text := by
  have leads : (text.take 2).takeWhile isOctal <+: text :=
    (List.takeWhile_prefix _).trans (List.take_prefix _ _)
  obtain ⟨rest, whole⟩ := leads
  have plain : BACKSLASH ∉ (text.take 2).takeWhile isOctal := fun hidden =>
    isOctal_ne_backslash (List.mem_takeWhile_imp hidden) rfl
  generalize (text.take 2).takeWhile isOctal = digits at whole plain
  subst whole
  rw [List.drop_left, Escapes.of_append plain]

theorem length_of_hexDigits {digits : Text} {values : List Nat}
    (read : digits.mapM hexDigit = some values) : values.length = digits.length := by
  induction digits generalizing values with
  | nil =>
    cases read
    rfl
  | cons digit digits ih =>
    rw [List.mapM_cons] at read
    obtain ⟨value, _, read⟩ := Option.bind_eq_some_iff.mp read
    obtain ⟨behind, others, same⟩ := Option.bind_eq_some_iff.mp read
    cases same
    simp [ih others]

theorem hexEscape_read {width : Nat} {made rest : Text}
    (read : hexEscape width text = some (made, rest)) :
    ∃ digits values, text = digits ++ rest ∧ digits.length = width ∧
      digits.mapM hexDigit = some values ∧ number 16 values < 0x110000 := by
  obtain ⟨values, digits, read⟩ := Option.bind_eq_some_iff.mp read
  split at read
  · cases read
  · next filled =>
    obtain ⟨char, point, same⟩ := Option.bind_eq_some_iff.mp read
    cases same
    refine ⟨text.take width, values, (List.take_append_drop _ _).symm, ?_, digits, ?_⟩
    · have long := length_of_hexDigits digits
      rw [List.length_take] at long ⊢
      omega
    · rw [codePoint] at point
      split at point
      · assumption
      · cases point

theorem hexEscape_digits {digits : Text} {values : List Nat}
    (read : digits.mapM hexDigit = some values) (bounded : number 16 values < 0x110000) :
    ∃ made, hexEscape digits.length (digits ++ text) = some (made, text) := by
  have filled : ¬values.length < digits.length := by
    rw [length_of_hexDigits read]
    exact Nat.lt_irrefl _
  apply Exists.intro [⟨number 16 values, bounded⟩]
  simp [hexEscape, read, filled, codePoint, bounded]

theorem namedEscape_read {made rest : Text}
    (read : namedEscape names text = some (made, rest)) :
    ∃ (opening closing : CodePoint) (name : Text), text = opening :: (name ++ closing :: rest) ∧
      opening.val = 123 ∧ closing.val = 125 ∧ name ≠ [] ∧ closing ∉ name ∧
        (names name).isSome = true := by
  cases text with
  | nil => cases read
  | cons opening text =>
    rw [namedEscape] at read
    split at read
    · cases read
    next opened =>
    split at read
    · cases read
    next closing behind closes =>
    dsimp only at read
    split at read
    · cases read
    next filled =>
    obtain ⟨char, found, same⟩ := Option.map_eq_some_iff.mp read
    cases same
    have closed : closing.val = 125 := by
      have stopped := List.head?_dropWhile_not (·.val ≠ 125) text
      rw [closes] at stopped
      simpa using stopped
    refine ⟨opening, closing, _, ?_, not_not.mp opened, closed, filled, ?_, ?_⟩
    · rw [← closes, List.takeWhile_append_dropWhile]
    · intro inside
      have before := List.mem_takeWhile_imp inside
      simp [closed] at before
    · rw [found]
      rfl

theorem namedEscape_name {opening closing : CodePoint} {name : Text} (opened : opening.val = 123)
    (closed : closing.val = 125) (filled : name ≠ []) (inside : closing ∉ name)
    (known : (names name).isSome = true) :
    ∃ made, namedEscape names (opening :: (name ++ closing :: text)) = some (made, text) := by
  have before : ∀ char ∈ name, decide (char.val ≠ 125) = true := by
    intro char member
    apply decide_eq_true
    intro same
    apply inside
    rwa [← Fin.ext (same.trans closed.symm)]
  have stops : decide (closing.val ≠ 125) = false := by simp [closed]
  have taken : (name ++ closing :: text).takeWhile (·.val ≠ 125) = name := by
    rw [List.takeWhile_append_of_pos before, List.takeWhile_cons, stops]
    simp
  have dropped : (name ++ closing :: text).dropWhile (·.val ≠ 125) = closing :: text := by
    rw [List.dropWhile_append_of_pos before, List.dropWhile_cons, stops]
    simp
  obtain ⟨char, found⟩ := Option.isSome_iff_exists.mp known
  apply Exists.intro [char]
  rw [namedEscape, if_neg (not_not.mpr opened), dropped]
  simp only [taken, if_neg filled, found, Option.map_some]

theorem octal_bounded {digits : Text} (short : digits.length ≤ 3)
    (octal : ∀ digit ∈ digits, isOctal digit = true) :
    number 8 (digits.map fun digit => digit.val - 48) < 0x110000 := by
  have small : ∀ digit ∈ digits, digit.val - 48 ≤ 7 := by
    intro digit member
    have between := octal digit member
    simp only [isOctal, Bool.and_eq_true, decide_eq_true_eq] at between
    omega
  match digits, short, small with
  | [], _, _ => simp [number]
  | [first], _, small =>
    simp [number] at small ⊢
    omega
  | [first, second], _, small =>
    simp [number] at small ⊢
    omega
  | [first, second, third], _, small =>
    simp [number] at small ⊢
    omega

theorem escape_plain {char : CodePoint} (plain : char.val ∉ [120, 117, 85, 78]) :
    ∃ made rest, escape names (char :: text) = some (made, rest) ∧
      (Escapes names rest ↔ Escapes names text) := by
  rw [escape]
  split
  · exact ⟨_, _, rfl, Iff.rfl⟩
  split
  · exact ⟨_, _, rfl, Iff.rfl⟩
  split
  · next octal =>
    have bounded : number 8 ((char :: (text.take 2).takeWhile isOctal).map
        fun digit => digit.val - 48) < 0x110000 := by
      apply octal_bounded
      · have short := (List.takeWhile_prefix (l := text.take 2) isOctal).length_le
        rw [List.length_take] at short
        rw [List.length_cons]
        omega
      · intro digit member
        rcases List.mem_cons.mp member with same | member
        · rw [same, octal]
        · exact List.mem_takeWhile_imp member
    refine ⟨[⟨_, bounded⟩], _, ?_, Escapes.drop_octal⟩
    simp only [codePoint, dif_pos bounded, Option.map_some]
  rw [if_neg fun same => plain (by simp [same]), if_neg fun same => plain (by simp [same]),
    if_neg fun same => plain (by simp [same]), if_neg fun same => plain (by simp [same])]
  exact ⟨_, _, rfl, Iff.rfl⟩

theorem escape_hex {char : CodePoint} {width : Nat}
    (kind : (char.val, width) ∈ [(120, 2), (117, 4), (85, 8)]) :
    escape names (char :: text) = hexEscape width text := by
  simp only [List.mem_cons, List.not_mem_nil, Prod.mk.injEq, or_false] at kind
  rcases kind with ⟨code, wide⟩ | ⟨code, wide⟩ | ⟨code, wide⟩
  · obtain rfl : char = 120 := Fin.ext code
    subst wide
    rfl
  · obtain rfl : char = 117 := Fin.ext code
    subst wide
    rfl
  · obtain rfl : char = 85 := Fin.ext code
    subst wide
    rfl

theorem escape_named {char : CodePoint} (code : char.val = 78) :
    escape names (char :: text) = namedEscape names text := by
  obtain rfl : char = 78 := Fin.ext code
  rfl

/-- A backslash is in order when its escape and the text behind it are. -/
theorem Escapes.backslash_iff :
    Escapes names (BACKSLASH :: text) ↔
      ∃ made rest, escape names text = some (made, rest) ∧ Escapes names rest := by
  constructor
  · intro escapes
    cases escapes with
    | char apart _ => exact absurd rfl apart
    | plain plain escapes =>
      obtain ⟨made, rest, same, kept⟩ := escape_plain plain
      exact ⟨made, rest, same, kept.mpr escapes⟩
    | hex kind read bounded escapes =>
      obtain ⟨made, same⟩ := hexEscape_digits read bounded
      exact ⟨made, _, (escape_hex kind).trans same, escapes⟩
    | named code opened closed filled inside known escapes =>
      obtain ⟨made, same⟩ := namedEscape_name opened closed filled inside known
      exact ⟨made, _, (escape_named code).trans same, escapes⟩
  · rintro ⟨made, rest, read, escapes⟩
    cases text with
    | nil => cases read
    | cons char text =>
      by_cases plain : char.val ∉ [120, 117, 85, 78]
      · obtain ⟨_, _, same, kept⟩ := escape_plain plain
        cases read.symm.trans same
        exact .plain plain (kept.mp escapes)
      by_cases code : char.val = 78
      · rw [escape_named code] at read
        obtain ⟨opening, closing, name, whole, opened, closed, filled, inside, known⟩ :=
          namedEscape_read read
        subst whole
        exact .named code opened closed filled inside known escapes
      · obtain ⟨width, kind⟩ : ∃ width, (char.val, width) ∈ [(120, 2), (117, 4), (85, 8)] := by
          simp only [List.mem_cons, List.not_mem_nil, or_false, not_not] at plain
          rcases plain with same | same | same | same
          · exact ⟨2, by simp [same]⟩
          · exact ⟨4, by simp [same]⟩
          · exact ⟨8, by simp [same]⟩
          · exact absurd same code
        rw [escape_hex kind] at read
        obtain ⟨digits, values, whole, long, found, bounded⟩ := hexEscape_read read
        subst whole long
        exact .hex kind found bounded escapes

theorem unescape_isSome_iff : (unescape names text).isSome = true ↔ Escapes names text := by
  fun_induction unescape names text with
  | case1 => exact ⟨fun _ => .nil, fun _ => rfl⟩
  | case2 text read =>
    rw [Escapes.backslash_iff, read]
    simp
  | case3 text made rest read ih =>
    rw [Option.isSome_map, ih, Escapes.backslash_iff, read]
    simp
  | case4 char text apart ih =>
    rw [Option.isSome_map, ih]
    constructor
    · intro escapes
      exact .char apart escapes
    · intro escapes
      exact escapes.tail apart

end Escapes

/-! ## The end of a literal -/

/-- Every backslash has a character behind it, and on a single line no line break stands outside
such a pair. -/
def paired (multiline : Bool) : Text → Bool
  | [] => true
  | char :: text =>
      if char = BACKSLASH then
        match text with
        | [] => false
        | _ :: text => paired multiline text
      else (decide (char ≠ LF) || multiline) && paired multiline text

/-- The closing quotes do not begin at a character outside a pair before the text ends. -/
inductive Inside (closing : Text) : Text → Prop where
  | nil : Inside closing []
  | last : Inside closing [BACKSLASH]
  | pair {hidden : CodePoint} {text : Text} :
      Inside closing text → Inside closing (BACKSLASH :: hidden :: text)
  | char {char : CodePoint} {text : Text} :
      char ≠ BACKSLASH → ¬closing <+: char :: (text ++ closing) →
        Inside closing text → Inside closing (char :: text)

section Scan

variable {quote : CodePoint} {multiline skip : Bool} {text : Text}

theorem quote_cases (quoted : quote ∈ QUOTES) : quote = 34 ∨ quote = 39 := by
  simpa only [QUOTES, List.mem_cons, List.not_mem_nil, or_false] using quoted

theorem quote_ne (quoted : quote ∈ QUOTES) :
    quote ≠ BACKSLASH ∧ quote ≠ LF ∧ quote ≠ CR := by
  rcases quote_cases quoted with same | same
  · subst same
    decide
  · subst same
    decide

theorem paired_char {char : CodePoint} (apart : char ≠ BACKSLASH) :
    paired multiline (char :: text) =
      ((decide (char ≠ LF) || multiline) && paired multiline text) := by
  rw [paired.eq_def]
  dsimp only
  rw [if_neg apart]

theorem not_leads_of_ne {first char : CodePoint} {others behind : Text} (apart : first ≠ char) :
    ¬first :: others <+: char :: behind := by
  rw [List.cons_prefix_cons]
  exact fun leads => apart leads.1

theorem scan_char {closing : Text} {char : CodePoint} (open_ : ¬closing <+: char :: text)
    (apart : char ≠ BACKSLASH) :
    scan closing multiline (char :: text) =
      if char = LF ∧ multiline = false then none
      else (scan closing multiline text).map fun body => char :: body := by
  rw [scan.eq_def]
  dsimp only
  rw [if_neg open_, if_neg apart]

theorem scan_pair {closing : Text} {hidden : CodePoint}
    (open_ : ¬closing <+: BACKSLASH :: hidden :: text) :
    scan closing multiline (BACKSLASH :: hidden :: text) =
      (scan closing multiline text).map fun body => BACKSLASH :: hidden :: body := by
  rw [scan.eq_def]
  dsimp only
  rw [if_neg open_, if_pos rfl]

theorem scan_closing {char : CodePoint} {others : Text} :
    scan (char :: others) multiline (char :: others) = some [] := by
  rw [scan.eq_def]
  dsimp only
  rw [if_pos List.prefix_rfl, if_pos rfl]

/-- Fewer quotes than the closing ones do not close a literal. -/
theorem scan_short (quoted : quote ∈ QUOTES) {few many : Nat} (less : few < many) :
    scan (List.replicate many quote) multiline (List.replicate few quote) = none := by
  obtain ⟨noPair, noBreak, _⟩ := quote_ne quoted
  induction few with
  | zero => rfl
  | succ few ih =>
    have open_ : ¬List.replicate many quote <+: quote :: List.replicate few quote := by
      intro leads
      have long := leads.length_le
      simp only [List.length_cons, List.length_replicate] at long
      omega
    rw [List.replicate_succ, scan_char open_ noPair, if_neg fun same => noBreak same.1,
      ih (Nat.lt_of_succ_lt less), Option.map_none]

/-- A body is found exactly if its backslashes and line breaks are in order. -/
theorem scan_append (multiline : Bool) (quoted : quote ∈ QUOTES) {many : Nat}
    (inside : Inside (List.replicate (many + 1) quote) text) :
    scan (List.replicate (many + 1) quote) multiline
        (text ++ List.replicate (many + 1) quote) =
      if paired multiline text = true then some text else none := by
  obtain ⟨noPair, _, _⟩ := quote_ne quoted
  have notPair {behind : Text} :
      ¬List.replicate (many + 1) quote <+: BACKSLASH :: behind := by
    rw [List.replicate_succ]
    exact not_leads_of_ne noPair
  induction inside with
  | nil =>
    rw [List.nil_append, List.replicate_succ, scan_closing, paired, if_pos rfl]
  | last =>
    have cut : scan (List.replicate (many + 1) quote) multiline
        (BACKSLASH :: quote :: List.replicate many quote) = none := by
      rw [scan_pair notPair, scan_short quoted (Nat.lt_succ_self many), Option.map_none]
    rw [paired, if_pos rfl, if_neg Bool.false_ne_true, ← cut, List.singleton_append,
      ← List.replicate_succ]
  | pair _ ih =>
    rw [List.cons_append, List.cons_append, scan_pair notPair, ih, paired, if_pos rfl]
    split
    · rfl
    · rfl
  | @char char text apart open_ _ ih =>
    rw [List.cons_append, scan_char open_ apart, ih, paired_char apart]
    cases multiline with
    | true => cases paired true text <;> simp
    | false =>
      by_cases same : char = LF
      · simp [same]
      · cases paired false text <;> simp [same]

theorem newlines_cons (ends : quote ≠ LF ∧ quote ≠ CR) :
    newlines skip (quote :: text) = quote :: newlines false text := by
  rw [newlines, if_neg fun same => ends.1 same.2, if_neg ends.2]

theorem newlines_append (ends : quote ≠ LF ∧ quote ≠ CR) {behind : Text} :
    newlines skip (text ++ quote :: behind) =
      newlines skip text ++ quote :: newlines false behind := by
  induction text generalizing skip with
  | nil => exact newlines_cons ends
  | cons char text ih =>
    rw [List.cons_append, newlines, newlines]
    split
    · exact ih
    split
    · rw [ih, List.cons_append]
    · rw [ih, List.cons_append]

/-- Characters that end no line are found where they were. -/
theorem leads_of_newlines {first behind : Text} (ends : ∀ char ∈ first, char ≠ LF ∧ char ≠ CR)
    (leads : first <+: newlines false text ++ behind) : first <+: text ++ behind := by
  induction first generalizing text with
  | nil => exact List.nil_prefix
  | cons char first ih =>
    cases text with
    | nil => exact leads
    | cons other text =>
      have apart := ends char List.mem_cons_self
      rw [newlines, if_neg (by simp)] at leads
      split at leads
      · rw [List.cons_append, List.cons_prefix_cons] at leads
        exact absurd leads.1 apart.1
      · rw [List.cons_append, List.cons_prefix_cons] at leads
        rw [List.cons_append, List.cons_prefix_cons]
        exact ⟨leads.1, ih (fun char member => ends char (List.mem_cons_of_mem _ member)) leads.2⟩

theorem Inside.newlines (quoted : quote ∈ QUOTES) {many : Nat}
    (inside : Inside (List.replicate (many + 1) quote) text) :
    Inside (List.replicate (many + 1) quote) (newlines skip text) := by
  obtain ⟨noPair, ends⟩ := quote_ne quoted
  induction inside generalizing skip with
  | nil => exact .nil
  | last =>
    rw [newlines_cons (by decide)]
    exact .last
  | pair _ ih =>
    rw [newlines_cons (by decide), PyLiteral.newlines, if_neg (by simp)]
    split
    · exact .pair ih
    · exact .pair ih
  | char apart open_ _ ih =>
    rw [PyLiteral.newlines]
    split
    · exact ih
    split
    · apply Inside.char (by decide) _ ih
      rw [List.replicate_succ]
      exact not_leads_of_ne ends.1
    · next kept =>
      apply Inside.char apart _ ih
      intro leads
      apply open_
      rw [← List.cons_append]
      apply leads_of_newlines
      · intro char member
        rw [List.eq_of_mem_replicate member]
        exact ends
      · rwa [PyLiteral.newlines, if_neg (by simp), if_neg kept]

end Scan

/-- `ast.literal_eval(text)` of a text that begins with a quote; none if it raises. -/
def literalEval (names : Text → Option CodePoint) (text : Text) : Option Text :=
  if text.all encodable = false then none
  else match newlines false text with
  | [] => none
  | quote :: rest =>
      if quote ∉ QUOTES then none
      else if [quote, quote] <+: rest then
        (scan [quote, quote, quote] true (rest.drop 2)).bind (unescape names)
      else (scan [quote] false rest).bind (unescape names)

section LiteralEval

variable {names : Text → Option CodePoint} {quote : CodePoint} {text : Text}

theorem encodable_quote (quoted : quote ∈ QUOTES) : encodable quote = true := by
  rcases quote_cases quoted with same | same
  · subst same
    decide
  · subst same
    decide

/-- The quotes around a body can be encoded. -/
theorem all_encodable {before text after : Text} (quoted : quote ∈ QUOTES)
    (opens : ∀ char ∈ before, char = quote) (closes : ∀ char ∈ after, char = quote) :
    (before ++ (text ++ after)).all encodable = text.all encodable := by
  have quotes {part : Text} (same : ∀ char ∈ part, char = quote) : part.all encodable = true := by
    rw [List.all_eq_true]
    intro char member
    rw [same char member, encodable_quote quoted]
  rw [List.all_append, List.all_append, quotes opens, quotes closes, Bool.true_and, Bool.and_true]

theorem not_doubled (quoted : quote ∈ QUOTES) (inside : Inside [quote] text) :
    ¬[quote, quote] <+: text ++ [quote] := by
  obtain ⟨noPair, _, _⟩ := quote_ne quoted
  cases inside with
  | nil =>
    intro leads
    exact absurd leads.length_le (by simp)
  | last => exact not_leads_of_ne noPair
  | pair _ => exact not_leads_of_ne noPair
  | char _ open_ _ =>
    intro leads
    apply open_
    apply List.IsPrefix.trans _ leads
    exact ⟨[quote], rfl⟩

/-- A literal on one line. -/
theorem literalEval_single (quoted : quote ∈ QUOTES) (inside : Inside [quote] text) :
    literalEval names (quote :: (text ++ [quote])) =
      if text.all encodable = true ∧ paired false (newlines false text) = true then
        unescape names (newlines false text)
      else none := by
  obtain ⟨_, ends⟩ := quote_ne quoted
  have translated : newlines false (quote :: (text ++ [quote])) =
      quote :: (newlines false text ++ [quote]) := by
    rw [newlines_cons ends, newlines_append ends]
    rfl
  have whole : Inside (List.replicate (0 + 1) quote) text := inside
  have kept : Inside (List.replicate (0 + 1) quote) (newlines false text) := whole.newlines quoted
  have found := scan_append false quoted kept
  have checks : (quote :: (text ++ [quote])).all encodable = text.all encodable :=
    all_encodable quoted (List.forall_mem_singleton.mpr rfl) (List.forall_mem_singleton.mpr rfl)
  simp only [literalEval, checks, translated, ite_not]
  by_cases good : text.all encodable = true
  · rw [if_neg (by simp [good]), if_pos quoted, if_neg (not_doubled quoted kept)]
    simp only [and_iff_right good]
    have read := congrArg (Option.bind · (unescape names)) found
    exact read.trans (apply_ite (Option.bind · (unescape names)) _ _ _)
  · rw [if_pos (Bool.not_eq_true _ ▸ good), if_neg fun both => good both.1]

/-- A literal in three quotes. -/
theorem literalEval_triple (quoted : quote ∈ QUOTES)
    (inside : Inside [quote, quote, quote] text) :
    literalEval names ([quote, quote, quote] ++ (text ++ [quote, quote, quote])) =
      if text.all encodable = true ∧ paired true (newlines false text) = true then
        unescape names (newlines false text)
      else none := by
  obtain ⟨_, ends⟩ := quote_ne quoted
  have translated : newlines false ([quote, quote, quote] ++ (text ++ [quote, quote, quote])) =
      quote :: quote :: quote :: (newlines false text ++ [quote, quote, quote]) := by
    simp only [List.cons_append, List.nil_append, newlines_cons ends, newlines_append ends]
    rfl
  have whole : Inside (List.replicate (2 + 1) quote) text := inside
  have kept : Inside (List.replicate (2 + 1) quote) (newlines false text) := whole.newlines quoted
  have found := scan_append true quoted kept
  have checks : ([quote, quote, quote] ++ (text ++ [quote, quote, quote])).all encodable =
      text.all encodable :=
    all_encodable quoted (by simp) (by simp)
  have doubled : [quote, quote] <+:
      quote :: quote :: (newlines false text ++ [quote, quote, quote]) := ⟨_, rfl⟩
  simp only [literalEval, checks, translated, ite_not]
  by_cases good : text.all encodable = true
  · rw [if_neg (by simp [good]), if_pos quoted, if_pos doubled]
    simp only [and_iff_right good]
    have read := congrArg (Option.bind · (unescape names)) found
    exact read.trans (apply_ite (Option.bind · (unescape names)) _ _ _)
  · rw [if_pos (Bool.not_eq_true _ ▸ good), if_neg fun both => good both.1]

/-! ## Writing a literal -/

/-- Backslashes and one kind of quote behind a backslash each. -/
def escaped (quote : CodePoint) (text : Text) : Text :=
  text.flatMap fun char => if char = BACKSLASH ∨ char = quote then [BACKSLASH, char] else [char]

@[simp]
theorem escaped_nil : escaped quote [] = [] := rfl

@[simp]
theorem escaped_cons {char : CodePoint} :
    escaped quote (char :: text) =
      if char = BACKSLASH ∨ char = quote then BACKSLASH :: char :: escaped quote text
      else char :: escaped quote text := by
  rw [escaped, List.flatMap_cons]
  split
  · rfl
  · rfl

theorem escaped_inside : Inside [quote] (escaped quote text) := by
  induction text with
  | nil => exact .nil
  | cons char text ih =>
    rw [escaped_cons]
    split
    · exact .pair ih
    · next plain =>
      rw [not_or] at plain
      exact .char plain.1 (not_leads_of_ne fun same => plain.2 same.symm) ih

theorem escaped_encodable :
    (∀ char ∈ escaped quote text, encodable char = true) ↔
      ∀ char ∈ text, encodable char = true := by
  have slash : encodable BACKSLASH = true := by decide
  induction text with
  | nil => rfl
  | cons char text ih =>
    rw [escaped_cons]
    split
    · simp [ih, slash]
    · simp [ih]

theorem escaped_paired (quoted : quote ∈ QUOTES) :
    paired false (newlines false (escaped quote text)) = true ↔
      ∀ char ∈ text, char ≠ LF ∧ char ≠ CR := by
  obtain ⟨_, ends⟩ := quote_ne quoted
  induction text with
  | nil => simp [newlines, paired]
  | cons char text ih =>
    rw [escaped_cons, List.forall_mem_cons, ← ih]
    split
    · next hidden =>
      have apart : char ≠ LF ∧ char ≠ CR := by
        rcases hidden with same | same
        · rw [same]
          decide
        · rw [same]
          exact ends
      rw [newlines_cons (by decide), newlines_cons apart, paired, if_pos rfl]
      simp only [apart, ne_eq, not_false_eq_true, and_self, true_and]
    · next plain =>
      rw [not_or] at plain
      by_cases apart : char ≠ LF ∧ char ≠ CR
      · rw [newlines_cons apart, paired_char plain.1]
        simp [apart]
      · have broken : ∃ rest, newlines false (char :: escaped quote text) = LF :: rest := by
          rw [newlines, if_neg (by simp)]
          split
          · exact ⟨_, rfl⟩
          · next same =>
            have feed : char = LF := not_not.mp fun other => apart ⟨other, same⟩
            rw [feed]
            exact ⟨_, rfl⟩
        obtain ⟨rest, broken⟩ := broken
        rw [broken, paired_char (by decide)]
        simp [apart]

theorem newlines_same (plain : ∀ char ∈ text, char ≠ LF ∧ char ≠ CR) :
    newlines false text = text := by
  induction text with
  | nil => rfl
  | cons char text ih =>
    rw [List.forall_mem_cons] at plain
    rw [newlines_cons plain.1, ih plain.2]

theorem unescape_escaped (quoted : quote ∈ QUOTES) :
    unescape names (escaped quote text) = some text := by
  induction text with
  | nil =>
    rw [escaped_nil, unescape]
  | cons char text ih =>
    rw [escaped_cons]
    split
    · next hidden =>
      have meant : escape names (char :: escaped quote text) =
          some ([char], escaped quote text) := by
        rcases hidden with same | same
        · subst same
          rfl
        · subst same
          rcases quote_cases quoted with same | same
          · subst same
            rfl
          · subst same
            rfl
      rw [unescape, if_pos rfl]
      split
      · next failed =>
        rw [meant] at failed
        cases failed
      · next read =>
        cases meant.symm.trans read
        rw [ih]
        rfl
    · next plain =>
      rw [not_or] at plain
      rw [unescape, if_neg plain.1, ih]
      rfl

/-- What is written is read back if it stands on one line and can be encoded. -/
theorem literalEval_escaped (quoted : quote ∈ QUOTES) :
    literalEval names (quote :: (escaped quote text ++ [quote])) = some text ↔
      ∀ char ∈ text, encodable char = true ∧ char ≠ LF ∧ char ≠ CR := by
  have plain_iff : ((escaped quote text).all encodable = true ∧
      paired false (newlines false (escaped quote text)) = true) ↔
        ∀ char ∈ text, encodable char = true ∧ char ≠ LF ∧ char ≠ CR := by
    rw [List.all_eq_true, escaped_encodable, escaped_paired quoted, ← forall₂_and]
  rw [literalEval_single quoted escaped_inside]
  constructor
  · intro read
    split at read
    · next plain => exact plain_iff.mp plain
    · cases read
  · intro plain
    rw [if_pos (plain_iff.mpr plain), newlines_same, unescape_escaped quoted]
    intro char member
    rw [escaped, List.mem_flatMap] at member
    obtain ⟨source, listed, member⟩ := member
    split at member
    · rcases List.mem_cons.mp member with same | member
      · rw [same]
        decide
      · rw [List.mem_singleton.mp member]
        exact (plain source listed).2
    · rw [List.mem_singleton.mp member]
      exact (plain source listed).2

end LiteralEval

end CaracalDB.PyLiteral
