import CaracalDB.TextScore
import CaracalDB.Loops

/-!
# Statements of `exec`

A text is cut into statements at its semicolons, the body of an `INSERT` into fields
at its commas, and a field at its first colon; the values are literals whose type is
guessed. None of the cuts looks at quotes. The statements written for rows are
therefore read back exactly when no text of a row holds a semicolon or a comma and no
integer is longer than the language reads.
-/

namespace CaracalDB.Exec

open Text

/-- What the language knows of letters and digits. Beyond ASCII nothing is said of them. -/
structure Letters where
  /-- `char.upper()` -/
  upper : Char → List Char
  /-- `char.lower()` -/
  lower : Char → List Char
  /-- The decimal digit that a character stands for. -/
  digit : Char → Option Nat
  /-- `float(text)`, as its `repr` shows it. -/
  float : List Char → Option String
  upper_ascii : ∀ char, char.toNat < 128 → upper char = [char.toUpper]
  lower_ascii : ∀ char, char.toNat < 128 → lower char = [char.toLower]
  digit_ascii : ∀ char, char.toNat < 128 →
    digit char = if char.isDigit then some (char.toNat - '0'.toNat) else none

/-- `sys.int_info.default_max_str_digits` -/
def MAX_STR_DIGITS : Nat := 4300

/-- Digits with single underscores between them. -/
def digitsOf (letters : Letters) : List Char → Option (List Nat)
  | [] => some []
  | '_' :: char :: rest => do
      let digit ← letters.digit char
      let digits ← digitsOf letters rest
      return digit :: digits
  | char :: rest => do
      let digit ← letters.digit char
      let digits ← digitsOf letters rest
      return digit :: digits

/-- The number of digits read from the left. -/
def numberOf (digits : List Nat) : Nat := digits.foldl (fun number digit => 10 * number + digit) 0

/-- `int(text)` of a text without spaces around and without a sign. -/
def magnitude (letters : Letters) : List Char → Option Nat
  | [] => none
  | first :: rest => do
      let digit ← letters.digit first
      let digits ← digitsOf letters rest
      if MAX_STR_DIGITS < (digit :: digits).length then none else some (numberOf (digit :: digits))

/-- `int(text)`, or none where it raises `ValueError`. -/
def int (letters : Letters) (text : List Char) : Option Int :=
  match strip text with
  | '-' :: number => (magnitude letters number).map fun (read : Nat) => -(read : Int)
  | '+' :: number => (magnitude letters number).map Int.ofNat
  | number => (magnitude letters number).map Int.ofNat

/-- `_parse_exec_literal(value)` -/
def parseExecLiteral (letters : Letters) (value : List Char) : Value :=
  if 2 ≤ value.length ∧ value.head? = value.getLast? ∧
      (value.head? = some '\'' ∨ value.head? = some '"') then
    .str (String.ofList (value.drop 1).dropLast)
  else if value.flatMap letters.lower = ['t', 'r', 'u', 'e'] then .bool true
  else if value.flatMap letters.lower = ['f', 'a', 'l', 's', 'e'] then .bool false
  else match int letters value with
    | some number => .int number
    | none => match letters.float value with
      | some number => .float number
      | none => .str (String.ofList value)

/-- `"INSERT "` -/
def INSERT : List Char := ['I', 'N', 'S', 'E', 'R', 'T', ' ']

/-- `"CREATE CLASS "` -/
def CREATE_CLASS : List Char := ['C', 'R', 'E', 'A', 'T', 'E', ' ', 'C', 'L', 'A', 'S', 'S', ' ']

/-- `_split_exec_statements(text)` -/
def splitExecStatements (text : List Char) : List (List Char) :=
  ((text.splitOn ';').map strip).filter (· ≠ [])

def execError (message : String) : Raised := .caracal { code := "CDB-6020", message }

/-- One field of the body of an `INSERT`. -/
def parseField (letters : Letters) (row : Row) (item : List Char) : Except Raised Row := do
  refuse (':' ∉ item)
    (execError ("invalid INSERT field: " ++ Value.quoted (String.ofList (strip item))))
  return row.set (String.ofList (strip (item.takeWhile (· ≠ ':'))))
    (parseExecLiteral letters (strip ((item.dropWhile (· ≠ ':')).drop 1)))

/-- `_parse_insert_statement(statement)` -/
def parseInsertStatement (letters : Letters) (statement : List Char) :
    Except Raised (String × Row) := do
  let rest := strip (statement.drop INSERT.length)
  refuse ('{' ∉ rest ∨ rest.getLast? ≠ some '}')
    (execError "INSERT requires the shape: INSERT Class \x7b field: value \x7d")
  let class_name := strip (rest.takeWhile (· ≠ '{'))
  let body := strip ((rest.dropWhile (· ≠ '{')).drop 1).dropLast
  refuse (class_name = [] ∨ body = [])
    (execError "INSERT requires a class and at least one field")
  let row ← (body.splitOn ',').foldlM (parseField letters) Dict.empty
  return (String.ofList class_name, row)

/-- What a statement asks of the database. -/
inductive Command where
  | createClass (name : String)
  | insert (class_name : String) (row : Row)
deriving DecidableEq

/-- One statement of `db.exec(text)`. -/
def command (letters : Letters) (statement : List Char) : Except Raised Command :=
  let upper := statement.flatMap letters.upper
  if CREATE_CLASS <+: upper then
    .ok (.createClass (String.ofList (strip (statement.drop CREATE_CLASS.length))))
  else if INSERT <+: upper then do
    let (class_name, row) ← parseInsertStatement letters statement
    return .insert class_name row
  else .error (execError ("db.exec() currently supports CREATE CLASS name and " ++
    "INSERT name \x7b field: value \x7d"))

/-- What `db.exec(text)` asks of the database, statement by statement. -/
def exec (letters : Letters) (text : List Char) : Except Raised (List Command) :=
  (splitExecStatements text).mapM (command letters)

/-! ## Writing statements -/

/-- `separator.join(texts)` -/
def joinWith (separator : List Char) : List (List Char) → List Char
  | [] => []
  | [text] => text
  | text :: next :: texts => text ++ (separator ++ joinWith separator (next :: texts))

/-- A name: an identifier, or any other word without the marks of a statement. -/
def IsWord (text : List Char) : Prop :=
  text ≠ [] ∧ ∀ char ∈ text, isSpace char = false ∧ char ∉ [';', ',', ':', '{', '}']

/-- A text in a quote that does not occur in it. -/
structure Quoted where
  content : List Char
  quote : Char
  isQuote : quote = '\'' ∨ quote = '"'
  absent : quote ∉ content

inductive Scalar where
  | text (quoted : Quoted)
  | number (integer : Int)
  | flag (truth : Bool)

namespace Scalar

def render : Scalar → List Char
  | .text quoted => quoted.quote :: (quoted.content ++ [quoted.quote])
  | .number integer =>
      if integer < 0 then '-' :: Nat.toDigits 10 integer.natAbs
      else Nat.toDigits 10 integer.natAbs
  | .flag true => ['t', 'r', 'u', 'e']
  | .flag false => ['f', 'a', 'l', 's', 'e']

def value : Scalar → Value
  | .text quoted => .str (String.ofList quoted.content)
  | .number integer => .int integer
  | .flag truth => .bool truth

/-- No cut goes through the scalar, and the language reads it. -/
def Kept : Scalar → Prop
  | .text quoted => ';' ∉ quoted.content ∧ ',' ∉ quoted.content
  | .number integer => integer.natAbs < 10 ^ MAX_STR_DIGITS
  | .flag _ => True

end Scalar

/-- A row that is to be inserted into a class. -/
structure Insert where
  class_name : List Char
  fields : List (List Char × Scalar)
  isClass : IsWord class_name
  areFields : ∀ field ∈ fields, IsWord field.1
  filled : fields ≠ []
  distinct : (fields.map Prod.fst).Nodup

namespace Insert

def renderField (field : List Char × Scalar) : List Char :=
  field.1 ++ (':' :: ' ' :: field.2.render)

def body (insert : Insert) : List Char := joinWith [',', ' '] (insert.fields.map renderField)

/-- `INSERT Class (field: value, ...)`, in braces. -/
def render (insert : Insert) : List Char :=
  INSERT ++ (insert.class_name ++ (' ' :: '{' :: ' ' :: (insert.body ++ [' ', '}'])))

def row (insert : Insert) : Row :=
  Dict.ofEntries (insert.fields.map fun field => (String.ofList field.1, field.2.value))

/-- What the statement should ask for. -/
def asked (insert : Insert) : Command := .insert (String.ofList insert.class_name) insert.row

def Kept (insert : Insert) : Prop := ∀ field ∈ insert.fields, field.2.Kept

end Insert

/-- Statements joined with semicolons. -/
def renderAll (inserts : List Insert) : List Char := joinWith [';'] (inserts.map Insert.render)

/-! ## Cutting -/

theorem joinWith_push (separator pad text : List Char) (texts : List (List Char)) :
    joinWith separator ((pad ++ text) :: texts) = pad ++ joinWith separator (text :: texts) := by
  cases texts with
  | nil => rfl
  | cons next texts => simp [joinWith]

/-- Items without commas are cut apart again. -/
theorem splitOn_join (item : List Char) (items : List (List Char))
    (free : ∀ one ∈ item :: items, ',' ∉ one) :
    (joinWith [',', ' '] (item :: items)).splitOn ',' = item :: items.map (' ' :: ·) := by
  induction items generalizing item with
  | nil => exact List.splitOn_eq_singleton (free item List.mem_cons_self)
  | cons next items inductionHypothesis =>
    have pushed : ' ' :: joinWith [',', ' '] (next :: items) =
        joinWith [',', ' '] ((' ' :: next) :: items) := (joinWith_push _ [' '] next items).symm
    have later : ∀ one ∈ (' ' :: next) :: items, ',' ∉ one := by
      intro one member
      rcases List.mem_cons.mp member with rfl | further
      · have absent := free next (by simp)
        simp [absent]
      · exact free one (by simp [further])
    have cut : joinWith [',', ' '] (item :: next :: items) =
        item ++ ',' :: joinWith [',', ' '] ((' ' :: next) :: items) := by
      rw [← pushed]
      rfl
    rw [cut, List.splitOn_append_cons_self_of_not_mem (free item List.mem_cons_self),
      inductionHypothesis _ later]
    rfl

theorem splitExecStatements_cut (left right : List Char) :
    splitExecStatements (left ++ ';' :: right) =
      splitExecStatements left ++ splitExecStatements right := by
  simp [splitExecStatements, List.splitOn_append_cons_self]

/-- The statements of a text that is joined with semicolons are those of its parts. -/
theorem splitExecStatements_join (texts : List (List Char)) :
    splitExecStatements (joinWith [';'] texts) = texts.flatMap splitExecStatements := by
  induction texts with
  | nil =>
    have empty : strip [] = [] := rfl
    simp [splitExecStatements, joinWith, empty]
  | cons text texts inductionHypothesis =>
    cases texts with
    | nil => simp [joinWith]
    | cons next texts =>
      have cut : joinWith [';'] (text :: next :: texts) =
          text ++ ';' :: joinWith [';'] (next :: texts) := rfl
      rw [cut, splitExecStatements_cut, inductionHypothesis, List.flatMap_cons, List.flatMap_cons,
        List.flatMap_cons]

/-! ## Texts without outer spaces -/

/-- A text that begins and ends with a visible character. -/
def Trimmed (text : List Char) : Prop :=
  (∃ first back, text = first :: back ∧ isSpace first = false) ∧
    ∃ front last, text = front ++ [last] ∧ isSpace last = false

theorem Trimmed.strip {text : List Char} (trimmed : Trimmed text) : strip text = text := by
  obtain ⟨⟨first, back, begins, visible⟩, front, last, ends, shown⟩ := trimmed
  have kept : text.dropWhile isSpace = text := by
    rw [begins, List.dropWhile_cons_of_neg (by simp [visible])]
  rw [CaracalDB.strip, kept, ends, List.reverse_append, List.reverse_singleton,
    List.singleton_append, List.dropWhile_cons_of_neg (by simp [shown]), List.reverse_cons,
    List.reverse_reverse]

theorem Trimmed.append {left right : List Char} (first : Trimmed left) (last : Trimmed right)
    (middle : List Char) : Trimmed (left ++ (middle ++ right)) := by
  obtain ⟨⟨begin, back, rfl, visible⟩, _⟩ := first
  obtain ⟨_, front, ending, rfl, shown⟩ := last
  exact ⟨⟨begin, back ++ (middle ++ (front ++ [ending])), rfl, visible⟩,
    begin :: back ++ (middle ++ front), ending, by simp, shown⟩

theorem trimmed_of_visible {text : List Char} (filled : text ≠ [])
    (visible : ∀ char ∈ text, isSpace char = false) : Trimmed text := by
  constructor
  · cases text with
    | nil => exact absurd rfl filled
    | cons first back => exact ⟨first, back, rfl, visible first List.mem_cons_self⟩
  · refine ⟨text.dropLast, text.getLast filled, (List.dropLast_append_getLast filled).symm, ?_⟩
    exact visible _ (List.getLast_mem filled)

/-- A text with a visible character other than a semicolon yields a statement. -/
theorem splitExecStatements_filled (text : List Char)
    (visible : ∃ char ∈ text, isSpace char = false ∧ char ≠ ';') :
    splitExecStatements text ≠ [] := by
  induction size : text.length using Nat.strong_induction_on generalizing text with
  | h length inductionHypothesis =>
    obtain ⟨char, member, shown, other⟩ := visible
    by_cases separated : ';' ∈ text
    · obtain ⟨left, right, rfl⟩ := List.append_of_mem separated
      rw [splitExecStatements_cut]
      intro empty
      obtain ⟨noLeft, noRight⟩ := List.append_eq_nil_iff.mp empty
      simp only [List.length_append, List.length_cons] at size
      rcases List.mem_append.mp member with before | after
      · exact inductionHypothesis left.length (by omega) left ⟨char, before, shown, other⟩ rfl noLeft
      · have later : char ∈ right := (List.mem_cons.mp after).resolve_left other
        exact inductionHypothesis right.length (by omega) right ⟨char, later, shown, other⟩ rfl
          noRight
    · intro empty
      rw [splitExecStatements, List.splitOn_eq_singleton separated] at empty
      have nothing : strip text = [] := by simpa using empty
      obtain ⟨before, after, split, outside, behind⟩ := strip_eq_self_or text
      rw [nothing, List.append_nil] at split
      rw [split] at member
      rcases List.mem_append.mp member with early | late
      · rw [outside char early] at shown
        cases shown
      · rw [behind char late] at shown
        cases shown

/-- A semicolon inside a text makes more than one statement of it. -/
theorem splitExecStatements_many {text : List Char} (trimmed : Trimmed text)
    (begins : text.head? ≠ some ';') (ends : text.getLast? ≠ some ';') (separated : ';' ∈ text) :
    2 ≤ (splitExecStatements text).length := by
  obtain ⟨⟨first, back, head, visible⟩, front, last, tail, shown⟩ := trimmed
  obtain ⟨left, right, split⟩ := List.append_of_mem separated
  have firstOther : first ≠ ';' := fun same => begins (by rw [head, same]; rfl)
  have lastOther : last ≠ ';' := fun same => ends (by rw [tail, same]; simp)
  have early : first ∈ left := by
    cases left with
    | nil => exact absurd (List.cons.inj (head.symm.trans split)).1 firstOther
    | cons char left =>
      rw [(List.cons.inj (head.symm.trans split)).1]
      exact List.mem_cons_self
  have late : last ∈ right := by
    have whole : front ++ [last] = left ++ ';' :: right := tail.symm.trans split
    rcases List.eq_nil_or_concat right with rfl | ⟨right, char, rfl⟩
    · exact absurd (List.append_inj_right' whole rfl) (by simp [lastOther])
    · have ending : front ++ [last] = (left ++ ';' :: right) ++ [char] := by simpa using whole
      simp [List.cons.inj (List.append_inj_right' ending rfl)]
  have one := List.length_pos_iff.mpr
    (splitExecStatements_filled left ⟨first, early, visible, firstOther⟩)
  have other := List.length_pos_iff.mpr
    (splitExecStatements_filled right ⟨last, late, shown, lastOther⟩)
  rw [split, splitExecStatements_cut, List.length_append]
  omega

theorem splitExecStatements_one {text : List Char} (trimmed : Trimmed text) (free : ';' ∉ text) :
    splitExecStatements text = [text] := by
  obtain ⟨⟨first, back, head, _⟩, _⟩ := id trimmed
  have filled : text ≠ [] := by simp [head]
  simp [splitExecStatements, List.splitOn_eq_singleton free, trimmed.strip, filled]

/-! ## Literals -/

theorem isDigit_bounds {char : Char} (digit : char.isDigit = true) :
    48 ≤ char.toNat ∧ char.toNat ≤ 57 := by
  simp only [Char.isDigit, Bool.and_eq_true, decide_eq_true_eq] at digit
  exact digit

/-- A digit is not any of the marks that a statement or a literal is cut at. -/
theorem isDigit_plain {char : Char} (digit : char.isDigit = true) :
    isSpace char = false ∧ char ∉ [';', ',', ':', '{', '}', '_', '-', '+', '\'', '"', 't', 'f'] := by
  have bounds := isDigit_bounds digit
  constructor
  · simp [isSpace]
    omega
  · intro member
    simp only [List.mem_cons, List.not_mem_nil, or_false] at member
    rcases member with rfl | rfl | rfl | rfl | rfl | rfl | rfl | rfl | rfl | rfl | rfl | rfl <;>
      simp at bounds

theorem toLower_digit {char : Char} (digit : char.isDigit = true) : char.toLower = char := by
  have bounds := isDigit_bounds digit
  have small : ¬ char.val ≥ 65 := by
    intro large
    have read : 65 ≤ char.toNat := large
    omega
  exact dif_neg fun between => small between.1

theorem digitsOf_digits (letters : Letters) (text : List Char)
    (all : ∀ char ∈ text, char.isDigit = true) :
    digitsOf letters text = some (text.map fun char => char.toNat - '0'.toNat) := by
  induction text with
  | nil => rfl
  | cons char rest inductionHypothesis =>
    have digit := all char List.mem_cons_self
    have later := inductionHypothesis fun other member => all other (List.mem_cons_of_mem char member)
    have read : letters.digit char = some (char.toNat - '0'.toNat) := by
      rw [letters.digit_ascii char (by have := isDigit_bounds digit; omega), if_pos digit]
    have noMark : char ≠ '_' := by
      rintro rfl
      cases digit
    simp [digitsOf, noMark, read, later]

theorem magnitude_decimal (letters : Letters) (number : Nat) :
    magnitude letters (Nat.toDigits 10 number) =
      if number < 10 ^ MAX_STR_DIGITS then some number else none := by
  have all : ∀ char ∈ Nat.toDigits 10 number, char.isDigit = true :=
    fun char member => Nat.isDigit_of_mem_toDigits (by decide) (by decide) member
  have value : numberOf ((Nat.toDigits 10 number).map fun char => char.toNat - '0'.toNat) = number := by
    rw [numberOf, List.foldl_map]
    exact Nat.ofDigitChars_ten_toDigits
  have size := Nat.length_toDigits_le_iff (n := number) (k := MAX_STR_DIGITS)
    (show 1 < 10 by decide) (by decide)
  cases text : Nat.toDigits 10 number with
  | nil => exact absurd text Nat.toDigits_ne_nil
  | cons first rest =>
    rw [text] at all value size
    have whole := digitsOf_digits letters (first :: rest) all
    have tail := digitsOf_digits letters rest fun char member =>
      all char (List.mem_cons_of_mem first member)
    have digit : letters.digit first = some (first.toNat - '0'.toNat) := by
      have bounds := isDigit_bounds (all first List.mem_cons_self)
      rw [letters.digit_ascii first (by omega), if_pos (all first List.mem_cons_self)]
    rw [List.map_cons] at value
    simp only [magnitude, digit, tail, Option.bind_eq_bind, Option.bind_some, value]
    by_cases small : number < 10 ^ MAX_STR_DIGITS
    · have short := size.mpr small
      rw [if_pos small, if_neg (by simpa using short)]
    · have long : ¬ (first :: rest).length ≤ MAX_STR_DIGITS := fun short => small (size.mp short)
      rw [if_neg small, if_pos (by simpa using long)]

/-- How a decimal number begins: neither with a quote nor with a letter. -/
theorem number_head (integer : Int) : ∃ first rest, (Scalar.number integer).render = first :: rest ∧
    first ∉ ['\'', '"', 't', 'f'] ∧ ∀ letters : Letters, letters.lower first = [first] := by
  cases text : Nat.toDigits 10 integer.natAbs with
  | nil => exact absurd text Nat.toDigits_ne_nil
  | cons first rest =>
    have digit : first.isDigit = true := by
      apply Nat.isDigit_of_mem_toDigits (b := 10) (n := integer.natAbs) (by decide) (by decide)
      rw [text]
      exact List.mem_cons_self
    rw [Scalar.render, text]
    split
    · refine ⟨'-', _, rfl, by decide, ?_⟩
      intro letters
      rw [letters.lower_ascii '-' (by decide)]
      rfl
    · refine ⟨first, rest, rfl, ?_, ?_⟩
      · have plain := (isDigit_plain digit).2
        simp only [List.mem_cons, List.not_mem_nil, or_false, not_or] at plain ⊢
        exact plain.2.2.2.2.2.2.2.2
      · intro letters
        have bounds := isDigit_bounds digit
        rw [letters.lower_ascii first (by omega), toLower_digit digit]

theorem int_number (letters : Letters) (integer : Int) :
    int letters (Scalar.number integer).render =
      if integer.natAbs < 10 ^ MAX_STR_DIGITS then some integer else none := by
  have all : ∀ char ∈ Nat.toDigits 10 integer.natAbs, char.isDigit = true :=
    fun char member => Nat.isDigit_of_mem_toDigits (by decide) (by decide) member
  have trimmed : Trimmed (Scalar.number integer).render := by
    apply trimmed_of_visible
    · obtain ⟨first, rest, split, _⟩ := number_head integer
      simp [split]
    · intro char member
      rw [Scalar.render] at member
      split at member
      · rcases List.mem_cons.mp member with rfl | further
        · rfl
        · exact (isDigit_plain (all char further)).1
      · exact (isDigit_plain (all char member)).1
  rw [int, trimmed.strip, Scalar.render]
  by_cases negative : integer < 0
  · rw [if_pos negative]
    simp only [magnitude_decimal]
    by_cases small : integer.natAbs < 10 ^ MAX_STR_DIGITS
    · rw [if_pos small, if_pos small]
      simp only [Option.map_some, Option.some.injEq]
      omega
    · rw [if_neg small, if_neg small]
      rfl
  · rw [if_neg negative]
    have found := magnitude_decimal letters integer.natAbs
    cases text : Nat.toDigits 10 integer.natAbs with
    | nil => exact absurd text Nat.toDigits_ne_nil
    | cons first rest =>
      rw [text] at all found
      have plain := (isDigit_plain (all first List.mem_cons_self)).2
      simp only [List.mem_cons, List.not_mem_nil, or_false, not_or] at plain
      split
      · next number same => exact absurd (List.cons.inj same).1 plain.2.2.2.2.2.2.1
      · next number same => exact absurd (List.cons.inj same).1 plain.2.2.2.2.2.2.2.1
      · rw [found]
        by_cases small : integer.natAbs < 10 ^ MAX_STR_DIGITS
        · rw [if_pos small, if_pos small]
          simp only [Option.map_some, Option.some.injEq, Int.ofNat_eq_natCast]
          omega
        · rw [if_neg small, if_neg small]
          rfl

namespace Scalar

theorem trimmed (scalar : Scalar) : Trimmed scalar.render := by
  cases scalar with
  | text quoted =>
    have visible : isSpace quoted.quote = false := by
      rcases quoted.isQuote with same | same <;> rw [same] <;> rfl
    exact ⟨⟨_, _, rfl, visible⟩, quoted.quote :: quoted.content, quoted.quote, rfl, visible⟩
  | number integer =>
    apply trimmed_of_visible
    · obtain ⟨first, rest, split, _⟩ := number_head integer
      simp [split]
    · intro char member
      have digit : ∀ one ∈ Nat.toDigits 10 integer.natAbs, one.isDigit = true :=
        fun one inside => Nat.isDigit_of_mem_toDigits (by decide) (by decide) inside
      rw [render] at member
      split at member
      · rcases List.mem_cons.mp member with rfl | further
        · rfl
        · exact (isDigit_plain (digit char further)).1
      · exact (isDigit_plain (digit char member)).1
  | flag truth =>
    cases truth with
    | true => exact trimmed_of_visible (by decide) (by simp [render, isSpace])
    | false => exact trimmed_of_visible (by decide) (by simp [render, isSpace])

/-- An integer that the language reads; texts and flags are read in any case. -/
def InLimit : Scalar → Prop
  | .number integer => integer.natAbs < 10 ^ MAX_STR_DIGITS
  | _ => True

/-- A scalar is read back if it is not a number beyond the limit. -/
theorem literal_iff (letters : Letters) (scalar : Scalar) :
    parseExecLiteral letters scalar.render = scalar.value ↔ scalar.InLimit := by
  cases scalar with
  | text quoted =>
    have isQuote : quoted.quote = '\'' ∨ quoted.quote = '"' := quoted.isQuote
    have last : (quoted.quote :: (quoted.content ++ [quoted.quote])).getLast? =
        some quoted.quote := by
      rw [← List.cons_append, List.getLast?_concat]
    simp [parseExecLiteral, render, value, InLimit, isQuote, last]
  | flag truth =>
    have letter (char : Char) (small : char.toNat < 128) := letters.lower_ascii char small
    cases truth with
    | true =>
      simp [parseExecLiteral, render, value, InLimit, letter 't' (by decide), letter 'r' (by decide),
        letter 'u' (by decide), letter 'e' (by decide)]
    | false =>
      simp [parseExecLiteral, render, value, InLimit, letter 'f' (by decide), letter 'a' (by decide),
        letter 'l' (by decide), letter 's' (by decide), letter 'e' (by decide)]
  | number integer =>
    obtain ⟨first, rest, split, plain, lowered⟩ := number_head integer
    simp only [List.mem_cons, List.not_mem_nil, or_false, not_or] at plain
    have unquoted : ¬ (2 ≤ (number integer).render.length ∧
        (number integer).render.head? = (number integer).render.getLast? ∧
        ((number integer).render.head? = some '\'' ∨ (number integer).render.head? = some '"')) := by
      rintro ⟨_, _, quote | quote⟩
      · rw [split] at quote
        exact plain.1 (Option.some.inj quote)
      · rw [split] at quote
        exact plain.2.1 (Option.some.inj quote)
    have notTrue : (number integer).render.flatMap letters.lower ≠ ['t', 'r', 'u', 'e'] := by
      intro same
      rw [split, List.flatMap_cons, lowered] at same
      exact plain.2.2.1 (List.cons.inj same).1
    have notFalse : (number integer).render.flatMap letters.lower ≠ ['f', 'a', 'l', 's', 'e'] := by
      intro same
      rw [split, List.flatMap_cons, lowered] at same
      exact plain.2.2.2 (List.cons.inj same).1
    rw [parseExecLiteral, if_neg unquoted, if_neg notTrue, if_neg notFalse, int_number]
    by_cases small : integer.natAbs < 10 ^ MAX_STR_DIGITS
    · simp [small, value, InLimit]
    · rw [if_neg small]
      simp only [value, InLimit, small, iff_false]
      cases letters.float (number integer).render with
      | none =>
        intro same
        cases same
      | some text =>
        intro same
        cases same

/-- Of the marks that texts are cut at, only a quoted text can hold one. -/
theorem mark_absent (scalar : Scalar) (mark : Char) (isMark : mark ∈ [';', ',']) :
    mark ∉ scalar.render ↔ ∀ quoted, scalar = .text quoted → mark ∉ quoted.content := by
  have marks : mark = ';' ∨ mark = ',' := by simpa using isMark
  cases scalar with
  | text quoted =>
    have other : mark ≠ quoted.quote := by
      rcases quoted.isQuote with same | same <;> rcases marks with rfl | rfl <;> rw [same] <;> decide
    simp [render, other]
  | flag truth =>
    have absent : mark ∉ (flag truth).render := by
      cases truth <;> rcases marks with rfl | rfl <;> decide
    simp [absent]
  | number integer =>
    have absent : mark ∉ (number integer).render := by
      intro member
      have digits : mark ∉ Nat.toDigits 10 integer.natAbs := by
        intro inside
        have digit := Nat.isDigit_of_mem_toDigits (by decide) (by decide) inside
        rcases marks with rfl | rfl <;> cases digit
      rw [render] at member
      split at member
      · rcases List.mem_cons.mp member with same | further
        · rcases marks with rfl | rfl <;> cases same
        · exact digits further
      · exact digits member
    simp [absent]

theorem kept_iff (scalar : Scalar) :
    scalar.Kept ↔ (';' ∉ scalar.render ∧ ',' ∉ scalar.render) ∧ scalar.InLimit := by
  rw [mark_absent scalar ';' (by decide), mark_absent scalar ',' (by decide)]
  cases scalar <;> simp [Kept, InLimit]

end Scalar

/-! ## Fields -/

theorem IsWord.trimmed {text : List Char} (isWord : IsWord text) : Trimmed text :=
  trimmed_of_visible isWord.1 fun char member => (isWord.2 char member).1

theorem IsWord.free {text : List Char} (isWord : IsWord text) (mark : Char)
    (isMark : mark ∈ [';', ',', ':', '{', '}']) : mark ∉ text :=
  fun member => (isWord.2 mark member).2 isMark

/-- A text is cut at the first of its marks. -/
theorem cut_at (mark : Char) (left : List Char) (free : mark ∉ left) (right : List Char) :
    (left ++ mark :: right).takeWhile (· ≠ mark) = left ∧
      (left ++ mark :: right).dropWhile (· ≠ mark) = mark :: right := by
  have others : ∀ char ∈ left, decide (char ≠ mark) = true := by
    intro char member
    exact decide_eq_true fun same => free (same ▸ member)
  constructor
  · rw [List.takeWhile_append_of_pos others, List.takeWhile_cons_of_neg (by simp), List.append_nil]
  · rw [List.dropWhile_append_of_pos others, List.dropWhile_cons_of_neg (by simp)]

namespace Insert

theorem trimmed_renderField {field : List Char × Scalar} (isWord : IsWord field.1) :
    Trimmed (renderField field) :=
  isWord.trimmed.append field.2.trimmed [':', ' ']

/-- What a field is read as. -/
def readField (letters : Letters) (row : Row) (field : List Char × Scalar) : Row :=
  row.set (String.ofList field.1) (parseExecLiteral letters field.2.render)

theorem parseField_renderField (letters : Letters) {field : List Char × Scalar}
    (isWord : IsWord field.1) (row : Row) :
    parseField letters row (renderField field) = .ok (readField letters row field) ∧
      parseField letters row (' ' :: renderField field) = .ok (readField letters row field) := by
  have plain := cut_at ':' field.1 (isWord.free ':' (by decide)) (' ' :: field.2.render)
  have padded := cut_at ':' (' ' :: field.1) (by simp [isWord.free ':' (by decide)])
    (' ' :: field.2.render)
  rw [List.cons_append] at padded
  constructor
  · have present : ¬ (':' ∉ renderField field) := by simp [renderField]
    rw [parseField, refuse, if_neg present]
    simp only [renderField, plain, isWord.trimmed.strip, List.drop_one, List.tail_cons,
      strip_space_cons, field.2.trimmed.strip]
    rfl
  · have present : ¬ (':' ∉ ' ' :: renderField field) := by simp [renderField]
    rw [parseField, refuse, if_neg present]
    simp only [renderField, padded, isWord.trimmed.strip, List.drop_one, List.tail_cons,
      strip_space_cons, field.2.trimmed.strip]
    rfl

theorem trimmed_join {separator : List Char} {text : List Char} {texts : List (List Char)}
    (all : ∀ one ∈ text :: texts, Trimmed one) : Trimmed (joinWith separator (text :: texts)) := by
  induction texts generalizing text with
  | nil => exact all text List.mem_cons_self
  | cons next texts inductionHypothesis =>
    have later := inductionHypothesis fun one member => all one (List.mem_cons_of_mem text member)
    exact (all text List.mem_cons_self).append later separator

theorem trimmed_body (insert : Insert) : Trimmed insert.body := by
  obtain ⟨class_name, fields, isClass, areFields, filled, distinct⟩ := insert
  cases fields with
  | nil => exact absurd rfl filled
  | cons field fields =>
    apply trimmed_join
    intro one member
    rw [← List.map_cons] at member
    obtain ⟨field', inside, rfl⟩ := List.mem_map.mp member
    exact trimmed_renderField (areFields field' inside)

theorem render_eq (insert : Insert) : insert.render = INSERT ++
    (insert.class_name ++ ((' ' :: '{' :: ' ' :: (insert.body ++ [' '])) ++ ['}'])) := by
  have ended : ' ' :: '{' :: ' ' :: (insert.body ++ [' ', '}']) =
      (' ' :: '{' :: ' ' :: (insert.body ++ [' '])) ++ ['}'] := by simp
  rw [render, ended]

theorem last_render (insert : Insert) : insert.render.getLast? = some '}' := by
  rw [render_eq, ← List.append_assoc insert.class_name, ← List.append_assoc INSERT,
    List.getLast?_concat]

theorem trimmed_rest (insert : Insert) : Trimmed (insert.class_name ++
    ((' ' :: '{' :: ' ' :: (insert.body ++ [' '])) ++ ['}'])) :=
  insert.isClass.trimmed.append (trimmed_of_visible (by decide) (by simp [isSpace])) _

theorem trimmed_render (insert : Insert) : Trimmed insert.render := by
  have key : Trimmed INSERT.dropLast := trimmed_of_visible (by decide) (by simp [INSERT, isSpace])
  have spaced : INSERT = INSERT.dropLast ++ [' '] := rfl
  rw [render_eq, spaced, List.append_assoc]
  exact key.append insert.trimmed_rest [' ']

/-- A written statement is read field by field. -/
theorem parse_render (letters : Letters) (insert : Insert) :
    parseInsertStatement letters insert.render =
      (insert.body.splitOn ',').foldlM (parseField letters) Dict.empty >>= fun row =>
        .ok (String.ofList insert.class_name, row) := by
  have dropped : insert.render.drop INSERT.length = insert.class_name ++
      ((' ' :: '{' :: ' ' :: (insert.body ++ [' '])) ++ ['}']) := by
    rw [render_eq]
    rfl
  have shape : insert.class_name ++ ((' ' :: '{' :: ' ' :: (insert.body ++ [' '])) ++ ['}']) =
      (insert.class_name ++ [' ']) ++ '{' :: (' ' :: (insert.body ++ [' ', '}'])) := by simp
  have unbraced : '{' ∉ insert.class_name ++ [' '] := by
    simp [insert.isClass.free '{' (by decide)]
  obtain ⟨before, behind⟩ := cut_at '{' _ unbraced (' ' :: (insert.body ++ [' ', '}']))
  have isShape : ¬ ('{' ∉ insert.class_name ++
      ((' ' :: '{' :: ' ' :: (insert.body ++ [' '])) ++ ['}']) ∨
      (insert.class_name ++ ((' ' :: '{' :: ' ' :: (insert.body ++ [' '])) ++ ['}'])).getLast? ≠
        some '}') := by
    rw [← List.append_assoc insert.class_name, List.getLast?_concat]
    simp
  have inner : (' ' :: (insert.body ++ [' ', '}'])).dropLast = ' ' :: (insert.body ++ [' ']) := by
    have split : ' ' :: (insert.body ++ [' ', '}']) = (' ' :: (insert.body ++ [' '])) ++ ['}'] := by
      simp
    rw [split, List.dropLast_concat]
  have bodyFilled : insert.body ≠ [] := by
    obtain ⟨⟨first, back, split, _⟩, _⟩ := insert.trimmed_body
    simp [split]
  have named : ¬ (insert.class_name = [] ∨ insert.body = []) := by
    simp [insert.isClass.1, bodyFilled]
  unfold parseInsertStatement
  simp only [dropped, insert.trimmed_rest.strip]
  rw [refuse, if_neg isShape, ok_bind]
  simp only [shape, before, behind, List.drop_one, List.tail_cons, inner, strip_append_space,
    insert.isClass.trimmed.strip, strip_space_cons, insert.trimmed_body.strip]
  rw [refuse, if_neg named]
  rfl

theorem plain_fields {insert : Insert} {mark : Char}
    (free : ∀ field ∈ insert.fields, mark ∉ field.2.render)
    (isMark : mark ∈ [';', ',']) : ∀ field ∈ insert.fields, mark ∉ renderField field := by
  intro field member
  have word := (insert.areFields field member).free mark
    (by rcases (by simpa using isMark : mark = ';' ∨ mark = ',') with rfl | rfl <;> decide)
  rcases (by simpa using isMark : mark = ';' ∨ mark = ',') with rfl | rfl <;>
    simp [renderField, word, free field member]

/-- A statement whose values hold no comma yields its fields as they are read. -/
theorem parse_plain (letters : Letters) (insert : Insert)
    (free : ∀ field ∈ insert.fields, ',' ∉ field.2.render) :
    parseInsertStatement letters insert.render = .ok (String.ofList insert.class_name,
      insert.fields.foldl (readField letters) Dict.empty) := by
  have items := plain_fields free (by decide)
  have words := insert.areFields
  rw [parse_render, body]
  cases fields : insert.fields with
  | nil => exact absurd fields insert.filled
  | cons field rest =>
    rw [fields] at items words
    have apart : ∀ one ∈ renderField field :: rest.map renderField, ',' ∉ one := by
      rw [← List.map_cons]
      intro one member
      obtain ⟨other, inside, rfl⟩ := List.mem_map.mp member
      exact items other inside
    have first := (parseField_renderField letters (words field List.mem_cons_self) Dict.empty).1
    have later (row : Row) : (rest.map fun one => ' ' :: renderField one).foldlM
        (parseField letters) row = .ok (rest.foldl (readField letters) row) := by
      rw [List.foldlM_map]
      exact foldlM_of_ok rest (fun row one member =>
        (parseField_renderField letters (words one (List.mem_cons_of_mem field member)) row).2) row
    rw [List.map_cons, splitOn_join _ _ apart, List.map_map, List.foldlM_cons, first, ok_bind]
    exact congrArg (· >>= fun row => .ok (String.ofList insert.class_name, row)) (later _)

end Insert

/-! ## Values without commas -/

theorem mem_strip {text : List Char} {char : Char} (member : char ∈ strip text) : char ∈ text := by
  obtain ⟨before, after, split, _⟩ := strip_eq_self_or text
  rw [split]
  simp [member]

theorem free_of_splitOn {mark : Char} (text : List Char) :
    ∀ piece ∈ text.splitOn mark, mark ∉ piece := by
  induction text with
  | nil => simp
  | cons char text inductionHypothesis =>
    rw [List.splitOn_cons_eq_if_modifyHead]
    split
    · intro piece member
      rcases List.mem_cons.mp member with rfl | further
      · exact List.not_mem_nil
      · exact inductionHypothesis piece further
    · next other =>
      cases pieces : text.splitOn mark with
      | nil => simp
      | cons head rest =>
        rw [pieces] at inductionHypothesis
        intro piece member
        rcases List.mem_cons.mp member with rfl | further
        · have apart : mark ≠ char := fun same => other (by simp [same])
          simp [apart, inductionHypothesis head List.mem_cons_self]
        · exact inductionHypothesis piece (List.mem_cons_of_mem head further)

/-- The characters of a text that is read are characters of its literal. -/
theorem literal_free {letters : Letters} {value : List Char} (free : ',' ∉ value) {text : String}
    (read : parseExecLiteral letters value = .str text) : ',' ∉ text.toList := by
  rw [parseExecLiteral] at read
  split at read
  · cases read
    intro member
    rw [String.toList_ofList] at member
    exact free (List.mem_of_mem_drop (List.dropLast_subset _ member))
  · split at read
    · cases read
    · split at read
      · cases read
      · split at read
        · cases read
        · split at read
          · cases read
          · cases read
            rwa [String.toList_ofList]

/-- No text of a row holds a comma. -/
def CommaFree (row : Row) : Prop :=
  ∀ key text, row.get? key = some (.str text) → ',' ∉ text.toList

theorem parseFields_free (letters : Letters) (items : List (List Char))
    (free : ∀ item ∈ items, ',' ∉ item) (row after : Row) (before : CommaFree row)
    (read : items.foldlM (parseField letters) row = .ok after) : CommaFree after := by
  induction items generalizing row with
  | nil =>
    cases read
    exact before
  | cons item items inductionHypothesis =>
    rw [List.foldlM_cons] at read
    obtain ⟨middle, first, rest⟩ := except_bind_ok read
    refine inductionHypothesis (fun one member => free one (List.mem_cons_of_mem item member))
      middle ?_ rest
    obtain ⟨_, _, stored⟩ := except_bind_ok first
    cases stored
    intro key text found
    rw [Dict.get_set] at found
    split at found
    · apply literal_free _ (Option.some.inj found)
      intro member
      apply free item List.mem_cons_self
      have inside := List.mem_of_mem_drop (mem_strip member)
      exact (List.dropWhile_sublist _).mem inside
    · exact before key text found

/-! ## The round trip -/

theorem foldl_readField (letters : Letters) (fields : List (List Char × Scalar)) (row : Row) :
    fields.foldl (Insert.readField letters) row =
      (fields.map fun field => (String.ofList field.1,
        parseExecLiteral letters field.2.render)).foldl (fun row entry => row.set entry.1 entry.2)
          row := by
  rw [List.foldl_map]
  rfl

theorem keys_distinct {fields : List (List Char × Scalar)} (distinct : (fields.map Prod.fst).Nodup)
    (value : List Char × Scalar → Value) :
    ((fields.map fun field => (String.ofList field.1, value field)).map Prod.fst).Nodup := by
  rw [List.map_map]
  have keys : (Prod.fst ∘ fun field => (String.ofList field.1, value field)) =
      String.ofList ∘ (Prod.fst : List Char × Scalar → List Char) := rfl
  rw [keys, ← List.map_map]
  refine distinct.map ?_
  intro left right same
  simpa using congrArg String.toList same

namespace Insert

theorem mem_join {separator : List Char} {char : Char} (apart : char ∉ separator)
    (texts : List (List Char)) :
    char ∈ joinWith separator texts ↔ ∃ text ∈ texts, char ∈ text := by
  induction texts with
  | nil => simp [joinWith]
  | cons text texts inductionHypothesis =>
    cases texts with
    | nil => simp [joinWith]
    | cons next texts =>
      rw [joinWith, List.mem_append, List.mem_append, inductionHypothesis]
      simp [apart]

theorem mem_render {insert : Insert} {field : List Char × Scalar} (member : field ∈ insert.fields)
    (inside : ';' ∈ field.2.render) : ';' ∈ insert.render := by
  have held : ';' ∈ insert.body := (mem_join (by decide) _).mpr
    ⟨renderField field, List.mem_map_of_mem member, by simp [renderField, inside]⟩
  simp [render, held]

theorem free_render (insert : Insert) (free : ∀ field ∈ insert.fields, ';' ∉ field.2.render) :
    ';' ∉ insert.render := by
  have absent : ';' ∉ insert.body := by
    intro member
    obtain ⟨text, inside, held⟩ := (mem_join (by decide) _).mp member
    obtain ⟨field, known, rfl⟩ := List.mem_map.mp inside
    exact plain_fields free (by decide) field known held
  simp [render, INSERT, absent, insert.isClass.free ';' (by decide)]

/-- A statement is read as it was written exactly when each value is kept. -/
theorem command_render (letters : Letters) (insert : Insert) (whole : ';' ∉ insert.render) :
    command letters insert.render = .ok insert.asked ↔ insert.Kept := by
  have asks (answer : Except Raised (String × Row)) (shape : parseInsertStatement letters
      insert.render = answer) : command letters insert.render =
        answer.map fun (class_name, row) => .insert class_name row := by
    have upper : insert.render.flatMap letters.upper = INSERT ++
        (insert.class_name ++ (' ' :: '{' :: ' ' :: (insert.body ++ [' ', '}']))).flatMap
          letters.upper := by
      have letter (char : Char) (small : char.toNat < 128) := letters.upper_ascii char small
      rw [render, List.flatMap_append]
      congr 1
      simp [INSERT, letter 'I' (by decide), letter 'N' (by decide), letter 'S' (by decide),
        letter 'E' (by decide), letter 'R' (by decide), letter 'T' (by decide),
        letter ' ' (by decide)]
    have other : ¬ CREATE_CLASS <+: insert.render.flatMap letters.upper := by
      rintro ⟨rest, same⟩
      rw [upper] at same
      cases (List.cons.inj same).1
    have begins : INSERT <+: insert.render.flatMap letters.upper := by
      rw [upper]
      exact List.prefix_append _ _
    rw [command, if_neg other, if_pos begins, shape]
    cases answer <;> rfl
  have noSemicolon : ∀ field ∈ insert.fields, ';' ∉ field.2.render :=
    fun field member inside => whole (mem_render member inside)
  by_cases plain : ∀ field ∈ insert.fields, ',' ∉ field.2.render
  · have rows : insert.fields.foldl (readField letters) Dict.empty = insert.row ↔
        ∀ field ∈ insert.fields, parseExecLiteral letters field.2.render = field.2.value := by
      rw [Dict.ext_iff, foldl_readField, Dict.entries_foldl_set _ (keys_distinct insert.distinct _)
        Dict.empty fun _ _ => List.not_mem_nil, row, Dict.ofEntries,
        Dict.entries_foldl_set _ (keys_distinct insert.distinct _) Dict.empty
          fun _ _ => List.not_mem_nil]
      rw [List.append_cancel_left_eq, List.map_inj_left]
      simp only [Prod.mk.injEq, true_and]
    rw [asks _ (parse_plain letters insert plain)]
    constructor
    · intro same field member
      have same : insert.fields.foldl (readField letters) Dict.empty = insert.row := by
        simpa [Except.map, asked] using same
      rw [Scalar.kept_iff]
      exact ⟨⟨noSemicolon field member, plain field member⟩,
        (field.2.literal_iff letters).mp (rows.mp same field member)⟩
    · intro kept
      have same := rows.mpr fun field member =>
        (field.2.literal_iff letters).mpr ((Scalar.kept_iff field.2).mp (kept field member)).2
      rw [same]
      rfl
  · constructor
    · intro same
      exfalso
      apply plain
      intro field member inside
      -- The text with the comma is among the values of the row, but not among those that are read.
      have quotedText : ∃ quoted, field.2 = .text quoted ∧ ',' ∈ quoted.content := by
        by_contra none
        apply (Scalar.mark_absent field.2 ',' (by decide)).mpr _ inside
        intro quoted isText held
        exact none ⟨quoted, isText, held⟩
      obtain ⟨quoted, isText, held⟩ := quotedText
      have stored : insert.row.get? (String.ofList field.1) =
          some (.str (String.ofList quoted.content)) := by
        rw [Dict.get_eq_some, row, Dict.ofEntries, Dict.entries_foldl_set _
          (keys_distinct insert.distinct _) Dict.empty fun _ _ => List.not_mem_nil]
        refine List.mem_append_right _ (List.mem_map.mpr ⟨field, member, ?_⟩)
        rw [isText]
        rfl
      cases read : parseInsertStatement letters insert.render with
      | error raised =>
        rw [asks _ read] at same
        cases same
      | ok answer =>
        rw [asks _ read] at same
        have asks : Command.insert answer.1 answer.2 = insert.asked := Except.ok.inj same
        have sameRow : answer.2 = insert.row := (Command.insert.inj asks).2
        rw [parse_render] at read
        obtain ⟨row, folded, answered⟩ := except_bind_ok read
        cases answered
        have free := parseFields_free letters _ (free_of_splitOn insert.body)
          Dict.empty row (by intro key text found; cases found) folded
        rw [show row = insert.row from sameRow] at free
        have absent := free _ _ stored
        rw [String.toList_ofList] at absent
        exact absent held
    · intro kept
      exact absurd (fun field member => ((Scalar.kept_iff field.2).mp (kept field member)).1.2) plain

end Insert

/-- A list that is made of as many parts as items has one part for each. -/
theorem single_parts {Item Part : Type} (parts : Item → List Part) (items : List Item)
    (some : ∀ item ∈ items, parts item ≠ [])
    (count : (items.flatMap parts).length ≤ items.length) :
    ∀ item ∈ items, (parts item).length = 1 := by
  have least (rest : List Item) (part : ∀ item ∈ rest, parts item ≠ []) :
      rest.length ≤ (rest.flatMap parts).length := by
    induction rest with
    | nil => exact Nat.zero_le _
    | cons item rest inductionHypothesis =>
      have here := List.length_pos_iff.mpr (part item List.mem_cons_self)
      have later := inductionHypothesis fun one member => part one (List.mem_cons_of_mem item member)
      rw [List.flatMap_cons, List.length_append, List.length_cons]
      omega
  induction items with
  | nil => exact fun item member => absurd member List.not_mem_nil
  | cons first items inductionHypothesis =>
    rw [List.flatMap_cons, List.length_append, List.length_cons] at count
    have here := List.length_pos_iff.mpr (some first List.mem_cons_self)
    have others : ∀ one ∈ items, parts one ≠ [] :=
      fun one member => some one (List.mem_cons_of_mem first member)
    have further := least items others
    intro item member
    rcases List.mem_cons.mp member with rfl | later
    · omega
    · exact inductionHypothesis others (by omega) item later

theorem mapM_ok_iff {Error Item Made : Type} {make : Item → Except Error Made} (plain : Item → Made)
    (items : List Item) :
    items.mapM make = .ok (items.map plain) ↔ ∀ item ∈ items, make item = .ok (plain item) := by
  constructor
  · induction items with
    | nil => exact fun _ item member => absurd member List.not_mem_nil
    | cons first items inductionHypothesis =>
      intro done
      rw [List.mapM_cons] at done
      obtain ⟨one, here, rest⟩ := except_bind_ok done
      obtain ⟨others, later, same⟩ := except_bind_ok rest
      obtain ⟨rfl, rfl⟩ := List.cons.inj (Except.ok.inj same)
      intro item member
      rcases List.mem_cons.mp member with rfl | further
      · exact here
      · exact inductionHypothesis later item further
  · exact fun each => mapM_of_ok plain items each

/-- `exec` asks for exactly the rows that the statements were written for if and only if no text
holds a semicolon or a comma and no integer has more digits than the language reads. -/
theorem exec_inserts_iff (letters : Letters) (inserts : List Insert) :
    exec letters (renderAll inserts) = .ok (inserts.map Insert.asked) ↔
      ∀ insert ∈ inserts, ∀ field ∈ insert.fields, field.2.Kept := by
  rw [exec, renderAll, splitExecStatements_join]
  have filled : ∀ insert ∈ inserts, splitExecStatements insert.render ≠ [] := by
    intro insert _
    apply splitExecStatements_filled
    exact ⟨'I', List.mem_append_left _ (by decide), by decide, by decide⟩
  have whole : (∀ insert ∈ inserts, ';' ∉ insert.render) →
      ((inserts.map Insert.render).flatMap splitExecStatements).mapM (command letters) =
        inserts.mapM fun insert => command letters insert.render := by
    intro free
    have single : (inserts.map Insert.render).flatMap splitExecStatements =
        inserts.map Insert.render := by
      rw [List.flatMap_map, List.map_eq_flatMap]
      exact List.flatMap_congr fun insert member =>
        splitExecStatements_one insert.trimmed_render (free insert member)
    rw [single, List.mapM_map]
    rfl
  constructor
  · intro done
    have free : ∀ insert ∈ inserts, ';' ∉ insert.render := by
      have count := length_of_mapM_ok done
      rw [List.length_map, List.flatMap_map] at count
      have single := single_parts _ inserts filled count.ge
      intro insert member separated
      have many := splitExecStatements_many insert.trimmed_render (by simp [Insert.render, INSERT])
        (by simp [insert.last_render]) separated
      rw [single insert member] at many
      omega
    rw [whole free] at done
    intro insert member
    exact (insert.command_render letters (free insert member)).mp
      ((mapM_ok_iff Insert.asked inserts).mp done insert member)
  · intro kept
    have free : ∀ insert ∈ inserts, ';' ∉ insert.render := fun insert member =>
      insert.free_render fun field inside =>
        ((Scalar.kept_iff field.2).mp (kept insert member field inside)).1.1
    rw [whole free]
    apply (mapM_ok_iff Insert.asked inserts).mpr
    intro insert member
    exact (insert.command_render letters (free insert member)).mpr (kept insert member)

/-- Letters and digits of ASCII, and no floats. -/
def Letters.ascii : Letters where
  upper char := [char.toUpper]
  lower char := [char.toLower]
  digit char := if char.isDigit then some (char.toNat - '0'.toNat) else none
  float _ := none
  upper_ascii _ _ := rfl
  lower_ascii _ _ := rfl
  digit_ascii _ _ := rfl

/-- `INSERT Person (name: 'Doe, Jane')`, in braces. -/
def janeDoe : Insert where
  class_name := ['P', 'e', 'r', 's', 'o', 'n']
  fields := [(['n', 'a', 'm', 'e'], .text
    { content := ['D', 'o', 'e', ',', ' ', 'J', 'a', 'n', 'e'], quote := '\''
      isQuote := .inl rfl, absent := by decide })]
  isClass := ⟨by decide, by simp [isSpace]⟩
  areFields := by
    intro field member
    rw [List.mem_singleton.mp member]
    exact ⟨by decide, by simp [isSpace]⟩
  filled := List.cons_ne_nil _ _
  distinct := List.nodup_singleton _

/-- The comma in the name ends the field, and what follows is no field. -/
theorem janeDoe_refused : ¬ ∀ (letters : Letters) (inserts : List Insert),
    exec letters (renderAll inserts) = .ok (inserts.map Insert.asked) := by
  intro always
  have refused : (exec Letters.ascii (renderAll [janeDoe])).toBool = false := by decide
  rw [always] at refused
  cases refused

end CaracalDB.Exec
