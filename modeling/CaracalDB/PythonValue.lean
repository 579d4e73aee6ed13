import CaracalDB.Diagnostics
import CaracalDB.Dict
import Mathlib.Algebra.Group.Int.Defs
import Mathlib.Algebra.GroupWithZero.Nat

/-!
# Values of a row

Rows hold what the engine's callers put into dictionaries and what Arrow hands
back from a column. Numbers keep their Python type; a float is the text that
`repr` gives it. Any further scalar (bytes, a date, a decimal) is kept by its
type's name and its text.
-/

namespace CaracalDB

inductive Value where
  | null
  | bool (flag : Bool)
  | int (number : Int)
  | float (text : String)
  | str (text : String)
  | other (kind text : String)
  | list (items : List Value)
  | dict (entries : List (String × Value))
deriving Repr

namespace Value

/-! ### Comparing -/

mutual

def same : Value → Value → Bool
  | .null, .null => true
  | .bool left, .bool right => left = right
  | .int left, .int right => left = right
  | .float left, .float right => left = right
  | .str left, .str right => left = right
  | .other kind left, .other sort right => kind = sort && left = right
  | .list left, .list right => sameItems left right
  | .dict left, .dict right => sameEntries left right
  | _, _ => false

def sameItems : List Value → List Value → Bool
  | [], [] => true
  | left :: lefts, right :: rights => same left right && sameItems lefts rights
  | _, _ => false

def sameEntries : List (String × Value) → List (String × Value) → Bool
  | [], [] => true
  | (name, left) :: lefts, (label, right) :: rights =>
      name = label && same left right && sameEntries lefts rights
  | _, _ => false

end

mutual

theorem same_iff : ∀ left right : Value, same left right = true ↔ left = right
  | .null, right => by cases right <;> simp [same]
  | .bool _, right => by cases right <;> simp [same]
  | .int _, right => by cases right <;> simp [same]
  | .float _, right => by cases right <;> simp [same]
  | .str _, right => by cases right <;> simp [same]
  | .other _ _, right => by cases right <;> simp [same]
  | .list items, right => by cases right <;> simp [same, sameItems_iff items]
  | .dict entries, right => by cases right <;> simp [same, sameEntries_iff entries]

theorem sameItems_iff : ∀ left right : List Value, sameItems left right = true ↔ left = right
  | [], right => by cases right <;> simp [sameItems]
  | item :: items, right => by
    cases right <;> simp [sameItems, same_iff item, sameItems_iff items]

theorem sameEntries_iff : ∀ left right : List (String × Value),
    sameEntries left right = true ↔ left = right
  | [], right => by cases right <;> simp [sameEntries]
  | (name, item) :: entries, right => by
    cases right with
    | nil => simp [sameEntries]
    | cons head rest =>
      obtain ⟨label, second⟩ := head
      simp [sameEntries, same_iff item, sameEntries_iff entries, and_assoc]

end

instance : DecidableEq Value := fun left right => decidable_of_iff _ (same_iff left right)

/-! ### Filing -/

/-- The digits that a text begins with, as a number and its length, and the rest. -/
def digits (read : Nat) (count : Nat) : List Char → Nat × Nat × List Char
  | [] => (read, count, [])
  | char :: rest =>
      if char.isDigit then digits (10 * read + (char.toNat - '0'.toNat)) (count + 1) rest
      else (read, count, char :: rest)

/-- The digits behind the point, if there is one. -/
def fraction (read : Nat) : List Char → Nat × Nat × List Char
  | '.' :: rest => digits read 0 rest
  | rest => (read, 0, rest)

/-- The exponent at the end of a text; other words than numbers have none. -/
def exponent : List Char → Option Int
  | [] => some 0
  | 'e' :: '+' :: rest => some (digits 0 0 rest).1
  | 'e' :: '-' :: rest => some (-(digits 0 0 rest).1)
  | _ => none

/-- A number of units of a power of ten, if it is whole. -/
def shifted (number : Nat) (power : Int) : Option Int :=
  if 0 ≤ power then some (number * 10 ^ power.toNat)
  else if number % 10 ^ (-power).toNat = 0 then some (number / 10 ^ (-power).toNat)
  else none

/-- The integer that a float without its sign equals. -/
def wholeMagnitude (text : List Char) : Option Int :=
  let (whole, length, rest) := digits 0 0 text
  let (number, places, rest) := fraction whole rest
  if length = 0 then none
  else (exponent rest).bind fun power => shifted number (power - places)

/-- The integer that a float equals. -/
def wholeNumber (text : String) : Option Int :=
  match text.toList with
  | '-' :: magnitude => (wholeMagnitude magnitude).map fun number => -number
  | magnitude => wholeMagnitude magnitude

/-- The key under which a dictionary files a value: `True`, `1` and `1.0` share one. -/
def hashed : Value → Except Raised Value
  | .bool flag => .ok (.int (if flag then 1 else 0))
  | .float text => .ok (match wholeNumber text with
      | none => .float text
      | some whole => .int whole)
  | .list _ => .error (.typeError "unhashable type: 'list'")
  | .dict _ => .error (.typeError "unhashable type: 'dict'")
  | value => .ok value

/-- The truth value of a value. -/
def truthy : Value → Bool
  | .null => false
  | .bool flag => flag
  | .int number => number ≠ 0
  | .float text => wholeNumber text ≠ some 0
  | .str text => text ≠ ""
  | .other _ _ => true
  | .list items => items ≠ []
  | .dict entries => entries ≠ []

/-- `left or right` -/
def orElse (left right : Value) : Value := if left.truthy then left else right

/-! ### Texts -/

/-- A character inside a quoted text. -/
def escapeChar (quote : Char) (char : Char) : List Char :=
  if char = '\\' ∨ char = quote then ['\\', char]
  else if char = '\n' then ['\\', 'n']
  else if char = '\r' then ['\\', 'r']
  else if char = '\t' then ['\\', 't']
  else [char]

/-- `repr(text)` -/
def quoted (text : String) : String :=
  let quote := if '\'' ∈ text.toList ∧ '"' ∉ text.toList then '"' else '\''
  String.ofList (quote :: text.toList.flatMap (escapeChar quote) ++ [quote])

mutual

/-- `repr(value)` -/
def repr : Value → String
  | .null => "None"
  | .bool flag => if flag then "True" else "False"
  | .int number => toString number
  | .float text => text
  | .str text => quoted text
  | .other _ text => text
  | .list items => "[" ++ ", ".intercalate (reprItems items) ++ "]"
  | .dict entries => "\x7b" ++ ", ".intercalate (reprEntries entries) ++ "\x7d"

def reprItems : List Value → List String
  | [] => []
  | item :: items => repr item :: reprItems items

def reprEntries : List (String × Value) → List String
  | [] => []
  | (name, item) :: entries => (quoted name ++ ": " ++ repr item) :: reprEntries entries

end

/-- `str(value)` -/
def toText : Value → String
  | .str text => text
  | value => repr value

end Value

/-- A row: the values of its columns, in column order. -/
abbrev Row := Dict String Value

/-- `row.get(name)` -/
def Row.read (row : Row) (name : String) : Value := (row.get? name).getD .null

theorem Row.read_of_get {row : Row} {name : String} {value : Value}
    (stored : row.get? name = some value) : row.read name = value := by
  rw [Row.read, stored]
  rfl

theorem Row.get_of_mem {row : Row} {name : String} (present : name ∈ row.keys) :
    row.get? name = some (row.read name) := by
  obtain ⟨value, stored⟩ := (row.mem_keys name).mp present
  rw [Row.read_of_get stored, stored]

theorem Row.read_set (row : Row) (name column : String) (value : Value) :
    Row.read (row.set name value) column = if column = name then value else row.read column := by
  rw [Row.read, Dict.get_set]
  split <;> rfl

end CaracalDB
