import CaracalDB.PythonLiterals

/-!
# Numbers of Python

The integers that `int(text, 0)` reads, and the texts that `float(text)` reads. A text here
has no blanks, no underscores and no digits beyond ASCII. A decimal has no leading zeros, unless
it is zero, and no more digits than the interpreter converts; every digit counts there.
-/

namespace CaracalDB.PyLiteral

def ZERO : CodePoint := 48

/-- `sys.int_info.default_max_str_digits` -/
def MAX_STR_DIGITS : Nat := 4300

def digitIn (base : Nat) (char : CodePoint) : Option Nat :=
  (hexDigit char).filter (· < base)

def naturalIn (base : Nat) (text : Text) : Option Nat :=
  if text = [] then none else (text.mapM (digitIn base)).map (number base)

def decimal (text : Text) : Option Nat :=
  if MAX_STR_DIGITS < text.length then none
  else (naturalIn 10 text).filter fun value => value = 0 || text.head? ≠ some ZERO

def natural : Text → Option Nat
  | zero :: letter :: digits =>
      if zero = ZERO ∧ letter.val ∈ [120, 88] then naturalIn 16 digits
      else if zero = ZERO ∧ letter.val ∈ [111, 79] then naturalIn 8 digits
      else if zero = ZERO ∧ letter.val ∈ [98, 66] then naturalIn 2 digits
      else decimal (zero :: letter :: digits)
  | text => decimal text

/-- `int(text, 0)`; none if it raises. -/
def pyInt : Text → Option Int
  | [] => none
  | sign :: text =>
      if sign.val = 45 then (natural text).map fun value : Nat => -(value : Int)
      else if sign.val = 43 then (natural text).map fun value : Nat => (value : Int)
      else (natural (sign :: text)).map fun value : Nat => (value : Int)

section Integers

variable {base : Nat} {text : Text}

theorem number_eq_ofDigits {digits : List Nat} :
    number base digits = Nat.ofDigits base digits.reverse := by
  rw [Nat.ofDigits_eq_foldr, List.foldr_reverse, number]
  congr
  funext read digit
  simp [Nat.mul_comm, Nat.add_comm]

theorem number_eq_zero_iff (positive : base ≠ 0) {digits : List Nat} :
    number base digits = 0 ↔ ∀ digit ∈ digits, digit = 0 := by
  rw [number_eq_ofDigits]
  constructor
  · intro none digit member
    exact Nat.digits_zero_of_eq_zero positive none digit (List.mem_reverse.mpr member)
  · intro zeros
    have same : digits.reverse = List.replicate digits.length 0 := by
      rw [List.eq_replicate_iff]
      exact ⟨List.length_reverse, fun digit member => zeros digit (List.mem_reverse.mp member)⟩
    rw [same, Nat.ofDigits_replicate_zero]

theorem naturalIn_digits (filled : text ≠ [])
    (digits : ∀ char ∈ text, (digitIn base char).isSome = true) :
    naturalIn base text = some (number base (text.filterMap (digitIn base))) := by
  have read : text.mapM (digitIn base) = some (text.filterMap (digitIn base)) := by
    clear filled
    induction text with
    | nil => rfl
    | cons char text ih =>
      rw [List.forall_mem_cons] at digits
      obtain ⟨value, same⟩ := Option.isSome_iff_exists.mp digits.1
      rw [List.mapM_cons, ih digits.2, same, List.filterMap_cons, same]
      rfl
  rw [naturalIn, if_neg filled, read, Option.map_some]

theorem naturalIn_nil : naturalIn base [] = none := if_pos rfl

theorem digitIn_val {char : CodePoint} (digit : (digitIn 10 char).isSome = true) :
    48 ≤ char.val ∧ char.val ≤ 57 ∧ digitIn 10 char = some (char.val - 48) := by
  rw [digitIn, hexDigit] at digit ⊢
  split
  · next between =>
    refine ⟨between.1, between.2, ?_⟩
    rw [Option.filter_some, if_pos]
    apply decide_eq_true
    omega
  · next outside =>
    rw [if_neg outside] at digit
    split at digit
    · rw [Option.filter_some, if_neg] at digit
      · cases digit
      · rw [decide_eq_true_eq]
        omega
    split at digit
    · rw [Option.filter_some, if_neg] at digit
      · cases digit
      · rw [decide_eq_true_eq]
        omega
    · cases digit

theorem zero_iff_digits (digits : ∀ char ∈ text, (digitIn 10 char).isSome = true) :
    number 10 (text.filterMap (digitIn 10)) = 0 ↔ ∀ char ∈ text, char = ZERO := by
  rw [number_eq_zero_iff (by decide)]
  constructor
  · intro zeros char member
    obtain ⟨low, _, same⟩ := digitIn_val (digits char member)
    have zero := zeros _ (List.mem_filterMap.mpr ⟨char, member, same⟩)
    apply Fin.ext
    have code : ZERO.val = 48 := rfl
    omega
  · intro zeros digit member
    obtain ⟨char, listed, same⟩ := List.mem_filterMap.mp member
    rw [zeros char listed] at same
    cases same
    rfl

/-- Which decimals are read. -/
theorem decimal_digits (filled : text ≠ [])
    (digits : ∀ char ∈ text, (digitIn 10 char).isSome = true) (value : Nat) :
    decimal text = some value ↔
      (text.length ≤ MAX_STR_DIGITS ∧ (text.head? = some ZERO → ∀ char ∈ text, char = ZERO)) ∧
        number 10 (text.filterMap (digitIn 10)) = value := by
  rw [decimal, naturalIn_digits filled digits]
  by_cases long : MAX_STR_DIGITS < text.length
  · rw [if_pos long]
    constructor
    · intro read
      cases read
    · intro ordered
      exact absurd ordered.1.1 (Nat.not_le.mpr long)
  · rw [if_neg long, Option.filter_eq_some_iff, Option.some_inj]
    have leading : (decide (value = 0) || decide (text.head? ≠ some ZERO)) = true ↔
        (text.head? = some ZERO → value = 0) := by
      rw [Bool.or_eq_true, decide_eq_true_eq, decide_eq_true_eq, or_comm, ← imp_iff_not_or]
    rw [leading, ← zero_iff_digits digits]
    constructor
    · rintro ⟨rfl, ordered⟩
      exact ⟨⟨Nat.not_lt.mp long, ordered⟩, rfl⟩
    · rintro ⟨⟨_, ordered⟩, rfl⟩
      exact ⟨rfl, ordered⟩

theorem natural_decimal (digits : ∀ char ∈ text, (digitIn 10 char).isSome = true) :
    natural text = decimal text := by
  match text, digits with
  | [], _ => rfl
  | [_], _ => rfl
  | zero :: letter :: text, digits =>
    obtain ⟨_, high, _⟩ := digitIn_val (digits letter (by simp))
    have noRadix : ∀ first second, 57 < first → 57 < second →
        ¬(zero = ZERO ∧ letter.val ∈ [first, second]) := by
      rintro first second above above' ⟨_, member⟩
      simp only [List.mem_cons, List.not_mem_nil, or_false] at member
      omega
    rw [natural, if_neg (noRadix _ _ (by decide) (by decide)),
      if_neg (noRadix _ _ (by decide) (by decide)), if_neg (noRadix _ _ (by decide) (by decide))]

end Integers

/-! ## Floats -/

def isDigit (char : CodePoint) : Bool := 48 ≤ char.val && char.val ≤ 57

def lower (char : CodePoint) : Nat :=
  if 65 ≤ char.val ∧ char.val ≤ 90 then char.val + 32 else char.val

/-- `inf`, `infinity` and `nan` -/
def FLOAT_WORDS : List (List Nat) :=
  [[105, 110, 102], [105, 110, 102, 105, 110, 105, 116, 121], [110, 97, 110]]

def dropSign : Text → Text
  | [] => []
  | sign :: text => if sign.val = 45 ∨ sign.val = 43 then text else sign :: text

def exponentReads : Text → Bool
  | [] => true
  | letter :: text =>
      (letter.val = 101 || letter.val = 69) && dropSign text ≠ [] && (dropSign text).all isDigit

/-- Whether a float may go on so behind the digits before its point. -/
def fractionReads (whole : Text) : Text → Bool
  | [] => whole ≠ []
  | mark :: text =>
      if mark.val = 46 then
        (whole ≠ [] || text.takeWhile isDigit ≠ []) && exponentReads (text.dropWhile isDigit)
      else whole ≠ [] && exponentReads (mark :: text)

/-- Whether `float(text)` reads the text. -/
def floatReads (text : Text) : Bool :=
  (dropSign text).map lower ∈ FLOAT_WORDS ||
    fractionReads ((dropSign text).takeWhile isDigit) ((dropSign text).dropWhile isDigit)

section Floats

variable {digits tail : Text}

/-- Digits are taken whole in front of what is none. -/
theorem takeWhile_digits (plain : digits.all isDigit = true)
    (ends : ∀ char ∈ tail.head?, isDigit char = false) :
    (digits ++ tail).takeWhile isDigit = digits ∧ (digits ++ tail).dropWhile isDigit = tail := by
  rw [List.takeWhile_append_of_pos (List.all_eq_true.mp plain),
    List.dropWhile_append_of_pos (List.all_eq_true.mp plain)]
  cases tail with
  | nil => simp
  | cons char tail => simp [ends char rfl]

theorem dropSign_digits (plain : digits.all isDigit = true) (filled : digits ≠ []) :
    dropSign (digits ++ tail) = digits ++ tail := by
  cases digits with
  | nil => exact absurd rfl filled
  | cons char digits =>
    simp only [List.all_cons, isDigit, Bool.and_eq_true, decide_eq_true_eq] at plain
    rw [List.cons_append, dropSign, if_neg]
    omega

end Floats

end CaracalDB.PyLiteral
