import CaracalDB.TuftLiterals

/-!
# Decoding of literals

Which literal tokens are decoded, and to what. A float and a decimal always are. A string is
if Python finds its end where the grammar does and knows its escapes; an integer is if its
radix has digits and, in decimal, if it has no leading zeros and is not too long. A query
leaves `parse_tuft` with an exception of Python exactly if one of its literals is not decoded.
-/

namespace CaracalDB.TuftLiteral

open PyLiteral

variable {names : Text → Option CodePoint}

/-! ## Strings -/

theorem SingleBody.inside {quote : CodePoint} {text : Text} (plain : SingleBody quote text) :
    Inside [quote] text := by
  induction plain with
  | nil => exact .nil
  | char apart single _ ih => exact .char single (not_leads_of_ne apart.symm) ih
  | pair _ _ ih => exact .pair ih

/-- The first three quotes behind a body are its closing ones, so none stand in it. -/
theorem inside_of_first {text : Text}
    (first : ∀ before after, text ++ TRIPLE = before ++ (TRIPLE ++ after) → after = []) :
    Inside TRIPLE text := by
  have behind {char : CodePoint} {text : Text}
      (first : ∀ before after, char :: text ++ TRIPLE = before ++ (TRIPLE ++ after) → after = [])
      (before after : Text) (same : text ++ TRIPLE = before ++ (TRIPLE ++ after)) :
      after = [] := by
    apply first (char :: before)
    rw [List.cons_append, same, List.cons_append]
  induction length : text.length using Nat.strong_induction_on generalizing text with
  | _ length ih =>
    match text, length with
    | [], _ => exact .nil
    | char :: text, _ =>
      have shorter := ‹(char :: text).length = _›
      rw [List.length_cons] at shorter
      by_cases slash : char = BACKSLASH
      · subst slash
        match text with
        | [] => exact .last
        | hidden :: text =>
          rw [List.length_cons] at shorter
          exact .pair (ih text.length (by omega) (behind (behind first)) rfl)
      · apply Inside.char slash _ (ih text.length (by omega) (behind first) rfl)
        rintro ⟨after, same⟩
        have none := first [] after same.symm
        have long := congrArg List.length same
        rw [none, List.append_nil, List.length_cons, List.length_append] at long
        omega

/-- A string that Python reads: what it holds can be encoded, its backslashes and line breaks are in
order, and its escapes are known. -/
def StringToken.WellFormed (names : Text → Option CodePoint) (token : StringToken) : Prop :=
  (∀ char ∈ token.body, encodable char = true) ∧
    paired token.multiline (newlines false token.body) = true ∧
      Escapes names (newlines false token.body)

theorem string_isSome_iff (token : StringToken) :
    (STRING names token.text).isSome = true ↔ token.WellFormed names := by
  have read : STRING names token.text =
      if token.body.all encodable = true ∧
          paired token.multiline (newlines false token.body) = true then
        unescape names (newlines false token.body)
      else none := by
    cases token with
    | single quote body quoted plain => exact literalEval_single quoted plain.inside
    | triple body first => exact literalEval_triple (by decide) (inside_of_first first)
  rw [read, StringToken.WellFormed, ← List.all_eq_true, ← and_assoc, ← unescape_isSome_iff]
  split
  · next ordered => rw [and_iff_right ordered]
  · next unordered =>
    constructor
    · intro failed
      cases failed
    · intro both
      exact absurd both.1 unordered

/-- Escaping leaves no quote and no backslash outside a pair. -/
theorem escaped_body {quote : CodePoint} (quoted : quote ∈ QUOTES) (text : Text) :
    SingleBody quote (escaped quote text) := by
  obtain ⟨_, noBreak, _⟩ := quote_ne quoted
  induction text with
  | nil => exact .nil
  | cons char text ih =>
    rw [escaped_cons]
    split
    · next hidden =>
      apply SingleBody.pair _ ih
      rcases hidden with same | same
      · rw [same]
        decide
      · rw [same]
        exact noBreak
    · next plain =>
      rw [not_or] at plain
      exact .char plain.2 plain.1 ih

/-- The token that holds a text, with its backslashes and quotes escaped. -/
def enclosed (quote : CodePoint) (quoted : quote ∈ QUOTES) (text : Text) : StringToken :=
  .single quote (escaped quote text) quoted (escaped_body quoted text)

theorem enclosed_read {quote : CodePoint} (quoted : quote ∈ QUOTES) (text : Text) :
    STRING names (enclosed quote quoted text).text = some text ↔
      ∀ char ∈ text, encodable char = true ∧ char ≠ LF ∧ char ≠ CR :=
  literalEval_escaped quoted

/-! ## Integers -/

def IntToken.digits (token : IntToken) : Text := plainText token.chars

/-- What the digits stand for, the last one with place value one. -/
def IntToken.value (token : IntToken) : Int :=
  (if token.negative then -1 else 1) *
    (Nat.ofDigits token.radix.base
      (token.digits.filterMap (digitIn token.radix.base)).reverse : Nat)

/-- An integer that Python reads: there are digits, and a decimal is zero or begins with another
digit, and is not too long. -/
def IntToken.WellFormed (token : IntToken) : Prop :=
  token.digits ≠ [] ∧
    (token.radix = .decimal →
      token.digits.length ≤ MAX_STR_DIGITS ∧
        (token.digits.head? = some ZERO → ∀ char ∈ token.digits, char = ZERO))

section Int

variable (token : IntToken)

theorem IntToken.digits_plain :
    ∀ char ∈ token.digits, (digitIn token.radix.base char).isSome = true := by
  intro char member
  obtain ⟨listed, apart⟩ := List.mem_filter.mp member
  rcases token.plain char listed with same | digit
  · simp [same] at apart
  · exact digit

theorem IntToken.digits_of_decimal (decimal : token.radix = .decimal) : token.digits ≠ [] := by
  have leading := token.leading decimal
  have filled := token.filled
  rw [digits]
  cases chars : token.chars with
  | nil => exact absurd chars filled
  | cons char others =>
    rw [chars] at leading
    have apart : char ≠ UNDERSCORE := fun same => leading (by simp [same])
    simp [plainText, apart]

theorem natural_based (based : token.radix ≠ .decimal) :
    natural (token.radix.opening ++ token.digits) = naturalIn token.radix.base token.digits := by
  cases radix : token.radix with
  | decimal => exact absurd radix based
  | hexadecimal => rfl
  | binary => rfl

/-- The text behind the sign is read exactly if the token is well formed. -/
theorem natural_token :
    (token.WellFormed → natural (token.radix.opening ++ token.digits) =
      some (number token.radix.base (token.digits.filterMap (digitIn token.radix.base)))) ∧
      ((natural (token.radix.opening ++ token.digits)).isSome = true → token.WellFormed) := by
  have plain := token.digits_plain
  by_cases radix : token.radix = .decimal
  · have filled := token.digits_of_decimal radix
    rw [radix] at plain
    rw [radix, Radix.opening, List.nil_append, natural_decimal plain]
    constructor
    · intro formed
      exact (decimal_digits filled plain _).mpr ⟨formed.2 radix, rfl⟩
    · intro read
      obtain ⟨value, read⟩ := Option.isSome_iff_exists.mp read
      exact ⟨filled, fun _ => ((decimal_digits filled plain value).mp read).1⟩
  · rw [natural_based token radix]
    constructor
    · intro formed
      exact naturalIn_digits formed.1 plain
    · intro read
      constructor
      · intro none
        rw [none, naturalIn_nil] at read
        cases read
      · intro decimal
        exact absurd decimal radix

theorem plainText_append (first second : Text) :
    plainText (first ++ second) = plainText first ++ plainText second :=
  List.filter_append first second

theorem plainText_cons {char : CodePoint} (apart : char ≠ UNDERSCORE) (text : Text) :
    plainText (char :: text) = char :: plainText text :=
  List.filter_cons_of_pos (decide_eq_true apart)

theorem plainText_minus (negative : Bool) : plainText (minus negative) = minus negative := by
  cases negative with
  | false => rfl
  | true => rfl

theorem plainText_opening (radix : Radix) : plainText radix.opening = radix.opening := by
  cases radix with
  | decimal => rfl
  | hexadecimal => rfl
  | binary => rfl

/-- Behind the sign stands a digit. -/
theorem digit_leads : ∃ first others, token.radix.opening ++ token.digits = first :: others ∧
    48 ≤ first.val := by
  have plain := token.digits_plain
  cases radix : token.radix with
  | decimal =>
    have filled := token.digits_of_decimal radix
    rw [radix] at plain
    cases digits : token.digits with
    | nil => exact absurd digits filled
    | cons first others =>
      have digit := plain first (by simp [digits])
      exact ⟨first, others, rfl, (digitIn_val digit).1⟩
  | hexadecimal => exact ⟨ZERO, _, rfl, by decide⟩
  | binary => exact ⟨ZERO, _, rfl, by decide⟩

theorem int_eq : INT token.text =
    (natural (token.radix.opening ++ token.digits)).map fun value : Nat =>
      (if token.negative then -1 else 1) * (value : Int) := by
  obtain ⟨first, others, leads, high⟩ := digit_leads token
  rw [INT, IntToken.text, plainText_append, plainText_append, plainText_minus, plainText_opening]
  change pyInt (_ ++ (_ ++ token.digits)) = _
  rw [leads]
  cases token.negative with
  | true =>
    have negative : (45 : CodePoint).val = 45 := rfl
    rw [minus, if_pos rfl, List.singleton_append, pyInt, if_pos negative]
    simp
  | false =>
    rw [minus, if_neg Bool.false_ne_true, List.nil_append, pyInt, if_neg (by omega),
      if_neg (by omega)]
    simp

theorem int_value (formed : token.WellFormed) : INT token.text = some token.value := by
  rw [int_eq, (natural_token token).1 formed, Option.map_some, IntToken.value, number_eq_ofDigits]

theorem int_isSome_iff : (INT token.text).isSome = true ↔ token.WellFormed := by
  constructor
  · intro read
    rw [int_eq, Option.isSome_map] at read
    exact (natural_token token).2 read
  · intro formed
    rw [int_value token formed]
    rfl

theorem int_value_iff : INT token.text = some token.value ↔ token.WellFormed := by
  constructor
  · intro read
    rw [← int_isSome_iff, read]
    rfl
  · exact int_value token

end Int

/-! ## Floats -/

theorem Exponent.sign_cases (exponent : Exponent) :
    exponent.sign = [] ∨ exponent.sign = [43] ∨ exponent.sign = [45] := by
  simpa only [List.mem_cons, List.not_mem_nil, or_false] using exponent.signs

/-- Digits without their underscores. -/
theorem digits_plainText (digits : Digits) :
    plainText digits.text ≠ [] ∧ (plainText digits.text).all isDigit = true := by
  constructor
  · intro none
    have apart : digits.first ≠ UNDERSCORE := by
      intro same
      have digit := digits.digit
      rw [same] at digit
      cases digit
    have listed : digits.first ∈ plainText digits.text :=
      List.mem_filter.mpr ⟨List.mem_cons_self, decide_eq_true apart⟩
    rw [none] at listed
    cases listed
  · rw [List.all_eq_true]
    intro char member
    obtain ⟨listed, apart⟩ := List.mem_filter.mp member
    rcases List.mem_cons.mp listed with same | other
    · rw [same, digits.digit]
    · rcases digits.plain char other with digit | same
      · exact digit
      · simp [same] at apart

theorem plainText_fraction (fraction : Option Digits) :
    plainText (fractionText fraction) =
      match fraction with
      | none => []
      | some digits => 46 :: plainText digits.text := by
  cases fraction with
  | none => rfl
  | some digits => exact plainText_cons (by decide) _

theorem plainText_exponent (exponent : Option Exponent) :
    plainText (exponentText exponent) =
      match exponent with
      | none => []
      | some exponent => exponent.letter :: (exponent.sign ++ plainText exponent.digits.text) := by
  cases exponent with
  | none => rfl
  | some exponent =>
    have letter : exponent.letter ≠ UNDERSCORE := by
      intro same
      rcases exponent.letters with code | code
      · rw [same] at code
        cases code
      · rw [same] at code
        cases code
    have sign : plainText exponent.sign = exponent.sign := by
      rcases exponent.sign_cases with same | same | same
      · rw [same]
        rfl
      · rw [same]
        rfl
      · rw [same]
        rfl
    dsimp only [exponentText]
    rw [Exponent.text, plainText_cons letter, plainText_append, sign]

theorem exponentReads_plainText (exponent : Option Exponent) :
    exponentReads (plainText (exponentText exponent)) = true := by
  rw [plainText_exponent]
  cases exponent with
  | none => rfl
  | some exponent =>
    obtain ⟨filled, digits⟩ := digits_plainText exponent.digits
    have unsigned : dropSign (exponent.sign ++ plainText exponent.digits.text) =
        plainText exponent.digits.text := by
      rcases exponent.sign_cases with same | same | same
      · rw [same, List.nil_append, ← List.append_nil (plainText exponent.digits.text),
          dropSign_digits digits filled]
      · rw [same]
        rfl
      · rw [same]
        rfl
    dsimp only
    rw [exponentReads, unsigned, digits]
    simpa [filled] using exponent.letters

/-- No digit stands at the letter of an exponent. -/
theorem exponent_ends (exponent : Option Exponent) :
    ∀ char ∈ (plainText (exponentText exponent)).head?, isDigit char = false ∧ char.val ≠ 46 := by
  intro char member
  rw [plainText_exponent] at member
  cases exponent with
  | none => cases member
  | some exponent =>
    cases member
    rw [isDigit, Bool.and_eq_false_iff, decide_eq_false_iff_not, decide_eq_false_iff_not]
    have letters := exponent.letters
    omega

/-- The text of a float without sign, underscores and suffix. -/
def floatBody (whole : Digits) (fraction : Option Digits) (exponent : Option Exponent) : Text :=
  plainText whole.text ++ (plainText (fractionText fraction) ++ plainText (exponentText exponent))

section Float

variable (whole : Digits) (fraction : Option Digits) (exponent : Option Exponent)

theorem fractionReads_tail {digits : Text} (filled : digits ≠ []) :
    fractionReads digits
      (plainText (fractionText fraction) ++ plainText (exponentText exponent)) = true := by
  have reads := exponentReads_plainText exponent
  have ends := exponent_ends exponent
  rw [plainText_fraction]
  cases fraction with
  | none =>
    dsimp only
    rw [List.nil_append]
    cases tail : plainText (exponentText exponent) with
    | nil => simp [fractionReads, filled]
    | cons mark text =>
      rw [tail] at reads ends
      have noPoint := (ends mark rfl).2
      rw [fractionReads, if_neg noPoint, reads]
      simp [filled]
  | some fraction =>
    have behind := (takeWhile_digits (digits_plainText fraction).2 fun char member =>
      (ends char member).1).2
    dsimp only
    rw [List.cons_append, fractionReads, if_pos (by rfl), behind, reads]
    simp [filled]

theorem floatReads_body (negative : Bool) :
    floatReads (minus negative ++ floatBody whole fraction exponent) = true := by
  obtain ⟨filled, digits⟩ := digits_plainText whole
  have unsigned : dropSign (minus negative ++ floatBody whole fraction exponent) =
      floatBody whole fraction exponent := by
    cases negative with
    | true => rfl
    | false =>
      rw [minus, if_neg Bool.false_ne_true, List.nil_append, floatBody,
        dropSign_digits digits filled]
  have ends : ∀ char ∈ (plainText (fractionText fraction) ++
      plainText (exponentText exponent)).head?, isDigit char = false := by
    rw [plainText_fraction]
    cases fraction with
    | none => exact fun char member => (exponent_ends exponent char member).1
    | some fraction =>
      intro char member
      cases member
      rfl
  obtain ⟨taken, dropped⟩ := takeWhile_digits digits ends
  rw [floatReads, unsigned, floatBody, taken, dropped, fractionReads_tail _ _ filled, Bool.or_true]

/-- Only the suffix has the letter it begins with. -/
theorem not_f32_body (negative : Bool) :
    ¬F32 <:+ minus negative ++ floatBody whole fraction exponent := by
  intro suffix
  have digit {digits : Digits} {char : CodePoint} (member : char ∈ plainText digits.text) :
      char ≠ 102 := by
    intro same
    have plain := List.all_eq_true.mp (digits_plainText digits).2 char member
    rw [same] at plain
    cases plain
  have letter : (102 : CodePoint) ∈ minus negative ++ floatBody whole fraction exponent :=
    suffix.subset (by simp [F32])
  rcases List.mem_append.mp letter with sign | letter
  · cases negative with
    | true => simp [minus] at sign
    | false => simp [minus] at sign
  rcases List.mem_append.mp letter with inWhole | letter
  · exact digit inWhole rfl
  rcases List.mem_append.mp letter with inFraction | inExponent
  · rw [plainText_fraction] at inFraction
    cases fraction with
    | none => cases inFraction
    | some fraction =>
      rcases List.mem_cons.mp inFraction with same | member
      · cases same
      · exact digit member rfl
  · rw [plainText_exponent] at inExponent
    cases exponent with
    | none => cases inExponent
    | some exponent =>
      rcases List.mem_cons.mp inExponent with same | member
      · have letters := exponent.letters
        rw [← same] at letters
        rcases letters with code | code
        · cases code
        · cases code
      rcases List.mem_append.mp member with sign | member
      · rcases exponent.sign_cases with same | same | same
        · simp [same] at sign
        · simp [same] at sign
        · simp [same] at sign
      · exact digit member rfl

end Float

theorem float_isSome (token : FloatToken) : (FLOAT token.text).isSome = true := by
  cases token with
  | inf => decide
  | nan => decide
  | number negative whole fraction exponent f32 _ =>
    have reads := floatReads_body whole fraction exponent negative
    have plain : plainText (FloatToken.number negative whole fraction exponent f32 ‹_›).text =
        minus negative ++ floatBody whole fraction exponent ++ if f32 then F32 else [] := by
      rw [FloatToken.text, plainText_append, plainText_append, plainText_append, plainText_append,
        plainText_minus, floatBody]
      cases f32 with
      | true => rfl
      | false => rfl
    cases f32 with
    | true =>
      have suffix : F32 <:+ minus negative ++ floatBody whole fraction exponent ++ F32 :=
        List.suffix_append _ _
      have cut : (minus negative ++ floatBody whole fraction exponent ++ F32).take
          ((minus negative ++ floatBody whole fraction exponent ++ F32).length - 3) =
            minus negative ++ floatBody whole fraction exponent := by
        apply List.take_left'
        simp only [List.length_append, F32, List.length_cons, List.length_nil]
        omega
      rw [if_pos rfl] at plain
      simp only [FLOAT, plain, if_pos suffix, cut, reads, if_true, Option.isSome_some]
    | false =>
      rw [if_neg Bool.false_ne_true, List.append_nil] at plain
      simp only [FLOAT, plain, if_neg (not_f32_body whole fraction exponent negative), reads,
        if_true, Option.isSome_some]

end CaracalDB.TuftLiteral
