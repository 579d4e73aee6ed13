import CaracalDB.LiteralDecoding

/-!
# Exceptions of literals

What a query can raise. The transformer goes through a tree from left to right, and the first
literal that is not decoded ends it. So a query raises `CaracalError`s only if all its
literals are well formed.
-/

namespace CaracalDB.TuftLiteral

open PyLiteral

/-- A literal that Python decodes. -/
def LiteralToken.WellFormed (names : Text → Option CodePoint) : LiteralToken → Prop
  | string token => token.WellFormed names
  | int token => token.WellFormed
  | float _ => True
  | decimal _ => True

def LiteralToken.raises (names : Text → Option CodePoint) (token : LiteralToken) : Bool :=
  (token.decode names).isNone

def LiteralToken.thrown (token : LiteralToken) : Thrown :=
  .visitError token.type token.text

theorem raises_iff {names : Text → Option CodePoint} (token : LiteralToken) :
    token.raises names = false ↔ token.WellFormed names := by
  rw [LiteralToken.raises, Option.isNone_eq_false_iff]
  cases token with
  | string token =>
    rw [LiteralToken.decode, Option.isSome_map]
    exact string_isSome_iff token
  | int token =>
    rw [LiteralToken.decode, Option.isSome_map]
    exact int_isSome_iff token
  | float token =>
    rw [LiteralToken.decode, Option.isSome_map, float_isSome]
    exact ⟨fun _ => trivial, fun _ => rfl⟩
  | decimal token => exact ⟨fun _ => trivial, fun _ => rfl⟩

section Literals

variable {Token Value : Type}

mutual

/-- The literals of a tree, from left to right. -/
def literals : Tree Token → List LiteralToken
  | .literal token => [token]
  | .token _ => []
  | .node _ children => allLiterals children

def allLiterals : List (Tree Token) → List LiteralToken
  | [] => []
  | child :: children => literals child ++ allLiterals children

end

variable (names : Text → Option CodePoint) (callbacks : Callbacks Token Value)

/-- A walk over literals ends with the first that raises. -/
def Ends {Answer : Type} (listed : List LiteralToken) (answer : Except Thrown Answer) : Prop :=
  match listed.find? (·.raises names) with
  | some token => answer = .error token.thrown
  | none => ∃ value, answer = .ok value

variable {names callbacks}

theorem ends_ok {Answer : Type} {value : Answer} : Ends names [] (.ok value) := ⟨value, rfl⟩

/-- What follows a walk without literals of its own ends where the walk does. -/
theorem Ends.map {First Second : Type} {listed : List LiteralToken}
    {first : Except Thrown First} (make : First → Second) (ends : Ends names listed first) :
    Ends names listed (first >>= fun value => pure (make value)) := by
  rw [Ends] at ends ⊢
  split
  · next found =>
    rw [found] at ends
    rw [ends]
    rfl
  · next found =>
    rw [found] at ends
    obtain ⟨value, same⟩ := ends
    rw [same]
    exact ⟨make value, rfl⟩

theorem Ends.bind {First Second : Type} {before after : List LiteralToken}
    {first : Except Thrown First} {second : First → Except Thrown Second}
    (ends : Ends names before first) (behind : ∀ value, Ends names after (second value)) :
    Ends names (before ++ after) (first >>= second) := by
  rw [Ends] at ends ⊢
  rw [List.find?_append]
  cases found : before.find? (·.raises names) with
  | some token =>
    rw [found] at ends
    rw [ends]
    rfl
  | none =>
    rw [found] at ends
    obtain ⟨value, same⟩ := ends
    rw [same]
    exact behind value

variable (names callbacks)

mutual

theorem transform_ends : ∀ tree : Tree Token,
    Ends names (literals tree) (transform names callbacks tree)
  | .literal token => by
    rw [literals, transform, Ends, List.find?_singleton]
    cases decoded : token.decode names with
    | none =>
      rw [if_pos (by rw [LiteralToken.raises, decoded]; rfl)]
      rfl
    | some decoded' =>
      rw [if_neg (by rw [LiteralToken.raises, decoded]; exact Bool.false_ne_true)]
      exact ⟨_, rfl⟩
  | .token token => by
    rw [literals, transform]
    exact ends_ok
  | .node rule children => by
    rw [literals, transform]
    exact (transformAll_ends children).map _

theorem transformAll_ends : ∀ children : List (Tree Token),
    Ends names (allLiterals children) (transformAll names callbacks children)
  | [] => by
    rw [allLiterals, transformAll]
    exact ends_ok
  | child :: children => by
    rw [allLiterals, transformAll]
    exact (transform_ends child).bind fun value => (transformAll_ends children).map _

end

/-- A tree raises what its first bad literal does, and nothing else. -/
theorem transform_cases (tree : Tree Token) :
    (∃ value, transform names callbacks tree = .ok value ∧
      ∀ token ∈ literals tree, token.WellFormed names) ∨
    (∃ token ∈ literals tree, transform names callbacks tree = .error token.thrown ∧
      ¬token.WellFormed names) := by
  have ends := transform_ends names callbacks tree
  rw [Ends] at ends
  cases found : (literals tree).find? (·.raises names) with
  | none =>
    rw [found] at ends
    obtain ⟨value, same⟩ := ends
    refine .inl ⟨value, same, ?_⟩
    intro token listed
    rw [← raises_iff]
    simpa using List.find?_eq_none.mp found token listed
  | some token =>
    rw [found] at ends
    refine .inr ⟨token, List.mem_of_find?_eq_some found, ends, ?_⟩
    intro formed
    have raises : token.raises names = true := List.find?_some found
    rw [(raises_iff token).mpr formed] at raises
    cases raises

/-- Which queries raise nothing but `CaracalError`s. -/
theorem parseTuft_caracal_iff (lark : Text → Except LarkError (Tree Token))
    (isProgram : Value → Bool) (typeName : Value → String) (source : Text) :
    (∀ thrown, parseTuft names callbacks lark isProgram typeName source = .error thrown →
        thrown.isCaracal = true) ↔
      ∀ tree, lark source = .ok tree → ∀ token ∈ literals tree, token.WellFormed names := by
  rw [parseTuft]
  cases parsed : lark source with
  | error error =>
    constructor
    · rintro _ tree ⟨⟩
    · intro _ thrown raised
      cases error with
      | unexpectedCharacters _ =>
        cases raised
        rfl
      | unexpectedInput _ =>
        cases raised
        rfl
      | other _ =>
        cases raised
        rfl
  | ok tree =>
    dsimp only
    rcases transform_cases names callbacks tree with
      ⟨value, same, formed⟩ | ⟨token, listed, same, bad⟩
    · rw [same]
      constructor
      · rintro _ _ ⟨⟩
        exact formed
      · intro _ thrown raised
        dsimp only at raised
        split at raised
        · cases raised
        · cases raised
          rfl
    · rw [same]
      constructor
      · intro only
        cases only _ rfl
      · intro formed
        exact absurd (formed tree rfl token listed) bad

/-- A query raises nothing but `CaracalError`s exactly if all its literals are well formed; a text
written with escapes is read back exactly if it stands on one line and can be encoded; and an
integer is read as its value exactly if it is well formed. -/
theorem literals_decode_iff (lark : Text → Except LarkError (Tree Token))
    (isProgram : Value → Bool) (typeName : Value → String) :
    (∀ source,
      (∀ thrown, parseTuft names callbacks lark isProgram typeName source = .error thrown →
          thrown.isCaracal = true) ↔
        ∀ tree, lark source = .ok tree → ∀ token ∈ literals tree, token.WellFormed names) ∧
    (∀ quote (quoted : quote ∈ QUOTES) text,
      STRING names (enclosed quote quoted text).text = some text ↔
        ∀ char ∈ text, encodable char = true ∧ char ≠ LF ∧ char ≠ CR) ∧
    ∀ token : IntToken, INT token.text = some token.value ↔ token.WellFormed := by
  refine ⟨?_, ?_, ?_⟩
  · exact parseTuft_caracal_iff names callbacks lark isProgram typeName
  · exact fun quote quoted text => enclosed_read quoted text
  · exact int_value_iff

end Literals

/-- `007` -/
def paddedSeven : IntToken where
  negative := false
  radix := .decimal
  chars := [ZERO, ZERO, 55]
  filled := by decide
  plain := by
    intro char member
    simp only [List.mem_cons, List.not_mem_nil, or_false] at member
    rcases member with same | same | same
    · exact .inr (by rw [same]; decide)
    · exact .inr (by rw [same]; decide)
    · exact .inr (by rw [same]; decide)
  leading := by decide

/-- The tree of `RETURN 007`. -/
def paddedSevenTree : Tree Unit :=
  .node "start" [.node "stmt_list" [.node "dql" [.node "query_body" [
    .node "return_clause" [.node "projection_list" [.node "projection" [
      .node "number" [.literal (.int paddedSeven)]]]]]]]]

/-- An integer with leading zeros leaves the parser as a `VisitError`. -/
theorem leading_zeros_raise :
    parseTuft (fun _ => none) ⟨fun _ => (), id, fun _ _ => ()⟩ (fun _ => .ok paddedSevenTree)
        (fun _ => true) (fun _ => "Program")
        [82, 69, 84, 85, 82, 78, 32, ZERO, ZERO, 55] =
      .error (.visitError "INT" [ZERO, ZERO, 55]) ∧
    INT paddedSeven.text ≠ some paddedSeven.value := by
  have fails : INT paddedSeven.text = none := by decide
  constructor
  · have undecoded : (LiteralToken.int paddedSeven).decode (fun _ => none) = none := by
      change (INT paddedSeven.text).map Decoded.int = none
      rw [fails]
      rfl
    simp only [parseTuft, paddedSevenTree, transform, transformAll, undecoded]
    rfl
  · rw [fails]
    exact Option.some_ne_none _ |>.symm

end CaracalDB.TuftLiteral
