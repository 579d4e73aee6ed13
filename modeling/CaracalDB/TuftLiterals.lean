import CaracalDB.Diagnostics
import CaracalDB.PythonNumbers

/-!
# Literals of Tuft

The tokens that the grammar takes for literals, and what `TuftTransformer` makes of their texts.
The terminals are wider than the Python readers behind them: a string may hold a raw line
break, and an integer may have leading zeros or a radix without digits. A callback that
raises leaves `parse_tuft` as a `VisitError`, since the tree is transformed behind the
handlers of the parser's own errors. Lark, the callbacks of the rules and of the tokens that are no
literals, and the table of Unicode names are parameters; these callbacks return.
-/

namespace CaracalDB.TuftLiteral

open PyLiteral

def UNDERSCORE : CodePoint := 95

def QUOTE : CodePoint := 34

def TRIPLE : Text := [QUOTE, QUOTE, QUOTE]

/-! ## Terminals -/

/-- `([^"\\]|\\.)*` -/
inductive SingleBody (quote : CodePoint) : Text → Prop where
  | nil : SingleBody quote []
  | char {char : CodePoint} {text : Text} :
      char ≠ quote → char ≠ BACKSLASH → SingleBody quote text → SingleBody quote (char :: text)
  | pair {hidden : CodePoint} {text : Text} :
      hidden ≠ LF → SingleBody quote text → SingleBody quote (BACKSLASH :: hidden :: text)

/-- `STRING`. Three quotes close at the first place where they stand. -/
inductive StringToken where
  | single (quote : CodePoint) (body : Text) (quoted : quote ∈ QUOTES)
      (plain : SingleBody quote body)
  | triple (body : Text)
      (first : ∀ before after, body ++ TRIPLE = before ++ (TRIPLE ++ after) → after = [])

def StringToken.body : StringToken → Text
  | single _ body _ _ => body
  | triple body _ => body

def StringToken.text : StringToken → Text
  | single quote body _ _ => quote :: (body ++ [quote])
  | triple body _ => TRIPLE ++ (body ++ TRIPLE)

def StringToken.multiline : StringToken → Bool
  | single _ _ _ _ => false
  | triple _ _ => true

inductive Radix where
  | decimal
  | hexadecimal
  | binary
deriving DecidableEq, Repr

def Radix.base : Radix → Nat
  | decimal => 10
  | hexadecimal => 16
  | binary => 2

/-- `0x` and `0b` -/
def Radix.opening : Radix → Text
  | decimal => []
  | hexadecimal => [ZERO, 120]
  | binary => [ZERO, 98]

def minus (negative : Bool) : Text := if negative then [45] else []

/-- `INT` -/
structure IntToken where
  negative : Bool
  radix : Radix
  chars : Text
  filled : chars ≠ []
  plain : ∀ char ∈ chars, char = UNDERSCORE ∨ (digitIn radix.base char).isSome = true
  leading : radix = .decimal → chars.head? ≠ some UNDERSCORE

def IntToken.text (token : IntToken) : Text :=
  minus token.negative ++ (token.radix.opening ++ token.chars)

/-- `[0-9][0-9_]*` -/
structure Digits where
  first : CodePoint
  others : Text
  digit : isDigit first = true
  plain : ∀ char ∈ others, isDigit char = true ∨ char = UNDERSCORE

def Digits.text (digits : Digits) : Text := digits.first :: digits.others

/-- `[eE][+-]?[0-9][0-9_]*` -/
structure Exponent where
  letter : CodePoint
  sign : Text
  digits : Digits
  letters : letter.val = 101 ∨ letter.val = 69
  signs : sign ∈ [[], [43], [45]]

def Exponent.text (exponent : Exponent) : Text :=
  exponent.letter :: (exponent.sign ++ exponent.digits.text)

/-- `.` and digits, where there are any. -/
def fractionText (fraction : Option Digits) : Text :=
  match fraction with
  | none => []
  | some digits => 46 :: digits.text

def exponentText (exponent : Option Exponent) : Text :=
  match exponent with
  | none => []
  | some exponent => exponent.text

def F32 : Text := [102, 51, 50]

/-- `FLOAT` -/
inductive FloatToken where
  | inf
  | nan
  | number (negative : Bool) (whole : Digits) (fraction : Option Digits)
      (exponent : Option Exponent) (f32 : Bool)
      (pointed : fraction.isSome = true ∨ exponent.isSome = true)

def FloatToken.text : FloatToken → Text
  | inf => [105, 110, 102]
  | nan => [110, 97, 110]
  | number negative whole fraction exponent f32 _ =>
      minus negative ++ (whole.text ++ (fractionText fraction ++ exponentText exponent)) ++
        if f32 then F32 else []

/-- `DECIMAL`: precision and scale may follow the `d`. -/
structure DecimalToken where
  negative : Bool
  whole : Digits
  fraction : Option Digits
  params : Option (Text × Text)
  counts : ∀ both ∈ params, both.1 ≠ [] ∧ both.2 ≠ [] ∧ (both.1 ++ both.2).all isDigit = true

def DecimalToken.text (token : DecimalToken) : Text :=
  minus token.negative ++ token.whole.text ++ fractionText token.fraction ++ [100] ++
    match token.params with
    | none => []
    | some (precision, scale) => 40 :: (precision ++ 44 :: (scale ++ [41]))

inductive LiteralToken where
  | string (token : StringToken)
  | int (token : IntToken)
  | float (token : FloatToken)
  | decimal (token : DecimalToken)

def LiteralToken.type : LiteralToken → String
  | string _ => "STRING"
  | int _ => "INT"
  | float _ => "FLOAT"
  | decimal _ => "DECIMAL"

def LiteralToken.text : LiteralToken → Text
  | string token => token.text
  | int token => token.text
  | float token => token.text
  | decimal token => token.text

/-! ## Callbacks -/

/-- What a literal stands for. A float is known by the text that `float` read. -/
inductive Decoded where
  | text (text : Text)
  | int (value : Int)
  | float (text : Text)
  | decimal (text : Text)
deriving DecidableEq, Repr

/-- `str(token).replace("_", "")` -/
def plainText (text : Text) : Text := text.filter (· ≠ UNDERSCORE)

def STRING (names : Text → Option CodePoint) (text : Text) : Option Text :=
  literalEval names text

def INT (text : Text) : Option Int :=
  pyInt (plainText text)

def FLOAT (text : Text) : Option Text :=
  let text := plainText text
  let text := if F32 <:+ text then text.take (text.length - 3) else text
  if floatReads text then some text else none

def DECIMAL (text : Text) : Text := plainText text

/-- The callback of a literal; none if it raises. -/
def LiteralToken.decode (names : Text → Option CodePoint) : LiteralToken → Option Decoded
  | string token => (STRING names token.text).map .text
  | int token => (INT token.text).map .int
  | float token => (FLOAT token.text).map .float
  | decimal token => some (.decimal (DECIMAL token.text))

/-! ## Parsing -/

/-- What Lark raises. -/
inductive LarkError where
  | unexpectedCharacters (pos_in_stream : Nat)
  | unexpectedInput (pos_in_stream : Nat)
  | other (message : String)
deriving DecidableEq, Repr

/-- What leaves `parse_tuft` instead of a program. -/
inductive Thrown where
  | caracal (error : CaracalError)
  | visitError (type : String) (text : Text)
deriving DecidableEq, Repr

def Thrown.isCaracal : Thrown → Bool
  | caracal _ => true
  | visitError _ _ => false

inductive Tree (Token : Type) where
  | literal (token : LiteralToken)
  | token (token : Token)
  | node (rule : String) (children : List (Tree Token))

/-- The callbacks that are not those of literals, and what they make. -/
structure Callbacks (Token Value : Type) where
  literal : Decoded → Value
  token : Token → Value
  rule : String → List Value → Value

section Parse

variable {Token Value : Type} (names : Text → Option CodePoint) (callbacks : Callbacks Token Value)

mutual

/-- `Transformer.transform`, from the leaves up. -/
def transform : Tree Token → Except Thrown Value
  | .literal token =>
      match token.decode names with
      | some decoded => .ok (callbacks.literal decoded)
      | none => .error (.visitError token.type token.text)
  | .token token => .ok (callbacks.token token)
  | .node rule children => do
      let values ← transformAll children
      return callbacks.rule rule values

def transformAll : List (Tree Token) → Except Thrown (List Value)
  | [] => .ok []
  | child :: children => do
      let value ← transform child
      let values ← transformAll children
      return value :: values

end

/-- `parse_tuft`, with the test for a program and the names of types. -/
def parseTuft (lark : Text → Except LarkError (Tree Token)) (isProgram : Value → Bool)
    (typeName : Value → String) (source : Text) : Except Thrown Value :=
  match lark source with
  | .error (.unexpectedCharacters pos) =>
      .error (.caracal {
        code := "TF-1001"
        message := s!"invalid character at position {pos}"
        hint := some "check for stray punctuation, unbalanced quotes, or unexpected unicode" })
  | .error (.unexpectedInput pos) =>
      .error (.caracal { code := "TF-2001", message := s!"unexpected token at position {pos}" })
  | .error (.other message) =>
      .error (.caracal { code := "TF-2001", message := s!"parse error: {message}" })
  | .ok tree =>
      match transform names callbacks tree with
      | .error thrown => .error thrown
      | .ok result =>
          if isProgram result then .ok result
          else .error (.caracal {
            code := "TF-2001"
            message := s!"expected Program, got {typeName result}" })

end Parse

end CaracalDB.TuftLiteral
