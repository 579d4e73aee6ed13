/-!
# Raised exceptions

The engine raises `CaracalError` with a code, a message and sometimes a hint.
Calls into the language's library raise their own exceptions; those are kept
apart by class, since callers of the engine can only rely on the code of the
former. The Rust engine wraps a UTF-8 error in its own, with the library's text
behind a fixed beginning; a failing redo handler is reported with the handler's
own text behind the record it was called for.
-/

namespace CaracalDB

/-- An error the engine raises on purpose. -/
structure CaracalError where
  code : String
  message : String
  hint : Option String := none
deriving DecidableEq, Repr

/-- Everything that can leave a call instead of a result. -/
inductive Raised where
  | caracal (error : CaracalError)
  | structError
  | unicodeDecodeError
  | invalidKind
  | redoFailed (kind : String) (lsn : Nat) (cause : String)
  | typeError (message : String)
  | keyError (key : String)
  | attributeError (message : String)
  | arrowError (message : String)
  | osError (path : String)
deriving DecidableEq, Repr

/-- Raise an engine error without a hint. -/
def raiseCaracal {Answer : Type} (code message : String) : Except Raised Answer :=
  .error (.caracal { code, message })

/-- Raise an exception under a condition. -/
def refuse (condition : Prop) [Decidable condition] (raised : Raised) : Except Raised Unit :=
  if condition then .error raised else .ok ()

theorem refuse_ok {condition : Prop} [Decidable condition] {raised : Raised} {answer : Unit}
    (passed : refuse condition raised = .ok answer) : ¬ condition := by
  intro holds
  rw [refuse, if_pos holds] at passed
  cases passed

/-- The engine's code of an exception, absent for library exceptions. -/
def Raised.code : Raised → Option String
  | .caracal error => some error.code
  | .invalidKind => some "CDB-7052"
  | .redoFailed _ _ _ => some "CDB-7070"
  | _ => none

end CaracalDB
