import SelectorCheck.Context
import SelectorCheck.Error.Code

/-!
# Errors and what caused them

An error says what is wrong, with which name or piece of input, at which
position of which text, and under which context. An error about the argument
of a function is reported at its place in the enclosing selector; the error
that was found within the argument is then its cause. A failure is an error
with the chain of its causes, the nearest first.

## Main definitions

* `SelectorError` — one error; `SelectorError.message`, `SelectorError.text`
  and `SelectorError.debug` word it.
* `SelectorError.relocated` — the same error, placed in an enclosing text.
* `Failure` — an error and its causes; `Failure.relocated` and
  `Failure.causing` put a new error in front of the chain.
-/

namespace SelectorCheck

/-- One thing that is wrong with a selector. -/
structure SelectorError where
  /-- What is wrong. -/
  code : ErrorCode
  /-- The class of errors, as a rule that of the code. -/
  errorClass : ErrorClass := code.errorClass
  /-- The pseudo name that the error is about. -/
  name : Option Text := none
  /-- The text that is wrong. -/
  value : Option Text := none
  /-- The offending piece of that text. -/
  token : Option Text := none
  /-- Where the piece stands in the text. -/
  position : Option Int := none
  /-- What the text was checked against. -/
  context : Option Context := none
deriving DecidableEq, Repr

namespace SelectorError

/-- The error for an argument that is not there or holds blanks only. -/
def missingArgument (name : Text) (value : Option Text) (context : Option Context) :
    SelectorError :=
  { code := .missingArgument, name := some name, value := value, context := context }

/-- The wording of an error without its position. -/
def message (e : SelectorError) : Text := e.code.message e.name e.token

/-- The wording of an error with its position, if it has one. -/
def text (e : SelectorError) : Text :=
  match e.position with
  | some p => e.message ++ " at position ".toList ++ Decimal.ofInt p
  | none => e.message

/-- How an error is shown where it is a cause. -/
def debug (e : SelectorError) : Text :=
  e.errorClass.name ++ "(".toList ++ Text.quoted e.code.text ++ ", position=".toList ++
    Decimal.shownOrNone e.position ++ ")".toList

/-- The error in a text in which the text at fault begins at `offset`. An error without a position
is placed at that beginning. -/
def relocated (offset : Int) (e : SelectorError) : SelectorError :=
  { e with position := some (offset + e.position.getD 0) }

@[simp] theorem position_relocated (offset : Int) (e : SelectorError) :
    (e.relocated offset).position = some (offset + e.position.getD 0) := rfl

@[simp] theorem code_relocated (offset : Int) (e : SelectorError) :
    (e.relocated offset).code = e.code := rfl

/-- The wording without the position does not depend on the place. -/
@[simp] theorem message_relocated (offset : Int) (e : SelectorError) :
    (e.relocated offset).message = e.message := rfl

/-- Offsets of texts within texts add up. -/
theorem relocated_relocated (outer inner : Int) (e : SelectorError) :
    (e.relocated inner).relocated outer = e.relocated (outer + inner) := by
  simp [relocated, Int.add_assoc]

end SelectorError

/-- An error with the errors that caused it, the nearest first. -/
structure Failure where
  error : SelectorError
  causes : List SelectorError
deriving DecidableEq, Repr

namespace Failure

/-- An error that no other error caused. -/
def ofError (e : SelectorError) : Failure := ⟨e, []⟩

/-- A failure that this one is the cause of. -/
def causing (failure : Failure) (e : SelectorError) : Failure :=
  ⟨e, failure.error :: failure.causes⟩

/-- A failure in an enclosing text, caused by the one in the text within. -/
def relocated (offset : Int) (failure : Failure) : Failure :=
  failure.causing (failure.error.relocated offset)

@[simp] theorem error_ofError (e : SelectorError) : (ofError e).error = e := rfl

@[simp] theorem causes_ofError (e : SelectorError) : (ofError e).causes = [] := rfl

@[simp] theorem error_relocated (offset : Int) (failure : Failure) :
    (failure.relocated offset).error = failure.error.relocated offset := rfl

@[simp] theorem causes_relocated (offset : Int) (failure : Failure) :
    (failure.relocated offset).causes = failure.error :: failure.causes := rfl

end Failure

end SelectorCheck
