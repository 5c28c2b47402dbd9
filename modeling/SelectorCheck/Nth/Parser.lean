import SelectorCheck.Error.Basic
import SelectorCheck.Nth.Basic
import SelectorCheck.Text.Cursor
import SelectorCheck.Text.Lowercase

/-!
# Reading an expression `an+b`

An expression is one of the words `odd` and `even`, or an optional sign, a
run of digits and the letter `n`, then an optional second sign and run of
digits. The letter may be missing, and the first run of digits as well if the
letter is there. Blanks may stand around the whole and around the second sign,
but not behind the first sign and not before the letter.

A text that breaks off being an expression is rejected at that place. A run
of digits that is too long to be converted is rejected at its start.

## Main definitions

* `Nth.read` — the expression at a place, or the place where it breaks off.
* `Nth.pieceAt` — the piece of a text that is named as unexpected.
* `Nth.parse` — reading with errors as they are reported.
-/

namespace SelectorCheck.Nth

/-! ## The grammar -/

/-- The two signs. -/
def isSign (c : Char) : Bool := c == '+' || c == '-'

/-- The factor that a sign stands for. -/
def signFactor (c : Char) : Int := if c = '-' then -1 else 1

/-- The letter that marks a step, small or capital. -/
def isStepLetter (c : Char) : Bool := c == 'n' || c == 'N'

/-- The factor of an optional sign, and the place behind it. -/
def readSign (c : Cursor) : Int × Cursor :=
  match c.rest with
  | [] => (1, c)
  | ch :: _ => if isSign ch then (signFactor ch, c.skip 1) else (1, c)

/-- The run of digits at a place. -/
def digitsAt (c : Cursor) : Text := c.rest.takeWhile Char.isDigit

/-- The number that the digits at a place stand for. -/
def readNumber (c : Cursor) : Except Cursor Nat :=
  match Decimal.read? (digitsAt c) with
  | some n => .ok n
  | none => .error c

/-- The offset behind the step, and the place behind it. At the end of the text it is zero. -/
def readOffset (c : Cursor) : Except Cursor (Int × Cursor) :=
  match c.rest with
  | [] => .ok (0, c)
  | ch :: _ =>
    if isSign ch then
      let digits := (c.skip 1).skipBlanks
      if digitsAt digits = [] then .error digits
      else
        match readNumber digits with
        | .ok n => .ok (signFactor ch * n, digits.skipWhile Char.isDigit)
        | .error place => .error place
    else .error c

/-- An expression that has been read up to a place, if only blanks follow. -/
def finish (e : Nth) (c : Cursor) : Except Cursor Nth :=
  if c.skipBlanks.rest = [] then .ok e else .error c.skipBlanks

/-- The expression at a place whose first digits, if any, follow a sign of factor `sign`. -/
def readUnsigned (sign : Int) (c : Cursor) : Except Cursor Nth :=
  let behind := c.skipWhile Char.isDigit
  if behind.rest.head?.any isStepLetter then
    match if digitsAt c = [] then .ok 1 else readNumber c with
    | .error place => .error place
    | .ok a =>
      match readOffset (behind.skip 1).skipBlanks with
      | .error place => .error place
      | .ok (b, place) => finish ⟨sign * (a : Nat), b⟩ place
  else if digitsAt c = [] then .error behind
  else
    match readNumber c with
    | .error place => .error place
    | .ok b => finish ⟨0, sign * b⟩ behind

/-- The expression at a place, or the place where it breaks off. -/
def read (c : Cursor) : Except Cursor Nth :=
  let start := c.skipBlanks
  readUnsigned (readSign start).1 (readSign start).2

/-- The expression that a word stands for, in capital or small letters. -/
def ofWord? (t : Text) : Option Nth :=
  if t.lowercase = "odd".toList then some odd
  else if t.lowercase = "even".toList then some even
  else none

/-! ## Errors -/

/-- The piece of text that is named as unexpected: one character and what follows it up to a blank
or a sign. -/
def pieceAt : Text → Text
  | [] => "end of argument".toList
  | c :: rest => c :: rest.takeWhile fun d => !isBlank d && !isSign d

/-- The error for a text that breaks off being an expression. -/
def breakOff (name value : Text) (context : Option Context) (place : Cursor) : SelectorError :=
  { code := .invalidNth, name := some name, value := some value,
    token := some (pieceAt place.rest), position := some place.pos, context := context }

/-- The expression that the argument of the function `name` holds. -/
def parse (name : Text) (value : Option Text) (context : Option Context) :
    Except SelectorError Nth :=
  match value with
  | none => .error (.missingArgument name none context)
  | some v =>
    if v.allBlank then .error (.missingArgument name (some v) context)
    else
      match ofWord? v.trim with
      | some e => .ok e
      | none =>
        match read (.ofText v) with
        | .ok e => .ok e
        | .error place => .error (breakOff name v context place)

end SelectorCheck.Nth
