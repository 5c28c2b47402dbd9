import SelectorCheck.Text.Decimal

/-!
# Every so many-th element

The expression `an+b` selects the elements whose index is `b` more than a
multiple of `a` that has the sign of `a`. The index is counted from one, but
nothing here depends on that.

## Main definitions

* `Nth` — the two numbers of an expression.
* `Nth.selects` — whether an index is selected.
* `Nth.text`, `Nth.debug` — the shortest way to write an expression, and how
  it is shown where its parts matter.
-/

namespace SelectorCheck

/-- An expression `an+b`. -/
structure Nth where
  /-- The number `a`, by which the selected indices are apart. -/
  step : Int
  /-- The number `b`, the first selected index. -/
  offset : Int
deriving DecidableEq, Repr

namespace Nth

/-- The indices that `odd` stands for. -/
def odd : Nth := ⟨2, 1⟩

/-- The indices that `even` stands for. -/
def even : Nth := ⟨2, 0⟩

/-- Whether an index is the offset after some number of steps, none included. The remainder is that
of a quotient rounded down, so it has the sign of the step. -/
def selects (e : Nth) (index : Int) : Bool :=
  if e.step = 0 then index == e.offset
  else if 0 < e.step then
    decide (0 ≤ index - e.offset) && (index - e.offset).fmod e.step == 0
  else decide (index - e.offset ≤ 0) && (index - e.offset).fmod e.step == 0

/-- The part of an expression that holds the step. A step of one is not written. -/
def stepText (step : Int) : Text :=
  if step = 1 then ['n']
  else if step = -1 then ['-', 'n']
  else Decimal.ofInt step ++ ['n']

/-- The shortest way to write an expression: no step where it is zero, and no offset where it is
zero unless nothing else is written. -/
def text (e : Nth) : Text :=
  if e.step = 0 then Decimal.ofInt e.offset
  else if e.offset = 0 then stepText e.step
  else stepText e.step ++ Decimal.signed e.offset

/-- An expression with its parts named. -/
def debug (e : Nth) : Text :=
  "NthExpression(a=".toList ++ Decimal.ofInt e.step ++ ", b=".toList ++
    Decimal.ofInt e.offset ++ ")".toList

end Nth

end SelectorCheck
