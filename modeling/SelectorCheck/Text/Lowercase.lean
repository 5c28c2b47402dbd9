import SelectorCheck.Text.Basic
import SelectorCheck.Text.CaseContext
import SelectorCheck.Text.CaseRun

/-!
# Lower case

Tag names and pseudo names are compared in lower case, and lower case is that
of all scripts. Three letters need more than a table of single letters: the
capital sigma has two small forms, the dotted capital I becomes an i followed
by a combining dot, and the Kelvin sign becomes the Latin k, so a name that is
not plain Latin can become one.

## Main definitions

* `Text.lowerAt` — one character in lower case, between two texts.
* `Text.lowercase` — a whole text in lower case.
-/

namespace SelectorCheck.Text

/-- The capital sigma. -/
def capitalSigma : Char := Char.ofNat 0x3A3

/-- The small sigma at the end of a word. -/
def finalSigma : Char := Char.ofNat 0x3C2

/-- The dotted capital I. -/
def dottedI : Char := Char.ofNat 0x130

/-- The combining dot above. -/
def dotAbove : Char := Char.ofNat 0x307

/-- Lower case of the character `c` between `before`, given from its last character to its first,
and `after`. -/
def lowerAt (before : Text) (c : Char) (after : Text) : Text :=
  if c == capitalSigma && endsWord before after then [finalSigma]
  else if c == dottedI then ['i', dotAbove]
  else [smallLetter c]

/-- Lower case of what follows `before`, given from its last character to its first. -/
def lowerFrom : (before : Text) → Text → Text
  | _, [] => []
  | before, c :: after => lowerAt before c after ++ lowerFrom (c :: before) after

/-- A text in lower case. -/
def lowercase (t : Text) : Text := lowerFrom [] t

@[simp] theorem lowercase_nil : lowercase [] = [] := rfl

@[simp] theorem lowerFrom_nil (before : Text) : lowerFrom before [] = [] := rfl

theorem lowerFrom_cons (before : Text) (c : Char) (after : Text) :
    lowerFrom before (c :: after) = lowerAt before c after ++ lowerFrom (c :: before) after :=
  rfl

end SelectorCheck.Text
