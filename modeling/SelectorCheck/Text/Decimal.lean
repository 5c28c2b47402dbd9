import SelectorCheck.Text.Basic

/-!
# Whole numbers in decimal

Numbers are written without leading zeros and with a minus sign where they
are negative. A run of digits is read whatever zeros it begins with, unless
it is longer than the largest number of digits that is converted.

## Main definitions

* `Decimal.ofNat`, `Decimal.ofInt` — a number written in decimal.
* `Decimal.signed` — the same with a plus sign where there is no minus sign.
* `Decimal.digitLimit`, `Decimal.read?` — reading a run of digits.
-/

namespace SelectorCheck.Decimal

/-- A natural number in decimal. -/
def ofNat (n : Nat) : Text := Nat.toDigits 10 n

/-- A whole number in decimal. -/
def ofInt : Int → Text
  | .ofNat n => ofNat n
  | .negSucc n => '-' :: ofNat (n + 1)

/-- A whole number in decimal, always with a sign. -/
def signed : Int → Text
  | .ofNat n => '+' :: ofNat n
  | .negSucc n => '-' :: ofNat (n + 1)

/-- An optional number; a missing one is shown as a bare word. -/
def shownOrNone : Option Int → Text
  | none => Text.missing
  | some n => ofInt n

/-- The longest run of digits that is converted. -/
def digitLimit : Nat := 4300

/-- The number that a run of digits stands for, if the run is not too long. -/
def read? (digits : Text) : Option Nat :=
  if digits.length ≤ digitLimit then some (Nat.ofDigitChars 10 digits 0) else none

/-- Reading undoes writing. -/
theorem read?_ofNat {n : Nat} (h : (ofNat n).length ≤ digitLimit) : read? (ofNat n) = some n := by
  simp [read?, h]
  exact Nat.ofDigitChars_toDigits (by decide) (by decide)

/-- A number is written with at least one digit. -/
theorem ofNat_ne_nil (n : Nat) : ofNat n ≠ [] := Nat.toDigits_ne_nil

/-- A natural number is written with digits only. -/
theorem isDigit_of_mem_ofNat {n : Nat} {c : Char} (h : c ∈ ofNat n) : c.isDigit = true :=
  Nat.isDigit_of_mem_toDigits (by decide) (by decide) h

end SelectorCheck.Decimal
