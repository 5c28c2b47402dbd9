import Mathlib.Data.Nat.Digits.Lemmas
import SelectorCheck.Text.Decimal

/-!
# What runs of digits stand for

A run of digits is read from the front, so each digit multiplies what came before
it by ten. It stands for the number in which a digit counts by its place from the
end. Zeros in front count as digits, but not for the number, so a number is never
written with more digits than it was read from.

## Main definitions

* `Decimal.value` — the number that a run of digits stands for, by places.

## Main results

* `Decimal.read?_eq_some_iff` — which runs are converted, and into what.
* `Decimal.length_ofNat_le` — a number is not longer than the run it was read from.
-/

namespace SelectorCheck.Decimal

/-- The number that a single digit stands for. -/
def digitValue (c : Char) : Nat := c.toNat - '0'.toNat

/-- The number that a run of digits stands for. The last digit counts once, and each other digit
ten times as much as the one behind it. -/
def value (digits : Text) : Nat := Nat.ofDigits 10 (digits.reverse.map digitValue)

variable {digits : Text} {n : Nat}

/-- Reading from the front comes to the number that the places make. -/
theorem ofDigitChars_eq_value (digits : Text) : Nat.ofDigitChars 10 digits 0 = value digits := by
  have hfold : Nat.ofDigitChars 10 digits 0 =
      digits.reverse.foldr (fun c sofar => 10 * sofar + digitValue c) 0 := by
    rw [Nat.ofDigitChars_eq_foldl, List.foldr_reverse]
    rfl
  rw [hfold, value, Nat.ofDigits_eq_foldr, List.foldr_map]
  simp only [Nat.add_comm, Nat.cast_id]

/-- A run is converted exactly if it is not too long, zeros in front included. -/
theorem read?_eq_some_iff :
    read? digits = some n ↔ digits.length ≤ digitLimit ∧ value digits = n := by
  unfold read?
  rw [ofDigitChars_eq_value]
  split <;> simp_all

theorem digitValue_lt {c : Char} (h : c.isDigit = true) : digitValue c < 10 := by
  obtain ⟨hlow, hhigh⟩ := Char.isDigit_iff_toNat.mp h
  have hzero : '0'.toNat = 48 := rfl
  have hnine : '9'.toNat = 57 := rfl
  unfold digitValue
  omega

theorem value_lt (h : ∀ c ∈ digits, c.isDigit = true) : value digits < 10 ^ digits.length := by
  have hlt : ∀ d ∈ digits.reverse.map digitValue, d < 10 := by
    intro d hd
    obtain ⟨c, hc, rfl⟩ := List.mem_map.mp hd
    exact digitValue_lt (h c (List.mem_reverse.mp hc))
  have hbound := Nat.ofDigits_lt_base_pow_length (by decide) hlt
  rwa [List.length_map, List.length_reverse] at hbound

/-- A number is not longer than the run of digits that it was read from. -/
theorem length_ofNat_le (hne : digits ≠ []) (h : ∀ c ∈ digits, c.isDigit = true)
    (hread : read? digits = some n) : (ofNat n).length ≤ digits.length := by
  obtain ⟨-, rfl⟩ := read?_eq_some_iff.mp hread
  have hpos : 0 < digits.length := List.length_pos_of_ne_nil hne
  exact (Nat.length_toDigits_le_iff (by decide) hpos).mpr (value_lt h)

end SelectorCheck.Decimal
