/-!
# Sets of code points, given by their boundaries

A property of characters that changes rarely along the code points is
stored as the ascending list of the code points where it changes. The
property starts out false and is switched at each boundary, so `[a, b]` is
the half-open range from `a` to `b`, and a list of even length is a finite
union of such ranges.

## Main definitions

* `switchedOn` — whether a code point has the property.
* `switchedOn_range` — the case of a single range.
-/

namespace SelectorCheck.Text

/-- Whether `n` lies behind an odd number of the ascending `boundaries`. -/
def switchedOn : (boundaries : List Nat) → (n : Nat) → Bool
  | [], _ => false
  | boundary :: rest, n => if n < boundary then false else !switchedOn rest n

@[simp] theorem switchedOn_nil (n : Nat) : switchedOn [] n = false := rfl

theorem switchedOn_of_lt {boundary n : Nat} {rest : List Nat} (h : n < boundary) :
    switchedOn (boundary :: rest) n = false := by
  simp [switchedOn, h]

theorem switchedOn_of_le {boundary n : Nat} {rest : List Nat} (h : boundary ≤ n) :
    switchedOn (boundary :: rest) n = !switchedOn rest n := by
  simp [switchedOn, Nat.not_lt.mpr h]

/-- Two boundaries describe the half-open range between them. -/
theorem switchedOn_range (first stop n : Nat) :
    switchedOn [first, stop] n = decide (first ≤ n ∧ n < stop) := by
  by_cases below : n < first
  · simp [switchedOn, below, Nat.not_le.mpr below]
  · by_cases above : n < stop
    · simp [switchedOn, below, above, Nat.not_lt.mp below]
    · simp [switchedOn, below, above]

end SelectorCheck.Text
