import SelectorCheck.Validator

/-!
# Validators that go on

A validator that is not strict has an answer for every selector: what reading it
comes to, or nothing. A check leaves the context and the switches as they are, so
the answer for a selector among many is the answer for it alone.

## Main results

* `Validator.result_check` — the answer for one selector.
* `Validator.result_checkAll` — the answers for many, one for each.
-/

namespace SelectorCheck.Validator

variable (v : Validator) (selector : Option Text)

/-! ## What a check leaves as it is -/

@[simp] theorem context_check : (v.check selector).validator.context = v.context := by
  unfold check
  dsimp only
  split
  · rfl
  · split
    · rfl
    · split <;> rfl

@[simp] theorem strict_check : (v.check selector).validator.strict = v.strict := by
  unfold check
  dsimp only
  split
  · rfl
  · split
    · rfl
    · split <;> rfl

/-! ## Answers -/

variable {v}

/-- The answer is the selector that was read, if it was read. -/
theorem result_check (h : v.strict = false) :
    (v.check selector).result = .ok (Selector.parse? v.context selector).result.toOption := by
  unfold check
  dsimp only
  cases (Selector.parse? v.context selector).result with
  | ok parsed => rfl
  | error failure =>
    dsimp only
    rw [h, if_neg Bool.false_ne_true]
    split <;> rfl

/-- Every selector has an answer, which is the one that it has alone. -/
theorem result_checkAll (h : v.strict = false) (selectors : List (Option Text)) :
    (v.checkAll selectors).result =
      .ok (selectors.map fun s => (Selector.parse? v.context s).result.toOption) := by
  induction selectors generalizing v with
  | nil => rfl
  | cons selector rest ih =>
    have hfirst := result_check selector h
    have hstrict : (v.check selector).validator.strict = false := by rw [strict_check, h]
    have hothers := ih hstrict
    rw [context_check] at hothers
    simp only [checkAll, hfirst, hothers]
    rfl

end SelectorCheck.Validator
